import M1Switch.Gpu.Texture.TextureCache.Representation
import M1Switch.Memory.Memory

/-
  Cached textures and guest writes.

  A write drops the textures at its own address, and those it
  overlaps if it is of more than eight bytes.  A small write
  into the middle of a texture leaves it in the cache.

  Key definitions include:
    * `TextureCache.Touches`
    * `TextureCache.Dropped`

  Main results:
    * `actualSize_lt`
    * `lookup_writeCallback`
    * `coherent_run`
-/

------
-- Sizes
------

namespace M1Switch

namespace TextureCache

/- Fewer than 2^32 levels of fewer than 2^32 bytes. -/
theorem toNat_foldl_add_le
    (level : Nat → U32)
    (count : Nat)
    (hCount : count < 4294967296) :
    ((List.range count).foldl
      (fun (size : U64) mip =>
        size + (level mip).setWidth 64) 0).toNat ≤
      count * 4294967295 := by
  induction count with
  | zero => simp
  | succ count ih =>
      have hPrev := ih (by omega)
      rw [List.range_succ, List.foldl_append]
      simp only [List.foldl_cons, List.foldl_nil]
      have hLevel := (level count).isLt
      rw [BitVec.toNat_add, BitVec.toNat_setWidth]
      omega

/- No texture in the address space reaches around it. -/
theorem actualSize_lt (info : TextureInfo) :
    (actualSize info).toNat + 4294967296 <
      18446744073709551616 := by
  have hSum :=
    toNat_foldl_add_le
      (fun mip =>
        computeSurfaceSize (mipExtent info.width mip)
          (mipExtent info.height mip)
          (bytesPerPixel info.format) info.tileMode)
      info.mipLevels.toNat info.mipLevels.isLt
  have hMips := info.mipLevels.isLt
  have hProduct :
      info.mipLevels.toNat * 4294967295 ≤
        4294967295 * 4294967295 :=
    Nat.mul_le_mul_right _ (by omega)
  unfold actualSize
  dsimp only
  split_ifs
  · rw [BitVec.toNat_setWidth]
    have := (info.width * info.height *
      (1 : U32)).isLt
    omega
  · rw [BitVec.toNat_setWidth]
    have := (info.width * info.height *
      bytesPerPixel info.format).isLt
    omega
  · omega

------
-- What A Write Drops
------

open MapTotals

variable {cache : TextureCache} {key address : U64}
variable {entry : CachedTexture}

/- The bytes of a texture in guest memory. -/
def InTexture (info : TextureInfo) (i : Nat) : Prop :=
  info.gpuAddress.toNat ≤ i ∧
    i < info.gpuAddress.toNat + (actualSize info).toNat

/- A write of some bytes reaches a byte of a texture. -/
def Touches
    (address : U64)
    (count : Nat)
    (info : TextureInfo) : Prop :=
  ∃ i, Memory.InRange address count i ∧ InTexture info i

/- Entries are made from their descriptors. -/
def Described (cache : TextureCache) : Prop :=
  ∀ key entry, cache.entries.lookup key = some entry →
    entry.sizeBytes = actualSize entry.info ∧
      ∀ tex, entry.texture = some tex →
        tex.info = entry.info ∧ tex.serial < cache.created

/- Entries of a part of the cache. -/
theorem Described.of_entries
    {cache' : TextureCache}
    (hDescribed : Described cache)
    (hCreated : cache.created ≤ cache'.created)
    (hEntries :
      ∀ key entry, cache'.entries.lookup key = some entry →
        cache.entries.lookup key = some entry) :
    Described cache' := by
  intro key entry hSome
  rcases hDescribed key entry (hEntries key entry hSome) with
    ⟨hSize, hTex⟩
  refine ⟨hSize, fun tex hSomeTex => ?_⟩
  rcases hTex tex hSomeTex with ⟨hInfo, hSerial⟩
  exact ⟨hInfo, Nat.lt_of_lt_of_le hSerial hCreated⟩

theorem lookup_invalidateRegion
    {size : U64}
    {order : List U64}
    (hOrder : EntryOrder cache order)
    (hFound : cache.entries.lookup key = some entry) :
    (cache.invalidateRegion address size order).entries.lookup
        key =
      if address ≠ 0 ∧ size ≠ 0 ∧
          overlaps entry address size = true then none
      else some entry := by
  have hMem : key ∈ order := by
    rw [← Multiset.mem_coe, hOrder, Finset.mem_val,
      Finmap.mem_keys]
    exact Finmap.mem_of_lookup_eq_some hFound
  have hAt : cache.overlapsAt address size key =
      overlaps entry address size := by
    rw [overlapsAt, hFound]
  unfold invalidateRegion
  by_cases hZero : address = 0 ∨ size = 0
  · rw [if_pos hZero, hFound, if_neg]
    rintro ⟨hAddress, hSize, _⟩
    exact hZero.elim hAddress hSize
  · rw [if_neg hZero,
      entries_foldl (fun _ _ => entries_removeEntry),
      lookup_eraseAll, hFound]
    rcases not_or.mp hZero with ⟨hAddress, hSize⟩
    simp only [List.mem_filter, hMem, true_and, hAt]
    by_cases hOver : overlaps entry address size = true
    · rw [if_pos hOver, if_pos ⟨hAddress, hSize, hOver⟩]
    · rw [if_neg hOver, if_neg (fun hAll => hOver hAll.2.2)]

/- The entries that a write drops. -/
def Dropped
    (entry : CachedTexture)
    (address size : U64) : Prop :=
  address ≠ 0 ∧
    (entry.info.gpuAddress = address ∨
      size > 8 ∧ overlaps entry address size = true)

instance (entry : CachedTexture) (address size : U64) :
    Decidable (Dropped entry address size) :=
  inferInstanceAs (Decidable (_ ∧ _))

theorem lookup_writeCallback
    (hRep : Represented cache)
    {size : U64}
    {indexOrder entryOrder : List U64}
    (hIndex : IndexOrder cache address indexOrder)
    (hEntry :
      EntryOrder (cache.invalidate address indexOrder)
        entryOrder)
    (hFound : cache.entries.lookup key = some entry) :
    (cache.writeCallback address size indexOrder
        entryOrder).entries.lookup key =
      if Dropped entry address size then none
      else some entry := by
  have hFirst := lookup_invalidate hIndex key
  rw [hFound] at hFirst
  unfold writeCallback
  dsimp only
  by_cases hZero : address = 0
  · -- Writes at address 0 are ignored.
    have hStay : ¬ Dropped entry address size :=
      fun hDrop => hDrop.1 hZero
    rw [if_neg (fun hBoth => hBoth.1 hZero)] at hFirst
    rw [if_neg hStay]
    split_ifs
    · rw [lookup_invalidateRegion hEntry hFirst,
        if_neg (fun hAll => hAll.1 hZero)]
    · exact hFirst
  · have hKeys :
        key ∈ indexOrder ↔
          ∃ e, cache.entries.lookup key = some e ∧
            e.info.gpuAddress = address :=
      mem_order_iff hRep hIndex hZero
    by_cases hGpu : entry.info.gpuAddress = address
    · have hDrop : Dropped entry address size :=
        ⟨hZero, Or.inl hGpu⟩
      rw [if_pos ⟨hZero, hKeys.mpr ⟨entry, hFound, hGpu⟩⟩]
        at hFirst
      rw [if_pos hDrop]
      split_ifs
      · unfold invalidateRegion
        split_ifs
        · exact hFirst
        · rw [entries_foldl (fun _ _ => entries_removeEntry),
            lookup_eraseAll, hFirst]
          exact ite_self none
      · exact hFirst
    · have hNot : ¬ (address ≠ 0 ∧ key ∈ indexOrder) := by
        rintro ⟨_, hMem⟩
        rcases hKeys.mp hMem with ⟨e, hSome, hEq⟩
        cases hFound.symm.trans hSome
        exact hGpu hEq
      rw [if_neg hNot] at hFirst
      by_cases hLarge : size > 8
      · have hSize : size ≠ 0 := by
          rintro rfl
          exact absurd hLarge (by decide)
        rw [if_pos hLarge,
          lookup_invalidateRegion hEntry hFirst]
        apply if_congr _ rfl rfl
        constructor
        · rintro ⟨_, _, hOver⟩
          exact ⟨hZero, Or.inr ⟨hLarge, hOver⟩⟩
        · rintro ⟨_, hEq | ⟨_, hOver⟩⟩
          · exact absurd hEq hGpu
          · exact ⟨hZero, hSize, hOver⟩
      · have hStay : ¬ Dropped entry address size := by
          rintro ⟨_, hEq | ⟨hAll, _⟩⟩
          · exact hGpu hEq
          · exact hLarge hAll
        rw [if_neg hLarge, hFirst, if_neg hStay]

/- A write adds no entry. -/
theorem lookup_of_writeCallback
    {size : U64}
    {indexOrder entryOrder : List U64}
    (hIndex : IndexOrder cache address indexOrder)
    (hSome :
      (cache.writeCallback address size indexOrder
        entryOrder).entries.lookup key = some entry) :
    cache.entries.lookup key = some entry := by
  have hFirst := lookup_invalidate hIndex key
  have hMid :
      (cache.invalidate address indexOrder).entries.lookup
        key = some entry := by
    unfold writeCallback invalidateRegion at hSome
    dsimp only at hSome
    split_ifs at hSome
    · exact hSome
    · rw [entries_foldl (fun _ _ => entries_removeEntry),
        lookup_eraseAll] at hSome
      split_ifs at hSome
      exact hSome
    · exact hSome
  rw [hMid] at hFirst
  split_ifs at hFirst
  exact hFirst.symm

theorem Represented.writeCallback
    {indexOrder : List U64}
    (hRep : Represented cache)
    (hIndex : IndexOrder cache address indexOrder)
    (size : U64)
    (entryOrder : List U64) :
    Represented
      (cache.writeCallback address size indexOrder
        entryOrder) := by
  have hFirst := hRep.invalidate hIndex
  unfold TextureCache.writeCallback
  dsimp only
  split_ifs
  · exact hFirst.invalidateRegion address size entryOrder
  · exact hFirst

theorem created_writeCallback
    (cache : TextureCache)
    (address size : U64)
    (indexOrder entryOrder : List U64) :
    (cache.writeCallback address size indexOrder
      entryOrder).created = cache.created := by
  have hFirst :
      (cache.invalidate address indexOrder).created =
        cache.created := by
    unfold TextureCache.invalidate
    split_ifs
    · rfl
    · rfl
    · exact created_foldl (fun _ _ => created_dropEntry) _ _
  unfold TextureCache.writeCallback invalidateRegion
  dsimp only
  split_ifs
  · exact hFirst
  · exact (created_foldl (fun _ _ => created_removeEntry)
      _ _).trans hFirst
  · exact hFirst

/- A texture that a write reaches overlaps it. -/
theorem overlaps_of_touches
    {count : Nat}
    (hSize : entry.sizeBytes = actualSize entry.info)
    (hCount : address.toNat + count ≤ Memory.ADDR_SPACE_SIZE)
    (hTouches : Touches address count entry.info) :
    overlaps entry address (BitVec.ofNat 64 count) = true := by
  rcases hTouches with ⟨i, ⟨hFrom, hTo⟩, hLow, hHigh⟩
  have hSpace : Memory.ADDR_SPACE_SIZE = 4294967296 := rfl
  have hBound := actualSize_lt entry.info
  unfold overlaps
  simp only [Bool.and_eq_true, decide_eq_true_eq, gt_iff_lt,
    BitVec.lt_def, BitVec.toNat_add, BitVec.toNat_ofNat, hSize]
  omega

------
-- Guest Writes And Lookups
------

/-
  The cache and the memory bound to it.  The clock counts
  events; `writtenAt` has the latest write to each byte and
  `uploadedAt` the upload of each texture, by its serial.  No
  step of the code reads them.
-/
structure GuestState where
  cache : TextureCache := {}
  memory : Memory
  clock : Nat := 0
  writtenAt : Nat → Nat := fun _ => 0
  uploadedAt : Nat → Nat := fun _ => 0

inductive GuestEvent where
  | getOrCreate
      (info : TextureInfo)
      (guestMemory : Option (Nat → U8))
      (sorted : Nat → U64)
  | write
      (address : U64)
      (value : List U8)
      (indexOrder entryOrder : List U64)

namespace GuestState

variable {device : MTLDevice} {s : GuestState}

def step
    (device : MTLDevice)
    (s : GuestState) : GuestEvent → GuestState
| .getOrCreate info guestMemory sorted =>
    let cache :=
      (s.cache.getOrCreate device info guestMemory sorted).2
    { s with
      cache := cache
      clock := s.clock + 1
      uploadedAt :=
        if s.cache.created < cache.created then
          Function.update s.uploadedAt s.cache.created
            (s.clock + 1)
        else s.uploadedAt }
| .write address value indexOrder entryOrder =>
    match s.memory.write address value with
    | none => { s with clock := s.clock + 1 }
    | some memory =>
        { s with
          memory := memory
          cache :=
            s.cache.writeCallback address
              (BitVec.ofNat 64 value.length) indexOrder
              entryOrder
          clock := s.clock + 1
          writtenAt := fun i =>
            if Memory.InRange address value.length i then
              s.clock + 1
            else s.writtenAt i }

/- The orders are ones that the event may meet. -/
def Orders (s : GuestState) : GuestEvent → Prop
| .getOrCreate info _ sorted =>
    EvictionOrder
      (s.cache.insertEntry info ⟨s.cache.created, info⟩) sorted
| .write address _ indexOrder entryOrder =>
    IndexOrder s.cache address indexOrder ∧
      EntryOrder (s.cache.invalidate address indexOrder)
        entryOrder

/-
  A write that reaches a cached texture is not at address 0,
  and it is at the texture's own address or of more than
  eight bytes.
-/
def Covered (s : GuestState) : GuestEvent → Prop
| .getOrCreate _ _ _ => True
| .write address value _ _ =>
    s.memory.write address value ≠ none →
      ∀ key entry,
        s.cache.entries.lookup key = some entry →
          Touches address value.length entry.info →
            address ≠ 0 ∧
              (entry.info.gpuAddress = address ∨
                8 < value.length)

/-
  A write drops the textures it reaches; a lookup returns a
  texture uploaded after the last write to its bytes.
-/
def StepCoherent
    (device : MTLDevice)
    (s : GuestState) : GuestEvent → Prop
| .getOrCreate info guestMemory sorted =>
    ∀ tex,
      (s.cache.getOrCreate device info guestMemory
          sorted).1 = some tex →
        ∀ i, InTexture tex.info i →
          s.writtenAt i <
            (s.step device
              (.getOrCreate info guestMemory
                sorted)).uploadedAt tex.serial
| .write address value indexOrder entryOrder =>
    s.memory.write address value ≠ none →
      ∀ key entry,
        s.cache.entries.lookup key = some entry →
          Touches address value.length entry.info →
            (s.step device
              (.write address value indexOrder
                entryOrder)).cache.entries.lookup key = none

/- What holds in every state of a covered run. -/
structure Consistent (s : GuestState) : Prop where
  represented : Represented s.cache
  described : Described s.cache
  written : ∀ i, s.writtenAt i ≤ s.clock
  fresh :
    ∀ key entry tex,
      s.cache.entries.lookup key = some entry →
        entry.texture = some tex →
          ∀ i, InTexture entry.info i →
            s.writtenAt i < s.uploadedAt tex.serial

theorem consistent_start (memory : Memory) :
    Consistent { memory := memory } := by
  refine ⟨represented_empty, ?_, fun _ => Nat.le_refl 0, ?_⟩
  · intro key entry hSome
    cases hSome
  · intro key entry tex hSome
    cases hSome

/- What a call leaves in the cache: old textures and its own. -/
theorem lookup_getOrCreate
    {info : TextureInfo}
    {guestMemory : Option (Nat → U8)}
    {sorted : Nat → U64}
    (hRep : Represented cache)
    (hSome :
      (cache.getOrCreate device info guestMemory
        sorted).2.entries.lookup key = some entry) :
    (∃ old, cache.entries.lookup key = some old ∧
      old.info = entry.info ∧ old.texture = entry.texture ∧
        old.sizeBytes = entry.sizeBytes) ∨
      (entry.texture = some ⟨cache.created, info⟩ ∧
        entry.info = info ∧
          entry.sizeBytes = actualSize info ∧
            cache.created <
              (cache.getOrCreate device info guestMemory
                sorted).2.created) := by
  cases hRep.getOrCreate_cases device info guestMemory sorted
    with
  | hit old tex hFound hTex hOut =>
      rw [hOut] at hSome
      rcases MapTotals.lookup_insert_cases hSome with
        ⟨rfl, rfl⟩ | ⟨_, hOld⟩
      · exact Or.inl ⟨old, hFound, rfl, rfl, rfl⟩
      · exact Or.inl ⟨entry, hOld, rfl, rfl, rfl⟩
  | failed hFree hNot hOut =>
      rw [hOut] at hSome
      exact Or.inl ⟨entry, hSome, rfl, rfl, rfl⟩
  | made hFree hCreates hOut =>
      rw [hOut] at hSome ⊢
      rcases lookup_storeTexture hSome with
        ⟨_, hInfo, hTex, hSize⟩ | ⟨_, hOld⟩
      · refine Or.inr ⟨hTex, hInfo, hSize, ?_⟩
        rw [created_storeTexture]
        exact Nat.lt_succ_self _
      · exact Or.inl ⟨entry, hOld, rfl, rfl, rfl⟩

theorem created_le_getOrCreate
    (hRep : Represented cache)
    (device : MTLDevice)
    (info : TextureInfo)
    (guestMemory : Option (Nat → U8))
    (sorted : Nat → U64) :
    cache.created ≤
      (cache.getOrCreate device info guestMemory
        sorted).2.created := by
  cases hRep.getOrCreate_cases device info guestMemory sorted
    with
  | hit old tex hFound hTex hOut =>
      rw [hOut]
  | failed hFree hNot hOut =>
      rw [hOut]
  | made hFree hCreates hOut =>
      rw [hOut, created_storeTexture]
      exact Nat.le_succ _

theorem Consistent.getOrCreate
    (hCons : Consistent s)
    (device : MTLDevice)
    (info : TextureInfo)
    (guestMemory : Option (Nat → U8))
    (sorted : Nat → U64) :
    Consistent
      (s.step device
        (.getOrCreate info guestMemory sorted)) := by
  have hRep := hCons.represented
  have hLe :=
    created_le_getOrCreate hRep device info guestMemory
      sorted
  refine ⟨hRep.getOrCreate device info guestMemory sorted,
    ?_, ?_, ?_⟩
  · intro key entry hSome
    rcases lookup_getOrCreate hRep hSome with
      ⟨old, hOld, hInfo, hTex, hSize⟩ |
        ⟨hTex, hInfo, hSize, hCreated⟩
    · rcases hCons.described key old hOld with ⟨hOldSize, hOldTex⟩
      rw [← hSize, ← hInfo, ← hTex]
      refine ⟨hOldSize, fun tex hSomeTex => ?_⟩
      rcases hOldTex tex hSomeTex with ⟨hTexInfo, hSerial⟩
      exact ⟨hTexInfo, Nat.lt_of_lt_of_le hSerial hLe⟩
    · rw [hSize, hInfo, hTex]
      refine ⟨rfl, fun tex hSomeTex => ?_⟩
      cases hSomeTex
      exact ⟨rfl, hCreated⟩
  · intro i
    exact Nat.le_succ_of_le (hCons.written i)
  · intro key entry tex hSome hTex i hIn
    rcases lookup_getOrCreate hRep hSome with
      ⟨old, hOld, hInfo, hOldTex, _⟩ | ⟨hNew, _, _, hCreated⟩
    · rw [← hOldTex] at hTex
      rw [← hInfo] at hIn
      have hFresh := hCons.fresh key old tex hOld hTex i hIn
      have hSerial := ((hCons.described key old hOld).2 tex
        hTex).2
      simp only [step]
      split_ifs
      · rw [Function.update_of_ne (by omega)]
        exact hFresh
      · exact hFresh
    · cases hNew.symm.trans hTex
      simp only [step]
      rw [if_pos hCreated, Function.update_self]
      exact Nat.lt_succ_of_le (hCons.written i)

/- A write that succeeds stays in the address space. -/
theorem le_of_write
    {memory : Memory}
    {value : List U8}
    (hWrite : memory.write address value ≠ none) :
    address.toNat + value.length ≤ Memory.ADDR_SPACE_SIZE := by
  unfold Memory.write at hWrite
  split_ifs at hWrite with hBad
  · exact absurd rfl hWrite
  · rcases not_or.mp hBad with ⟨_, hEnd⟩
    omega

/- A covered write drops what it reaches. -/
theorem Consistent.dropped
    {value : List U8}
    {indexOrder entryOrder : List U64}
    (hCons : Consistent s)
    (hCovered :
      s.Covered (.write address value indexOrder entryOrder))
    (hWrite : s.memory.write address value ≠ none)
    (hFound : s.cache.entries.lookup key = some entry)
    (hTouches : Touches address value.length entry.info) :
    Dropped entry address (BitVec.ofNat 64 value.length) := by
  have hEnd := le_of_write hWrite
  have hSize := (hCons.described key entry hFound).1
  rcases hCovered hWrite key entry hFound hTouches with
    ⟨hZero, hGpu | hLarge⟩
  · exact ⟨hZero, Or.inl hGpu⟩
  · refine ⟨hZero, Or.inr ⟨?_,
      overlaps_of_touches hSize hEnd hTouches⟩⟩
    have hSpace : Memory.ADDR_SPACE_SIZE = 4294967296 := rfl
    rw [gt_iff_lt, BitVec.lt_def, BitVec.toNat_ofNat]
    show 8 < _
    omega

theorem Consistent.write
    {value : List U8}
    {indexOrder entryOrder : List U64}
    (hCons : Consistent s)
    (hOrders :
      s.Orders (.write address value indexOrder entryOrder))
    (hCovered :
      s.Covered (.write address value indexOrder entryOrder)) :
    Consistent
      (s.step device
        (.write address value indexOrder entryOrder)) := by
  rcases hOrders with ⟨hIndex, hEntry⟩
  simp only [step]
  cases hWrite : s.memory.write address value with
  | none =>
      refine ⟨hCons.represented, hCons.described, ?_,
        hCons.fresh⟩
      intro i
      exact Nat.le_succ_of_le (hCons.written i)
  | some memory =>
      have hSome : s.memory.write address value ≠ none := by
        rw [hWrite]
        exact fun hNone => nomatch hNone
      refine ⟨hCons.represented.writeCallback hIndex _ _, ?_,
        ?_, ?_⟩
      · apply hCons.described.of_entries
        · exact Nat.le_of_eq
            (created_writeCallback _ _ _ _ _).symm
        · intro key entry hLeft
          exact lookup_of_writeCallback hIndex hLeft
      · intro i
        dsimp only
        split_ifs
        · exact Nat.le_refl _
        · exact Nat.le_succ_of_le (hCons.written i)
      · -- What is left was not reached by the write.
        intro key entry tex hLeft hTex i hIn
        have hFound := lookup_of_writeCallback hIndex hLeft
        have hOut :
            ¬ Memory.InRange address value.length i := by
          intro hRange
          have hDrop := hCons.dropped hCovered hSome hFound
            ⟨i, hRange, hIn⟩
          dsimp only at hLeft
          rw [lookup_writeCallback hCons.represented hIndex
            hEntry hFound, if_pos hDrop] at hLeft
          cases hLeft
        dsimp only
        rw [if_neg hOut]
        exact hCons.fresh key entry tex hFound hTex i hIn

theorem Consistent.step
    {e : GuestEvent}
    (hCons : Consistent s)
    (hOrders : s.Orders e)
    (hCovered : s.Covered e) :
    Consistent (s.step device e) := by
  cases e with
  | getOrCreate info guestMemory sorted =>
      exact hCons.getOrCreate device info guestMemory sorted
  | write address value indexOrder entryOrder =>
      exact hCons.write hOrders hCovered

theorem Consistent.stepCoherent
    {e : GuestEvent}
    (hCons : Consistent s)
    (hOrders : s.Orders e)
    (hCovered : s.Covered e) :
    StepCoherent device s e := by
  cases e with
  | getOrCreate info guestMemory sorted =>
      intro tex hTex i hIn
      simp only [GuestState.step]
      cases hCons.represented.getOrCreate_cases device info
        guestMemory sorted with
      | hit entry tex' hFound hEntryTex hOut =>
          rw [hOut] at hTex ⊢
          cases hTex
          rcases (hCons.described _ entry hFound).2 tex
            hEntryTex with ⟨hInfo, _⟩
          rw [hInfo] at hIn
          rw [if_neg (Nat.lt_irrefl _)]
          exact hCons.fresh _ entry tex hFound hEntryTex i hIn
      | failed hFree hNot hOut =>
          rw [hOut] at hTex
          cases hTex
      | made hFree hCreates hOut =>
          rw [hOut] at hTex ⊢
          cases hTex
          dsimp only
          rw [created_storeTexture, if_pos (Nat.lt_succ_self _),
            Function.update_self]
          exact Nat.lt_succ_of_le (hCons.written i)
  | write address value indexOrder entryOrder =>
      intro hWrite key entry hFound hTouches
      have hDrop := hCons.dropped hCovered hWrite hFound hTouches
      rcases hOrders with ⟨hIndex, hEntry⟩
      rcases Option.ne_none_iff_exists'.mp hWrite with
        ⟨memory, hMemory⟩
      simp only [GuestState.step, hMemory]
      rw [lookup_writeCallback hCons.represented hIndex hEntry
        hFound, if_pos hDrop]

/-
  In every run of lookups and covered writes, each write drops
  the textures it reaches and each lookup returns a texture
  younger than the last write to its bytes.
-/
theorem coherent_run
    (device : MTLDevice)
    (memory : Memory)
    (events : List GuestEvent)
    (hRun :
      EventRun.Guarded (step device)
        (fun s e => s.Orders e ∧ s.Covered e)
        { memory := memory } events) :
    ∀ before e, before ++ [e] <+: events →
      StepCoherent device
        (EventRun.stateAfter (step device)
          { memory := memory } before)
        e := by
  intro before e hBefore
  rcases hRun before e hBefore with ⟨hOrders, hCovered⟩
  have hPart := hRun.of_isPrefix
    ((List.prefix_append before [e]).trans hBefore)
  have hCons :=
    EventRun.Guarded.invariant
      (I := fun _ s => Consistent s)
      (consistent_start memory)
      (fun _ _ hCons hGuard =>
        hCons.step hGuard.1 hGuard.2)
      hPart
  exact hCons.stepCoherent hOrders hCovered

/- The texture is made, and then made again. -/
def makeSample : GuestEvent :=
  .getOrCreate sampleInfo (some fun _ => 0)
    (fun _ => makeKey sampleInfo)

/- A byte is written at an address. -/
def writeByte
    (address : U64)
    (indexOrder entryOrder : List U64) : GuestEvent :=
  .write address [1] indexOrder entryOrder

def sampleStart : GuestState :=
  { memory := ⟨fun _ => 0⟩ }

theorem orders_makeSample
    (hEmpty : s.cache.entries = ∅) :
    s.Orders makeSample := by
  refine ⟨[(makeKey sampleInfo, s.cache.frameCount)], ?_, ?_,
    ?_⟩
  · unfold TextureCache.insertEntry
    simp only [hEmpty]
    rfl
  · exact List.pairwise_singleton _ _
  · intro i hI
    have hZero : i = 0 := by simpa using hI
    subst hZero
    rfl

def rewrittenBase : List GuestEvent :=
  [makeSample, writeByte 0x1000 [makeKey sampleInfo] [],
    makeSample]

/- A write to the first byte of a texture is seen. -/
theorem rewrittenBase_coherent :
    EventRun.Guarded (step anyDevice)
        (fun s e => s.Orders e ∧ s.Covered e) sampleStart
        rewrittenBase ∧
      StepCoherent anyDevice
        (EventRun.stateAfter (step anyDevice) sampleStart
          [makeSample, writeByte 0x1000 [makeKey sampleInfo] []])
        makeSample := by
  have hGpu :
      ∀ row ∈ (sampleStart.step anyDevice
          makeSample).cache.entries.entries,
        row.2.info.gpuAddress = 0x1000 := by
    decide
  have hGuarded :
      EventRun.Guarded (step anyDevice)
        (fun s e => s.Orders e ∧ s.Covered e) sampleStart
        rewrittenBase := by
    unfold rewrittenBase
    simp only [EventRun.guarded_cons]
    refine ⟨⟨orders_makeSample rfl, trivial⟩, ⟨⟨?_, ?_⟩, ?_⟩,
      ⟨orders_makeSample ?_, trivial⟩, EventRun.guarded_nil⟩
    · show (_ : Multiset U64) = _
      decide
    · show (_ : Multiset U64) = _
      decide
    · intro _ key entry hFound _
      refine ⟨by decide, Or.inl ?_⟩
      exact hGpu ⟨key, entry⟩
        (MapTotals.mem_entries_iff.mpr hFound)
    · decide
  refine ⟨hGuarded, ?_⟩
  exact coherent_run anyDevice ⟨fun _ => 0⟩ rewrittenBase
    hGuarded _ makeSample (List.prefix_refl _)

/- A write to a later byte is not. -/
theorem rewrittenByte_not_coherent :
    (sampleStart.step anyDevice makeSample).Orders
        (writeByte 0x1004 [] [makeKey sampleInfo]) ∧
      ¬ StepCoherent anyDevice
        (sampleStart.step anyDevice makeSample)
        (writeByte 0x1004 [] [makeKey sampleInfo]) ∧
        ¬ StepCoherent anyDevice
          ((sampleStart.step anyDevice makeSample).step anyDevice
            (writeByte 0x1004 [] [makeKey sampleInfo]))
          makeSample := by
  have hTouched : InTexture sampleInfo 0x1004 := by
    unfold InTexture
    decide
  refine ⟨⟨?_, ?_⟩, ?_, ?_⟩
  · show (_ : Multiset U64) = _
    decide
  · show (_ : Multiset U64) = _
    decide
  · intro hCoherent
    have hGone := hCoherent (by decide)
      (makeKey sampleInfo)
      { cacheKey := makeKey sampleInfo
        info := sampleInfo
        texture := some ⟨0, sampleInfo⟩
        frameUsed := 0
        sizeBytes := 64 }
      (by decide)
      ⟨0x1004, by decide, hTouched⟩
    revert hGone
    decide
  · intro hCoherent
    have hOld := hCoherent ⟨0, sampleInfo⟩ (by decide)
      0x1004 hTouched
    revert hOld
    decide

end GuestState

end TextureCache

end M1Switch
