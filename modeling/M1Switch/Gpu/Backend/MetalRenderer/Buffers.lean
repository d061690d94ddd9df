import M1Switch.Gpu.Backend.Metal
import M1Switch.Library.EventRun
import M1Switch.Library.LruEviction
import M1Switch.Memory.Memory

/-
  The cache of the buffers around guest memory.

  A buffer that is large enough is reused; otherwise one is
  made, and if the cache is full a batch of the buffers used
  least recently is released.  The sort by frames may put the
  buffer that was just made first among those of its frame.

  Key definitions include:
    * `BufferCache`
    * `getOrCreateCachedBuffer`

  Main results:
    * `inv_run`
    * `bufferKept_iff_spared`
    * `buffersKept_iff`
-/

------
-- The Cache
------

namespace M1Switch

structure CachedBuffer where
  buffer : MTLBuffer
  lastFrameUsed : U64
  size : U32
deriving DecidableEq

/-
  What a call finds: the guest memory of the tracker, and
  whether the device makes a buffer of an address and length.
-/
structure BufferHost where
  memory : Option Memory
  newBuffer : U64 → U32 → Bool

/- `created` counts the buffers, `released` lists them. -/
structure BufferCache where
  entries : Finmap fun _ : U64 => CachedBuffer := ∅
  frameCount : U64 := 0
  created : Nat := 0
  released : List MTLBuffer := []

namespace BufferCache

open MapTotals
open LruEviction

def MAX_ENTRIES : Nat := 256
def EVICT_COUNT : Nat := 32

variable (cache : BufferCache)

def size : Nat :=
  cache.entries.keys.card

/- Release the buffer of an address and forget it. -/
def invalidateCachedBuffer (address : U64) : BufferCache :=
  match cache.entries.lookup address with
  | none => cache
  | some entry =>
      { cache with
        entries := cache.entries.erase address
        released := entry.buffer :: cache.released }

/- The number of entries to evict, in 32 bits. -/
def toEvict : Nat :=
  min EVICT_COUNT
    ((cache.size % 4294967296 + 4294967295) % 4294967296)

/- `sorted` lists the addresses as the sort leaves them. -/
def evictLRU (sorted : List U64) : BufferCache :=
  if cache.size = 0 then cache
  else
    (sorted.take cache.toEvict).foldl invalidateCachedBuffer
      cache

/- The entry of a new buffer. -/
def insertNew (address : U64) (minSize : U32) : BufferCache :=
  { cache with
    created := cache.created + 1
    entries := cache.entries.insert address
      { buffer := ⟨cache.created, address, minSize⟩
        lastFrameUsed := cache.frameCount
        size := minSize } }

/- What follows a miss, or a buffer that was too small. -/
def createBuffer
    (host : BufferHost)
    (address : U64)
    (minSize : U32)
    (sorted : List U64) : Option MTLBuffer × BufferCache :=
  match host.memory with
  | none => (none, cache)
  | some mem =>
      match mem.pointer address with
      | none => (none, cache)
      | some _ =>
          if host.newBuffer address minSize then
            let buf : MTLBuffer :=
              ⟨cache.created, address, minSize⟩
            let cache := cache.insertNew address minSize
            if cache.size > MAX_ENTRIES then
              (some buf, cache.evictLRU sorted)
            else (some buf, cache)
          else (none, cache)

def getOrCreateCachedBuffer
    (host : BufferHost)
    (address : U64)
    (minSize : U32)
    (sorted : List U64) : Option MTLBuffer × BufferCache :=
  if address = 0 then (none, cache)
  else
    match cache.entries.lookup address with
    | none => cache.createBuffer host address minSize sorted
    | some entry =>
        if minSize ≤ entry.size then
          (some entry.buffer,
            { cache with
              entries := cache.entries.insert address
                { entry with
                  lastFrameUsed := cache.frameCount } })
        else
          (cache.invalidateCachedBuffer address).createBuffer
            host address minSize sorted

/- What happens to the cache, frame after frame. -/
inductive BufferOp where
  | getOrCreate
      (host : BufferHost)
      (address : U64)
      (minSize : U32)
      (sorted : List U64)
  | invalidate (address : U64)
  | nextFrame

def step (cache : BufferCache) : BufferOp → BufferCache
| .getOrCreate host address minSize sorted =>
    (cache.getOrCreateCachedBuffer host address minSize
      sorted).2
| .invalidate address => cache.invalidateCachedBuffer address
| .nextFrame =>
    { cache with frameCount := cache.frameCount + 1 }

------
-- What Is Claimed Of A Call
------

open MapTotals
open LruEviction

def frameOf (entry : CachedBuffer) : Nat :=
  entry.lastFrameUsed.toNat

/- Addresses in an order the sort may leave them in. -/
def SortOrder (sorted : List U64) : Prop :=
  ∃ rows,
    OldestFirst frameOf cache.entries rows ∧
      sorted = rows.map (·.1)

/- The cache with a new buffer, as an eviction finds it. -/
def inserted (address : U64) (minSize : U32) : BufferCache :=
  (cache.invalidateCachedBuffer address).insertNew address
    minSize

/- The orders are ones that the operation may meet. -/
def Admissible (cache : BufferCache) : BufferOp → Prop
| .getOrCreate _ address minSize sorted =>
    SortOrder (cache.inserted address minSize) sorted
| _ => True

/-
  The buffer of a call is large enough and still cached, and
  the cache keeps its limit, in whatever order the sort leaves
  the entries.
-/
def BufferKept (cache : BufferCache) : BufferOp → Prop
| .getOrCreate host address minSize _ =>
    ∀ sorted,
      SortOrder (cache.inserted address minSize) sorted →
        let out :=
          cache.getOrCreateCachedBuffer host address minSize
            sorted
        out.2.size ≤ MAX_ENTRIES ∧
          ∀ buf, out.1 = some buf →
            minSize ≤ buf.length ∧
              ∃ entry,
                out.2.entries.lookup address = some entry ∧
                  entry.buffer = buf
| _ => True

/- Entries that were last used in an earlier frame. -/
def olderEntries : Nat :=
  (cache.entries.entries.filter fun row =>
    row.2.lastFrameUsed < cache.frameCount).card

/- A buffer can be made of an address and length. -/
structure Supplies
    (host : BufferHost)
    (address : U64)
    (minSize : U32) : Prop where
  nonzero : address ≠ 0
  memory : host.memory.isSome
  valid : Memory.isValid address
  newBuffer : host.newBuffer address minSize

/-
  If a buffer is added to a full cache, enough entries are
  from earlier frames.
-/
def Spared (cache : BufferCache) : BufferOp → Prop
| .getOrCreate host address minSize _ =>
    Supplies host address minSize →
      cache.entries.lookup address = none →
        cache.size = MAX_ENTRIES →
          EVICT_COUNT ≤ cache.olderEntries
| _ => True

------
-- The Steps Of A Call
------

open MapTotals
open LruEviction

variable {cache : BufferCache} {host : BufferHost}
variable {address : U64} {minSize : U32} {sorted : List U64}

theorem entries_invalidate (cache : BufferCache) (k : U64) :
    (cache.invalidateCachedBuffer k).entries =
      cache.entries.erase k := by
  unfold invalidateCachedBuffer
  cases hFound : cache.entries.lookup k with
  | none => exact (erase_of_lookup_none hFound).symm
  | some entry => rfl

theorem frameCount_invalidate (cache : BufferCache) (k : U64) :
    (cache.invalidateCachedBuffer k).frameCount =
      cache.frameCount := by
  unfold invalidateCachedBuffer
  cases cache.entries.lookup k <;> rfl

theorem invalidate_of_none
    (hNone : cache.entries.lookup address = none) :
    cache.invalidateCachedBuffer address = cache := by
  unfold invalidateCachedBuffer
  rw [hNone]

theorem entries_foldl_invalidate (keys : List U64) :
    ∀ cache : BufferCache,
      (keys.foldl invalidateCachedBuffer cache).entries =
        eraseAll cache.entries keys := by
  induction keys with
  | nil => exact fun cache => rfl
  | cons key keys ih =>
      intro cache
      rw [List.foldl_cons, ih, entries_invalidate]
      rfl

/- The entry of the buffer that a call makes. -/
def newEntry
    (cache : BufferCache)
    (address : U64)
    (minSize : U32) : CachedBuffer :=
  { buffer :=
      ⟨(cache.invalidateCachedBuffer address).created, address,
        minSize⟩
    lastFrameUsed := cache.frameCount
    size := minSize }

theorem entries_inserted :
    (cache.inserted address minSize).entries =
      (cache.entries.erase address).insert address
        (newEntry cache address minSize) := by
  unfold inserted insertNew newEntry
  dsimp only
  rw [entries_invalidate, frameCount_invalidate]

theorem lookup_inserted :
    (cache.inserted address minSize).entries.lookup address =
      some (newEntry cache address minSize) := by
  rw [entries_inserted, Finmap.lookup_insert]

/- The outcomes of a call. -/
inductive Outcome
    (cache : BufferCache)
    (host : BufferHost)
    (address : U64)
    (minSize : U32)
    (sorted : List U64) : Prop
  | failed
      (hNot : ¬ Supplies host address minSize)
      (hEntries :
        ∀ k entry,
          (cache.getOrCreateCachedBuffer host address minSize
              sorted).2.entries.lookup k = some entry →
            cache.entries.lookup k = some entry)
      (hNone :
        (cache.getOrCreateCachedBuffer host address minSize
          sorted).1 = none)
  | reused
      (entry : CachedBuffer)
      (hFound : cache.entries.lookup address = some entry)
      (hLarge : minSize ≤ entry.size)
      (hOut :
        cache.getOrCreateCachedBuffer host address minSize
            sorted =
          (some entry.buffer,
            { cache with
              entries := cache.entries.insert address
                { entry with
                  lastFrameUsed := cache.frameCount } }))
  | made
      (hSupplies : Supplies host address minSize)
      (hOut :
        cache.getOrCreateCachedBuffer host address minSize
            sorted =
          (some (newEntry cache address minSize).buffer,
            if (cache.inserted address minSize).size >
                MAX_ENTRIES then
              (cache.inserted address minSize).evictLRU sorted
            else cache.inserted address minSize))

/- A call that has no buffer to reuse. -/
theorem outcome_of_create
    (hAddress : address ≠ 0)
    (hCall :
      cache.getOrCreateCachedBuffer host address minSize
          sorted =
        (cache.invalidateCachedBuffer address).createBuffer
          host address minSize sorted) :
    Outcome cache host address minSize sorted := by
  by_cases hSupplies : Supplies host address minSize
  · rcases Option.isSome_iff_exists.mp hSupplies.memory with
      ⟨mem, hMemory⟩
    refine .made hSupplies ?_
    rw [hCall]
    unfold createBuffer
    rw [hMemory]
    simp only [Memory.pointer, hSupplies.valid, if_true,
      hSupplies.newBuffer]
    unfold inserted
    split_ifs <;> rfl
  · have hCreate :
        (cache.invalidateCachedBuffer address).createBuffer
            host address minSize sorted =
          (none, cache.invalidateCachedBuffer address) := by
      unfold createBuffer
      cases hMemory : host.memory with
      | none => rfl
      | some mem =>
          by_cases hValid : Memory.isValid address
          · have hDevice :
                ¬ host.newBuffer address minSize := by
              intro hNew
              exact hSupplies
                ⟨hAddress, by rw [hMemory]; rfl, hValid, hNew⟩
            simp only [Memory.pointer, hValid, if_true,
              if_neg hDevice]
          · simp only [Memory.pointer, hValid]
            rfl
    refine .failed hSupplies ?_ ?_
    · intro k entry hSome
      rw [hCall, hCreate, entries_invalidate] at hSome
      exact lookup_of_erase hSome
    · rw [hCall, hCreate]

theorem outcome
    (cache : BufferCache)
    (host : BufferHost)
    (address : U64)
    (minSize : U32)
    (sorted : List U64) :
    Outcome cache host address minSize sorted := by
  by_cases hZero : address = 0
  · have hCall :
        cache.getOrCreateCachedBuffer host address minSize
          sorted = (none, cache) := by
      unfold getOrCreateCachedBuffer
      rw [if_pos hZero]
    refine .failed (fun hBoth => hBoth.nonzero hZero) ?_ ?_
    · intro k entry hSome
      rw [hCall] at hSome
      exact hSome
    · rw [hCall]
  · cases hFound : cache.entries.lookup address with
    | none =>
        apply outcome_of_create hZero
        unfold getOrCreateCachedBuffer
        rw [if_neg hZero, hFound, invalidate_of_none hFound]
    | some entry =>
        by_cases hLarge : minSize ≤ entry.size
        · refine .reused entry hFound hLarge ?_
          unfold getOrCreateCachedBuffer
          rw [if_neg hZero, hFound]
          simp only [if_pos hLarge]
        · apply outcome_of_create hZero
          unfold getOrCreateCachedBuffer
          rw [if_neg hZero, hFound]
          simp only [if_neg hLarge]

------
-- Full Caches
------

variable {rows : List (U64 × Nat)}

/- The limit, and the lengths the entries have in them. -/
structure Inv (cache : BufferCache) : Prop where
  limit : cache.size ≤ MAX_ENTRIES
  length :
    ∀ k entry, cache.entries.lookup k = some entry →
      entry.size = entry.buffer.length

theorem evictLRU_entries (hNonempty : 0 < cache.size) :
    (cache.evictLRU (rows.map (·.1))).entries =
      evict cache.entries rows cache.toEvict := by
  unfold evictLRU
  rw [if_neg (by omega), entries_foldl_invalidate,
    ← List.map_take]
  rfl

theorem size_inserted :
    (cache.inserted address minSize).size =
      (cache.entries.erase address).keys.card + 1 := by
  unfold size
  rw [entries_inserted, card_insert, Finmap.keys_erase,
    Finmap.keys_erase, Finset.erase_idem]

/- A new address makes a full cache too large. -/
theorem size_inserted_full
    (hNone : cache.entries.lookup address = none)
    (hFull : cache.size = MAX_ENTRIES) :
    (cache.inserted address minSize).size =
      MAX_ENTRIES + 1 := by
  rw [size_inserted, erase_of_lookup_none hNone]
  exact congrArg (· + 1) hFull

/- Nothing else does. -/
theorem overfull_iff
    (hLimit : cache.size ≤ MAX_ENTRIES) :
    (cache.inserted address minSize).size > MAX_ENTRIES ↔
      cache.entries.lookup address = none ∧
        cache.size = MAX_ENTRIES := by
  rw [size_inserted]
  cases hFound : cache.entries.lookup address with
  | none =>
      rw [erase_of_lookup_none hFound]
      change cache.size + 1 > MAX_ENTRIES ↔ _
      constructor
      · intro hOver
        exact ⟨rfl, by omega⟩
      · rintro ⟨_, hFull⟩
        omega
  | some entry =>
      have hCard : _ = cache.size := card_erase_of_lookup hFound
      constructor
      · intro hOver
        omega
      · rintro ⟨hNone, _⟩
        cases hNone

/- The new entry is of this frame; the others are counted. -/
theorem older_inserted
    (minSize : U32)
    (hNone : cache.entries.lookup address = none) :
    older frameOf (cache.inserted address minSize).entries
        (frameOf (newEntry cache address minSize)) =
      cache.olderEntries := by
  have hEntries :
      (cache.inserted address minSize).entries.entries =
        ⟨address, newEntry cache address minSize⟩ ::ₘ
          cache.entries.entries := by
    rw [entries_inserted, erase_of_lookup_none hNone,
      entries_insert_erase, erase_of_lookup_none hNone]
  unfold older ages olderEntries
  rw [hEntries, Multiset.map_cons, Multiset.filter_cons_of_neg,
    Multiset.filter_map, Multiset.card_map]
  · rfl
  · exact lt_irrefl _

theorem toEvict_of_overfull
    (hSize : cache.size = MAX_ENTRIES + 1) :
    cache.toEvict = EVICT_COUNT := by
  unfold toEvict
  rw [hSize]
  rfl

/- What a call with a full cache leaves. -/
theorem evicted_inserted
    (hNone : cache.entries.lookup address = none)
    (hFull : cache.size = MAX_ENTRIES) :
    ((cache.inserted address minSize).evictLRU
        (rows.map (·.1))).entries =
      evict (cache.inserted address minSize).entries rows
        EVICT_COUNT := by
  have hSize :
      (cache.inserted address minSize).size =
        MAX_ENTRIES + 1 :=
    size_inserted_full hNone hFull
  rw [evictLRU_entries (by omega), toEvict_of_overfull hSize]

------
-- Every Call Of A Run
------

/- A cache with entries of another keeps the invariant. -/
theorem Inv.of_lookup
    {after : BufferCache}
    (hInv : Inv cache)
    (hOld :
      ∀ k entry, after.entries.lookup k = some entry →
        cache.entries.lookup k = some entry) :
    Inv after := by
  constructor
  · refine le_trans (card_le_of_lookup ?_) hInv.limit
    intro k entry hSome
    rw [hOld k entry hSome]
    rfl
  · intro k entry hSome
    exact hInv.length k entry (hOld k entry hSome)

/- The new entry has the length of its buffer. -/
theorem Inv.length_inserted
    (hInv : Inv cache)
    (k : U64)
    (entry : CachedBuffer)
    (hSome :
      (cache.inserted address minSize).entries.lookup k =
        some entry) :
    entry.size = entry.buffer.length := by
  rw [entries_inserted] at hSome
  rcases lookup_insert_cases hSome with ⟨_, hE⟩ | ⟨_, hOld⟩
  · rw [hE]
    rfl
  · exact hInv.length k entry (lookup_of_erase hOld)

/- A batch is released from a cache that is too large. -/
theorem Inv.evicted
    (hInv : Inv cache)
    (hNone : cache.entries.lookup address = none)
    (hFull : cache.size = MAX_ENTRIES)
    (hOrder :
      SortOrder (cache.inserted address minSize) sorted) :
    Inv ((cache.inserted address minSize).evictLRU sorted) := by
  rcases hOrder with ⟨rows, hRows, hSorted⟩
  have hEntries :
      ((cache.inserted address minSize).evictLRU
          (rows.map (·.1))).entries =
        evict (cache.inserted address minSize).entries rows
          EVICT_COUNT :=
    evicted_inserted hNone hFull
  have hSize :
      (cache.inserted address minSize).entries.keys.card =
        MAX_ENTRIES + 1 :=
    size_inserted_full hNone hFull
  have hBatch : EVICT_COUNT ≤ MAX_ENTRIES + 1 := by decide
  rw [hSorted]
  constructor
  · unfold size
    rw [hEntries, hRows.card_evict (by omega), hSize]
    decide
  · intro k entry hSome
    rw [hEntries, lookup_evict] at hSome
    split_ifs at hSome
    exact hInv.length_inserted k entry hSome

theorem Inv.getOrCreate
    (hInv : Inv cache)
    (hOrder :
      SortOrder (cache.inserted address minSize) sorted) :
    Inv (cache.getOrCreateCachedBuffer host address minSize
      sorted).2 := by
  cases outcome cache host address minSize sorted with
  | failed hNot hEntries hNone => exact hInv.of_lookup hEntries
  | reused entry hFound hLarge hOut =>
      rw [hOut]
      constructor
      · refine le_trans (card_le_of_lookup ?_) hInv.limit
        intro k e hSome
        rcases lookup_insert_cases hSome with
          ⟨hK, _⟩ | ⟨_, hOld⟩
        · rw [hK, hFound]
          rfl
        · rw [hOld]
          rfl
      · intro k e hSome
        rcases lookup_insert_cases hSome with
          ⟨_, hE⟩ | ⟨_, hOld⟩
        · rw [hE]
          exact hInv.length address entry hFound
        · exact hInv.length k e hOld
  | made hSupplies hOut =>
      rw [hOut]
      dsimp only
      split_ifs with hOver
      · rcases (overfull_iff hInv.limit).mp hOver with
          ⟨hNone, hFull⟩
        exact hInv.evicted hNone hFull hOrder
      · exact ⟨Nat.le_of_not_lt hOver, hInv.length_inserted⟩

theorem Inv.step
    (hInv : Inv cache)
    (op : BufferOp)
    (hOrder : Admissible cache op) :
    Inv (cache.step op) := by
  cases op with
  | getOrCreate host address minSize sorted =>
      exact hInv.getOrCreate hOrder
  | invalidate address =>
      apply hInv.of_lookup
      intro k entry hSome
      change
        (cache.invalidateCachedBuffer address).entries.lookup
          k = some entry at hSome
      rw [entries_invalidate] at hSome
      exact lookup_of_erase hSome
  | nextFrame => exact ⟨hInv.limit, hInv.length⟩

theorem inv_run
    (ops : List BufferOp)
    (hOrders : EventRun.Guarded step Admissible {} ops) :
    Inv (EventRun.stateAfter step {} ops) :=
  EventRun.Guarded.invariant
    (I := fun _ cache => Inv cache)
    ⟨Nat.zero_le _, fun _ _ hSome => nomatch hSome⟩
    (fun _ op hInv hOrder => hInv.step op hOrder)
    hOrders

/- A full cache keeps the new buffer in every order or not. -/
theorem Inv.spared_of_kept
    (hInv : Inv cache)
    (hKept :
      BufferKept cache
        (.getOrCreate host address minSize sorted)) :
    Spared cache
      (.getOrCreate host address minSize sorted) := by
  intro hSupplies hNone hFull
  rw [← older_inserted minSize hNone]
  refine (survives_iff lookup_inserted).mp ?_
  intro rows hRows
  have hOver :
      (cache.inserted address minSize).size > MAX_ENTRIES :=
    (overfull_iff hInv.limit).mpr ⟨hNone, hFull⟩
  have hOut := hKept (rows.map (·.1)) ⟨rows, hRows, rfl⟩
  cases outcome cache host address minSize (rows.map (·.1))
    with
  | failed hNot => exact absurd hSupplies hNot
  | reused entry hFound =>
      rw [hNone] at hFound
      cases hFound
  | made _ hCall =>
      rw [hCall, if_pos hOver] at hOut
      rcases (hOut.2 _ rfl).2 with ⟨entry, hSome, _⟩
      dsimp only at hSome
      rw [evicted_inserted hNone hFull] at hSome
      rw [lookup_evict] at hSome ⊢
      split_ifs at hSome with hVictim
      rw [if_neg hVictim]
      exact lookup_inserted

theorem Inv.kept_of_spared
    (hInv : Inv cache)
    (hSpared :
      Spared cache
        (.getOrCreate host address minSize sorted)) :
    BufferKept cache
      (.getOrCreate host address minSize sorted) := by
  intro sorted' hOrder
  refine ⟨(hInv.getOrCreate hOrder).limit, ?_⟩
  cases outcome cache host address minSize sorted' with
  | failed _ _ hNone =>
      intro buf hBuf
      rw [hNone] at hBuf
      cases hBuf
  | reused entry hFound hLarge hOut =>
      intro buf hBuf
      rw [hOut] at hBuf ⊢
      cases hBuf
      refine ⟨?_, _, Finmap.lookup_insert _, rfl⟩
      rw [← hInv.length address entry hFound]
      exact hLarge
  | made hSupplies hOut =>
      intro buf hBuf
      rw [hOut] at hBuf ⊢
      cases hBuf
      refine ⟨BitVec.le_refl _, newEntry cache address minSize, ?_,
        rfl⟩
      dsimp only
      split_ifs with hOver
      · rcases (overfull_iff hInv.limit).mp hOver with
          ⟨hNone, hFull⟩
        rcases hOrder with ⟨rows, hRows, hSorted⟩
        have hOlder := hSpared hSupplies hNone hFull
        rw [← older_inserted minSize hNone]
          at hOlder
        rw [hSorted, evicted_inserted hNone hFull]
        exact (survives_iff lookup_inserted).mpr hOlder rows
          hRows
      · exact lookup_inserted

theorem bufferKept_iff_spared
    (hInv : Inv cache)
    (op : BufferOp) :
    BufferKept cache op ↔ Spared cache op := by
  cases op with
  | getOrCreate host address minSize sorted =>
      exact ⟨hInv.spared_of_kept, hInv.kept_of_spared⟩
  | invalidate address => exact Iff.rfl
  | nextFrame => exact Iff.rfl

/-
  The calls of a run return buffers that are large enough and
  cached exactly if no call adds a buffer to a full cache with
  fewer than a batch of entries from earlier frames.
-/
theorem buffersKept_iff
    (ops : List BufferOp)
    (hOrders : EventRun.Guarded step Admissible {} ops) :
    EventRun.Guarded step BufferKept {} ops ↔
      EventRun.Guarded step Spared {} ops := by
  have hIff :
      ∀ before op, before ++ [op] <+: ops →
        (BufferKept (EventRun.stateAfter step {} before) op ↔
          Spared (EventRun.stateAfter step {} before) op) := by
    intro before op hBefore
    apply bufferKept_iff_spared
    apply inv_run
    exact hOrders.of_isPrefix
      ((List.prefix_append before [op]).trans hBefore)
  constructor
  · intro hKept before op hBefore
    exact (hIff before op hBefore).mp (hKept before op hBefore)
  · intro hSpared before op hBefore
    exact
      (hIff before op hBefore).mpr (hSpared before op hBefore)

/- Guest memory, and a device that makes every buffer. -/
def anyHost : BufferHost :=
  { memory := some ⟨fun _ => 0⟩
    newBuffer := fun _ _ => true }

/- A buffer is made, used in the next frame and dropped. -/
def sampleOps : List BufferOp :=
  [.getOrCreate anyHost 0x1000 64 [0x1000],
    .nextFrame,
    .getOrCreate anyHost 0x1000 32 [0x1000],
    .invalidate 0x1000]

theorem sampleOps_kept :
    EventRun.Guarded step Admissible {} sampleOps ∧
      EventRun.Guarded step BufferKept {} sampleOps := by
  have hOrders :
      EventRun.Guarded step Admissible {} sampleOps := by
    unfold sampleOps
    simp only [EventRun.guarded_cons]
    refine ⟨⟨[(0x1000, 0)], ⟨?_, ?_⟩, rfl⟩, trivial,
      ⟨[(0x1000, 1)], ⟨?_, ?_⟩, rfl⟩, trivial,
      EventRun.guarded_nil⟩
    · decide
    · exact List.pairwise_singleton _ _
    · decide
    · exact List.pairwise_singleton _ _
  refine ⟨hOrders, (buffersKept_iff sampleOps hOrders).mpr ?_⟩
  unfold sampleOps
  simp only [EventRun.guarded_cons]
  refine ⟨?_, trivial, ?_, trivial, EventRun.guarded_nil⟩
  · intro _ _ hFull
    exact absurd hFull (by decide)
  · intro _ _ hFull
    exact absurd hFull (by decide)

------
-- A Frame Of Many Buffers
------

/- The address of the `i`-th buffer. -/
def pageAddress (i : Nat) : U64 :=
  BitVec.ofNat 64 (0x1000 * (i + 1))

def pageRows (n : Nat) : List (U64 × Nat) :=
  (List.range n).map fun i => (pageAddress i, 0)

/- One buffer for each of the first pages, in one frame. -/
def pageOps (n : Nat) : List BufferOp :=
  (List.range n).map fun i =>
    .getOrCreate anyHost (pageAddress i) 0x1000
      ((pageRows (i + 1)).map (·.1))

def pageCache (n : Nat) : BufferCache :=
  EventRun.stateAfter step {} (pageOps n)

theorem pageOps_succ (n : Nat) :
    pageOps (n + 1) =
      pageOps n ++
        [.getOrCreate anyHost (pageAddress n) 0x1000
          ((pageRows (n + 1)).map (·.1))] := by
  unfold pageOps
  rw [List.range_succ, List.map_append]
  rfl

theorem toNat_pageAddress
    {i : Nat}
    (hI : i < 512) :
    (pageAddress i).toNat = 0x1000 * (i + 1) := by
  unfold pageAddress
  rw [BitVec.toNat_ofNat]
  omega

/- All entries are of the first frame. -/
structure Paged (n : Nat) (cache : BufferCache) : Prop where
  frame : cache.frameCount = 0
  rows :
    ages frameOf cache.entries = (pageRows n : Multiset _)

theorem Paged.size
    {n : Nat}
    (hPaged : Paged n cache) :
    cache.size = n := by
  calc
    cache.size = (ages frameOf cache.entries).card :=
      (Multiset.card_map _ _).trans
        (Multiset.card_map _ _).symm
    _ = n := by
      rw [hPaged.rows, Multiset.coe_card]
      simp [pageRows]

/- The next page is a new one. -/
theorem Paged.lookup
    {n : Nat}
    (hPaged : Paged n cache)
    (hN : n < 512) :
    cache.entries.lookup (pageAddress n) = none := by
  by_contra hFound
  rcases Option.ne_none_iff_exists'.mp hFound with
    ⟨entry, hSome⟩
  have hRow :
      (pageAddress n, frameOf entry) ∈
        ages frameOf cache.entries :=
    mem_ages_iff.mpr ⟨entry, hSome, rfl⟩
  rw [hPaged.rows, Multiset.mem_coe] at hRow
  rcases List.mem_map.mp hRow with ⟨i, hI, hPair⟩
  have hI := List.mem_range.mp hI
  have hSame := congrArg (fun row => row.1.toNat) hPair
  have hI' := toNat_pageAddress (show i < 512 by omega)
  have hN' := toNat_pageAddress hN
  dsimp only at hSame
  omega

theorem supplies_pageAddress
    {n : Nat}
    (hN : n < 512) :
    Supplies anyHost (pageAddress n) 0x1000 := by
  have hAddress := toNat_pageAddress hN
  refine ⟨?_, rfl, ?_, rfl⟩
  · intro hZero
    rw [hZero] at hAddress
    have hNat : 0 = 0x1000 * (n + 1) := hAddress
    omega
  · unfold Memory.isValid Memory.ADDR_SPACE_SIZE
    rw [hAddress, decide_eq_true_eq]
    omega

theorem Paged.inserted
    {n : Nat}
    (hPaged : Paged n cache)
    (hN : n < 512) :
    Paged (n + 1)
      (cache.inserted (pageAddress n) 0x1000) := by
  have hNone := hPaged.lookup hN
  constructor
  · exact (frameCount_invalidate cache _).trans hPaged.frame
  · have hFrame :
        frameOf (newEntry cache (pageAddress n) 0x1000) = 0 := by
      change cache.frameCount.toNat = 0
      rw [hPaged.frame]
      rfl
    unfold ages
    rw [entries_inserted, erase_of_lookup_none hNone,
      entries_insert_erase, erase_of_lookup_none hNone,
      Multiset.map_cons]
    change _ ::ₘ ages frameOf cache.entries = _
    unfold pageRows
    rw [hPaged.rows, hFrame, List.range_succ, List.map_append,
      ← Multiset.coe_add]
    exact
      ((Multiset.add_comm _ _).trans
        (Multiset.singleton_add _ _)).symm

/- Up to the limit every page keeps its entry. -/
theorem paged_pageCache :
    ∀ n, n ≤ MAX_ENTRIES → Paged n (pageCache n) := by
  intro n
  induction n with
  | zero => exact fun _ => ⟨rfl, rfl⟩
  | succ n ih =>
      intro hLimit
      have hBound : MAX_ENTRIES = 256 := rfl
      have hPaged := ih (by omega)
      have hNext := hPaged.inserted (by omega)
      have hSupplies :=
        supplies_pageAddress (show n < 512 by omega)
      have hNone := hPaged.lookup (by omega)
      unfold pageCache at hPaged hNext hNone ⊢
      rw [pageOps_succ, EventRun.stateAfter_concat]
      change
        Paged (n + 1)
          (getOrCreateCachedBuffer _ anyHost (pageAddress n)
            0x1000 _).2
      cases
        outcome (EventRun.stateAfter step {} (pageOps n))
          anyHost (pageAddress n) 0x1000
          ((pageRows (n + 1)).map (·.1)) with
      | failed hNot => exact absurd hSupplies hNot
      | reused entry hFound =>
          rw [hNone] at hFound
          cases hFound
      | made _ hOut =>
          rw [hOut, if_neg]
          · exact hNext
          · rw [hNext.size]
            omega

/- A beginning of the run is a shorter one. -/
theorem before_eq_pageOps
    {n : Nat}
    {before : List BufferOp}
    {op : BufferOp}
    (hBefore : before ++ [op] <+: pageOps n) :
    before.length < n ∧ before = pageOps before.length ∧
      op = .getOrCreate anyHost (pageAddress before.length)
        0x1000 ((pageRows (before.length + 1)).map (·.1)) := by
  have hLength := hBefore.length_le
  have hTake := List.prefix_iff_eq_take.mp hBefore
  unfold pageOps at hLength
  rw [List.length_append, List.length_singleton, List.length_map,
    List.length_range] at hLength
  have hShorter :
      (pageOps n).take (before ++ [op]).length =
        pageOps (before.length + 1) := by
    unfold pageOps
    rw [← List.map_take, List.take_range, List.length_append,
      List.length_singleton, Nat.min_eq_left hLength]
  rw [hShorter, pageOps_succ] at hTake
  have hParts := List.append_inj' hTake rfl
  exact ⟨hLength, hParts.1, List.singleton_inj.mp hParts.2⟩

/- The orders of the run are ones a sort may give. -/
theorem pageOps_admissible :
    EventRun.Guarded step Admissible {}
      (pageOps (MAX_ENTRIES + 1)) := by
  intro before op hBefore
  rcases before_eq_pageOps hBefore with ⟨hLt, hRun, hOp⟩
  have hBound : MAX_ENTRIES = 256 := rfl
  have hPaged :=
    (paged_pageCache before.length (by omega)).inserted
      (by omega)
  rw [hOp]
  refine ⟨pageRows (before.length + 1), ⟨?_, ?_⟩, rfl⟩
  · rw [← hPaged.rows, pageCache, ← hRun]
  · unfold pageRows
    rw [List.pairwise_map]
    exact List.pairwise_of_forall fun _ _ => Nat.le_refl 0

/-
  The last of these buffers is added to a full cache whose
  entries are all of its frame.
-/
theorem manyBuffers_not_kept :
    EventRun.Guarded step Admissible {}
        (pageOps (MAX_ENTRIES + 1)) ∧
      ¬ EventRun.Guarded step BufferKept {}
        (pageOps (MAX_ENTRIES + 1)) := by
  refine ⟨pageOps_admissible, ?_⟩
  intro hKept
  have hPaged := paged_pageCache MAX_ENTRIES (Nat.le_refl _)
  have hInv :=
    inv_run (pageOps MAX_ENTRIES)
      (pageOps_admissible.of_isPrefix (by
        rw [pageOps_succ]
        exact List.prefix_append _ _))
  have hLast :=
    hKept (pageOps MAX_ENTRIES) _
      (by rw [pageOps_succ])
  have hBound : MAX_ENTRIES = 256 := rfl
  have hOlder :=
    hInv.spared_of_kept hLast
      (supplies_pageAddress (by omega))
      (hPaged.lookup (by omega)) hPaged.size
  have hNone : (pageCache MAX_ENTRIES).olderEntries = 0 := by
    unfold olderEntries
    rw [hPaged.frame, Multiset.card_eq_zero,
      Multiset.filter_eq_nil]
    intro row _ hLt
    have hNat := BitVec.lt_def.mp hLt
    exact Nat.not_lt_zero _ hNat
  change EVICT_COUNT ≤ (pageCache MAX_ENTRIES).olderEntries
    at hOlder
  rw [hNone] at hOlder
  exact absurd hOlder (by decide)

end BufferCache

end M1Switch
