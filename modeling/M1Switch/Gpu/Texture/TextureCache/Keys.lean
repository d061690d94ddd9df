import M1Switch.Gpu.Texture.TextureCache.Coherence
import M1Switch.Library.WordBytes

/-
  What the key of a texture does not separate.

  The key should identify a texture.  It leaves out the pitch
  and the linear flag, and the fields it takes in overlap:
  each byte of it is the exclusive or of bytes of up to three
  fields.

  Key definitions include:
    * `keyByte`
    * `TextureCache.SameUse`

  Main results:
    * `makeKey_eq_iff`
    * `origins_run`
    * `makeKey_separates_iff`
-/

------
-- Fields Of A Texture Header
------

namespace M1Switch

namespace TextureCache

open WordBytes

variable {info : TextureInfo}

/- The sizes of the fields in a texture header. -/
structure InTicRange (info : TextureInfo) : Prop where
  gpuAddress : info.gpuAddress.toNat < 2 ^ 56
  width : info.width.toNat < 2 ^ 16
  height : info.height.toNat < 2 ^ 16
  depth : info.depth.toNat < 2 ^ 16
  mipLevels : info.mipLevels.toNat < 2 ^ 8
  format : info.format.code.toNat < 2 ^ 8
  tileMode : info.tileMode.toNat < 2 ^ 8

theorem toNat_ticBytes_lt
    (entry : Nat → U8)
    (count : Nat) :
    ∀ first, (ticBytes entry first count).toNat <
      2 ^ (8 * count) := by
  induction count with
  | zero =>
      intro first
      simp [ticBytes]
  | succ count ih =>
      intro first
      have hRest := ih (first + 1)
      have hByte := (entry first).isLt
      have hGrow : 2 ^ 8 ≤ 2 ^ (8 * (count + 1)) :=
        Nat.pow_le_pow_right (by decide) (by omega)
      have hPower :
          2 ^ (8 * (count + 1)) = 2 ^ (8 * count) * 2 ^ 8 := by
        rw [Nat.mul_add, Nat.pow_add]
      unfold ticBytes
      rw [BitVec.toNat_or]
      apply Nat.or_lt_two_pow
      · rw [BitVec.toNat_setWidth]
        exact Nat.lt_of_le_of_lt (Nat.mod_le _ _)
          (Nat.lt_of_lt_of_le hByte hGrow)
      · rw [BitVec.toNat_shiftLeft, Nat.shiftLeft_eq]
        refine Nat.lt_of_le_of_lt (Nat.mod_le _ _) ?_
        rw [hPower]
        exact Nat.mul_lt_mul_of_pos_right hRest (by decide)

theorem toNat_setWidth_lt
    {w v n : Nat}
    {x : BitVec w}
    (hX : x.toNat < n) :
    (x.setWidth v).toNat < n := by
  rw [BitVec.toNat_setWidth]
  exact Nat.lt_of_le_of_lt (Nat.mod_le _ _) hX

/- Every header that is parsed has fields of these sizes. -/
theorem inTicRange_parseTIC
    (texturePool : Option (Nat → U8))
    (offset : U64) :
    InTicRange (parseTIC texturePool offset) := by
  cases texturePool with
  | none =>
      show InTicRange {}
      constructor <;> decide
  | some pool =>
      unfold parseTIC
      dsimp only
      refine ⟨?_, ?_, ?_, ?_, ?_, ?_, ?_⟩
      · rw [BitVec.toNat_or]
        apply Nat.or_lt_two_pow
        · exact Nat.lt_of_lt_of_le (toNat_ticBytes_lt _ 6 0)
            (by decide)
        · have := (pool (offset.toNat + 8)).isLt
          rw [BitVec.toNat_shiftLeft, BitVec.toNat_setWidth,
            Nat.shiftLeft_eq]
          omega
      · exact toNat_setWidth_lt (toNat_ticBytes_lt _ 2 12)
      · exact toNat_setWidth_lt (toNat_ticBytes_lt _ 2 14)
      · dsimp only
        split_ifs
        · decide
        · exact toNat_setWidth_lt
            (toNat_ticBytes_lt _ 2 16)
      · dsimp only
        split_ifs
        · decide
        · exact toNat_setWidth_lt (BitVec.isLt _)
      · exact toNat_setWidth_lt (BitVec.isLt _)
      · exact toNat_setWidth_lt (BitVec.isLt _)

------
-- Bytes Of The Key
------

/- The fields that meet in each byte of the key. -/
def keyByte (info : TextureInfo) : Nat → U8
| 0 => byte info.gpuAddress 0
| 1 => byte info.gpuAddress 1 ^^^ byte info.tileMode 0
| 2 => byte info.gpuAddress 2 ^^^ byte info.mipLevels 0
| 3 => byte info.gpuAddress 3 ^^^ byte info.format.code 0
| 4 => byte info.gpuAddress 4 ^^^ byte info.height 0
| 5 =>
    byte info.gpuAddress 5 ^^^ byte info.width 0 ^^^
      byte info.height 1
| 6 =>
    byte info.gpuAddress 6 ^^^ byte info.width 1 ^^^
      byte info.depth 0
| _ => byte info.depth 1

/- A field in the key, byte by byte. -/
theorem byte_field
    (x : U32)
    (s : Nat)
    {j : Nat}
    (hJ : j < 8) :
    byte (x.setWidth 64 <<< (8 * s)) j =
      if j < s then 0 else byte x (j - s) := by
  rw [byte_shiftLeft _ (by omega)]
  split_ifs
  · rfl
  · exact byte_setWidth x (by omega)

theorem byte_zero_of_lt
    {w n : Nat}
    {x : BitVec w}
    (hX : x.toNat < 2 ^ (8 * n))
    {j : Nat}
    (hJ : n ≤ j) :
    byte x j = 0 :=
  byte_eq_zero (Nat.lt_of_lt_of_le hX
    (Nat.pow_le_pow_right (by decide) (by omega)))

theorem byte_makeKey
    (hRange : InTicRange info)
    {j : Nat}
    (hJ : j < 8) :
    byte (makeKey info) j = keyByte info j := by
  have hWidth : ∀ k, 2 ≤ k → byte info.width k = 0 :=
    fun k => byte_zero_of_lt (n := 2) hRange.width
  have hHeight : ∀ k, 2 ≤ k → byte info.height k = 0 :=
    fun k => byte_zero_of_lt (n := 2) hRange.height
  have hFormat : ∀ k, 1 ≤ k → byte info.format.code k = 0 :=
    fun k => byte_zero_of_lt (n := 1) hRange.format
  have hMips : ∀ k, 1 ≤ k → byte info.mipLevels k = 0 :=
    fun k => byte_zero_of_lt (n := 1) hRange.mipLevels
  have hTile : ∀ k, 1 ≤ k → byte info.tileMode k = 0 :=
    fun k => byte_zero_of_lt (n := 1) hRange.tileMode
  have hAddress : byte info.gpuAddress 7 = 0 :=
    byte_zero_of_lt (n := 7) hRange.gpuAddress (by decide)
  have hKey :
      byte (makeKey info) j =
        byte info.gpuAddress j ^^^
          (if j < 5 then 0 else byte info.width (j - 5)) ^^^
          (if j < 4 then 0 else byte info.height (j - 4)) ^^^
          (if j < 3 then 0
            else byte info.format.code (j - 3)) ^^^
          (if j < 2 then 0
            else byte info.mipLevels (j - 2)) ^^^
          (if j < 1 then 0 else byte info.tileMode (j - 1)) ^^^
          (if j < 6 then 0 else byte info.depth (j - 6)) := by
    unfold makeKey
    simp only [byte_xor]
    rw [← byte_field info.width 5 hJ,
      ← byte_field info.height 4 hJ,
      ← byte_field info.format.code 3 hJ,
      ← byte_field info.mipLevels 2 hJ,
      ← byte_field info.tileMode 1 hJ,
      ← byte_field info.depth 6 hJ]
  rw [hKey]
  -- The bytes past the end of a field are zero.
  match j, hJ with
  | 0, _ => simp [keyByte]
  | 1, _ => simp [keyByte]
  | 2, _ => simp [keyByte, hTile]
  | 3, _ => simp [keyByte, hTile, hMips]
  | 4, _ => simp [keyByte, hTile, hMips, hFormat]
  | 5, _ => simp [keyByte, hTile, hMips, hFormat]
  | 6, _ =>
      simp [keyByte, hTile, hMips, hFormat, hHeight]
  | 7, _ =>
      simp [keyByte, hTile, hMips, hFormat, hHeight, hWidth,
        hAddress]

/- Two headers share a key if all eight bytes agree. -/
theorem makeKey_eq_iff
    {info' : TextureInfo}
    (hRange : InTicRange info)
    (hRange' : InTicRange info') :
    makeKey info = makeKey info' ↔
      ∀ j < 8, keyByte info j = keyByte info' j := by
  rw [eq_iff_bytes (n := 8) rfl]
  constructor
  · intro hBytes j hJ
    rw [← byte_makeKey hRange hJ, ← byte_makeKey hRange' hJ]
    exact hBytes j hJ
  · intro hBytes j hJ
    rw [byte_makeKey hRange hJ, byte_makeKey hRange' hJ]
    exact hBytes j hJ

------
-- Textures Returned For Others
------

variable {device : MTLDevice} {cache cache' : TextureCache}
variable {info info' : TextureInfo}

/- The fields that a texture is made from. -/
def SameUse (info info' : TextureInfo) : Prop :=
  { info with arrayMode := 0 } = { info' with arrayMode := 0 }

/- No texture is made of such a descriptor. -/
def Blank (info : TextureInfo) : Prop :=
  info.width = 0 ∨ info.height = 0

/-
  Whatever the cache went through, a call for the first
  descriptor does not return a texture made for the second.
-/
def NeverReturns (info info' : TextureInfo) : Prop :=
  ∀ device ops guestMemory sorted tex,
    EventRun.Guarded (step device) Admissible {} ops →
      ((EventRun.stateAfter (step device) {} ops).getOrCreate
          device info guestMemory sorted).1 = some tex →
        tex.info ≠ info'

/- Every texture in the cache was made for its entry. -/
def Origins (cache : TextureCache) : Prop :=
  ∀ key entry tex, cache.entries.lookup key = some entry →
    entry.texture = some tex →
      tex.info = entry.info ∧ ¬ Blank entry.info

theorem Origins.of_entries
    (hOrigins : Origins cache)
    (hEntries :
      ∀ key entry, cache'.entries.lookup key = some entry →
        cache.entries.lookup key = some entry) :
    Origins cache' := by
  intro key entry tex hSome
  exact hOrigins key entry tex (hEntries key entry hSome)

theorem Origins.getOrCreate
    (hRep : Represented cache)
    (hOrigins : Origins cache)
    (device : MTLDevice)
    (info : TextureInfo)
    (guestMemory : Option (Nat → U8))
    (sorted : Nat → U64) :
    Origins
      (cache.getOrCreate device info guestMemory sorted).2 := by
  intro key entry tex hSome hTex
  cases hRep.getOrCreate_cases device info guestMemory sorted
    with
  | hit old held hFound hHeld hOut =>
      rw [hOut] at hSome
      rcases MapTotals.lookup_insert_cases hSome with
        ⟨rfl, rfl⟩ | ⟨_, hOld⟩
      · exact hOrigins _ old tex hFound hTex
      · exact hOrigins key entry tex hOld hTex
  | failed hFree hNot hOut =>
      rw [hOut] at hSome
      exact hOrigins key entry tex hSome hTex
  | made hFree hCreates hOut =>
      rw [hOut] at hSome
      rcases lookup_storeTexture hSome with
        ⟨_, hInfo, hNew, _⟩ | ⟨_, hOld⟩
      · cases hNew.symm.trans hTex
        rw [hInfo]
        exact ⟨rfl, fun hBlank =>
          hBlank.elim hCreates.2.1 hCreates.2.2.1⟩
      · exact hOrigins key entry tex hOld hTex

/- Erasing by any list of keys. -/
theorem Origins.foldl_removeEntry
    (hOrigins : Origins cache)
    (keys : List U64) :
    Origins (keys.foldl removeEntry cache) := by
  apply hOrigins.of_entries
  intro key entry hSome
  rw [entries_foldl (fun _ _ => entries_removeEntry),
    MapTotals.lookup_eraseAll] at hSome
  split_ifs at hSome
  exact hSome

theorem origins_step
    {op : CacheOp}
    (hRep : Represented cache)
    (hOrigins : Origins cache)
    (hOrder : Admissible cache op) :
    Origins (cache.step device op) := by
  cases op with
  | getOrCreate info guestMemory sorted =>
      exact hOrigins.getOrCreate hRep device info guestMemory
        sorted
  | invalidate gpuAddress order =>
      apply hOrigins.of_entries
      intro key entry hSome
      have hLookup := lookup_invalidate hOrder key
      rw [show (cache.invalidate gpuAddress
        order).entries.lookup key = some entry from hSome]
        at hLookup
      split_ifs at hLookup
      exact hLookup.symm
  | invalidateRegion address size order =>
      show Origins (cache.invalidateRegion address size order)
      unfold invalidateRegion
      split_ifs
      · exact hOrigins
      · exact hOrigins.foldl_removeEntry _
  | evictLRU sorted => exact hOrigins.foldl_removeEntry _
  | endFrame order =>
      show Origins (cache.endFrame order)
      unfold endFrame
      dsimp only
      split_ifs
      · refine List.foldlRecOn order _ (motive := Origins)
          hOrigins ?_
        intro c hC key _
        unfold evictStale
        cases c.entries.lookup key with
        | none => exact hC
        | some entry =>
            dsimp only
            split_ifs
            · exact hC.foldl_removeEntry [key]
            · exact hC
      · exact hOrigins
  | flush =>
      intro key entry tex hSome
      cases hSome

theorem origins_run
    (device : MTLDevice)
    (ops : List CacheOp)
    (hOrders :
      EventRun.Guarded (step device) Admissible {} ops) :
    Represented (EventRun.stateAfter (step device) {} ops) ∧
      Origins (EventRun.stateAfter (step device) {} ops) := by
  refine EventRun.Guarded.invariant
    (I := fun _ cache => Represented cache ∧ Origins cache)
    ⟨represented_empty, ?_⟩ ?_ hOrders
  · intro key entry tex hSome
    cases hSome
  · rintro before op ⟨hRep, hOrigins⟩ hOrder
    exact ⟨represented_step device op hRep hOrder,
      origins_step hRep hOrigins hOrder⟩

/- A texture of another descriptor has its key. -/
theorem makeKey_of_returned
    {guestMemory : Option (Nat → U8)}
    {sorted : Nat → U64}
    {tex : TextureObject}
    (hRep : Represented cache)
    (hOrigins : Origins cache)
    (hTex :
      (cache.getOrCreate device info guestMemory
        sorted).1 = some tex) :
    makeKey tex.info = makeKey info ∧ ¬ Blank tex.info := by
  cases hRep.getOrCreate_cases device info guestMemory sorted
    with
  | hit entry held hFound hHeld hOut =>
      rw [hOut] at hTex
      cases hTex
      rcases hOrigins _ entry tex hFound hHeld with
        ⟨hInfo, hBlank⟩
      rw [hInfo]
      exact ⟨(hRep.keyed _ entry hFound).symm, hBlank⟩
  | failed hFree hNot hOut =>
      rw [hOut] at hTex
      cases hTex
  | made hFree hCreates hOut =>
      rw [hOut] at hTex
      cases hTex
      exact ⟨rfl, fun hBlank =>
        hBlank.elim hCreates.2.1 hCreates.2.2.1⟩

/- The only texture of a cache is not evicted. -/
theorem lookup_storeTexture_first
    (tex : TextureObject)
    (sorted : Nat → U64)
    (hEmpty : cache.entries = ∅) :
    ∃ entry,
      (cache.storeTexture info tex sorted).entries.lookup
          (makeKey info) = some entry ∧
        entry.texture = some tex := by
  have hSize : (cache.insertEntry info tex).size = 1 := by
    unfold size insertEntry
    simp only [hEmpty]
    rfl
  have hNone :
      (cache.insertEntry info tex).evictLRU sorted =
        cache.insertEntry info tex := by
    unfold evictLRU toEvict
    rw [hSize]
    rfl
  unfold storeTexture
  dsimp only
  rw [hNone, ite_self]
  exact ⟨_, Finmap.lookup_insert _, rfl⟩

/- A key that is shared gives the texture away. -/
theorem not_neverReturns
    (hKey : makeKey info = makeKey info')
    (hBlank : ¬ Blank info') :
    ¬ NeverReturns info info' := by
  intro hNever
  have hCreates :
      Creates anyDevice info' (some fun _ => 0) :=
    ⟨rfl, fun hZero => hBlank (Or.inl hZero),
      fun hZero => hBlank (Or.inr hZero), rfl⟩
  have hOrder :
      Admissible {}
        (.getOrCreate info' (some fun _ => 0)
          (fun _ => makeKey info')) := by
    refine ⟨[(makeKey info', 0)], rfl,
      List.pairwise_singleton _ _, ?_⟩
    intro i hI
    have hZero : i = 0 := by simpa using hI
    subst hZero
    rfl
  have hOrders :
      EventRun.Guarded (step anyDevice) Admissible {}
        [.getOrCreate info' (some fun _ => 0)
          (fun _ => makeKey info')] := by
    rw [EventRun.guarded_cons]
    exact ⟨hOrder, EventRun.guarded_nil⟩
  have hFirst :
      EventRun.stateAfter (step anyDevice) {}
          [.getOrCreate info' (some fun _ => 0)
            (fun _ => makeKey info')] =
        { created := 1 : TextureCache }.storeTexture info'
          ⟨0, info'⟩ (fun _ => makeKey info') := by
    show (getOrCreate {} anyDevice info' _ _).2 = _
    cases represented_empty.getOrCreate_cases anyDevice info'
      (some fun _ => 0) (fun _ => makeKey info') with
    | hit entry tex hFound hTex hOut => cases hFound
    | failed hFree hNot hOut => exact absurd hCreates hNot
    | made hFree hCreates' hOut => rw [hOut]
  have hRep :=
    (origins_run anyDevice _ hOrders).1
  have hHit :
      ∃ entry,
        (EventRun.stateAfter (step anyDevice) {}
          [.getOrCreate info' (some fun _ => 0)
            (fun _ => makeKey info')]).entries.lookup
              (makeKey info) = some entry ∧
          entry.texture = some ⟨0, info'⟩ := by
    rw [hFirst, hKey]
    exact lookup_storeTexture_first _ _ rfl
  rcases hHit with ⟨entry, hFound, hTex⟩
  cases hRep.getOrCreate_cases anyDevice info none
    (fun _ => 0) with
  | hit entry' tex hFound' hTex' hOut =>
      cases hFound.symm.trans hFound'
      cases hTex.symm.trans hTex'
      exact hNever anyDevice _ none (fun _ => 0) _ hOrders
        (by rw [hOut]) rfl
  | failed hFree hNot hOut => cases hFree.symm.trans hFound
  | made hFree hCreates' hOut => cases hFree.symm.trans hFound

theorem neverReturns_of_key
    (hKey : makeKey info ≠ makeKey info') :
    NeverReturns info info' := by
  intro device ops guestMemory sorted tex hOrders hTex hEq
  rcases origins_run device ops hOrders with ⟨hRep, hOrigins⟩
  have hSame := (makeKey_of_returned hRep hOrigins hTex).1
  rw [hEq] at hSame
  exact hKey hSame.symm

theorem neverReturns_of_blank
    (hBlank : Blank info') :
    NeverReturns info info' := by
  intro device ops guestMemory sorted tex hOrders hTex hEq
  rcases origins_run device ops hOrders with ⟨hRep, hOrigins⟩
  have hNot := (makeKey_of_returned hRep hOrigins hTex).2
  rw [hEq] at hNot
  exact hNot hBlank

/-
  Two headers have different keys exactly if they differ in
  one of the eight bytes.  Each is kept from the texture of
  the other exactly then, or where neither of the textures
  can be made.
-/
theorem makeKey_separates_iff
    (pool pool' : Option (Nat → U8))
    (offset offset' : U64)
    (info info' : TextureInfo)
    (hInfo : info = parseTIC pool offset)
    (hInfo' : info' = parseTIC pool' offset') :
    (makeKey info ≠ makeKey info' ↔
      ∃ j < 8, keyByte info j ≠ keyByte info' j) ∧
    (NeverReturns info info' ∧ NeverReturns info' info ↔
      (∃ j < 8, keyByte info j ≠ keyByte info' j) ∨
        Blank info ∧ Blank info') := by
  have hKeys :
      makeKey info ≠ makeKey info' ↔
        ∃ j < 8, keyByte info j ≠ keyByte info' j := by
    rw [Ne, makeKey_eq_iff
      (hInfo ▸ inTicRange_parseTIC pool offset)
      (hInfo' ▸ inTicRange_parseTIC pool' offset')]
    push Not
    rfl
  refine ⟨hKeys, ?_⟩
  rw [← hKeys]
  constructor
  · rintro ⟨hFirst, hSecond⟩
    by_cases hKey : makeKey info = makeKey info'
    · refine Or.inr ⟨?_, ?_⟩
      · by_contra hBlank
        exact not_neverReturns hKey.symm hBlank hSecond
      · by_contra hBlank
        exact not_neverReturns hKey hBlank hFirst
    · exact Or.inl hKey
  · rintro (hKey | ⟨hBlank, hBlank'⟩)
    · exact ⟨neverReturns_of_key hKey,
        neverReturns_of_key hKey.symm⟩
    · exact ⟨neverReturns_of_blank hBlank',
        neverReturns_of_blank hBlank⟩

/- A pool whose first header has these sides. -/
def ticPool
    (page width height heightHigh : U8)
    (i : Nat) : U8 :=
  if i = 1 then page
  else if i = 9 then 0x37
  else if i = 12 then width
  else if i = 14 then height
  else if i = 15 then heightHigh
  else 0

theorem otherPage_separated :
    ¬ SameUse (parseTIC (some (ticPool 0x10 4 4 0)) 0)
        (parseTIC (some (ticPool 0x20 4 4 0)) 0) ∧
      NeverReturns (parseTIC (some (ticPool 0x10 4 4 0)) 0)
        (parseTIC (some (ticPool 0x20 4 4 0)) 0) := by
  have hUse :
      ¬ SameUse (parseTIC (some (ticPool 0x10 4 4 0)) 0)
        (parseTIC (some (ticPool 0x20 4 4 0)) 0) := by
    unfold SameUse
    decide
  refine ⟨hUse, ?_⟩
  exact ((makeKey_separates_iff _ _ 0 0 _ _ rfl
    rfl).2.mpr (Or.inl ⟨1, by decide, by decide⟩)).1

/- A texture of 4 by 4 and one of 5 by 260 share a key. -/
theorem tallTexture_not_separated :
    ¬ SameUse (parseTIC (some (ticPool 0x10 5 4 1)) 0)
        (parseTIC (some (ticPool 0x10 4 4 0)) 0) ∧
      makeKey (parseTIC (some (ticPool 0x10 5 4 1)) 0) =
        makeKey (parseTIC (some (ticPool 0x10 4 4 0)) 0) ∧
      ¬ NeverReturns
        (parseTIC (some (ticPool 0x10 5 4 1)) 0)
        (parseTIC (some (ticPool 0x10 4 4 0)) 0) := by
  have hKey :
      makeKey (parseTIC (some (ticPool 0x10 5 4 1)) 0) =
        makeKey (parseTIC (some (ticPool 0x10 4 4 0)) 0) := by
    decide
  refine ⟨?_, hKey, not_neverReturns hKey ?_⟩
  · unfold SameUse
    decide
  · unfold Blank
    decide

end TextureCache

end M1Switch
