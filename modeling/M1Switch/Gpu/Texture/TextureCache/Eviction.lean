import M1Switch.Gpu.Texture.TextureCache.Representation
import M1Switch.Library.LruEviction

/-
  What an eviction takes.

  The entries are sorted by the frame they were last used in,
  and a batch of the oldest is removed, all but one at most.
  The number is computed in 32 bits; the cache never holds
  more entries than its limit and one.  At the end of a frame
  the entries that were not used for some frames are removed
  if the cache is crowded; the age wraps around early in a run.

  Key definitions include:
    * `TextureCache.Evicting`
    * `TextureCache.EvictsOldest`

  Main results:
    * `size_run`
    * `evictLRU_correct`
    * `evictsUnused_iff`
-/

------
-- The Oldest Entries
------

namespace M1Switch

namespace TextureCache

open MapTotals
open LruEviction

variable {cache : TextureCache} {sorted : Nat → U64}

/- The age an eviction sorts by. -/
def frameOf (entry : CachedTexture) : Nat :=
  entry.frameUsed.toNat

/- What is left, and what is gone. -/
structure EvictsOldest (cache after : TextureCache) : Prop where
  count :
    after.size + min EVICT_BATCH_SIZE (cache.size - 1) =
      cache.size
  kept :
    ∀ key entry, after.entries.lookup key = some entry →
      cache.entries.lookup key = some entry
  oldest :
    ∀ key entry key' entry',
      cache.entries.lookup key = some entry →
        after.entries.lookup key = none →
          after.entries.lookup key' = some entry' →
            entry.frameUsed ≤ entry'.frameUsed
  represented : Represented after

/- The number of victims, where it fits. -/
theorem toEvict_eq
    (hNonempty : 0 < cache.size)
    (hSize : cache.size ≤ 2 ^ 32) :
    cache.toEvict = min EVICT_BATCH_SIZE (cache.size - 1) := by
  have hCount :
      (cache.size % 4294967296 + 4294967295) % 4294967296 =
        cache.size - 1 := by
    omega
  unfold toEvict
  rw [hCount]

/- `sorted` reads the keys of these rows. -/
def Reads
    (rows : List (U64 × Nat))
    (sorted : Nat → U64) : Prop :=
  ∀ i (hI : i < rows.length),
    sorted i = (rows.get ⟨i, hI⟩).1

/- The sorted pairs are the rows of the entries. -/
theorem evictionOrder_iff :
    EvictionOrder cache sorted ↔
      ∃ rows,
        OldestFirst frameOf cache.entries rows ∧
          Reads rows sorted := by
  constructor
  · rintro ⟨pairs, hPerm, hSorted, hRead⟩
    refine ⟨pairs.map fun pair => (pair.1, pair.2.toNat),
      ⟨?_, ?_⟩, ?_⟩
    · rw [← Multiset.map_coe, hPerm, Multiset.map_map]
      rfl
    · rw [List.pairwise_map]
      exact hSorted.imp fun hLe => BitVec.le_def.mp hLe
    · intro i hI
      rw [List.length_map] at hI
      rw [hRead i hI]
      simp only [List.get_eq_getElem, List.getElem_map]
  · rintro ⟨rows, hRows, hReads⟩
    have hFrames : ∀ row ∈ rows, row.2 < 2 ^ 64 := by
      rintro ⟨k, t⟩ hRow
      rcases hRows.mem_iff.mp hRow with ⟨entry, _, hAge⟩
      rw [← hAge]
      exact entry.frameUsed.isLt
    refine ⟨rows.map fun row => (row.1, BitVec.ofNat 64 row.2),
      ?_, ?_, ?_⟩
    · rw [← Multiset.map_coe, hRows.perm]
      unfold ages frameOf
      rw [Multiset.map_map]
      apply Multiset.map_congr rfl
      rintro ⟨k, entry⟩ _
      simp only [Function.comp_apply, BitVec.ofNat_toNat,
        BitVec.setWidth_eq]
    · rw [List.pairwise_map]
      apply hRows.sorted.imp_of_mem
      intro a b hA hB hLe
      rw [BitVec.le_def, BitVec.toNat_ofNat,
        BitVec.toNat_ofNat, Nat.mod_eq_of_lt (hFrames a hA),
        Nat.mod_eq_of_lt (hFrames b hB)]
      exact hLe
    · intro i hI
      rw [List.length_map] at hI
      rw [hReads i hI]
      simp only [List.get_eq_getElem, List.getElem_map]

/- Any rows can be read. -/
theorem exists_reads (rows : List (U64 × Nat)) :
    ∃ sorted, Reads rows sorted := by
  refine ⟨fun i => (rows.map (·.1)).getD i 0, ?_⟩
  intro i hI
  simp [hI]

theorem evictLRU_of_reads
    {rows : List (U64 × Nat)}
    (hRows : OldestFirst frameOf cache.entries rows)
    (hReads : Reads rows sorted)
    (hNonempty : 0 < cache.size)
    (hSize : cache.size ≤ 2 ^ 32) :
    (cache.evictLRU sorted).entries =
      evict cache.entries rows cache.toEvict := by
  have hLength : rows.length = cache.size := hRows.length
  have hToEvict := toEvict_eq hNonempty hSize
  have hKeys :
      (List.range cache.toEvict).map sorted =
        victims rows cache.toEvict := by
    apply List.ext_getElem
    · unfold victims
      rw [List.length_map, List.length_range, List.length_map,
        List.length_take, hLength]
      omega
    · intro i hLeft hRight
      rw [List.length_map, List.length_range] at hLeft
      have hI : i < rows.length := by omega
      simp only [victims, List.getElem_map,
        List.getElem_range, List.getElem_take]
      exact hReads i hI
  unfold evictLRU
  rw [entries_foldl (fun _ _ => entries_removeEntry), hKeys]
  rfl

theorem evictLRU_entries
    (hOrder : EvictionOrder cache sorted)
    (hNonempty : 0 < cache.size)
    (hSize : cache.size ≤ 2 ^ 32) :
    ∃ rows,
      OldestFirst frameOf cache.entries rows ∧
        (cache.evictLRU sorted).entries =
          evict cache.entries rows cache.toEvict := by
  rcases evictionOrder_iff.mp hOrder with ⟨rows, hRows, hReads⟩
  exact ⟨rows, hRows,
    evictLRU_of_reads hRows hReads hNonempty hSize⟩

/- A cache whose members agree loses its oldest entries. -/
theorem evictsOldest_of_represented
    (hRep : Represented cache)
    (hOrder : EvictionOrder cache sorted)
    (hNonempty : 0 < cache.size)
    (hSize : cache.size ≤ 2 ^ 32) :
    EvictsOldest cache (cache.evictLRU sorted) := by
  rcases evictLRU_entries hOrder hNonempty hSize with
    ⟨rows, hRows, hEntries⟩
  have hToEvict := toEvict_eq hNonempty hSize
  have hFew : cache.toEvict ≤ cache.entries.keys.card := by
    change cache.toEvict ≤ cache.size
    omega
  constructor
  · have hCard := hRows.card_evict hFew
    rw [← hEntries] at hCard
    have hCard :
        (cache.evictLRU sorted).size =
          cache.size - cache.toEvict := hCard
    omega
  · intro key entry hSome
    rw [hEntries, lookup_evict] at hSome
    split_ifs at hSome
    exact hSome
  · intro key entry key' entry' hSome hGone hKept
    rw [hEntries] at hGone hKept
    have hVictim : key ∈ victims rows cache.toEvict := by
      by_contra hNot
      rw [lookup_evict, if_neg hNot, hSome] at hGone
      cases hGone
    exact BitVec.le_def.mpr
      (hRows.age_le hVictim hSome hKept)
  · exact hRep.evictLRU sorted

------
-- How Many Entries There Are
------

/- Erasing keys leaves no more than there were. -/
theorem size_le_of_eraseAll
    {after : TextureCache}
    {keys : List U64}
    (hEntries : after.entries = eraseAll cache.entries keys) :
    after.size ≤ cache.size := by
  apply card_le_of_lookup
  intro k entry hSome
  rw [hEntries, lookup_eraseAll] at hSome
  split_ifs at hSome
  rw [hSome]
  rfl

theorem size_evictLRU_le (sorted : Nat → U64) :
    (cache.evictLRU sorted).size ≤ cache.size :=
  size_le_of_eraseAll
    (entries_foldl (fun _ _ => entries_removeEntry) _ cache)

theorem size_invalidate_le
    (gpuAddress : U64)
    (order : List U64) :
    (cache.invalidate gpuAddress order).size ≤ cache.size := by
  unfold invalidate
  split_ifs
  · exact Nat.le_refl _
  · exact Nat.le_refl _
  · exact size_le_of_eraseAll
      (entries_foldl (fun _ _ => entries_dropEntry) order _)

theorem size_invalidateRegion_le
    (address size : U64)
    (order : List U64) :
    (cache.invalidateRegion address size order).size ≤
      cache.size := by
  unfold invalidateRegion
  split_ifs
  · exact Nat.le_refl _
  · exact size_le_of_eraseAll
      (entries_foldl (fun _ _ => entries_removeEntry) _ cache)

theorem size_removeEntry_le (key : U64) :
    (cache.removeEntry key).size ≤ cache.size := by
  have hErased :
      (cache.removeEntry key).entries =
        eraseAll cache.entries [key] :=
    entries_removeEntry
  exact size_le_of_eraseAll hErased

theorem size_endFrame_le (order : List U64) :
    (cache.endFrame order).size ≤ cache.size := by
  unfold endFrame
  dsimp only
  split_ifs
  · refine List.foldlRecOn order _
      (motive := fun c : TextureCache => c.size ≤ cache.size)
      (Nat.le_refl _) ?_
    intro c hC key _
    refine le_trans ?_ hC
    unfold evictStale
    cases c.entries.lookup key with
    | none => exact Nat.le_refl _
    | some entry =>
        dsimp only
        split_ifs
        · exact size_removeEntry_le key
        · exact Nat.le_refl _
  · exact Nat.le_refl _

theorem size_insertEntry
    (info : TextureInfo)
    (tex : TextureObject) :
    0 < (cache.insertEntry info tex).size ∧
      (cache.insertEntry info tex).size ≤ cache.size + 1 := by
  have hCard :
      (cache.insertEntry info tex).size =
        (cache.entries.erase (makeKey info)).keys.card + 1 :=
    card_insert
  have hErase :
      (cache.entries.erase (makeKey info)).keys.card ≤
        cache.size := by
    rw [Finmap.keys_erase]
    exact Finset.card_erase_le
  omega

/- A store keeps the limit: it evicts what is too much. -/
theorem size_storeTexture_le
    {info : TextureInfo}
    {tex : TextureObject}
    (hSize : cache.size ≤ MAX_CACHE_ENTRIES)
    (hOrder :
      EvictionOrder (cache.insertEntry info tex) sorted) :
    (cache.storeTexture info tex sorted).size ≤
      MAX_CACHE_ENTRIES := by
  have hInsert :
      0 < (cache.insertEntry info tex).size ∧
        (cache.insertEntry info tex).size ≤ cache.size + 1 :=
    size_insertEntry info tex
  have hLimit : MAX_CACHE_ENTRIES = 4096 := rfl
  have hBatch : EVICT_BATCH_SIZE = 128 := rfl
  unfold storeTexture
  dsimp only
  split_ifs with hFull
  · by_cases hOver :
        (cache.insertEntry info tex).size ≤ MAX_CACHE_ENTRIES
    · exact le_trans (size_evictLRU_le sorted) hOver
    · have hWide :
          (cache.insertEntry info tex).size ≤ 2 ^ 32 := by
        omega
      rcases evictLRU_entries hOrder hInsert.1 hWide with
        ⟨rows, hRows, hEntries⟩
      have hToEvict := toEvict_eq hInsert.1 hWide
      have hFew :
          (cache.insertEntry info tex).toEvict ≤
            (cache.insertEntry info tex).entries.keys.card := by
        change _ ≤ (cache.insertEntry info tex).size
        omega
      have hCard := hRows.card_evict hFew
      rw [← hEntries] at hCard
      have hCard :
          ((cache.insertEntry info tex).evictLRU sorted).size =
            (cache.insertEntry info tex).size -
              (cache.insertEntry info tex).toEvict := hCard
      omega
  · exact Nat.le_of_not_lt fun hMore => hFull (Or.inr hMore)

theorem size_step
    (device : MTLDevice)
    (op : CacheOp)
    (hRep : Represented cache)
    (hSize : cache.size ≤ MAX_CACHE_ENTRIES)
    (hOrder : Admissible cache op) :
    (cache.step device op).size ≤ MAX_CACHE_ENTRIES := by
  cases op with
  | getOrCreate info guestMemory sorted =>
      change
        (cache.getOrCreate device info guestMemory
          sorted).2.size ≤ MAX_CACHE_ENTRIES
      cases hRep.getOrCreate_cases device info guestMemory
        sorted with
      | hit entry tex hFound hTex hOut =>
          rw [hOut]
          refine le_trans (card_le_of_lookup ?_) hSize
          intro k e hSome
          rcases lookup_insert_cases hSome with
            ⟨hK, _⟩ | ⟨_, hOld⟩
          · rw [hK, hFound]
            rfl
          · rw [hOld]
            rfl
      | failed hFree hNot hOut =>
          rw [hOut]
          exact hSize
      | made hFree hCreates hOut =>
          rw [hOut]
          exact size_storeTexture_le hSize hOrder
  | invalidate gpuAddress order =>
      exact le_trans (size_invalidate_le gpuAddress order) hSize
  | invalidateRegion address size order =>
      exact le_trans
        (size_invalidateRegion_le address size order) hSize
  | evictLRU sorted =>
      exact le_trans (size_evictLRU_le sorted) hSize
  | endFrame order =>
      exact le_trans (size_endFrame_le order) hSize
  | flush => exact Nat.zero_le _

/- No run passes the limit. -/
theorem size_run
    (device : MTLDevice)
    (ops : List CacheOp)
    (hOrders :
      EventRun.Guarded (step device) Admissible {} ops) :
    (EventRun.stateAfter (step device) {} ops).size ≤
      MAX_CACHE_ENTRIES :=
  (EventRun.Guarded.invariant
    (I := fun _ cache =>
      Represented cache ∧ cache.size ≤ MAX_CACHE_ENTRIES)
    ⟨represented_empty, Nat.zero_le _⟩
    (fun _ op hInv hOrder =>
      ⟨represented_step device op hInv.1 hOrder,
        size_step device op hInv.1 hInv.2 hOrder⟩)
    hOrders).2

/-
  The caches an eviction starts from: those that a run leaves,
  and those with the entry that a call has just made.
-/
inductive Evicting (device : MTLDevice) : TextureCache → Prop
| reached (ops : List CacheOp) :
    EventRun.Guarded (step device) Admissible {} ops →
      Evicting device
        (EventRun.stateAfter (step device) {} ops)
| inserted (ops : List CacheOp) (info : TextureInfo) :
    EventRun.Guarded (step device) Admissible {} ops →
      (EventRun.stateAfter (step device) {} ops).entries.lookup
          (makeKey info) = none →
        Evicting device
          ({ EventRun.stateAfter (step device) {} ops with
              created :=
                (EventRun.stateAfter (step device) {}
                  ops).created + 1 }.insertEntry info
            ⟨(EventRun.stateAfter (step device) {} ops).created,
              info⟩)

theorem Evicting.represented
    {device : MTLDevice}
    (hState : Evicting device cache) :
    Represented cache := by
  cases hState with
  | reached ops hOrders => exact represented_run device ops hOrders
  | inserted ops info hOrders hFree =>
      have hRep := represented_run device ops hOrders
      have hNext :
          Represented
            { EventRun.stateAfter (step device) {} ops with
              created :=
                (EventRun.stateAfter (step device) {}
                  ops).created + 1 } :=
        ⟨hRep.totalMemory, hRep.keyed, hRep.index, hRep.live⟩
      exact hNext.insertEntry _ hFree

theorem Evicting.size_le
    {device : MTLDevice}
    (hState : Evicting device cache) :
    cache.size ≤ MAX_CACHE_ENTRIES + 1 := by
  cases hState with
  | reached ops hOrders =>
      exact Nat.le_succ_of_le (size_run device ops hOrders)
  | inserted ops info hOrders hFree =>
      exact le_trans (size_insertEntry info _).2
        (Nat.succ_le_succ (size_run device ops hOrders))

/-
  Of `n` entries `min EVICT_BATCH_SIZE (n - 1)` are removed,
  none of them used later than one that is kept; the others
  stay as they are, and the byte count and the index are
  theirs.
-/
theorem evictLRU_correct
    {device : MTLDevice}
    (hState : Evicting device cache)
    (hOrder : EvictionOrder cache sorted)
    (hNonempty : 0 < cache.size) :
    EvictsOldest cache (cache.evictLRU sorted) := by
  have hSize := hState.size_le
  have hLimit : MAX_CACHE_ENTRIES = 4096 := rfl
  exact evictsOldest_of_represented hState.represented hOrder
    hNonempty (by omega)

/- A texture of the first frame, and one just made. -/
def laterInfo : TextureInfo :=
  { sampleInfo with gpuAddress := 0x2000 }

def twoOps : List CacheOp :=
  [.getOrCreate sampleInfo (some fun _ => 0)
      (fun _ => makeKey sampleInfo),
    .endFrame [makeKey sampleInfo]]

def twoTextures : TextureCache :=
  { EventRun.stateAfter (step anyDevice) {} twoOps with
    created := 2 }.insertEntry laterInfo ⟨1, laterInfo⟩

def twoSorted : Nat → U64
| 0 => makeKey sampleInfo
| _ => makeKey laterInfo

theorem twoTextures_evicted :
    EvictsOldest twoTextures
      (twoTextures.evictLRU twoSorted) := by
  have hGuarded :
      EventRun.Guarded (step anyDevice) Admissible {}
        twoOps := by
    unfold twoOps
    simp only [EventRun.guarded_cons]
    refine ⟨⟨[(makeKey sampleInfo, 0)], ?_, ?_, ?_⟩, ?_,
      EventRun.guarded_nil⟩
    · decide
    · exact List.pairwise_singleton _ _
    · intro i hI
      have hZero : i = 0 := by simpa using hI
      subst hZero
      rfl
    · show (_ : Multiset U64) = _
      decide
  have hState : Evicting anyDevice twoTextures :=
    Evicting.inserted twoOps laterInfo hGuarded
      (by decide)
  refine evictLRU_correct hState ?_ ?_
  · refine ⟨[(makeKey sampleInfo, 0), (makeKey laterInfo, 1)],
      ?_, ?_, ?_⟩
    · decide
    · decide
    · intro i hI
      have hTwo : i = 0 ∨ i = 1 := by
        have : i < 2 := hI
        omega
      rcases hTwo with hZero | hOne
      · subst hZero
        rfl
      · subst hOne
        rfl
  · decide

------
-- What A Frame Evicts
------

variable {oldestAllowed : U64}

/- What the pass over the entries keeps. -/
def keeps
    (oldestAllowed : U64)
    (entry : CachedTexture) : Bool :=
  !decide (entry.frameUsed < oldestAllowed)

theorem filter_keeps_eq_none_iff
    {entry : CachedTexture} :
    (some entry).filter (keeps oldestAllowed) = none ↔
      entry.frameUsed < oldestAllowed := by
  rw [Option.filter_eq_none_iff]
  unfold keeps
  constructor
  · intro hNone
    have hOld := hNone entry rfl
    rw [Bool.not_eq_true', decide_eq_false_iff_not,
      not_not] at hOld
    exact hOld
  · intro hOld e hE
    cases hE
    rw [decide_eq_true hOld]
    decide

theorem lookup_evictStale (key k : U64) :
    (evictStale oldestAllowed cache key).entries.lookup k =
      if k = key then
        (cache.entries.lookup k).filter (keeps oldestAllowed)
      else cache.entries.lookup k := by
  unfold evictStale
  split_ifs with hSame
  · rw [hSame]
    cases hFound : cache.entries.lookup key with
    | none => exact hFound
    | some entry =>
        dsimp only
        split_ifs with hOld
        · rw [entries_removeEntry, Finmap.lookup_erase]
          exact (filter_keeps_eq_none_iff.mpr hOld).symm
        · have hKeeps : keeps oldestAllowed entry = true := by
            simp [keeps, hOld]
          rw [hFound, Option.filter_some, if_pos hKeeps]
  · cases cache.entries.lookup key with
    | none => rfl
    | some entry =>
        dsimp only
        split_ifs
        · rw [entries_removeEntry, Finmap.lookup_erase_ne hSame]
        · rfl

/- Visiting an entry more than once makes no difference. -/
theorem lookup_foldl_evictStale
    (keys : List U64)
    (k : U64) :
    ∀ cache : TextureCache,
      (keys.foldl (evictStale oldestAllowed)
          cache).entries.lookup k =
        if k ∈ keys then
          (cache.entries.lookup k).filter (keeps oldestAllowed)
        else cache.entries.lookup k := by
  induction keys with
  | nil => exact fun cache => rfl
  | cons key keys ih =>
      intro cache
      rw [List.foldl_cons, ih, lookup_evictStale]
      by_cases hSame : k = key
      · have hHere : k ∈ key :: keys := by
          rw [hSame]
          exact List.mem_cons_self
        rw [if_pos hSame, if_pos hHere]
        split_ifs
        · rw [Option.filter_filter]
          simp only [Bool.and_self]
        · rfl
      · simp [hSame]

/- A frame frees memory above three quarters of a limit. -/
def Crowded (cache : TextureCache) : Prop :=
  cache.totalMemory > MAX_CACHE_MEMORY * 3 / 4 ∨
    cache.size > MAX_CACHE_ENTRIES * 3 / 4

/- Only entries go that were not used for the threshold. -/
def EvictsUnused
    (cache : TextureCache)
    (order : List U64) : Prop :=
  ∀ key entry, cache.entries.lookup key = some entry →
    (cache.endFrame order).entries.lookup key = none →
      entry.frameUsed.toNat + EVICTION_THRESHOLD.toNat <
        (cache.endFrame order).frameCount.toNat

/-
  The threshold has passed since the first frame, or every
  entry is of a frame that the wrapped difference does not
  exceed.
-/
def CountsFrames (cache : TextureCache) : Prop :=
  Crowded cache →
    EVICTION_THRESHOLD.toNat ≤ (cache.frameCount + 1).toNat ∨
      ∀ key entry, cache.entries.lookup key = some entry →
        2 ^ 64 + (cache.frameCount + 1).toNat ≤
          entry.frameUsed.toNat + EVICTION_THRESHOLD.toNat

theorem frameCount_removeEntry (key : U64) :
    (cache.removeEntry key).frameCount = cache.frameCount := by
  unfold removeEntry
  cases cache.entries.lookup key <;> rfl

theorem frameCount_evictStale (key : U64) :
    (evictStale oldestAllowed cache key).frameCount =
      cache.frameCount := by
  unfold evictStale
  cases cache.entries.lookup key with
  | none => rfl
  | some entry =>
      dsimp only
      split_ifs
      · exact frameCount_removeEntry key
      · rfl

theorem frameCount_endFrame (order : List U64) :
    (cache.endFrame order).frameCount =
      cache.frameCount + 1 := by
  unfold endFrame
  dsimp only
  split_ifs
  · refine List.foldlRecOn order _
      (motive := fun c : TextureCache =>
        c.frameCount = cache.frameCount + 1) rfl ?_
    intro c hC key _
    rw [frameCount_evictStale, hC]
  · rfl

/- The entries that go, as the code tells their age. -/
theorem lookup_endFrame_eq_none_iff
    {order : List U64}
    (hOrder : EntryOrder cache order)
    {key : U64}
    {entry : CachedTexture}
    (hSome : cache.entries.lookup key = some entry) :
    (cache.endFrame order).entries.lookup key = none ↔
      Crowded cache ∧
        entry.frameUsed <
          cache.frameCount + 1 - EVICTION_THRESHOLD := by
  have hMem : key ∈ order := by
    rw [← Multiset.mem_coe, hOrder]
    exact
      Finmap.mem_keys.mpr (Finmap.mem_iff.mpr ⟨entry, hSome⟩)
  unfold endFrame Crowded
  dsimp only
  split_ifs with hFull
  · rw [lookup_foldl_evictStale, if_pos hMem]
    change (cache.entries.lookup key).filter _ = none ↔ _
    rw [hSome, filter_keeps_eq_none_iff]
    exact (and_iff_right hFull).symm
  · change cache.entries.lookup key = none ↔ _
    rw [hSome]
    constructor
    · intro hNone
      cases hNone
    · intro hBoth
      exact absurd hBoth.1 hFull

/- The difference of frames, where it wraps and where not. -/
theorem lt_sub_threshold_iff (used frame : U64) :
    used < frame - EVICTION_THRESHOLD ↔
      used.toNat + EVICTION_THRESHOLD.toNat < frame.toNat ∨
        (frame.toNat < EVICTION_THRESHOLD.toNat ∧
          used.toNat + EVICTION_THRESHOLD.toNat <
            2 ^ 64 + frame.toNat) := by
  have hThreshold : EVICTION_THRESHOLD.toNat = 60 := rfl
  have hUsed := used.isLt
  have hFrame := frame.isLt
  rw [BitVec.lt_def, BitVec.toNat_sub, hThreshold]
  omega

/-
  A frame evicts only what was not used for the threshold
  exactly if it evicts nothing or counts its frames right.
-/
theorem evictsUnused_iff
    {order : List U64}
    (hOrder : EntryOrder cache order) :
    EvictsUnused cache order ↔ CountsFrames cache := by
  unfold EvictsUnused CountsFrames
  rw [frameCount_endFrame]
  constructor
  · intro hUnused hFull
    by_contra hNeither
    rcases not_or.mp hNeither with ⟨hEarly, hSome⟩
    apply hSome
    intro key entry hFound
    by_contra hOld
    have hGone :
        (cache.endFrame order).entries.lookup key = none := by
      rw [lookup_endFrame_eq_none_iff hOrder hFound,
        lt_sub_threshold_iff]
      exact ⟨hFull, Or.inr ⟨by omega, by omega⟩⟩
    have hLater := hUnused key entry hFound hGone
    omega
  · intro hCounts key entry hFound hGone
    rw [lookup_endFrame_eq_none_iff hOrder hFound,
      lt_sub_threshold_iff] at hGone
    rcases hGone with ⟨hFull, hLater | ⟨hEarly, hOld⟩⟩
    · exact hLater
    · rcases hCounts hFull with hPassed | hRecent
      · omega
      · have hFrame := hRecent key entry hFound
        omega

/- As many bytes as the cache may hold. -/
def hugeInfo : TextureInfo :=
  { sampleInfo with width := 16384, height := 8192 }

/- A cache with a texture of that size, in the first frame. -/
def hugeCache : TextureCache :=
  EventRun.stateAfter (step anyDevice) {}
    [.getOrCreate hugeInfo (some fun _ => 0)
      fun _ => makeKey hugeInfo]

theorem entryOrder_hugeCache :
    EntryOrder hugeCache [makeKey hugeInfo] := by
  show (_ : Multiset U64) = _
  decide

/- A hundred frames later it is unused. -/
theorem hugeCache_evictsUnused :
    EvictsUnused { hugeCache with frameCount := 100 }
      [makeKey hugeInfo] := by
  have hOrder :
      EntryOrder { hugeCache with frameCount := 100 }
        [makeKey hugeInfo] :=
    entryOrder_hugeCache
  exact (evictsUnused_iff hOrder).mpr fun _ =>
    Or.inl (by decide)

/- The first frame evicts what it used. -/
theorem hugeCache_not_evictsUnused :
    EntryOrder hugeCache [makeKey hugeInfo] ∧
      ¬ EvictsUnused hugeCache [makeKey hugeInfo] := by
  refine ⟨entryOrder_hugeCache, ?_⟩
  intro hUnused
  have hEntry :
      hugeCache.entries.lookup (makeKey hugeInfo) =
        some
          { cacheKey := makeKey hugeInfo
            info := hugeInfo
            texture := some ⟨0, hugeInfo⟩
            frameUsed := 0
            sizeBytes := actualSize hugeInfo } := by
    decide
  have hLater := hUnused _ _ hEntry (by decide)
  rw [frameCount_endFrame] at hLater
  exact absurd hLater (by decide)

end TextureCache

end M1Switch
