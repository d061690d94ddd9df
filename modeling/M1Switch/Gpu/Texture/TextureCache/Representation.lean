import M1Switch.Gpu.Texture.TextureCache
import M1Switch.Library.EventRun

/-
  What the members of the texture cache say about each other.

  The byte count is that of the entries, every entry is under
  the key of its descriptor, and the index has one pair for
  every entry with an address.  Every operation keeps this,
  in whatever order it meets the entries.

  Key definitions include:
    * `TextureCache.Represented`
    * `TextureCache.CacheOp`

  Main results:
    * `invalidate`
    * `storeTexture`
    * `represented_run`
-/

------
-- Representation
------

namespace M1Switch

namespace TextureCache

open MapTotals

variable {cache : TextureCache} {gpuAddress : U64}
variable {order : List U64}

/- The pair of an entry in the index; none at address 0. -/
def indexPair
    (key : U64)
    (entry : CachedTexture) : Multiset (U64 × U64) :=
  if entry.info.gpuAddress = 0 then 0
  else {(entry.info.gpuAddress, key)}

structure Represented (cache : TextureCache) : Prop where
  totalMemory :
    cache.totalMemory =
      total (fun _ entry => entry.sizeBytes) cache.entries
  keyed :
    ∀ key entry, cache.entries.lookup key = some entry →
      key = makeKey entry.info
  index :
    cache.addrIndex = total indexPair cache.entries
  live :
    ∀ key entry, cache.entries.lookup key = some entry →
      entry.texture ≠ none

/- The orders a hash table may give its elements. -/
def EntryOrder
    (cache : TextureCache)
    (order : List U64) : Prop :=
  (order : Multiset U64) = cache.entries.keys.val

def IndexOrder
    (cache : TextureCache)
    (gpuAddress : U64)
    (order : List U64) : Prop :=
  (order : Multiset U64) =
    (cache.equalRange gpuAddress).map (·.2)

/-
  What `sorted[i]` may read: the keys by their frames, in some
  order where these are equal.  Past the end it may be
  anything.
-/
def EvictionOrder
    (cache : TextureCache)
    (sorted : Nat → U64) : Prop :=
  ∃ rows : List (U64 × U64),
    (rows : Multiset (U64 × U64)) =
        cache.entries.entries.map
          (fun row => (row.1, row.2.frameUsed)) ∧
      rows.Pairwise (fun a b => a.2 ≤ b.2) ∧
        ∀ i (hI : i < rows.length),
          sorted i = (rows.get ⟨i, hI⟩).1

theorem indexAdd_eq
    (index : Multiset (U64 × U64))
    (key : U64)
    (entry : CachedTexture) :
    indexAdd index entry.info.gpuAddress key =
      indexPair key entry + index := by
  unfold indexAdd indexPair
  by_cases hZero : entry.info.gpuAddress = 0
  · rw [if_neg (not_not_intro hZero), if_pos hZero, zero_add]
  · rw [if_pos hZero, if_neg hZero, Multiset.singleton_add]

theorem indexRemove_eq
    (index : Multiset (U64 × U64))
    (key : U64)
    (entry : CachedTexture) :
    indexRemove (indexPair key entry + index)
      entry.info.gpuAddress key = index := by
  unfold indexRemove indexPair
  split_ifs with hZero
  · rw [zero_add]
  · rw [Multiset.singleton_add, Multiset.erase_cons_head]

theorem represented_empty : Represented {} := by
  refine ⟨rfl, ?_, rfl, ?_⟩
  · intro key entry hSome
    cases hSome
  · intro key entry hSome
    cases hSome

theorem mem_addrIndex_iff
    (hRep : Represented cache)
    {gpuAddress key : U64} :
    (gpuAddress, key) ∈ cache.addrIndex ↔
      ∃ entry, cache.entries.lookup key = some entry ∧
        entry.info.gpuAddress = gpuAddress ∧
          gpuAddress ≠ 0 := by
  rw [hRep.index, mem_total_iff]
  constructor
  · rintro ⟨k, entry, hSome, hMem⟩
    unfold indexPair at hMem
    split_ifs at hMem with hZero
    · cases hMem
    · cases Multiset.mem_singleton.mp hMem
      exact ⟨entry, hSome, rfl, hZero⟩
  · rintro ⟨entry, hSome, rfl, hNe⟩
    refine ⟨key, entry, hSome, ?_⟩
    rw [indexPair, if_neg hNe]
    exact Multiset.mem_singleton_self _

/- The keys of an address are those of its entries. -/
theorem mem_order_iff
    (hRep : Represented cache)
    (hOrder : IndexOrder cache gpuAddress order)
    (hNe : gpuAddress ≠ 0)
    {key : U64} :
    key ∈ order ↔
      ∃ entry, cache.entries.lookup key = some entry ∧
        entry.info.gpuAddress = gpuAddress := by
  rw [← Multiset.mem_coe, hOrder, Multiset.mem_map]
  constructor
  · rintro ⟨⟨addr, k⟩, hMem, rfl⟩
    rcases Multiset.mem_filter.mp hMem with ⟨hIndex, hAddr⟩
    cases hAddr
    rcases (mem_addrIndex_iff hRep).mp hIndex with
      ⟨entry, hSome, hGpu, _⟩
    exact ⟨entry, hSome, hGpu⟩
  · rintro ⟨entry, hSome, hGpu⟩
    refine ⟨(gpuAddress, key), Multiset.mem_filter.mpr ?_, rfl⟩
    exact ⟨(mem_addrIndex_iff hRep).mpr
      ⟨entry, hSome, hGpu, hNe⟩, rfl⟩

------
-- Erasing Entries
------

variable {key : U64}

@[simp] theorem entries_dropEntry :
    (cache.dropEntry key).entries = cache.entries.erase key := by
  unfold dropEntry
  cases hFound : cache.entries.lookup key with
  | none => exact (erase_of_lookup_none hFound).symm
  | some entry => rfl

@[simp] theorem entries_removeEntry :
    (cache.removeEntry key).entries =
      cache.entries.erase key := by
  unfold removeEntry
  cases hFound : cache.entries.lookup key with
  | none => exact (erase_of_lookup_none hFound).symm
  | some entry => rfl

/- A loop over keys erases them. -/
theorem entries_foldl
    {erase : TextureCache → U64 → TextureCache}
    (hErase :
      ∀ cache key,
        (erase cache key).entries = cache.entries.erase key)
    (keys : List U64) :
    ∀ cache : TextureCache,
      (keys.foldl erase cache).entries =
        eraseAll cache.entries keys := by
  induction keys with
  | nil => exact fun cache => rfl
  | cons key keys ih =>
      intro cache
      rw [List.foldl_cons, ih, hErase]
      rfl

@[simp] theorem created_dropEntry :
    (cache.dropEntry key).created = cache.created := by
  unfold dropEntry
  cases cache.entries.lookup key <;> rfl

@[simp] theorem created_removeEntry :
    (cache.removeEntry key).created = cache.created := by
  unfold removeEntry
  cases cache.entries.lookup key <;> rfl

theorem created_foldl
    {erase : TextureCache → U64 → TextureCache}
    (hErase :
      ∀ cache key, (erase cache key).created = cache.created)
    (keys : List U64)
    (cache : TextureCache) :
    (keys.foldl erase cache).created = cache.created :=
  List.foldlRecOn keys erase
    (motive := fun c => c.created = cache.created) rfl
    fun c hC key _ => (hErase c key).trans hC

theorem Represented.removeEntry
    (hRep : Represented cache)
    (key : U64) :
    Represented (cache.removeEntry key) := by
  unfold TextureCache.removeEntry
  cases hFound : cache.entries.lookup key with
  | none => exact hRep
  | some entry =>
      refine ⟨?_, ?_, ?_, ?_⟩
      · show cache.totalMemory - entry.sizeBytes = _
        rw [hRep.totalMemory, total_erase hFound,
          add_sub_cancel_left]
      · intro x e hSome
        exact hRep.keyed x e (lookup_of_erase hSome)
      · show indexRemove cache.addrIndex _ key = _
        rw [hRep.index, total_erase hFound, indexRemove_eq]
      · intro x e hSome
        exact hRep.live x e (lookup_of_erase hSome)

theorem Represented.foldl_removeEntry
    (hRep : Represented cache)
    (keys : List U64) :
    Represented (keys.foldl TextureCache.removeEntry cache) :=
  List.foldlRecOn keys TextureCache.removeEntry hRep
    fun _ hRep key _ => hRep.removeEntry key

theorem Represented.invalidateRegion
    (hRep : Represented cache)
    (address size : U64)
    (order : List U64) :
    Represented
      (cache.invalidateRegion address size order) := by
  unfold TextureCache.invalidateRegion
  split_ifs
  · exact hRep
  · exact hRep.foldl_removeEntry _

theorem Represented.evictLRU
    (hRep : Represented cache)
    (sorted : Nat → U64) :
    Represented (cache.evictLRU sorted) :=
  hRep.foldl_removeEntry _

theorem Represented.evictStale
    (hRep : Represented cache)
    (oldestAllowed key : U64) :
    Represented
      (TextureCache.evictStale oldestAllowed cache key) := by
  unfold TextureCache.evictStale
  cases cache.entries.lookup key with
  | none => exact hRep
  | some entry =>
      dsimp only
      split_ifs
      · exact hRep.removeEntry key
      · exact hRep

theorem Represented.endFrame
    (hRep : Represented cache)
    (order : List U64) :
    Represented (cache.endFrame order) := by
  have hNext :
      Represented
        { cache with frameCount := cache.frameCount + 1 } :=
    ⟨hRep.totalMemory, hRep.keyed, hRep.index, hRep.live⟩
  unfold TextureCache.endFrame
  dsimp only
  split_ifs
  · exact List.foldlRecOn order _ hNext
      fun _ hRep key _ => hRep.evictStale _ key
  · exact hNext

theorem represented_flush : Represented cache.flush := by
  refine ⟨rfl, ?_, rfl, ?_⟩
  · intro key entry hSome
    cases hSome
  · intro key entry hSome
    cases hSome

/-
  Invalidating an address empties its part of the index at
  once and then erases its entries.  In between, the index is
  that of the entries at other addresses.
-/
structure Invalidating
    (gpuAddress : U64)
    (start cache : TextureCache) : Prop where
  totalMemory :
    cache.totalMemory =
      total (fun _ entry => entry.sizeBytes) cache.entries
  index :
    cache.addrIndex =
      total
        (fun key entry =>
          (indexPair key entry).filter (·.1 ≠ gpuAddress))
        cache.entries
  entries :
    ∀ key entry, cache.entries.lookup key = some entry →
      start.entries.lookup key = some entry

theorem Invalidating.dropEntry
    {start : TextureCache}
    (hInv : Invalidating gpuAddress start cache)
    (hKey :
      ∀ entry, start.entries.lookup key = some entry →
        entry.info.gpuAddress = gpuAddress) :
    Invalidating gpuAddress start (cache.dropEntry key) := by
  unfold TextureCache.dropEntry
  cases hFound : cache.entries.lookup key with
  | none => exact hInv
  | some entry =>
      refine ⟨?_, ?_, ?_⟩
      · show cache.totalMemory - entry.sizeBytes = _
        rw [hInv.totalMemory, total_erase hFound,
          add_sub_cancel_left]
      · have hGpu := hKey entry (hInv.entries key entry hFound)
        show cache.addrIndex = _
        rw [hInv.index, total_erase hFound]
        have hNone :
            (indexPair key entry).filter
              (·.1 ≠ gpuAddress) = 0 := by
          unfold indexPair
          split_ifs
          · rfl
          · simp [hGpu]
        rw [hNone, zero_add]
      · intro x e hSome
        exact hInv.entries x e (lookup_of_erase hSome)

theorem invalidating_start
    (hRep : Represented cache)
    (gpuAddress : U64) :
    Invalidating gpuAddress cache
      { cache with
        addrIndex :=
          cache.addrIndex.filter (·.1 ≠ gpuAddress) } := by
  refine ⟨hRep.totalMemory, ?_, fun _ _ hSome => hSome⟩
  show cache.addrIndex.filter (·.1 ≠ gpuAddress) = _
  rw [hRep.index]
  exact filter_total _

/- An invalidation erases the keys of the address. -/
theorem lookup_invalidate
    (hOrder : IndexOrder cache gpuAddress order)
    (key : U64) :
    (cache.invalidate gpuAddress order).entries.lookup key =
      if gpuAddress ≠ 0 ∧ key ∈ order then none
      else cache.entries.lookup key := by
  unfold TextureCache.invalidate
  by_cases hZero : gpuAddress = 0
  · rw [if_pos hZero, if_neg (fun hBoth => hBoth.1 hZero)]
  · rw [if_neg hZero]
    by_cases hEmpty : cache.equalRange gpuAddress = 0
    · have hNil : order = [] := by
        rw [IndexOrder, hEmpty] at hOrder
        exact (Multiset.coe_eq_zero _).mp hOrder
      rw [if_pos hEmpty, hNil, if_neg]
      rintro ⟨_, hMem⟩
      cases hMem
    · rw [if_neg hEmpty,
        entries_foldl (fun _ _ => entries_dropEntry),
        lookup_eraseAll]
      by_cases hMem : key ∈ order
      · rw [if_pos hMem, if_pos ⟨hZero, hMem⟩]
      · rw [if_neg hMem, if_neg (fun hBoth => hMem hBoth.2)]

theorem Represented.invalidate
    (hRep : Represented cache)
    (hOrder : IndexOrder cache gpuAddress order) :
    Represented (cache.invalidate gpuAddress order) := by
  have hLookup := lookup_invalidate hOrder
  unfold TextureCache.invalidate at hLookup ⊢
  by_cases hZero : gpuAddress = 0
  · rw [if_pos hZero]
    exact hRep
  rw [if_neg hZero] at hLookup ⊢
  by_cases hEmpty : cache.equalRange gpuAddress = 0
  · rw [if_pos hEmpty]
    exact hRep
  rw [if_neg hEmpty] at hLookup ⊢
  have hInv :
      Invalidating gpuAddress cache
        (order.foldl TextureCache.dropEntry
          { cache with
            addrIndex :=
              cache.addrIndex.filter (·.1 ≠ gpuAddress) }) := by
    refine List.foldlRecOn order TextureCache.dropEntry
      (invalidating_start hRep gpuAddress) ?_
    intro c hInv key hKey
    apply hInv.dropEntry
    intro entry hSome
    rcases (mem_order_iff hRep hOrder hZero).mp hKey with
      ⟨entry', hSome', hGpu⟩
    cases hSome.symm.trans hSome'
    exact hGpu
  refine ⟨hInv.totalMemory, ?_, ?_, ?_⟩
  · intro key entry hSome
    exact hRep.keyed key entry (hInv.entries key entry hSome)
  · -- No entry of the address is left.
    rw [hInv.index]
    apply total_congr
    intro key entry hSome
    have hGpu : entry.info.gpuAddress ≠ gpuAddress := by
      intro hGpu
      have hKey :=
        (mem_order_iff hRep hOrder hZero).mpr
          ⟨entry, hInv.entries key entry hSome, hGpu⟩
      rw [hLookup key, if_pos ⟨hZero, hKey⟩] at hSome
      cases hSome
    unfold indexPair
    split_ifs
    · rfl
    · simp [hGpu]
  · intro key entry hSome
    exact hRep.live key entry (hInv.entries key entry hSome)

------
-- Lookup And Creation
------

variable {info : TextureInfo}

/- A hit marks its entry; a miss changes nothing. -/
theorem findCached_cases
    (cache : TextureCache)
    (key : U64) :
    (∃ entry tex,
      cache.entries.lookup key = some entry ∧
        entry.texture = some tex ∧
          cache.findCached key =
            (some tex,
              { cache with
                entries := cache.entries.insert key
                  { entry with
                    frameUsed := cache.frameCount } })) ∨
      (cache.findCached key = (none, cache) ∧
        ∀ entry, cache.entries.lookup key = some entry →
          entry.texture = none) := by
  unfold TextureCache.findCached
  cases hFound : cache.entries.lookup key with
  | none =>
      refine Or.inr ⟨rfl, ?_⟩
      intro entry hSome
      cases hSome
  | some entry =>
      cases hTex : entry.texture with
      | none =>
          refine Or.inr ⟨by simp only [hTex], ?_⟩
          intro e hSome
          cases hSome
          exact hTex
      | some tex =>
          exact Or.inl ⟨entry, tex, rfl, hTex,
            by simp only [hTex]⟩

/- Marking an entry as used changes nothing else. -/
theorem Represented.markUsed
    (hRep : Represented cache)
    {entry : CachedTexture}
    (hFound : cache.entries.lookup key = some entry) :
    Represented
      { cache with
        entries := cache.entries.insert key
          { entry with frameUsed := cache.frameCount } } := by
  have hSame :
      ∀ x e,
        (cache.entries.insert key
          { entry with
            frameUsed := cache.frameCount }).lookup x =
            some e →
          ∃ e', cache.entries.lookup x = some e' ∧
            e'.info = e.info ∧ e'.texture = e.texture := by
    intro x e hSome
    rcases lookup_insert_cases hSome with
      ⟨rfl, rfl⟩ | ⟨_, hOld⟩
    · exact ⟨entry, hFound, rfl, rfl⟩
    · exact ⟨e, hOld, rfl, rfl⟩
  refine ⟨?_, ?_, ?_, ?_⟩
  · refine hRep.totalMemory.trans (Eq.symm ?_)
    apply total_insert_of_eq hFound
    rfl
  · intro x e hSome
    rcases hSame x e hSome with ⟨e', hOld, hInfo, _⟩
    rw [← hInfo]
    exact hRep.keyed x e' hOld
  · refine hRep.index.trans (Eq.symm ?_)
    apply total_insert_of_eq hFound
    rfl
  · intro x e hSome
    rcases hSame x e hSome with ⟨e', hOld, _, hTex⟩
    rw [← hTex]
    exact hRep.live x e' hOld

/- A miss has no entry under the key. -/
theorem Represented.lookup_of_miss
    (hRep : Represented cache)
    (hMiss : (cache.findCached key).1 = none) :
    cache.entries.lookup key = none ∧
      (cache.findCached key).2 = cache := by
  rcases findCached_cases cache key with
    ⟨_, _, _, _, hOut⟩ | ⟨hOut, hNil⟩
  · rw [hOut] at hMiss
    cases hMiss
  · refine ⟨?_, by rw [hOut]⟩
    cases hFound : cache.entries.lookup key with
    | none => rfl
    | some entry =>
        exact absurd (hNil entry hFound)
          (hRep.live key entry hFound)

/- The texture can be made from this memory. -/
def Creates
    (device : MTLDevice)
    (info : TextureInfo)
    (guestMemory : Option (Nat → U8)) : Prop :=
  guestMemory.isSome ∧ info.width ≠ 0 ∧ info.height ≠ 0 ∧
    device.newTexture info = true

theorem createTexture_of_creates
    {device : MTLDevice}
    {guestMemory : Option (Nat → U8)}
    (hCreates : Creates device info guestMemory) :
    cache.createTexture device info guestMemory =
      (some ⟨cache.created, info⟩,
        { cache with created := cache.created + 1 }) := by
  rcases hCreates with ⟨hMemory, hWidth, hHeight, hDevice⟩
  unfold TextureCache.createTexture
  rw [if_neg, if_pos hDevice]
  rintro (hNone | hZero | hZero)
  · cases guestMemory with
    | none => cases hMemory
    | some bytes => cases hNone
  · exact hWidth hZero
  · exact hHeight hZero

theorem createTexture_of_not_creates
    {device : MTLDevice}
    {guestMemory : Option (Nat → U8)}
    (hNot : ¬ Creates device info guestMemory) :
    cache.createTexture device info guestMemory =
      (none, cache) := by
  unfold TextureCache.createTexture
  split_ifs with hBad hDevice
  · rfl
  · refine absurd ?_ hNot
    rcases not_or.mp hBad with ⟨hMemory, hBoth⟩
    rcases not_or.mp hBoth with ⟨hWidth, hHeight⟩
    refine ⟨?_, hWidth, hHeight, hDevice⟩
    cases guestMemory with
    | none => exact absurd rfl hMemory
    | some bytes => rfl
  · rfl

/- An entry is added where its key was free. -/
theorem Represented.insertEntry
    (hRep : Represented cache)
    (tex : TextureObject)
    (hFree : cache.entries.lookup (makeKey info) = none) :
    Represented (cache.insertEntry info tex) := by
  refine ⟨?_, ?_, ?_, ?_⟩
  · show cache.totalMemory + actualSize info = _
    rw [hRep.totalMemory]
    show _ = total _ (cache.entries.insert (makeKey info) _)
    rw [total_insert, erase_of_lookup_none hFree, add_comm]
  · intro x e hSome
    rcases lookup_insert_cases hSome with ⟨rfl, rfl⟩ | ⟨_, hOld⟩
    · rfl
    · exact hRep.keyed x e hOld
  · show _ = total _ (cache.entries.insert (makeKey info) _)
    rw [total_insert, erase_of_lookup_none hFree,
      ← hRep.index, ← indexAdd_eq]
    rfl
  · intro x e hSome
    rcases lookup_insert_cases hSome with ⟨rfl, rfl⟩ | ⟨_, hOld⟩
    · exact fun hNone => nomatch hNone
    · exact hRep.live x e hOld

theorem Represented.storeTexture
    (hRep : Represented cache)
    (tex : TextureObject)
    (sorted : Nat → U64)
    (hFree : cache.entries.lookup (makeKey info) = none) :
    Represented (cache.storeTexture info tex sorted) := by
  have hInsert := hRep.insertEntry tex hFree
  unfold TextureCache.storeTexture
  dsimp only
  split_ifs
  · exact hInsert.evictLRU sorted
  · exact hInsert

/- The outcomes of a call. -/
inductive GetOrCreateCases
    (cache : TextureCache)
    (device : MTLDevice)
    (info : TextureInfo)
    (guestMemory : Option (Nat → U8))
    (sorted : Nat → U64) : Prop
  | hit
      (entry : CachedTexture)
      (tex : TextureObject)
      (hFound :
        cache.entries.lookup (makeKey info) = some entry)
      (hTex : entry.texture = some tex)
      (hOut :
        cache.getOrCreate device info guestMemory sorted =
          (some tex,
            { cache with
              entries := cache.entries.insert (makeKey info)
                { entry with
                  frameUsed := cache.frameCount } }))
  | failed
      (hFree : cache.entries.lookup (makeKey info) = none)
      (hNot : ¬ Creates device info guestMemory)
      (hOut :
        cache.getOrCreate device info guestMemory sorted =
          (none, cache))
  | made
      (hFree : cache.entries.lookup (makeKey info) = none)
      (hCreates : Creates device info guestMemory)
      (hOut :
        cache.getOrCreate device info guestMemory sorted =
          (some ⟨cache.created, info⟩,
            { cache with
              created := cache.created + 1 }.storeTexture
                info ⟨cache.created, info⟩ sorted))

theorem Represented.getOrCreate_cases
    (hRep : Represented cache)
    (device : MTLDevice)
    (info : TextureInfo)
    (guestMemory : Option (Nat → U8))
    (sorted : Nat → U64) :
    GetOrCreateCases cache device info guestMemory sorted := by
  rcases findCached_cases cache (makeKey info) with
    ⟨entry, tex, hFound, hTex, hFind⟩ | ⟨hFind, _⟩
  · refine .hit entry tex hFound hTex ?_
    unfold TextureCache.getOrCreate
    rw [hFind]
  · have hFree : cache.entries.lookup (makeKey info) = none :=
      (hRep.lookup_of_miss (by rw [hFind])).1
    by_cases hCreates : Creates device info guestMemory
    · refine .made hFree hCreates ?_
      unfold TextureCache.getOrCreate
      simp only [hFind, createTexture_of_creates hCreates]
    · refine .failed hFree hCreates ?_
      unfold TextureCache.getOrCreate
      simp only [hFind, createTexture_of_not_creates hCreates]

theorem Represented.getOrCreate
    (hRep : Represented cache)
    (device : MTLDevice)
    (info : TextureInfo)
    (guestMemory : Option (Nat → U8))
    (sorted : Nat → U64) :
    Represented
      (cache.getOrCreate device info guestMemory sorted).2 := by
  cases hRep.getOrCreate_cases device info guestMemory sorted with
  | hit entry tex hFound hTex hOut =>
      rw [hOut]
      exact hRep.markUsed hFound
  | failed hFree hNot hOut =>
      rw [hOut]
      exact hRep
  | made hFree hCreates hOut =>
      have hNext :
          Represented
            { cache with created := cache.created + 1 } :=
        ⟨hRep.totalMemory, hRep.keyed, hRep.index, hRep.live⟩
      rw [hOut]
      exact hNext.storeTexture _ sorted hFree

/- Storing a texture adds its entry and may drop others. -/
theorem lookup_storeTexture
    {tex : TextureObject}
    {sorted : Nat → U64}
    {entry : CachedTexture}
    (hSome :
      (cache.storeTexture info tex sorted).entries.lookup key =
        some entry) :
    (key = makeKey info ∧ entry.info = info ∧
      entry.texture = some tex ∧
        entry.sizeBytes = actualSize info) ∨
      (key ≠ makeKey info ∧
        cache.entries.lookup key = some entry) := by
  have hInsert :
      (cache.insertEntry info tex).entries.lookup key =
        some entry := by
    unfold TextureCache.storeTexture at hSome
    dsimp only at hSome
    split_ifs at hSome
    · unfold TextureCache.evictLRU at hSome
      rw [entries_foldl (fun _ _ => entries_removeEntry),
        lookup_eraseAll] at hSome
      split_ifs at hSome
      exact hSome
    · exact hSome
  rcases lookup_insert_cases hInsert with
    ⟨hKey, rfl⟩ | ⟨hKey, hOld⟩
  · exact Or.inl ⟨hKey, rfl, rfl, rfl⟩
  · exact Or.inr ⟨hKey, hOld⟩

@[simp] theorem created_storeTexture
    (tex : TextureObject)
    (sorted : Nat → U64) :
    (cache.storeTexture info tex sorted).created =
      cache.created := by
  unfold TextureCache.storeTexture
  dsimp only
  split_ifs
  · exact created_foldl (fun _ _ => created_removeEntry) _ _
  · rfl

------
-- Runs
------

/- The operations, with the orders they meet. -/
inductive CacheOp where
  | getOrCreate
      (info : TextureInfo)
      (guestMemory : Option (Nat → U8))
      (sorted : Nat → U64)
  | invalidate (gpuAddress : U64) (order : List U64)
  | invalidateRegion (address size : U64) (order : List U64)
  | evictLRU (sorted : Nat → U64)
  | endFrame (order : List U64)
  | flush

def step
    (device : MTLDevice)
    (cache : TextureCache) : CacheOp → TextureCache
| .getOrCreate info guestMemory sorted =>
    (cache.getOrCreate device info guestMemory sorted).2
| .invalidate gpuAddress order =>
    cache.invalidate gpuAddress order
| .invalidateRegion address size order =>
    cache.invalidateRegion address size order
| .evictLRU sorted => cache.evictLRU sorted
| .endFrame order => cache.endFrame order
| .flush => cache.flush

/- The orders are ones that the operation may meet. -/
def Admissible (cache : TextureCache) : CacheOp → Prop
| .getOrCreate info _ sorted =>
    EvictionOrder
      (cache.insertEntry info ⟨cache.created, info⟩) sorted
| .invalidate gpuAddress order =>
    IndexOrder cache gpuAddress order
| .invalidateRegion _ _ order => EntryOrder cache order
| .evictLRU sorted => EvictionOrder cache sorted
| .endFrame order => EntryOrder cache order
| .flush => True

theorem represented_step
    (device : MTLDevice)
    (op : CacheOp)
    (hRep : Represented cache)
    (hOrder : Admissible cache op) :
    Represented (cache.step device op) := by
  cases op with
  | getOrCreate info guestMemory sorted =>
      exact hRep.getOrCreate device info guestMemory sorted
  | invalidate gpuAddress order =>
      exact hRep.invalidate hOrder
  | invalidateRegion address size order =>
      exact hRep.invalidateRegion address size order
  | evictLRU sorted => exact hRep.evictLRU sorted
  | endFrame order => exact hRep.endFrame order
  | flush => exact represented_flush

/- Every run keeps the members in step with each other. -/
theorem represented_run
    (device : MTLDevice)
    (ops : List CacheOp)
    (hOrders :
      EventRun.Guarded (step device) Admissible {} ops) :
    Represented
      (EventRun.stateAfter (step device) {} ops) :=
  EventRun.Guarded.invariant
    (I := fun _ cache => Represented cache)
    represented_empty
    (fun _ op hRep hOrder =>
      represented_step device op hRep hOrder)
    hOrders

/- A device that makes every texture. -/
def anyDevice : MTLDevice :=
  { newTexture := fun _ => true }

def sampleInfo : TextureInfo :=
  { gpuAddress := 0x1000
    width := 4
    height := 4
    format := .RGBA8Unorm }

/- A texture is made, kept over a frame and written to. -/
def sampleOps : List CacheOp :=
  [.getOrCreate sampleInfo (some fun _ => 0)
      (fun _ => makeKey sampleInfo),
    .endFrame [makeKey sampleInfo],
    .invalidate 0x1000 [makeKey sampleInfo],
    .flush]

theorem sampleOps_represented :
    EventRun.Guarded (step anyDevice) Admissible {} sampleOps ∧
      Represented
        (EventRun.stateAfter (step anyDevice) {} sampleOps) := by
  have hGuarded :
      EventRun.Guarded (step anyDevice) Admissible {}
        sampleOps := by
    unfold sampleOps
    simp only [EventRun.guarded_cons]
    refine ⟨⟨[(makeKey sampleInfo, 0)], ?_, ?_, ?_⟩, ?_, ?_,
      trivial, EventRun.guarded_nil⟩
    · decide
    · exact List.pairwise_singleton _ _
    · intro i hI
      have hZero : i = 0 := by simpa using hI
      subst hZero
      rfl
    · show (_ : Multiset U64) = _
      decide
    · show (_ : Multiset U64) = _
      decide
  exact ⟨hGuarded, represented_run anyDevice sampleOps hGuarded⟩

end TextureCache

end M1Switch
