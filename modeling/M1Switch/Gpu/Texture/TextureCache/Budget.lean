import M1Switch.Gpu.Texture.TextureCache.Eviction

/-
  What a call leaves in the texture cache.

  A texture is stored first and then a batch is evicted if the
  cache is over its limits.  The new entry is of this frame,
  as others may be, and a batch is one of entries, not bytes.

  Key definitions include:
    * `TextureCache.WithinBudget`
    * `TextureCache.TextureKept`

  Main results:
    * `stored_iff`
    * `textureKept_iff`
    * `texturesKept_iff`
-/

------
-- The Budget
------

namespace M1Switch

namespace TextureCache

open MapTotals
open LruEviction

def bytesOf (entry : CachedTexture) : Nat :=
  entry.sizeBytes.toNat

variable (cache : TextureCache)

def bytes : Nat :=
  total (fun _ entry => bytesOf entry) cache.entries

/- The cache with a new texture, as an eviction finds it. -/
def added (info : TextureInfo) : TextureCache :=
  { cache with
    created := cache.created + 1 }.insertEntry info
      ⟨cache.created, info⟩

/- The limits, but for a texture that is alone. -/
structure WithinBudget : Prop where
  count : cache.size ≤ MAX_CACHE_ENTRIES
  memory :
    cache.bytes ≤ MAX_CACHE_MEMORY.toNat ∨ cache.size = 1

/-
  The texture of a call is an entry of the cache when the call
  returns, and the cache keeps its limits, in whatever order
  the sort leaves the entries.
-/
def TextureKept
    (device : MTLDevice)
    (cache : TextureCache) : CacheOp → Prop
| .getOrCreate info guestMemory _ =>
    Creates device info guestMemory →
      ∀ sorted,
        EvictionOrder (cache.added info) sorted →
          let out :=
            cache.getOrCreate device info guestMemory sorted
          (∃ entry tex,
            out.1 = some tex ∧
              out.2.entries.lookup (makeKey info) =
                  some entry ∧
                entry.texture = some tex) ∧
            WithinBudget out.2
| _ => True

/- How many entries go when a texture has been added. -/
def batch : Nat :=
  if cache.totalMemory > MAX_CACHE_MEMORY ∨
      cache.size > MAX_CACHE_ENTRIES then
    min EVICT_BATCH_SIZE (cache.size - 1)
  else 0

/-
  As many entries are from earlier frames as go, and one is
  left or the others are small enough even if the lightest go.
-/
structure Roomy : Prop where
  older :
    cache.batch ≤
      older frameOf cache.entries cache.frameCount.toNat
  memory :
    cache.size = cache.batch + 1 ∨
      cache.bytes ≤
        MAX_CACHE_MEMORY.toNat +
          leastWeight frameOf bytesOf cache.entries cache.batch

/- If a texture is added, the cache with it has room. -/
def LeavesRoom
    (device : MTLDevice)
    (cache : TextureCache) : CacheOp → Prop
| .getOrCreate info guestMemory _ =>
    Creates device info guestMemory →
      cache.entries.lookup (makeKey info) = none →
        Roomy (cache.added info)
| _ => True

------
-- Smaller Caches
------

open MapTotals
open LruEviction

variable {cache : TextureCache}

theorem bytes_erase_le (key : U64) :
    total (fun _ entry => bytesOf entry)
        (cache.entries.erase key) ≤
      cache.bytes := by
  unfold bytes
  cases hFound : cache.entries.lookup key with
  | none => rw [erase_of_lookup_none hFound]
  | some entry =>
      rw [total_erase hFound]
      exact Nat.le_add_left _ _

theorem bytes_of_empty
    (hEmpty : cache.size = 0) :
    cache.bytes = 0 := by
  have hKeys : cache.entries.keys = ∅ :=
    Finset.card_eq_zero.mp hEmpty
  unfold bytes
  rw [total_eq_sum, hKeys]
  rfl

/- What a cache within its limits may be reduced to. -/
theorem WithinBudget.mono
    {after : TextureCache}
    (hBudget : WithinBudget cache)
    (hSize : after.size ≤ cache.size)
    (hBytes : after.bytes ≤ cache.bytes) :
    WithinBudget after := by
  refine ⟨le_trans hSize hBudget.count, ?_⟩
  rcases hBudget.memory with hFits | hAlone
  · exact Or.inl (le_trans hBytes hFits)
  · rw [hAlone] at hSize
    rcases Nat.le_one_iff_eq_zero_or_eq_one.mp hSize with
      hNone | hOne
    · left
      rw [bytes_of_empty hNone]
      exact Nat.zero_le _
    · exact Or.inr hOne

theorem WithinBudget.of_eraseAll
    {after : TextureCache}
    {keys : List U64}
    (hBudget : WithinBudget cache)
    (hEntries : after.entries = eraseAll cache.entries keys) :
    WithinBudget after := by
  apply hBudget.mono (size_le_of_eraseAll hEntries)
  induction keys generalizing cache with
  | nil =>
      unfold bytes
      rw [hEntries]
      rfl
  | cons key keys ih =>
      have hLess : WithinBudget (cache.removeEntry key) := by
        refine hBudget.mono (size_removeEntry_le key) ?_
        unfold bytes
        rw [entries_removeEntry]
        exact bytes_erase_le key
      refine le_trans (ih hLess ?_) ?_
      · rw [entries_removeEntry]
        exact hEntries
      · unfold bytes
        rw [entries_removeEntry]
        exact bytes_erase_le key

theorem WithinBudget.evictStale
    (hBudget : WithinBudget cache)
    (oldestAllowed key : U64) :
    WithinBudget
      (TextureCache.evictStale oldestAllowed cache key) := by
  unfold TextureCache.evictStale
  cases cache.entries.lookup key with
  | none => exact hBudget
  | some entry =>
      dsimp only
      split_ifs
      · have hErased :
            (cache.removeEntry key).entries =
              eraseAll cache.entries [key] :=
          entries_removeEntry
        exact hBudget.of_eraseAll hErased
      · exact hBudget

theorem WithinBudget.endFrame
    (hBudget : WithinBudget cache)
    (order : List U64) :
    WithinBudget (cache.endFrame order) := by
  have hNext :
      WithinBudget
        { cache with frameCount := cache.frameCount + 1 } :=
    ⟨hBudget.count, hBudget.memory⟩
  unfold TextureCache.endFrame
  dsimp only
  split_ifs
  · exact List.foldlRecOn order _ hNext
      fun _ hC key _ => hC.evictStale _ key
  · exact hNext

theorem withinBudget_empty : WithinBudget {} :=
  ⟨Nat.zero_le _, Or.inl (Nat.zero_le _)⟩

theorem withinBudget_flush : WithinBudget cache.flush :=
  ⟨Nat.zero_le _, Or.inl (Nat.zero_le _)⟩

/- Marking an entry as used leaves the limits alone. -/
theorem WithinBudget.markUsed
    (hBudget : WithinBudget cache)
    {key : U64}
    {entry : CachedTexture}
    (hFound : cache.entries.lookup key = some entry) :
    WithinBudget
      { cache with
        entries := cache.entries.insert key
          { entry with frameUsed := cache.frameCount } } := by
  apply hBudget.mono
  · apply card_le_of_lookup
    intro k e hSome
    rcases lookup_insert_cases hSome with ⟨hK, _⟩ | ⟨_, hOld⟩
    · rw [hK, hFound]
      rfl
    · rw [hOld]
      rfl
  · apply le_of_eq
    apply total_insert_of_eq hFound
    rfl

------
-- Adding A Texture
------

variable {info : TextureInfo} {tex : TextureObject}

/- What a store leaves, by the rows of its eviction. -/
theorem storeTexture_entries
    {rows : List (U64 × Nat)}
    {sorted : Nat → U64}
    (hRows :
      OldestFirst frameOf
        (cache.insertEntry info tex).entries rows)
    (hReads : Reads rows sorted)
    (hSize : (cache.insertEntry info tex).size ≤ 2 ^ 32) :
    (cache.storeTexture info tex sorted).entries =
      evict (cache.insertEntry info tex).entries rows
        (cache.insertEntry info tex).batch := by
  have hInsert :
      0 < (cache.insertEntry info tex).size :=
    (size_insertEntry info tex).1
  unfold storeTexture batch
  dsimp only
  split_ifs
  · rw [evictLRU_of_reads hRows hReads hInsert hSize,
      toEvict_eq hInsert hSize]
  · rfl

/-
  Storing keeps the texture and the limits in every order, or
  in some order it does not.
-/
theorem stored_iff
    (hSize : cache.size ≤ MAX_CACHE_ENTRIES) :
    (∀ sorted,
      EvictionOrder (cache.insertEntry info tex) sorted →
        (∃ entry,
          (cache.storeTexture info tex sorted).entries.lookup
              (makeKey info) = some entry ∧
            entry.texture = some tex) ∧
          WithinBudget (cache.storeTexture info tex sorted)) ↔
      Roomy (cache.insertEntry info tex) := by
  have hInsert :
      0 < (cache.insertEntry info tex).size ∧
        (cache.insertEntry info tex).size ≤ cache.size + 1 :=
    size_insertEntry info tex
  have hLimit : MAX_CACHE_ENTRIES = 4096 := rfl
  have hFew :
      (cache.insertEntry info tex).batch ≤
        (cache.insertEntry info tex).size := by
    unfold batch
    split_ifs
    · omega
    · exact Nat.zero_le _
  have hWide :
      (cache.insertEntry info tex).size ≤ 2 ^ 32 := by
    omega
  have hNew :
      (cache.insertEntry info tex).entries.lookup
          (makeKey info) =
        some
          { cacheKey := makeKey info
            info := info
            texture := some tex
            frameUsed := cache.frameCount
            sizeBytes := actualSize info } :=
    Finmap.lookup_insert _
  -- The size of what is left does not depend on the order.
  have hLeft :
      ∀ rows sorted,
        OldestFirst frameOf
            (cache.insertEntry info tex).entries rows →
          Reads rows sorted →
            (cache.storeTexture info tex sorted).size =
              (cache.insertEntry info tex).size -
                (cache.insertEntry info tex).batch := by
    intro rows sorted hRows hReads
    have hCard := hRows.card_evict hFew
    rw [← storeTexture_entries hRows hReads hWide] at hCard
    exact hCard
  have hSurvives :
      (∀ rows,
        OldestFirst frameOf
            (cache.insertEntry info tex).entries rows →
          (evict (cache.insertEntry info tex).entries rows
              (cache.insertEntry info tex).batch).lookup
              (makeKey info) = some _) ↔
        (cache.insertEntry info tex).batch ≤
          older frameOf (cache.insertEntry info tex).entries
            cache.frameCount.toNat :=
    survives_iff hNew
  constructor
  · intro hAll
    constructor
    · refine hSurvives.mp ?_
      intro rows hRows
      rcases exists_reads rows with ⟨sorted, hReads⟩
      rcases (hAll sorted
        (evictionOrder_iff.mpr ⟨rows, hRows, hReads⟩)).1 with
        ⟨entry, hSome, _⟩
      rw [storeTexture_entries hRows hReads hWide,
        lookup_evict] at hSome
      rw [lookup_evict]
      split_ifs at hSome ⊢
      exact hNew
    · by_cases hOne :
          (cache.insertEntry info tex).size =
            (cache.insertEntry info tex).batch + 1
      · exact Or.inl hOne
      · right
        refine (total_evict_le_iff hFew _).mp ?_
        intro rows hRows
        rcases exists_reads rows with ⟨sorted, hReads⟩
        have hBudget :=
          (hAll sorted
            (evictionOrder_iff.mpr ⟨rows, hRows, hReads⟩)).2
        rw [← storeTexture_entries hRows hReads hWide]
        rcases hBudget.memory with hFits | hAlone
        · exact hFits
        · rw [hLeft rows sorted hRows hReads] at hAlone
          omega
  · rintro ⟨hKept, hRoom⟩ sorted hOrder
    rcases evictionOrder_iff.mp hOrder with
      ⟨rows, hRows, hReads⟩
    have hEntries := storeTexture_entries hRows hReads hWide
    refine ⟨?_, size_storeTexture_le hSize hOrder, ?_⟩
    · rw [hEntries]
      exact ⟨_, hSurvives.mpr hKept rows hRows, rfl⟩
    · rcases hRoom with hOne | hFits
      · right
        rw [hLeft rows sorted hRows hReads]
        omega
      · left
        unfold bytes
        rw [hEntries]
        exact (total_evict_le_iff hFew _).mpr hFits rows hRows

------
-- Every Call Of A Run
------

variable {device : MTLDevice}

/- Hits need nothing but a cache within its limits. -/
theorem textureKept_iff
    (hRep : Represented cache)
    (hBudget : WithinBudget cache)
    (op : CacheOp) :
    TextureKept device cache op ↔
      LeavesRoom device cache op := by
  cases op with
  | getOrCreate info guestMemory sorted =>
      have hNext :
          { cache with created := cache.created + 1 }.size ≤
            MAX_CACHE_ENTRIES :=
        hBudget.count
      constructor
      · intro hKept hCreates hFree
        refine (stored_iff hNext).mp ?_
        intro sorted' hOrder
        have hOut := hKept hCreates sorted' hOrder
        cases hRep.getOrCreate_cases device info guestMemory
          sorted' with
        | hit entry tex hFound hTex hCall =>
            rw [hFree] at hFound
            cases hFound
        | failed _ hNot _ => exact absurd hCreates hNot
        | made _ _ hCall =>
            rw [hCall] at hOut
            rcases hOut with
              ⟨⟨entry, tex, hSome, hEntry, hTex⟩, hAfter⟩
            cases hSome
            exact ⟨⟨entry, hEntry, hTex⟩, hAfter⟩
      · intro hRoom hCreates sorted' hOrder
        cases hRep.getOrCreate_cases device info guestMemory
          sorted' with
        | hit entry tex hFound hTex hCall =>
            rw [hCall]
            exact ⟨⟨_, tex, rfl, Finmap.lookup_insert _, hTex⟩,
              hBudget.markUsed hFound⟩
        | failed _ hNot _ => exact absurd hCreates hNot
        | made hFree _ hCall =>
            have hStored :=
              (stored_iff hNext).mpr (hRoom hCreates hFree)
                sorted' hOrder
            rcases hStored with ⟨⟨entry, hEntry, hTex⟩, hAfter⟩
            rw [hCall]
            exact ⟨⟨entry, _, rfl, hEntry, hTex⟩, hAfter⟩
  | invalidate gpuAddress order => exact Iff.rfl
  | invalidateRegion address size order => exact Iff.rfl
  | evictLRU sorted => exact Iff.rfl
  | endFrame order => exact Iff.rfl
  | flush => exact Iff.rfl

theorem WithinBudget.step
    (hRep : Represented cache)
    (hBudget : WithinBudget cache)
    (op : CacheOp)
    (hOrder : Admissible cache op)
    (hKept : TextureKept device cache op) :
    WithinBudget (cache.step device op) := by
  cases op with
  | getOrCreate info guestMemory sorted =>
      change
        WithinBudget
          (cache.getOrCreate device info guestMemory sorted).2
      by_cases hCreates : Creates device info guestMemory
      · exact (hKept hCreates sorted hOrder).2
      · cases hRep.getOrCreate_cases device info guestMemory
          sorted with
        | hit entry tex hFound hTex hCall =>
            rw [hCall]
            exact hBudget.markUsed hFound
        | failed _ _ hCall =>
            rw [hCall]
            exact hBudget
        | made _ hMade _ => exact absurd hMade hCreates
  | invalidate gpuAddress order =>
      change WithinBudget (cache.invalidate gpuAddress order)
      unfold invalidate
      split_ifs
      · exact hBudget
      · exact hBudget
      · exact hBudget.of_eraseAll
          (entries_foldl (fun _ _ => entries_dropEntry) order _)
  | invalidateRegion address size order =>
      change
        WithinBudget (cache.invalidateRegion address size order)
      unfold invalidateRegion
      split_ifs
      · exact hBudget
      · exact hBudget.of_eraseAll
          (entries_foldl (fun _ _ => entries_removeEntry) _
            cache)
  | evictLRU sorted =>
      exact hBudget.of_eraseAll
        (entries_foldl (fun _ _ => entries_removeEntry) _ cache)
  | endFrame order => exact hBudget.endFrame order
  | flush => exact withinBudget_flush

/-
  The textures of a run are kept, and the cache within its
  limits, exactly if every texture that is added finds room.
-/
theorem texturesKept_iff
    (device : MTLDevice)
    (ops : List CacheOp)
    (hOrders :
      EventRun.Guarded (step device) Admissible {} ops) :
    EventRun.Guarded (step device) (TextureKept device) {}
        ops ↔
      EventRun.Guarded (step device) (LeavesRoom device) {}
        ops := by
  have hCongr :
      EventRun.Guarded (step device)
          (fun cache op =>
            Admissible cache op ∧ TextureKept device cache op)
          {} ops ↔
        EventRun.Guarded (step device)
          (fun cache op =>
            Admissible cache op ∧ LeavesRoom device cache op)
          {} ops := by
    apply EventRun.guarded_congr
      (I := fun cache =>
        Represented cache ∧ WithinBudget cache)
    · rintro c op ⟨hRep, hBudget⟩ ⟨hOrder, hKept⟩
      exact ⟨represented_step device op hRep hOrder,
        hBudget.step hRep op hOrder hKept⟩
    · rintro c op ⟨hRep, hBudget⟩
      rw [textureKept_iff hRep hBudget op]
    · exact ⟨represented_empty, withinBudget_empty⟩
  rw [EventRun.guarded_and, EventRun.guarded_and] at hCongr
  constructor
  · intro hKept
    exact (hCongr.mp ⟨hOrders, hKept⟩).2
  · intro hRoom
    exact (hCongr.mpr ⟨hOrders, hRoom⟩).2

theorem sampleOps_texturesKept :
    EventRun.Guarded (step anyDevice) Admissible {} sampleOps ∧
      EventRun.Guarded (step anyDevice)
        (TextureKept anyDevice) {} sampleOps := by
  have hOrders := sampleOps_represented.1
  refine ⟨hOrders,
    (texturesKept_iff anyDevice sampleOps hOrders).mpr ?_⟩
  unfold sampleOps
  simp only [EventRun.guarded_cons]
  refine ⟨?_, trivial, trivial, trivial, EventRun.guarded_nil⟩
  intro _ _
  refine ⟨?_, Or.inl ?_⟩
  · exact Nat.zero_le _
  · decide

/- Two textures in one frame. -/
def crowdedOps : List CacheOp :=
  [.getOrCreate hugeInfo (some fun _ => 0)
      (fun _ => makeKey hugeInfo),
    .getOrCreate laterInfo (some fun _ => 0)
      fun | 0 => makeKey laterInfo | _ => makeKey hugeInfo]

theorem crowdedOps_admissible :
    EventRun.Guarded (step anyDevice) Admissible {}
      crowdedOps := by
  unfold crowdedOps
  simp only [EventRun.guarded_cons]
  refine ⟨⟨[(makeKey hugeInfo, 0)], ?_, ?_, ?_⟩,
    ⟨[(makeKey laterInfo, 0), (makeKey hugeInfo, 0)], ?_, ?_,
      ?_⟩,
    EventRun.guarded_nil⟩
  · decide
  · exact List.pairwise_singleton _ _
  · intro i hI
    have hZero : i = 0 := by simpa using hI
    subst hZero
    rfl
  · decide
  · decide
  · intro i hI
    have hTwo : i = 0 ∨ i = 1 := by
      have : i < 2 := hI
      omega
    rcases hTwo with hZero | hOne
    · subst hZero
      rfl
    · subst hOne
      rfl

/- The second of them goes before it is returned. -/
theorem crowdedOps_not_kept :
    EventRun.Guarded (step anyDevice) Admissible {}
        crowdedOps ∧
      ¬ EventRun.Guarded (step anyDevice)
        (TextureKept anyDevice) {} crowdedOps := by
  refine ⟨crowdedOps_admissible, ?_⟩
  intro hKept
  have hOrders := crowdedOps_admissible
  unfold crowdedOps at hKept hOrders
  simp only [EventRun.guarded_cons] at hKept hOrders
  have hCreates :
      Creates anyDevice laterInfo (some fun _ => 0) := by
    refine ⟨rfl, ?_, ?_, rfl⟩
    · decide
    · decide
  rcases hKept.2.1 hCreates _ hOrders.2.1 with
    ⟨⟨entry, tex, _, hSome, _⟩, _⟩
  have hEntry : _ = true := congrArg Option.isSome hSome
  exact absurd hEntry (by decide)

end TextureCache

end M1Switch
