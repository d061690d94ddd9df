import M1Switch.Gpu.Texture.TextureCache.Coherence

/-
  Calls of several threads.

  A call looks its key up in one critical section and stores
  the texture it made in another.  Two calls that both miss
  store under one key: the second entry replaces the first,
  which stays counted and indexed and is never released.

  Key definitions include:
    * `TextureCache.Erases`
    * `TextureCache.Threads`

  Main results:
    * `TextureCache.Threads.Tracked.step`
    * `TextureCache.Threads.Lost.step`
    * `TextureCache.Threads.settled_iff`
-/

------
-- Where Textures Are
------

namespace M1Switch

namespace TextureCache

open MapTotals

variable {cache cache' : TextureCache}
variable {tex : TextureObject}
variable {info : TextureInfo}

/- An entry has the texture. -/
def Holds (cache : TextureCache) (tex : TextureObject) : Prop :=
  ∃ key entry, cache.entries.lookup key = some entry ∧
    entry.texture = some tex

/- The texture is under the key of its descriptor only. -/
def KeyedAt (cache : TextureCache) (tex : TextureObject) : Prop :=
  ∀ key entry, cache.entries.lookup key = some entry →
    entry.texture = some tex → key = makeKey tex.info

/- The second cache has erased entries of the first. -/
structure Erases (cache cache' : TextureCache) : Prop where
  entries :
    ∀ key entry, cache'.entries.lookup key = some entry →
      cache.entries.lookup key = some entry
  kept :
    ∀ tex, Holds cache tex →
      Holds cache' tex ∨ tex ∈ cache'.released
  released :
    ∀ tex, tex ∈ cache.released → tex ∈ cache'.released
  origin :
    ∀ tex, tex ∈ cache'.released →
      tex ∈ cache.released ∨ Holds cache tex
  apart :
    ∀ tex, KeyedAt cache tex → tex ∉ cache.released →
      Holds cache' tex → tex ∉ cache'.released

theorem Erases.holds
    (hErases : Erases cache cache')
    (hHolds : Holds cache' tex) :
    Holds cache tex := by
  rcases hHolds with ⟨key, entry, hSome, hTex⟩
  exact ⟨key, entry, hErases.entries key entry hSome, hTex⟩

theorem Erases.keyedAt
    (hErases : Erases cache cache')
    (hKeyed : KeyedAt cache tex) :
    KeyedAt cache' tex := by
  intro key entry hSome hTex
  exact hKeyed key entry (hErases.entries key entry hSome) hTex

theorem Erases.refl (cache : TextureCache) :
    Erases cache cache :=
  ⟨fun _ _ hSome => hSome, fun _ hHolds => Or.inl hHolds,
    fun _ hMem => hMem, fun _ hMem => Or.inl hMem,
    fun _ _ hNot _ => hNot⟩

theorem Erases.trans
    {cache'' : TextureCache}
    (hFirst : Erases cache cache')
    (hSecond : Erases cache' cache'') :
    Erases cache cache'' := by
  refine ⟨?_, ?_, ?_, ?_, ?_⟩
  · intro key entry hSome
    exact hFirst.entries key entry
      (hSecond.entries key entry hSome)
  · intro tex hHolds
    rcases hFirst.kept tex hHolds with hHere | hReleased
    · exact hSecond.kept tex hHere
    · exact Or.inr (hSecond.released tex hReleased)
  · intro tex hMem
    exact hSecond.released tex (hFirst.released tex hMem)
  · intro tex hMem
    rcases hSecond.origin tex hMem with hReleased | hHolds
    · exact hFirst.origin tex hReleased
    · exact Or.inr (hFirst.holds hHolds)
  · intro tex hKeyed hNot hHolds
    exact hSecond.apart tex (hFirst.keyedAt hKeyed)
      (hFirst.apart tex hKeyed hNot (hSecond.holds hHolds))
      hHolds

theorem mem_releases_iff
    {texture : Option TextureObject} :
    tex ∈ releases texture ↔ texture = some tex := by
  cases texture with
  | none =>
      unfold releases
      simp
  | some t =>
      rw [releases, Multiset.mem_singleton, Option.some.injEq]
      exact eq_comm

/- The texture of an erased entry is released. -/
theorem erases_removeEntry
    (cache : TextureCache)
    (key : U64) :
    Erases cache (cache.removeEntry key) := by
  unfold removeEntry
  cases hFound : cache.entries.lookup key with
  | none => exact Erases.refl cache
  | some entry =>
      refine ⟨?_, ?_, ?_, ?_, ?_⟩
      · intro x e hSome
        exact lookup_of_erase hSome
      · rintro tex ⟨x, e, hSome, hTex⟩
        by_cases hX : x = key
        · subst hX
          cases hFound.symm.trans hSome
          exact Or.inr (Multiset.mem_add.mpr
            (Or.inl (mem_releases_iff.mpr hTex)))
        · refine Or.inl ⟨x, e, ?_, hTex⟩
          exact (Finmap.lookup_erase_ne hX).trans hSome
      · intro tex hMem
        exact Multiset.mem_add.mpr (Or.inr hMem)
      · intro tex hMem
        rcases Multiset.mem_add.mp hMem with hNew | hOld
        · exact Or.inr ⟨key, entry, hFound,
            mem_releases_iff.mp hNew⟩
        · exact Or.inl hOld
      · rintro tex hKeyed hNot ⟨x, e, hSome, hTex⟩ hMem
        rcases Multiset.mem_add.mp hMem with hNew | hOld
        · have hHere := hKeyed key entry hFound
            (mem_releases_iff.mp hNew)
          have hThere := hKeyed x e (lookup_of_erase hSome)
            hTex
          rw [hThere, ← hHere, Finmap.lookup_erase] at hSome
          cases hSome
        · exact hNot hOld

theorem erases_foldl
    (keys : List U64)
    (cache : TextureCache) :
    Erases cache (keys.foldl removeEntry cache) :=
  List.foldlRecOn keys removeEntry
    (motive := fun c => Erases cache c) (Erases.refl cache)
    fun c hErases key _ =>
      hErases.trans (erases_removeEntry c key)

/- Behind the new entry, a store only erases. -/
theorem erases_storeTexture
    (sorted : Nat → U64) :
    Erases (cache.insertEntry info tex)
      (cache.storeTexture info tex sorted) := by
  unfold storeTexture
  dsimp only
  split_ifs
  · exact erases_foldl _ _
  · exact Erases.refl _

/- The new entry replaces the one of its key only. -/
theorem holds_insertEntry_iff
    {t : TextureObject} :
    Holds (cache.insertEntry info tex) t ↔
      t = tex ∨
        ∃ key entry, key ≠ makeKey info ∧
          cache.entries.lookup key = some entry ∧
            entry.texture = some t := by
  constructor
  · rintro ⟨key, entry, hSome, hTex⟩
    rcases lookup_insert_cases hSome with
      ⟨_, rfl⟩ | ⟨hKey, hOld⟩
    · cases hTex
      exact Or.inl rfl
    · exact Or.inr ⟨key, entry, hKey, hOld, hTex⟩
  · rintro (rfl | ⟨key, entry, hKey, hSome, hTex⟩)
    · exact ⟨makeKey info, _, Finmap.lookup_insert _, rfl⟩
    · refine ⟨key, entry, ?_, hTex⟩
      exact (Finmap.lookup_insert_of_ne _ hKey).trans hSome

end TextureCache

------
-- Threads
------

namespace TextureCache

/- Where a thread is in its call. -/
inductive Phase where
  | idle
  | missed (info : TextureInfo)
  | holding (info : TextureInfo) (tex : TextureObject)
deriving DecidableEq

/-
  The cache and its callers.  `made` lists the textures that
  the calls have created; no step reads it.
-/
structure Threads (T : Type) where
  cache : TextureCache
  phase : T → Phase := fun _ => .idle
  made : List TextureObject := []

/- The parts of a call, each done in one piece. -/
inductive ThreadStep (T : Type) where
  | lookup (t : T) (info : TextureInfo)
  | create (t : T) (guestMemory : Option (Nat → U8))
  | store (t : T) (sorted : Nat → U64)

namespace Threads

open MapTotals

variable {T : Type}
variable {w : Threads T}

def step
    [DecidableEq T]
    (device : MTLDevice)
    (w : Threads T) : ThreadStep T → Threads T
| .lookup t info =>
    match w.phase t with
    | .idle =>
        match w.cache.findCached (makeKey info) with
        | (some _, cache) => { w with cache := cache }
        | (none, cache) =>
            { w with
              cache := cache
              phase :=
                Function.update w.phase t (.missed info) }
    | _ => w
| .create t guestMemory =>
    match w.phase t with
    | .missed info =>
        match w.cache.createTexture device info
            guestMemory with
        | (none, cache) =>
            { w with
              cache := cache
              phase := Function.update w.phase t .idle }
        | (some tex, cache) =>
            { w with
              cache := cache
              phase :=
                Function.update w.phase t (.holding info tex)
              made := tex :: w.made }
    | _ => w
| .store t sorted =>
    match w.phase t with
    | .holding info tex =>
        { w with
          cache := w.cache.storeTexture info tex sorted
          phase := Function.update w.phase t .idle }
    | _ => w

/- A store finds no entry under its key. -/
def FreshStore (w : Threads T) : ThreadStep T → Prop
| .store t _ =>
    ∀ info tex, w.phase t = .holding info tex →
      w.cache.entries.lookup (makeKey info) = none
| _ => True

/- All calls have returned. -/
def Quiet (w : Threads T) : Prop :=
  ∀ t, w.phase t = .idle

/-
  The cache is represented, and every texture the calls made
  is in it or has been released.
-/
structure Settled (w : Threads T) : Prop where
  represented : Represented w.cache
  accounted :
    ∀ tex ∈ w.made, Holds w.cache tex ∨ tex ∈ w.cache.released

/- A serial is given to every texture there is. -/
structure Allocated (cache : TextureCache) : Prop where
  entries : ∀ tex, Holds cache tex → tex.serial < cache.created
  released : ∀ tex ∈ cache.released, tex.serial < cache.created

/- A thread is in a call for this texture. -/
def Awaits (w : Threads T) (t : T) (info : TextureInfo) : Prop :=
  w.phase t = .missed info ∨
    ∃ tex, w.phase t = .holding info tex

/- What holds in every state, stores being fresh or not. -/
structure Tracked (w : Threads T) : Prop where
  live :
    ∀ key entry, w.cache.entries.lookup key = some entry →
      entry.texture ≠ none
  allocated : Allocated w.cache
  made : ∀ tex ∈ w.made, tex.serial < w.cache.created
  keyed : ∀ tex ∈ w.made, KeyedAt w.cache tex
  held :
    ∀ t info tex, w.phase t = .holding info tex →
      tex ∈ w.made ∧ tex.info = info ∧
        ¬ Holds w.cache tex ∧ tex ∉ w.cache.released
  heldOnce :
    ∀ t t' info info' tex, w.phase t = .holding info tex →
      w.phase t' = .holding info' tex → t = t'
  apart :
    ∀ tex ∈ w.made, Holds w.cache tex →
      tex ∉ w.cache.released
  recent :
    ∀ t info, Awaits w t info →
      ∀ entry tex,
        w.cache.entries.lookup (makeKey info) = some entry →
          entry.texture = some tex → tex ∈ w.made

/- A texture that nothing refers to any more. -/
structure Lost (w : Threads T) (tex : TextureObject) :
    Prop where
  made : tex ∈ w.made
  entries : ¬ Holds w.cache tex
  released : tex ∉ w.cache.released
  held : ∀ t info, w.phase t ≠ .holding info tex

theorem tracked_start
    {cache : TextureCache}
    (hRep : Represented cache)
    (hAllocated : Allocated cache) :
    Tracked ({ cache := cache } : Threads T) := by
  refine ⟨hRep.live, hAllocated, ?_, ?_, ?_, ?_, ?_, ?_⟩
  · intro tex hMem
    cases hMem
  · intro tex hMem
    cases hMem
  · intro t info tex hPhase
    cases hPhase
  · intro t t' info info' tex hPhase
    cases hPhase
  · intro tex hMem
    cases hMem
  · rintro t info (hPhase | ⟨tex, hPhase⟩)
    · cases hPhase
    · cases hPhase

/- Textures of entries that are only marked as used. -/
theorem lookup_markUsed
    {cache : TextureCache}
    {key : U64}
    {entry : CachedTexture}
    (hFound : cache.entries.lookup key = some entry)
    {x : U64}
    {e : CachedTexture}
    (hSome :
      (cache.entries.insert key
        { entry with
          frameUsed := cache.frameCount }).lookup x =
        some e) :
    ∃ old, cache.entries.lookup x = some old ∧
      old.texture = e.texture := by
  rcases lookup_insert_cases hSome with ⟨rfl, rfl⟩ | ⟨_, hOld⟩
  · exact ⟨entry, hFound, rfl⟩
  · exact ⟨e, hOld, rfl⟩

theorem holds_markUsed_iff
    {cache : TextureCache}
    {key : U64}
    {entry : CachedTexture}
    {tex : TextureObject}
    (hFound : cache.entries.lookup key = some entry) :
    Holds
      { cache with
        entries := cache.entries.insert key
          { entry with frameUsed := cache.frameCount } } tex ↔
      Holds cache tex := by
  constructor
  · rintro ⟨x, e, hSome, hTex⟩
    rcases lookup_markUsed hFound hSome with ⟨old, hOld, hSame⟩
    exact ⟨x, old, hOld, hSame.trans hTex⟩
  · rintro ⟨x, e, hSome, hTex⟩
    by_cases hX : x = key
    · subst hX
      cases hFound.symm.trans hSome
      exact ⟨x, _, Finmap.lookup_insert _, hTex⟩
    · refine ⟨x, e, ?_, hTex⟩
      exact (Finmap.lookup_insert_of_ne _ hX).trans hSome

theorem Tracked.markUsed
    {key : U64}
    {entry : CachedTexture}
    (hTracked : Tracked w)
    (hFound : w.cache.entries.lookup key = some entry) :
    Tracked
      { w with
        cache :=
          { w.cache with
            entries := w.cache.entries.insert key
              { entry with
                frameUsed := w.cache.frameCount } } } := by
  have hHolds : ∀ tex, Holds _ tex ↔ Holds w.cache tex :=
    fun tex => holds_markUsed_iff hFound
  refine ⟨?_, ⟨?_, hTracked.allocated.released⟩,
    hTracked.made, ?_, ?_, hTracked.heldOnce, ?_, ?_⟩
  · intro x e hSome
    rcases lookup_markUsed hFound hSome with ⟨old, hOld, hSame⟩
    rw [← hSame]
    exact hTracked.live x old hOld
  · intro tex hTex
    exact hTracked.allocated.entries tex ((hHolds tex).mp hTex)
  · intro tex hMem x e hSome hTex
    rcases lookup_markUsed hFound hSome with ⟨old, hOld, hSame⟩
    exact hTracked.keyed tex hMem x old hOld
      (hSame.trans hTex)
  · intro t info tex hPhase
    rcases hTracked.held t info tex hPhase with
      ⟨hMade, hInfo, hNot, hReleased⟩
    exact ⟨hMade, hInfo, fun hIn => hNot ((hHolds tex).mp hIn),
      hReleased⟩
  · intro tex hMem hTex
    exact hTracked.apart tex hMem ((hHolds tex).mp hTex)
  · intro t info hAwaits e tex hSome hTex
    rcases lookup_markUsed hFound hSome with ⟨old, hOld, hSame⟩
    exact hTracked.recent t info hAwaits old tex hOld
      (hSame.trans hTex)

end Threads

------
-- Steps
------

namespace Threads

open MapTotals

variable {T : Type}
variable [DecidableEq T]
variable {device : MTLDevice}
variable {w : Threads T}

/- What a step can do. -/
inductive StepCases
    (device : MTLDevice)
    (w : Threads T) : ThreadStep T → Prop
  | unchanged
      (e : ThreadStep T)
      (hOut : w.step device e = w) : StepCases device w e
  | hit
      (t : T)
      (info : TextureInfo)
      (entry : CachedTexture)
      (hFound :
        w.cache.entries.lookup (makeKey info) = some entry)
      (hOut :
        w.step device (.lookup t info) =
          { w with
            cache :=
              { w.cache with
                entries :=
                  w.cache.entries.insert (makeKey info)
                    { entry with
                      frameUsed := w.cache.frameCount } } }) :
      StepCases device w (.lookup t info)
  | missed
      (t : T)
      (info : TextureInfo)
      (hPhase : w.phase t = .idle)
      (hNil :
        ∀ entry,
          w.cache.entries.lookup (makeKey info) = some entry →
            entry.texture = none)
      (hOut :
        w.step device (.lookup t info) =
          { w with
            phase :=
              Function.update w.phase t (.missed info) }) :
      StepCases device w (.lookup t info)
  | failed
      (t : T)
      (guestMemory : Option (Nat → U8))
      (info : TextureInfo)
      (hPhase : w.phase t = .missed info)
      (hOut :
        w.step device (.create t guestMemory) =
          { w with
            phase := Function.update w.phase t .idle }) :
      StepCases device w (.create t guestMemory)
  | made
      (t : T)
      (guestMemory : Option (Nat → U8))
      (info : TextureInfo)
      (hPhase : w.phase t = .missed info)
      (hOut :
        w.step device (.create t guestMemory) =
          { cache :=
              { w.cache with created := w.cache.created + 1 }
            phase :=
              Function.update w.phase t
                (.holding info ⟨w.cache.created, info⟩)
            made := ⟨w.cache.created, info⟩ :: w.made }) :
      StepCases device w (.create t guestMemory)
  | stored
      (t : T)
      (sorted : Nat → U64)
      (info : TextureInfo)
      (tex : TextureObject)
      (hPhase : w.phase t = .holding info tex)
      (hOut :
        w.step device (.store t sorted) =
          { w with
            cache := w.cache.storeTexture info tex sorted
            phase := Function.update w.phase t .idle }) :
      StepCases device w (.store t sorted)

theorem step_cases
    (device : MTLDevice)
    (w : Threads T)
    (e : ThreadStep T) :
    StepCases device w e := by
  cases e with
  | lookup t info =>
      cases hPhase : w.phase t with
      | idle =>
          rcases findCached_cases w.cache (makeKey info) with
            ⟨entry, tex, hFound, hTex, hFind⟩ | ⟨hFind, hNil⟩
          · refine .hit t info entry hFound ?_
            simp only [step, hPhase, hFind]
          · refine .missed t info hPhase hNil ?_
            simp only [step, hPhase, hFind]
      | missed info' =>
          exact .unchanged _ (by simp only [step, hPhase])
      | holding info' tex =>
          exact .unchanged _ (by simp only [step, hPhase])
  | create t guestMemory =>
      cases hPhase : w.phase t with
      | idle => exact .unchanged _ (by simp only [step, hPhase])
      | missed info =>
          by_cases hCreates : Creates device info guestMemory
          · refine .made t guestMemory info hPhase ?_
            simp only [step, hPhase,
              createTexture_of_creates hCreates]
          · refine .failed t guestMemory info hPhase ?_
            simp only [step, hPhase,
              createTexture_of_not_creates hCreates]
      | holding info tex =>
          exact .unchanged _ (by simp only [step, hPhase])
  | store t sorted =>
      cases hPhase : w.phase t with
      | idle => exact .unchanged _ (by simp only [step, hPhase])
      | missed info =>
          exact .unchanged _ (by simp only [step, hPhase])
      | holding info tex =>
          refine .stored t sorted info tex hPhase ?_
          simp only [step, hPhase]

theorem update_cases
    {phase : T → Phase}
    {t t' : T}
    {p q : Phase}
    (hPhase : Function.update phase t p t' = q) :
    (t' = t ∧ p = q) ∨ (t' ≠ t ∧ phase t' = q) := by
  by_cases hT : t' = t
  · subst hT
    rw [Function.update_self] at hPhase
    exact Or.inl ⟨rfl, hPhase⟩
  · rw [Function.update_of_ne hT] at hPhase
    exact Or.inr ⟨hT, hPhase⟩

/- A thread that leaves its call, or begins one. -/
theorem Tracked.setPhase
    {t : T}
    {p : Phase}
    (hTracked : Tracked w)
    (hHolding : ∀ info tex, p ≠ .holding info tex)
    (hMissed :
      ∀ info, p = .missed info →
        ∀ entry,
          w.cache.entries.lookup (makeKey info) =
              some entry →
            entry.texture = none) :
    Tracked { w with phase := Function.update w.phase t p } := by
  refine ⟨hTracked.live, hTracked.allocated, hTracked.made,
    hTracked.keyed, ?_, ?_, hTracked.apart, ?_⟩
  · intro t' info tex hPhase
    rcases update_cases hPhase with ⟨_, hNew⟩ | ⟨_, hOld⟩
    · exact absurd hNew (hHolding info tex)
    · exact hTracked.held t' info tex hOld
  · intro t₁ t₂ info₁ info₂ tex hFirst hSecond
    rcases update_cases hFirst with ⟨_, hNew⟩ | ⟨_, hOld₁⟩
    · exact absurd hNew (hHolding _ _)
    rcases update_cases hSecond with ⟨_, hNew⟩ | ⟨_, hOld₂⟩
    · exact absurd hNew (hHolding _ _)
    exact hTracked.heldOnce t₁ t₂ info₁ info₂ tex hOld₁ hOld₂
  · rintro t' info (hPhase | ⟨held, hPhase⟩) entry tex hSome hTex
    · rcases update_cases hPhase with ⟨_, hNew⟩ | ⟨_, hOld⟩
      · rw [hMissed info hNew entry hSome] at hTex
        cases hTex
      · exact hTracked.recent t' info (Or.inl hOld) entry tex
          hSome hTex
    · rcases update_cases hPhase with ⟨_, hNew⟩ | ⟨_, hOld⟩
      · exact absurd hNew (hHolding _ _)
      · exact hTracked.recent t' info (Or.inr ⟨held, hOld⟩)
          entry tex hSome hTex

/- A texture with a new serial is nowhere yet. -/
theorem Tracked.create
    {t : T}
    {info : TextureInfo}
    (hTracked : Tracked w)
    (hPhase : w.phase t = .missed info) :
    Tracked
      { cache :=
          { w.cache with created := w.cache.created + 1 }
        phase :=
          Function.update w.phase t
            (.holding info ⟨w.cache.created, info⟩)
        made := ⟨w.cache.created, info⟩ :: w.made } := by
  have hFree :
      ¬ Holds w.cache ⟨w.cache.created, info⟩ := by
    intro hIn
    exact Nat.lt_irrefl _ (hTracked.allocated.entries _ hIn)
  have hKept :
      (⟨w.cache.created, info⟩ : TextureObject) ∉
        w.cache.released := by
    intro hIn
    exact Nat.lt_irrefl _ (hTracked.allocated.released _ hIn)
  have hOther :
      ∀ t' info' tex, w.phase t' = .holding info' tex →
        tex ≠ ⟨w.cache.created, info⟩ := by
    rintro t' info' tex hHeld rfl
    exact Nat.lt_irrefl _
      (hTracked.made _ (hTracked.held t' info' _ hHeld).1)
  refine ⟨hTracked.live, ⟨?_, ?_⟩, ?_, ?_, ?_, ?_, ?_, ?_⟩
  · intro tex hIn
    exact Nat.lt_succ_of_lt (hTracked.allocated.entries tex hIn)
  · intro tex hIn
    exact Nat.lt_succ_of_lt
      (hTracked.allocated.released tex hIn)
  · intro tex hMem
    rcases List.mem_cons.mp hMem with rfl | hOld
    · exact Nat.lt_succ_self _
    · exact Nat.lt_succ_of_lt (hTracked.made tex hOld)
  · intro tex hMem x e hSome hTex
    rcases List.mem_cons.mp hMem with rfl | hOld
    · exact absurd ⟨x, e, hSome, hTex⟩ hFree
    · exact hTracked.keyed tex hOld x e hSome hTex
  · intro t' info' tex hHeld
    rcases update_cases hHeld with ⟨_, hNew⟩ | ⟨_, hOld⟩
    · cases hNew
      exact ⟨List.mem_cons_self, rfl, hFree, hKept⟩
    · rcases hTracked.held t' info' tex hOld with
        ⟨hMade, hRest⟩
      exact ⟨List.mem_cons_of_mem _ hMade, hRest⟩
  · intro t₁ t₂ info₁ info₂ tex hFirst hSecond
    rcases update_cases hFirst with ⟨h₁, hNew₁⟩ | ⟨h₁, hOld₁⟩
    · rcases update_cases hSecond with
        ⟨h₂, _⟩ | ⟨_, hOld₂⟩
      · rw [h₁, h₂]
      · cases hNew₁
        exact absurd rfl (hOther t₂ info₂ _ hOld₂)
    · rcases update_cases hSecond with
        ⟨_, hNew₂⟩ | ⟨_, hOld₂⟩
      · cases hNew₂
        exact absurd rfl (hOther t₁ info₁ _ hOld₁)
      · exact hTracked.heldOnce t₁ t₂ info₁ info₂ tex hOld₁ hOld₂
  · intro tex hMem hIn
    rcases List.mem_cons.mp hMem with rfl | hOld
    · exact hKept
    · exact hTracked.apart tex hOld hIn
  · intro t' info' hAwaits entry tex hSome hTex
    have hBefore : Awaits w t' info' := by
      rcases hAwaits with hMissed | ⟨held, hHeld⟩
      · rcases update_cases hMissed with
          ⟨_, hNew⟩ | ⟨_, hOld⟩
        · cases hNew
        · exact Or.inl hOld
      · rcases update_cases hHeld with ⟨hT, hNew⟩ | ⟨_, hOld⟩
        · cases hNew
          rw [hT]
          exact Or.inl hPhase
        · exact Or.inr ⟨held, hOld⟩
    exact List.mem_cons_of_mem _
      (hTracked.recent t' info' hBefore entry tex hSome hTex)

/- What a store leaves where. -/
theorem holds_of_storeTexture
    {cache : TextureCache}
    {info : TextureInfo}
    {tex x : TextureObject}
    {sorted : Nat → U64}
    (hIn : Holds (cache.storeTexture info tex sorted) x) :
    x = tex ∨ Holds cache x := by
  have hInsert := (erases_storeTexture sorted).holds hIn
  rcases holds_insertEntry_iff.mp hInsert with
    hNew | ⟨key, entry, _, hSome, hTex⟩
  · exact Or.inl hNew
  · exact Or.inr ⟨key, entry, hSome, hTex⟩

theorem released_of_storeTexture
    {cache : TextureCache}
    {info : TextureInfo}
    {tex x : TextureObject}
    {sorted : Nat → U64}
    (hIn :
      x ∈ (cache.storeTexture info tex sorted).released) :
    x ∈ cache.released ∨ x = tex ∨ Holds cache x := by
  rcases (erases_storeTexture sorted).origin x hIn with
    hOld | hInsert
  · exact Or.inl hOld
  · rcases holds_insertEntry_iff.mp hInsert with
      hNew | ⟨key, entry, _, hSome, hTex⟩
    · exact Or.inr (Or.inl hNew)
    · exact Or.inr (Or.inr ⟨key, entry, hSome, hTex⟩)

theorem Tracked.store
    {t : T}
    {info : TextureInfo}
    {tex : TextureObject}
    (hTracked : Tracked w)
    (hPhase : w.phase t = .holding info tex)
    (sorted : Nat → U64) :
    Tracked
      { w with
        cache := w.cache.storeTexture info tex sorted
        phase := Function.update w.phase t .idle } := by
  rcases hTracked.held t info tex hPhase with
    ⟨hMade, hInfo, hFree, hKept⟩
  have hSerial := hTracked.made tex hMade
  have hEntry :
      ∀ key entry x,
        (w.cache.storeTexture info tex sorted).entries.lookup
            key = some entry →
          entry.texture = some x →
            (key = makeKey info ∧ x = tex) ∨
              w.cache.entries.lookup key = some entry := by
    intro key entry x hSome hTex
    rcases lookup_storeTexture hSome with
      ⟨hKey, _, hNew, _⟩ | ⟨_, hOld⟩
    · cases hNew.symm.trans hTex
      exact Or.inl ⟨hKey, rfl⟩
    · exact Or.inr hOld
  have hHeldOld :
      ∀ t' info' x,
        Function.update w.phase t .idle t' =
            .holding info' x →
          t' ≠ t ∧ w.phase t' = .holding info' x := by
    intro t' info' x hHeld
    rcases update_cases hHeld with ⟨_, hNew⟩ | hOld
    · cases hNew
    · exact hOld
  refine ⟨?_, ⟨?_, ?_⟩, ?_, ?_, ?_, ?_, ?_, ?_⟩
  · intro key entry hSome
    rcases lookup_storeTexture hSome with
      ⟨_, _, hNew, _⟩ | ⟨_, hOld⟩
    · rw [hNew]
      exact fun hNone => nomatch hNone
    · exact hTracked.live key entry hOld
  · intro x hIn
    rw [created_storeTexture]
    rcases holds_of_storeTexture hIn with rfl | hOld
    · exact hSerial
    · exact hTracked.allocated.entries x hOld
  · intro x hIn
    rw [created_storeTexture]
    rcases released_of_storeTexture hIn with
      hOld | rfl | hOld
    · exact hTracked.allocated.released x hOld
    · exact hSerial
    · exact hTracked.allocated.entries x hOld
  · intro x hMem
    rw [created_storeTexture]
    exact hTracked.made x hMem
  · intro x hMem key entry hSome hTex
    rcases hEntry key entry x hSome hTex with
      ⟨hKey, rfl⟩ | hOld
    · rw [hKey, hInfo]
    · exact hTracked.keyed x hMem key entry hOld hTex
  · intro t' info' x hHeld
    rcases hHeldOld t' info' x hHeld with ⟨hT, hOld⟩
    rcases hTracked.held t' info' x hOld with
      ⟨hXMade, hXInfo, hXFree, hXKept⟩
    have hNe : x ≠ tex := by
      rintro rfl
      exact hT (hTracked.heldOnce t' t info' info x hOld hPhase)
    refine ⟨hXMade, hXInfo, ?_, ?_⟩
    · intro hIn
      exact (holds_of_storeTexture hIn).elim hNe hXFree
    · intro hIn
      rcases released_of_storeTexture hIn with
        hX | hX | hX
      · exact hXKept hX
      · exact hNe hX
      · exact hXFree hX
  · intro t₁ t₂ info₁ info₂ x hFirst hSecond
    exact hTracked.heldOnce t₁ t₂ info₁ info₂ x
      (hHeldOld t₁ info₁ x hFirst).2
      (hHeldOld t₂ info₂ x hSecond).2
  · intro x hMem hIn
    have hKeyed : KeyedAt (w.cache.insertEntry info tex) x := by
      intro key entry hSome hTex
      rcases lookup_insert_cases hSome with
        ⟨hKey, rfl⟩ | ⟨_, hOld⟩
      · cases hTex
        rw [hKey, hInfo]
      · exact hTracked.keyed x hMem key entry hOld hTex
    have hBefore : x ∉ w.cache.released := by
      rcases holds_of_storeTexture hIn with rfl | hOld
      · exact hKept
      · exact hTracked.apart x hMem hOld
    exact (erases_storeTexture sorted).apart x hKeyed hBefore
      hIn
  · intro t' info' hAwaits entry x hSome hTex
    rcases hEntry _ entry x hSome hTex with ⟨_, rfl⟩ | hOld
    · exact hMade
    · refine hTracked.recent t' info' ?_ entry x hOld hTex
      rcases hAwaits with hMissed | ⟨held, hHeld⟩
      · rcases update_cases hMissed with
          ⟨_, hNew⟩ | ⟨_, hOld⟩
        · cases hNew
        · exact Or.inl hOld
      · exact Or.inr ⟨held, (hHeldOld t' info' held hHeld).2⟩

theorem Tracked.step
    (hTracked : Tracked w)
    (e : ThreadStep T) :
    Tracked (w.step device e) := by
  cases step_cases device w e with
  | unchanged e hOut =>
      rw [hOut]
      exact hTracked
  | hit t info entry hFound hOut =>
      rw [hOut]
      exact hTracked.markUsed hFound
  | missed t info hPhase hNil hOut =>
      rw [hOut]
      refine hTracked.setPhase (fun _ _ hEq => nomatch hEq) ?_
      intro info' hEq
      cases hEq
      exact hNil
  | failed t guestMemory info hPhase hOut =>
      rw [hOut]
      exact hTracked.setPhase (fun _ _ hEq => nomatch hEq)
        (fun _ hEq => nomatch hEq)
  | made t guestMemory info hPhase hOut =>
      rw [hOut]
      exact hTracked.create hPhase
  | stored t sorted info tex hPhase hOut =>
      rw [hOut]
      exact hTracked.store hPhase sorted

theorem Tracked.run
    (device : MTLDevice)
    (hTracked : Tracked w)
    (steps : List (ThreadStep T)) :
    Tracked
      (EventRun.stateAfter (Threads.step device) w steps) :=
  EventRun.invariant (I := fun _ w => Tracked w) hTracked
    (fun _ e hW => hW.step e) steps

------
-- Lost Textures
------

variable {tex : TextureObject}

/- Another phase of a thread gives it no texture. -/
theorem not_held_update
    {t : T}
    {p : Phase}
    (hNot : ∀ info, p ≠ .holding info tex)
    (hFree : ∀ t' info, w.phase t' ≠ .holding info tex) :
    ∀ t' info,
      Function.update w.phase t p t' ≠ .holding info tex := by
  intro t' info hHeld
  rcases update_cases hHeld with ⟨_, hNew⟩ | ⟨_, hOld⟩
  · exact hNot info hNew
  · exact hFree t' info hOld

/- A lost texture is never found again. -/
theorem Lost.step
    (hTracked : Tracked w)
    (hLost : Lost w tex)
    (e : ThreadStep T) :
    Lost (w.step device e) tex := by
  cases step_cases device w e with
  | unchanged e hOut =>
      rw [hOut]
      exact hLost
  | hit t info entry hFound hOut =>
      rw [hOut]
      refine ⟨hLost.made, ?_, hLost.released, hLost.held⟩
      exact fun hIn =>
        hLost.entries ((holds_markUsed_iff hFound).mp hIn)
  | missed t info hPhase hNil hOut =>
      rw [hOut]
      refine ⟨hLost.made, hLost.entries, hLost.released, ?_⟩
      exact not_held_update (by simp) hLost.held
  | failed t guestMemory info hPhase hOut =>
      rw [hOut]
      refine ⟨hLost.made, hLost.entries, hLost.released, ?_⟩
      exact not_held_update (by simp) hLost.held
  | made t guestMemory info hPhase hOut =>
      rw [hOut]
      refine ⟨List.mem_cons_of_mem _ hLost.made,
        hLost.entries, hLost.released, ?_⟩
      refine not_held_update ?_ hLost.held
      -- The new texture has a serial of its own.
      intro info' hNew
      cases hNew
      exact Nat.lt_irrefl _ (hTracked.made _ hLost.made)
  | stored t sorted info held hPhase hOut =>
      have hNe : tex ≠ held := by
        rintro rfl
        exact hLost.held t info hPhase
      rw [hOut]
      refine ⟨hLost.made, ?_, ?_, ?_⟩
      · intro hIn
        exact (holds_of_storeTexture hIn).elim hNe
          hLost.entries
      · intro hIn
        rcases released_of_storeTexture hIn with hX | hX | hX
        · exact hLost.released hX
        · exact hNe hX
        · exact hLost.entries hX
      · exact not_held_update (by simp) hLost.held

theorem Lost.run
    (device : MTLDevice)
    (hTracked : Tracked w)
    (hLost : Lost w tex)
    (steps : List (ThreadStep T)) :
    Lost
      (EventRun.stateAfter (Threads.step device) w steps)
      tex := by
  have hBoth :
      Tracked _ ∧
        Lost
          (EventRun.stateAfter (Threads.step device) w steps)
          tex :=
    EventRun.invariant
      (I := fun _ w => Tracked w ∧ Lost w tex)
      ⟨hTracked, hLost⟩
      (fun _ e hW => ⟨hW.1.step e, hW.2.step hW.1 e⟩) steps
  exact hBoth.2

/- A store over an entry loses that entry's texture. -/
theorem lost_of_not_freshStore
    {e : ThreadStep T}
    (hTracked : Tracked w)
    (hNot : ¬ FreshStore w e) :
    ∃ tex, Lost (w.step device e) tex := by
  cases step_cases device w e with
  | unchanged e hOut =>
      -- Only a thread that holds a texture stores.
      cases e with
      | lookup t info => exact absurd trivial hNot
      | create t guestMemory => exact absurd trivial hNot
      | store t sorted =>
          refine absurd ?_ hNot
          intro info tex hPhase
          have hSame := congrArg (fun v => v.phase t) hOut
          simp [Threads.step, hPhase] at hSame
  | hit t info entry hFound hOut => exact absurd trivial hNot
  | missed t info hPhase hNil hOut => exact absurd trivial hNot
  | failed t guestMemory info hPhase hOut => exact absurd trivial hNot
  | made t guestMemory info hPhase hOut =>
      exact absurd trivial hNot
  | stored t sorted info held hPhase hOut =>
      cases hFound :
          w.cache.entries.lookup (makeKey info) with
      | none =>
          refine absurd ?_ hNot
          intro info' tex' hPhase'
          cases hPhase.symm.trans hPhase'
          exact hFound
      | some entry =>
          rcases Option.ne_none_iff_exists'.mp
            (hTracked.live _ entry hFound) with ⟨tex, hTex⟩
          have hMade :=
            hTracked.recent t info (Or.inr ⟨held, hPhase⟩)
              entry tex hFound hTex
          have hHolds : Holds w.cache tex :=
            ⟨_, entry, hFound, hTex⟩
          have hKept := hTracked.apart tex hMade hHolds
          have hNe : tex ≠ held := by
            rintro rfl
            exact (hTracked.held t info tex hPhase).2.2.1 hHolds
          -- Its only entry was the one under the key.
          have hGone :
              ¬ Holds (w.cache.insertEntry info held) tex := by
            intro hIn
            rcases holds_insertEntry_iff.mp hIn with
              hEq | ⟨key, other, hKey, hSome, hOther⟩
            · exact hNe hEq
            · apply hKey
              rw [hTracked.keyed tex hMade key other hSome hOther,
                ← hTracked.keyed tex hMade _ entry hFound hTex]
          refine ⟨tex, ?_⟩
          rw [hOut]
          refine ⟨hMade, ?_, ?_, ?_⟩
          · intro hIn
            exact hGone ((erases_storeTexture sorted).holds hIn)
          · intro hIn
            exact ((erases_storeTexture sorted).origin tex
              hIn).elim hKept hGone
          · refine not_held_update (by simp) ?_
            intro t' info' hOld
            exact (hTracked.held t' info' tex hOld).2.2.1
              hHolds

/- Every texture made is somewhere. -/
def Accounted (w : Threads T) : Prop :=
  ∀ tex ∈ w.made,
    Holds w.cache tex ∨ tex ∈ w.cache.released ∨
      ∃ t info, w.phase t = .holding info tex

theorem represented_of_freshStore
    {e : ThreadStep T}
    (hRep : Represented w.cache)
    (hFresh : FreshStore w e) :
    Represented (w.step device e).cache := by
  cases step_cases device w e with
  | unchanged e hOut =>
      rw [hOut]
      exact hRep
  | hit t info entry hFound hOut =>
      rw [hOut]
      exact hRep.markUsed hFound
  | missed t info hPhase hNil hOut =>
      rw [hOut]
      exact hRep
  | failed t guestMemory info hPhase hOut =>
      rw [hOut]
      exact hRep
  | made t guestMemory info hPhase hOut =>
      rw [hOut]
      exact ⟨hRep.totalMemory, hRep.keyed, hRep.index,
        hRep.live⟩
  | stored t sorted info tex hPhase hOut =>
      rw [hOut]
      exact hRep.storeTexture tex sorted
        (hFresh info tex hPhase)

/- Other threads keep what they hold. -/
theorem held_update
    {t : T}
    {p : Phase}
    (hNot : ∀ info, w.phase t ≠ .holding info tex)
    (hHeld : ∃ t' info, w.phase t' = .holding info tex) :
    ∃ t' info,
      Function.update w.phase t p t' = .holding info tex := by
  rcases hHeld with ⟨t', info, hPhase⟩
  refine ⟨t', info, ?_⟩
  rw [Function.update_of_ne]
  · exact hPhase
  · rintro rfl
    exact hNot info hPhase

/- What is somewhere stays there. -/
theorem somewhere_update
    {t : T}
    {p : Phase}
    (hNot : ∀ info, w.phase t ≠ .holding info tex)
    (hAt :
      Holds w.cache tex ∨ tex ∈ w.cache.released ∨
        ∃ t' info, w.phase t' = .holding info tex) :
    Holds w.cache tex ∨ tex ∈ w.cache.released ∨
      ∃ t' info,
        Function.update w.phase t p t' = .holding info tex :=
  hAt.imp_right fun hRest =>
    hRest.imp_right (held_update hNot)

theorem accounted_of_freshStore
    {e : ThreadStep T}
    (hAcc : Accounted w)
    (hFresh : FreshStore w e) :
    Accounted (w.step device e) := by
  cases step_cases device w e with
  | unchanged e hOut =>
      rw [hOut]
      exact hAcc
  | hit t info entry hFound hOut =>
      rw [hOut]
      intro tex hMem
      rcases hAcc tex hMem with hIn | hRest
      · exact Or.inl ((holds_markUsed_iff hFound).mpr hIn)
      · exact Or.inr hRest
  | missed t info hPhase hNil hOut =>
      rw [hOut]
      intro tex hMem
      exact somewhere_update (by simp [hPhase]) (hAcc tex hMem)
  | failed t guestMemory info hPhase hOut =>
      rw [hOut]
      intro tex hMem
      exact somewhere_update (by simp [hPhase]) (hAcc tex hMem)
  | made t guestMemory info hPhase hOut =>
      rw [hOut]
      intro tex hMem
      rcases List.mem_cons.mp hMem with rfl | hOld
      · exact Or.inr (Or.inr ⟨t, info, Function.update_self ..⟩)
      · exact
          somewhere_update (by simp [hPhase]) (hAcc tex hOld)
  | stored t sorted info held hPhase hOut =>
      have hErases :
          Erases (w.cache.insertEntry info held)
            (w.cache.storeTexture info held sorted) :=
        erases_storeTexture sorted
      have hFree := hFresh info held hPhase
      have hStored :
          ∀ x, Holds (w.cache.insertEntry info held) x →
            Holds (w.cache.storeTexture info held sorted) x ∨
              x ∈ (w.cache.storeTexture info held
                sorted).released :=
        hErases.kept
      rw [hOut]
      intro tex hMem
      by_cases hEq : tex = held
      · refine (hStored tex ?_).imp_right Or.inl
        exact holds_insertEntry_iff.mpr (Or.inl hEq)
      · rcases hAcc tex hMem with
          ⟨key, entry, hSome, hTex⟩ | hReleased | hHeld
        · -- The key of the new entry was free.
          refine (hStored tex ?_).imp_right Or.inl
          refine holds_insertEntry_iff.mpr (Or.inr
            ⟨key, entry, ?_, hSome, hTex⟩)
          rintro rfl
          cases hFree.symm.trans hSome
        · exact Or.inr (Or.inl (hErases.released tex hReleased))
        · refine Or.inr (Or.inr (held_update ?_ hHeld))
          intro info' hHolding
          cases hPhase.symm.trans hHolding
          exact hEq rfl

/-
  The run of any calls leaves the cache settled exactly if no
  call stored its texture over an entry.
-/
theorem settled_iff
    (device : MTLDevice)
    (cache : TextureCache)
    (steps : List (ThreadStep T))
    (hRep : Represented cache)
    (hAllocated : Allocated cache)
    (hQuiet :
      Quiet
        (EventRun.stateAfter (step device)
          ({ cache := cache } : Threads T) steps)) :
    Settled
        (EventRun.stateAfter (step device)
          ({ cache := cache } : Threads T) steps) ↔
      EventRun.Guarded (step device) FreshStore
        { cache := cache } steps := by
  constructor
  · intro hSettled before e hBefore
    by_contra hNot
    rcases hBefore with ⟨rest, rfl⟩
    have hTracked :=
      Tracked.run device
        (tracked_start (T := T) hRep hAllocated) before
    have hLoses :
        ∃ tex,
          Lost
            ((EventRun.stateAfter (step device)
              ({ cache := cache } : Threads T)
              before).step device e) tex :=
      lost_of_not_freshStore hTracked hNot
    rcases hLoses with ⟨tex, hLost⟩
    rw [EventRun.stateAfter_append,
      EventRun.stateAfter_concat] at hSettled
    have hEnd :=
      Lost.run device (hTracked.step e) hLost rest
    exact (hSettled.accounted tex hEnd.made).elim
      hEnd.entries hEnd.released
  · intro hGuarded
    have hNone :
        Accounted ({ cache := cache } : Threads T) := by
      intro tex hMem
      cases hMem
    have hEnd :=
      EventRun.Guarded.invariant
        (I := fun _ w =>
          Represented w.cache ∧ Accounted w)
        ⟨hRep, hNone⟩
        (fun _ e hW hFresh =>
          ⟨represented_of_freshStore hW.1 hFresh,
            accounted_of_freshStore hW.2 hFresh⟩)
        hGuarded
    refine ⟨hEnd.1, ?_⟩
    intro tex hMem
    rcases hEnd.2 tex hMem with hIn | hIn | ⟨t, info, hPhase⟩
    · exact Or.inl hIn
    · exact Or.inr hIn
    · rw [hQuiet t] at hPhase
      cases hPhase

/- The three parts of a thread's call for the texture. -/
def lookupSample (t : Bool) : ThreadStep Bool :=
  .lookup t sampleInfo

def createSample (t : Bool) : ThreadStep Bool :=
  .create t (some fun _ => 0)

def storeSample (t : Bool) : ThreadStep Bool :=
  .store t (fun _ => makeKey sampleInfo)

/- The second thread looks up behind the first one's store. -/
def oneAfterTheOther : List (ThreadStep Bool) :=
  [lookupSample false, createSample false, storeSample false,
    lookupSample true]

theorem allocated_empty : Allocated {} := by
  refine ⟨?_, ?_⟩
  · rintro tex ⟨key, entry, hSome, _⟩
    cases hSome
  · intro tex hMem
    cases hMem

theorem oneAfterTheOther_settled :
    Represented {} ∧ Allocated {} ∧
      Quiet
          (EventRun.stateAfter (step anyDevice)
            { cache := {} } oneAfterTheOther) ∧
        Settled
          (EventRun.stateAfter (step anyDevice)
            { cache := {} } oneAfterTheOther) := by
  have hQuiet :
      Quiet
        (EventRun.stateAfter (step anyDevice)
          { cache := {} } oneAfterTheOther) := by
    unfold Quiet
    decide
  have hGuarded :
      EventRun.Guarded (step anyDevice) FreshStore
        { cache := {} } oneAfterTheOther := by
    unfold oneAfterTheOther
    simp only [EventRun.guarded_cons]
    refine ⟨trivial, trivial, ?_, trivial,
      EventRun.guarded_nil⟩
    intro info tex hPhase
    have hHeld :
        (((({ cache := {} } : Threads Bool).step anyDevice
          (lookupSample false)).step anyDevice
            (createSample false)).phase false) =
          .holding sampleInfo ⟨0, sampleInfo⟩ := by
      decide
    cases hHeld.symm.trans hPhase
    decide
  refine ⟨represented_empty, allocated_empty, hQuiet, ?_⟩
  exact (settled_iff anyDevice {} oneAfterTheOther
    represented_empty allocated_empty hQuiet).mpr hGuarded

/- Both threads miss before either of them stores. -/
def bothMiss : List (ThreadStep Bool) :=
  [lookupSample false, lookupSample true, createSample false,
    createSample true, storeSample false, storeSample true]

theorem bothMiss_not_settled :
    Represented {} ∧
      Quiet
          (EventRun.stateAfter (step anyDevice)
            { cache := {} } bothMiss) ∧
        ¬ Settled
          (EventRun.stateAfter (step anyDevice)
            { cache := {} } bothMiss) := by
  refine ⟨represented_empty, ?_, ?_⟩
  · unfold Quiet
    decide
  · intro hSettled
    have hTotal := hSettled.represented.totalMemory
    revert hTotal
    decide

end Threads

end TextureCache

end M1Switch
