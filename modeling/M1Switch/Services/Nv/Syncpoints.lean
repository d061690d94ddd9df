import Mathlib.Data.List.Nodup
import M1Switch.Services.Nv

/-
  Sync points and fences of concurrent threads.

  A thread that allocates a sync point takes a number from the
  counter, and sets the value of the sync point afterwards.
  Submissions take the values of their fences from the same
  counter, but no value of a sync point ever grows: only a
  fence of zero is reached.

  Key definitions include:
    * `SyncptState`
    * `SyncptState.step`

  Main results:
    * `SyncptState.Inv.step`
    * `SyncptState.safe_of_admitted`
-/

------
-- Threads
------

namespace M1Switch

/- A call that allocates: it has a number, and has set the
value. -/
inductive SyncptCall where
  | idle
  | fetched (id : Fin MAX_SYNCPT)
  | stored (id : Fin MAX_SYNCPT)
deriving DecidableEq

namespace SyncptCall

/- The number a call has. -/
def id? : SyncptCall → Option (Fin MAX_SYNCPT)
  | .idle => none
  | .fetched id => some id
  | .stored id => some id

end SyncptCall

/- The sync points, the calls of threads, the numbers returned
to them in order, and the fences. -/
structure SyncptState (T : Type) where
  sp : Syncpts := {}
  tracker : Option StateTracker := none
  calls : T → SyncptCall := fun _ => .idle
  handed : List (Fin MAX_SYNCPT) := []
  fences : List (U32 × U32) := []

inductive SyncptStep (T : Type) where
  | fetch (t : T)
  | store (t : T)
  | returnId (t : T)
  | submit (mem : Option Memory) (call : ServiceCall)

namespace SyncptState

variable {T : Type} [DecidableEq T]

def fetch (st : SyncptState T) (t : T) : SyncptState T :=
  match st.calls t with
  | .idle =>
      { st with
        sp := { st.sp with counter := st.sp.counter + 1 }
        calls :=
          Function.update st.calls t
            (.fetched (Syncpts.idOf st.sp.counter)) }
  | _ => st

def store (st : SyncptState T) (t : T) : SyncptState T :=
  match st.calls t with
  | .fetched id =>
      { st with
        sp :=
          { st.sp with
            value := Function.update st.sp.value id 0 }
        calls := Function.update st.calls t (.stored id) }
  | _ => st

def returnId (st : SyncptState T) (t : T) : SyncptState T :=
  match st.calls t with
  | .stored id =>
      { st with
        handed := st.handed ++ [id]
        calls := Function.update st.calls t .idle }
  | _ => st

/- The fence in an output. -/
def fenceOf (reply : ServiceReply) : Option (U32 × U32) :=
  let bytes : Bytes := fun i => reply.written.getD i 0
  if 8 ≤ reply.written.length then
    some (bytes.word 0, bytes.word 4)
  else none

omit [DecidableEq T] in
def submit
    (st : SyncptState T)
    (mem : Option Memory)
    (call : ServiceCall) : SyncptState T :=
  let r := st.sp.handleSubmitGpfifo mem st.tracker call
  { st with
    sp := r.1
    tracker := r.2.1
    fences := st.fences ++ (fenceOf r.2.2).toList }

def step (st : SyncptState T) : SyncptStep T → SyncptState T
  | .fetch t => st.fetch t
  | .store t => st.store t
  | .returnId t => st.returnId t
  | .submit mem call => st.submit mem call

/-
  The first numbers returned are distinct, no value is set of a
  sync point that somebody has, and the fences are reached.
-/
structure Safe
    (st : SyncptState T)
    (e : SyncptStep T) : Prop where
  distinct : ((st.step e).handed.take MAX_SYNCPT).Nodup
  keeps :
    ∀ t id, e = .store t → st.calls t = .fetched id →
      id ∉ st.handed ∧
        ∀ f ∈ st.fences, f.1 ≠ BitVec.ofNat 32 id.val
  reached :
    ∀ f ∈ (st.step e).fences,
      f.2 ≤ (st.step e).sp.syncptRead f.1

/- A submission has words, somebody to take them, and room for
a fence. -/
def ReturnsFence
    (mem : Option Memory)
    (tracker : Option StateTracker)
    (call : ServiceCall) : Prop :=
  16 ≤ call.rawIn.length ∧ call.readU32 8 ≠ 0 ∧
    mem.isSome = true ∧ tracker.isSome = true ∧
      8 ≤ call.outMax

/- Allocations find a number that is left, and fences a counter
that was not used. -/
def Admits (st : SyncptState T) : SyncptStep T → Prop
  | .fetch t =>
      st.calls t = .idle → st.sp.counter.toNat < MAX_SYNCPT
  | .submit mem call =>
      ReturnsFence mem st.tracker call → st.sp.counter = 0
  | _ => True

end SyncptState

------
-- Single Calls
------

namespace SyncptState

variable {T : Type}

/- The words of a fence are read back. -/
theorem fenceOf_replyWords
    (call : ServiceCall)
    (id value : U32) :
    fenceOf (call.replyWords [id, value]) =
      if 8 ≤ call.outMax then some (id, value) else none := by
  have hFirst :
      Bytes.word
        (fun i => (Bytes.ofWords [id, value]).getD i 0) 0 =
        id :=
    Bytes.word_ofWords (k := 0) (by simp)
  have hSecond :
      Bytes.word
        (fun i => (Bytes.ofWords [id, value]).getD i 0) 4 =
        value :=
    Bytes.word_ofWords (k := 1) (by simp)
  unfold ServiceCall.replyWords ServiceCall.replyBytes
  rw [Bytes.length_ofWords]
  show fenceOf (if 8 ≤ call.outMax then _ else _) = _
  split
  · have hLength :
        8 ≤ (Bytes.ofWords [id, value]).length := by
      rw [Bytes.length_ofWords]
      exact Nat.le_refl 8
    simp only [fenceOf, hLength, if_true, hFirst, hSecond]
  · rfl

/- When the tracker is given words. -/
theorem isSome_pushWords
    (mem : Option Memory)
    (tracker : Option StateTracker)
    (call : ServiceCall) :
    (Syncpts.pushWords mem tracker call).isSome = true ↔
      16 ≤ call.rawIn.length ∧ call.readU32 8 ≠ 0 ∧
        mem.isSome = true ∧ tracker.isSome = true := by
  have hZero :
      (call.readU32 8).toNat = 0 ↔ call.readU32 8 = 0 := by
    rw [← BitVec.toNat_inj]
    rfl
  unfold Syncpts.pushWords
  cases mem with
  | none => simp
  | some m =>
      cases tracker with
      | none => simp
      | some t =>
          simp only [hZero]
          split
          · next hNot =>
              apply iff_of_false (fun hSome => nomatch hSome)
              rintro ⟨hLong, hWords, -⟩
              rcases hNot with hShort | hNone
              · omega
              · exact hWords hNone
          · next hNot =>
              rw [not_or, not_lt] at hNot
              exact iff_of_true rfl ⟨hNot.1, hNot.2, rfl, rfl⟩

/- A submission takes a number exactly if it returns a
fence. -/
theorem submit_cases
    (st : SyncptState T)
    (mem : Option Memory)
    (call : ServiceCall) :
    (ReturnsFence mem st.tracker call ∧
        (st.submit mem call).sp =
            { st.sp with counter := st.sp.counter + 1 } ∧
          (st.submit mem call).fences =
            st.fences ++ [(0, st.sp.counter)]) ∨
      (¬ ReturnsFence mem st.tracker call ∧
        (st.submit mem call).sp = st.sp ∧
          (st.submit mem call).fences = st.fences) := by
  have hSome := isSome_pushWords mem st.tracker call
  unfold submit Syncpts.handleSubmitGpfifo ReturnsFence
  by_cases hShort : call.rawIn.length < 16
  · refine Or.inr ⟨?_, ?_, ?_⟩
    · omega
    · simp [hShort]
    · simp [hShort, fenceOf]
  · simp only [hShort, if_false]
    cases hPush : Syncpts.pushWords mem st.tracker call with
    | none =>
        rw [hPush] at hSome
        refine Or.inr ⟨?_, rfl, ?_⟩
        · rintro ⟨hLong, hWords, hMem, hTracker, -⟩
          exact nomatch
            hSome.mpr ⟨hLong, hWords, hMem, hTracker⟩
        · simp [fenceOf]
    | some t =>
        rw [hPush] at hSome
        rcases hSome.mp rfl with ⟨hLong, hWords, hMem, hTracker⟩
        by_cases hRoom : 8 ≤ call.outMax
        · refine
            Or.inl
              ⟨⟨hLong, hWords, hMem, hTracker, hRoom⟩, ?_, ?_⟩
          · simp [hRoom]
          · simp only [hRoom, if_true, fenceOf_replyWords]
            rfl
        · refine Or.inr ⟨fun hAll => hRoom hAll.2.2.2.2, ?_, ?_⟩
          · simp [hRoom]
          · simp [hRoom, fenceOf]

------
-- What Admitted Steps Keep
------

/- A number of a sync point that was given to somebody. -/
def Taken
    (st : SyncptState T)
    (id : Fin MAX_SYNCPT) : Prop :=
  id ∈ st.handed ∨ ∃ t, (st.calls t).id? = some id

/-
  Numbers are below the counter and given once.  Nothing but
  the first fence was returned, before the first of them.
-/
structure Inv (st : SyncptState T) : Prop where
  value : ∀ id, st.sp.value id = 0
  below : ∀ id, st.Taken id → id.val < st.sp.counter.toNat
  handed : st.handed.Nodup
  apart :
    ∀ t id, (st.calls t).id? = some id →
      id ∉ st.handed ∧
        ∀ t', t' ≠ t → (st.calls t').id? ≠ some id
  fences : ∀ f ∈ st.fences, f = (0, 0)
  first : ∀ f ∈ st.fences, ∀ id, st.Taken id → id.val ≠ 0
  started : ∀ f ∈ st.fences, 0 < st.sp.counter.toNat

theorem inv_boot (tracker : Option StateTracker) :
    ({ tracker := tracker } : SyncptState T).Inv := by
  constructor
  · exact fun _ => rfl
  · rintro id (hMem | ⟨t, hId⟩)
    · cases hMem
    · cases hId
  · exact List.nodup_nil
  · exact fun _ _ hId => nomatch hId
  · exact fun _ hMem => nomatch hMem
  · exact fun _ hMem => nomatch hMem
  · exact fun _ hMem => nomatch hMem

variable [DecidableEq T] {st : SyncptState T} {t : T}
variable {id : Fin MAX_SYNCPT}

/- The numbers of calls when one call moves. -/
theorem id?_update
    (call : SyncptCall)
    (t' : T) :
    (Function.update st.calls t call t').id? =
      if t' = t then call.id? else (st.calls t').id? := by
  by_cases hT : t' = t
  · subst hT
    simp
  · simp [hT]

/- An increment below the limit takes the counter's number. -/
theorem fetch_of_lt
    (hIdle : st.calls t = .idle)
    (hCounter : st.sp.counter.toNat < MAX_SYNCPT) :
    st.fetch t =
      { st with
        sp := { st.sp with counter := st.sp.counter + 1 }
        calls :=
          Function.update st.calls t
            (.fetched ⟨st.sp.counter.toNat, hCounter⟩) } := by
  have hId :
      Syncpts.idOf st.sp.counter =
        ⟨st.sp.counter.toNat, hCounter⟩ := by
    unfold Syncpts.idOf
    rw [dif_pos hCounter]
  unfold SyncptState.fetch
  rw [hIdle, hId]

/- Nobody gets another number by it. -/
theorem taken_fetch
    (hIdle : st.calls t = .idle)
    (hCounter : st.sp.counter.toNat < MAX_SYNCPT)
    (hTaken : (st.fetch t).Taken id) :
    st.Taken id ∨ id.val = st.sp.counter.toNat := by
  rw [fetch_of_lt hIdle hCounter] at hTaken
  rcases hTaken with hMem | ⟨t', hSome⟩
  · exact Or.inl (Or.inl hMem)
  · simp only [id?_update] at hSome
    split at hSome
    · exact
        Or.inr (congrArg Fin.val (Option.some.inj hSome)).symm
    · exact Or.inl (Or.inr ⟨t', hSome⟩)

/- The next number is nobody's. -/
theorem Inv.fetch
    (hInv : st.Inv)
    (hIdle : st.calls t = .idle)
    (hCounter : st.sp.counter.toNat < MAX_SYNCPT) :
    (st.fetch t).Inv := by
  have hStep := fetch_of_lt hIdle hCounter
  have hNext :
      (st.sp.counter + 1).toNat = st.sp.counter.toNat + 1 := by
    rw [BitVec.toNat_add]
    apply Nat.mod_eq_of_lt
    change st.sp.counter.toNat < 24 at hCounter
    show st.sp.counter.toNat + 1 < 2 ^ 32
    omega
  have hTaken :
      ∀ id, (st.fetch t).Taken id →
        st.Taken id ∨ id.val = st.sp.counter.toNat :=
    fun id => taken_fetch hIdle hCounter
  have hFresh :
      ∀ id, st.Taken id → id.val ≠ st.sp.counter.toNat :=
    fun id hOld => Nat.ne_of_lt (hInv.below id hOld)
  constructor
  · rw [hStep]
    exact hInv.value
  · intro id hNew
    have hCount :
        (st.fetch t).sp.counter.toNat =
          st.sp.counter.toNat + 1 := by
      rw [hStep]
      exact hNext
    rw [hCount]
    rcases hTaken id hNew with hOld | hVal
    · have hBelow := hInv.below id hOld
      omega
    · omega
  · rw [hStep]
    exact hInv.handed
  · rw [hStep]
    intro t₁ id hSome
    simp only [id?_update] at hSome ⊢
    split at hSome
    · have hVal :=
        congrArg Fin.val (Option.some.inj hSome)
      refine ⟨fun hMem => ?_, fun t' hT => ?_⟩
      · exact hFresh id (Or.inl hMem) hVal.symm
      · next hSame =>
          rw [hSame] at hT
          rw [if_neg hT]
          exact fun hOther =>
            hFresh id (Or.inr ⟨t', hOther⟩) hVal.symm
    · rcases hInv.apart t₁ id hSome with ⟨hNot, hOthers⟩
      refine ⟨hNot, fun t' hT => ?_⟩
      split
      · intro hEq
        have hVal := congrArg Fin.val (Option.some.inj hEq)
        exact hFresh id (Or.inr ⟨t₁, hSome⟩) hVal.symm
      · exact hOthers t' hT
  · rw [hStep]
    exact hInv.fences
  · intro f hF id hNew
    have hF' : f ∈ st.fences := by
      rwa [hStep] at hF
    rcases hTaken id hNew with hOld | hVal
    · exact hInv.first f hF' id hOld
    · have hStarted := hInv.started f hF'
      omega
  · intro f hF
    rw [hStep]
    show 0 < (st.sp.counter + 1).toNat
    omega

/- A call keeps its number when it sets the value. -/
theorem Inv.store
    (hInv : st.Inv)
    (hFetched : st.calls t = .fetched id) :
    (st.store t).Inv := by
  have hStep :
      st.store t =
        { st with
          sp :=
            { st.sp with
              value := Function.update st.sp.value id 0 }
          calls :=
            Function.update st.calls t (.stored id) } := by
    unfold SyncptState.store
    rw [hFetched]
  have hIds :
      ∀ t', ((st.store t).calls t').id? =
        (st.calls t').id? := by
    intro t'
    rw [hStep]
    simp only [id?_update]
    split
    · next hT =>
        rw [hT, hFetched]
        rfl
    · rfl
  have hTaken : ∀ id, (st.store t).Taken id → st.Taken id := by
    rintro id (hMem | ⟨t', hSome⟩)
    · rw [hStep] at hMem
      exact Or.inl hMem
    · rw [hIds] at hSome
      exact Or.inr ⟨t', hSome⟩
  constructor
  · intro id'
    rw [hStep]
    by_cases hSame : id' = id
    · subst hSame
      simp
    · simp [hSame, hInv.value id']
  · intro id' hNew
    have hBelow := hInv.below id' (hTaken id' hNew)
    rw [hStep]
    exact hBelow
  · rw [hStep]
    exact hInv.handed
  · intro t₁ id' hSome
    rw [hIds] at hSome
    rcases hInv.apart t₁ id' hSome with ⟨hNot, hOthers⟩
    refine ⟨?_, fun t' hT => ?_⟩
    · rw [hStep]
      exact hNot
    · rw [hIds]
      exact hOthers t' hT
  · rw [hStep]
    exact hInv.fences
  · intro f hF id' hNew
    rw [hStep] at hF
    exact hInv.first f hF id' (hTaken id' hNew)
  · intro f hF
    rw [hStep] at hF ⊢
    exact hInv.started f hF

/- The number goes from the call to its caller. -/
theorem Inv.returnId
    (hInv : st.Inv)
    (hStored : st.calls t = .stored id) :
    (st.returnId t).Inv := by
  have hStep :
      st.returnId t =
        { st with
          handed := st.handed ++ [id]
          calls := Function.update st.calls t .idle } := by
    unfold SyncptState.returnId
    rw [hStored]
  have hHere : (st.calls t).id? = some id := by
    rw [hStored]
    rfl
  have hCalls :
      ∀ t' id', ((st.returnId t).calls t').id? = some id' →
        t' ≠ t ∧ (st.calls t').id? = some id' := by
    intro t' id' hSome
    rw [hStep] at hSome
    simp only [id?_update] at hSome
    split at hSome
    · cases hSome
    · next hT => exact ⟨hT, hSome⟩
  have hTaken :
      ∀ id', (st.returnId t).Taken id' → st.Taken id' := by
    rintro id' (hMem | ⟨t', hSome⟩)
    · rw [hStep] at hMem
      rcases List.mem_append.mp hMem with hOld | hNew
      · exact Or.inl hOld
      · rw [List.mem_singleton.mp hNew]
        exact Or.inr ⟨t, hHere⟩
    · exact Or.inr ⟨t', (hCalls t' id' hSome).2⟩
  rcases hInv.apart t id hHere with ⟨hNot, hOthers⟩
  constructor
  · rw [hStep]
    exact hInv.value
  · intro id' hNew
    have hBelow := hInv.below id' (hTaken id' hNew)
    rw [hStep]
    exact hBelow
  · rw [hStep]
    exact List.nodup_append.mpr
      ⟨hInv.handed, List.nodup_singleton id,
        fun a hA b hB hEq => hNot
          (List.mem_singleton.mp hB ▸ hEq ▸ hA)⟩
  · intro t₁ id' hSome
    rcases hCalls t₁ id' hSome with ⟨hT, hOld⟩
    rcases hInv.apart t₁ id' hOld with ⟨hNot', hOthers'⟩
    refine ⟨?_, fun t' hT' hOther => ?_⟩
    · rw [hStep]
      intro hMem
      rcases List.mem_append.mp hMem with hEarly | hNew
      · exact hNot' hEarly
      · rw [List.mem_singleton.mp hNew] at hOld
        exact hOthers t₁ hT hOld
    · exact hOthers' t' hT' (hCalls t' id' hOther).2
  · rw [hStep]
    exact hInv.fences
  · intro f hF id' hNew
    rw [hStep] at hF
    exact hInv.first f hF id' (hTaken id' hNew)
  · intro f hF
    rw [hStep] at hF ⊢
    exact hInv.started f hF

omit [DecidableEq T] in
/- The first fence is returned before any number. -/
theorem Inv.submit
    (hInv : st.Inv)
    {mem : Option Memory}
    {call : ServiceCall}
    (hAdmits :
      ReturnsFence mem st.tracker call → st.sp.counter = 0) :
    (st.submit mem call).Inv := by
  rcases submit_cases st mem call with
    ⟨hReturns, hSp, hFences⟩ | ⟨-, hSp, hFences⟩
  · have hZero := hAdmits hReturns
    have hNone : ∀ id, ¬ st.Taken id := by
      intro id hOld
      have hBelow := hInv.below id hOld
      rw [hZero] at hBelow
      exact absurd hBelow (Nat.not_lt_zero _)
    constructor
    · rw [hSp]
      exact hInv.value
    · exact fun id hNew => absurd hNew (hNone id)
    · exact hInv.handed
    · exact hInv.apart
    · rw [hFences, hZero]
      intro f hF
      rcases List.mem_append.mp hF with hOld | hNew
      · exact hInv.fences f hOld
      · exact List.mem_singleton.mp hNew
    · exact fun _ _ id hNew => absurd hNew (hNone id)
    · intro f _
      rw [hSp]
      show 0 < (st.sp.counter + 1).toNat
      rw [hZero]
      decide
  · constructor
    · rw [hSp]
      exact hInv.value
    · rw [hSp]
      exact hInv.below
    · exact hInv.handed
    · exact hInv.apart
    · rw [hFences]
      exact hInv.fences
    · rw [hFences]
      exact hInv.first
    · rw [hFences, hSp]
      exact hInv.started

end SyncptState

------
-- Main Results
------

namespace SyncptState

variable {T : Type} [DecidableEq T] {st : SyncptState T}
variable {e : SyncptStep T}

/- One step of an admitted run. -/
theorem Inv.step
    (hInv : st.Inv)
    (hAdmits : st.Admits e) :
    (st.step e).Inv := by
  cases e with
  | fetch t =>
      show (st.fetch t).Inv
      cases hCall : st.calls t with
      | idle => exact hInv.fetch hCall (hAdmits hCall)
      | fetched id =>
          unfold SyncptState.fetch
          rw [hCall]
          exact hInv
      | stored id =>
          unfold SyncptState.fetch
          rw [hCall]
          exact hInv
  | store t =>
      show (st.store t).Inv
      cases hCall : st.calls t with
      | fetched id => exact hInv.store hCall
      | idle =>
          unfold SyncptState.store
          rw [hCall]
          exact hInv
      | stored id =>
          unfold SyncptState.store
          rw [hCall]
          exact hInv
  | returnId t =>
      show (st.returnId t).Inv
      cases hCall : st.calls t with
      | stored id => exact hInv.returnId hCall
      | idle =>
          unfold SyncptState.returnId
          rw [hCall]
          exact hInv
      | fetched id =>
          unfold SyncptState.returnId
          rw [hCall]
          exact hInv
  | submit mem call => exact hInv.submit hAdmits

/- What the invariant says of a step. -/
theorem Inv.safe
    (hInv : st.Inv)
    (hAdmits : st.Admits e) :
    st.Safe e := by
  have hInv' := hInv.step hAdmits
  constructor
  · exact hInv'.handed.sublist (List.take_sublist _ _)
  · rintro t id rfl hCall
    have hHere : (st.calls t).id? = some id := by
      rw [hCall]
      rfl
    refine ⟨(hInv.apart t id hHere).1, fun f hF hEq => ?_⟩
    have hNonzero := hInv.first f hF id (Or.inr ⟨t, hHere⟩)
    rw [hInv.fences f hF] at hEq
    have hVal := congrArg BitVec.toNat hEq
    rw [BitVec.toNat_ofNat, Nat.mod_eq_of_lt] at hVal
    · exact hNonzero hVal.symm
    · have hLt : id.val < 24 := id.isLt
      omega
  · intro f hF
    rw [hInv'.fences f hF]
    exact BitVec.le_def.mpr (Nat.zero_le _)

/-
  In a run whose steps are all admitted, numbers are distinct,
  no sync point is set that somebody has, and every fence that
  was returned is reached.
-/
theorem safe_of_admitted
    (tracker : Option StateTracker)
    (events : List (SyncptStep T))
    (hAdmits :
      EventRun.Guarded step Admits
        ({ tracker := tracker } : SyncptState T) events) :
    EventRun.Guarded step Safe
      ({ tracker := tracker } : SyncptState T) events := by
  intro before e hBefore
  have hEarlier :=
    hAdmits.of_isPrefix
      ((List.prefix_append before [e]).trans hBefore)
  have hInv :
      (EventRun.stateAfter step
        ({ tracker := tracker } : SyncptState T) before).Inv :=
    hEarlier.invariant (I := fun _ st => st.Inv)
      (inv_boot tracker)
      (fun _ _ hInv hStep => hInv.step hStep)
  exact hInv.safe (hAdmits before e hBefore)

/- A submission of one word. -/
def submission : SyncptStep Bool :=
  .submit (some { bytes := fun _ => 0 })
    { service := 0
      cmdId := 0xC0480012
      rawIn := Bytes.ofWords [0, 0, 1, 0]
      outMax := 8 }

/- A fence, and two threads that allocate. -/
def twoAllocs : List (SyncptStep Bool) :=
  [submission, .fetch true, .fetch false, .store false,
    .store true, .returnId false, .returnId true]

theorem twoAllocs_safe :
    EventRun.Guarded step Safe
      ({ tracker := some (.new StateTracker.defaultEngines) } :
        SyncptState Bool) twoAllocs := by
  apply safe_of_admitted
  simp only [twoAllocs, EventRun.guarded_cons,
    EventRun.guarded_nil, and_true]
  exact
    ⟨fun _ => rfl, fun _ => by decide, fun _ => by decide,
      trivial, trivial, trivial, trivial⟩

/- The second of two fences is never reached. -/
theorem twoFences_not_safe :
    ¬ EventRun.Guarded step Safe
        ({ tracker := some (.new StateTracker.defaultEngines) } :
          SyncptState Bool) ([submission] ++ [submission]) := by
  intro hSafe
  have hLast := hSafe [submission] _ (List.prefix_refl _)
  have hReached := hLast.reached (0, 1) (by decide)
  revert hReached
  decide

end SyncptState

end M1Switch
