import Mathlib.Data.List.Infix

/-
  Runs of a machine that is driven by events.

  A guard says which events are admitted in which state.  A
  run is guarded when every event of it meets the guard in the
  state it finds.  Invariants may speak about the events so
  far, so that they can refer to earlier states of the run.

  Key definitions include:
    * `EventRun.stateAfter`
    * `EventRun.Guarded`

  Main results:
    * `EventRun.throughout_iff_guarded`
    * `EventRun.stateAfter_map`
    * `EventRun.stateAfter_append`
-/

------
-- Runs
------

namespace EventRun

variable {σ ε : Type} {step : σ → ε → σ}
variable {guard : σ → ε → Prop} {start : σ}
variable {events events' : List ε}

/- The state behind a list of events. -/
def stateAfter
    (step : σ → ε → σ)
    (start : σ)
    (events : List ε) : σ :=
  events.foldl step start

@[simp] theorem stateAfter_nil :
    stateAfter step start [] = start :=
  rfl

@[simp] theorem stateAfter_concat
    (e : ε) :
    stateAfter step start (events ++ [e]) =
      step (stateAfter step start events) e := by
  unfold stateAfter
  rw [List.foldl_append]
  rfl

theorem stateAfter_append :
    stateAfter step start (events ++ events') =
      stateAfter step (stateAfter step start events) events' :=
  List.foldl_append

/- Every event meets the guard in the state it finds. -/
def Guarded
    (step : σ → ε → σ)
    (guard : σ → ε → Prop)
    (start : σ)
    (events : List ε) : Prop :=
  ∀ before e, before ++ [e] <+: events →
    guard (stateAfter step start before) e

/- The beginning of a guarded run is guarded. -/
theorem Guarded.of_isPrefix
    (hGuarded : Guarded step guard start events)
    (hPrefix : events' <+: events) :
    Guarded step guard start events' := by
  intro before e hBefore
  exact hGuarded before e (hBefore.trans hPrefix)

@[simp] theorem guarded_nil :
    Guarded step guard start [] := by
  intro before e hBefore
  have hEmpty := List.prefix_nil.mp hBefore
  simp at hEmpty

@[simp] theorem guarded_cons
    (e : ε) :
    Guarded step guard start (e :: events) ↔
      guard start e ∧
        Guarded step guard (step start e) events := by
  constructor
  · intro hGuarded
    refine ⟨hGuarded [] e ?_, ?_⟩
    · exact List.prefix_append [e] events
    · intro before e' hBefore
      exact hGuarded (e :: before) e'
        ((List.prefix_cons_inj e).mpr hBefore)
  · rintro ⟨hFirst, hRest⟩ before e' hBefore
    cases before with
    | nil =>
        have hEq : e' = e := (List.cons_prefix_cons.mp hBefore).1
        rw [hEq]
        exact hFirst
    | cons d before =>
        rcases List.cons_prefix_cons.mp hBefore with
          ⟨rfl, hLater⟩
        exact hRest before e' hLater

theorem guarded_and
    {guard' : σ → ε → Prop} :
    Guarded step (fun s e => guard s e ∧ guard' s e) start
        events ↔
      Guarded step guard start events ∧
        Guarded step guard' start events := by
  constructor
  · intro hBoth
    refine ⟨?_, ?_⟩
    · intro before e hBefore
      exact (hBoth before e hBefore).1
    · intro before e hBefore
      exact (hBoth before e hBefore).2
  · rintro ⟨hFirst, hSecond⟩ before e hBefore
    exact ⟨hFirst before e hBefore, hSecond before e hBefore⟩

/- Whether a run is guarded is found by running it. -/
instance Guarded.decidable
    [∀ s e, Decidable (guard s e)] :
    ∀ (start : σ) (events : List ε),
      Decidable (Guarded step guard start events)
| _, [] => isTrue guarded_nil
| start, e :: events =>
    have := Guarded.decidable (step start e) events
    decidable_of_iff _ (guarded_cons e).symm

/-
  What holds at the start and is kept by admitted events holds
  behind every guarded run.
-/
theorem Guarded.invariant
    {I : List ε → σ → Prop}
    (hStart : I [] start)
    (hStep :
      ∀ before e,
        I before (stateAfter step start before) →
          guard (stateAfter step start before) e →
            I (before ++ [e])
              (step (stateAfter step start before) e))
    (hGuarded : Guarded step guard start events) :
    I events (stateAfter step start events) := by
  induction events using List.reverseRecOn with
  | nil => exact hStart
  | append_singleton before e ih =>
      rw [stateAfter_concat]
      apply hStep before e
      · exact ih
          (hGuarded.of_isPrefix (List.prefix_append before [e]))
      · exact hGuarded before e (List.prefix_refl _)

/- What every event keeps holds behind every run. -/
theorem invariant
    {I : List ε → σ → Prop}
    (hStart : I [] start)
    (hStep :
      ∀ before e,
        I before (stateAfter step start before) →
          I (before ++ [e])
            (step (stateAfter step start before) e))
    (events : List ε) :
    I events (stateAfter step start events) := by
  have hAll : Guarded step (fun _ _ => True) start events :=
    fun _ _ _ => trivial
  exact hAll.invariant hStart fun before e hInv _ =>
    hStep before e hInv

/- Two guards that agree wherever an admitted run leads. -/
theorem guarded_congr
    {guard' : σ → ε → Prop}
    {I : σ → Prop}
    (hStep : ∀ s e, I s → guard s e → I (step s e))
    (hIff : ∀ s e, I s → (guard s e ↔ guard' s e))
    (hStart : I start) :
    Guarded step guard start events ↔
      Guarded step guard' start events := by
  induction events generalizing start with
  | nil => simp
  | cons e events ih =>
      rw [guarded_cons, guarded_cons, ← hIff start e hStart]
      constructor
      · rintro ⟨hFirst, hRest⟩
        exact
          ⟨hFirst, (ih (hStep start e hStart hFirst)).mp hRest⟩
      · rintro ⟨hFirst, hRest⟩
        exact
          ⟨hFirst, (ih (hStep start e hStart hFirst)).mpr hRest⟩

/-
  What holds throughout a run, for every run of allowed events
  that the guard admits, and for no other.
-/
theorem throughout_iff_guarded
    {allowed : σ → ε → Prop}
    {I Q : σ → Prop}
    (hHolds : ∀ s, I s → Q s)
    (hStep :
      ∀ s e, I s → allowed s e → guard s e → I (step s e))
    (hOnly :
      ∀ s e, I s → allowed s e → Q (step s e) → guard s e)
    (hStart : I start)
    (hAllowed : Guarded step allowed start events) :
    (∀ before, before <+: events →
        Q (stateAfter step start before)) ↔
      Guarded step guard start events := by
  induction events generalizing start with
  | nil =>
      constructor
      · intro _
        exact guarded_nil
      · intro _ before hBefore
        rw [List.prefix_nil.mp hBefore]
        exact hHolds start hStart
  | cons e events ih =>
      rw [guarded_cons] at hAllowed ⊢
      rcases hAllowed with ⟨hFirst, hRest⟩
      constructor
      · intro hAlways
        have hGuard : guard start e :=
          hOnly start e hStart hFirst
            (hAlways [e] (List.prefix_append [e] events))
        refine ⟨hGuard, ?_⟩
        rw [← ih (hStep start e hStart hFirst hGuard) hRest]
        intro before hBefore
        exact hAlways (e :: before)
          ((List.prefix_cons_inj e).mpr hBefore)
      · rintro ⟨hGuard, hGuards⟩ before hBefore
        have hLater :=
          (ih (hStep start e hStart hFirst hGuard) hRest).mpr
            hGuards
        cases before with
        | nil => exact hHolds start hStart
        | cons d before =>
            rcases List.cons_prefix_cons.mp hBefore with
              ⟨rfl, hTail⟩
            exact hLater before hTail

/- A run and the run of what it projects to. -/
theorem stateAfter_map
    {τ : Type}
    {f : σ → τ}
    {step' : τ → ε → τ}
    (hStep : ∀ s e, f (step s e) = step' (f s) e)
    (events : List ε) :
    f (stateAfter step start events) =
      stateAfter step' (f start) events := by
  induction events using List.reverseRecOn with
  | nil => rfl
  | append_singleton before e ih =>
      rw [stateAfter_concat, stateAfter_concat, hStep, ih]

end EventRun
