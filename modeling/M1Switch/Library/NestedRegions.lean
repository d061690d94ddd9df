import Mathlib.Data.List.Perm.Basic
import Mathlib.Data.List.Pairwise
import Mathlib.Order.Lattice

/-
  Regions that open and close along a line.

  An opening names the position its region closes at, and a
  stack holds the positions of the open regions.  A closing
  takes the innermost one off, if that is where it stands.
  Where regions are nested or disjoint, nothing is left on
  the stack exactly if no two regions close at one position.

  Key definitions include:
    * `NestedRegions.Event`
    * `run`

  Main results:
    * `perm_run`
    * `run_eq_nil_iff`
    * `find?_eq_find?_iff`
-/

------
-- Events
------

namespace NestedRegions

/- What stands at a position. -/
inductive Kind (κ : Type) where
  | opening (ends : κ)
  | closing
  | plain

structure Event (κ : Type) where
  pos : κ
  kind : Kind κ

/- Where the regions that are opened close. -/
def targets {κ : Type} : List (Event κ) → List κ
| [] => []
| ⟨_, .opening ends⟩ :: rest => ends :: targets rest
| _ :: rest => targets rest

/- Where the closings stand. -/
def closings {κ : Type} : List (Event κ) → List κ
| [] => []
| ⟨pos, .closing⟩ :: rest => pos :: closings rest
| _ :: rest => closings rest

/- The stack behind an event. -/
def step {κ : Type} [DecidableEq κ] :
    List κ → Event κ → List κ
| stack, ⟨_, .opening ends⟩ => ends :: stack
| stack, ⟨pos, .closing⟩ =>
    if stack.head? = some pos then stack.tail else stack
| stack, ⟨_, .plain⟩ => stack

def run {κ : Type} [DecidableEq κ]
    (stack : List κ)
    (events : List (Event κ)) : List κ :=
  events.foldl step stack

/-
  Positions increase, every region closes further on, and
  two regions are nested or disjoint.
-/
structure Nested {κ : Type} [LinearOrder κ]
    (events : List (Event κ)) : Prop where
  ordered : events.Pairwise (fun a b => a.pos < b.pos)
  closed :
    ∀ a ∈ events, ∀ ends, a.kind = .opening ends →
      a.pos < ends ∧
        ∃ c ∈ events, c.kind = .closing ∧ c.pos = ends
  laminar :
    ∀ a ∈ events, ∀ b ∈ events, ∀ outer inner,
      a.kind = .opening outer → b.kind = .opening inner →
        a.pos < b.pos → inner ≤ outer ∨ outer < b.pos

------
-- Targets
------

variable {κ : Type}
variable {events : List (Event κ)}

theorem targets_append (as bs : List (Event κ)) :
    targets (as ++ bs) = targets as ++ targets bs := by
  induction as with
  | nil => rfl
  | cons a as ih =>
      rcases a with ⟨pos, kind⟩
      cases kind with
      | opening ends =>
          exact congrArg (ends :: ·) ih
      | closing => exact ih
      | plain => exact ih

theorem mem_targets_iff {t : κ} :
    t ∈ targets events ↔
      ∃ a ∈ events, a.kind = .opening t := by
  induction events with
  | nil => simp [targets]
  | cons a rest ih =>
      rcases a with ⟨pos, kind⟩
      cases kind <;>
        simp [targets, ih, eq_comm]

theorem mem_closings
    {t : κ}
    (hMem : t ∈ closings events) :
    ∃ c ∈ events, c.pos = t := by
  induction events with
  | nil => cases hMem
  | cons c rest ih =>
      have hRest :
          t ∈ closings rest → ∃ x ∈ c :: rest, x.pos = t := by
        intro hTail
        rcases ih hTail with ⟨x, hX, hPos⟩
        exact ⟨x, List.mem_cons_of_mem _ hX, hPos⟩
      rcases c with ⟨pos, kind⟩
      cases kind with
      | opening ends => exact hRest hMem
      | plain => exact hRest hMem
      | closing =>
          rcases List.mem_cons.mp hMem with hHead | hTail
          · exact ⟨_, List.mem_cons_self, hHead.symm⟩
          · exact hRest hTail

theorem nodup_closings
    [LinearOrder κ]
    (hOrdered :
      events.Pairwise (fun a b => a.pos < b.pos)) :
    (closings events).Nodup := by
  induction events with
  | nil => exact List.nodup_nil
  | cons c rest ih =>
      rcases List.pairwise_cons.mp hOrdered with
        ⟨hHead, hRest⟩
      rcases c with ⟨pos, kind⟩
      cases kind with
      | opening ends => exact ih hRest
      | plain => exact ih hRest
      | closing =>
          refine List.nodup_cons.mpr ⟨?_, ih hRest⟩
          intro hMem
          rcases mem_closings hMem with ⟨x, hX, hPos⟩
          have hLt : pos < x.pos := hHead x hX
          exact absurd hPos hLt.ne'

------
-- What Is Taken Off
------

variable [DecidableEq κ]

/-
  What is left on the stack and what closings took off are,
  together, what was there and what was opened.
-/
theorem perm_run (events : List (Event κ)) :
    ∀ stack, ∃ popped,
      popped.Sublist (closings events) ∧
        (popped ++ run stack events).Perm
          (stack ++ targets events) := by
  induction events with
  | nil =>
      intro stack
      refine ⟨[], List.Sublist.refl _, ?_⟩
      rw [List.nil_append, targets, List.append_nil]
      exact List.Perm.refl _
  | cons e rest ih =>
      intro stack
      rcases e with ⟨pos, kind⟩
      cases kind with
      | opening ends =>
          rcases ih (ends :: stack) with ⟨popped, hSub, hPerm⟩
          exact
            ⟨popped, hSub,
              hPerm.trans List.perm_middle.symm⟩
      | plain => exact ih stack
      | closing =>
          by_cases hTop : stack.head? = some pos
          · rcases ih stack.tail with ⟨popped, hSub, hPerm⟩
            refine ⟨pos :: popped, hSub.cons_cons pos, ?_⟩
            have hStack : pos :: stack.tail = stack :=
              List.cons_head?_tail hTop
            have hRun :
                run stack (⟨pos, .closing⟩ :: rest) =
                  run stack.tail rest :=
              congrArg (run · rest) (if_pos hTop)
            rw [hRun, ← hStack]
            exact hPerm.cons pos
          · rcases ih stack with ⟨popped, hSub, hPerm⟩
            have hRun :
                run stack (⟨pos, .closing⟩ :: rest) =
                  run stack rest :=
              congrArg (run · rest) (if_neg hTop)
            rw [hRun]
            exact ⟨popped, hSub.cons pos, hPerm⟩

end NestedRegions

------
-- The Open Regions
------

namespace NestedRegions

variable {κ : Type}
variable [LinearOrder κ]
variable {before after : List (Event κ)}
variable {e : Event κ}
variable {stack : List κ}

/-
  The stack between two parts of the line: open regions, the
  innermost first, that all close in the second part.
-/
structure Between
    (before after : List (Event κ))
    (stack : List κ) : Prop where
  sorted : stack.Pairwise (· < ·)
  opened : ∀ t ∈ stack, t ∈ targets before
  closes :
    ∀ t ∈ stack, ∃ c ∈ after, c.kind = .closing ∧ c.pos = t

theorem between_nil (events : List (Event κ)) :
    Between [] events [] :=
  ⟨List.Pairwise.nil, List.forall_mem_nil _,
    List.forall_mem_nil _⟩

theorem Nested.lt_of_mem
    (hNested : Nested (before ++ e :: after)) :
    (∀ b ∈ before, b.pos < e.pos) ∧
      ∀ a ∈ after, e.pos < a.pos := by
  rcases List.pairwise_append.mp hNested.ordered with
    ⟨_, hAfter, hCross⟩
  exact
    ⟨fun b hB => hCross b hB e List.mem_cons_self,
      (List.pairwise_cons.mp hAfter).1⟩

/- What closes in the second part closes behind its head. -/
theorem Between.closes_tail
    {t : κ}
    (hBetween : Between before (e :: after) stack)
    (hMem : t ∈ stack)
    (hNot : e.kind ≠ .closing ∨ e.pos ≠ t) :
    ∃ c ∈ after, c.kind = .closing ∧ c.pos = t := by
  rcases hBetween.closes t hMem with ⟨c, hC, hKind, hPos⟩
  rcases List.mem_cons.mp hC with hHead | hTail
  · rw [hHead] at hKind hPos
    rcases hNot with hOther | hOther
    · exact absurd hKind hOther
    · exact absurd hPos hOther
  · exact ⟨c, hTail, hKind, hPos⟩

/- An opened region lies inside those that are open. -/
theorem Between.opening
    {ends : κ}
    (hNested : Nested (before ++ e :: after))
    (hNodup : (targets (before ++ e :: after)).Nodup)
    (hBetween : Between before (e :: after) stack)
    (hKind : e.kind = .opening ends) :
    Between (before ++ [e]) after (ends :: stack) := by
  rcases hNested.lt_of_mem with ⟨hBefore, hAfter⟩
  have hE : e ∈ before ++ e :: after :=
    List.mem_append_right _ List.mem_cons_self
  have hNot : ∀ {t}, t ∈ stack →
      ∃ c ∈ after, c.kind = .closing ∧ c.pos = t := by
    intro t hMem
    apply hBetween.closes_tail hMem
    exact Or.inl (by simp [hKind])
  have hTargets :
      targets (before ++ [e]) = targets before ++ [ends] := by
    rw [targets_append]
    rcases e with ⟨pos, kind⟩
    cases hKind
    rfl
  constructor
  · refine List.pairwise_cons.mpr ⟨?_, hBetween.sorted⟩
    intro t hMem
    have hOpened := hBetween.opened t hMem
    rcases mem_targets_iff.mp hOpened with ⟨a, hA, hOuter⟩
    rcases hNot hMem with ⟨c, hC, _, hPos⟩
    have hLe :=
      hNested.laminar a (List.mem_append_left _ hA) e hE t ends
        hOuter hKind (hBefore a hA)
    have hBehind : e.pos < t := hPos ▸ hAfter c hC
    have hNe : ends ≠ t := by
      intro hEq
      rw [← List.singleton_append, ← List.append_assoc,
        targets_append, hTargets, hEq] at hNodup
      have hFirst := (List.nodup_append.mp hNodup).1
      have hCross := (List.nodup_append.mp hFirst).2.2
      exact hCross t hOpened t List.mem_cons_self rfl
    rcases hLe with hInside | hApart
    · exact lt_of_le_of_ne hInside hNe
    · exact absurd hApart (not_lt.mpr hBehind.le)
  · intro t hMem
    rw [hTargets]
    rcases List.mem_cons.mp hMem with hHead | hTail
    · rw [hHead]
      exact List.mem_append_right _ List.mem_cons_self
    · exact List.mem_append_left _ (hBetween.opened t hTail)
  · intro t hMem
    rcases List.mem_cons.mp hMem with hHead | hTail
    · rcases hNested.closed e hE ends hKind with
        ⟨hLt, c, hC, hClosing, hPos⟩
      rw [hHead]
      refine ⟨c, ?_, hClosing, hPos⟩
      rcases List.mem_append.mp hC with hB | hA
      · have hBack := hBefore c hB
        rw [hPos] at hBack
        exact absurd hBack (not_lt.mpr hLt.le)
      · rcases List.mem_cons.mp hA with hSelf | hLater
        · rw [hSelf] at hPos
          exact absurd hPos hLt.ne
        · exact hLater
    · exact hNot hTail

/- A closing takes off the region that closes there. -/
theorem Between.closing
    (hNested : Nested (before ++ e :: after))
    (hBetween : Between before (e :: after) stack) :
    Between (before ++ [e]) after
      (if stack.head? = some e.pos then stack.tail
        else stack) := by
  rcases hNested.lt_of_mem with ⟨_, hAfter⟩
  have hOpened :
      ∀ t ∈ stack, t ∈ targets (before ++ [e]) := by
    intro t hMem
    rw [targets_append]
    exact List.mem_append_left _ (hBetween.opened t hMem)
  cases stack with
  | nil =>
      exact
        ⟨List.Pairwise.nil, List.forall_mem_nil _,
          List.forall_mem_nil _⟩
  | cons top rest =>
      rcases List.pairwise_cons.mp hBetween.sorted with
        ⟨hLeast, hSorted⟩
      by_cases hTop : (top :: rest).head? = some e.pos
      · have hEq : top = e.pos := Option.some.inj hTop
        rw [if_pos hTop]
        refine ⟨hSorted, ?_, ?_⟩
        · intro t hMem
          exact hOpened t (List.mem_cons_of_mem _ hMem)
        · intro t hMem
          apply hBetween.closes_tail
            (List.mem_cons_of_mem _ hMem)
          exact Or.inr (hEq ▸ (hLeast t hMem).ne)
      · have hNe : top ≠ e.pos := by
          intro hEq
          exact hTop (congrArg some hEq)
        rw [if_neg hTop]
        refine ⟨hBetween.sorted, hOpened, ?_⟩
        intro t hMem
        apply hBetween.closes_tail hMem
        -- The innermost region closes at the head or later.
        rcases List.mem_cons.mp hMem with hHead | hTail
        · exact Or.inr (hHead ▸ hNe.symm)
        · rcases
            hBetween.closes_tail List.mem_cons_self
              (Or.inr hNe.symm) with ⟨c, hC, _, hPos⟩
          have hBehind : e.pos < top := hPos ▸ hAfter c hC
          exact
            Or.inr (hBehind.trans (hLeast t hTail)).ne

/- One event. -/
theorem Between.step
    (hNested : Nested (before ++ e :: after))
    (hNodup : (targets (before ++ e :: after)).Nodup)
    (hBetween : Between before (e :: after) stack) :
    Between (before ++ [e]) after
      (NestedRegions.step stack e) := by
  rcases e with ⟨pos, kind⟩
  cases kind with
  | opening ends => exact hBetween.opening hNested hNodup rfl
  | closing => exact hBetween.closing hNested
  | plain =>
      refine ⟨hBetween.sorted, ?_, ?_⟩
      · intro t hMem
        rw [targets_append]
        exact List.mem_append_left _ (hBetween.opened t hMem)
      · intro t hMem
        apply hBetween.closes_tail hMem
        exact Or.inl (fun hEq => nomatch hEq)

/- All events. -/
theorem Between.run :
    ∀ (after before : List (Event κ)) (stack : List κ),
      Nested (before ++ after) →
        (targets (before ++ after)).Nodup →
          Between before after stack →
            Between (before ++ after) []
              (NestedRegions.run stack after) := by
  intro after
  induction after with
  | nil =>
      intro before stack _ _ hBetween
      rw [List.append_nil]
      exact hBetween
  | cons e after ih =>
      intro before stack hNested hNodup hBetween
      have hStep := hBetween.step hNested hNodup
      rw [List.append_cons] at hNested hNodup ⊢
      exact ih _ _ hNested hNodup hStep

/- The stack ends empty if no two regions close together. -/
theorem run_eq_nil_iff
    {events : List (Event κ)}
    (hNested : Nested events) :
    run [] events = [] ↔ (targets events).Nodup := by
  constructor
  · intro hEmpty
    rcases perm_run events [] with ⟨popped, hSub, hPerm⟩
    rw [hEmpty, List.append_nil, List.nil_append] at hPerm
    apply hPerm.nodup_iff.mp
    exact (nodup_closings hNested.ordered).sublist hSub
  · intro hNodup
    have hEnd :=
      Between.run events [] [] hNested hNodup
        (between_nil events)
    apply List.eq_nil_iff_forall_not_mem.mpr
    intro t hMem
    rcases hEnd.closes t hMem with ⟨c, hC, _⟩
    cases hC

end NestedRegions

------
-- First Members
------

namespace NestedRegions

/-
  The first member of a line is the first one of a part of it
  exactly if the part has one in front of each other member.
-/
theorem find?_eq_find?_iff
    {α κ : Type}
    [LinearOrder κ]
    {pos : α → κ}
    {inside own : α → Bool}
    (hPart : ∀ x, own x → inside x)
    (l : List α)
    (hOrdered : l.Pairwise (fun a b => pos a < pos b)) :
    l.find? inside = l.find? own ↔
      ∀ x ∈ l, inside x →
        own x ∨ ∃ y ∈ l, own y ∧ pos y < pos x := by
  induction l with
  | nil => simp
  | cons a rest ih =>
      rcases List.pairwise_cons.mp hOrdered with
        ⟨hHead, hRest⟩
      by_cases hOwn : own a
      · rw [List.find?_cons_of_pos (hPart a hOwn),
          List.find?_cons_of_pos hOwn]
        refine ⟨fun _ x hX _ => ?_, fun _ => rfl⟩
        rcases List.mem_cons.mp hX with hSelf | hLater
        · exact Or.inl (hSelf ▸ hOwn)
        · exact
            Or.inr
              ⟨a, List.mem_cons_self, hOwn, hHead x hLater⟩
      · rw [List.find?_cons_of_neg hOwn]
        by_cases hInside : inside a
        · rw [List.find?_cons_of_pos hInside]
          constructor
          · intro hSome
            exact absurd (List.find?_some hSome.symm) hOwn
          · intro hAll
            rcases hAll a List.mem_cons_self hInside with
              hSelf | ⟨y, hY, hOwnY, hLt⟩
            · exact absurd hSelf hOwn
            · rcases List.mem_cons.mp hY with hSelf | hLater
              · rw [hSelf] at hLt
                exact absurd hLt (lt_irrefl _)
              · have hBehind := hHead y hLater
                exact absurd hLt (not_lt.mpr hBehind.le)
        · rw [List.find?_cons_of_neg hInside, ih hRest]
          have hOther :
              ∀ y, own y → y ∈ a :: rest → y ∈ rest := by
            intro y hY hMem
            rcases List.mem_cons.mp hMem with hSelf | hLater
            · exact absurd (hSelf ▸ hY) hOwn
            · exact hLater
          constructor
          · intro hAll x hX hIn
            rcases List.mem_cons.mp hX with hSelf | hLater
            · exact absurd (hSelf ▸ hIn) hInside
            · rcases hAll x hLater hIn with
                hOwnX | ⟨y, hY, hOwnY, hLt⟩
              · exact Or.inl hOwnX
              · exact
                  Or.inr
                    ⟨y, List.mem_cons_of_mem _ hY, hOwnY, hLt⟩
          · intro hAll x hX hIn
            rcases hAll x (List.mem_cons_of_mem _ hX) hIn with
              hOwnX | ⟨y, hY, hOwnY, hLt⟩
            · exact Or.inl hOwnX
            · exact Or.inr ⟨y, hOther y hOwnY hY, hOwnY, hLt⟩

end NestedRegions
