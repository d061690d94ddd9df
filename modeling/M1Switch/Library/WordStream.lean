import Mathlib.Order.Basic

/-
  Streams of one-word and two-word instructions.

  A sweep starts at a word, moves on by one word or by two,
  and ends behind a word that stops it.  Which words it comes
  to can be told without following it: a word starts an
  instruction exactly if the long words directly before it are
  even in number.

  Key definitions include:
    * `WordStream.Reached`
    * `longRun`

  Main results:
    * `starts_succ_iff`
    * `reached_iff`
    * `reached_zero_iff`
-/

------
-- Sweeps
------

namespace WordStream

/- Words from the start of one instruction to the next. -/
def advance (long : Nat → Bool) (k : Nat) : Nat :=
  if long k then 2 else 1

/- The words a sweep from `k` comes to. -/
inductive Reached (long stops : Nat → Bool) :
    Nat → Nat → Prop
| here (k : Nat) : Reached long stops k k
| step {k j : Nat} :
    stops k = false →
      Reached long stops (k + advance long k) j →
        Reached long stops k j

/- The number of long words directly before a word. -/
def longRun (long : Nat → Bool) : Nat → Nat
| 0 => 0
| k + 1 => if long k then longRun long k + 1 else 0

/- The word starts an instruction. -/
def Starts (long : Nat → Bool) (k : Nat) : Prop :=
  longRun long k % 2 = 0

/- No instruction from `i` on and before `k` stops a sweep. -/
def Unstopped
    (long stops : Nat → Bool)
    (i k : Nat) : Prop :=
  ∀ j, i ≤ j → j < k → Starts long j → stops j = false

------
-- Where Instructions Start
------

variable {long stops : Nat → Bool} {k j : Nat}

theorem starts_zero : Starts long 0 :=
  rfl

/- Only the second word of an instruction starts none. -/
theorem starts_succ_iff {k : Nat} :
    Starts long (k + 1) ↔ ¬ (Starts long k ∧ long k) := by
  unfold Starts
  rw [longRun]
  by_cases hLong : long k
  · rw [if_pos hLong]
    simp only [hLong, and_true]
    omega
  · simp [hLong]

theorem advance_of_long
    {k : Nat}
    (hLong : long k) :
    advance long k = 2 :=
  if_pos hLong

theorem advance_of_short
    {k : Nat}
    (hShort : ¬ long k) :
    advance long k = 1 :=
  if_neg hShort

theorem lt_add_advance (k : Nat) :
    k < k + advance long k := by
  unfold advance
  split_ifs <;> omega

/- Behind an instruction another one starts. -/
theorem Starts.advance
    {k : Nat}
    (hStarts : Starts long k) :
    Starts long (k + advance long k) := by
  by_cases hLong : long k
  · rw [advance_of_long hLong]
    have hSecond : ¬ Starts long (k + 1) := by
      rw [starts_succ_iff, not_not]
      exact ⟨hStarts, hLong⟩
    apply starts_succ_iff.mpr
    exact fun hBoth => hSecond hBoth.1
  · rw [advance_of_short hLong]
    apply starts_succ_iff.mpr
    exact fun hBoth => hLong hBoth.2

/- Between the two, none does. -/
theorem Starts.le_of_lt
    (hStarts : Starts long k)
    (hJ : Starts long j)
    (hLt : k < j) :
    k + WordStream.advance long k ≤ j := by
  by_cases hLong : long k
  · rw [advance_of_long hLong]
    by_contra hNear
    have hSecond : j = k + 1 := by omega
    rw [hSecond, starts_succ_iff] at hJ
    exact hJ ⟨hStarts, hLong⟩
  · rw [advance_of_short hLong]
    omega

------
-- What A Sweep Comes To
------

theorem Reached.le
    (hReached : Reached long stops k j) :
    k ≤ j := by
  induction hReached with
  | here k => exact Nat.le_refl k
  | @step k j _ _ ih =>
      have hFar : k < k + advance long k := lt_add_advance k
      omega

theorem reached_cases
    (hReached : Reached long stops k j) :
    j = k ∨
      stops k = false ∧
        Reached long stops (k + advance long k) j := by
  cases hReached with
  | here => exact Or.inl rfl
  | step hGoes hRest => exact Or.inr ⟨hGoes, hRest⟩

theorem Reached.starts
    (hReached : Reached long stops k j)
    (hStarts : Starts long k) :
    Starts long j := by
  induction hReached with
  | here => exact hStarts
  | step _ _ ih => exact ih hStarts.advance

theorem Reached.unstopped
    (hReached : Reached long stops k j)
    (hStarts : Starts long k) :
    Unstopped long stops k j := by
  induction hReached with
  | here k =>
      intro i hLe hLt
      omega
  | @step k j hGoes _ ih =>
      intro i hLe hLt hI
      by_cases hHere : i = k
      · rw [hHere]
        exact hGoes
      · have hNext := hStarts.le_of_lt hI (by omega)
        exact ih hStarts.advance i hNext hLt hI

/- A sweep comes to each start before the first stop. -/
theorem reached_of_starts
    {j : Nat}
    (hJ : Starts long j) :
    ∀ n k : Nat,
      j = k + n → Starts long k → Unstopped long stops k j →
        Reached long stops k j := by
  intro n
  induction n using Nat.strongRecOn with
  | ind n ih =>
      intro k hSum hK hGoes
      by_cases hHere : j = k
      · rw [hHere]
        exact Reached.here k
      · have hLt : k < j := by omega
        have hNext := hK.le_of_lt hJ hLt
        have hFar : k < k + advance long k :=
          lt_add_advance k
        refine Reached.step (hGoes k (Nat.le_refl k) hLt hK) ?_
        refine ih (j - (k + advance long k)) (by omega)
          (k + advance long k) (by omega) hK.advance ?_
        intro i hLe hIlt hI
        exact hGoes i (by omega) hIlt hI

theorem reached_iff
    (hK : Starts long k) :
    Reached long stops k j ↔
      k ≤ j ∧ Starts long j ∧ Unstopped long stops k j := by
  constructor
  · intro hReached
    exact
      ⟨hReached.le, hReached.starts hK, hReached.unstopped hK⟩
  · rintro ⟨hLe, hJ, hGoes⟩
    exact reached_of_starts hJ (j - k) k (by omega) hK hGoes

/- A sweep from the first word. -/
theorem reached_zero_iff {j : Nat} :
    Reached long stops 0 j ↔
      Starts long j ∧ Unstopped long stops 0 j := by
  rw [reached_iff starts_zero]
  simp

end WordStream
