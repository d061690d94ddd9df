import Mathlib.Data.List.Basic

/-
  Lists whose elements are checked against what precedes them.

  The check of an element may use the elements in front of it,
  such as the definitions a statement refers to.

  Key definitions include:
    * `Prefixes.Checked`

  Main results:
    * `checked_append`
    * `at`
-/

------
-- Checked Lists
------

namespace Prefixes

variable {α : Type} {P Q : List α → α → Prop}
variable {a b c : List α}

/- Every element of the second list passes the check. -/
def Checked (P : List α → α → Prop) :
    List α → List α → Prop
| _, [] => True
| a, x :: xs => P a x ∧ Checked P (a ++ [x]) xs

instance Checked.decidable
    [∀ a x, Decidable (P a x)] :
    ∀ a b : List α, Decidable (Checked P a b)
| _, [] => isTrue trivial
| a, x :: xs =>
    have := Checked.decidable (a ++ [x]) xs
    inferInstanceAs (Decidable (_ ∧ _))

theorem checked_singleton
    {x : α}
    (hX : P a x) :
    Checked P a [x] :=
  ⟨hX, trivial⟩

/- Checks of two lists in a row. -/
theorem checked_append :
    Checked P a (b ++ c) ↔
      Checked P a b ∧ Checked P (a ++ b) c := by
  induction b generalizing a with
  | nil => simp [Checked]
  | cons x xs ih =>
      simp only [List.cons_append, Checked, ih,
        List.append_assoc, List.nil_append, and_assoc]

/- The check of one element. -/
theorem Checked.at
    {x : α}
    (hChecked : Checked P a (b ++ x :: c)) :
    P (a ++ b) x :=
  (checked_append.mp hChecked).2.1

/- A weaker check. -/
theorem Checked.mono
    (hImp : ∀ a x, P a x → Q a x)
    (hChecked : Checked P a b) :
    Checked Q a b := by
  induction b generalizing a with
  | nil => trivial
  | cons x xs ih =>
      exact ⟨hImp a x hChecked.1, ih hChecked.2⟩

/- A check that holds of elements alone. -/
theorem checked_of_forall
    (hAll : ∀ a, ∀ x ∈ b, P a x) :
    Checked P a b := by
  induction b generalizing a with
  | nil => trivial
  | cons x xs ih =>
      refine ⟨hAll a x List.mem_cons_self, ih ?_⟩
      intro a' y hY
      exact hAll a' y (List.mem_cons_of_mem x hY)

end Prefixes
