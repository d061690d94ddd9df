import Mathlib.Algebra.Order.Ring.Nat
import Mathlib.Data.Nat.Bitwise

/-
  Bit fields joined into a number.

  A field is a range of bits, and fields may overlap.  Values
  that fit their fields and agree on the bits they share are
  joined bit by bit, and every one of them is read back.

  Key definitions include:
    * `BitFields.Field`
    * `join`

  Main results:
    * `extract_join`
-/

------
-- Joining
------

namespace BitFields

/- The bits from `lo` on. -/
structure Field where
  lo : Nat
  width : Nat
deriving DecidableEq, Repr

def extract (f : Field) (n : Nat) : Nat :=
  n / 2 ^ f.lo % 2 ^ f.width

variable {I : Type}

/- The number with a value in each field. -/
def join
    (range : I → Field)
    (value : I → Nat) : List I → Nat
| [] => 0
| i :: is => value i <<< (range i).lo ||| join range value is

/- Seen through a field, no other value sets a bit that the
field's own value does not. -/
def Agree
    (range : I → Field)
    (value : I → Nat)
    (is : List I) : Prop :=
  ∀ i ∈ is, ∀ j ∈ is,
    extract (range i) (value j <<< (range j).lo) ||| value i =
      value i

/- A value that is zero sets no bit. -/
theorem agree_iff_of_nonzero
    (range : I → Field)
    (value : I → Nat)
    (is : List I) :
    (∀ j ∈ is, value j ≠ 0 → ∀ i ∈ is,
        extract (range i) (value j <<< (range j).lo) |||
            value i =
          value i) ↔
      Agree range value is := by
  constructor
  · intro hSome i hI j hJ
    by_cases hZero : value j = 0
    · rw [hZero, Nat.zero_shiftLeft, extract, Nat.zero_div,
        Nat.zero_mod, Nat.zero_or]
    · exact hSome j hJ hZero i hI
  · intro hAgree j hJ _ i hI
    exact hAgree i hI j hJ

instance
    (range : I → Field)
    (value : I → Nat)
    (is : List I) :
    Decidable (Agree range value is) :=
  decidable_of_iff _ (agree_iff_of_nonzero range value is)

------
-- Reading Back
------

variable {range : I → Field} {value : I → Nat} {i : I}
variable {is : List I}

/- The bits of a field, as bits of the number. -/
theorem testBit_extract (f : Field) (n k : Nat) :
    (extract f n).testBit k =
      (decide (k < f.width) && n.testBit (f.lo + k)) := by
  unfold extract
  rw [Nat.testBit_mod_two_pow, Nat.testBit_div_two_pow,
    Nat.add_comm]

/- A field reads back the value that is put there. -/
theorem extract_shiftLeft
    {f : Field}
    {v : Nat}
    (hValue : v < 2 ^ f.width) :
    extract f (v <<< f.lo) = v := by
  unfold extract
  rw [Nat.shiftLeft_eq,
    Nat.mul_div_cancel _ (Nat.two_pow_pos _),
    Nat.mod_eq_of_lt hValue]

/- A single field agrees with itself. -/
theorem agree_singleton
    (hValue : value i < 2 ^ (range i).width) :
    Agree range value [i] := by
  intro j hJ l hL
  rw [List.mem_singleton] at hJ hL
  subst hJ hL
  rw [extract_shiftLeft hValue, Nat.or_self]

/- The bits of the number are those of the values. -/
theorem testBit_join (b : Nat) :
    (join range value is).testBit b = true ↔
      ∃ i ∈ is, (range i).lo ≤ b ∧
        (value i).testBit (b - (range i).lo) = true := by
  induction is with
  | nil => simp [join]
  | cons i is ih =>
      rw [join, Nat.testBit_or, Bool.or_eq_true, ih,
        Nat.testBit_shiftLeft, Bool.and_eq_true,
        decide_eq_true_eq]
      simp

/- Every joined value is read back. -/
theorem extract_join
    (hValues : ∀ j ∈ is, value j < 2 ^ (range j).width)
    (hAgree : Agree range value is)
    (hI : i ∈ is) :
    extract (range i) (join range value is) = value i := by
  apply Nat.eq_of_testBit_eq
  intro k
  rw [testBit_extract, Bool.eq_iff_iff, Bool.and_eq_true,
    decide_eq_true_eq, testBit_join]
  constructor
  · rintro ⟨hK, j, hJ, hLo, hBit⟩
    have hSeen := congrArg (Nat.testBit · k) (hAgree i hI j hJ)
    simp only [Nat.testBit_or, testBit_extract,
      Nat.testBit_shiftLeft] at hSeen
    simpa [hK, hLo, hBit] using hSeen
  · intro hBit
    have hK : k < (range i).width := by
      by_contra hLarge
      have hHigh :=
        Nat.testBit_lt_two_pow
          ((hValues i hI).trans_le
            (Nat.pow_le_pow_right (by decide)
              (Nat.le_of_not_lt hLarge)))
      exact absurd hBit (by simp [hHigh])
    refine ⟨hK, i, hI, Nat.le_add_right _ _, ?_⟩
    rwa [Nat.add_sub_cancel_left]

end BitFields
