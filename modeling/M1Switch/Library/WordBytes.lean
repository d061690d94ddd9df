import Mathlib.Algebra.Group.Int.Defs
import Mathlib.Algebra.GroupWithZero.Nat
import Mathlib.Data.Nat.Notation

/-
  The bytes of a machine word.

  Key definitions include:
    * `byte`

  Main results:
    * `byte_shiftLeft`
    * `byte_eq_zero`
    * `eq_iff_bytes`
-/

------
-- Bytes
------

namespace WordBytes

variable {w v : Nat}

/- The byte with number `j`, the lowest being 0. -/
def byte (x : BitVec w) (j : Nat) : BitVec 8 :=
  x.extractLsb' (8 * j) 8

theorem byte_xor
    (x y : BitVec w)
    (j : Nat) :
    byte (x ^^^ y) j = byte x j ^^^ byte y j :=
  BitVec.extractLsb'_xor

/- A shift by whole bytes moves bytes. -/
theorem byte_shiftLeft
    (x : BitVec w)
    {s j : Nat}
    (hJ : 8 * j + 8 ≤ w) :
    byte (x <<< (8 * s)) j =
      if j < s then 0 else byte x (j - s) := by
  unfold byte
  apply BitVec.eq_of_getLsbD_eq
  intro i hI
  rw [BitVec.getLsbD_extractLsb', BitVec.getLsbD_shiftLeft]
  by_cases hLow : j < s
  · have hBit : 8 * j + i < 8 * s := by omega
    simp [hLow, hBit]
  · have hBit : ¬ 8 * j + i < 8 * s := by omega
    have hWord : 8 * j + i < w := by omega
    have hPos : 8 * j + i - 8 * s = 8 * (j - s) + i := by
      omega
    simp [hLow, hBit, hWord, hPos, BitVec.getLsbD_extractLsb']

/- Widening keeps the bytes. -/
theorem byte_setWidth
    (x : BitVec w)
    {j : Nat}
    (hJ : 8 * j + 8 ≤ v) :
    byte (x.setWidth v) j = byte x j := by
  unfold byte
  apply BitVec.eq_of_getLsbD_eq
  intro i hI
  have hWord : 8 * j + i < v := by omega
  simp [BitVec.getLsbD_extractLsb', hWord]

/- There is nothing above a small number. -/
theorem byte_eq_zero
    {x : BitVec w}
    {j : Nat}
    (hX : x.toNat < 2 ^ (8 * j)) :
    byte x j = 0 := by
  unfold byte
  apply BitVec.eq_of_toNat_eq
  rw [BitVec.extractLsb'_toNat, Nat.shiftRight_eq_div_pow,
    Nat.div_eq_of_lt hX]
  rfl

/- A word is the list of its bytes. -/
theorem eq_iff_bytes
    {n : Nat}
    {x y : BitVec w}
    (hW : w = 8 * n) :
    x = y ↔ ∀ j < n, byte x j = byte y j := by
  refine ⟨fun hEq j _ => by rw [hEq], ?_⟩
  intro hBytes
  apply BitVec.eq_of_getLsbD_eq
  intro i hI
  have hByte := hBytes (i / 8) (by omega)
  have hBit := congrArg (fun b => b.getLsbD (i % 8)) hByte
  have hSmall : i % 8 < 8 := Nat.mod_lt i (by decide)
  have hPos : 8 * (i / 8) + i % 8 = i := Nat.div_add_mod i 8
  simpa [byte, BitVec.getLsbD_extractLsb', hSmall, hPos]
    using hBit

end WordBytes
