import Mathlib.Algebra.Group.Int.Defs
import Mathlib.Algebra.GroupWithZero.Nat
import Mathlib.Data.Nat.Notation

/-
  Fixed-width integer types of the emulator.

  A floating-point register is kept as its bit pattern, since
  the register file only stores and reinterprets it.
-/

------
-- Fixed-Width Integers
------

namespace M1Switch

abbrev U8 := BitVec 8
abbrev U32 := BitVec 32
abbrev U64 := BitVec 64

/- An IEEE single-precision value, as its bit pattern. -/
abbrev F32Bits := BitVec 32

/- Register arrays are not empty: numerals index them. -/
instance neZeroThree : NeZero 3 := ⟨by decide⟩
instance neZeroFour : NeZero 4 := ⟨by decide⟩
instance neZeroSix : NeZero 6 := ⟨by decide⟩
instance neZeroEight : NeZero 8 := ⟨by decide⟩
instance neZeroSixteen : NeZero 16 := ⟨by decide⟩
instance neZeroThirtyTwo : NeZero 32 := ⟨by decide⟩

end M1Switch
