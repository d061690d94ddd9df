import M1Switch.Common.Types

/-
  Guest memory, as the GPU reads it and the guest writes it.

  The address space is one host mapping, so a valid address
  gives a pointer from which any byte behind it can be read.

  Key definitions include:
    * `Memory`
    * `pointer`
-/

------
-- Guest Memory
------

namespace M1Switch

/- The bytes of the guest address space. -/
structure Memory where
  bytes : Nat → U8

namespace Memory

def ADDR_SPACE_SIZE : Nat := 2 ^ 32

def isValid (address : U64) : Bool :=
  address.toNat < ADDR_SPACE_SIZE

/- The bytes from an address on; null when not valid. -/
def pointer
    (mem : Memory)
    (address : U64) : Option (Nat → U8) :=
  if isValid address then
    some fun i => mem.bytes (address.toNat + i)
  else none

/- The bytes a value of `size` bytes is written to. -/
def InRange (address : U64) (size i : Nat) : Prop :=
  address.toNat ≤ i ∧ i < address.toNat + size

instance (address : U64) (size i : Nat) :
    Decidable (InRange address size i) :=
  inferInstanceAs (Decidable (_ ∧ _))

/- Write the bytes of a value; nothing when it fails. -/
def write
    (mem : Memory)
    (address : U64)
    (value : List U8) : Option Memory :=
  if !isValid address ∨
      address.toNat + value.length > ADDR_SPACE_SIZE then none
  else
    some
      { bytes := fun i =>
          if InRange address value.length i then
            value.getD (i - address.toNat) 0
          else mem.bytes i }

end Memory

end M1Switch
