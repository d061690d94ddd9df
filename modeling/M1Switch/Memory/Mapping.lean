import M1Switch.Common.Types

/-
  How guest memory is mapped on the host.

  The host maps whole pages of 16 KiB, the guest asks for pages
  of 4 KiB.  A request is widened to the host pages it touches,
  and these are released before they are mapped again, so that
  whatever was in them is gone.  Whether the host maps them is
  an argument of the request.

  Key definitions include:
    * `HostMemory`
    * `mapPhysical`

  Main results:
    * `mapPhysical_of_mappable`
-/

------
-- Alignment
------

namespace M1Switch

def alignUp (value alignment : U64) : U64 :=
  (value + alignment - 1) &&& ~~~(alignment - 1)

def isAligned (value alignment : U64) : Bool :=
  value &&& (alignment - 1) = 0

/- A number is what a mask keeps and what it drops. -/
theorem toNat_and_add_and_not (x mask : U64) :
    (x &&& mask).toNat + (x &&& ~~~mask).toNat = x.toNat := by
  have hApart : (x &&& mask) &&& (x &&& ~~~mask) = 0#64 := by
    ext i hI
    simp only [BitVec.getElem_and, BitVec.getElem_not,
      BitVec.getElem_zero]
    cases x[i] <;> cases mask[i] <;> rfl
  have hWhole : (x &&& mask) + (x &&& ~~~mask) = x := by
    rw [BitVec.add_eq_or_of_and_eq_zero _ _ hApart]
    ext i hI
    simp only [BitVec.getElem_or, BitVec.getElem_and,
      BitVec.getElem_not]
    cases x[i] <;> cases mask[i] <;> rfl
  rw [← BitVec.toNat_add_of_and_eq_zero hApart, hWhole]

/- Rounding up adds less than the alignment. -/
theorem alignUp_bounds
    {x a : U64}
    (hPos : 0 < a.toNat)
    (hFits : x.toNat + a.toNat < 2 ^ 64) :
    x.toNat ≤ (alignUp x a).toNat ∧
      (alignUp x a).toNat < x.toNat + a.toNat := by
  have hSub : (a - 1).toNat = a.toNat - 1 := by
    rw [BitVec.toNat_sub]
    show (2 ^ 64 - 1 + a.toNat) % 2 ^ 64 = _
    omega
  have hSum : (x + a - 1).toNat = x.toNat + a.toNat - 1 := by
    rw [BitVec.toNat_sub, BitVec.toNat_add]
    show (2 ^ 64 - 1 + (x.toNat + a.toNat) % 2 ^ 64) %
      2 ^ 64 = _
    omega
  have hMask := toNat_and_add_and_not (x + a - 1) (a - 1)
  have hLow : ((x + a - 1) &&& (a - 1)).toNat ≤ a.toNat - 1 := by
    rw [BitVec.toNat_and, ← hSub]
    exact Nat.and_le_right
  unfold alignUp
  rw [hSum] at hMask
  omega

/- The lowest bits are the remainder. -/
theorem toNat_and_mask
    {k : Nat}
    (hK : k < 64)
    (x : U64) :
    (x &&& (BitVec.ofNat 64 (2 ^ k) - 1)).toNat =
      x.toNat % 2 ^ k := by
  have hPow : 2 ^ k < 2 ^ 64 :=
    Nat.pow_lt_pow_right (by decide) hK
  have hPos : 0 < 2 ^ k := Nat.two_pow_pos k
  have hMask : (BitVec.ofNat 64 (2 ^ k) - 1).toNat = 2 ^ k - 1 := by
    rw [BitVec.toNat_sub, BitVec.toNat_ofNat]
    show (2 ^ 64 - 1 + 2 ^ k % 2 ^ 64) % 2 ^ 64 = _
    rw [Nat.mod_eq_of_lt hPow]
    omega
  rw [BitVec.toNat_and, hMask, Nat.and_two_pow_sub_one_eq_mod]

/- Rounding up gives the next multiple. -/
theorem toNat_alignUp
    {k : Nat}
    (hK : k < 64)
    {x : U64}
    (hFits : x.toNat + 2 ^ k < 2 ^ 64) :
    (alignUp x (BitVec.ofNat 64 (2 ^ k))).toNat =
      (x.toNat + (2 ^ k - 1)) / 2 ^ k * 2 ^ k := by
  have hPow : 2 ^ k < 2 ^ 64 :=
    Nat.pow_lt_pow_right (by decide) hK
  have hPos : 0 < 2 ^ k := Nat.two_pow_pos k
  have hSum :
      (x + BitVec.ofNat 64 (2 ^ k) - 1).toNat =
        x.toNat + (2 ^ k - 1) := by
    rw [BitVec.toNat_sub, BitVec.toNat_add, BitVec.toNat_ofNat]
    show (2 ^ 64 - 1 + (x.toNat + 2 ^ k % 2 ^ 64) % 2 ^ 64) %
      2 ^ 64 = _
    rw [Nat.mod_eq_of_lt hPow]
    omega
  have hMask :=
    toNat_and_add_and_not (x + BitVec.ofNat 64 (2 ^ k) - 1)
      (BitVec.ofNat 64 (2 ^ k) - 1)
  have hDiv := Nat.div_add_mod (x.toNat + (2 ^ k - 1)) (2 ^ k)
  rw [toNat_and_mask hK, hSum] at hMask
  rw [Nat.mul_comm] at hDiv
  unfold alignUp
  omega

theorem isAligned_iff
    {k : Nat}
    (hK : k < 64)
    (x : U64) :
    isAligned x (BitVec.ofNat 64 (2 ^ k)) = true ↔
      2 ^ k ∣ x.toNat := by
  unfold isAligned
  rw [decide_eq_true_iff, ← BitVec.toNat_inj,
    toNat_and_mask hK]
  exact (Nat.dvd_iff_mod_eq_zero ..).symm

------
-- Mapping
------

/- The results of a mapping. -/
inductive Result where
  | Success
  | InvalidArgument
  | OutOfMemory
deriving DecidableEq

inductive Permission where
  | None
  | R
  | W
  | RW
  | X
  | RX
  | RWX
deriving DecidableEq

/- The bytes the host has mapped, and the requests that have
been granted. -/
structure HostMemory where
  bytes : Nat → Option U8 := fun _ => none
  pages : U64 → Option (U64 × Permission) := fun _ => none

namespace HostMemory

def ADDR_SPACE_SIZE : U64 := 0x100000000
def PAGE_SIZE : U64 := 0x1000
def HOST_PAGE : U64 := 0x4000
def baseAddr : U64 := 0x300000000

/- The addresses of a request, which may run over the end. -/
def Requested (address size a : U64) : Prop :=
  a - address < size

instance (address size a : U64) :
    Decidable (Requested address size a) :=
  inferInstanceAs (Decidable (_ < _))

/- What the guest has at an address. -/
def guestByte (mem : HostMemory) (a : Nat) : Option U8 :=
  mem.bytes (baseAddr.toNat + a)

/- The guest writes to memory that is mapped. -/
def store
    (mem : HostMemory)
    (a : Nat)
    (value : U8) : HostMemory :=
  { mem with
    bytes := fun i =>
      if i = baseAddr.toNat + a ∧ (mem.bytes i).isSome then
        some value
      else mem.bytes i }

/- The host refuses a range that runs past its own space. -/
def hostAccepts (start size : U64) : Bool :=
  start.toNat + size.toNat < 2 ^ 64

/- Release a range of host memory. -/
def deallocate
    (mem : HostMemory)
    (start size : U64) : HostMemory :=
  if hostAccepts start size then
    { mem with
      bytes := fun i =>
        if start.toNat ≤ i ∧ i < start.toNat + size.toNat then
          none
        else mem.bytes i }
  else mem

/- Map a range of host memory, filled with zeros. -/
def allocate
    (mem : HostMemory)
    (start size : U64) : HostMemory :=
  { mem with
    bytes := fun i =>
      if start.toNat ≤ i ∧ i < start.toNat + size.toNat then
        some 0
      else mem.bytes i }

/- Copy the data a request comes with. -/
def copyData
    (mem : HostMemory)
    (start size : U64)
    (data : Option (Nat → U8)) : HostMemory :=
  match data with
  | some source =>
      { mem with
        bytes := fun i =>
          if start.toNat ≤ i ∧
              i < start.toNat + size.toNat then
            some (source (i - start.toNat))
          else mem.bytes i }
  | none => mem

/- The bytes of the host pages a request touches. -/
def mapSize (address size : U64) : U64 :=
  (size + ((baseAddr + address) &&& (HOST_PAGE - 1)) +
    HOST_PAGE - 1) / HOST_PAGE * HOST_PAGE

/- Where they start. -/
def mapAddr (address : U64) : U64 :=
  (baseAddr + address) &&& ~~~(HOST_PAGE - 1)

/-
  Whatever was in the host pages is released first, also when
  the host does not map them again.
-/
def mapPhysical
    (mem : HostMemory)
    (address size : U64)
    (perm : Permission)
    (data : Option (Nat → U8))
    (hostMaps : Bool) : Result × HostMemory :=
  if !isAligned address PAGE_SIZE ∨
      !isAligned size PAGE_SIZE then
    (.InvalidArgument, mem)
  else if address + size > ADDR_SPACE_SIZE then
    (.InvalidArgument, mem)
  else
    let mem :=
      mem.deallocate (mapAddr address) (mapSize address size)
    if hostMaps &&
        hostAccepts (mapAddr address) (mapSize address size) then
      let mem :=
        (mem.allocate (mapAddr address)
          (mapSize address size)).copyData
            (baseAddr + address) size data
      (.Success,
        { mem with
          pages := fun a =>
            if a = address then some (size, perm)
            else mem.pages a })
    else (.OutOfMemory, mem)

/- Whether a request gets as far as the host. -/
def Mappable (address size : U64) : Prop :=
  isAligned address PAGE_SIZE = true ∧
    isAligned size PAGE_SIZE = true ∧
    address + size ≤ ADDR_SPACE_SIZE

instance (address size : U64) :
    Decidable (Mappable address size) :=
  inferInstanceAs (Decidable (_ ∧ _))

variable {mem : HostMemory} {address size : U64}
variable {perm : Permission} {hostMaps : Bool}

/- A request that does not get there changes nothing. -/
theorem mapPhysical_of_not_mappable
    {data : Option (Nat → U8)}
    (hNot : ¬ Mappable address size) :
    mem.mapPhysical address size perm data hostMaps =
      (.InvalidArgument, mem) := by
  unfold mapPhysical
  split
  · rfl
  · next hAligned =>
      split
      · rfl
      · next hEnd =>
          exfalso
          simp only [Bool.not_eq_true', not_or,
            Bool.not_eq_false] at hAligned
          exact
            hNot ⟨hAligned.1, hAligned.2,
              BitVec.not_lt.mp hEnd⟩

/- The first guest address of the host pages. -/
def firstPage (address : Nat) : Nat :=
  address / 0x4000 * 0x4000

/- How much memory they have. -/
def pageBytes (address size : Nat) : Nat :=
  (size + address % 0x4000 + 0x3fff) / 0x4000 * 0x4000

theorem toNat_mapAddr
    (hEnd : address.toNat < 2 ^ 33) :
    (mapAddr address).toNat =
      baseAddr.toNat + firstPage address.toNat := by
  have hMask :=
    toNat_and_add_and_not (baseAddr + address) (HOST_PAGE - 1)
  have hLow :=
    toNat_and_mask (by decide : 14 < 64) (baseAddr + address)
  have hSum :
      (baseAddr + address).toNat =
        0x300000000 + address.toNat := by
    rw [BitVec.toNat_add]
    show (0x300000000 + address.toNat) % 2 ^ 64 = _
    omega
  unfold mapAddr firstPage
  rw [hSum] at hMask hLow
  change ((baseAddr + address) &&& (HOST_PAGE - 1)).toNat = _
    at hLow
  rw [hLow] at hMask
  show _ = 0x300000000 + _
  omega

theorem toNat_mapSize
    (hAddress : address.toNat < 2 ^ 33)
    (hSize : size.toNat < 2 ^ 33) :
    (mapSize address size).toNat =
      pageBytes address.toNat size.toNat := by
  have hLow :=
    toNat_and_mask (by decide : 14 < 64) (baseAddr + address)
  have hSum :
      (baseAddr + address).toNat =
        0x300000000 + address.toNat := by
    rw [BitVec.toNat_add]
    show (0x300000000 + address.toNat) % 2 ^ 64 = _
    omega
  change ((baseAddr + address) &&& (HOST_PAGE - 1)).toNat = _
    at hLow
  unfold mapSize pageBytes
  rw [BitVec.toNat_mul, BitVec.toNat_udiv, BitVec.toNat_sub,
    BitVec.toNat_add, BitVec.toNat_add, hLow, hSum]
  show (2 ^ 64 - 1 + ((size.toNat + _) % 2 ^ 64 + 0x4000) %
    2 ^ 64) % 2 ^ 64 / 0x4000 * 0x4000 % 2 ^ 64 = _
  omega

/- The host takes any range of its pages for the guest. -/
theorem hostAccepts_pages
    (hAddress : address.toNat < 2 ^ 33)
    (hSize : size.toNat < 2 ^ 33) :
    hostAccepts (mapAddr address) (mapSize address size) =
      true := by
  unfold hostAccepts
  rw [toNat_mapAddr hAddress, toNat_mapSize hAddress hSize,
    decide_eq_true_iff]
  show 0x300000000 + _ + _ < _
  unfold firstPage pageBytes
  omega

/- Whether a guest address is in the pages of a range. -/
theorem mem_pages_iff
    (hAddress : address.toNat < 2 ^ 33)
    (hSize : size.toNat < 2 ^ 33)
    (a : Nat) :
    ((mapAddr address).toNat ≤ baseAddr.toNat + a ∧
        baseAddr.toNat + a <
          (mapAddr address).toNat +
            (mapSize address size).toNat) ↔
      (firstPage address.toNat ≤ a ∧
        a < firstPage address.toNat +
          pageBytes address.toNat size.toNat) := by
  rw [toNat_mapAddr hAddress, toNat_mapSize hAddress hSize]
  omega

/- A range that is released has no bytes. -/
theorem bytes_deallocate
    {start : U64}
    (hAccepts : hostAccepts start size = true)
    (i : Nat) :
    (mem.deallocate start size).bytes i =
      if start.toNat ≤ i ∧ i < start.toNat + size.toNat then
        none
      else mem.bytes i := by
  unfold deallocate
  rw [if_pos hAccepts]

/- What a request that gets to the host leaves behind. -/
theorem mapPhysical_of_mappable
    (hMappable : Mappable address size)
    (hAddress : address.toNat < 2 ^ 33)
    (hSize : size.toNat < 2 ^ 33) :
    (mem.mapPhysical address size perm none hostMaps).1 =
        (if hostMaps then .Success else .OutOfMemory) ∧
      ∀ a,
        (mem.mapPhysical address size perm none
            hostMaps).2.guestByte a =
          if firstPage address.toNat ≤ a ∧
              a < firstPage address.toNat +
                pageBytes address.toNat size.toNat then
            if hostMaps then some 0 else none
          else mem.guestByte a := by
  rcases hMappable with ⟨hAligned, hAligned', hEnd⟩
  have hTaken := hostAccepts_pages hAddress hSize
  have hIn := mem_pages_iff hAddress hSize
  unfold mapPhysical
  rw [if_neg (by simp [hAligned, hAligned']),
    if_neg (BitVec.not_lt.mpr hEnd), hTaken, Bool.and_true]
  cases hostMaps with
  | true =>
      refine ⟨rfl, ?_⟩
      intro a
      simp only [guestByte, copyData, allocate, deallocate,
        hTaken, hIn, if_true]
      split <;> rfl
  | false =>
      refine ⟨rfl, ?_⟩
      intro a
      rw [if_neg Bool.false_ne_true, if_neg Bool.false_ne_true]
      show (mem.deallocate _ _).guestByte a = _
      rw [guestByte, bytes_deallocate hTaken]
      simp only [hIn]
      rfl

end HostMemory

end M1Switch
