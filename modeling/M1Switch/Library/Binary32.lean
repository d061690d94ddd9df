import Mathlib.Algebra.GroupWithZero.Nat
import Mathlib.Tactic.SplitIfs

/-
  Single precision floats as 32-bit words.

  A word is a sign and a magnitude; the magnitude of a finite
  float counts multiples of `2 ^ (-149)`.  Sums and products
  are exact on these multiples and rounded once, to nearest
  with ties to even.

  Key definitions include:
    * `units`
    * `roundUnits`

  Main results:
    * `value_ofInt`
    * `value_div_two_pow`
    * `div_ofInt_inj`
-/

------
-- Words
------

namespace Binary32

def sign (x : BitVec 32) : Bool :=
  2 ^ 31 ≤ x.toNat

/- Exponent and fraction. -/
def magnitude (x : BitVec 32) : Nat :=
  x.toNat % 2 ^ 31

def pack (negative : Bool) (m : Nat) : BitVec 32 :=
  BitVec.ofNat 32 (if negative then 2 ^ 31 + m else m)

def neg (x : BitVec 32) : BitVec 32 :=
  pack (!sign x) (magnitude x)

def abs (x : BitVec 32) : BitVec 32 :=
  pack false (magnitude x)

/- Magnitude of the infinities; those above are no numbers. -/
def infinity : Nat := 0x7F800000

def nan : BitVec 32 := 0x7FC00000

def one : BitVec 32 := 0x3F800000

def IsNaN (x : BitVec 32) : Prop :=
  infinity < magnitude x

def IsInf (x : BitVec 32) : Prop :=
  magnitude x = infinity

instance (x : BitVec 32) : Decidable (IsNaN x) :=
  inferInstanceAs (Decidable (_ < _))

instance (x : BitVec 32) : Decidable (IsInf x) :=
  inferInstanceAs (Decidable (_ = _))

theorem magnitude_lt (x : BitVec 32) :
    magnitude x < 2 ^ 31 :=
  Nat.mod_lt _ (Nat.two_pow_pos 31)

variable {m : Nat} {negative : Bool}

theorem toNat_pack (hM : m < 2 ^ 31) :
    (pack negative m).toNat =
      if negative then 2 ^ 31 + m else m := by
  unfold pack
  rw [BitVec.toNat_ofNat]
  cases negative with
  | true =>
      rw [if_pos rfl]
      omega
  | false =>
      rw [if_neg Bool.false_ne_true]
      omega

theorem sign_pack (hM : m < 2 ^ 31) :
    sign (pack negative m) = negative := by
  unfold sign
  rw [toNat_pack hM]
  cases negative with
  | true => simp
  | false => simpa using hM

theorem magnitude_pack (hM : m < 2 ^ 31) :
    magnitude (pack negative m) = m := by
  unfold magnitude
  rw [toNat_pack hM]
  cases negative with
  | true =>
      rw [if_pos rfl]
      omega
  | false =>
      rw [if_neg Bool.false_ne_true]
      omega

variable (x : BitVec 32)

@[simp] theorem sign_neg : sign (neg x) = !sign x :=
  sign_pack (magnitude_lt x)

@[simp] theorem magnitude_neg :
    magnitude (neg x) = magnitude x :=
  magnitude_pack (magnitude_lt x)

@[simp] theorem magnitude_abs :
    magnitude (abs x) = magnitude x :=
  magnitude_pack (magnitude_lt x)

------
-- Rounding
------

/- Multiples of `2 ^ (-149)` in a finite magnitude. -/
def units (m : Nat) : Nat :=
  if m < 2 ^ 23 then m
  else (2 ^ 23 + m % 2 ^ 23) * 2 ^ (m / 2 ^ 23 - 1)

/- `n / 2 ^ k`, to nearest with ties to even. -/
def roundShift (n k : Nat) : Nat :=
  let quotient := n / 2 ^ k
  let rest := n % 2 ^ k
  if 2 ^ k < 2 * rest ∨
      (2 * rest = 2 ^ k ∧ quotient % 2 = 1) then
    quotient + 1
  else quotient

/-
  The magnitude of `n / 2 ^ k` units: what is above 24 bits is
  rounded off; a carry moves into the exponent.
-/
def roundUnits (n k : Nat) : Nat :=
  let dropped := Nat.log2 (n / 2 ^ k) + 1 - 24
  min (dropped * 2 ^ 23 + roundShift n (k + dropped)) infinity

------
-- Arithmetic
------

/- A finite float in units. -/
def value (x : BitVec 32) : Int :=
  if sign x then -(units (magnitude x) : Int)
  else units (magnitude x)

/- The zero of a cancellation is positive. -/
def add (a b : BitVec 32) : BitVec 32 :=
  if IsNaN a ∨ IsNaN b then nan
  else if IsInf a then
    if IsInf b ∧ sign a ≠ sign b then nan else a
  else if IsInf b then b
  else
    let sum := value a + value b
    if sum = 0 then pack (sign a && sign b) 0
    else pack (sum < 0) (roundUnits sum.natAbs 0)

def mul (a b : BitVec 32) : BitVec 32 :=
  let negative := sign a != sign b
  let ma := magnitude a
  let mb := magnitude b
  if IsNaN a ∨ IsNaN b then nan
  else if IsInf a ∨ IsInf b then
    if ma = 0 ∨ mb = 0 then nan else pack negative infinity
  else pack negative (roundUnits (units ma * units mb) 149)

/- Order of the magnitudes with their signs. -/
def key (x : BitVec 32) : Int :=
  if sign x then -(magnitude x : Int) else magnitude x

def Less (a b : BitVec 32) : Prop :=
  ¬ IsNaN a ∧ ¬ IsNaN b ∧ key a < key b

/- The zeros are equal. -/
def Equal (a b : BitVec 32) : Prop :=
  ¬ IsNaN a ∧ ¬ IsNaN b ∧ key a = key b

instance (a b : BitVec 32) : Decidable (Less a b) :=
  inferInstanceAs (Decidable (_ ∧ _))

instance (a b : BitVec 32) : Decidable (Equal a b) :=
  inferInstanceAs (Decidable (_ ∧ _))

/- The first operand unless the second one is greater. -/
def max (a b : BitVec 32) : BitVec 32 :=
  if Less a b then b else a

def min (a b : BitVec 32) : BitVec 32 :=
  if Less b a then b else a

def clamp (x low high : BitVec 32) : BitVec 32 :=
  min (max x low) high

def ofInt (i : Int) : BitVec 32 :=
  if i = 0 then 0
  else pack (i < 0) (roundUnits (i.natAbs * 2 ^ 149) 0)

/- Toward zero; what does not fit becomes the nearest. -/
def toInt (x : BitVec 32) : BitVec 32 :=
  let n := units (magnitude x) / 2 ^ 149
  if IsNaN x then 0
  else if sign x then
    BitVec.ofInt 32 (-(Nat.min n (2 ^ 31) : Nat))
  else BitVec.ofNat 32 (Nat.min n (2 ^ 31 - 1))

variable (a b : BitVec 32)

theorem isNaN_neg : IsNaN (neg a) ↔ IsNaN a := by
  unfold IsNaN
  rw [magnitude_neg]

theorem isInf_neg : IsInf (neg a) ↔ IsInf a := by
  unfold IsInf
  rw [magnitude_neg]

/- Signs cancel in a product. -/
theorem mul_neg_neg : mul (neg a) (neg b) = mul a b := by
  have hSign :
      (sign (neg a) != sign (neg b)) = (sign a != sign b) := by
    rw [sign_neg, sign_neg]
    cases sign a <;> cases sign b <;> rfl
  unfold mul
  simp only [hSign, magnitude_neg, isNaN_neg, isInf_neg]

/- A square does not depend on the sign. -/
theorem mul_abs_self : mul (abs a) (abs a) = mul a a := by
  have hSign :
      (sign (abs a) != sign (abs a)) = (sign a != sign a) := by
    rw [bne_self_eq_false, bne_self_eq_false]
  have hNaN : IsNaN (abs a) ↔ IsNaN a := by
    unfold IsNaN
    rw [magnitude_abs]
  have hInf : IsInf (abs a) ↔ IsInf a := by
    unfold IsInf
    rw [magnitude_abs]
  unfold mul
  simp only [hSign, magnitude_abs, hNaN, hInf]

/- Clamping twice is clamping once. -/
theorem clamp_clamp
    {low high : BitVec 32}
    (hLow : clamp low low high = low)
    (hHigh : clamp high low high = high) :
    clamp (clamp a low high) low high =
      clamp a low high := by
  have hCases :
      clamp a low high = low ∨ clamp a low high = high ∨
        clamp a low high = a := by
    unfold clamp max min
    split_ifs <;> simp
  rcases hCases with hIs | hIs | hIs
  · rw [hIs, hLow]
  · rw [hIs, hHigh]
  · rw [hIs, hIs]

/- One and a half, plus a half unit in its last place. -/
example : add 0x3FC00000 0x33800000 = 0x3FC00000 := by decide

------
-- Quotients
------

/- Twice a quotient, odd if it is not exact. -/
def stickyDiv (n d : Nat) : Nat :=
  2 * (n / d) + if n % d = 0 then 0 else 1

def div (a b : BitVec 32) : BitVec 32 :=
  let negative := sign a != sign b
  let ma := magnitude a
  let mb := magnitude b
  if IsNaN a ∨ IsNaN b then nan
  else if IsInf a then
    if IsInf b then nan else pack negative infinity
  else if IsInf b then pack negative 0
  else if mb = 0 then
    if ma = 0 then nan else pack negative infinity
  else
    pack negative
      (roundUnits (stickyDiv (units ma * 2 ^ 150) (units mb)) 2)

/- Toward zero; negative numbers become zero. -/
def toUnsigned (x : BitVec 32) : BitVec 64 :=
  if IsNaN x ∨ sign x then 0
  else
    BitVec.ofNat 64
      (Nat.min (units (magnitude x) / 2 ^ 149) (2 ^ 64 - 1))

/- Two thirds, to the nearest. -/
example : div 0x40000000 0x40400000 = 0x3F2AAAAB := by
  decide

------
-- Exact Results
------

variable {m s k e : Nat} {i : Int} {a b : BitVec 32}

/- A number that is neither infinite nor none. -/
def Finite (x : BitVec 32) : Prop :=
  magnitude x < infinity

/- What is shifted out is zero. -/
theorem roundShift_mul_two_pow :
    roundShift (m * 2 ^ k) k = m := by
  have hPos := Nat.two_pow_pos k
  unfold roundShift
  rw [Nat.mul_mod_left, Nat.mul_div_cancel _ hPos, if_neg]
  rintro (hMore | ⟨hHalf, _⟩)
  · omega
  · omega

theorem roundUnits_zero : roundUnits 0 k = 0 := by
  unfold roundUnits roundShift
  simp

theorem log2_mul_two_pow
    (hM : m ≠ 0) :
    Nat.log2 (m * 2 ^ s) = Nat.log2 m + s := by
  have hPos := Nat.two_pow_pos s
  rcases (Nat.log2_eq_iff hM).mp rfl with ⟨hLow, hHigh⟩
  rw [Nat.log2_eq_iff (Nat.mul_ne_zero hM (Nat.ne_of_gt hPos)),
    Nat.add_right_comm, Nat.pow_add, Nat.pow_add]
  exact ⟨Nat.mul_le_mul_right _ hLow,
    Nat.mul_lt_mul_of_pos_right hHigh hPos⟩

/-
  Up to 24 bits are kept as they are, with the exponent
  counting how far they are shifted.
-/
theorem units_roundUnits
    (hPos : 0 < m)
    (hM : m < 2 ^ 24)
    (hS : s ≤ 200) :
    units (roundUnits (m * 2 ^ (s + k)) k) = m * 2 ^ s ∧
      roundUnits (m * 2 ^ (s + k)) k < infinity := by
  have hNe : m ≠ 0 := Nat.ne_of_gt hPos
  have hQuotient : m * 2 ^ (s + k) / 2 ^ k = m * 2 ^ s := by
    rw [Nat.pow_add, ← Nat.mul_assoc,
      Nat.mul_div_cancel _ (Nat.two_pow_pos k)]
  have hLog : Nat.log2 (m * 2 ^ s) = Nat.log2 m + s :=
    log2_mul_two_pow hNe
  have hTop : Nat.log2 m < 24 := (Nat.log2_lt hNe).mpr hM
  rcases (Nat.log2_eq_iff hNe).mp rfl with ⟨hLow, hHigh⟩
  have hInfinity : infinity = 255 * 2 ^ 23 := rfl
  generalize hL : Nat.log2 m = l at hLog hTop hLow hHigh
  rcases Nat.le_total (l + s) 23 with hSmall | hLarge
  · -- All bits fit below the exponent.
    have hUnder : m * 2 ^ s < 2 ^ 24 := by
      calc
        m * 2 ^ s < 2 ^ (l + 1) * 2 ^ s :=
          Nat.mul_lt_mul_of_pos_right hHigh (Nat.two_pow_pos s)
        _ = 2 ^ (l + 1 + s) := (Nat.pow_add 2 _ _).symm
        _ ≤ 2 ^ 24 :=
          Nat.pow_le_pow_right (by decide) (by omega)
    have hRound :
        roundUnits (m * 2 ^ (s + k)) k = m * 2 ^ s := by
      unfold roundUnits
      dsimp only
      rw [hQuotient, hLog, Nat.sub_eq_zero_of_le (by omega),
        Nat.add_zero, Nat.pow_add, ← Nat.mul_assoc,
        roundShift_mul_two_pow, Nat.zero_mul, Nat.zero_add,
        hInfinity]
      omega
    rw [hRound, hInfinity]
    refine ⟨?_, by omega⟩
    unfold units
    split_ifs with hSub
    · rfl
    · have hOne : m * 2 ^ s / 2 ^ 23 = 1 := by omega
      rw [hOne, Nat.sub_self, Nat.pow_zero, Nat.mul_one]
      omega
  · -- The bits are those of the fraction, with the hidden one.
    rcases Nat.exists_eq_add_of_le hLarge with ⟨d, hD⟩
    have hDrop : s = s - d + d := by omega
    generalize hQ : m * 2 ^ (s - d) = q
    have hSplit : m * 2 ^ s = q * 2 ^ d := by
      rw [← hQ, Nat.mul_assoc, ← Nat.pow_add, ← hDrop]
    have hQLow : 2 ^ 23 ≤ q := by
      calc
        2 ^ 23 = 2 ^ l * 2 ^ (s - d) := by
          rw [← Nat.pow_add]
          congr 1
          omega
        _ ≤ m * 2 ^ (s - d) := Nat.mul_le_mul_right _ hLow
        _ = q := hQ
    have hQHigh : q < 2 ^ 24 := by
      calc
        q = m * 2 ^ (s - d) := hQ.symm
        _ < 2 ^ (l + 1) * 2 ^ (s - d) :=
          Nat.mul_lt_mul_of_pos_right hHigh
            (Nat.two_pow_pos (s - d))
        _ = 2 ^ 24 := by
          rw [← Nat.pow_add]
          congr 1
          omega
    have hShift : m * 2 ^ (s + k) = q * 2 ^ (k + d) := by
      rw [Nat.pow_add, ← Nat.mul_assoc, hSplit, Nat.mul_assoc,
        ← Nat.pow_add, Nat.add_comm d k]
    have hDropped : l + s + 1 - 24 = d := by omega
    have hRound :
        roundUnits (m * 2 ^ (s + k)) k = d * 2 ^ 23 + q := by
      unfold roundUnits
      dsimp only
      rw [hQuotient, hLog, hDropped, hShift,
        roundShift_mul_two_pow, hInfinity, Nat.min_eq_left]
      omega
    rw [hRound, hInfinity, hSplit]
    refine ⟨?_, by omega⟩
    have hExponent : (d * 2 ^ 23 + q) / 2 ^ 23 = d + 1 := by
      omega
    have hFraction :
        2 ^ 23 + (d * 2 ^ 23 + q) % 2 ^ 23 = q := by
      omega
    unfold units
    rw [if_neg (by omega), hExponent, hFraction,
      Nat.add_sub_cancel]

theorem value_pack
    (hM : m < infinity) :
    value (pack (i < 0) m) =
      if i < 0 then -(units m : Int) else units m := by
  have hSmall : m < 2 ^ 31 := Nat.lt_trans hM (by decide)
  unfold value
  rw [sign_pack hSmall, magnitude_pack hSmall]
  simp

theorem finite_pack
    (hM : m < infinity) :
    Finite (pack negative m) := by
  unfold Finite
  rw [magnitude_pack (Nat.lt_trans hM (by decide))]
  exact hM

/- Integers of 24 bits are converted exactly. -/
theorem value_ofInt
    (hI : i.natAbs < 2 ^ 24) :
    value (ofInt i) = i * (2 ^ 149 : Nat) ∧
      Finite (ofInt i) := by
  unfold ofInt
  split_ifs with hZero
  · rw [hZero, Int.zero_mul]
    exact ⟨by decide, by unfold Finite; decide⟩
  · have hPos : 0 < i.natAbs := Int.natAbs_pos.mpr hZero
    rcases units_roundUnits (s := 149) (k := 0) hPos hI
      (by decide) with ⟨hUnits, hFinite⟩
    rw [Nat.add_zero] at hUnits hFinite
    refine ⟨?_, finite_pack hFinite⟩
    rw [value_pack hFinite, hUnits, Int.natCast_mul]
    generalize ((2 ^ 149 : Nat) : Int) = u
    split_ifs with hSign
    · rw [← Int.neg_mul, Int.ofNat_natAbs_of_nonpos (by omega),
        Int.neg_neg]
    · rw [Int.natAbs_of_nonneg (by omega)]

/- A float that is not zero has the sign of its value. -/
theorem sign_iff
    {u : Nat}
    (hU : 0 < u)
    (hI : i ≠ 0)
    (hA : value a = i * u) :
    sign a = true ↔ i < 0 := by
  have hScale : 0 < (u : Int) := Int.natCast_pos.mpr hU
  unfold value at hA
  constructor
  · intro hNegative
    rw [if_pos hNegative] at hA
    rcases Int.lt_or_le i 0 with hBelow | hAbove
    · exact hBelow
    · have hProduct :=
        Int.mul_pos (show 0 < i by omega) hScale
      omega
  · intro hBelow
    have hProduct := Int.mul_neg_of_neg_of_pos hBelow hScale
    cases hSign : sign a with
    | true => rfl
    | false =>
        rw [hSign, if_neg Bool.false_ne_true] at hA
        omega

/- A power of two, as a float. -/
structure IsTwoPow (e : Nat) (b : BitVec 32) : Prop where
  positive : sign b = false
  units : units (magnitude b) = 2 ^ (149 + e)
  finite : Finite b

/- An integer of 24 bits divided by a power of two. -/
theorem value_div_two_pow
    (hA : value a = i * (2 ^ 149 : Nat))
    (hFinite : Finite a)
    (hI : i.natAbs < 2 ^ 24)
    (hB : IsTwoPow e b)
    (hE : e ≤ 149) :
    value (div a b) = i * (2 ^ (149 - e) : Nat) := by
  have hUnits : units (magnitude a) = i.natAbs * 2 ^ 149 := by
    have hAbs := congrArg Int.natAbs hA
    rw [Int.natAbs_mul, Int.natAbs_natCast] at hAbs
    rw [← hAbs]
    unfold value
    split_ifs
    · rw [Int.natAbs_neg, Int.natAbs_natCast]
    · rw [Int.natAbs_natCast]
  have hQuotient :
      stickyDiv (units (magnitude a) * 2 ^ 150)
          (units (magnitude b)) =
        i.natAbs * 2 ^ (149 - e + 2) := by
    have hSplit :
        i.natAbs * 2 ^ 149 * 2 ^ 150 =
          i.natAbs * 2 ^ (150 - e) * 2 ^ (149 + e) := by
      rw [Nat.mul_assoc, Nat.mul_assoc, ← Nat.pow_add,
        ← Nat.pow_add]
      congr 2
      omega
    have hTwice : 149 - e + 2 = 150 - e + 1 := by omega
    unfold stickyDiv
    rw [hB.units, hUnits, hSplit, Nat.mul_mod_left,
      Nat.mul_div_cancel _ (Nat.two_pow_pos _), if_pos rfl,
      Nat.add_zero, hTwice, Nat.pow_succ, Nat.mul_comm 2,
      Nat.mul_assoc]
  have hNotInf : ∀ x, Finite x → ¬ IsNaN x ∧ ¬ IsInf x := by
    intro x hX
    exact ⟨Nat.not_lt_of_lt hX, Nat.ne_of_lt hX⟩
  have hSome : magnitude b ≠ 0 := by
    intro hZero
    have hPos := Nat.two_pow_pos (149 + e)
    rw [← hB.units, hZero] at hPos
    exact absurd hPos (by decide)
  have hDiv :
      div a b =
        pack (sign a)
          (roundUnits (i.natAbs * 2 ^ (149 - e + 2)) 2) := by
    unfold div
    dsimp only
    rw [if_neg (not_or.mpr ⟨(hNotInf a hFinite).1,
        (hNotInf b hB.finite).1⟩),
      if_neg (hNotInf a hFinite).2,
      if_neg (hNotInf b hB.finite).2, if_neg hSome, hB.positive,
      hQuotient, Bool.bne_false]
  rw [hDiv]
  by_cases hZero : i = 0
  · rw [hZero, Int.natAbs_zero, Nat.zero_mul, roundUnits_zero,
      Int.zero_mul]
    cases sign a <;> decide
  · have hPos : 0 < i.natAbs := Int.natAbs_pos.mpr hZero
    rcases units_roundUnits (s := 149 - e) (k := 2) hPos hI
      (by omega) with ⟨hRounded, hFits⟩
    have hSmall := Nat.lt_trans hFits (show infinity < 2 ^ 31 by
      decide)
    have hSign : sign a = true ↔ i < 0 :=
      sign_iff (Nat.two_pow_pos 149) hZero hA
    unfold value
    rw [sign_pack hSmall, magnitude_pack hSmall, hRounded,
      Int.natCast_mul]
    generalize ((2 ^ (149 - e) : Nat) : Int) = u
    split_ifs with hNegative
    · have hBelow := hSign.mp hNegative
      rw [← Int.neg_mul, Int.ofNat_natAbs_of_nonpos (by omega),
        Int.neg_neg]
    · have hAbove : ¬ i < 0 := fun hLess =>
        hNegative (hSign.mpr hLess)
      rw [Int.natAbs_of_nonneg (by omega)]

/- Different integers have different quotients. -/
theorem div_ofInt_inj
    {j : Int}
    (hI : i.natAbs < 2 ^ 24)
    (hJ : j.natAbs < 2 ^ 24)
    (hB : IsTwoPow e b)
    (hE : e ≤ 149) :
    div (ofInt i) b = div (ofInt j) b ↔ i = j := by
  constructor
  · intro hSame
    rcases value_ofInt hI with ⟨hValue, hFinite⟩
    rcases value_ofInt hJ with ⟨hValue', hFinite'⟩
    have hLeft := value_div_two_pow hValue hFinite hI hB hE
    have hRight := value_div_two_pow hValue' hFinite' hJ hB hE
    rw [hSame] at hLeft
    have hScale : ((2 ^ (149 - e) : Nat) : Int) ≠ 0 := by
      have hPos := Nat.two_pow_pos (149 - e)
      omega
    exact Int.eq_of_mul_eq_mul_right hScale
      (hLeft.symm.trans hRight)
  · intro hSame
    rw [hSame]

end Binary32
