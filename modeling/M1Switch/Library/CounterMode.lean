import Mathlib.Data.BitVec
import Mathlib.Logic.Function.Iterate
import Mathlib.Tactic.Ring

/-
  Counters of bytes, and streams of key bytes made with them.

  A counter is a row of bytes, the most significant one first.
  It is incremented from its last byte on, as far as the carry
  goes.  A stream of key bytes is made of the blocks that the
  counters in a row are enciphered to.

  Key definitions include:
    * `upTo`
    * `increment`

  Main results:
    * `value_iterate`
    * `keyByte_add`
    * `take_drop_mask`
-/

------
-- Digits
------

namespace BigEndian

/- The number that the first digits stand for. -/
def upTo (f : Nat → Nat) : Nat → Nat
| 0 => 0
| k + 1 => upTo f k * 256 + f k

variable {f g h : Nat → Nat} {k : Nat}

theorem upTo_congr
    (hDigits : ∀ j < k, f j = g j) :
    upTo f k = upTo g k := by
  induction k with
  | zero => rfl
  | succ k ih =>
      rw [upTo, upTo, hDigits k (Nat.lt_succ_self k),
        ih fun j hJ => hDigits j (Nat.lt_succ_of_lt hJ)]

theorem upTo_lt
    (hDigits : ∀ j < k, f j < 256) :
    upTo f k < 256 ^ k := by
  induction k with
  | zero => exact Nat.one_pos
  | succ k ih =>
      have hFirst :=
        ih fun j hJ => hDigits j (Nat.lt_succ_of_lt hJ)
      have hLast := hDigits k (Nat.lt_succ_self k)
      rw [upTo, Nat.pow_succ]
      omega

theorem upTo_injective
    (hF : ∀ j < k, f j < 256)
    (hG : ∀ j < k, g j < 256)
    (hEq : upTo f k = upTo g k) :
    ∀ j < k, f j = g j := by
  induction k with
  | zero =>
      intro j hJ
      exact absurd hJ (Nat.not_lt_zero j)
  | succ k ih =>
      have hLastF := hF k (Nat.lt_succ_self k)
      have hLastG := hG k (Nat.lt_succ_self k)
      rw [upTo, upTo] at hEq
      intro j hJ
      rcases Nat.lt_succ_iff_lt_or_eq.mp hJ with hLt | hLast
      · exact
          ih (fun j hJ => hF j (Nat.lt_succ_of_lt hJ))
            (fun j hJ => hG j (Nat.lt_succ_of_lt hJ))
            (by omega) j hLt
      · rw [hLast]
        omega

/- The digits of a number that has no more than `n` of them. -/
theorem upTo_digits
    {b n : Nat}
    (hB : b < 256 ^ n)
    (hK : k ≤ n) :
    upTo (fun j => b / 256 ^ (n - 1 - j) % 256) k =
      b / 256 ^ (n - k) := by
  induction k with
  | zero =>
      rw [Nat.sub_zero, Nat.div_eq_of_lt hB]
      rfl
  | succ k ih =>
      have hPower : 256 ^ (n - k) = 256 ^ (n - 1 - k) * 256 := by
        rw [← Nat.pow_succ]
        congr 1
        omega
      have hExponent : n - (k + 1) = n - 1 - k := by omega
      rw [upTo, ih (Nat.le_of_succ_le hK), hPower, hExponent,
        ← Nat.div_div_eq_div_mul]
      omega

/- Adding digit by digit, without a carry, is no more than
adding. -/
theorem upTo_sum_le
    (hDigits : ∀ j < k, h j = (f j + g j) % 256) :
    upTo h k ≤ upTo f k + upTo g k := by
  induction k with
  | zero => exact Nat.le_refl _
  | succ k ih =>
      have hFirst :=
        ih fun j hJ => hDigits j (Nat.lt_succ_of_lt hJ)
      have hLast := hDigits k (Nat.lt_succ_self k)
      rw [upTo, upTo, upTo]
      omega

/- It is the same only where there is nothing to carry. -/
theorem upTo_sum_eq_iff
    (hDigits : ∀ j < k, h j = (f j + g j) % 256) :
    upTo h k = upTo f k + upTo g k ↔
      ∀ j < k, f j + g j < 256 := by
  induction k with
  | zero =>
      refine ⟨?_, fun _ => rfl⟩
      intro _ j hJ
      exact absurd hJ (Nat.not_lt_zero j)
  | succ k ih =>
      have hBefore : ∀ j < k, h j = (f j + g j) % 256 :=
        fun j hJ => hDigits j (Nat.lt_succ_of_lt hJ)
      have hLe := upTo_sum_le hBefore
      have hLast := hDigits k (Nat.lt_succ_self k)
      rw [upTo, upTo, upTo]
      refine ⟨?_, ?_⟩
      · intro hEq j hJ
        rcases Nat.lt_succ_iff_lt_or_eq.mp hJ with hLt | hLast
        · exact (ih hBefore).mp (by omega) j hLt
        · rw [hLast]
          omega
      · intro hNone
        have hFirst :=
          (ih hBefore).mpr
            fun j hJ => hNone j (Nat.lt_succ_of_lt hJ)
        have hSmall := hNone k (Nat.lt_succ_self k)
        omega

/- With no carry out of the first digit, the carries that are
lost do not add up to a whole round. -/
theorem upTo_sum_lt
    (hDigits : ∀ j < k, h j = (f j + g j) % 256)
    (hF : ∀ j < k, f j < 256)
    (hG : ∀ j < k, g j < 256)
    (hFirst : f 0 + g 0 < 256) :
    upTo f k + upTo g k < upTo h k + 256 ^ k := by
  have hStrong :
      0 < k →
        255 * (upTo f k + upTo g k) + 256 ≤
          255 * upTo h k + 256 ^ k := by
    intro hPos
    induction k with
    | zero => exact absurd hPos (Nat.lt_irrefl 0)
    | succ k ih =>
        have hLast := hDigits k (Nat.lt_succ_self k)
        have hLastF := hF k (Nat.lt_succ_self k)
        have hLastG := hG k (Nat.lt_succ_self k)
        rw [upTo, upTo, upTo, Nat.pow_succ]
        rcases Nat.eq_zero_or_pos k with hZero | hMore
        · subst hZero
          simp only [upTo, Nat.pow_zero]
          omega
        · have hBefore :=
            ih (fun j hJ => hDigits j (Nat.lt_succ_of_lt hJ))
              (fun j hJ => hF j (Nat.lt_succ_of_lt hJ))
              (fun j hJ => hG j (Nat.lt_succ_of_lt hJ)) hMore
          omega
  rcases Nat.eq_zero_or_pos k with hZero | hMore
  · subst hZero
    exact Nat.one_pos
  · have hBound := hStrong hMore
    have hPower : 0 < 256 ^ k := Nat.pow_pos (by decide)
    omega

------
-- Counters
------

variable {n : Nat}

/- A byte as a digit, and nothing behind the last one. -/
def digit (c : Fin n → BitVec 8) (j : Nat) : Nat :=
  if hJ : j < n then (c ⟨j, hJ⟩).toNat else 0

def value (c : Fin n → BitVec 8) : Nat :=
  upTo (digit c) n

theorem digit_lt (c : Fin n → BitVec 8) (j : Nat) :
    digit c j < 256 := by
  unfold digit
  split
  · exact (c _).isLt
  · decide

theorem digit_of_lt
    (c : Fin n → BitVec 8)
    {j : Nat}
    (hJ : j < n) :
    digit c j = (c ⟨j, hJ⟩).toNat :=
  dif_pos hJ

theorem value_lt (c : Fin n → BitVec 8) :
    value c < 256 ^ n :=
  upTo_lt fun j _ => digit_lt c j

theorem value_injective :
    Function.Injective (value : (Fin n → BitVec 8) → Nat) := by
  intro c d hEq
  funext i
  have hDigit :=
    upTo_injective (fun j _ => digit_lt c j)
      (fun j _ => digit_lt d j) hEq i i.isLt
  rw [digit_of_lt c i.isLt, digit_of_lt d i.isLt] at hDigit
  exact BitVec.eq_of_toNat_eq hDigit

/- Increment a byte, and the one before it if it gets zero. -/
def incrementUpTo :
    (k : Nat) → k ≤ n → (Fin n → BitVec 8) → Fin n → BitVec 8
| 0, _, c => c
| k + 1, hK, c =>
    let c' := Function.update c ⟨k, hK⟩ (c ⟨k, hK⟩ + 1)
    if c' ⟨k, hK⟩ ≠ 0 then c'
    else incrementUpTo k (Nat.le_of_succ_le hK) c'

def increment (c : Fin n → BitVec 8) : Fin n → BitVec 8 :=
  incrementUpTo n (Nat.le_refl n) c

theorem digit_update
    (c : Fin n → BitVec 8)
    (hK : k < n)
    (b : BitVec 8)
    (j : Nat) :
    digit (Function.update c ⟨k, hK⟩ b) j =
      if j = k then b.toNat else digit c j := by
  unfold digit
  by_cases hJ : j < n
  · rw [dif_pos hJ, dif_pos hJ]
    by_cases hEq : j = k
    · subst hEq
      rw [Function.update_self, if_pos rfl]
    · have hNe : (⟨j, hJ⟩ : Fin n) ≠ ⟨k, hK⟩ := by
        intro hFin
        exact hEq (Fin.mk.inj hFin)
      rw [Function.update_of_ne hNe, if_neg hEq]
  · have hEq : j ≠ k := by omega
    rw [dif_neg hJ, dif_neg hJ, if_neg hEq]

/- The bytes behind those that are incremented stay. -/
theorem digit_incrementUpTo
    (hK : k ≤ n)
    (c : Fin n → BitVec 8)
    {j : Nat}
    (hJ : k ≤ j) :
    digit (incrementUpTo k hK c) j = digit c j := by
  induction k generalizing c with
  | zero => rfl
  | succ k ih =>
      have hNe : j ≠ k := by omega
      unfold incrementUpTo
      dsimp only
      split
      · rw [digit_update, if_neg hNe]
      · rw [ih _ _ (Nat.le_of_succ_le hJ), digit_update,
          if_neg hNe]

theorem upTo_incrementUpTo
    (hK : k ≤ n)
    (c : Fin n → BitVec 8) :
    upTo (digit (incrementUpTo k hK c)) k =
      (upTo (digit c) k + 1) % 256 ^ k := by
  induction k generalizing c with
  | zero => exact (Nat.mod_one _).symm
  | succ k ih =>
      have hByte := (c ⟨k, hK⟩).isLt
      have hLast : digit c k = (c ⟨k, hK⟩).toNat :=
        digit_of_lt c hK
      have hBelow := upTo_lt fun j (_ : j < k) => digit_lt c j
      have hSame :
          upTo (digit (Function.update c ⟨k, hK⟩
              (c ⟨k, hK⟩ + 1))) k =
            upTo (digit c) k := by
        apply upTo_congr
        intro j hJ
        rw [digit_update, if_neg (Nat.ne_of_lt hJ)]
      have hOne :
          (c ⟨k, hK⟩ + 1).toNat =
            ((c ⟨k, hK⟩).toNat + 1) % 256 :=
        BitVec.toNat_add _ _
      have hNone : (0 : BitVec 8).toNat = 0 := rfl
      unfold incrementUpTo
      dsimp only
      rw [Function.update_self]
      by_cases hZero : c ⟨k, hK⟩ + 1 = 0
      · have hFull : (c ⟨k, hK⟩).toNat = 255 := by
          rw [hZero, hNone] at hOne
          omega
        have hCarry :
            upTo (digit c) k * 256 + 255 + 1 =
              (upTo (digit c) k + 1) * 256 := by
          omega
        rw [if_neg (not_not.mpr hZero), upTo,
          ih (Nat.le_of_succ_le hK), hSame,
          digit_incrementUpTo _ _ (Nat.le_refl k), digit_update,
          if_pos rfl, hZero, hNone, Nat.add_zero, upTo, hLast,
          hFull, hCarry, Nat.pow_succ, Nat.mul_mod_mul_right]
      · have hMore : (c ⟨k, hK⟩).toNat + 1 < 256 := by
          by_contra hOver
          apply hZero
          apply BitVec.eq_of_toNat_eq
          rw [hOne, hNone]
          omega
        rw [if_pos hZero, upTo, hSame, digit_update, if_pos rfl,
          hOne, Nat.mod_eq_of_lt hMore, upTo, hLast,
          Nat.pow_succ, Nat.add_assoc]
        exact (Nat.mod_eq_of_lt (by omega)).symm

theorem value_increment (c : Fin n → BitVec 8) :
    value (increment c) = (value c + 1) % 256 ^ n :=
  upTo_incrementUpTo (Nat.le_refl n) c

theorem value_iterate
    (c : Fin n → BitVec 8)
    (m : Nat) :
    value (increment^[m] c) = (value c + m) % 256 ^ n := by
  induction m with
  | zero => exact (Nat.mod_eq_of_lt (value_lt c)).symm
  | succ m ih =>
      rw [Function.iterate_succ_apply', value_increment, ih,
        Nat.mod_add_mod, Nat.add_assoc]

end BigEndian

------
-- Streams of Key Bytes
------

namespace CounterMode

variable {C : Type} {enc : C → Nat → BitVec 8}
variable {next : C → C} {n : Nat}

/- The byte with number `i`, of blocks of `n` bytes. -/
def keyByte
    (enc : C → Nat → BitVec 8)
    (next : C → C)
    (n : Nat)
    (c : C)
    (i : Nat) : BitVec 8 :=
  enc (next^[i / n] c) (i % n)

/- Whole blocks further on, with the counter there. -/
theorem keyByte_add
    (hN : 0 < n)
    (c : C)
    (m i : Nat) :
    keyByte enc next n c (n * m + i) =
      keyByte enc next n (next^[m] c) i := by
  unfold keyByte
  rw [Nat.mul_add_div hN, Nat.mul_add_mod_self_left,
    Nat.add_comm m, Function.iterate_add_apply]

/- Data with the key bytes over it. -/
def mask
    (key : Nat → BitVec 8)
    (data : List (BitVec 8)) : List (BitVec 8) :=
  data.mapIdx fun i b => b ^^^ key i

variable {key key' : Nat → BitVec 8}
variable {data : List (BitVec 8)}

@[simp] theorem length_mask :
    (mask key data).length = data.length :=
  List.length_mapIdx

theorem mask_append (data' : List (BitVec 8)) :
    mask key (data ++ data') =
      mask key data ++
        mask (fun i => key (data.length + i)) data' := by
  unfold mask
  rw [List.mapIdx_append]
  simp only [Nat.add_comm]

/- A part of what is masked is a masked part. -/
theorem take_drop_mask (k m : Nat) :
    ((mask key data).drop k).take m =
      mask (fun i => key (k + i)) ((data.drop k).take m) := by
  apply List.ext_getElem
  · simp only [List.length_take, List.length_drop, length_mask]
  · intro i hI hI'
    simp only [mask, List.getElem_take, List.getElem_drop,
      List.getElem_mapIdx]

/- Two masks agree on data only where they are the same. -/
theorem mask_eq_iff :
    mask key data = mask key' data ↔
      ∀ i < data.length, key i = key' i := by
  refine ⟨?_, ?_⟩
  · intro hEq i hI
    have hByte :
        (mask key data)[i]? = (mask key' data)[i]? := by
      rw [hEq]
    unfold mask at hByte
    rw [List.getElem?_mapIdx, List.getElem?_mapIdx,
      List.getElem?_eq_getElem hI, Option.map_some,
      Option.map_some, Option.some.injEq] at hByte
    exact (BitVec.xor_right_inj _).mp hByte
  · intro hSame
    apply List.ext_getElem
    · simp only [length_mask]
    · intro i hI _
      rw [length_mask] at hI
      simp only [mask, List.getElem_mapIdx, hSame i hI]

end CounterMode
