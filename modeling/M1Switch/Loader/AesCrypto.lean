import M1Switch.Common.Types
import M1Switch.Library.CounterMode
import M1Switch.Library.WordBytes

/-
  Counter mode from any place of a file on.

  The counter of a place is the initial one plus the number of
  the block there.  The number is added to the last eight bytes
  of the counter, byte by byte, and the carry of a byte is not
  handed on.  Wherever there is one, the blocks are deciphered
  with other key bytes than in a run from the beginning.

  The block cipher is a parameter: it comes with the system.

  Key definitions include:
    * `seek`
    * `decryptCtr`

  Main results:
    * `decryptCtr_eq`
    * `seek_eq_iff`
    * `slice_iff`
-/

------
-- Decryption
------

namespace M1Switch

/- Sixteen bytes. -/
abbrev AesBlock := Fin 16 → U8

namespace AesCrypto

variable {K : Type}

/- A block enciphered with a key, unless this fails. -/
abbrev BlockCipher (K : Type) := K → AesBlock → Option AesBlock

/- The byte at a place of a block. -/
def byteAt (block : AesBlock) (i : Nat) : U8 := block (Fin.ofNat 16 i)

/-
  Rounds of the loop that adds a block number to the counter.
  Each has its own carry, which nothing is done with.
-/
def seekFrom : Nat → Nat → U64 → AesBlock → AesBlock
| 0, _, _, counter => counter
| n + 1, i, blockOffset, counter =>
    if 0 < blockOffset then
      let carry : U8 := 0
      let idx := Fin.ofNat 16 (15 - i)
      let sum : BitVec 16 :=
        ((counter idx).setWidth 64 + (blockOffset &&& 0xFF) +
          carry.setWidth 64).setWidth 16
      seekFrom n (i + 1) (blockOffset >>> 8)
        (Function.update counter idx (sum.setWidth 8))
    else counter

def seek (iv : AesBlock) (blockOffset : U64) : AesBlock :=
  seekFrom 8 0 blockOffset iv

/- From the last byte on, until one is not zero. -/
def increment (counter : AesBlock) : AesBlock :=
  BigEndian.increment counter

/- Whole blocks from a counter on, the last of them as long as
the data. -/
def ctrBlocks
    (aes : BlockCipher K)
    (key : K) :
    Nat → AesBlock → List U8 → Option (List U8)
| _, _, [] => some []
| 0, _, _ => none
| n + 1, counter, data => do
    let keystream ← aes key counter
    let rest ←
      ctrBlocks aes key n (increment counter) (data.drop 16)
    some (CounterMode.mask (byteAt keystream) (data.take 16) ++ rest)

/- The size is that of the data.  There are no more blocks than
bytes. -/
def decryptCtr
    (aes : BlockCipher K)
    (ciphertext : List U8)
    (key : K)
    (iv : AesBlock)
    (offset : U64) : Option (List U8) :=
  let counter := seek iv (offset / 16)
  let byteOffset := (offset % 16).toNat
  if 0 < byteOffset then do
    let keystream ← aes key counter
    let firstBlock := min ciphertext.length (16 - byteOffset)
    let rest ←
      ctrBlocks aes key ciphertext.length (increment counter)
        (ciphertext.drop firstBlock)
    some
      (CounterMode.mask (fun i => byteAt keystream (byteOffset + i))
          (ciphertext.take firstBlock) ++ rest)
  else ctrBlocks aes key ciphertext.length counter ciphertext

------
-- The Stream of Key Bytes
------

variable {aes : K → AesBlock → AesBlock} {key : K}

/- The key byte with number `i`, from a counter on. -/
def keystreamAt
    (aes : K → AesBlock → AesBlock)
    (key : K) : AesBlock → Nat → U8 :=
  CounterMode.keyByte (fun c => byteAt (aes key c)) increment 16

theorem keystreamAt_of_lt
    {counter : AesBlock}
    {i : Nat}
    (hI : i < 16) :
    keystreamAt aes key counter i = byteAt (aes key counter) i := by
  unfold keystreamAt CounterMode.keyByte
  rw [Nat.div_eq_of_lt hI, Nat.mod_eq_of_lt hI]
  rfl

/- Blocks further on, with the counter there. -/
theorem keystreamAt_add
    (counter : AesBlock)
    (m i : Nat) :
    keystreamAt aes key counter (16 * m + i) =
      keystreamAt aes key (increment^[m] counter) i :=
  CounterMode.keyByte_add (by decide) counter m i

theorem ctrBlocks_eq
    {n : Nat}
    {counter : AesBlock}
    {data : List U8}
    (hEnough : data.length ≤ n) :
    ctrBlocks (fun k b => some (aes k b)) key n counter data =
      some
        (CounterMode.mask (keystreamAt aes key counter) data) := by
  induction n generalizing counter data with
  | zero =>
      rw [List.length_eq_zero_iff.mp (Nat.le_zero.mp hEnough)]
      rfl
  | succ n ih =>
      cases data with
      | nil => rfl
      | cons b data =>
          have hDrop : ((b :: data).drop 16).length ≤ n := by
            rw [List.length_cons] at hEnough
            rw [List.length_drop, List.length_cons]
            omega
          have hRest := @ih (increment counter) _ hDrop
          have hFirst :
              CounterMode.mask (byteAt (aes key counter))
                  ((b :: data).take 16) =
                CounterMode.mask (keystreamAt aes key counter)
                  ((b :: data).take 16) := by
            apply CounterMode.mask_eq_iff.mpr
            intro i hI
            rw [List.length_take] at hI
            exact (keystreamAt_of_lt (by omega)).symm
          have hLater :
              CounterMode.mask
                  (keystreamAt aes key (increment counter))
                  ((b :: data).drop 16) =
                CounterMode.mask
                  (fun i =>
                    keystreamAt aes key counter
                      (((b :: data).take 16).length + i))
                  ((b :: data).drop 16) := by
            apply CounterMode.mask_eq_iff.mpr
            intro i hI
            rw [List.length_drop] at hI
            have hWhole : ((b :: data).take 16).length = 16 := by
              rw [List.length_take]
              omega
            rw [hWhole]
            exact (keystreamAt_add counter 1 i).symm
          unfold ctrBlocks
          rw [hRest]
          show some (_ ++ _) = _
          rw [hFirst, hLater, ← CounterMode.mask_append,
            List.take_append_drop]

/- The data is masked from its place in the stream on that the
counter of the block starts. -/
theorem decryptCtr_eq
    (ciphertext : List U8)
    (iv : AesBlock)
    (offset : U64) :
    decryptCtr (fun k b => some (aes k b)) ciphertext key iv
        offset =
      some
        (CounterMode.mask
          (fun i =>
            keystreamAt aes key (seek iv (offset / 16))
              ((offset % 16).toNat + i))
          ciphertext) := by
  have hByte : (offset % 16).toNat < 16 := by
    rw [BitVec.toNat_umod]
    exact Nat.mod_lt _ (by decide)
  unfold decryptCtr
  dsimp only
  generalize hCounter : seek iv (offset / 16) = counter
  generalize (offset % 16).toNat = byteOffset at *
  by_cases hInside : 0 < byteOffset
  · rw [if_pos hInside, ctrBlocks_eq (by simp)]
    show some (_ ++ _) = _
    generalize hFirstBlock :
      min ciphertext.length (16 - byteOffset) = firstBlock
    have hFirst :
        CounterMode.mask
            (fun i => byteAt (aes key counter) (byteOffset + i))
            (ciphertext.take firstBlock) =
          CounterMode.mask
            (fun i =>
              keystreamAt aes key counter (byteOffset + i))
            (ciphertext.take firstBlock) := by
      apply CounterMode.mask_eq_iff.mpr
      intro i hI
      rw [List.length_take] at hI
      exact (keystreamAt_of_lt (by omega)).symm
    have hLater :
        CounterMode.mask
            (keystreamAt aes key (increment counter))
            (ciphertext.drop firstBlock) =
          CounterMode.mask
            (fun i =>
              keystreamAt aes key counter
                (byteOffset +
                  ((ciphertext.take firstBlock).length + i)))
            (ciphertext.drop firstBlock) := by
      apply CounterMode.mask_eq_iff.mpr
      intro i hI
      rw [List.length_drop] at hI
      have hPlace :
          byteOffset +
              ((ciphertext.take firstBlock).length + i) =
            16 * 1 + i := by
        rw [List.length_take]
        omega
      rw [hPlace]
      exact (keystreamAt_add counter 1 i).symm
    rw [hFirst, hLater,
      ← @CounterMode.mask_append
        (fun i => keystreamAt aes key counter (byteOffset + i)),
      List.take_append_drop]
  · have hStart : byteOffset = 0 := by omega
    rw [if_neg hInside, ctrBlocks_eq (Nat.le_refl _), hStart]
    simp only [Nat.zero_add]

------
-- The Counter of a AesBlock
------

open BigEndian (digit upTo value)

/- No byte of the counter overflows by its byte of the number of
the block. -/
def NoCarry (iv : AesBlock) (blockOffset : U64) : Prop :=
  ∀ i < 8,
    (byteAt iv (15 - i)).toNat +
      blockOffset.toNat / 256 ^ i % 256 < 256

instance (iv : AesBlock) (blockOffset : U64) :
    Decidable (NoCarry iv blockOffset) :=
  inferInstanceAs (Decidable (∀ i < 8, _))

/- A byte that the number of the block is added to. -/
theorem toNat_sum (b : U8) (blockOffset : U64) :
    ((((b.setWidth 64 + (blockOffset &&& 0xFF) +
          (0 : U8).setWidth 64).setWidth 16 : BitVec 16).setWidth
        8 : U8)).toNat =
      (b.toNat + blockOffset.toNat % 256) % 256 := by
  have hLow :
      (blockOffset &&& 0xFF).toNat = blockOffset.toNat % 256 :=
    Nat.and_two_pow_sub_one_eq_mod blockOffset.toNat 8
  have hByte := b.isLt
  rw [BitVec.toNat_setWidth, BitVec.toNat_setWidth,
    BitVec.toNat_add, BitVec.toNat_add, BitVec.toNat_setWidth,
    BitVec.toNat_setWidth, hLow,
    show (0 : U8).toNat = 0 from rfl]
  omega

/- The bytes that the rounds add to, and the others. -/
theorem digit_seekFrom
    {n i j : Nat}
    (hRounds : i + n ≤ 16)
    (hJ : j < 16)
    (blockOffset : U64)
    (counter : AesBlock) :
    digit (seekFrom n i blockOffset counter) j =
      if i ≤ 15 - j ∧ 15 - j < i + n then
        (digit counter j +
            blockOffset.toNat / 256 ^ (15 - j - i) % 256) % 256
      else digit counter j := by
  induction n generalizing i blockOffset counter with
  | zero =>
      rw [if_neg (by omega)]
      rfl
  | succ n ih =>
      have hDigit := BigEndian.digit_lt counter j
      unfold seekFrom
      by_cases hMore : 0 < blockOffset
      · have hIdx :
            Fin.ofNat 16 (15 - i) = ⟨15 - i, by omega⟩ :=
          Fin.ext (Nat.mod_eq_of_lt (by omega))
        rw [if_pos hMore]
        dsimp only
        rw [ih (by omega), hIdx, BigEndian.digit_update,
          toNat_sum]
        have hShift :
            (blockOffset >>> 8).toNat =
              blockOffset.toNat / 256 := by
          rw [BitVec.toNat_ushiftRight,
            Nat.shiftRight_eq_div_pow]
        rw [hShift]
        by_cases hHere : j = 15 - i
        · subst hHere
          rw [if_neg (by omega), if_pos rfl, if_pos (by omega),
            show 15 - (15 - i) - i = 0 by omega, Nat.pow_zero,
            Nat.div_one, BigEndian.digit_of_lt]
        · rw [if_neg hHere]
          by_cases hLater : i + 1 ≤ 15 - j ∧ 15 - j < i + 1 + n
          · have hPower :
                256 * 256 ^ (15 - j - (i + 1)) =
                  256 ^ (15 - j - i) := by
              rw [← Nat.pow_succ']
              congr 1
              omega
            rw [if_pos hLater, if_pos (by omega),
              Nat.div_div_eq_div_mul, hPower]
          · rw [if_neg hLater, if_neg (by omega)]
      · have hZero : blockOffset.toNat = 0 := by
          rw [BitVec.lt_def, Nat.not_lt] at hMore
          exact Nat.le_zero.mp hMore
        rw [if_neg hMore, hZero]
        simp only [Nat.zero_div, Nat.zero_mod, Nat.add_zero,
          Nat.mod_eq_of_lt hDigit, ite_self]

/- The number of a block has no more than eight bytes. -/
theorem blockOffset_div
    {blockOffset : U64}
    {m : Nat}
    (hAbove : 8 ≤ m) :
    blockOffset.toNat / 256 ^ m = 0 := by
  apply Nat.div_eq_of_lt
  have hPower : 256 ^ 8 ≤ 256 ^ m :=
    Nat.pow_le_pow_right (by decide) hAbove
  exact Nat.lt_of_lt_of_le blockOffset.isLt hPower

theorem digit_seek
    (iv : AesBlock)
    (blockOffset : U64)
    {j : Nat}
    (hJ : j < 16) :
    digit (seek iv blockOffset) j =
      (digit iv j +
          blockOffset.toNat / 256 ^ (16 - 1 - j) % 256) % 256 := by
  have hDigit := BigEndian.digit_lt iv j
  unfold seek
  rw [digit_seekFrom (by decide) hJ]
  by_cases hLow : 0 ≤ 15 - j ∧ 15 - j < 0 + 8
  · rw [if_pos hLow, Nat.sub_zero]
  · rw [if_neg hLow, blockOffset_div (by omega), Nat.zero_mod,
      Nat.add_zero, Nat.mod_eq_of_lt hDigit]

theorem upTo_blockOffset (blockOffset : U64) :
    upTo (fun j => blockOffset.toNat / 256 ^ (16 - 1 - j) % 256)
        16 =
      blockOffset.toNat := by
  have hLt : blockOffset.toNat < 256 ^ 16 :=
    Nat.lt_of_lt_of_le blockOffset.isLt (by decide)
  rw [BigEndian.upTo_digits hLt (Nat.le_refl 16), Nat.sub_self,
    Nat.pow_zero, Nat.div_one]

theorem toNat_byteAt
    (block : AesBlock)
    {j : Nat}
    (hJ : j < 16) :
    (byteAt block j).toNat = digit block j := by
  have hIdx : Fin.ofNat 16 j = ⟨j, hJ⟩ :=
    Fin.ext (Nat.mod_eq_of_lt hJ)
  unfold byteAt
  rw [hIdx, BigEndian.digit_of_lt block hJ]

theorem noCarry_iff (iv : AesBlock) (blockOffset : U64) :
    NoCarry iv blockOffset ↔
      ∀ j < 16,
        digit iv j +
          blockOffset.toNat / 256 ^ (16 - 1 - j) % 256 < 256 := by
  refine ⟨?_, ?_⟩
  · intro hNone j hJ
    by_cases hLow : 15 - j < 8
    · have hByte := hNone (15 - j) hLow
      rw [show 15 - (15 - j) = j by omega,
        toNat_byteAt iv hJ] at hByte
      exact hByte
    · rw [blockOffset_div (by omega), Nat.zero_mod, Nat.add_zero]
      exact BigEndian.digit_lt iv j
  · intro hNone i hI
    have hByte := hNone (15 - i) (by omega)
    rw [show 16 - 1 - (15 - i) = i by omega] at hByte
    rw [toNat_byteAt iv (by omega)]
    exact hByte

/- The counter of a block is the right one only if there was
nothing to carry. -/
theorem seek_eq_iff (iv : AesBlock) (blockOffset : U64) :
    seek iv blockOffset = increment^[blockOffset.toNat] iv ↔
      NoCarry iv blockOffset := by
  have hDigits :
      ∀ j < 16,
        digit (seek iv blockOffset) j =
          (digit iv j +
              blockOffset.toNat / 256 ^ (16 - 1 - j) % 256) %
            256 :=
    fun j hJ => digit_seek iv blockOffset hJ
  have hTop : blockOffset.toNat / 256 ^ (16 - 1 - 0) = 0 :=
    blockOffset_div (by decide)
  have hLe := BigEndian.upTo_sum_le hDigits
  have hLess :=
    BigEndian.upTo_sum_lt hDigits
      (fun j _ => BigEndian.digit_lt iv j)
      (fun j _ => Nat.mod_lt _ (by decide))
      (by
        rw [hTop, Nat.zero_mod, Nat.add_zero]
        exact BigEndian.digit_lt iv 0)
  have hIff := BigEndian.upTo_sum_eq_iff hDigits
  have hSeek := BigEndian.value_lt (seek iv blockOffset)
  have hIv := BigEndian.value_lt iv
  rw [upTo_blockOffset] at hLe hLess hIff
  rw [noCarry_iff, ← hIff, ← BigEndian.value_injective.eq_iff]
  unfold increment
  rw [BigEndian.value_iterate]
  change upTo (digit (seek iv blockOffset)) 16 =
    (upTo (digit iv) 16 + blockOffset.toNat) % 256 ^ 16 ↔ _
  change upTo (digit (seek iv blockOffset)) 16 < _ at hSeek
  have hSmall : blockOffset.toNat < 256 ^ 16 :=
    Nat.lt_of_lt_of_le blockOffset.isLt (by decide)
  change upTo (digit iv) 16 < _ at hIv
  generalize 256 ^ 16 = round at *
  rcases Nat.lt_or_ge
    (upTo (digit iv) 16 + blockOffset.toNat) round with
    hFits | hOver
  · rw [Nat.mod_eq_of_lt hFits]
  · rw [Nat.mod_eq_sub_mod hOver, Nat.mod_eq_of_lt (by omega)]
    omega

------
-- A Slice of a File
------

/- The bytes from a place on, as many as are asked for. -/
def slice (offset size : Nat) (data : List U8) : List U8 :=
  (data.drop offset).take size

variable {ciphertext : List U8} {iv : AesBlock}
variable {offset size : Nat}

/- A slice is deciphered as a part of the whole. -/
def SliceAgrees
    (aes : K → AesBlock → AesBlock)
    (ciphertext : List U8)
    (key : K)
    (iv : AesBlock)
    (offset size : Nat) : Prop :=
  decryptCtr (fun k b => some (aes k b))
      (slice offset size ciphertext) key iv
      (BitVec.ofNat 64 offset) =
    (decryptCtr (fun k b => some (aes k b)) ciphertext key iv
      0).map (slice offset size)

theorem toNat_block
    (hIn : offset + size ≤ ciphertext.length)
    (hSize : ciphertext.length < 2 ^ 64) :
    (BitVec.ofNat 64 (offset / 16)).toNat = offset / 16 := by
  rw [BitVec.toNat_ofNat]
  omega

/- Both are masked, and the masks can be compared. -/
theorem sliceAgrees_iff
    (hIn : offset + size ≤ ciphertext.length)
    (hSize : ciphertext.length < 2 ^ 64) :
    SliceAgrees aes ciphertext key iv offset size ↔
      ∀ i < size,
        keystreamAt aes key
            (seek iv (BitVec.ofNat 64 (offset / 16)))
            (offset % 16 + i) =
          keystreamAt aes key (increment^[offset / 16] iv)
            (offset % 16 + i) := by
  have hBlock :
      BitVec.ofNat 64 offset / 16 =
        BitVec.ofNat 64 (offset / 16) := by
    apply BitVec.eq_of_toNat_eq
    rw [BitVec.toNat_udiv, BitVec.toNat_ofNat,
      BitVec.toNat_ofNat, show (16 : U64).toNat = 16 from rfl]
    omega
  have hByte :
      (BitVec.ofNat 64 offset % 16).toNat = offset % 16 := by
    rw [BitVec.toNat_umod, BitVec.toNat_ofNat,
      show (16 : U64).toNat = 16 from rfl]
    omega
  have hStart : seek iv (0 / 16) = iv := rfl
  have hZero : ((0 : U64) % 16).toNat = 0 := rfl
  unfold SliceAgrees
  rw [decryptCtr_eq, decryptCtr_eq, hBlock, hByte, hStart, hZero,
    Option.map_some, Option.some.injEq]
  unfold slice
  rw [CounterMode.take_drop_mask, CounterMode.mask_eq_iff,
    List.length_take, List.length_drop,
    Nat.min_eq_left (by omega)]
  have hPlace :
      ∀ i, 0 + (offset + i) =
        16 * (offset / 16) + (offset % 16 + i) := by
    intro i
    omega
  simp only [hPlace, keystreamAt_add]

/- A cipher that tells one counter from all others. -/
theorem counter_eq_of_keystreamAt
    {c d : AesBlock}
    {i : Nat}
    (hI : i < 16)
    (hSame :
      ∀ aes : K → AesBlock → AesBlock,
        keystreamAt aes key c i = keystreamAt aes key d i) :
    c = d := by
  by_contra hNe
  have hByte := hSame fun _ b _ => if b = c then 0 else 1
  rw [keystreamAt_of_lt hI, keystreamAt_of_lt hI] at hByte
  unfold byteAt at hByte
  rw [if_pos rfl, if_neg (Ne.symm hNe)] at hByte
  change (0 : U8) = 1 at hByte
  exact absurd hByte (by decide)

/- A first byte that agrees needs the right counter. -/
theorem noCarry_of_agrees
    (hIn : offset + size ≤ ciphertext.length)
    (hSize : ciphertext.length < 2 ^ 64)
    (hPos : 0 < size)
    (hAgrees :
      ∀ aes : K → AesBlock → AesBlock,
        SliceAgrees aes ciphertext key iv offset size) :
    NoCarry iv (BitVec.ofNat 64 (offset / 16)) := by
  rw [← seek_eq_iff, toNat_block hIn hSize]
  have hIndex : offset % 16 < 16 := Nat.mod_lt _ (by decide)
  apply counter_eq_of_keystreamAt hIndex
  intro aes
  exact
    (sliceAgrees_iff hIn hSize).mp (hAgrees aes) 0 hPos

theorem slice_iff
    (hIn : offset + size ≤ ciphertext.length)
    (hSize : ciphertext.length < 2 ^ 64)
    (key : K) :
    (∀ aes : K → AesBlock → AesBlock,
        SliceAgrees aes ciphertext key iv offset size) ↔
      size = 0 ∨
        NoCarry iv (BitVec.ofNat 64 (offset / 16)) := by
  refine ⟨?_, ?_⟩
  · intro hAgrees
    rcases Nat.eq_zero_or_pos size with hZero | hPos
    · exact Or.inl hZero
    · exact Or.inr (noCarry_of_agrees hIn hSize hPos hAgrees)
  · rintro (hZero | hNone) aes
    · rw [sliceAgrees_iff hIn hSize]
      intro i hI
      omega
    · rw [← seek_eq_iff, toNat_block hIn hSize] at hNone
      rw [sliceAgrees_iff hIn hSize, hNone]
      intro i _
      rfl

/- A slice across two blocks, far from any carry. -/
theorem slice_iff_zeros :
    SliceAgrees (fun key block i => key i ^^^ block i : AesBlock →
        AesBlock → AesBlock)
      (List.replicate 40 0) (fun _ => 1) (fun _ => 0) 20 15 :=
  (slice_iff (by decide) (by decide) _).mpr
    (Or.inr (by decide)) _

/- The second block, where the last byte of the counter is full. -/
theorem not_slice_carry :
    ¬ ∀ aes : AesBlock → AesBlock → AesBlock,
      SliceAgrees aes (List.replicate 17 0) (fun _ => 1)
        (Function.update (fun _ => 0) 15 0xFF) 16 1 := by
  intro hAgrees
  have hNone :=
    noCarry_of_agrees (by decide) (by decide) (by decide) hAgrees
  exact absurd hNone (by decide)

end AesCrypto

end M1Switch
