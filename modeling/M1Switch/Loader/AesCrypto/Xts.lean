import Mathlib.Algebra.Group.Pi.Basic
import Mathlib.Algebra.Group.Units.Equiv
import M1Switch.Library.BlockMap
import M1Switch.Loader.AesCrypto

/-
  Sectors that are deciphered with tweaked blocks.

  A block is masked with its tweak before and after the block
  cipher.  The tweak of the first block of a sector is the
  enciphered number of the sector, and the next ones are its
  multiples in the field of 128 bits.

  The decryption masks as it should, but it enciphers between
  the masks.  A block that was enciphered is so enciphered
  twice, and nothing but the empty data comes out as it was.

  Key definitions include:
    * `mulGF128`
    * `decryptXts`

  Main results:
    * `decryptXts_eq`
    * `referenceXts_encryptXts`
    * `xts_inverts_iff`
-/

------
-- Decryption
------

namespace M1Switch

namespace AesCrypto

open BlockMap (blockAt mapBlocks)

variable {K : Type}

/- Shift the bytes from the last one on.  The bit that a byte is
given is taken from the next byte after its own shift. -/
def shiftFrom : Nat → AesBlock → AesBlock
| 0, tmp => tmp
| j + 1, tmp =>
    let next := byteAt tmp j <<< 1
    let next :=
      if j < 15 ∧ byteAt tmp (j + 1) &&& 0x80 ≠ 0 then next ||| 1
      else next
    shiftFrom j (Function.update tmp (Fin.ofNat 16 j) next)

def xor (a b : AesBlock) : AesBlock := fun j => a j ^^^ b j

/- The bytes one place further, with a zero before them. -/
def moved (dst : AesBlock) : AesBlock :=
  fun j => if j = 0 then 0 else dst (j - 1)

/- The two blocks of the multiplication, and the carry. -/
structure MulState where
  dst : AesBlock
  tmp : AesBlock
  carry : Bool

/- A round.  With a carry, the blocks are exchanged. -/
def mulRound (s : MulState) : MulState :=
  let newCarry := decide (s.tmp 15 &&& 0x80 ≠ 0)
  let tmp := shiftFrom 16 s.tmp
  let dst := if s.carry then xor (moved s.dst) tmp else tmp
  if newCarry then { dst := tmp, tmp := dst, carry := true }
  else { dst := dst, tmp := tmp, carry := false }

/- What `dst` is given.  It may be the block `src` itself, which
is copied first. -/
def mulGF128 (dst src : AesBlock) : AesBlock :=
  let s :=
    mulRound^[16] { dst := dst, tmp := src, carry := false }
  if s.carry then
    Function.update s.dst 15 (s.dst 15 ^^^ 0x87)
  else s.dst

/- The number of a sector, the lowest byte first. -/
def sectorTweak (sectorNumber : U64) : AesBlock :=
  fun i => if i < 8 then WordBytes.byte sectorNumber i else 0

/- The blocks of a sector. -/
def xtsBlocks
    (aes : BlockCipher K)
    (key1 : K) :
    Nat → AesBlock → List U8 → Option (List U8)
| _, _, [] => some []
| 0, _, _ => none
| n + 1, tweak, data => do
    let tmp ← aes key1 (xor (blockAt 16 data 0) tweak)
    let rest ←
      xtsBlocks aes key1 n (mulGF128 tweak tweak) (data.drop 16)
    some (List.ofFn (xor tmp tweak) ++ rest)

def numSectors (size sectorSize : Nat) : Nat :=
  if size % sectorSize ≠ 0 then size / sectorSize + 1
  else size / sectorSize

def xtsSectors
    (aes : BlockCipher K)
    (key1 key2 : K)
    (sectorSize : Nat) :
    Nat → U64 → List U8 → Option (List U8)
| 0, _, _ => some []
| n + 1, sectorNumber, data => do
    let tweak ← aes key2 (sectorTweak sectorNumber)
    let sector ←
      xtsBlocks aes key1 data.length tweak (data.take sectorSize)
    let rest ←
      xtsSectors aes key1 key2 sectorSize n (sectorNumber + 1)
        (data.drop sectorSize)
    some (sector ++ rest)

/- Dividing by a sector size of zero gives nothing. -/
def decryptXts
    (aes : BlockCipher K)
    (ciphertext : List U8)
    (key1 key2 : K)
    (sectorNumber : U64)
    (sectorSize : Nat) : Option (List U8) :=
  if ciphertext.length % 16 ≠ 0 ∨ sectorSize % 16 ≠ 0 then none
  else if sectorSize = 0 then none
  else
    xtsSectors aes key1 key2 sectorSize
      (numSectors ciphertext.length sectorSize) sectorNumber
      ciphertext

------
-- The Mode
------

/- Sixteen bytes as a number, the lowest byte first. -/
def ofBlock (block : AesBlock) : BitVec 128 :=
  BitVec.ofNat 128 (BigEndian.value fun i => block i.rev)

def toBlock (x : BitVec 128) : AesBlock :=
  fun i => WordBytes.byte x i

/- Multiply by the variable, modulo the polynomial with the low
coefficients 0x87. -/
def mulX (tweak : AesBlock) : AesBlock :=
  let x := ofBlock tweak
  toBlock (if x.msb then (x <<< 1) ^^^ 0x87 else x <<< 1)

/- The tweak of the block `i`, with `blocks` blocks a sector. -/
def tweakAt
    (step : AesBlock → AesBlock)
    (first : U64 → AesBlock)
    (blocks : Nat)
    (sectorNumber : U64)
    (i : Nat) : AesBlock :=
  step^[i % blocks]
    (first (sectorNumber + BitVec.ofNat 64 (i / blocks)))

/- A block between two masks. -/
def xexBlock
    (cipher : AesBlock → AesBlock)
    (tweak block : AesBlock) : AesBlock :=
  xor (cipher (xor block tweak)) tweak

/- The tweaks of the mode. -/
def xtsTweak
    (E : K → Equiv.Perm AesBlock)
    (key2 : K)
    (sectorSize : Nat) : U64 → Nat → AesBlock :=
  tweakAt mulX (fun n => E key2 (toBlock (n.setWidth 128)))
    (sectorSize / 16)

def encryptXts
    (E : K → Equiv.Perm AesBlock)
    (data : List U8)
    (key1 key2 : K)
    (sectorNumber : U64)
    (sectorSize : Nat) : List U8 :=
  mapBlocks
    (fun i =>
      xexBlock (E key1) (xtsTweak E key2 sectorSize sectorNumber i))
    data

/- The decryption of the mode, with the inverse of the cipher. -/
def referenceXts
    (E : K → Equiv.Perm AesBlock)
    (data : List U8)
    (key1 key2 : K)
    (sectorNumber : U64)
    (sectorSize : Nat) : List U8 :=
  mapBlocks
    (fun i =>
      xexBlock (E key1).symm
        (xtsTweak E key2 sectorSize sectorNumber i))
    data

theorem xor_xor (a b : AesBlock) : xor (xor a b) b = a := by
  funext j
  show a j ^^^ b j ^^^ b j = a j
  rw [BitVec.xor_assoc, BitVec.xor_self, BitVec.xor_zero]

/- The mode is inverted by the inverse of the cipher. -/
theorem referenceXts_encryptXts
    (E : K → Equiv.Perm AesBlock)
    {data : List U8}
    (hWhole : data.length % 16 = 0)
    (key1 key2 : K)
    (sectorNumber : U64)
    (sectorSize : Nat) :
    referenceXts E
        (encryptXts E data key1 key2 sectorNumber sectorSize)
        key1 key2 sectorNumber sectorSize =
      data := by
  apply BlockMap.mapBlocks_mapBlocks ?_ hWhole
  intro i b
  unfold xexBlock
  rw [xor_xor, Equiv.symm_apply_apply, xor_xor]

------
-- What the Loops Compute
------

variable {E : K → AesBlock → AesBlock} {key1 key2 : K}
variable {data : List U8}

def nextTweak (tweak : AesBlock) : AesBlock := mulGF128 tweak tweak

theorem xtsBlocks_eq
    {n m : Nat}
    (hLength : data.length = 16 * m)
    (hEnough : m ≤ n)
    (tweak : AesBlock) :
    xtsBlocks (fun k b => some (E k b)) key1 n tweak data =
      some
        (mapBlocks
          (fun i => xexBlock (E key1) (nextTweak^[i] tweak))
          data) := by
  induction m generalizing n tweak data with
  | zero =>
      rw [List.length_eq_zero_iff.mp hLength]
      cases n <;> rfl
  | succ m ih =>
      cases n with
      | zero => omega
      | succ n =>
          have hFirst : (data.take 16).length = 16 * 1 := by
            rw [List.length_take]
            omega
          have hDrop : (data.drop 16).length = 16 * m := by
            rw [List.length_drop]
            omega
          have hBlock :
              blockAt 16 (data.take 16) 0 = blockAt 16 data 0 := by
            funext j
            have hJ := j.isLt
            unfold blockAt
            rw [List.getD_eq_getElem?_getD,
              List.getD_eq_getElem?_getD, List.getElem?_take,
              if_pos (by omega)]
          have hSplit :=
            BlockMap.mapBlocks_append
              (fun i => xexBlock (E key1) (nextTweak^[i] tweak))
              hFirst (data.drop 16)
          rw [List.take_append_drop,
            BlockMap.mapBlocks_single hFirst, hBlock] at hSplit
          rw [hSplit]
          cases data with
          | nil => simp at hLength
          | cons b data =>
              unfold xtsBlocks
              rw [ih hDrop (by omega)]
              show some (_ ++ _) = _
              simp only [Nat.add_comm 1,
                Function.iterate_succ_apply]
              rfl

theorem numSectors_pos
    {size sectorSize : Nat}
    (hPos : 0 < sectorSize)
    (hSome : 0 < size) :
    numSectors size sectorSize =
      numSectors (size - sectorSize) sectorSize + 1 := by
  unfold numSectors
  rcases Nat.lt_or_ge size sectorSize with hLess | hGe
  · rw [Nat.mod_eq_of_lt hLess, Nat.div_eq_of_lt hLess,
      Nat.sub_eq_zero_of_le (Nat.le_of_lt hLess), Nat.zero_mod,
      Nat.zero_div, if_pos (by omega), if_neg (by omega)]
  · rw [← Nat.mod_eq_sub_mod hGe,
      Nat.div_eq_sub_div hPos hGe]
    split <;> rfl

theorem tweakAt_of_lt
    {step : AesBlock → AesBlock}
    {first : U64 → AesBlock}
    {blocks i : Nat}
    (hI : i < blocks)
    (sectorNumber : U64) :
    tweakAt step first blocks sectorNumber i =
      step^[i] (first sectorNumber) := by
  unfold tweakAt
  rw [Nat.mod_eq_of_lt hI, Nat.div_eq_of_lt hI]
  congr 2
  exact BitVec.add_zero _

/- The next sector goes on with the next number. -/
theorem tweakAt_add
    {step : AesBlock → AesBlock}
    {first : U64 → AesBlock}
    {blocks : Nat}
    (hPos : 0 < blocks)
    (sectorNumber : U64)
    (i : Nat) :
    tweakAt step first blocks sectorNumber (blocks + i) =
      tweakAt step first blocks (sectorNumber + 1) i := by
  unfold tweakAt
  rw [Nat.add_mod_left, Nat.add_div_left _ hPos,
    Nat.add_comm _ 1, BitVec.ofNat_add, ← BitVec.add_assoc]
  rfl

theorem xtsSectors_eq
    {blocks n : Nat}
    (hPos : 0 < blocks)
    (hWhole : data.length % 16 = 0)
    (hSectors : numSectors data.length (16 * blocks) = n)
    (sectorNumber : U64) :
    xtsSectors (fun k b => some (E k b)) key1 key2 (16 * blocks) n
        sectorNumber data =
      some
        (mapBlocks
          (fun i =>
            xexBlock (E key1)
              (tweakAt nextTweak (fun n => E key2 (sectorTweak n))
                blocks sectorNumber i))
          data) := by
  induction n generalizing sectorNumber data with
  | zero =>
      have hNone : data.length = 0 := by
        by_contra hSome
        rw [numSectors_pos (by omega) (by omega)] at hSectors
        omega
      rw [List.length_eq_zero_iff.mp hNone]
      rfl
  | succ n ih =>
      have hSome : 0 < data.length := by
        rcases Nat.eq_zero_or_pos data.length with hZero | hMore
        · rw [hZero] at hSectors
          simp [numSectors] at hSectors
        · exact hMore
      rw [numSectors_pos (by omega) hSome] at hSectors
      rw [← List.length_drop] at hSectors
      have hWholeRest :
          (data.drop (16 * blocks)).length % 16 = 0 := by
        rw [List.length_drop]
        omega
      have hRest :=
        ih hWholeRest (Nat.succ_injective hSectors)
          (sectorNumber + 1)
      have hTake :
          (data.take (16 * blocks)).length =
            16 * (min (16 * blocks) data.length / 16) := by
        rw [List.length_take]
        omega
      have hFirst :
          xtsBlocks (fun k b => some (E k b)) key1 data.length
              (E key2 (sectorTweak sectorNumber))
              (data.take (16 * blocks)) =
            some _ :=
        xtsBlocks_eq hTake (by omega)
          (E key2 (sectorTweak sectorNumber))
      unfold xtsSectors
      show (Option.bind (xtsBlocks _ _ _ _ _) _) = _
      rw [hFirst]
      show (Option.bind (xtsSectors _ _ _ _ _ _ _) _) = _
      rw [hRest]
      show some (_ ++ _) = _
      have hHead :
          mapBlocks
              (fun i =>
                xexBlock (E key1)
                  (nextTweak^[i]
                    (E key2 (sectorTweak sectorNumber))))
              (data.take (16 * blocks)) =
            mapBlocks
              (fun i =>
                xexBlock (E key1)
                  (tweakAt nextTweak
                    (fun n => E key2 (sectorTweak n)) blocks
                    sectorNumber i))
              (data.take (16 * blocks)) := by
        apply BlockMap.mapBlocks_congr
        · intro i hI
          rw [List.length_take] at hI
          rw [tweakAt_of_lt (by omega)]
        · rw [List.length_take]
          omega
      have hTail :
          mapBlocks
              (fun i =>
                xexBlock (E key1)
                  (tweakAt nextTweak
                    (fun n => E key2 (sectorTweak n)) blocks
                    (sectorNumber + 1) i))
              (data.drop (16 * blocks)) =
            mapBlocks
              (fun i =>
                xexBlock (E key1)
                  (tweakAt nextTweak
                    (fun n => E key2 (sectorTweak n)) blocks
                    sectorNumber
                    (min (16 * blocks) data.length / 16 + i)))
              (data.drop (16 * blocks)) := by
        apply BlockMap.mapBlocks_congr
        · intro i hI
          rw [List.length_drop] at hI
          have hFull :
              min (16 * blocks) data.length / 16 = blocks := by
            omega
          rw [hFull, tweakAt_add hPos]
        · rw [List.length_drop]
          omega
      rw [hHead, hTail,
        ← BlockMap.mapBlocks_append
          (fun i =>
            xexBlock (E key1)
              (tweakAt nextTweak
                (fun n => E key2 (sectorTweak n)) blocks
                sectorNumber i)) hTake,
        List.take_append_drop]

/- The tweaks as the loops compute them. -/
def loopTweak
    (E : K → AesBlock → AesBlock)
    (key2 : K)
    (sectorSize : Nat) : U64 → Nat → AesBlock :=
  tweakAt nextTweak (fun n => E key2 (sectorTweak n))
    (sectorSize / 16)

/- Every block is enciphered between its masks. -/
theorem decryptXts_eq
    {sectorSize : Nat}
    (hWhole : data.length % 16 = 0)
    (hSector : sectorSize % 16 = 0)
    (hPos : 0 < sectorSize)
    (sectorNumber : U64) :
    decryptXts (fun k b => some (E k b)) data key1 key2
        sectorNumber sectorSize =
      some
        (mapBlocks
          (fun i =>
            xexBlock (E key1)
              (loopTweak E key2 sectorSize sectorNumber i))
          data) := by
  rcases Nat.dvd_of_mod_eq_zero hSector with ⟨blocks, hBlocks⟩
  have hDiv : sectorSize / 16 = blocks := by omega
  have hAllowed :
      ¬ (data.length % 16 ≠ 0 ∨ sectorSize % 16 ≠ 0) := by
    omega
  unfold decryptXts loopTweak
  rw [if_neg hAllowed, if_neg (Nat.ne_of_gt hPos), hDiv, hBlocks]
  exact xtsSectors_eq (by omega) hWhole rfl sectorNumber

------
-- What Comes Out
------

/- The number of a sector is written as it should. -/
theorem sectorTweak_eq (sectorNumber : U64) :
    sectorTweak sectorNumber =
      toBlock (sectorNumber.setWidth 128) := by
  funext i
  have hI := i.isLt
  unfold sectorTweak toBlock
  rw [WordBytes.byte_setWidth _ (by omega)]
  by_cases hLow : i < 8
  · rw [if_pos hLow]
  · have hAbove : 8 ≤ i.val := by
      rw [Fin.lt_def, Nat.not_lt] at hLow
      exact hLow
    have hPower : 2 ^ 64 ≤ 2 ^ (8 * i.val) :=
      Nat.pow_le_pow_right (by decide) (by omega)
    rw [if_neg hLow,
      WordBytes.byte_eq_zero
        (Nat.lt_of_lt_of_le sectorNumber.isLt hPower)]

/- A cipher that adds one to every byte. -/
def addOne : Equiv.Perm AesBlock := Equiv.addRight fun _ => 1

theorem addOne_addOne_ne (b : AesBlock) : addOne (addOne b) ≠ b := by
  intro hEq
  have hByte : b 0 + 1 + 1 = b 0 := congrFun hEq 0
  rw [BitVec.add_assoc] at hByte
  have hTwo : (1 + 1 : U8) = 0 := BitVec.add_right_eq_self.mp hByte
  exact absurd hTwo (by decide)

/-
  The first block is masked with the right tweak.  It is
  enciphered twice.
-/
theorem data_eq_nil_of_inverts
    {sectorSize : Nat}
    (hWhole : data.length % 16 = 0)
    (hSector : sectorSize % 16 = 0)
    (hPos : 0 < sectorSize)
    {sectorNumber : U64}
    (hInverts :
      ∀ E : K → Equiv.Perm AesBlock,
        decryptXts (fun k b => some (E k b))
            (encryptXts E data key1 key2 sectorNumber sectorSize)
            key1 key2 sectorNumber sectorSize =
          some data) :
    data = [] := by
  by_contra hSome
  have hBlock : 16 * (0 + 1) ≤ data.length := by
    have hLength : data.length ≠ 0 := by
      intro hZero
      exact hSome (List.length_eq_zero_iff.mp hZero)
    omega
  have hData := hInverts fun _ => addOne
  rw [decryptXts_eq (by unfold encryptXts; simpa using hWhole)
    hSector hPos, Option.some.injEq] at hData
  have hFirst := congrArg (fun d => blockAt 16 d 0) hData
  unfold encryptXts at hFirst
  rw [BlockMap.blockAt_mapBlocks (by simpa using hBlock),
    BlockMap.blockAt_mapBlocks hBlock] at hFirst
  have hTweak :
      loopTweak (fun _ : K => addOne) key2 sectorSize sectorNumber
          0 =
        xtsTweak (fun _ : K => addOne) key2 sectorSize
          sectorNumber 0 := by
    unfold loopTweak xtsTweak
    rw [tweakAt_of_lt (by omega), tweakAt_of_lt (by omega),
      Function.iterate_zero, Function.iterate_zero,
      sectorTweak_eq]
  rw [hTweak] at hFirst
  generalize
    xtsTweak (fun _ : K => addOne) key2 sectorSize sectorNumber
      0 = tweak at hFirst
  generalize blockAt 16 data 0 = block at hFirst
  unfold xexBlock at hFirst
  rw [xor_xor] at hFirst
  have hTwice := congrArg (fun b => xor b tweak) hFirst
  rw [xor_xor] at hTwice
  exact addOne_addOne_ne _ hTwice

theorem xts_inverts_iff
    {sectorSize : Nat}
    (hWhole : data.length % 16 = 0)
    (hSector : sectorSize % 16 = 0)
    (hPos : 0 < sectorSize)
    (key1 key2 : K)
    (sectorNumber : U64) :
    (∀ E : K → Equiv.Perm AesBlock,
        decryptXts (fun k b => some (E k b))
            (encryptXts E data key1 key2 sectorNumber sectorSize)
            key1 key2 sectorNumber sectorSize =
          some data) ↔
      data = [] := by
  refine ⟨data_eq_nil_of_inverts hWhole hSector hPos, ?_⟩
  intro hNone E
  rw [hNone]
  exact decryptXts_eq rfl hSector hPos sectorNumber

/- No data, whatever the cipher. -/
theorem xts_inverts_iff_nil :
    decryptXts (fun _ b => some b)
        (encryptXts (fun _ => Equiv.refl AesBlock) []
          (1 : U8) 2 3 32)
        1 2 3 32 =
      some [] :=
  (xts_inverts_iff rfl rfl (by decide) (1 : U8) 2 3).mpr rfl
    (fun _ => Equiv.refl AesBlock)

/- One block, in one sector. -/
theorem not_xts_inverts :
    ¬ ∀ E : AesBlock → Equiv.Perm AesBlock,
      decryptXts (fun k b => some (E k b))
          (encryptXts E (List.replicate 16 0) (fun _ => 1)
            (fun _ => 2) 0 16)
          (fun _ => 1) (fun _ => 2) 0 16 =
        some (List.replicate 16 0) := by
  intro hInverts
  have hNil :=
    data_eq_nil_of_inverts rfl rfl (by decide) hInverts
  exact absurd hNil (by decide)

end AesCrypto

end M1Switch
