import Mathlib.Data.List.GetD
import M1Switch.Library.Lz4Block.Encoding
import M1Switch.Loader.Nso.Segments

/-
  What compressed data is unpacked to.

  The decoder of the loader follows the block format where its
  data is a block, and there is room for what that stands for.
  The bytes of the block and the output so far are related to
  positions in the data and in memory.

  Key definitions include:
    * `NsoLoader.Shows`
    * `NsoLoader.PutOut`

  Main results:
    * `sequences_of_decode`
    * `decompressLz4_of_decode`
    * `decompressLz4_encode`
-/

------
-- Lengths
------

namespace M1Switch

namespace NsoLoader

variable {input : Bytes} {inSize dst dstSize : Nat}
variable {mem mem₀ mem' : HostMemory} {p : Nat} {b : U8}
variable {block rest out out' : List U8}

/- The rest of the data, from a position on, is a block. -/
structure Shows
    (input : Bytes)
    (inSize p : Nat)
    (block : List U8) : Prop where
  ends : p + block.length = inSize
  bytes : ∀ i < block.length, input (p + i) = block.getD i 0

theorem Shows.head
    (hShows : Shows input inSize p (b :: block)) :
    input p = b :=
  hShows.bytes 0 (Nat.succ_pos _)

theorem Shows.drop
    (hShows : Shows input inSize p block)
    {k : Nat}
    (hK : k ≤ block.length) :
    Shows input inSize (p + k) (block.drop k) where
  ends := by
    rw [List.length_drop, ← hShows.ends]
    omega
  bytes i hI := by
    rw [List.length_drop] at hI
    have hByte := hShows.bytes (k + i) (by omega)
    rw [← Nat.add_assoc] at hByte
    rw [hByte, List.getD_eq_getElem?_getD,
      List.getD_eq_getElem?_getD, List.getElem?_drop]

theorem Shows.tail
    (hShows : Shows input inSize p (b :: block)) :
    Shows input inSize (p + 1) block :=
  hShows.drop (Nat.succ_pos _)

/- The literals of a block, as bytes of the data. -/
theorem Shows.take
    (hShows : Shows input inSize p block)
    {k i : Nat}
    (hK : k ≤ block.length)
    (hI : i < k) :
    input (p + i) = (block.take k).getD i 0 := by
  rw [hShows.bytes i (by omega), List.getD_eq_getElem?_getD,
    List.getD_eq_getElem?_getD, List.getElem?_take_of_lt hI]

/- Further bytes are added up.  The sum starts with `k` more
than the format has. -/
theorem readExtra_of_extend
    {len len' k n : Nat}
    (hShows : Shows input inSize p block)
    (hExtend : Lz4Block.extend len block = some (len', rest))
    (hFuel : block.length ≤ n) :
    ∃ p',
      readExtra input inSize n (BitVec.ofNat 32 (len + k)) p =
          (BitVec.ofNat 32 (len' + k), p') ∧
        Shows input inSize p' rest := by
  induction block generalizing len p n with
  | nil => cases hExtend
  | cons b block ih =>
      cases n with
      | zero => cases hFuel
      | succ n =>
          have hSum :
              BitVec.ofNat 32 (len + k) + b.setWidth 32 =
                BitVec.ofNat 32 (len + b.toNat + k) := by
            apply BitVec.eq_of_toNat_eq
            have hByte := b.isLt
            rw [BitVec.toNat_add, BitVec.toNat_setWidth,
              BitVec.toNat_ofNat, BitVec.toNat_ofNat]
            omega
          rw [readExtra, hShows.head, hSum]
          rw [Lz4Block.extend] at hExtend
          by_cases hFull : b = 255
          · rw [if_pos hFull] at hExtend
            have hMore : p + 1 < inSize := by
              have hEnds := hShows.ends
              rw [List.length_cons] at hEnds
              cases block with
              | nil => cases hExtend
              | cons c block =>
                  rw [List.length_cons] at hEnds
                  omega
            rw [if_pos ⟨hFull, hMore⟩, hFull]
            exact
              ih hShows.tail hExtend (Nat.le_of_succ_le_succ hFuel)
          · rw [if_neg hFull] at hExtend
            cases hExtend
            rw [if_neg fun hBoth => hFull hBoth.1]
            exact ⟨p + 1, rfl, hShows.tail⟩

theorem readLen_of_readLength
    {bits : U8}
    {len k : Nat}
    (hShows : Shows input inSize p block)
    (hBits : bits.toNat ≤ 15)
    (hRead : Lz4Block.readLength bits block = some (len, rest)) :
    ∃ p',
      readLen input inSize (BitVec.ofNat 32 (bits.toNat + k))
            (BitVec.ofNat 32 (15 + k)) p =
          (BitVec.ofNat 32 (len + k), p') ∧
        Shows input inSize p' rest := by
  have hFull :
      BitVec.ofNat 32 (bits.toNat + k) =
          BitVec.ofNat 32 (15 + k) ↔
        bits = 15 := by
    constructor
    · intro hEq
      have hToNat := congrArg BitVec.toNat hEq
      rw [BitVec.toNat_ofNat, BitVec.toNat_ofNat] at hToNat
      apply BitVec.eq_of_toNat_eq
      show bits.toNat = 15
      omega
    · intro hEq
      rw [hEq]
      rfl
  unfold readLen
  rw [Lz4Block.readLength] at hRead
  by_cases hMore : bits = 15
  · rw [if_pos hMore] at hRead
    rw [if_pos (hFull.mpr hMore), hMore]
    have hFuel : block.length ≤ inSize + 1 := by
      have hEnds := hShows.ends
      omega
    exact readExtra_of_extend hShows hRead hFuel
  · rw [if_neg hMore] at hRead
    cases hRead
    rw [if_neg fun hEq => hMore (hFull.mp hEq)]
    exact ⟨p, rfl, hShows⟩

/- The four bits of the literals. -/
theorem literalBits (token : U8) :
    (token.setWidth 32 >>> 4) &&& (0xF : U32) =
        BitVec.ofNat 32 ((token >>> 4).toNat + 0) ∧
      (token >>> 4).toNat ≤ 15 := by
  have hByte := token.isLt
  have hMask (x : Nat) : x &&& 15 = x % 16 :=
    Nat.and_two_pow_sub_one_eq_mod x 4
  constructor
  · apply BitVec.eq_of_toNat_eq
    rw [BitVec.toNat_and, BitVec.toNat_ushiftRight,
      BitVec.toNat_setWidth, BitVec.toNat_ofNat,
      BitVec.toNat_ushiftRight, Nat.shiftRight_eq_div_pow,
      Nat.shiftRight_eq_div_pow]
    show _ &&& 15 = _
    rw [hMask]
    omega
  · rw [BitVec.toNat_ushiftRight, Nat.shiftRight_eq_div_pow]
    omega

/- The four bits of the match. -/
theorem matchBits (token : U8) :
    (token.setWidth 32 &&& 0xF) + 4 =
        BitVec.ofNat 32 ((token &&& 0xF).toNat + 4) ∧
      (token &&& 0xF).toNat ≤ 15 := by
  have hByte := token.isLt
  have hMask (x : Nat) : x &&& 15 = x % 16 :=
    Nat.and_two_pow_sub_one_eq_mod x 4
  have hBits : (token &&& 0xF).toNat = token.toNat % 16 := by
    rw [BitVec.toNat_and]
    exact hMask _
  constructor
  · apply BitVec.eq_of_toNat_eq
    rw [BitVec.toNat_add, BitVec.toNat_and,
      BitVec.toNat_setWidth, BitVec.toNat_ofNat, hBits]
    show ((_ &&& 15) + 4) % _ = _
    rw [hMask]
    omega
  · rw [hBits]
    omega

------
-- Output
------

/- The output so far is in place, and other memory is as it
was. -/
structure PutOut
    (mem₀ : HostMemory)
    (dst dstSize : Nat)
    (out : List U8)
    (mem : HostMemory) : Prop where
  mapped : mem.Mapped dst dstSize
  bytes :
    ∀ i, mem.bytes i =
      if dst ≤ i ∧ i < dst + out.length then
        some (out.getD (i - dst) 0)
      else mem₀.bytes i

/- A byte of the output. -/
theorem PutOut.get
    (hOut : PutOut mem₀ dst dstSize out mem)
    {k : Nat}
    (hK : k < out.length) :
    mem.bytes (dst + k) = some (out.getD k 0) := by
  rw [hOut.bytes, if_pos ⟨by omega, by omega⟩,
    Nat.add_sub_cancel_left]

/- More bytes are put behind the others. -/
theorem PutOut.append
    (hOut : PutOut mem₀ dst dstSize out mem)
    (new : List U8)
    (hFits : out.length + new.length ≤ dstSize)
    (source : Bytes)
    (hSource : ∀ k < new.length, source k = new.getD k 0) :
    ∃ mem',
      mem.fillRange (dst + out.length) new.length source =
          some mem' ∧
        PutOut mem₀ dst dstSize (out ++ new) mem' := by
  have hMapped : mem.Mapped (dst + out.length) new.length := by
    intro i hI
    rw [Nat.add_assoc]
    exact hOut.mapped (out.length + i) (by omega)
  have hSome :
      (mem.fillRange (dst + out.length) new.length source).isSome =
        true := by
    unfold HostMemory.fillRange
    rw [if_pos hMapped]
    rfl
  rcases Option.isSome_iff_exists.mp hSome with ⟨mem', hFill⟩
  have hConfined :=
    HostMemory.confined_fillRange hFill (Nat.le_refl _)
      (Nat.le_refl _)
  refine ⟨mem', hFill, ?_, ?_⟩
  · intro i hI
    rw [hConfined.isSome]
    exact hOut.mapped i hI
  · intro i
    rw [HostMemory.bytes_fillRange hFill, List.length_append]
    by_cases hNew :
        dst + out.length ≤ i ∧ i < dst + out.length + new.length
    · have hPos : i - dst - out.length = i - (dst + out.length) := by
        omega
      rw [if_pos hNew, if_pos ⟨by omega, by omega⟩,
        hSource _ (by omega),
        List.getD_append_right _ _ _ _ (by omega), hPos]
    · rw [if_neg hNew, hOut.bytes]
      by_cases hOld : dst ≤ i ∧ i < dst + out.length
      · rw [if_pos hOld, if_pos ⟨hOld.1, by omega⟩,
          List.getD_append _ _ _ _ (by omega)]
      · rw [if_neg hOld, if_neg (by omega)]

/- A match is repeated as the format has it. -/
theorem copyMatch_of_putOut
    {offset n : Nat}
    (hOut : PutOut mem₀ dst dstSize out mem)
    (hOffset : offset ≠ 0)
    (hBack : offset ≤ out.length)
    (hFits : out.length + n ≤ dstSize) :
    ∃ mem',
      copyMatch dst dstSize offset n mem out.length =
          some (mem', out.length + n) ∧
        PutOut mem₀ dst dstSize (Lz4Block.copyMatch offset n out)
          mem' := by
  induction n generalizing mem out with
  | zero => exact ⟨mem, rfl, hOut⟩
  | succ n ih =>
      have hGet := hOut.get (k := out.length - offset) (by omega)
      have hPos :
          dst + out.length - offset = dst + (out.length - offset) := by
        omega
      have hAppend :=
        hOut.append [out.getD (out.length - offset) 0]
          (by rw [List.length_singleton]; omega)
          (fun _ => out.getD (out.length - offset) 0)
          (by
            intro k hK
            rw [List.length_singleton, Nat.lt_one_iff] at hK
            rw [hK]
            rfl)
      rcases hAppend with ⟨mem₁, hFill, hOut₁⟩
      have hLength :
          (out ++ [out.getD (out.length - offset) 0]).length =
            out.length + 1 :=
        List.length_append
      rcases
        ih hOut₁ (by rw [hLength]; omega)
          (by rw [hLength]; omega) with
        ⟨mem₂, hCopy, hOut₂⟩
      refine ⟨mem₂, ?_, hOut₂⟩
      rw [List.length_singleton] at hFill
      rw [hLength] at hCopy
      rw [copyMatch, if_pos (by omega), hPos, hGet,
        Option.bind_eq_bind, Option.bind_some, hFill,
        Option.bind_eq_bind, Option.bind_some, hCopy,
        Nat.add_right_comm, Nat.add_assoc]

------
-- Sequences
------

/- A sequence whose literals are there and have room. -/
theorem sequence_of_literals
    {token : U8}
    {lit : Nat}
    (hShows : Shows input inSize p (token :: block))
    (hOut : PutOut mem₀ dst dstSize out mem)
    (hRead :
      Lz4Block.readLength (token >>> 4) block = some (lit, rest))
    (hLit : lit ≤ rest.length)
    (hFits : out.length + lit ≤ dstSize)
    (hSmall : out.length + lit < 2 ^ 32) :
    ∃ q mem₁,
      Shows input inSize q (rest.drop lit) ∧
        PutOut mem₀ dst dstSize (out ++ rest.take lit) mem₁ ∧
        sequence input inSize dst dstSize ⟨mem, p, out.length⟩ =
          if q ≥ inSize then
            some (false, ⟨mem₁, q, out.length + lit⟩)
          else
            let offset :=
              (input q).toNat + 256 * (input (q + 1)).toNat
            if offset = 0 then
              some (false, ⟨mem₁, q + 2, out.length + lit⟩)
            else
              let len :=
                readLen input inSize
                  ((token.setWidth 32 &&& 0xF) + 4) 19 (q + 2)
              (copyMatch dst dstSize offset len.1.toNat mem₁
                  (out.length + lit)).bind fun copied =>
                some (true, ⟨copied.1, len.2, copied.2⟩) := by
  rcases literalBits token with ⟨hBits, hNibble⟩
  rcases readLen_of_readLength (k := 0) hShows.tail hNibble hRead
    with ⟨p₁, hLen, hRest⟩
  have hTake : (rest.take lit).length = lit := by
    rw [List.length_take]
    omega
  have hAppend :=
    hOut.append (rest.take lit) (by rw [hTake]; exact hFits)
      (fun k => input (p₁ + k))
      (by
        intro k hK
        rw [hTake] at hK
        exact hRest.take hLit hK)
  rw [hTake] at hAppend
  rcases hAppend with ⟨mem₁, hFill, hOut₁⟩
  refine ⟨p₁ + lit, mem₁, hRest.drop hLit, hOut₁, ?_⟩
  have hToNat : (BitVec.ofNat 32 (lit + 0)).toNat = lit := by
    rw [BitVec.toNat_ofNat]
    omega
  have hCopy : min lit (dstSize - out.length) = lit := by
    omega
  have hInside : ¬ p₁ + lit > inSize := by
    have hEnds := hRest.ends
    omega
  have hFull : (15 : U32) = BitVec.ofNat 32 (15 + 0) := rfl
  unfold sequence
  dsimp only
  rw [hShows.head, hBits, hFull, hLen, hToNat, hCopy,
    if_neg fun hBoth => hInside hBoth.2, hFill]
  rfl

/- The last sequence. -/
theorem sequence_last
    {token : U8}
    {lit : Nat}
    (hShows : Shows input inSize p (token :: block))
    (hOut : PutOut mem₀ dst dstSize out mem)
    (hRead :
      Lz4Block.readLength (token >>> 4) block = some (lit, rest))
    (hLit : lit ≤ rest.length)
    (hFits : out.length + lit ≤ dstSize)
    (hSmall : out.length + lit < 2 ^ 32)
    (hEnd : rest.drop lit = []) :
    ∃ q mem₁,
      sequence input inSize dst dstSize ⟨mem, p, out.length⟩ =
          some (false, ⟨mem₁, q, out.length + lit⟩) ∧
        PutOut mem₀ dst dstSize (out ++ rest.take lit) mem₁ := by
  rcases
    sequence_of_literals hShows hOut hRead hLit hFits hSmall with
    ⟨q, mem₁, hRest, hOut₁, hStep⟩
  have hEnds := hRest.ends
  rw [hEnd, List.length_nil, Nat.add_zero] at hEnds
  refine ⟨q, mem₁, ?_, hOut₁⟩
  rw [hStep, if_pos (Nat.le_of_eq hEnds.symm)]

/- A sequence with a match. -/
theorem sequence_more
    {token : U8}
    {lit offset len : Nat}
    {last : List U8}
    (hShows : Shows input inSize p (token :: block))
    (hOut : PutOut mem₀ dst dstSize out mem)
    (hRead :
      Lz4Block.readLength (token >>> 4) block = some (lit, rest))
    (hLit : lit ≤ rest.length)
    (hMatch :
      Lz4Block.MatchAt token (out ++ rest.take lit)
        (rest.drop lit) offset len last)
    (hFits : out.length + lit + (len + 4) ≤ dstSize)
    (hSmall : out.length + lit + (len + 4) < 2 ^ 32) :
    ∃ q mem₁,
      sequence input inSize dst dstSize ⟨mem, p, out.length⟩ =
          some
            (true, ⟨mem₁, q, out.length + lit + (len + 4)⟩) ∧
        Shows input inSize q last ∧
        PutOut mem₀ dst dstSize
          (Lz4Block.copyMatch offset (len + 4)
            (out ++ rest.take lit))
          mem₁ := by
  rcases
    sequence_of_literals hShows hOut hRead hLit (by omega)
      (by omega) with
    ⟨q, mem₁, hRest, hOut₁, hStep⟩
  rcases hMatch.distance with
    ⟨low, high, behind, hBlock, hOffset, hLen⟩
  rw [hBlock] at hRest
  have hLow := hRest.head
  have hHigh := hRest.tail.head
  have hInside : ¬ q ≥ inSize := by
    have hEnds := hRest.ends
    rw [List.length_cons] at hEnds
    omega
  rcases matchBits token with ⟨hBits, hNibble⟩
  rcases
    readLen_of_readLength (k := 4) hRest.tail.tail hNibble hLen
    with ⟨q', hReadLen, hLast⟩
  have hToNat : (BitVec.ofNat 32 (len + 4)).toNat = len + 4 := by
    rw [BitVec.toNat_ofNat]
    omega
  have hLength : (out ++ rest.take lit).length = out.length + lit := by
    rw [List.length_append, List.length_take]
    omega
  rcases
    copyMatch_of_putOut hOut₁ hMatch.ne_zero hMatch.le
      (by rw [hLength]; exact hFits) with
    ⟨mem₂, hCopy, hOut₂⟩
  rw [hLength] at hCopy
  refine ⟨q', mem₂, ?_, hLast, hOut₂⟩
  have hFull : (19 : U32) = BitVec.ofNat 32 (15 + 4) := rfl
  rw [hStep, if_neg hInside, hLow, hHigh, ← hOffset]
  dsimp only
  rw [if_neg hMatch.ne_zero, hBits, hFull, hReadLen, hToNat,
    hCopy, Option.bind_some]

/- The decoder goes on as the format does, until the output is
complete. -/
theorem sequences_of_decode
    {n m : Nat}
    (hDecode :
      Lz4Block.decodeSequences n block out = some out')
    (hShows : Shows input inSize p block)
    (hOut : PutOut mem₀ dst dstSize out mem)
    (hFits : out'.length ≤ dstSize)
    (hSmall : out'.length < 2 ^ 32)
    (hEnough : block.length ≤ m) :
    ∃ run,
      sequences input inSize dst dstSize m
            ⟨mem, p, out.length⟩ =
          some run ∧
        run.outPos = out'.length ∧
        PutOut mem₀ dst dstSize out' run.mem := by
  induction n generalizing block out mem p m with
  | zero => cases hDecode
  | succ n ih =>
      cases block with
      | nil => cases hDecode
      | cons token block =>
          cases m with
          | zero => cases hEnough
          | succ m =>
              have hPrefix := Lz4Block.prefix_decodeSequences hDecode
              have hMore : p < inSize := by
                have hEnds := hShows.ends
                rw [List.length_cons] at hEnds
                omega
              rw [List.length_cons] at hEnough
              rw [sequences]
              by_cases hRoom : out.length < dstSize
              · rw [if_pos ⟨hMore, hRoom⟩]
                rcases Lz4Block.decodeSequences_cases hDecode with
                  ⟨lit, rest, hRead, hLit, hCases⟩
                have hLength :
                    (out ++ rest.take lit).length =
                      out.length + lit := by
                  rw [List.length_append, List.length_take]
                  omega
                rcases hCases with
                  ⟨hEnd, hOut'⟩ |
                    ⟨offset, len, last, hMatch, hRest⟩
                · rw [hOut', hLength] at hFits hSmall
                  rcases
                    sequence_last hShows hOut hRead hLit hFits
                      hSmall hEnd with
                    ⟨q, mem₁, hStep, hOut₁⟩
                  rw [hStep, hOut', hLength]
                  exact ⟨⟨mem₁, q, _⟩, rfl, rfl, hOut₁⟩
                · have hNext :
                      (Lz4Block.copyMatch offset (len + 4)
                          (out ++ rest.take lit)).length =
                        out.length + lit + (len + 4) := by
                    rw [Lz4Block.length_copyMatch, hLength]
                  have hLe :=
                    (Lz4Block.prefix_decodeSequences
                      hRest).length_le
                  rw [hNext] at hLe
                  rcases
                    sequence_more hShows hOut hRead hLit hMatch
                      (by omega) (by omega) with
                    ⟨q, mem₁, hStep, hLast, hOut₁⟩
                  have hShorter : last.length ≤ m := by
                    have hBehind := hMatch.length_le
                    have hAfter :=
                      Lz4Block.length_readLength_rest_le hRead
                    rw [List.length_drop] at hBehind
                    omega
                  rw [hStep, Option.bind_eq_bind,
                    Option.bind_some]
                  dsimp only
                  rw [if_pos rfl, ← hNext]
                  exact ih hRest hLast hOut₁ hShorter
              · -- There is no room: the output is complete.
                have hSame : out = out' :=
                  hPrefix.eq_of_length_le (by omega)
                rw [if_neg fun hBoth => hRoom hBoth.2]
                rw [hSame] at hOut ⊢
                exact ⟨⟨mem, p, _⟩, rfl, rfl, hOut⟩

------
-- The Round Trip
------

variable {src : Bytes} {seqs : List Lz4Block.Sequence}

/- A block with the magic in front. -/
def withMagic (block : List U8) : List U8 :=
  Bytes.ofWord 0x184D2204 ++ block

/- The data starts with these bytes. -/
def StartsWith (src : Bytes) (data : List U8) : Prop :=
  ∀ i < data.length, src i = data.getD i 0

theorem length_withMagic (block : List U8) :
    (withMagic block).length = 4 + block.length := by
  unfold withMagic
  rw [List.length_append]
  rfl

theorem isLZ4Compressed_withMagic
    (hSrc : StartsWith src (withMagic block)) :
    isLZ4Compressed src (withMagic block).length = true := by
  have hLength := length_withMagic block
  have hWord : src.word 0 = 0x184D2204 := by
    have hList :
        (Bytes.ofList (withMagic block) 0).word 0 = 0x184D2204 :=
      Bytes.word_of_drop rfl
    rw [← hList]
    apply Bytes.word_congr
    intro j hJ
    rw [Nat.zero_add, hSrc j (by omega)]
    unfold Bytes.ofList
    rw [Nat.zero_add]
  unfold isLZ4Compressed
  rw [hWord, beq_self_eq_true, Bool.and_true, decide_eq_true_eq]
  omega

theorem shows_withMagic
    (hSrc : StartsWith src (withMagic block)) :
    Shows (fun i => src (4 + i)) block.length 0 block where
  ends := Nat.zero_add _
  bytes i hI := by
    have hLength := length_withMagic block
    rw [Nat.zero_add, hSrc (4 + i) (by omega)]
    unfold withMagic
    rw [List.getD_append_right _ _ _ _ (Nat.le_add_right 4 i)]
    congr 1
    exact Nat.add_sub_cancel_left 4 i

/- A block is unpacked to what it stands for. -/
theorem decompressLz4_of_decode
    (hDecode : Lz4Block.decode block = some out)
    (hSrc : StartsWith src (withMagic block))
    (hFits : out.length ≤ dstSize)
    (hSmall : out.length < 2 ^ 32)
    (hDst : mem.Mapped dst dstSize) :
    ∃ mem',
      decompressLz4 src (withMagic block).length mem dst
            dstSize =
          some (mem', out.length) ∧
        PutOut mem dst dstSize out mem' := by
  have hOut : PutOut mem dst dstSize [] mem := by
    refine ⟨hDst, ?_⟩
    intro i
    rw [List.length_nil, if_neg (by omega)]
  rcases
    sequences_of_decode hDecode (shows_withMagic hSrc) hOut hFits
      hSmall (Nat.le_refl _) with
    ⟨run, hRun, hPos, hOut'⟩
  have hSize : (withMagic block).length - 4 = block.length := by
    rw [length_withMagic]
    omega
  refine ⟨run.mem, ?_, hOut'⟩
  unfold decompressLz4
  rw [isLZ4Compressed_withMagic hSrc, if_neg fun hNot => hNot rfl,
    hSize]
  dsimp only
  rw [List.length_nil] at hRun
  rw [hRun, Option.bind_eq_bind, Option.bind_some, hPos]

/-
  What sequences are written as is unpacked to what they stand
  for, and nothing else is written.
-/
theorem decompressLz4_encode
    (hSeqs : Lz4Block.WellFormed 0 seqs)
    (hSrc : StartsWith src (withMagic (Lz4Block.encode seqs)))
    (hFits : (Lz4Block.expand seqs).length ≤ dstSize)
    (hSmall : (Lz4Block.expand seqs).length < 2 ^ 32)
    (hDst : mem.Mapped dst dstSize) :
    ∃ mem',
      decompressLz4 src (withMagic (Lz4Block.encode seqs)).length
            mem dst dstSize =
          some (mem', (Lz4Block.expand seqs).length) ∧
        ∀ i, mem'.bytes i =
          if dst ≤ i ∧ i < dst + (Lz4Block.expand seqs).length then
            some ((Lz4Block.expand seqs).getD (i - dst) 0)
          else mem.bytes i := by
  by_cases hSome : seqs = []
  · -- There is nothing behind the magic.
    rw [hSome] at hSrc ⊢
    refine ⟨mem, ?_, ?_⟩
    · unfold decompressLz4
      rw [isLZ4Compressed_withMagic hSrc,
        if_neg fun hNot => hNot rfl]
      rfl
    · intro i
      have hNone : (Lz4Block.expand []).length = 0 := rfl
      rw [hNone, if_neg (by omega)]
  · rcases
      decompressLz4_of_decode (Lz4Block.decode_encode hSeqs hSome)
        hSrc hFits hSmall hDst with
      ⟨mem', hUnpack, hOut⟩
    exact ⟨mem', hUnpack, hOut.bytes⟩

/- Two bytes, repeated three times by a match that overlaps what
it puts out, and a last one. -/
def overlapping : List Lz4Block.Sequence :=
  [⟨[1, 2], some ⟨2, 6⟩⟩, ⟨[9], none⟩]

theorem decompressLz4_encode_overlapping :
    ∃ mem',
      decompressLz4
            (Bytes.ofList
              (withMagic (Lz4Block.encode overlapping)) 0)
            (withMagic (Lz4Block.encode overlapping)).length
            { bytes := fun _ => some 0 } 0x1000 10 =
          some (mem', (Lz4Block.expand overlapping).length) ∧
        ∀ i, mem'.bytes i =
          if 0x1000 ≤ i ∧ i < 0x1000 + 9 then
            some ([1, 2, 1, 2, 1, 2, 1, 2, 9].getD (i - 0x1000) 0)
          else some 0 :=
  decompressLz4_encode
    (.more ⟨by decide, by decide⟩ (by decide) (by decide)
      (by decide) (.last _ [9]))
    (by
      intro i _
      unfold Bytes.ofList
      rw [Nat.zero_add])
    (by decide) (by decide)
    (by
      intro i _
      rfl)

end NsoLoader

end M1Switch
