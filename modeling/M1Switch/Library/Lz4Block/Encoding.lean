import M1Switch.Library.Lz4Block

/-
  How LZ4 blocks are written.

  The token has four bits for each of the two lengths.  What is
  more than fifteen follows in bytes, each of them 255 except
  the last.  A match has its distance in two bytes.

  Key definitions include:
    * `Lz4Block.Sequence`
    * `encode`

  Main results:
    * `readLength_extraBytes`
    * `decode_encode`
-/

------
-- Sequences
------

namespace Lz4Block

structure Match where
  offset : Nat
  length : Nat
deriving DecidableEq

/- Literals, and a match behind them unless they are the last. -/
structure Sequence where
  literals : List (BitVec 8)
  copy : Option Match
deriving DecidableEq

/- What a length has behind the token. -/
def extraBytes (len : Nat) : List (BitVec 8) :=
  if len < 15 then []
  else
    List.replicate ((len - 15) / 255) 255 ++
      [BitVec.ofNat 8 ((len - 15) % 255)]

def tokenOf (literals len : Nat) : BitVec 8 :=
  BitVec.ofNat 8 (16 * min literals 15 + min len 15)

/- Four bytes of a match go without saying. -/
def Sequence.encode (s : Sequence) : List (BitVec 8) :=
  match s.copy with
  | none =>
      tokenOf s.literals.length 0 ::
        (extraBytes s.literals.length ++ s.literals)
  | some m =>
      tokenOf s.literals.length (m.length - 4) ::
        (extraBytes s.literals.length ++
          (s.literals ++
            BitVec.ofNat 8 m.offset ::
              BitVec.ofNat 8 (m.offset / 256) ::
                extraBytes (m.length - 4)))

def encode (seqs : List Sequence) : List (BitVec 8) :=
  seqs.flatMap Sequence.encode

/- The output once a sequence is put out as well. -/
def Sequence.put
    (out : List (BitVec 8))
    (s : Sequence) : List (BitVec 8) :=
  match s.copy with
  | none => out ++ s.literals
  | some m => copyMatch m.offset m.length (out ++ s.literals)

/- What sequences stand for. -/
def expand (seqs : List Sequence) : List (BitVec 8) :=
  seqs.foldl Sequence.put []

/- Sequences that can stand behind `n` bytes of output.  All but
the last have a match, which starts in the output so far. -/
inductive WellFormed : Nat → List Sequence → Prop
| nil (n : Nat) : WellFormed n []
| last (n : Nat) (literals : List (BitVec 8)) :
    WellFormed n [⟨literals, none⟩]
| more
    {n : Nat}
    {literals : List (BitVec 8)}
    {m : Match}
    {seqs : List Sequence}
    (hOffset : 1 ≤ m.offset ∧ m.offset ≤ 65535)
    (hBack : m.offset ≤ n + literals.length)
    (hLength : 4 ≤ m.length)
    (hMore : seqs ≠ [])
    (hRest :
      WellFormed (n + literals.length + m.length) seqs) :
    WellFormed n (⟨literals, some m⟩ :: seqs)

------
-- Lengths
------

variable {out : List (BitVec 8)} {seqs : List Sequence}

theorem toNat_tokenOf (literals len : Nat) :
    (tokenOf literals len).toNat =
      16 * min literals 15 + min len 15 := by
  unfold tokenOf
  rw [BitVec.toNat_ofNat]
  omega

theorem tokenOf_high (literals len : Nat) :
    tokenOf literals len >>> 4 =
      BitVec.ofNat 8 (min literals 15) := by
  apply BitVec.eq_of_toNat_eq
  rw [BitVec.toNat_ushiftRight, toNat_tokenOf,
    Nat.shiftRight_eq_div_pow, BitVec.toNat_ofNat]
  omega

theorem tokenOf_low (literals len : Nat) :
    tokenOf literals len &&& 0xF =
      BitVec.ofNat 8 (min len 15) := by
  have hMask (x : Nat) : x &&& 0xF = x % 16 :=
    Nat.and_two_pow_sub_one_eq_mod x 4
  apply BitVec.eq_of_toNat_eq
  rw [BitVec.toNat_and, toNat_tokenOf, BitVec.toNat_ofNat]
  show _ &&& 0xF = _
  rw [hMask]
  omega

/- Bytes of 255 are added up. -/
theorem extend_replicate
    (len n : Nat)
    (block : List (BitVec 8)) :
    extend len (List.replicate n 255 ++ block) =
      extend (len + 255 * n) block := by
  induction n generalizing len with
  | zero => rfl
  | succ n ih =>
      rw [List.replicate_succ, List.cons_append, extend,
        if_pos rfl, ih, Nat.mul_succ, Nat.add_assoc,
        Nat.add_comm 255]

theorem readLength_extraBytes
    (len : Nat)
    (rest : List (BitVec 8)) :
    readLength (BitVec.ofNat 8 (min len 15))
        (extraBytes len ++ rest) =
      some (len, rest) := by
  unfold readLength extraBytes
  by_cases hShort : len < 15
  · have hMin : min len 15 = len := by omega
    have hNat : (BitVec.ofNat 8 len).toNat = len := by
      rw [BitVec.toNat_ofNat]
      omega
    have hBits : BitVec.ofNat 8 len ≠ 15 := by
      intro hEq
      have hToNat := congrArg BitVec.toNat hEq
      rw [hNat] at hToNat
      exact absurd hToNat (Nat.ne_of_lt hShort)
    rw [hMin, if_neg hBits, if_pos hShort, hNat]
    rfl
  · have hMin : min len 15 = 15 := by omega
    have hLast :
        (BitVec.ofNat 8 ((len - 15) % 255)).toNat =
          (len - 15) % 255 := by
      rw [BitVec.toNat_ofNat]
      omega
    have hByte : BitVec.ofNat 8 ((len - 15) % 255) ≠ 255 := by
      intro hEq
      have hToNat := congrArg BitVec.toNat hEq
      rw [hLast] at hToNat
      exact
        absurd hToNat
          (Nat.ne_of_lt (Nat.mod_lt _ (by decide)))
    have hFull : BitVec.ofNat 8 15 = 15 := rfl
    rw [hMin, if_pos hFull, if_neg hShort, List.append_assoc,
      extend_replicate, List.singleton_append, extend,
      if_neg hByte, hLast]
    have hSum :
        15 + 255 * ((len - 15) / 255) + (len - 15) % 255 =
          len := by
      omega
    rw [hSum]

------
-- The Round Trip
------

theorem toNat_offset
    {offset : Nat}
    (hOffset : offset ≤ 65535) :
    (BitVec.ofNat 8 offset).toNat +
        256 * (BitVec.ofNat 8 (offset / 256)).toNat =
      offset := by
  rw [BitVec.toNat_ofNat, BitVec.toNat_ofNat]
  omega

theorem encode_cons (s : Sequence) (seqs : List Sequence) :
    encode (s :: seqs) = s.encode ++ encode seqs :=
  List.flatMap_cons

/- Every sequence has a token. -/
theorem encode_ne_nil
    (hSome : seqs ≠ []) :
    encode seqs ≠ [] := by
  cases seqs with
  | nil => exact absurd rfl hSome
  | cons s seqs =>
      rcases s with ⟨literals, copy⟩
      cases copy <;> exact List.cons_ne_nil _ _

/- The decoder goes on from what is put out. -/
theorem decodeSequences_encode
    (hSeqs : WellFormed out.length seqs)
    (hSome : seqs ≠ [])
    {n : Nat}
    (hEnough : (encode seqs).length ≤ n) :
    decodeSequences n (encode seqs) out =
      some (seqs.foldl Sequence.put out) := by
  generalize hLength : out.length = k at hSeqs
  induction hSeqs generalizing out n with
  | nil k => exact absurd rfl hSome
  | last k literals =>
      cases n with
      | zero => cases hEnough
      | succ n =>
          have hRead :=
            readLength_extraBytes literals.length literals
          rw [encode_cons]
          unfold Sequence.encode encode
          rw [List.flatMap_nil, List.append_nil, decodeSequences,
            tokenOf_high, hRead, Option.bind_eq_bind,
            Option.bind_some]
          dsimp only
          rw [if_neg (Nat.lt_irrefl _), List.take_length,
            List.drop_length]
          rfl
  | @more k literals m seqs hOffset hBack hLen hMore hRest ih =>
      cases n with
      | zero =>
          exact
            absurd (List.eq_nil_of_length_eq_zero
              (Nat.le_zero.mp hEnough)) (encode_ne_nil hSome)
      | succ n =>
          have hRead (rest : List (BitVec 8)) :=
            readLength_extraBytes literals.length
              (literals ++ rest)
          have hReadMatch :=
            readLength_extraBytes (m.length - 4) (encode seqs)
          have hFour : m.length - 4 + 4 = m.length := by omega
          have hPut :
              (copyMatch m.offset m.length
                  (out ++ literals)).length =
                k + literals.length + m.length := by
            rw [length_copyMatch, List.length_append, hLength]
          have hBounds :
              ¬ (m.offset = 0 ∨
                (out ++ literals).length < m.offset) := by
            rw [List.length_append, hLength]
            omega
          have hShorter : (encode seqs).length ≤ n := by
            rw [encode_cons, List.length_append] at hEnough
            unfold Sequence.encode at hEnough
            rw [List.length_cons] at hEnough
            omega
          rw [encode_cons]
          unfold Sequence.encode
          dsimp only
          rw [List.cons_append, List.append_assoc,
            List.append_assoc, List.cons_append,
            List.cons_append, decodeSequences, tokenOf_high,
            hRead, Option.bind_eq_bind, Option.bind_some]
          dsimp only
          rw [if_neg (by rw [List.length_append]; omega),
            List.take_left, List.drop_left]
          dsimp only
          rw [toNat_offset hOffset.2, if_neg hBounds, tokenOf_low,
            hReadMatch, Option.bind_some]
          dsimp only
          rw [hFour, ih hMore hShorter hPut]
          rfl

/- A block is decoded to what it was written from. -/
theorem decode_encode
    (hSeqs : WellFormed 0 seqs)
    (hSome : seqs ≠ []) :
    decode (encode seqs) = some (expand seqs) :=
  @decodeSequences_encode [] seqs hSeqs hSome _ (Nat.le_refl _)

end Lz4Block
