import Mathlib.Data.BitVec
import Mathlib.Data.List.Basic

/-
  The LZ4 block format.

  A block is a row of sequences.  Each starts with a token that
  has two lengths: of the literals behind it, and of a match,
  which repeats what was put out some distance back.  The last
  sequence ends with its literals.

  Key definitions include:
    * `decode`

  Main results:
    * `decodeSequences_cases`
    * `prefix_decodeSequences`
    * `length_decode_le`
-/

------
-- Decoding
------

namespace Lz4Block

/- Further bytes of a length, up to one that is not 255. -/
def extend (len : Nat) :
    List (BitVec 8) → Option (Nat × List (BitVec 8))
| [] => none
| b :: block =>
    if b = 255 then extend (len + 255) block
    else some (len + b.toNat, block)

/- A length whose four bits in the token are all set goes on. -/
def readLength
    (bits : BitVec 8)
    (block : List (BitVec 8)) :
    Option (Nat × List (BitVec 8)) :=
  if bits = 15 then extend 15 block
  else some (bits.toNat, block)

/- Repeat bytes, one by one: they may be among the new ones. -/
def copyMatch
    (offset : Nat) :
    Nat → List (BitVec 8) → List (BitVec 8)
| 0, out => out
| n + 1, out =>
    copyMatch offset n
      (out ++ [out.getD (out.length - offset) 0])

/- The sequences of a block, behind what is already put out. -/
def decodeSequences :
    Nat → List (BitVec 8) → List (BitVec 8) →
      Option (List (BitVec 8))
| 0, _, _ => none
| _ + 1, [], _ => none
| n + 1, token :: block, out => do
    let (literals, block) ← readLength (token >>> 4) block
    if block.length < literals then none
    else
      let out := out ++ block.take literals
      match block.drop literals with
      | [] => some out
      | [_] => none
      | low :: high :: block =>
          let offset := low.toNat + 256 * high.toNat
          if offset = 0 ∨ out.length < offset then none
          else do
            let (len, block) ← readLength (token &&& 0xF) block
            decodeSequences n block
              (copyMatch offset (len + 4) out)

/- What a block stands for.  Sequences are not empty. -/
def decode (block : List (BitVec 8)) : Option (List (BitVec 8)) :=
  decodeSequences block.length block []

/- A block cannot start with a match: there is no output yet. -/
theorem decode_match_first
    {token low high : BitVec 8}
    (hToken : token >>> 4 = 0)
    (block : List (BitVec 8)) :
    decode (token :: low :: high :: block) = none := by
  have hLength :
      readLength (token >>> 4) (low :: high :: block) =
        some (0, low :: high :: block) := by
    rw [hToken]
    rfl
  have hOffset :
      low.toNat + 256 * high.toNat = 0 ∨
        0 < low.toNat + 256 * high.toNat := by
    omega
  unfold decode
  rw [List.length_cons, decodeSequences, hLength]
  change
    (if (low :: high :: block).length < 0 then none else _) = none
  rw [if_neg (Nat.not_lt_zero _)]
  exact if_pos hOffset

------
-- How Much Is Put Out
------

variable {block rest out out' : List (BitVec 8)}
variable {len len' : Nat}

theorem length_extend_le
    (hExtend : extend len block = some (len', rest)) :
    len' + 255 * rest.length ≤ len + 255 * block.length := by
  induction block generalizing len with
  | nil => cases hExtend
  | cons b block ih =>
      unfold extend at hExtend
      rw [List.length_cons]
      split at hExtend
      · have hRest := ih hExtend
        omega
      · cases hExtend
        have hByte := b.isLt
        omega

theorem length_readLength_le
    {bits : BitVec 8}
    (hRead : readLength bits block = some (len, rest)) :
    len + 255 * rest.length ≤ 255 + 255 * block.length := by
  unfold readLength at hRead
  split at hRead
  · have hExtend := length_extend_le hRead
    omega
  · cases hRead
    have hBits := bits.isLt
    omega

/- What is behind a length is behind its bytes. -/
theorem length_extend_rest_le
    (hExtend : extend len block = some (len', rest)) :
    rest.length ≤ block.length := by
  induction block generalizing len with
  | nil => cases hExtend
  | cons b block ih =>
      unfold extend at hExtend
      rw [List.length_cons]
      split at hExtend
      · exact Nat.le_succ_of_le (ih hExtend)
      · cases hExtend
        exact Nat.le_succ _

theorem length_readLength_rest_le
    {bits : BitVec 8}
    (hRead : readLength bits block = some (len, rest)) :
    rest.length ≤ block.length := by
  unfold readLength at hRead
  split at hRead
  · exact length_extend_rest_le hRead
  · cases hRead
    exact Nat.le_refl _

theorem length_copyMatch
    (offset n : Nat)
    (out : List (BitVec 8)) :
    (copyMatch offset n out).length = out.length + n := by
  induction n generalizing out with
  | zero => rfl
  | succ n ih =>
      unfold copyMatch
      rw [ih, List.length_append, List.length_singleton]
      omega

theorem prefix_copyMatch
    (offset n : Nat)
    (out : List (BitVec 8)) :
    out <+: copyMatch offset n out := by
  induction n generalizing out with
  | zero => exact List.prefix_refl out
  | succ n ih =>
      unfold copyMatch
      exact (List.prefix_append out _).trans (ih _)

/- The match of a sequence: its distance, how long it is, and
what is behind it. -/
structure MatchAt
    (token : BitVec 8)
    (out block : List (BitVec 8))
    (offset len : Nat)
    (rest : List (BitVec 8)) : Prop where
  distance :
    ∃ low high behind,
      block = low :: high :: behind ∧
        offset = low.toNat + 256 * high.toNat ∧
        readLength (token &&& 0xF) behind = some (len, rest)
  ne_zero : offset ≠ 0
  le : offset ≤ out.length

theorem MatchAt.length_le
    {token : BitVec 8}
    {offset : Nat}
    (hMatch : MatchAt token out block offset len rest) :
    rest.length ≤ block.length := by
  rcases hMatch.distance with ⟨low, high, behind, hBlock, -, hLen⟩
  have hLe := length_readLength_rest_le hLen
  rw [hBlock, List.length_cons, List.length_cons]
  omega

/-
  A block that is decoded starts with a token and literals.
  Either it ends there, or a match and further sequences follow.
-/
theorem decodeSequences_cases
    {n : Nat}
    {token : BitVec 8}
    (hDecode :
      decodeSequences (n + 1) (token :: block) out = some out') :
    ∃ lit rest,
      readLength (token >>> 4) block = some (lit, rest) ∧
        lit ≤ rest.length ∧
        ((rest.drop lit = [] ∧ out' = out ++ rest.take lit) ∨
          ∃ offset len last,
            MatchAt token (out ++ rest.take lit) (rest.drop lit)
                offset len last ∧
              decodeSequences n last
                  (copyMatch offset (len + 4)
                    (out ++ rest.take lit)) =
                some out') := by
  rw [decodeSequences] at hDecode
  rcases Option.bind_eq_some_iff.1 hDecode with
    ⟨⟨lit, rest⟩, hLiterals, hDecode⟩
  dsimp only at hDecode
  split at hDecode
  · cases hDecode
  · next hEnough =>
      refine ⟨lit, rest, hLiterals, Nat.not_lt.mp hEnough, ?_⟩
      split at hDecode
      · next hEnd =>
          exact Or.inl ⟨hEnd, (Option.some.inj hDecode).symm⟩
      · cases hDecode
      · next low high behind hBlock =>
          split at hDecode
          · cases hDecode
          · next hBounds =>
              rw [not_or, Nat.not_lt] at hBounds
              rcases Option.bind_eq_some_iff.1 hDecode with
                ⟨⟨len, last⟩, hLen, hDecode⟩
              exact
                Or.inr
                  ⟨_, len, last,
                    ⟨⟨low, high, behind, hBlock, rfl, hLen⟩,
                      hBounds.1, hBounds.2⟩,
                    hDecode⟩

/- The output so far stays as it is. -/
theorem prefix_decodeSequences
    {n : Nat}
    (hDecode : decodeSequences n block out = some out') :
    out <+: out' := by
  induction n generalizing block out with
  | zero => cases hDecode
  | succ n ih =>
      cases block with
      | nil => cases hDecode
      | cons token block =>
          rcases decodeSequences_cases hDecode with
            ⟨lit, rest, -, -, ⟨-, hOut⟩ |
              ⟨offset, len, last, -, hLast⟩⟩
          · rw [hOut]
            exact List.prefix_append _ _
          · exact
              ((List.prefix_append out _).trans
                (prefix_copyMatch _ _ _)).trans (ih hLast)

/- A byte of a block gives 255 bytes at most. -/
theorem length_decodeSequences_le
    {n : Nat}
    (hDecode : decodeSequences n block out = some out') :
    out'.length ≤ out.length + 255 * block.length := by
  induction n generalizing block out with
  | zero => cases hDecode
  | succ n ih =>
      cases block with
      | nil => cases hDecode
      | cons token block =>
          rcases decodeSequences_cases hDecode with
            ⟨lit, rest, hLiterals, hEnough, hCases⟩
          have hFirst := length_readLength_le hLiterals
          have hTake :
              (out ++ rest.take lit).length = out.length + lit := by
            rw [List.length_append, List.length_take]
            omega
          rw [List.length_cons]
          rcases hCases with
            ⟨-, hOut⟩ | ⟨offset, len, last, hMatch, hDecode⟩
          · rw [hOut, hTake]
            omega
          · rcases hMatch.distance with
              ⟨low, high, behind, hBlock, -, hLen⟩
            have hDrop := congrArg List.length hBlock
            rw [List.length_drop, List.length_cons,
              List.length_cons] at hDrop
            have hSecond := length_readLength_le hLen
            have hLast := ih hDecode
            rw [length_copyMatch, hTake] at hLast
            omega

theorem length_decode_le
    (hDecode : decode block = some out) :
    out.length ≤ 255 * block.length := by
  have hLe := length_decodeSequences_le hDecode
  rw [List.length_nil] at hLe
  omega

end Lz4Block
