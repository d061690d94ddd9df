import Mathlib.Logic.Relation
import Mathlib.Order.Interval.Set.Basic
import M1Switch.Library.LoggedRun
import M1Switch.Loader.Nso

/-
  What the decompressor reads and writes.

  The bytes it touches are logged, by their places in the source
  and in the destination.  A length that goes on is fetched
  without asking if there is a byte, and so is a distance.  A
  distance is not compared with what was put out.  Everything
  else is within bounds.

  Key definitions include:
    * `BufferAccess`
    * `decompress`

  Main results:
    * `does_sequence`
    * `does_sequences`
    * `decompress_safe_iff`
-/

------
-- The Decompressor
------

namespace M1Switch

/- A byte of the source is read, or one of the destination is
read or written.  A read may be in front of the destination. -/
inductive BufferAccess where
  | readSrc (i : Nat)
  | readDst (i : Int)
  | writeDst (i : Nat)
deriving DecidableEq

namespace Lz4Decoder

section

/- The bytes from the source on, whatever they are behind it. -/
variable (src : Bytes) (inSize dstSize : Nat)

def fetch (i : Nat) : Logged BufferAccess U8 := do
  Logged.emit (.readSrc i)
  pure (src i)

/- Further bytes of a length. -/
def readExtra :
    Nat → U32 → Nat → Logged BufferAccess (U32 × Nat)
| 0, _, _ => ⟨none, []⟩
| n + 1, len, inPos => do
    let extra ← fetch src (4 + inPos)
    let len := len + extra.setWidth 32
    if extra = 255 ∧ inPos + 1 < inSize then
      readExtra n len (inPos + 1)
    else pure (len, inPos + 1)

def readLen
    (len full : U32)
    (inPos : Nat) : Logged BufferAccess (U32 × Nat) :=
  if len = full then readExtra src inSize (inSize + 1) len inPos
  else pure (len, inPos)

/- What `memcpy` does: it reads the bytes and writes them. -/
def memcpy
    (start count outPos : Nat)
    (dst : Int → U8) : Logged BufferAccess (Int → U8) :=
  { value :=
      some fun i =>
        if outPos ≤ i ∧ i < outPos + count then
          src (start + (i - outPos).toNat)
        else dst i
    log :=
      (List.range count).map (fun k => .readSrc (start + k)) ++
        (List.range count).map fun k => .writeDst (outPos + k) }

/- Repeat what was put out some bytes back. -/
def copyMatch (offset : Nat) :
    Nat → (Int → U8) → Nat →
      Logged BufferAccess ((Int → U8) × Nat)
| 0, dst, outPos => pure (dst, outPos)
| n + 1, dst, outPos =>
    if outPos < dstSize then do
      Logged.emit (.readDst (outPos - offset))
      Logged.emit (.writeDst outPos)
      copyMatch offset n
        (Function.update dst outPos (dst (outPos - offset)))
        (outPos + 1)
    else pure (dst, outPos)

/- The destination, and the positions in both buffers. -/
structure State where
  dst : Int → U8
  inPos : Nat
  outPos : Nat

/- The match of a sequence, behind its literals. -/
def sequenceMatch
    (token : U8)
    (s : State) : Logged BufferAccess (Round State State) :=
  if s.inPos ≥ inSize then pure (.done s)
  else do
    let low ← fetch src (4 + s.inPos)
    let high ← fetch src (4 + (s.inPos + 1))
    let offset := low.toNat + 256 * high.toNat
    if offset = 0 then
      pure (.done { s with inPos := s.inPos + 2 })
    else do
      let len ←
        readLen src inSize ((token.setWidth 32 &&& 0xF) + 4) 19
          (s.inPos + 2)
      let copied ←
        copyMatch dstSize offset len.1.toNat s.dst s.outPos
      pure (.again ⟨copied.1, len.2, copied.2⟩)

/- A round of the loop: a token, literals and a match. -/
def sequence
    (s : State) : Logged BufferAccess (Round State State) :=
  if s.inPos < inSize ∧ s.outPos < dstSize then do
    let token ← fetch src (4 + s.inPos)
    let lit ←
      readLen src inSize ((token.setWidth 32 >>> 4) &&& 0xF) 15
        (s.inPos + 1)
    let toCopy := min lit.1.toNat (dstSize - s.outPos)
    if lit.1 > 0 ∧ lit.2 + toCopy > inSize then
      pure (.done { s with inPos := lit.2 })
    else do
      let dst ← memcpy src (4 + lit.2) toCopy s.outPos s.dst
      sequenceMatch src inSize dstSize token
        ⟨dst, lit.2 + lit.1.toNat, s.outPos + toCopy⟩
  else pure (.done s)

end

/- Four bytes are read to find the magic. -/
def isLZ4Compressed
    (src : Bytes)
    (srcSize : Nat) : Logged BufferAccess Bool :=
  if srcSize < 4 then pure false
  else
    { value := some (src.word 0 == 0x184D2204)
      log := [.readSrc 0, .readSrc 1, .readSrc 2, .readSrc 3] }

/- How many bytes are put out. -/
def decompress
    (src : Bytes)
    (srcSize : Nat)
    (dst : Int → U8)
    (dstSize : Nat) : Logged BufferAccess Nat := do
  let compressed ← isLZ4Compressed src srcSize
  if ¬ compressed then do
    let copy := min srcSize dstSize
    let _ ← memcpy src 0 copy 0 dst
    pure copy
  else do
    let inSize := srcSize - 4
    let s ←
      Logged.loop (sequence src inSize dstSize) (inSize + 1)
        ⟨dst, 0, 0⟩
    pure s.outPos

end Lz4Decoder

------
-- Safety
------

namespace BufferAccess

/-
  The accesses of a log, in their order, are within the buffers.
  What is read of the destination has been written: before, if
  it is among `written`, or by an access in front of it.
-/
def Allowed
    (srcSize dstSize : Nat) :
    Set Nat → List BufferAccess → Prop
| _, [] => True
| written, .readSrc i :: log =>
    i < srcSize ∧ Allowed srcSize dstSize written log
| written, .readDst i :: log =>
    (∃ j ∈ written, i = (j : Int)) ∧
      Allowed srcSize dstSize written log
| written, .writeDst i :: log =>
    i < dstSize ∧ Allowed srcSize dstSize (insert i written) log

/- The places that a log writes to. -/
def writes (log : List BufferAccess) : Set Nat :=
  {i | .writeDst i ∈ log}

variable {srcSize dstSize : Nat} {written : Set Nat}

@[simp] theorem writes_nil : writes [] = ∅ :=
  Set.eq_empty_of_forall_notMem fun _ => List.not_mem_nil

theorem writes_append (log log' : List BufferAccess) :
    writes (log ++ log') = writes log ∪ writes log' := by
  ext i
  exact List.mem_append

theorem writes_cons_writeDst (i : Nat) (log : List BufferAccess) :
    writes (.writeDst i :: log) = insert i (writes log) := by
  ext j
  show BufferAccess.writeDst j ∈ _ :: log ↔ _
  rw [List.mem_cons, Set.mem_insert_iff, writeDst.injEq]
  rfl

theorem writes_cons_readSrc (i : Nat) (log : List BufferAccess) :
    writes (.readSrc i :: log) = writes log := by
  ext j
  show BufferAccess.writeDst j ∈ _ :: log ↔ _
  rw [List.mem_cons, or_iff_right (by simp)]
  rfl

theorem writes_cons_readDst (i : Int) (log : List BufferAccess) :
    writes (.readDst i :: log) = writes log := by
  ext j
  show BufferAccess.writeDst j ∈ _ :: log ↔ _
  rw [List.mem_cons, or_iff_right (by simp)]
  rfl

/- A log is allowed if its parts are, one behind the other. -/
theorem allowed_append (log log' : List BufferAccess) :
    Allowed srcSize dstSize written (log ++ log') ↔
      Allowed srcSize dstSize written log ∧
        Allowed srcSize dstSize (written ∪ writes log) log' := by
  induction log generalizing written with
  | nil =>
      rw [List.nil_append, writes_nil, Set.union_empty, Allowed]
      exact (and_iff_right trivial).symm
  | cons e log ih =>
      rw [List.cons_append]
      cases e with
      | readSrc i =>
          rw [Allowed, Allowed, ih, writes_cons_readSrc, and_assoc]
      | readDst i =>
          rw [Allowed, Allowed, ih, writes_cons_readDst, and_assoc]
      | writeDst i =>
          rw [Allowed, Allowed, ih, writes_cons_writeDst, and_assoc,
            Set.insert_union, Set.union_insert]

end BufferAccess

namespace Lz4Decoder

open BufferAccess (Allowed writes)

/- The decompressor returns, and keeps to the buffers. -/
structure Safe
    (srcSize dstSize : Nat)
    (x : Logged BufferAccess Nat) : Prop where
  returns : ∃ n ≤ dstSize, x.value = some n
  accesses : Allowed srcSize dstSize ∅ x.log

------
-- Positions
------

section

variable (src : Bytes) (inSize dstSize : Nat)

/- The source behind the magic. -/
def input : Bytes := fun i => src (4 + i)

def literalBits (inPos : Nat) : U32 :=
  ((input src inPos).setWidth 32 >>> 4) &&& 0xF

def matchBits (inPos : Nat) : U32 :=
  ((input src inPos).setWidth 32 &&& 0xF) + 4

/- The literals of the sequence at a position: how many, and
where they are. -/
def literals (inPos : Nat) : U32 × Nat :=
  NsoLoader.readLen (input src) inSize (literalBits src inPos) 15
    (inPos + 1)

def toCopy (s : Nat × Nat) : Nat :=
  min (literals src inSize s.1).1.toNat (dstSize - s.2)

/- Where the match is. -/
def matchPos (inPos : Nat) : Nat :=
  (literals src inSize inPos).2 +
    (literals src inSize inPos).1.toNat

/- The literals that are copied are all there. -/
def LiteralsFit (s : Nat × Nat) : Prop :=
  (literals src inSize s.1).1 > 0 →
    (literals src inSize s.1).2 + toCopy src inSize dstSize s ≤
      inSize

/- A match is read behind the literals. -/
def HasMatch (s : Nat × Nat) : Prop :=
  LiteralsFit src inSize dstSize s ∧ matchPos src inSize s.1 < inSize

def offset (inPos : Nat) : Nat :=
  (input src (matchPos src inSize inPos)).toNat +
    256 * (input src (matchPos src inSize inPos + 1)).toNat

/- How long the match is, and what is behind it. -/
def matchLen (inPos : Nat) : U32 × Nat :=
  NsoLoader.readLen (input src) inSize (matchBits src inPos) 19
    (matchPos src inSize inPos + 2)

/- How much is put out in front of the match. -/
def matchStart (s : Nat × Nat) : Nat :=
  s.2 + toCopy src inSize dstSize s

instance (s : Nat × Nat) :
    Decidable (LiteralsFit src inSize dstSize s) :=
  inferInstanceAs (Decidable (_ → _))

/- How much is put out if there is no match. -/
def lastOut (s : Nat × Nat) : Nat :=
  if LiteralsFit src inSize dstSize s then
    matchStart src inSize dstSize s
  else s.2

/- The positions behind the match. -/
def next (s : Nat × Nat) : Nat × Nat :=
  ((matchLen src inSize s.1).2,
    matchStart src inSize dstSize s +
      min (matchLen src inSize s.1).1.toNat
        (dstSize - matchStart src inSize dstSize s))

/- The loop goes on from one sequence to the one behind it. -/
structure Step (s t : Nat × Nat) : Prop where
  more : s.1 < inSize ∧ s.2 < dstSize
  hasMatch : HasMatch src inSize dstSize s
  offset_ne : offset src inSize s.1 ≠ 0
  next : next src inSize dstSize s = t

/-
  The match of the sequence at `s` has the bytes that are
  fetched of it: both of its distance, and the first one of a
  length that goes on.  It does not start in front of the output.
-/
structure MatchOk (s : Nat × Nat) : Prop where
  distance :
    HasMatch src inSize dstSize s →
      matchPos src inSize s.1 + 1 < inSize
  length :
    HasMatch src inSize dstSize s → offset src inSize s.1 ≠ 0 →
      matchBits src s.1 = 19 → matchPos src inSize s.1 + 2 < inSize
  back :
    HasMatch src inSize dstSize s → offset src inSize s.1 ≠ 0 →
      0 < (matchLen src inSize s.1).1.toNat →
      matchStart src inSize dstSize s < dstSize →
        offset src inSize s.1 ≤ matchStart src inSize dstSize s

/- So do the literals, if their length goes on. -/
structure SequenceOk (s : Nat × Nat) : Prop extends
    MatchOk src inSize dstSize s where
  literals : literalBits src s.1 = 15 → s.1 + 1 < inSize

/- The sequences that are decoded from `s` on. -/
def SequencesOk (s : Nat × Nat) : Prop :=
  ∀ t, Relation.ReflTransGen (Step src inSize dstSize) s t →
    t.1 < inSize → t.2 < dstSize → SequenceOk src inSize dstSize t

end

------
-- What a Routine Does
------

variable {src : Bytes} {srcSize inSize dstSize : Nat}
variable {α β : Type} {w w' w'' : Nat} {C D : Prop}

/-
  The routine gives a value, writes the bytes of the destination
  from `w` up to `w'`, and is allowed under a condition only.
-/
structure Does
    (srcSize dstSize : Nat)
    (C : Prop)
    (w w' : Nat)
    (x : Logged BufferAccess α)
    (a : α) : Prop where
  value : x.value = some a
  allowed : Allowed srcSize dstSize (Set.Iio w) x.log ↔ C
  writes : Set.Iio w ∪ writes x.log = Set.Iio w'

theorem Does.bind
    {x : Logged BufferAccess α}
    {f : α → Logged BufferAccess β}
    {a : α}
    {b : β}
    (hFirst : Does srcSize dstSize C w w' x a)
    (hRest : Does srcSize dstSize D w' w'' (f a) b) :
    Does srcSize dstSize (C ∧ D) w w'' (x >>= f) b := by
  have hBind := Logged.bind_of_some (f := f) hFirst.value
  constructor
  · rw [hBind]
    exact hRest.value
  · rw [hBind, BufferAccess.allowed_append, hFirst.allowed,
      hFirst.writes, hRest.allowed]
  · rw [hBind, BufferAccess.writes_append, ← Set.union_assoc,
      hFirst.writes, hRest.writes]

theorem Does.congr
    {x : Logged BufferAccess α}
    {a : α}
    (hDoes : Does srcSize dstSize C w w' x a)
    (hIff : C ↔ D) :
    Does srcSize dstSize D w w' x a where
  value := hDoes.value
  allowed := hDoes.allowed.trans hIff
  writes := hDoes.writes

theorem does_pure (a : α) :
    Does srcSize dstSize True w w (pure a) a where
  value := rfl
  allowed := Iff.rfl
  writes := by
    rw [Logged.log_pure, BufferAccess.writes_nil, Set.union_empty]

theorem does_fetch (i : Nat) :
    Does srcSize dstSize (i < srcSize) w w (fetch src i)
        (src i) where
  value := rfl
  allowed := and_iff_left trivial
  writes := by
    show Set.Iio w ∪ writes [.readSrc i] = _
    rw [BufferAccess.writes_cons_readSrc, BufferAccess.writes_nil,
      Set.union_empty]

/- A byte is fetched, and the rest depends on it. -/
theorem does_fetch_bind
    {i : Nat}
    {f : U8 → Logged BufferAccess β}
    {b : β}
    (hRest : Does srcSize dstSize C w w' (f (src i)) b) :
    Does srcSize dstSize (i < srcSize ∧ C) w w'
      (fetch src i >>= f) b :=
  (does_fetch i).bind hRest

------
-- Lengths and Copies
------

/- The first byte of a length is fetched in any case. -/
theorem does_readExtra
    {n p : Nat}
    (hPos : 0 < n)
    (hEnough : inSize ≤ n + p)
    (len : U32) :
    Does (4 + inSize) dstSize (p < inSize) w w
      (readExtra src inSize n len p)
      (NsoLoader.readExtra (input src) inSize n len p) := by
  induction n generalizing len p with
  | zero => cases hPos
  | succ n ih =>
      have hByte : input src p = src (4 + p) := rfl
      rw [readExtra, NsoLoader.readExtra, hByte]
      -- The bytes behind the first are there.
      refine
        (does_fetch_bind (C := True) ?_).congr
          (by rw [and_true]; omega)
      dsimp only
      by_cases hMore : src (4 + p) = 255 ∧ p + 1 < inSize
      · have hNext := hMore.2
        rw [if_pos hMore, if_pos hMore]
        exact
          (ih (by omega) (by omega) _).congr
            (iff_of_true hNext trivial)
      · rw [if_neg hMore, if_neg hMore]
        exact does_pure _

theorem does_readLen
    (len full : U32)
    (p : Nat) :
    Does (4 + inSize) dstSize (len = full → p < inSize) w w
      (readLen src inSize len full p)
      (NsoLoader.readLen (input src) inSize len full p) := by
  unfold readLen NsoLoader.readLen
  by_cases hFull : len = full
  · rw [if_pos hFull, if_pos hFull]
    refine
      (does_readExtra (Nat.succ_pos _) (by omega) len).congr ?_
    exact ⟨fun hLt _ => hLt, fun hLt => hLt hFull⟩
  · rw [if_neg hFull, if_neg hFull]
    exact
      (does_pure _).congr
        (iff_of_true trivial fun hEq => absurd hEq hFull)

theorem allowed_map_readSrc
    {W : Set Nat}
    (f : Nat → Nat)
    (ks : List Nat) :
    Allowed srcSize dstSize W (ks.map fun k => .readSrc (f k)) ↔
      ∀ k ∈ ks, f k < srcSize := by
  induction ks with
  | nil => exact iff_of_true trivial (List.forall_mem_nil _)
  | cons k ks ih =>
      rw [List.map_cons, Allowed, ih, List.forall_mem_cons]

theorem allowed_map_writeDst
    {W : Set Nat}
    (f : Nat → Nat)
    (ks : List Nat) :
    Allowed srcSize dstSize W (ks.map fun k => .writeDst (f k)) ↔
      ∀ k ∈ ks, f k < dstSize := by
  induction ks generalizing W with
  | nil => exact iff_of_true trivial (List.forall_mem_nil _)
  | cons k ks ih =>
      rw [List.map_cons, Allowed, ih, List.forall_mem_cons]

theorem does_memcpy
    {start count : Nat}
    (hFits : w + count ≤ dstSize)
    (dst : Int → U8) :
    ∃ dst',
      Does srcSize dstSize (∀ k < count, start + k < srcSize) w
        (w + count) (memcpy src start count w dst) dst' := by
  refine ⟨_, rfl, ?_, ?_⟩
  · unfold memcpy
    dsimp only
    rw [BufferAccess.allowed_append,
      allowed_map_readSrc fun k => start + k,
      allowed_map_writeDst fun k => w + k]
    simp only [List.mem_range]
    exact and_iff_left fun k hK => by omega
  · unfold memcpy
    dsimp only
    rw [BufferAccess.writes_append]
    ext i
    simp only [Set.mem_union, Set.mem_Iio, writes,
      Set.mem_ofPred_eq, List.mem_map, List.mem_range, reduceCtorEq,
      and_false, exists_false, false_or,
      BufferAccess.writeDst.injEq]
    constructor
    · rintro (hOld | ⟨k, hK, hEq⟩) <;> omega
    · intro hLt
      by_cases hOld : i < w
      · exact Or.inl hOld
      · exact Or.inr ⟨i - w, by omega, by omega⟩

/- A byte of a match is read and written. -/
theorem does_copyByte
    {k : Nat}
    (hOffset : k ≠ 0)
    (hRoom : w < dstSize)
    {f : Unit → Logged BufferAccess β}
    {b : β}
    (hRest : Does srcSize dstSize C (w + 1) w' (f ()) b) :
    Does srcSize dstSize (k ≤ w ∧ C) w w'
      (Logged.emit (.readDst (w - k)) >>= fun _ =>
        Logged.emit (.writeDst w) >>= f)
      b := by
  have hRead :
      Does srcSize dstSize (k ≤ w) w w
        (Logged.emit (.readDst (w - k))) () := by
    refine ⟨rfl, ?_, ?_⟩
    · show (∃ j ∈ Set.Iio w, (w : Int) - k = (j : Int)) ∧ True ↔ _
      rw [and_true]
      constructor
      · rintro ⟨j, -, hEq⟩
        omega
      · intro hLe
        exact ⟨w - k, Set.mem_Iio.mpr (by omega), by omega⟩
    · show Set.Iio w ∪ writes [.readDst _] = _
      rw [BufferAccess.writes_cons_readDst, BufferAccess.writes_nil,
        Set.union_empty]
  have hWrite :
      Does srcSize dstSize True w (w + 1)
        (Logged.emit (.writeDst w)) () := by
    refine ⟨rfl, iff_of_true ⟨hRoom, trivial⟩ trivial, ?_⟩
    show Set.Iio w ∪ writes [.writeDst w] = _
    rw [BufferAccess.writes_cons_writeDst, BufferAccess.writes_nil]
    ext i
    simp only [Set.mem_union, Set.mem_Iio, insert_empty_eq,
      Set.mem_singleton_iff]
    omega
  exact
    (hRead.bind (hWrite.bind hRest)).congr
      (and_congr_right fun _ => and_iff_right trivial)

/- The match of a sequence fills up what room there is. -/
theorem does_copyMatch
    {k : Nat}
    (hOffset : k ≠ 0)
    (srcSize dstSize w n : Nat)
    (dst : Int → U8) :
    ∃ dst',
      Does srcSize dstSize (0 < n → w < dstSize → k ≤ w) w
        (w + min n (dstSize - w)) (copyMatch dstSize k n dst w)
        (dst', w + min n (dstSize - w)) := by
  induction n generalizing dst w with
  | zero =>
      refine ⟨dst, ?_⟩
      have hNone : w + min 0 (dstSize - w) = w := by omega
      rw [hNone]
      exact
        (does_pure _).congr
          (iff_of_true trivial fun hPos => absurd hPos (by omega))
  | succ n ih =>
      rw [copyMatch]
      by_cases hRoom : w < dstSize
      · rcases
          ih (w := w + 1)
            (Function.update dst w (dst (w - k))) with
          ⟨dst', hRest⟩
        have hEnd :
            w + 1 + min n (dstSize - (w + 1)) =
              w + min (n + 1) (dstSize - w) := by
          omega
        rw [hEnd] at hRest
        refine ⟨dst', ?_⟩
        rw [if_pos hRoom]
        refine (does_copyByte hOffset hRoom hRest).congr ?_
        constructor
        · intro hBoth _ _
          exact hBoth.1
        · intro hBack
          have hLe := hBack (Nat.succ_pos n) hRoom
          exact ⟨hLe, fun _ _ => Nat.le_succ_of_le hLe⟩
      · refine ⟨dst, ?_⟩
        have hNone : w + min (n + 1) (dstSize - w) = w := by omega
        rw [hNone, if_neg hRoom]
        exact
          (does_pure _).congr
            (iff_of_true trivial fun _ hLt => absurd hLt hRoom)

------
-- Sequences
------

/- The positions in a state. -/
def State.positions (s : State) : Nat × Nat := (s.inPos, s.outPos)

/- The bytes that were put out at the end of a round. -/
def outOf : Round State State → Nat :=
  Round.state State.outPos State.outPos

/- A round that is not the last one goes on behind its match. -/
def Ends
    (src : Bytes)
    (inSize dstSize : Nat)
    (s : State) : Round State State → Prop
  | .again t =>
      Step src inSize dstSize s.positions t.positions
  | .done t =>
      t.outPos = lastOut src inSize dstSize s.positions ∧
        ∀ u, ¬ Step src inSize dstSize s.positions u

variable {s : State}

/- A match is allowed if its bytes are there, and it starts in
the output. -/
theorem does_sequenceMatch
    {t : State}
    (hMore : s.inPos < inSize ∧ s.outPos < dstSize)
    (hFit : LiteralsFit src inSize dstSize s.positions)
    (hIn : t.inPos = matchPos src inSize s.inPos)
    (hOut : t.outPos = matchStart src inSize dstSize s.positions) :
    ∃ r,
      Ends src inSize dstSize s r ∧
        Does (4 + inSize) dstSize
          (MatchOk src inSize dstSize s.positions) t.outPos
          (outOf r)
          (sequenceMatch src inSize dstSize (input src s.inPos) t)
          r := by
  have hLast : t.outPos = lastOut src inSize dstSize s.positions := by
    unfold lastOut
    rw [if_pos hFit, hOut]
  unfold sequenceMatch
  by_cases hEnd : t.inPos ≥ inSize
  · have hNone : ¬ HasMatch src inSize dstSize s.positions := by
      intro hHas
      have hLt := hHas.2
      unfold State.positions at hLt
      rw [hIn] at hEnd
      exact absurd hLt (Nat.not_lt.mpr hEnd)
    rw [if_pos hEnd]
    refine ⟨.done t, ⟨hLast, fun u hStep => hNone hStep.hasMatch⟩,
      (does_pure _).congr (iff_of_true trivial ?_)⟩
    exact
      ⟨fun hHas => absurd hHas hNone,
        fun hHas => absurd hHas hNone,
        fun hHas => absurd hHas hNone⟩
  · have hHas : HasMatch src inSize dstSize s.positions := by
      refine ⟨hFit, ?_⟩
      rw [hIn] at hEnd
      exact Nat.not_le.mp hEnd
    have hOffset :
        (src (4 + t.inPos)).toNat +
            256 * (src (4 + (t.inPos + 1))).toNat =
          offset src inSize s.inPos := by
      rw [hIn]
      rfl
    rw [if_neg hEnd]
    by_cases hZero : offset src inSize s.inPos = 0
    · refine
        ⟨.done { t with inPos := t.inPos + 2 },
          ⟨hLast, fun u hStep => hStep.offset_ne hZero⟩, ?_⟩
      refine
        (does_fetch_bind
          (does_fetch_bind (C := True) ?_)).congr ?_
      · dsimp only
        rw [hOffset, if_pos hZero]
        exact does_pure _
      · rw [and_true, hIn]
        constructor
        · intro hBoth
          exact
            ⟨fun _ => Nat.lt_of_add_lt_add_left hBoth.2,
              fun _ hNe => absurd hZero hNe,
              fun _ hNe => absurd hZero hNe⟩
        · intro hOk
          have hLt : matchPos src inSize s.inPos + 1 < inSize :=
            hOk.distance hHas
          omega
    · rcases
        does_copyMatch hZero (4 + inSize) dstSize t.outPos
          (matchLen src inSize s.inPos).1.toNat t.dst with
        ⟨dst', hCopy⟩
      have hLen :
          Does (4 + inSize) dstSize
            (matchBits src s.inPos = 19 → t.inPos + 2 < inSize)
            t.outPos t.outPos
            (readLen src inSize (matchBits src s.inPos) 19
              (t.inPos + 2))
            (NsoLoader.readLen (input src) inSize
              (matchBits src s.inPos) 19 (t.inPos + 2)) :=
        does_readLen _ _ _
      have hValue :
          NsoLoader.readLen (input src) inSize
              (matchBits src s.inPos) 19 (t.inPos + 2) =
            matchLen src inSize s.inPos := by
        rw [hIn]
        rfl
      rw [hValue] at hLen
      refine
        ⟨.again
            ⟨dst', (matchLen src inSize s.inPos).2,
              t.outPos +
                min (matchLen src inSize s.inPos).1.toNat
                  (dstSize - t.outPos)⟩,
          ⟨hMore, hHas, hZero, ?_⟩, ?_⟩
      · unfold next State.positions at *
        rw [hOut]
      · refine
          (does_fetch_bind
            (does_fetch_bind
              (C :=
                (matchBits src s.inPos = 19 →
                    t.inPos + 2 < inSize) ∧
                  ((0 < (matchLen src inSize s.inPos).1.toNat →
                      t.outPos < dstSize →
                        offset src inSize s.inPos ≤ t.outPos) ∧
                    True))
              ?_)).congr ?_
        · dsimp only
          rw [hOffset, if_neg hZero]
          exact hLen.bind (hCopy.bind (does_pure _))
        · rw [and_true, hIn, hOut]
          constructor
          · rintro ⟨hLow, hHigh, hLength, hBack⟩
            exact
              ⟨fun _ => Nat.lt_of_add_lt_add_left hHigh,
                fun _ _ => hLength, fun _ _ => hBack⟩
          · intro hOk
            have hLt : matchPos src inSize s.inPos + 1 < inSize :=
              hOk.distance hHas
            exact
              ⟨by omega, by omega, hOk.length hHas hZero,
                hOk.back hHas hZero⟩

theorem does_literals
    (src : Bytes)
    (s : State) :
    Does (4 + inSize) dstSize
      (literalBits src s.inPos = 15 → s.inPos + 1 < inSize)
      s.outPos s.outPos
      (readLen src inSize (literalBits src s.inPos) 15
        (s.inPos + 1))
      (literals src inSize s.inPos) :=
  does_readLen _ _ _

/- The literals that are copied are there. -/
theorem literals_inside
    (hFit : LiteralsFit src inSize dstSize s.positions)
    {k : Nat}
    (hK : k < toCopy src inSize dstSize s.positions) :
    4 + (literals src inSize s.inPos).2 + k < 4 + inSize := by
  have hSome : (literals src inSize s.inPos).1 > 0 := by
    rw [gt_iff_lt, BitVec.lt_def]
    unfold toCopy State.positions at hK
    dsimp only at hK
    show 0 < _
    omega
  have hLe := hFit hSome
  unfold State.positions at *
  dsimp only at *
  omega

/- Literals that are not all there end the block. -/
theorem does_sequence_stop
    (hMore : s.inPos < inSize ∧ s.outPos < dstSize)
    (hFit : ¬ LiteralsFit src inSize dstSize s.positions) :
    ∃ r,
      Ends src inSize dstSize s r ∧
        Does (4 + inSize) dstSize
          (SequenceOk src inSize dstSize s.positions) s.outPos
          (outOf r) (sequence src inSize dstSize s) r := by
  have hStop :
      (literals src inSize s.inPos).1 > 0 ∧
        (literals src inSize s.inPos).2 +
            min (literals src inSize s.inPos).1.toNat
              (dstSize - s.outPos) >
          inSize := by
    unfold LiteralsFit at hFit
    rw [Classical.not_imp, Nat.not_le] at hFit
    exact hFit
  have hNone : ¬ HasMatch src inSize dstSize s.positions :=
    fun hHas => hFit hHas.1
  have hLast :
      s.outPos = lastOut src inSize dstSize s.positions :=
    (if_neg hFit).symm
  unfold sequence
  rw [if_pos hMore]
  refine
    ⟨.done { s with inPos := (literals src inSize s.inPos).2 },
      ⟨hLast, fun u hStep => hNone hStep.hasMatch⟩, ?_⟩
  refine
    (does_fetch_bind
      ((does_literals src s).bind (D := True) ?_)).congr ?_
  · dsimp only
    rw [if_pos hStop]
    exact does_pure _
  · constructor
    · rintro ⟨-, hLiterals, -⟩
      exact
        ⟨⟨fun hHas => absurd hHas hNone,
            fun hHas => absurd hHas hNone,
            fun hHas => absurd hHas hNone⟩,
          hLiterals⟩
    · intro hOk
      exact
        ⟨Nat.add_lt_add_left hMore.1 4, hOk.literals, trivial⟩

/- A sequence is allowed if and only if it is complete. -/
theorem does_sequence
    (src : Bytes)
    (hMore : s.inPos < inSize ∧ s.outPos < dstSize) :
    ∃ r,
      Ends src inSize dstSize s r ∧
        Does (4 + inSize) dstSize
          (SequenceOk src inSize dstSize s.positions) s.outPos
          (outOf r) (sequence src inSize dstSize s) r := by
  by_cases hFit : LiteralsFit src inSize dstSize s.positions
  case neg => exact does_sequence_stop hMore hFit
  have hCount :
      min (literals src inSize s.inPos).1.toNat
          (dstSize - s.outPos) =
        toCopy src inSize dstSize s.positions :=
    rfl
  have hGo :
      ¬ ((literals src inSize s.inPos).1 > 0 ∧
        (literals src inSize s.inPos).2 +
            toCopy src inSize dstSize s.positions >
          inSize) := by
    rintro ⟨hSome, hOver⟩
    exact absurd (hFit hSome) (Nat.not_le.mpr hOver)
  have hRoom :
      s.outPos + toCopy src inSize dstSize s.positions ≤
        dstSize := by
    unfold toCopy State.positions
    dsimp only
    omega
  have hLiterals :
      ∃ dst',
        Does (4 + inSize) dstSize
          (∀ k < toCopy src inSize dstSize s.positions,
            4 + (literals src inSize s.inPos).2 + k < 4 + inSize)
          s.outPos
          (s.outPos + toCopy src inSize dstSize s.positions)
          (memcpy src (4 + (literals src inSize s.inPos).2)
            (toCopy src inSize dstSize s.positions) s.outPos
            s.dst)
          dst' :=
    does_memcpy hRoom s.dst
  rcases hLiterals with ⟨dst', hCopy⟩
  let t : State :=
    ⟨dst', matchPos src inSize s.inPos,
      matchStart src inSize dstSize s.positions⟩
  have hIn : t.inPos = matchPos src inSize s.inPos := rfl
  have hOut :
      t.outPos = matchStart src inSize dstSize s.positions := rfl
  rcases does_sequenceMatch hMore hFit hIn hOut with
    ⟨r, hEnds, hMatch⟩
  unfold sequence
  rw [if_pos hMore]
  refine ⟨r, hEnds, ?_⟩
  refine
    (does_fetch_bind
      ((does_literals src s).bind
        (D :=
          (∀ k < toCopy src inSize dstSize s.positions,
              4 + (literals src inSize s.inPos).2 + k <
                4 + inSize) ∧
            MatchOk src inSize dstSize s.positions)
        ?_)).congr ?_
  · dsimp only
    rw [hCount, if_neg hGo]
    exact hCopy.bind hMatch
  · constructor
    · rintro ⟨-, hLiterals, -, hOk⟩
      exact ⟨hOk, hLiterals⟩
    · intro hOk
      exact
        ⟨Nat.add_lt_add_left hMore.1 4, hOk.literals,
          fun k hK => literals_inside hFit hK, hOk.toMatchOk⟩

------
-- Runs
------

/- Lengths are read forwards. -/
theorem le_readLen
    (bytes : Bytes)
    (len full : U32)
    (p : Nat) :
    p ≤ (NsoLoader.readLen bytes inSize len full p).2 := by
  have hExtra :
      ∀ n len p, p ≤ (NsoLoader.readExtra bytes inSize n len p).2 := by
    intro n
    induction n with
    | zero => exact fun _ p => Nat.le_refl p
    | succ n ih =>
        intro len p
        rw [NsoLoader.readExtra]
        split
        · exact Nat.le_trans (Nat.le_succ p) (ih _ _)
        · exact Nat.le_succ p
  unfold NsoLoader.readLen
  split
  · exact hExtra _ _ _
  · exact Nat.le_refl p

/- The loop gets further, and keeps to the destination. -/
theorem Step.advances
    {s t : Nat × Nat}
    (hStep : Step src inSize dstSize s t) :
    s.1 < t.1 ∧ t.2 ≤ dstSize := by
  rw [← hStep.next]
  constructor
  · have hLiterals : s.1 + 1 ≤ (literals src inSize s.1).2 :=
      le_readLen _ _ _ _
    have hMatch :
        matchPos src inSize s.1 + 2 ≤ (matchLen src inSize s.1).2 :=
      le_readLen _ _ _ _
    show s.1 < (matchLen src inSize s.1).2
    unfold matchPos at hMatch
    omega
  · have hMore := hStep.more.2
    show matchStart src inSize dstSize s + _ ≤ dstSize
    unfold matchStart toCopy
    omega

theorem lastOut_le
    {s : Nat × Nat}
    (hOut : s.2 ≤ dstSize) :
    lastOut src inSize dstSize s ≤ dstSize := by
  unfold lastOut matchStart toCopy
  split <;> omega

/- Sequences that go on behind the first one. -/
theorem sequencesOk_of_step
    {s t : Nat × Nat}
    (hStep : Step src inSize dstSize s t) :
    SequencesOk src inSize dstSize s ↔
      SequenceOk src inSize dstSize s ∧
        SequencesOk src inSize dstSize t := by
  constructor
  · intro hAll
    exact
      ⟨hAll s .refl hStep.more.1 hStep.more.2,
        fun u hReach => hAll u (.head hStep hReach)⟩
  · rintro ⟨hFirst, hRest⟩ u hReach hIn hOut
    rcases hReach.cases_head with hEq | ⟨t', hStep', hReach'⟩
    · rw [← hEq]
      exact hFirst
    · rw [← hStep'.next, hStep.next] at hReach'
      exact hRest u hReach' hIn hOut

/- Sequences that end with the first one. -/
theorem sequencesOk_of_stop
    {s : Nat × Nat}
    (hMore : s.1 < inSize ∧ s.2 < dstSize)
    (hNone : ∀ u, ¬ Step src inSize dstSize s u) :
    SequencesOk src inSize dstSize s ↔
      SequenceOk src inSize dstSize s := by
  constructor
  · intro hAll
    exact hAll s .refl hMore.1 hMore.2
  · intro hFirst u hReach _ _
    rcases hReach.cases_head with hEq | ⟨t, hStep, -⟩
    · rw [← hEq]
      exact hFirst
    · exact absurd hStep (hNone t)

theorem sequencesOk_of_not_more
    {s : Nat × Nat}
    (hEnd : ¬ (s.1 < inSize ∧ s.2 < dstSize)) :
    SequencesOk src inSize dstSize s := by
  intro u hReach hIn hOut
  rcases hReach.cases_head with hEq | ⟨t, hStep, -⟩
  · rw [← hEq] at hIn hOut
    exact absurd ⟨hIn, hOut⟩ hEnd
  · exact absurd hStep.more hEnd

/- The loop is allowed if and only if its sequences are. -/
theorem does_sequences
    {n : Nat}
    (src : Bytes)
    (hOut : s.outPos ≤ dstSize)
    (hFuel : inSize - s.inPos < n) :
    ∃ t : State,
      t.outPos ≤ dstSize ∧
        Does (4 + inSize) dstSize
          (SequencesOk src inSize dstSize s.positions) s.outPos
          t.outPos
          (Logged.loop (sequence src inSize dstSize) n s) t := by
  induction n generalizing s with
  | zero => exact absurd hFuel (Nat.not_lt_zero _)
  | succ n ih =>
      unfold Logged.loop
      by_cases hMore : s.inPos < inSize ∧ s.outPos < dstSize
      · rcases does_sequence src hMore with ⟨r, hEnds, hDoes⟩
        cases r with
        | again t =>
            have hStep :
                Step src inSize dstSize s.positions t.positions :=
              hEnds
            rcases hStep.advances with ⟨hFurther, hRoom⟩
            have hLess : inSize - t.inPos < n := by
              have hLt : s.inPos < t.inPos := hFurther
              omega
            rcases ih hRoom hLess with ⟨u, hLast, hRest⟩
            exact
              ⟨u, hLast,
                (hDoes.bind hRest).congr
                  (sequencesOk_of_step hStep).symm⟩
        | done t =>
            rcases hEnds with ⟨hLast, hNone⟩
            have hRoom : t.outPos ≤ dstSize := by
              rw [hLast]
              exact lastOut_le hOut
            refine
              ⟨t, hRoom, (hDoes.bind (does_pure t)).congr ?_⟩
            rw [and_true]
            exact (sequencesOk_of_stop hMore hNone).symm
      · have hStop :
            sequence src inSize dstSize s = pure (.done s) :=
          if_neg hMore
        rw [hStop]
        exact
          ⟨s, hOut,
            (does_pure s).congr
              (iff_of_true trivial (sequencesOk_of_not_more hMore))⟩

theorem does_isLZ4Compressed
    (src : Bytes)
    (srcSize dstSize w : Nat) :
    Does srcSize dstSize True w w (isLZ4Compressed src srcSize)
      (NsoLoader.isLZ4Compressed src srcSize) := by
  unfold isLZ4Compressed NsoLoader.isLZ4Compressed
  by_cases hShort : srcSize < 4
  · have hFalse : decide (4 ≤ srcSize) = false :=
      decide_eq_false (Nat.not_le.mpr hShort)
    rw [if_pos hShort, hFalse, Bool.false_and]
    exact does_pure false
  · have hTrue : decide (4 ≤ srcSize) = true :=
      decide_eq_true (Nat.not_lt.mp hShort)
    rw [if_neg hShort, hTrue, Bool.true_and]
    refine ⟨rfl, iff_of_true ?_ trivial, ?_⟩
    · exact
        ⟨by omega, by omega, by omega, by omega, trivial⟩
    · simp only [BufferAccess.writes_cons_readSrc,
        BufferAccess.writes_nil, Set.union_empty]

/-
  The decompressor returns and keeps to the buffers if and only
  if the sequences that it decodes are complete.
-/
theorem decompress_safe_iff
    (src : Bytes)
    (srcSize : Nat)
    (dst : Int → U8)
    (dstSize : Nat) :
    Safe srcSize dstSize (decompress src srcSize dst dstSize) ↔
      (NsoLoader.isLZ4Compressed src srcSize = true →
        SequencesOk src (srcSize - 4) dstSize (0, 0)) := by
  -- What is put out never exceeds the destination.
  have hDoes :
      ∃ n ≤ dstSize,
        Does srcSize dstSize
          (NsoLoader.isLZ4Compressed src srcSize = true →
            SequencesOk src (srcSize - 4) dstSize (0, 0))
          0 n (decompress src srcSize dst dstSize) n := by
    have hMagic := does_isLZ4Compressed src srcSize dstSize 0
    cases hCompressed : NsoLoader.isLZ4Compressed src srcSize with
    | false =>
        rw [hCompressed] at hMagic
        have hRoom : 0 + min srcSize dstSize ≤ dstSize := by omega
        have hWhole :
            ∃ dst',
              Does srcSize dstSize
                (∀ k < min srcSize dstSize, 0 + k < srcSize) 0
                (0 + min srcSize dstSize)
                (memcpy src 0 (min srcSize dstSize) 0 dst) dst' :=
          does_memcpy hRoom dst
        rcases hWhole with ⟨dst', hCopy⟩
        rw [Nat.zero_add] at hCopy
        refine ⟨min srcSize dstSize, Nat.min_le_right _ _, ?_⟩
        have hInside : ∀ k < min srcSize dstSize, 0 + k < srcSize := by
          intro k hK
          omega
        refine
          (hMagic.bind (D := True) ?_).congr (iff_of_true ?_ ?_)
        · rw [if_pos Bool.false_ne_true]
          refine
            (hCopy.bind (D := True) ?_).congr
              (iff_of_true ⟨hInside, trivial⟩ trivial)
          exact does_pure _
        · exact ⟨trivial, trivial⟩
        · intro hFalse
          cases hFalse
    | true =>
        have hSize : 4 + (srcSize - 4) = srcSize := by
          unfold NsoLoader.isLZ4Compressed at hCompressed
          rw [Bool.and_eq_true, decide_eq_true_eq] at hCompressed
          have hLe := hCompressed.1
          omega
        let start : State := ⟨dst, 0, 0⟩
        have hStart : start.outPos ≤ dstSize := Nat.zero_le _
        have hFuel :
            srcSize - 4 - start.inPos < srcSize - 4 + 1 :=
          Nat.lt_succ_self _
        rcases does_sequences src hStart hFuel with
          ⟨t, hLast, hLoop⟩
        rw [hSize] at hLoop
        rw [hCompressed] at hMagic
        refine ⟨t.outPos, hLast, ?_⟩
        refine
          (hMagic.bind
            (D := SequencesOk src (srcSize - 4) dstSize (0, 0))
            ?_).congr ?_
        · rw [if_neg fun hNot => hNot rfl]
          refine
            (hLoop.bind (D := True) ?_).congr
              (and_iff_left trivial)
          exact does_pure _
        · rw [true_and]
          exact ⟨fun hOk _ => hOk, fun hOk => hOk rfl⟩
  rcases hDoes with ⟨n, hLe, hDoes⟩
  have hNone : Set.Iio 0 = (∅ : Set Nat) :=
    Set.eq_empty_of_forall_notMem fun i => Nat.not_lt_zero i
  rw [← hDoes.allowed, hNone]
  exact
    ⟨fun hSafe => hSafe.accesses,
      fun hAllowed => ⟨⟨n, hLe, hDoes.value⟩, hAllowed⟩⟩

/- The magic, and a token that says that a length goes on. -/
def cutShort : Bytes :=
  Bytes.ofList [0x04, 0x22, 0x4D, 0x18, 0xF0] 0

/- A byte behind the source is read. -/
theorem not_safe_cutShort :
    ¬ ∀ src srcSize dst dstSize,
        Safe srcSize dstSize
          (decompress src srcSize dst dstSize) := by
  intro hSafe
  have hAllowed := (hSafe cutShort 5 (fun _ => 0) 16).accesses
  have hLog :
      (decompress cutShort 5 (fun _ => 0) 16).log =
        [.readSrc 0, .readSrc 1, .readSrc 2, .readSrc 3,
          .readSrc 4, .readSrc 5] := by
    decide
  rw [hLog] at hAllowed
  rcases hAllowed with ⟨-, -, -, -, -, hLast, -⟩
  exact absurd hLast (Nat.lt_irrefl 5)

------
-- The Decompressor of the Loader
------

variable {mem mem' : HostMemory} {ptr : Nat}

theorem copyMatch_outPos
    {offset n outPos outPos' : Nat}
    (hCopy :
      NsoLoader.copyMatch ptr dstSize offset n mem outPos =
        some (mem', outPos')) :
    outPos' = outPos + min n (dstSize - outPos) := by
  induction n generalizing mem outPos with
  | zero =>
      cases hCopy
      omega
  | succ n ih =>
      unfold NsoLoader.copyMatch at hCopy
      split at hCopy
      · rcases Option.bind_eq_some_iff.1 hCopy with
          ⟨b, -, hCopy⟩
        rcases Option.bind_eq_some_iff.1 hCopy with
          ⟨mem₁, -, hCopy⟩
        have hRest := ih hCopy
        omega
      · cases hCopy
        omega

/- A sequence leads to the same positions there. -/
theorem sequence_leads
    {run run' : NsoLoader.Lz4Run}
    {more : Bool}
    (hMore : run.inPos < inSize ∧ run.outPos < dstSize)
    (hSequence :
      NsoLoader.sequence (input src) inSize ptr dstSize run =
        some (more, run')) :
    if more = true then
      Step src inSize dstSize (run.inPos, run.outPos)
        (run'.inPos, run'.outPos)
    else
      run'.outPos =
          lastOut src inSize dstSize (run.inPos, run.outPos) ∧
        ∀ u, ¬ Step src inSize dstSize (run.inPos, run.outPos) u := by
  unfold NsoLoader.sequence at hSequence
  dsimp only at hSequence
  split at hSequence
  · next hStop =>
      cases hSequence
      have hFit :
          ¬ LiteralsFit src inSize dstSize (run.inPos, run.outPos) :=
        fun hFit => Nat.not_le.mpr hStop.2 (hFit hStop.1)
      exact
        ⟨(if_neg hFit).symm, fun u hStep => hFit hStep.hasMatch.1⟩
  · next hGo =>
      have hFit :
          LiteralsFit src inSize dstSize (run.inPos, run.outPos) :=
        fun hSome => Nat.not_lt.mp fun hOver => hGo ⟨hSome, hOver⟩
      have hLast :
          lastOut src inSize dstSize (run.inPos, run.outPos) =
            matchStart src inSize dstSize (run.inPos, run.outPos) :=
        if_pos hFit
      rcases Option.bind_eq_some_iff.1 hSequence with
        ⟨mem₁, -, hSequence⟩
      split at hSequence
      · next hEnd =>
          cases hSequence
          exact
            ⟨hLast.symm,
              fun u hStep =>
                absurd hStep.hasMatch.2 (Nat.not_lt.mpr hEnd)⟩
      · next hIn =>
          split at hSequence
          · next hZero =>
              cases hSequence
              exact
                ⟨hLast.symm, fun u hStep => hStep.offset_ne hZero⟩
          · next hNe =>
              rcases Option.bind_eq_some_iff.1 hSequence with
                ⟨copied, hCopy, hSequence⟩
              cases hSequence
              refine ⟨hMore, ⟨hFit, Nat.not_le.mp hIn⟩, hNe, ?_⟩
              exact congrArg (Prod.mk _) (copyMatch_outPos hCopy).symm

/- So does the loop. -/
theorem value_sequences
    {n m : Nat}
    {run run' : NsoLoader.Lz4Run}
    (hSequences :
      NsoLoader.sequences (input src) inSize ptr dstSize m run =
        some run')
    (hPositions : s.positions = (run.inPos, run.outPos))
    (hEnough : inSize - s.inPos ≤ m)
    (hFuel : inSize - s.inPos < n) :
    ∃ t : State,
      (Logged.loop (sequence src inSize dstSize) n s).value =
          some t ∧
        t.outPos = run'.outPos := by
  have hIn : s.inPos = run.inPos := congrArg Prod.fst hPositions
  have hOut : s.outPos = run.outPos := congrArg Prod.snd hPositions
  induction m generalizing s run n with
  | zero =>
      cases hSequences
      have hStop :
          sequence src inSize dstSize s = pure (.done s) :=
        if_neg fun hMore => by omega
      cases n with
      | zero => exact absurd hFuel (Nat.not_lt_zero _)
      | succ n =>
          refine ⟨s, ?_, hOut⟩
          unfold Logged.loop
          rw [hStop]
          rfl
  | succ m ih =>
      cases n with
      | zero => exact absurd hFuel (Nat.not_lt_zero _)
      | succ n =>
          unfold Logged.loop
          unfold NsoLoader.sequences at hSequences
          by_cases hMore : s.inPos < inSize ∧ s.outPos < dstSize
          · rw [hIn, hOut] at hMore
            rw [if_pos hMore] at hSequences
            rcases Option.bind_eq_some_iff.1 hSequences with
              ⟨⟨more, run₁⟩, hSequence, hSequences⟩
            dsimp only at hSequences
            have hLeads := sequence_leads hMore hSequence
            rw [← hPositions] at hLeads
            rw [← hIn, ← hOut] at hMore
            rcases does_sequence src hMore with
              ⟨r, hEnds, hDoes⟩
            rw [Logged.bind_of_some hDoes.value]
            cases more with
            | true =>
                rw [if_pos rfl] at hLeads hSequences
                cases r with
                | done t => exact absurd hLeads (hEnds.2 _)
                | again t =>
                    have hStep :
                        Step src inSize dstSize s.positions
                          t.positions :=
                      hEnds
                    have hSame :
                        t.positions = (run₁.inPos, run₁.outPos) := by
                      rw [← hStep.next, hLeads.next]
                    have hFurther : s.inPos < t.inPos :=
                      hStep.advances.1
                    exact
                      ih hSequences hSame (by omega) (by omega)
                        (congrArg Prod.fst hSame)
                        (congrArg Prod.snd hSame)
            | false =>
                rw [if_neg Bool.false_ne_true] at hLeads hSequences
                cases hSequences
                cases r with
                | again t => exact absurd hEnds (hLeads.2 _)
                | done t =>
                    exact ⟨t, rfl, hEnds.1.trans hLeads.1.symm⟩
          · have hStop :
                sequence src inSize dstSize s = pure (.done s) :=
              if_neg hMore
            rw [hIn, hOut] at hMore
            rw [if_neg hMore] at hSequences
            cases hSequences
            rw [hStop]
            exact ⟨s, rfl, hOut⟩

/-
  The decompressor of the loader, which works on memory, puts
  out as much as the one whose accesses are logged.
-/
theorem value_decompress
    {n : Nat}
    (hUnpack :
      NsoLoader.decompressLz4 src srcSize mem ptr dstSize =
        some (mem', n))
    (dst : Int → U8) :
    (decompress src srcSize dst dstSize).value = some n := by
  have hMagic :=
    (does_isLZ4Compressed src srcSize dstSize 0).value
  unfold NsoLoader.decompressLz4 at hUnpack
  unfold decompress
  rw [Logged.bind_of_some hMagic]
  cases hCompressed : NsoLoader.isLZ4Compressed src srcSize with
  | false =>
      rw [hCompressed, if_pos Bool.false_ne_true] at hUnpack
      rcases Option.bind_eq_some_iff.1 hUnpack with
        ⟨mem₁, -, hUnpack⟩
      cases hUnpack
      rfl
  | true =>
      rw [hCompressed, if_neg fun hNot => hNot rfl] at hUnpack
      rcases Option.bind_eq_some_iff.1 hUnpack with
        ⟨run, hRun, hUnpack⟩
      cases hUnpack
      rcases
        value_sequences (s := ⟨dst, 0, 0⟩) (n := srcSize - 4 + 1)
          hRun rfl (Nat.le_refl _) (Nat.lt_succ_self _) with
        ⟨t, hLoop, hOut⟩
      dsimp only
      rw [if_neg fun hNot => hNot rfl, Logged.bind_of_some hLoop]
      exact congrArg some hOut

end Lz4Decoder

end M1Switch
