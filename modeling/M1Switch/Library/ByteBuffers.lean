import Mathlib.Data.BitVec
import Mathlib.Data.List.Basic
import M1Switch.Library.WordBytes

/-
  Byte buffers without a bound of their own.

  A pointer gives bytes at any offset, so what a routine reads
  and writes is recorded as spans.  That it keeps to a buffer
  of some size is then a statement about the record.

  Key definitions include:
    * `Span.Inside`
    * `slice`

  Main results:
    * `slice_store_apart`
    * `word_store_words`
    * `word_ofWords`
-/

------
-- Spans
------

/- A run of bytes. -/
structure Span where
  start : Nat
  count : Nat
deriving DecidableEq

namespace Span

/- The run ends before `size`. -/
def Inside (size : Nat) (s : Span) : Prop :=
  s.start + s.count ≤ size

instance (size : Nat) (s : Span) :
    Decidable (s.Inside size) :=
  inferInstanceAs (Decidable (_ ≤ _))

/- All the runs do. -/
def Within (size : Nat) (spans : List Span) : Prop :=
  ∀ s ∈ spans, s.Inside size

instance (size : Nat) (spans : List Span) :
    Decidable (Within size spans) :=
  inferInstanceAs (Decidable (∀ s ∈ spans, _))

@[simp] theorem within_nil (size : Nat) :
    Within size [] := by
  simp [Within]

@[simp] theorem within_cons
    (size : Nat)
    (s : Span)
    (spans : List Span) :
    Within size (s :: spans) ↔
      s.start + s.count ≤ size ∧ Within size spans := by
  simp [Within, Inside]

@[simp] theorem within_append
    (size : Nat)
    (xs ys : List Span) :
    Within size (xs ++ ys) ↔
      Within size xs ∧ Within size ys := by
  simp [Within, or_imp, forall_and]

end Span

------
-- Reading and Storing Bytes
------

/- The bytes behind a pointer. -/
abbrev Bytes := Nat → BitVec 8

namespace Bytes

/- `count` bytes from `start` on. -/
def slice
    (mem : Bytes)
    (start count : Nat) : List (BitVec 8) :=
  (List.range count).map fun i => mem (start + i)

/- The memory once bytes were copied to `start`. -/
def store
    (mem : Bytes)
    (start : Nat)
    (bytes : List (BitVec 8)) : Bytes :=
  fun i =>
    if start ≤ i ∧ i < start + bytes.length then
      bytes.getD (i - start) 0
    else mem i

/- The little-endian word at `start`. -/
def word
    (mem : Bytes)
    (start : Nat) : BitVec 32 :=
  mem (start + 3) ++ mem (start + 2) ++
    mem (start + 1) ++ mem start

/- The four bytes of a word, the lowest first. -/
def ofWord (w : BitVec 32) : List (BitVec 8) :=
  [WordBytes.byte w 0, WordBytes.byte w 1,
    WordBytes.byte w 2, WordBytes.byte w 3]

/- The little-endian double word at `start`. -/
def long
    (mem : Bytes)
    (start : Nat) : BitVec 64 :=
  word mem (start + 4) ++ word mem start

/- The eight bytes of a double word. -/
def ofLong (l : BitVec 64) : List (BitVec 8) :=
  ofWord (l.extractLsb' 0 32) ++ ofWord (l.extractLsb' 32 32)

/- Bytes in digits to the base of sixteen, two a byte. -/
def hex (bytes : List (BitVec 8)) : List Char :=
  bytes.flatMap fun b =>
    [Nat.digitChar (b.toNat / 16), Nat.digitChar (b.toNat % 16)]

/- The bytes of several words, one behind the other. -/
def ofWords (ws : List (BitVec 32)) : List (BitVec 8) :=
  ws.flatMap ofWord

@[simp] theorem length_slice
    (mem : Bytes)
    (start count : Nat) :
    (slice mem start count).length = count := by
  simp [slice]

@[simp] theorem length_ofWord (w : BitVec 32) :
    (ofWord w).length = 4 :=
  rfl

theorem length_ofWords (ws : List (BitVec 32)) :
    (ofWords ws).length = 4 * ws.length := by
  induction ws with
  | nil => rfl
  | cons w ws ih =>
      have hCons :
          (ofWords (w :: ws)).length =
            4 + (ofWords ws).length := by
        simp [ofWords]
      rw [hCons, ih, List.length_cons]
      omega

/- Slices are equal where the bytes are. -/
theorem slice_congr
    {mem mem' : Bytes}
    {start start' count : Nat}
    (hBytes :
      ∀ i < count, mem (start + i) = mem' (start' + i)) :
    slice mem start count = slice mem' start' count := by
  apply List.map_congr_left
  intro i hI
  exact hBytes i (List.mem_range.1 hI)

variable {mem : Bytes} {bytes : List (BitVec 8)}

/- Apart from the bytes stored, nothing changes. -/
theorem store_apart
    {start i : Nat}
    (hApart : i < start ∨ start + bytes.length ≤ i) :
    store mem start bytes i = mem i := by
  have hOut : ¬ (start ≤ i ∧ i < start + bytes.length) := by
    omega
  simp [store, hOut]

/- The bytes stored are read back. -/
theorem store_inside
    {start i : Nat}
    (hIn : i < bytes.length) :
    store mem start bytes (start + i) = bytes.getD i 0 := by
  simp [store, hIn]

theorem slice_store_same
    (mem : Bytes)
    (start : Nat)
    (bytes : List (BitVec 8)) :
    slice (store mem start bytes) start bytes.length =
      bytes := by
  apply List.ext_getElem
  · simp
  · intro i hI hI'
    have hRead :
        (slice (store mem start bytes) start
          bytes.length)[i] =
          store mem start bytes (start + i) := by
      simp [slice]
    rw [hRead, store_inside hI']
    simp [hI']

/- A slice does not see what is stored elsewhere. -/
theorem slice_store_apart
    {start from_ count : Nat}
    (hApart :
      from_ + count ≤ start ∨
        start + bytes.length ≤ from_) :
    slice (store mem start bytes) from_ count =
      slice mem from_ count := by
  apply slice_congr
  intro i hI
  apply store_apart
  omega

/- A word does not either. -/
theorem word_store_apart
    {start from_ : Nat}
    (hApart :
      from_ + 4 ≤ start ∨ start + bytes.length ≤ from_) :
    word (store mem start bytes) from_ = word mem from_ := by
  unfold word
  rw [store_apart (by omega), store_apart (by omega),
    store_apart (by omega), store_apart (by omega)]

/- A word is its four bytes. -/
theorem append_bytes (w : BitVec 32) :
    WordBytes.byte w 3 ++ WordBytes.byte w 2 ++
      WordBytes.byte w 1 ++ WordBytes.byte w 0 = w := by
  apply BitVec.eq_of_getLsbD_eq
  intro i hI
  simp only [BitVec.getLsbD_append, WordBytes.byte,
    BitVec.getLsbD_extractLsb']
  by_cases h₀ : i < 8
  · simp [h₀]
  · by_cases h₁ : i - 8 < 8
    · have hPos : 8 + (i - 8) = i := by omega
      simp [h₀, h₁, hPos]
    · by_cases h₂ : i - 8 - 8 < 8
      · have hPos : 8 * 2 + (i - 8 - 8) = i := by omega
        simp [h₀, h₁, h₂, hPos]
      · have h₃ : i - 8 - 8 - 8 < 8 := by omega
        have hPos : 8 * 3 + (i - 8 - 8 - 8) = i := by omega
        simp [h₀, h₁, h₂, h₃, hPos]

/- One of several words stored is read back. -/
theorem word_store_words
    {start k : Nat}
    {ws : List (BitVec 32)}
    (hK : k < ws.length) :
    word (store mem start (ofWords ws)) (start + 4 * k) =
      ws.getD k 0 := by
  have hByte :
      ∀ j < 4,
        store mem start (ofWords ws) (start + 4 * k + j) =
          WordBytes.byte (ws.getD k 0) j := by
    intro j hJ
    have hIn : 4 * k + j < (ofWords ws).length := by
      rw [length_ofWords]
      omega
    rw [Nat.add_assoc, store_inside hIn]
    clear hIn
    induction ws generalizing k with
    | nil => simp at hK
    | cons w ws ih =>
        cases k with
        | zero =>
            have hCases :
                j = 0 ∨ j = 1 ∨ j = 2 ∨ j = 3 := by
              omega
            rcases hCases with rfl | rfl | rfl | rfl <;>
              simp [ofWords, ofWord]
        | succ k =>
            have hTail := ih (by simpa using hK)
            have hPos :
                4 * (k + 1) + j = (4 * k + j) + 4 := by
              omega
            rw [hPos]
            simpa [ofWords, ofWord] using hTail
  unfold word
  rw [hByte 3 (by decide), hByte 2 (by decide),
    hByte 1 (by decide),
    show store mem start (ofWords ws) (start + 4 * k) = _
      from hByte 0 (by decide)]
  exact append_bytes _

/- So is a single word. -/
theorem word_store_word
    (mem : Bytes)
    (start : Nat)
    (w : BitVec 32) :
    word (store mem start (ofWord w)) start = w := by
  have hWords : ofWord w = ofWords [w] := by
    simp [ofWords]
  have hRead :
      word (store mem start (ofWords [w])) (start + 4 * 0) =
        [w].getD 0 0 :=
    word_store_words (by simp)
  rw [hWords]
  simpa using hRead

/- Bytes that are stored hold the word they begin with. -/
theorem word_store_bytes
    {start : Nat}
    (hLong : 4 ≤ bytes.length) :
    word (store mem start bytes) start =
      word (fun i => bytes.getD i 0) 0 := by
  have hByte :
      ∀ j < 4,
        store mem start bytes (start + j) = bytes.getD j 0 :=
    fun j hJ => store_inside (by omega)
  have hFirst := hByte 0 (by decide)
  rw [Nat.add_zero] at hFirst
  unfold word
  rw [hByte 3 (by decide), hByte 2 (by decide),
    hByte 1 (by decide), hFirst]

/- So is one of several words alone. -/
theorem word_ofWords
    {k : Nat}
    {ws : List (BitVec 32)}
    (hK : k < ws.length) :
    word (fun i => (ofWords ws).getD i 0) (4 * k) =
      ws.getD k 0 := by
  have hStore :
      (fun i => (ofWords ws).getD i 0) =
        store (fun _ => 0) 0 (ofWords ws) := by
    funext i
    unfold store
    split
    · rfl
    · next hOut =>
        have hNone : (ofWords ws)[i]? = none :=
          List.getElem?_eq_none (by omega)
        rw [List.getD_eq_getElem?_getD, hNone]
        rfl
  rw [hStore, ← word_store_words hK, Nat.zero_add]

/- The lowest byte of a word comes first. -/
theorem byte_word
    (mem : Bytes)
    (start : Nat) :
    WordBytes.byte (word mem start) 0 = mem start := by
  apply BitVec.eq_of_getLsbD_eq
  intro i hI
  have hLow :
      (word mem start).getLsbD i = (mem start).getLsbD i := by
    unfold word
    rw [BitVec.getLsbD_append, if_pos hI]
  unfold WordBytes.byte
  rw [BitVec.getLsbD_extractLsb', decide_eq_true hI,
    Bool.true_and, Nat.mul_zero, Nat.zero_add, hLow]

/- Empty memory has empty words. -/
theorem word_zero (start : Nat) :
    word (fun _ => 0) start = 0 := by
  show (0#8 ++ 0#8 ++ 0#8 ++ 0#8 : BitVec 32) = 0#32
  decide

end Bytes

------
-- Reads on Record
------

/- A value, with the bytes that were read for it. -/
structure Traced (α : Type) where
  value : α
  reads : List Span

namespace Traced

variable {α β : Type}

instance : Monad Traced where
  pure a := ⟨a, []⟩
  bind x f := ⟨(f x.value).value, x.reads ++ (f x.value).reads⟩

@[simp] theorem value_pure (a : α) :
    (pure a : Traced α).value = a :=
  rfl

@[simp] theorem reads_pure (a : α) :
    (pure a : Traced α).reads = [] :=
  rfl

@[simp] theorem value_bind
    (x : Traced α)
    (f : α → Traced β) :
    (x >>= f).value = (f x.value).value :=
  rfl

@[simp] theorem reads_bind
    (x : Traced α)
    (f : α → Traced β) :
    (x >>= f).reads = x.reads ++ (f x.value).reads :=
  rfl

/- A value made of the bytes of a span. -/
abbrev read (start count : Nat) (a : α) : Traced α :=
  ⟨a, [⟨start, count⟩]⟩

@[simp] theorem value_ite
    (p : Prop) [Decidable p]
    (x y : Traced α) :
    (if p then x else y).value =
      if p then x.value else y.value := by
  split <;> rfl

@[simp] theorem reads_ite
    (p : Prop) [Decidable p]
    (x y : Traced α) :
    (if p then x else y).reads =
      if p then x.reads else y.reads := by
  split <;> rfl

end Traced

------
-- Writes on Record
------

/- A buffer, with the bytes that were written to it. -/
structure Buffer where
  bytes : Bytes
  writes : List Span := []

namespace Buffer

/- Copy bytes into the buffer. -/
def put
    (b : Buffer)
    (start : Nat)
    (bytes : List (BitVec 8)) : Buffer :=
  { bytes := b.bytes.store start bytes
    writes := b.writes ++ [⟨start, bytes.length⟩] }

@[simp] theorem bytes_put
    (b : Buffer)
    (start : Nat)
    (bytes : List (BitVec 8)) :
    (b.put start bytes).bytes = b.bytes.store start bytes :=
  rfl

@[simp] theorem writes_put
    (b : Buffer)
    (start : Nat)
    (bytes : List (BitVec 8)) :
    (b.put start bytes).writes =
      b.writes ++ [⟨start, bytes.length⟩] :=
  rfl

/- All bytes of a run have been written. -/
def Wrote (b : Buffer) (start count : Nat) : Prop :=
  ∀ i, start ≤ i → i < start + count →
    ∃ s ∈ b.writes, s.start ≤ i ∧ i < s.start + s.count

theorem wrote_put
    (b : Buffer)
    (start : Nat)
    (bytes : List (BitVec 8)) :
    (b.put start bytes).Wrote start bytes.length := by
  intro i hFrom hTo
  refine ⟨⟨start, bytes.length⟩, ?_, hFrom, hTo⟩
  rw [writes_put]
  exact List.mem_append_right _ (List.mem_singleton_self _)

/- Nothing has been written to a fresh buffer. -/
theorem not_wrote
    {bytes : Bytes}
    {start count : Nat}
    (hSome : 0 < count) :
    ¬ Wrote { bytes := bytes } start count := by
  intro hWrote
  rcases hWrote start (Nat.le_refl _) (by omega) with
    ⟨s, hMem, -⟩
  cases hMem

/- What has been written stays written. -/
theorem Wrote.put
    {b : Buffer}
    {start count : Nat}
    (hWrote : b.Wrote start count)
    (start' : Nat)
    (bytes : List (BitVec 8)) :
    (b.put start' bytes).Wrote start count := by
  intro i hFrom hTo
  rcases hWrote i hFrom hTo with ⟨s, hMem, hIn⟩
  refine ⟨s, ?_, hIn⟩
  rw [writes_put]
  exact List.mem_append_left _ hMem

/- A write in front of a run does not reach it. -/
theorem Wrote.of_put
    {b : Buffer}
    {start count start' : Nat}
    {bytes : List (BitVec 8)}
    (hWrote : (b.put start' bytes).Wrote start count)
    (hBefore : start' + bytes.length ≤ start) :
    b.Wrote start count := by
  intro i hFrom hTo
  rcases hWrote i hFrom hTo with ⟨s, hMem, hStart, hEnd⟩
  rw [writes_put] at hMem
  rcases List.mem_append.mp hMem with hOld | hNew
  · exact ⟨s, hOld, hStart, hEnd⟩
  · rw [List.mem_singleton.mp hNew] at hStart hEnd
    simp only at hStart hEnd
    omega

/- A buffer that is left alone before an offset. -/
structure SameBefore (n : Nat) (b b' : Buffer) : Prop where
  bytes : ∀ i, i < n → b'.bytes i = b.bytes i
  writes :
    ∀ s ∈ b'.writes, s ∈ b.writes ∨ n ≤ s.start
  kept : ∀ s ∈ b.writes, s ∈ b'.writes

namespace SameBefore

variable {n : Nat} {b b' b'' : Buffer}

theorem refl (n : Nat) (b : Buffer) : SameBefore n b b :=
  ⟨fun _ _ => rfl, fun _ hMem => .inl hMem, fun _ hMem => hMem⟩

/- Writes behind the offset leave it alone. -/
theorem put
    (hSame : SameBefore n b b')
    {start : Nat}
    (hBehind : n ≤ start)
    (bytes : List (BitVec 8)) :
    SameBefore n b (b'.put start bytes) := by
  constructor
  · intro i hIn
    rw [bytes_put, Bytes.store_apart (Or.inl (by omega))]
    exact hSame.bytes i hIn
  · intro s hMem
    rw [writes_put] at hMem
    rcases List.mem_append.mp hMem with hOld | hNew
    · exact hSame.writes s hOld
    · rw [List.mem_singleton.mp hNew]
      exact .inr hBehind
  · intro s hMem
    rw [writes_put]
    exact List.mem_append_left _ (hSame.kept s hMem)

theorem trans
    (hSame : SameBefore n b b')
    (hSame' : SameBefore n b' b'') :
    SameBefore n b b'' := by
  constructor
  · intro i hIn
    rw [hSame'.bytes i hIn, hSame.bytes i hIn]
  · intro s hMem
    rcases hSame'.writes s hMem with hOld | hNew
    · exact hSame.writes s hOld
    · exact .inr hNew
  · intro s hMem
    exact hSame'.kept s (hSame.kept s hMem)

/- What is alone before an offset is so before a smaller one. -/
theorem mono
    {m : Nat}
    (hSame : SameBefore n b b')
    (hLe : m ≤ n) :
    SameBefore m b b' :=
  ⟨fun i hIn => hSame.bytes i (Nat.lt_of_lt_of_le hIn hLe),
    fun s hMem =>
      (hSame.writes s hMem).imp_right (Nat.le_trans hLe),
    hSame.kept⟩

/- A word in front of the offset. -/
theorem word
    (hSame : SameBefore n b b')
    {start : Nat}
    (hIn : start + 4 ≤ n) :
    b'.bytes.word start = b.bytes.word start := by
  unfold Bytes.word
  rw [hSame.bytes _ (by omega), hSame.bytes _ (by omega),
    hSame.bytes _ (by omega), hSame.bytes _ (by omega)]

/- What has been written there had been before. -/
theorem wrote_iff
    (hSame : SameBefore n b b')
    {start count : Nat}
    (hIn : start + count ≤ n) :
    b'.Wrote start count ↔ b.Wrote start count := by
  constructor
  · intro hWrote i hFrom hTo
    rcases hWrote i hFrom hTo with ⟨s, hMem, hStart, hEnd⟩
    rcases hSame.writes s hMem with hOld | hBehind
    · exact ⟨s, hOld, hStart, hEnd⟩
    · omega
  · intro hWrote i hFrom hTo
    rcases hWrote i hFrom hTo with ⟨s, hMem, hInside⟩
    exact ⟨s, hSame.kept s hMem, hInside⟩

end SameBefore

end Buffer
