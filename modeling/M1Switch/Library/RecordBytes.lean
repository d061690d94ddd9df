import M1Switch.Library.ByteBuffers

/-
  Records in memory.

  A record is stored as the bytes of its fields, one field
  behind the other.  A field is read back from the part of the
  bytes that it takes up.

  Key definitions include:
    * `ofList`

  Main results:
    * `toNat_word`
    * `word_eq_iff`
    * `long_eq_iff`
-/

------
-- Fields of a Record
------

namespace Bytes

variable {mem mem' : Bytes} {start start' : Nat}
variable {content : List (BitVec 8)} {p k : Nat}

/- A word depends on its four bytes only. -/
theorem word_congr
    (hBytes : ∀ j < 4, mem (start + j) = mem' (start' + j)) :
    word mem start = word mem' start' := by
  have hFirst : mem start = mem' start' :=
    hBytes 0 (by decide)
  unfold word
  rw [hBytes 3 (by decide), hBytes 2 (by decide),
    hBytes 1 (by decide), hFirst]

theorem long_congr
    (hBytes : ∀ j < 8, mem (start + j) = mem' (start' + j)) :
    long mem start = long mem' start' := by
  have hLow : word mem start = word mem' start' :=
    word_congr fun j hJ => hBytes j (by omega)
  have hHigh :
      word mem (start + 4) = word mem' (start' + 4) := by
    apply word_congr
    intro j hJ
    rw [Nat.add_assoc, Nat.add_assoc]
    exact hBytes (4 + j) (by omega)
  unfold long
  rw [hLow, hHigh]

theorem getElem_slice
    {count j : Nat}
    (hJ : j < (slice mem start count).length) :
    (slice mem start count)[j] = mem (start + j) := by
  simp [slice]

/- A field of a record that was stored. -/
theorem slice_store_field
    {bytes : List (BitVec 8)}
    {k count : Nat}
    (hIn : k + count ≤ bytes.length) :
    slice (store mem start bytes) (start + k) count =
      (bytes.drop k).take count := by
  apply List.ext_getElem
  · rw [length_slice, List.length_take, List.length_drop]
    omega
  · intro j hJ hJ'
    have hLt : j < count := by
      rw [length_slice] at hJ
      exact hJ
    have hGet : k + j < bytes.length := by omega
    rw [getElem_slice, Nat.add_assoc, store_inside hGet,
      List.getElem_take, List.getElem_drop]
    simp [hGet]

/- A word is known from the bytes it is stored as. -/
theorem word_of_slice
    {w : BitVec 32}
    (hSlice : slice mem start 4 = ofWord w) :
    word mem start = w := by
  have hList :
      [mem (start + 0), mem (start + 1), mem (start + 2),
        mem (start + 3)] = ofWord w :=
    hSlice
  unfold ofWord at hList
  rcases List.cons.inj hList with ⟨h₀, hList⟩
  rcases List.cons.inj hList with ⟨h₁, hList⟩
  rcases List.cons.inj hList with ⟨h₂, hList⟩
  rcases List.cons.inj hList with ⟨h₃, -⟩
  have hFirst : mem start = WordBytes.byte w 0 := h₀
  unfold word
  rw [h₃, h₂, h₁, hFirst]
  exact append_bytes w

/- A double word is its two halves. -/
theorem append_halves (l : BitVec 64) :
    l.extractLsb' 32 32 ++ l.extractLsb' 0 32 = l := by
  apply BitVec.eq_of_getLsbD_eq
  intro i hI
  rw [BitVec.getLsbD_append, BitVec.getLsbD_extractLsb',
    BitVec.getLsbD_extractLsb']
  by_cases hLow : i < 32
  · simp [hLow]
  · have hPos : 32 + (i - 32) = i := by omega
    have hHigh : i - 32 < 32 := by omega
    simp [hLow, hPos, hHigh]

theorem long_of_slice
    {l : BitVec 64}
    (hSlice : slice mem start 8 = ofLong l) :
    long mem start = l := by
  have hSplit :
      slice mem start 8 =
        slice mem start 4 ++ slice mem (start + 4) 4 :=
    rfl
  rw [hSplit] at hSlice
  rcases List.append_inj hSlice (by rw [length_slice]; rfl) with
    ⟨hLow, hHigh⟩
  unfold long
  rw [word_of_slice hLow, word_of_slice hHigh]
  exact append_halves l

/- The bytes of a word are the ones it was read from. -/
theorem byte_word_at
    (mem : Bytes)
    (start : Nat)
    {j : Nat}
    (hJ : j < 4) :
    WordBytes.byte (word mem start) j = mem (start + j) := by
  apply BitVec.eq_of_getLsbD_eq
  intro i hI
  unfold WordBytes.byte word
  rw [BitVec.getLsbD_extractLsb', BitVec.getLsbD_append,
    BitVec.getLsbD_append, BitVec.getLsbD_append]
  have hCases : j = 0 ∨ j = 1 ∨ j = 2 ∨ j = 3 := by omega
  rcases hCases with rfl | rfl | rfl | rfl
  · simp [hI]
  · have hLow : ¬ 8 * 1 + i < 8 := by omega
    have hNext : 8 * 1 + i - 8 = i := by omega
    simp only [hLow, hNext, hI, if_false, if_true,
      decide_true, Bool.true_and]
  · have hLow : ¬ 8 * 2 + i < 8 := by omega
    have hNext : ¬ 8 * 2 + i - 8 < 8 := by omega
    have hLast : 8 * 2 + i - 8 - 8 = i := by omega
    simp only [hLow, hNext, hLast, hI, if_false, if_true,
      decide_true, Bool.true_and]
  · have hLow : ¬ 8 * 3 + i < 8 := by omega
    have hNext : ¬ 8 * 3 + i - 8 < 8 := by omega
    have hLast : ¬ 8 * 3 + i - 8 - 8 < 8 := by omega
    have hPos : 8 * 3 + i - 8 - 8 - 8 = i := by omega
    simp only [hLow, hNext, hLast, hPos, hI, if_false,
      decide_true, Bool.true_and]

/- A number made of two. -/
theorem toNat_append_bits
    {w v : Nat}
    (x : BitVec w)
    (y : BitVec v) :
    (x ++ y).toNat = x.toNat * 2 ^ v + y.toNat := by
  rw [BitVec.toNat_append,
    ← Nat.shiftLeft_add_eq_or_of_lt y.isLt,
    Nat.shiftLeft_eq]

/- The number that a word is. -/
theorem toNat_word (mem : Bytes) (start : Nat) :
    (word mem start).toNat =
      (mem start).toNat + 256 * (mem (start + 1)).toNat +
        65536 * (mem (start + 2)).toNat +
        16777216 * (mem (start + 3)).toNat := by
  unfold word
  rw [toNat_append_bits, toNat_append_bits, toNat_append_bits]
  omega

/- Words are equal where all their bytes are. -/
theorem word_eq_iff :
    word mem start = word mem' start' ↔
      ∀ j < 4, mem (start + j) = mem' (start' + j) := by
  constructor
  · intro hWord j hJ
    rw [← byte_word_at mem start hJ,
      ← byte_word_at mem' start' hJ, hWord]
  · exact word_congr

/- Numbers that are equal have equal halves. -/
theorem append_inj
    {w v : Nat}
    {x x' : BitVec w}
    {y y' : BitVec v}
    (hEq : x ++ y = x' ++ y') :
    x = x' ∧ y = y' := by
  have hBit :
      ∀ i, (x ++ y).getLsbD i = (x' ++ y').getLsbD i :=
    fun i => congrArg (fun z => BitVec.getLsbD z i) hEq
  simp only [BitVec.getLsbD_append] at hBit
  constructor
  · apply BitVec.eq_of_getLsbD_eq
    intro i hI
    have hHigh := hBit (v + i)
    have hNot : ¬ v + i < v := by omega
    have hSub : v + i - v = i := by omega
    simpa only [hNot, hSub, if_false] using hHigh
  · apply BitVec.eq_of_getLsbD_eq
    intro i hI
    have hLow := hBit i
    simpa only [hI, if_true] using hLow

theorem long_eq_iff :
    long mem start = long mem' start' ↔
      ∀ j < 8, mem (start + j) = mem' (start' + j) := by
  constructor
  · intro hLong
    rcases append_inj hLong with ⟨hHigh, hLow⟩
    intro j hJ
    by_cases hFirst : j < 4
    · exact word_eq_iff.1 hLow j hFirst
    · have hSecond := word_eq_iff.1 hHigh (j - 4) (by omega)
      have hPos :
          ∀ s, s + 4 + (j - 4) = s + j := by
        intro s
        omega
      rw [hPos, hPos] at hSecond
      exact hSecond
  · exact long_congr

------
-- Lists of Bytes
------

/- The bytes of a list from `start` on. -/
def ofList (bytes : List (BitVec 8)) (start : Nat) : Bytes :=
  fun i => bytes.getD (start + i) 0

theorem ofList_add
    (bytes : List (BitVec 8))
    (start k i : Nat) :
    ofList bytes (start + k) i = ofList bytes start (k + i) := by
  unfold ofList
  rw [Nat.add_assoc]

theorem slice_ofList
    {bytes : List (BitVec 8)}
    {start k count : Nat}
    (hIn : start + k + count ≤ bytes.length) :
    slice (ofList bytes start) k count =
      (bytes.drop (start + k)).take count := by
  apply List.ext_getElem
  · rw [length_slice, List.length_take, List.length_drop]
    omega
  · intro j hJ hJ'
    have hLt : j < count := by
      rw [length_slice] at hJ
      exact hJ
    have hGet : start + (k + j) < bytes.length := by omega
    rw [getElem_slice, List.getElem_take, List.getElem_drop]
    unfold ofList
    simp [hGet, Nat.add_assoc]

theorem length_ofLongs (ls : List (BitVec 64)) :
    (ls.flatMap ofLong).length = 8 * ls.length := by
  induction ls with
  | nil => rfl
  | cons l ls ih =>
      rw [List.flatMap_cons, List.length_append, ih,
        List.length_cons]
      have hLong : (ofLong l).length = 8 := rfl
      omega

/- One of several double words, one behind the other. -/
theorem take_drop_ofLongs
    {ls : List (BitVec 64)}
    {k : Nat}
    (hK : k < ls.length)
    (rest : List (BitVec 8)) :
    ((ls.flatMap ofLong ++ rest).drop (8 * k)).take 8 =
      ofLong ls[k] := by
  induction ls generalizing k with
  | nil => exact absurd hK (Nat.not_lt_zero k)
  | cons l ls ih =>
      rw [List.flatMap_cons, List.append_assoc]
      cases k with
      | zero => rfl
      | succ k =>
          have hPos : 8 * (k + 1) = (ofLong l).length + 8 * k := by
            have hLong : (ofLong l).length = 8 := rfl
            omega
          rw [hPos, List.drop_length_add_append,
            List.getElem_cons_succ]
          exact ih (Nat.lt_of_succ_lt_succ hK)

/- A double word where the bytes of one stand. -/
theorem long_of_take
    {l : BitVec 64}
    (hTake : ((content.drop p).drop k).take 8 = ofLong l) :
    (ofList content p).long k = l := by
  have hLength := congrArg List.length hTake
  rw [List.length_take, List.length_drop,
    List.length_drop] at hLength
  have hLong : (ofLong l).length = 8 := rfl
  apply long_of_slice
  rw [slice_ofList (by omega), ← List.drop_drop]
  exact hTake

theorem word_of_take
    {w : BitVec 32}
    (hTake : ((content.drop p).drop k).take 4 = ofWord w) :
    (ofList content p).word k = w := by
  have hLength := congrArg List.length hTake
  rw [List.length_take, List.length_drop,
    List.length_drop] at hLength
  have hWord : (ofWord w).length = 4 := rfl
  apply word_of_slice
  rw [slice_ofList (by omega), ← List.drop_drop]
  exact hTake

theorem long_of_drop
    {l : BitVec 64}
    {rest : List (BitVec 8)}
    (hDrop : content.drop (p + k) = ofLong l ++ rest) :
    (ofList content p).long k = l := by
  apply long_of_take
  rw [List.drop_drop, hDrop]
  rfl

theorem word_of_drop
    {w : BitVec 32}
    {rest : List (BitVec 8)}
    (hDrop : content.drop (p + k) = ofWord w ++ rest) :
    (ofList content p).word k = w := by
  apply word_of_take
  rw [List.drop_drop, hDrop]
  rfl

end Bytes
