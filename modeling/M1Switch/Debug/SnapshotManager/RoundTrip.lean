import M1Switch.Debug.SnapshotManager

/-
  Snapshots that are read back.

  Both sides list the same fields, so the fields of a file are
  those of the snapshot, one byte later.  They are equal only
  where every byte equals the one in front of it.

  Main results:
    * `loadFromFile_eq`
    * `of_saveToFile`
    * `roundTrip_iff`
-/

------
-- What the Reader Finds
------

namespace M1Switch

namespace SnapshotManager

open Bytes
  (ofList long_of_take word_of_take long_of_drop word_of_drop)

variable {content : List U8} {b b' : Bytes}

/- Registers depend on 280 bytes, each of which they show. -/
theorem readRegs_eq_iff :
    readRegs b = readRegs b' ↔ ∀ k < 280, b k = b' k := by
  constructor
  · intro hRegs
    have hX :
        ∀ i : Fin 31, b.long (8 * i) = b'.long (8 * i) :=
      fun i => congrFun (congrArg CpuRegisterSnapshot.x hRegs) i
    have hSp : b.long 248 = b'.long 248 :=
      congrArg CpuRegisterSnapshot.sp hRegs
    have hPc : b.long 256 = b'.long 256 :=
      congrArg CpuRegisterSnapshot.pc hRegs
    have hState : b.long 264 = b'.long 264 :=
      congrArg CpuRegisterSnapshot.pstate hRegs
    have hTls : b.long 272 = b'.long 272 :=
      congrArg CpuRegisterSnapshot.tpidrroEl0 hRegs
    have hLong :
        ∀ i < 35, b.long (8 * i) = b'.long (8 * i) := by
      intro i hI
      by_cases hFew : i < 31
      · exact hX ⟨i, hFew⟩
      · have hCases : i = 31 ∨ i = 32 ∨ i = 33 ∨ i = 34 := by
          omega
        rcases hCases with rfl | rfl | rfl | rfl
        · exact hSp
        · exact hPc
        · exact hState
        · exact hTls
    intro k hK
    have hByte :=
      Bytes.long_eq_iff.1 (hLong (k / 8) (by omega)) (k % 8)
        (Nat.mod_lt k (by decide))
    rw [Nat.div_add_mod] at hByte
    exact hByte
  · intro hBytes
    have hLong :
        ∀ p, p + 8 ≤ 280 → b.long p = b'.long p := by
      intro p hP
      apply Bytes.long_congr
      intro j hJ
      exact hBytes (p + j) (by omega)
    have hX :
        (fun i : Fin 31 => b.long (8 * i)) =
          fun i : Fin 31 => b'.long (8 * i) := by
      funext i
      exact hLong _ (by omega)
    unfold readRegs
    rw [hX, hLong 248 (by decide), hLong 256 (by decide),
      hLong 264 (by decide), hLong 272 (by decide)]

/- So does the state of the GPU, but for its padding. -/
theorem readGpu_eq_iff :
    readGpu b = readGpu b' ↔
      ∀ k < 72, k < 60 ∨ 64 ≤ k → b k = b' k := by
  constructor
  · intro hGpu
    have hHash :
        ∀ i : Fin 6, b.long (8 * i) = b'.long (8 * i) :=
      fun i =>
        congrFun
          (congrArg GuestSnapshot.GpuState.shaderHashes hGpu) i
    have hCount : b.word 48 = b'.word 48 :=
      congrArg GuestSnapshot.GpuState.rtCount hGpu
    have hWidth : b.word 52 = b'.word 52 :=
      congrArg GuestSnapshot.GpuState.vpWidth hGpu
    have hHeight : b.word 56 = b'.word 56 :=
      congrArg GuestSnapshot.GpuState.vpHeight hGpu
    have hDraws : b.long 64 = b'.long 64 :=
      congrArg GuestSnapshot.GpuState.drawCount hGpu
    intro k hK hPadding
    by_cases hFirst : k < 48
    · have hByte :=
        Bytes.long_eq_iff.1 (hHash ⟨k / 8, by omega⟩) (k % 8)
          (Nat.mod_lt k (by decide))
      rw [Nat.div_add_mod] at hByte
      exact hByte
    · have hWord :
          ∀ p, p ≤ k → k < p + 4 →
            b.word p = b'.word p → b k = b' k := by
        intro p hLe hLt hEq
        have hByte :=
          Bytes.word_eq_iff.1 hEq (k - p) (by omega)
        rw [Nat.add_sub_of_le hLe] at hByte
        exact hByte
      by_cases hSecond : k < 60
      · have hCases :
            k < 52 ∨ 52 ≤ k ∧ k < 56 ∨ 56 ≤ k := by
          omega
        rcases hCases with hLow | ⟨hLow, hHigh⟩ | hHigh
        · exact hWord 48 (by omega) hLow hCount
        · exact hWord 52 hLow hHigh hWidth
        · exact hWord 56 hHigh (by omega) hHeight
      · have hByte :=
          Bytes.long_eq_iff.1 hDraws (k - 64) (by omega)
        rw [Nat.add_sub_of_le (by omega)] at hByte
        exact hByte
  · intro hBytes
    have hLong :
        ∀ p, p + 8 ≤ 60 ∨ 64 ≤ p ∧ p + 8 ≤ 72 →
          b.long p = b'.long p := by
      intro p hP
      apply Bytes.long_congr
      intro j hJ
      exact hBytes (p + j) (by omega) (by omega)
    have hWord :
        ∀ p, p + 4 ≤ 60 → b.word p = b'.word p := by
      intro p hP
      apply Bytes.word_congr
      intro j hJ
      exact hBytes (p + j) (by omega) (by omega)
    have hHash :
        (fun i : Fin 6 => b.long (8 * i)) =
          fun i : Fin 6 => b'.long (8 * i) := by
      funext i
      exact hLong _ (by omega)
    unfold readGpu
    rw [hHash, hWord 48 (by decide), hWord 52 (by decide),
      hWord 56 (by decide), hLong 64 (by decide)]

/- All the fields, where they stand one behind the other. -/
def readFields (b : Bytes) : GuestSnapshot :=
  { regs := readRegs b
    tlsBase := b.long 280
    threadId := b.word 288
    gpu := readGpu fun i => b (292 + i)
    timestamp := b.long 364 }

theorem readFields_eq_iff :
    readFields b = readFields b' ↔
      ∀ k < 372, k < 352 ∨ 356 ≤ k → b k = b' k := by
  have hSplit :
      readFields b = readFields b' ↔
        readRegs b = readRegs b' ∧
          b.long 280 = b'.long 280 ∧
          b.word 288 = b'.word 288 ∧
          (readGpu fun i => b (292 + i)) =
            (readGpu fun i => b' (292 + i)) ∧
          b.long 364 = b'.long 364 := by
    simp [readFields]
  rw [hSplit, readRegs_eq_iff, readGpu_eq_iff,
    Bytes.long_eq_iff, Bytes.long_eq_iff, Bytes.word_eq_iff]
  constructor
  · rintro ⟨hRegs, hTls, hThread, hGpu, hTime⟩ k hK hPadding
    by_cases h₁ : k < 280
    · exact hRegs k h₁
    · by_cases h₂ : k < 288
      · rcases Nat.exists_eq_add_of_le (Nat.le_of_not_lt h₁)
          with ⟨i, rfl⟩
        exact hTls i (by omega)
      · by_cases h₃ : k < 292
        · rcases Nat.exists_eq_add_of_le (Nat.le_of_not_lt h₂)
            with ⟨i, rfl⟩
          exact hThread i (by omega)
        · by_cases h₄ : k < 364
          · rcases Nat.exists_eq_add_of_le (Nat.le_of_not_lt h₃)
              with ⟨i, rfl⟩
            exact hGpu i (by omega) (by omega)
          · rcases Nat.exists_eq_add_of_le (Nat.le_of_not_lt h₄)
              with ⟨i, rfl⟩
            exact hTime i (by omega)
  · intro hBytes
    refine ⟨?_, ?_, ?_, ?_, ?_⟩
    · intro i hI
      exact hBytes i (by omega) (by omega)
    · intro i hI
      exact hBytes (280 + i) (by omega) (by omega)
    · intro i hI
      exact hBytes (288 + i) (by omega) (by omega)
    · intro i hI hPadding
      exact hBytes (292 + i) (by omega) (by omega)
    · intro i hI
      exact hBytes (364 + i) (by omega) (by omega)

/- Empty memory holds the fields of the empty snapshot. -/
theorem readFields_zero :
    readFields (fun _ => 0) = {} := by
  have hLong : ∀ p, Bytes.long (fun _ => 0) p = 0 := by
    intro p
    unfold Bytes.long
    rw [Bytes.word_zero, Bytes.word_zero]
    decide
  unfold readFields readRegs readGpu
  simp only [hLong, Bytes.word_zero]

/- A read that finds all its bytes. -/
theorem read_drop
    {p count : Nat}
    (hIn : p + count ≤ content.length) :
    Ifstream.read { rest := content.drop p } count =
      (fun i => ((content.drop p).take count).getD i 0,
        { rest := content.drop (p + count) }) := by
  unfold Ifstream.read
  rw [if_pos rfl, List.drop_drop, List.length_drop]
  have hAll : count ≤ content.length - p := by omega
  simp [hAll]

/- The bytes of such a read are those of the file. -/
theorem getD_take_drop
    {p count i : Nat}
    (hI : i < count) :
    ((content.drop p).take count).getD i 0 =
      ofList content p i := by
  unfold ofList
  rw [List.getD_eq_getElem?_getD, List.getD_eq_getElem?_getD,
    List.getElem?_take_of_lt hI, List.getElem?_drop]

theorem long_take_drop (p k : Nat) :
    Bytes.long
        (fun i => ((content.drop (p + k)).take 8).getD i 0) 0 =
      Bytes.long (ofList content p) k := by
  apply Bytes.long_congr
  intro j hJ
  rw [Nat.zero_add, getD_take_drop hJ, Bytes.ofList_add]

theorem word_take_drop (p k : Nat) :
    Bytes.word
        (fun i => ((content.drop (p + k)).take 4).getD i 0) 0 =
      Bytes.word (ofList content p) k := by
  apply Bytes.word_congr
  intro j hJ
  rw [Nat.zero_add, getD_take_drop hJ, Bytes.ofList_add]

/- The numbers that are read where a file has them. -/
def svcsAt (content : List U8) : List U32 :=
  let svcCount := ((ofList content 13).word 372).toNat
  if 0 < svcCount ∧ svcCount < 10000 then
    readSvcs
      (Ifstream.read { rest := content.drop 389 }
        (4 * svcCount)).1 svcCount
  else []

/- What is read from a file that is long enough. -/
theorem loadFromFile_eq
    (hName : content.take 9 = NAME)
    (hLength : 389 ≤ content.length) :
    loadFromFile (some content) =
      { readFields (ofList content 13) with
        recentSvcs := svcsAt content } := by
  have hRead :
      ∀ p count, p + count ≤ 389 →
        Ifstream.read { rest := content.drop p } count =
          (fun i => ((content.drop p).take count).getD i 0,
            { rest := content.drop (p + count) }) :=
    fun p count hIn => read_drop (hIn.trans hLength)
  have hFirst :
      Ifstream.read { rest := content } 9 =
        (fun i => (content.take 9).getD i 0,
          { rest := content.drop 9 }) :=
    hRead 0 9 (by decide)
  have hMagic :
      cString (fun i => (content.take 9).getD i 0) 10 =
        NAME := by
    rw [hName]
    decide
  have hRegs :
      readRegs
          (fun i => ((content.drop 13).take 280).getD i 0) =
        readRegs (ofList content 13) :=
    readRegs_eq_iff.2 fun _ hK => getD_take_drop hK
  have hGpu :
      readGpu
          (fun i => ((content.drop 305).take 72).getD i 0) =
        readGpu (fun i => ofList content 13 (292 + i)) := by
    apply readGpu_eq_iff.2
    intro k hK _
    rw [getD_take_drop hK, ← Bytes.ofList_add]
  unfold loadFromFile
  simp only [hFirst, hMagic, ne_eq, not_true, if_false,
    hRead 9 4 (by decide), hRead 13 280 (by decide),
    hRead 293 8 (by decide), hRead 301 4 (by decide),
    hRead 305 72 (by decide), hRead 377 8 (by decide),
    hRead 385 4 (by decide), hRegs, hGpu,
    long_take_drop 13 280, word_take_drop 13 288,
    long_take_drop 13 364, word_take_drop 13 372]
  rfl

------
-- What the Writer Left
------

/- Where a file that was written has its fields. -/
structure Written
    (content : List U8)
    (snap : GuestSnapshot)
    (padding : U32) : Prop where
  length : 390 ≤ content.length
  name : content.take 9 = NAME
  version : content.getD 13 0 = 0
  fields :
    readFields (ofList content 14) = { snap with recentSvcs := [] }
  padding : (ofList content 14).word 352 = padding
  svcCount :
    (ofList content 14).word 372 =
      BitVec.ofNat 32 snap.recentSvcs.length

/- Behind several double words stands what follows them. -/
theorem drop_ofLongs
    {ls : List U64}
    {n : Nat}
    (hLength : 8 * ls.length = n)
    (rest : List U8) :
    (ls.flatMap Bytes.ofLong ++ rest).drop n = rest := by
  apply List.drop_left'
  rw [Bytes.length_ofLongs]
  exact hLength

theorem readRegs_of_drop
    {p : Nat}
    {regs : CpuRegisterSnapshot}
    {rest : List U8}
    (hDrop : content.drop p = regsBytes regs ++ rest) :
    readRegs (ofList content p) = regs := by
  unfold regsBytes at hDrop
  simp only [List.append_assoc] at hDrop
  have hX :
      (fun i : Fin 31 => (ofList content p).long (8 * i)) =
        regs.x := by
    funext i
    apply long_of_take
    rw [hDrop, Bytes.take_drop_ofLongs (by simp),
      List.getElem_ofFn]
  have hTail :
      (content.drop p).drop 248 =
        Bytes.ofLong regs.sp ++ (Bytes.ofLong regs.pc ++
          (Bytes.ofLong regs.pstate ++
            (Bytes.ofLong regs.tpidrroEl0 ++ rest))) := by
    rw [hDrop]
    exact drop_ofLongs (by simp) _
  have hLong :
      ∀ (k : Nat) (l : U64),
        (((content.drop p).drop 248).drop k).take 8 =
            Bytes.ofLong l →
          (ofList content p).long (248 + k) = l := by
    intro k l hTake
    apply long_of_take
    rw [← List.drop_drop]
    exact hTake
  rw [hTail] at hLong
  unfold readRegs
  rw [hX, hLong 0 regs.sp rfl, hLong 8 regs.pc rfl,
    hLong 16 regs.pstate rfl, hLong 24 regs.tpidrroEl0 rfl]

theorem readGpu_of_drop
    {p : Nat}
    {gpu : GuestSnapshot.GpuState}
    {padding : U32}
    {rest : List U8}
    (hDrop : content.drop p = gpuBytes gpu padding ++ rest) :
    readGpu (ofList content p) = gpu ∧
      (ofList content p).word 60 = padding := by
  unfold gpuBytes at hDrop
  simp only [List.append_assoc] at hDrop
  have hHash :
      (fun i : Fin 6 => (ofList content p).long (8 * i)) =
        gpu.shaderHashes := by
    funext i
    apply long_of_take
    rw [hDrop, Bytes.take_drop_ofLongs (by simp),
      List.getElem_ofFn]
  have hTail :
      (content.drop p).drop 48 =
        Bytes.ofWord gpu.rtCount ++ (Bytes.ofWord gpu.vpWidth ++
          (Bytes.ofWord gpu.vpHeight ++ (Bytes.ofWord padding ++
            (Bytes.ofLong gpu.drawCount ++ rest)))) := by
    rw [hDrop]
    exact drop_ofLongs (by simp) _
  have hWord :
      ∀ (k : Nat) (w : U32),
        (((content.drop p).drop 48).drop k).take 4 =
            Bytes.ofWord w →
          (ofList content p).word (48 + k) = w := by
    intro k w hTake
    apply word_of_take
    rw [← List.drop_drop]
    exact hTake
  have hDraws :
      (((content.drop p).drop 48).drop 16).take 8 =
          Bytes.ofLong gpu.drawCount →
        (ofList content p).long (48 + 16) = gpu.drawCount := by
    intro hTake
    apply long_of_take
    rw [← List.drop_drop]
    exact hTake
  rw [hTail] at hWord hDraws
  constructor
  · unfold readGpu
    rw [hHash, hWord 0 gpu.rtCount rfl,
      hWord 4 gpu.vpWidth rfl, hWord 8 gpu.vpHeight rfl,
      hDraws rfl]
  · exact hWord 12 padding rfl

theorem length_regsBytes (regs : CpuRegisterSnapshot) :
    (regsBytes regs).length = 280 := by
  unfold regsBytes
  simp only [List.length_append, Bytes.length_ofLongs,
    List.length_ofFn]
  rfl

theorem length_gpuBytes
    (gpu : GuestSnapshot.GpuState)
    (padding : U32) :
    (gpuBytes gpu padding).length = 72 := by
  unfold gpuBytes
  simp only [List.length_append, Bytes.length_ofLongs,
    List.length_ofFn]
  rfl

theorem Written.of_saveToFile
    (snap : GuestSnapshot)
    (padding : U32) :
    Written (saveToFile snap padding) snap padding := by
  -- what stands behind each field
  have hTail :
      ∀ {front rest : List U8} {p q : Nat},
        (saveToFile snap padding).drop p = front ++ rest →
          front.length + p = q →
            (saveToFile snap padding).drop q = rest := by
    intro front rest p q hDrop hPos
    rw [← hPos, Nat.add_comm, ← List.drop_drop, hDrop]
    exact List.drop_left
  have hRegs :
      (saveToFile snap padding).drop 14 =
        regsBytes snap.regs ++ (Bytes.ofLong snap.tlsBase ++
          (Bytes.ofWord snap.threadId ++
            (gpuBytes snap.gpu padding ++
              (Bytes.ofLong snap.timestamp ++
                (Bytes.ofWord
                    (BitVec.ofNat 32 snap.recentSvcs.length) ++
                  Bytes.ofWords snap.recentSvcs))))) := by
    unfold saveToFile
    simp only [List.append_assoc]
    rfl
  have hTls : (saveToFile snap padding).drop 294 = _ :=
    hTail hRegs (by rw [length_regsBytes])
  have hThread : (saveToFile snap padding).drop 302 = _ :=
    hTail hTls rfl
  have hGpu : (saveToFile snap padding).drop 306 = _ :=
    hTail hThread rfl
  have hTime : (saveToFile snap padding).drop 378 = _ :=
    hTail hGpu (by rw [length_gpuBytes])
  have hCount : (saveToFile snap padding).drop 386 = _ :=
    hTail hTime rfl
  rcases readGpu_of_drop hGpu with ⟨hReadGpu, hPadding⟩
  have hShift :
      ofList (saveToFile snap padding) 306 =
        fun i =>
          ofList (saveToFile snap padding) 14 (292 + i) := by
    funext i
    exact Bytes.ofList_add _ 14 292 i
  rw [hShift] at hReadGpu hPadding
  have hReadTls :
      (ofList (saveToFile snap padding) 14).long 280 =
        snap.tlsBase :=
    long_of_drop hTls
  have hReadThread :
      (ofList (saveToFile snap padding) 14).word 288 =
        snap.threadId :=
    word_of_drop hThread
  have hReadTime :
      (ofList (saveToFile snap padding) 14).long 364 =
        snap.timestamp :=
    long_of_drop hTime
  have hLength := congrArg List.length hCount
  rw [List.length_append, List.length_drop,
    Bytes.length_ofWord] at hLength
  constructor
  · omega
  · rfl
  · rfl
  · unfold readFields
    rw [readRegs_of_drop hRegs, hReadGpu, hReadTls,
      hReadThread, hReadTime]
  · refine Eq.trans ?_ hPadding
    apply Bytes.word_congr
    intro j _
    have hPos : 352 + j = 292 + (60 + j) := by omega
    rw [hPos]
  · exact word_of_drop hCount

------
-- One Byte Too Early
------

variable {snap : GuestSnapshot} {padding : U32}

namespace Written

/-
  The fields are read back as they were exactly if every byte
  of them equals the one in front of it.
-/
theorem fields_iff
    (hWritten : Written content snap padding) :
    readFields (ofList content 13) =
        { snap with recentSvcs := [] } ↔
      ∀ k < 372, k < 352 ∨ 356 ≤ k →
        ofList content 14 k = content.getD (13 + k) 0 := by
  rw [← hWritten.fields, readFields_eq_iff]
  constructor
  · intro hBytes k hK hPadding
    exact (hBytes k hK hPadding).symm
  · intro hBytes k hK hPadding
    exact (hBytes k hK hPadding).symm

/- The empty snapshot is the one whose bytes are all zero. -/
theorem empty_iff
    (hWritten : Written content snap padding) :
    { snap with recentSvcs := [] } = ({} : GuestSnapshot) ↔
      ∀ k < 372, k < 352 ∨ 356 ≤ k →
        ofList content 14 k = 0 := by
  rw [← hWritten.fields, ← readFields_zero, readFields_eq_iff]

/- Byte `k` of the fields is the one in front of byte `k + 1`. -/
theorem ofList_pred
    (content : List U8)
    (k : Nat) :
    content.getD (13 + (k + 1)) 0 = ofList content 14 k := by
  unfold ofList
  rw [show 13 + (k + 1) = 14 + k by omega]

/-
  Up to the padding every byte is the last one of the version;
  behind it, the last one of the padding.
-/
theorem shifted_iff
    (hWritten : Written content snap padding) :
    (∀ k < 372, k < 352 ∨ 356 ≤ k →
        ofList content 14 k = content.getD (13 + k) 0) ↔
      (∀ k < 352, ofList content 14 k = 0) ∧
        ∀ k < 372, 356 ≤ k →
          ofList content 14 k = ofList content 14 355 := by
  constructor
  · intro hBytes
    constructor
    · intro k hK
      induction k with
      | zero =>
          rw [hBytes 0 (by decide) (Or.inl (by decide))]
          exact hWritten.version
      | succ k ih =>
          rw [hBytes (k + 1) (by omega) (Or.inl hK), ofList_pred]
          exact ih (by omega)
    · intro k hK hLow
      induction k with
      | zero => exact absurd hLow (by decide)
      | succ k ih =>
          rw [hBytes (k + 1) hK (Or.inr hLow), ofList_pred]
          by_cases hLast : k = 355
          · rw [hLast]
          · exact ih (by omega) (by omega)
  · rintro ⟨hFront, hBack⟩ k hK hPadding
    cases k with
    | zero =>
        rw [hFront 0 (by decide)]
        exact hWritten.version.symm
    | succ k =>
        rw [ofList_pred]
        by_cases hLow : k + 1 < 352
        · rw [hFront (k + 1) hLow, hFront k (by omega)]
        · rw [hBack (k + 1) hK (by omega)]
          by_cases hLast : k = 355
          · rw [hLast]
          · rw [hBack k (by omega) (by omega)]

/- The last byte of the padding. -/
theorem last_padding
    (hWritten : Written content snap padding) :
    ofList content 14 355 = WordBytes.byte padding 3 := by
  rw [← hWritten.padding, Bytes.byte_word_at _ 352 (by decide)]

/- Nothing but numbers that count to none are read. -/
theorem length_svcsAt (content : List U8) :
    (svcsAt content).length =
      if 0 < ((ofList content 13).word 372).toNat ∧
          ((ofList content 13).word 372).toNat < 10000 then
        ((ofList content 13).word 372).toNat
      else 0 := by
  unfold svcsAt readSvcs
  dsimp only
  split
  · rw [List.length_map, List.length_range]
  · rfl

/-
  The count is read with the last byte of the timestamp in
  front of it.
-/
theorem svcCount_eq
    (hWritten : Written content snap padding)
    (hFew : snap.recentSvcs.length ≤ 128) :
    ((ofList content 13).word 372).toNat =
      (ofList content 14 371).toNat +
        256 * snap.recentSvcs.length := by
  have hCount :
      (ofList content 14 372).toNat +
          256 * (ofList content 14 373).toNat +
          65536 * (ofList content 14 374).toNat +
          16777216 * (ofList content 14 375).toNat =
        snap.recentSvcs.length := by
    have hWord := congrArg BitVec.toNat hWritten.svcCount
    rw [Bytes.toNat_word, BitVec.toNat_ofNat,
      Nat.mod_eq_of_lt (by omega)] at hWord
    exact hWord
  have hRead :
      ((ofList content 13).word 372).toNat =
        (ofList content 14 371).toNat +
          256 * (ofList content 14 372).toNat +
          65536 * (ofList content 14 373).toNat +
          16777216 * (ofList content 14 374).toNat := by
    rw [Bytes.toNat_word]
    rfl
  rw [hRead]
  omega

/- A count that is not zero is not the number of entries. -/
theorem length_svcsAt_iff
    (hWritten : Written content snap padding)
    (hFew : snap.recentSvcs.length ≤ 128) :
    (svcsAt content).length = snap.recentSvcs.length ↔
      ofList content 14 371 = 0 ∧
        snap.recentSvcs.length = 0 := by
  have hCount := hWritten.svcCount_eq hFew
  have hByte := (ofList content 14 371).isLt
  have hZero :
      ofList content 14 371 = 0 ↔
        (ofList content 14 371).toNat = 0 :=
    BitVec.toNat_inj.symm
  rw [length_svcsAt, hCount, hZero]
  split
  · omega
  · omega

/- When a file gives the snapshot that it was written for. -/
theorem loaded_iff
    (hWritten : Written content snap padding)
    (hFew : snap.recentSvcs.length ≤ 128) :
    loadFromFile (some content) = snap ↔
      snap = {} ∧ ofList content 14 355 = 0 := by
  rw [loadFromFile_eq hWritten.name
    (Nat.le_of_succ_le hWritten.length)]
  constructor
  · intro hLoaded
    have hFields :
        readFields (ofList content 13) =
          { snap with recentSvcs := [] } :=
      congrArg (fun s : GuestSnapshot => { s with recentSvcs := [] })
        hLoaded
    have hNumbers : svcsAt content = snap.recentSvcs :=
      congrArg GuestSnapshot.recentSvcs hLoaded
    rcases hWritten.shifted_iff.1
        (hWritten.fields_iff.1 hFields) with
      ⟨hFront, hBack⟩
    rcases (hWritten.length_svcsAt_iff hFew).1
        (congrArg List.length hNumbers) with
      ⟨hLast, hNone⟩
    have hPadding : ofList content 14 355 = 0 := by
      rw [← hBack 371 (by decide) (by decide)]
      exact hLast
    have hEmpty :
        { snap with recentSvcs := [] } = ({} : GuestSnapshot) := by
      rw [hWritten.empty_iff]
      intro k hK hSides
      rcases hSides with hLow | hHigh
      · exact hFront k hLow
      · rw [hBack k hK hHigh, hPadding]
    refine ⟨?_, hPadding⟩
    rw [← hEmpty, ← List.length_eq_zero_iff.1 hNone]
  · rintro ⟨rfl, hPadding⟩
    have hZero := hWritten.empty_iff.1 rfl
    have hBack :
        ∀ k < 372, 356 ≤ k →
          ofList content 14 k = ofList content 14 355 := by
      intro k hK hLow
      rw [hZero k hK (Or.inr hLow), hPadding]
    have hFront : ∀ k < 352, ofList content 14 k = 0 :=
      fun k hK => hZero k (by omega) (Or.inl hK)
    have hFields :=
      hWritten.fields_iff.2 (hWritten.shifted_iff.2 ⟨hFront, hBack⟩)
    have hNone : svcsAt content = [] := by
      apply List.length_eq_zero_iff.1
      exact (hWritten.length_svcsAt_iff hFew).2
        ⟨hZero 371 (by decide) (Or.inr (by decide)), rfl⟩
    rw [hFields, hNone]

end Written

/-
  Only the empty snapshot is read back as it was, and only
  with a zero at the end of its padding.
-/
theorem roundTrip_iff
    (snap : GuestSnapshot)
    (padding : U32)
    (hFew : snap.recentSvcs.length ≤ 128) :
    loadFromFile (some (saveToFile snap padding)) = snap ↔
      snap = {} ∧ WordBytes.byte padding 3 = 0 := by
  have hWritten := Written.of_saveToFile snap padding
  rw [← hWritten.last_padding]
  exact hWritten.loaded_iff hFew

/- An empty snapshot, and padding that is zero. -/
theorem roundTrip_empty :
    loadFromFile (some (saveToFile {} 0)) = {} ↔
      ({} : GuestSnapshot) = {} ∧
        WordBytes.byte (0 : U32) 3 = 0 :=
  roundTrip_iff {} 0 (by decide)

/- The number of a thread is read back with a byte too many. -/
theorem threadId_shifted :
    ¬ ∀ (snap : GuestSnapshot) (padding : U32),
        snap.recentSvcs.length ≤ 128 →
          loadFromFile (some (saveToFile snap padding)) =
            snap := by
  intro hAll
  have hThread :=
    congrArg GuestSnapshot.threadId
      (hAll { threadId := 1 } 0 (by decide))
  revert hThread
  decide +kernel

end SnapshotManager

end M1Switch
