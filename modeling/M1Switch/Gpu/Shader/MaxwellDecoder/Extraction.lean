import M1Switch.Gpu.Shader.MaxwellDecoder

/-
  Extraction against decoding.

  The extraction looks for an `EXIT` in every eight bytes;
  the decoder moves on by the size of an instruction.  So the
  second word of an instruction can end the extracted bytes,
  and what the decoder finds behind it is lost.

  Key definitions include:
    * `availableBytes`
    * `MaxwellDecoder.FirstExit`

  Main results:
    * `decodeLoop_eq_nil_iff`
    * `decodeLoop_take`
    * `decode_extractShader_iff`
-/

------
-- Words And Offsets
------

namespace M1Switch

namespace MaxwellDecoder

variable {data : List U8} {o : Nat}

/- A word whose opcode bits are those of `EXIT`. -/
def ExitAt (data : List U8) (i : Nat) : Prop :=
  i % 8 = 0 ∧
    (readWord data i).map opcodeIdOf = some 0x80

instance (data : List U8) (i : Nat) :
    Decidable (ExitAt data i) :=
  inferInstanceAs (Decidable (_ ∧ _))

/- The first such word at or behind `start`. -/
def FirstExitFrom
    (data : List U8)
    (start i : Nat) : Prop :=
  start ≤ i ∧ ExitAt data i ∧
    ∀ j, start ≤ j → j < i → ¬ ExitAt data j

def FirstExit (data : List U8) (i : Nat) : Prop :=
  FirstExitFrom data 0 i

/- No known instruction at or behind `k`. -/
def UnknownFrom (data : List U8) (k : Nat) : Prop :=
  ∀ j w, k ≤ j → j % 8 = 0 → readWord data j = some w →
    detectFormat (opcodeIdOf w) = .Unknown

/- Offsets the decoder stops at. -/
def visited (data : List U8) : Nat → Nat → List Nat
| 0, _ => []
| fuel + 1, offset =>
    if offset < data.length then
      match decodeOne data offset with
      | none => [offset]
      | some d =>
          offset ::
            if d.opcode = .EXIT then []
            else visited data fuel (offset + d.size)
    else []

theorem readWord_take
    {j k : Nat}
    (hEnd : j + 8 ≤ k)
    (hK : k ≤ data.length) :
    readWord (data.take k) j = readWord data j := by
  unfold readWord
  rw [List.length_take, Nat.min_eq_left hK, if_pos hEnd,
    if_pos (Nat.le_trans hEnd hK), List.drop_take, List.take_take,
    Nat.min_eq_left (by omega)]

/- An instruction inside the first bytes is decoded alike. -/
theorem decodeOne_take
    {o k : Nat}
    (hLength : data.length < 2 ^ 32 - 8)
    (hEnd : o + 16 ≤ k)
    (hK : k ≤ data.length) :
    decodeOne (data.take k) o = decodeOne data o := by
  have hTake : (data.take k).length = k := by
    rw [List.length_take, Nat.min_eq_left hK]
  have hSecond :
      ∀ fmt,
        secondWord (data.take k) o fmt =
          secondWord data o fmt := by
    intro fmt
    have hMod : (o + 16) % 2 ^ 32 = o + 16 :=
      Nat.mod_eq_of_lt (by omega)
    have hNext : o + 8 + 8 ≤ k := by omega
    unfold secondWord
    rw [hTake, hMod, readWord_take hNext hK]
    by_cases hReads : readsSecondWord fmt
    · rw [if_pos ⟨hEnd, hReads⟩,
        if_pos ⟨Nat.le_trans hEnd hK, hReads⟩]
    · rw [if_neg (fun h => hReads h.2),
        if_neg (fun h => hReads h.2)]
  unfold decodeOne
  rw [hTake, readWord_take (by omega) hK, if_neg (by omega),
    if_neg (by omega)]
  simp only [hSecond]

/- Only the opcode number of `EXIT` decodes to it. -/
theorem decodeOpcode_exit :
    ∀ id < 256,
      decodeOpcode id (detectFormat id) = .EXIT →
        id = 0x80 := by
  decide +kernel

theorem opcode_ne_exit
    {w raw1 : U64}
    {pc : Nat}
    (hId : opcodeIdOf w ≠ 0x80) :
    (decodeFormat w raw1 pc
      (detectFormat (opcodeIdOf w))).opcode ≠ .EXIT := by
  have hLt : opcodeIdOf w < 256 := bits_lt w 12 5
  rw [opcode_decodeFormat_eq]
  intro hExit
  exact hId (decodeOpcode_exit _ hLt hExit)

theorem decodeFormat_exit
    {w raw1 : U64}
    {pc : Nat}
    (hId : opcodeIdOf w = 0x80) :
    decodeFormat w raw1 pc (detectFormat (opcodeIdOf w)) =
      decodeExitFormat w pc := by
  rw [hId]
  rfl

theorem opcode_decodeExitFormat
    {w : U64}
    {pc : Nat}
    (hId : opcodeIdOf w = 0x80) :
    (decodeExitFormat w pc).opcode = .EXIT := by
  show decodeOpcode (opcodeIdOf w) .Exit = _
  rw [hId]
  rfl

/- The decoded instruction at a word inside the bytes. -/
theorem decodeOne_of_readWord
    {w : U64}
    (hLength : data.length < 2 ^ 32 - 8)
    (hWord : readWord data o = some w) :
    ∃ raw1,
      decodeOne data o =
        some (decodeFormat w raw1 o
          (detectFormat (opcodeIdOf w))) := by
  have hEnd := readWord_eq_some hWord
  have hOne := decodeOne_isSome hLength
    (show o < data.length by omega)
  unfold decodeOne at hOne ⊢
  rw [if_neg (by omega)] at hOne ⊢
  rw [hWord] at hOne ⊢
  cases hSecond :
      secondWord data o (detectFormat (opcodeIdOf w)) with
  | none => simp [hSecond] at hOne
  | some raw1 =>
      refine ⟨raw1, ?_⟩
      simp [hSecond]

/- Behind the last whole word nothing is decoded. -/
theorem decodeOne_of_short
    (hLength : data.length < 2 ^ 32 - 8)
    (hPc : o < data.length)
    (hShort : data.length < o + 8) :
    decodeOne data o = some { pc := o } := by
  unfold decodeOne
  rw [if_pos (by omega)]

------
-- Steps Of The Loop
------

theorem decodeLoop_end
    (hEnd : data.length ≤ o)
    (fuel : Nat) :
    decodeLoop data (fuel + 1) o = some [] := by
  unfold decodeLoop
  rw [if_neg (by omega)]
  rfl

/- One iteration; no offset wraps in short programs. -/
theorem decodeLoop_step
    {d : DecodedInst}
    (hLength : data.length < 2 ^ 32 - 8)
    (hPc : o < data.length)
    (hOne : decodeOne data o = some d)
    (fuel : Nat) :
    decodeLoop data (fuel + 1) o =
      if d.fmt = .Unknown then decodeLoop data fuel (o + 8)
      else if d.opcode = .EXIT then some [d.toIr]
      else
        (decodeLoop data fuel (o + d.size)).map
          (d.toIr :: ·) := by
  have hWide : data.length < 2 ^ 32 := by omega
  have hNext := decodeOne_next hWide hPc hOne
  show (if o < data.length then _ else _) = _
  rw [if_pos hPc]
  simp only [hOne, bind, Option.bind_some, pure]
  split_ifs with hUnknown hExit
  · rw [Nat.mod_eq_of_lt hNext]
  · rfl
  · have hSpec := decodeOne_spec hWide hOne hUnknown
    rw [Nat.mod_eq_of_lt hSpec.2.2.2]
    cases decodeLoop data fuel (o + d.size) <;> rfl

/- More fuel changes nothing. -/
theorem decodeLoop_succ
    (hLength : data.length < 2 ^ 32 - 8) :
    ∀ (fuel o : Nat) (insts : List ShaderInstruction),
      decodeLoop data fuel o = some insts →
        decodeLoop data (fuel + 1) o = some insts := by
  intro fuel
  induction fuel with
  | zero =>
      intro o insts hLoop
      cases hLoop
  | succ fuel ih =>
      intro o insts hLoop
      by_cases hPc : o < data.length
      · rcases Option.isSome_iff_exists.mp
          (decodeOne_isSome hLength hPc) with ⟨d, hOne⟩
        rw [decodeLoop_step hLength hPc hOne] at hLoop ⊢
        split_ifs at hLoop ⊢ with hUnknown hExit
        · exact ih _ _ hLoop
        · exact hLoop
        · rw [Option.map_eq_some_iff] at hLoop ⊢
          rcases hLoop with ⟨rest, hRest, hInsts⟩
          exact ⟨rest, ih _ _ hRest, hInsts⟩
      · rw [decodeLoop_end (by omega)] at hLoop ⊢
        exact hLoop

theorem decodeLoop_add
    (hLength : data.length < 2 ^ 32 - 8)
    {fuel o : Nat}
    {insts : List ShaderInstruction}
    (hLoop : decodeLoop data fuel o = some insts)
    (k : Nat) :
    decodeLoop data (fuel + k) o = some insts := by
  induction k with
  | zero => exact hLoop
  | succ k ih => exact decodeLoop_succ hLength _ _ _ ih

/- The word at `k` and those behind it. -/
theorem unknownFrom_iff
    {k : Nat}
    (hK : k % 8 = 0) :
    UnknownFrom data k ↔
      (∀ w, readWord data k = some w →
        detectFormat (opcodeIdOf w) = .Unknown) ∧
        UnknownFrom data (k + 8) := by
  constructor
  · intro hUnknown
    refine ⟨fun w hWord => hUnknown k w (Nat.le_refl k) hK hWord,
      ?_⟩
    intro j w hJ hMod hWord
    exact hUnknown j w (by omega) hMod hWord
  · rintro ⟨hHead, hTail⟩ j w hJ hMod hWord
    by_cases hEq : j = k
    · subst hEq
      exact hHead w hWord
    · exact hTail j w (by omega) hMod hWord

/- The loop finds nothing where there is nothing. -/
theorem decodeLoop_eq_nil_iff
    (hLength : data.length < 2 ^ 32 - 8) :
    ∀ fuel o : Nat,
      o % 8 = 0 → data.length ≤ fuel + o →
        (decodeLoop data (fuel + 1) o = some [] ↔
          UnknownFrom data o) := by
  intro fuel
  induction fuel with
  | zero =>
      intro o _ hFuel
      rw [decodeLoop_end (by omega)]
      refine ⟨fun _ => ?_, fun _ => rfl⟩
      intro j w hJ _ hWord
      have := readWord_eq_some hWord
      omega
  | succ fuel ih =>
      intro o hMod hFuel
      have hNext := ih (o + 8) (by omega) (by omega)
      rw [unknownFrom_iff hMod, ← hNext]
      by_cases hPc : o < data.length
      · by_cases hShort : data.length < o + 8
        · rw [decodeLoop_step hLength hPc
            (decodeOne_of_short hLength hPc hShort),
            if_pos rfl]
          refine ⟨fun hLoop => ⟨?_, hLoop⟩, And.right⟩
          intro w hWord
          have := readWord_eq_some hWord
          omega
        · rcases Option.isSome_iff_exists.mp
            (readWord_isSome (show o + 8 ≤ data.length by
              omega)) with ⟨w, hWord⟩
          rcases decodeOne_of_readWord hLength hWord with
            ⟨raw1, hOne⟩
          rw [decodeLoop_step hLength hPc hOne,
            fmt_decodeFormat, hWord]
          by_cases hFmt :
              detectFormat (opcodeIdOf w) = .Unknown
          · simp [hFmt]
          · -- A known word is listed.
            rw [if_neg hFmt]
            constructor
            · intro hLoop
              split_ifs at hLoop
              · cases hLoop
              · rw [Option.map_eq_some_iff] at hLoop
                rcases hLoop with ⟨rest, _, hCons⟩
                cases hCons
            · intro hBoth
              exact absurd (hBoth.1 w rfl) hFmt
      · rw [decodeLoop_end (by omega), decodeLoop_end (by omega)]
        refine ⟨fun _ => ⟨?_, rfl⟩, fun _ => rfl⟩
        intro w hWord
        have := readWord_eq_some hWord
        omega

------
-- Decoding The First Bytes
------

theorem visited_step
    {d : DecodedInst}
    (hPc : o < data.length)
    (hOne : decodeOne data o = some d)
    (hExit : d.opcode ≠ .EXIT)
    (fuel : Nat) :
    visited data (fuel + 1) o =
      o :: visited data fuel (o + d.size) := by
  show (if o < data.length then _ else _) = _
  rw [if_pos hPc, hOne]
  simp [hExit]

/- The decoder only moves on. -/
theorem le_of_mem_visited :
    ∀ (fuel o : Nat), ∀ x ∈ visited data fuel o, o ≤ x := by
  intro fuel
  induction fuel with
  | zero =>
      intro o x hX
      cases hX
  | succ fuel ih =>
      intro o x hX
      unfold visited at hX
      split_ifs at hX
      · cases hOne : decodeOne data o with
        | none =>
            simp [hOne] at hX
            omega
        | some d =>
            rw [hOne] at hX
            rcases List.mem_cons.mp hX with hHead | hTail
            · omega
            · split_ifs at hTail
              · cases hTail
              · have := ih _ x hTail
                omega
      · cases hX

/- What a word adds to the program. -/
def listed (d : DecodedInst) : List ShaderInstruction :=
  if d.fmt = .Unknown then [] else [d.toIr]

/- An iteration that is not the last. -/
theorem decodeLoop_next
    {w raw1 : U64}
    (hLength : data.length < 2 ^ 32 - 8)
    (hPc : o < data.length)
    {d : DecodedInst}
    (hD :
      d = decodeFormat w raw1 o (detectFormat (opcodeIdOf w)))
    (hOne : decodeOne data o = some d)
    (hExit : d.opcode ≠ .EXIT)
    (fuel : Nat) :
    decodeLoop data (fuel + 1) o =
      (decodeLoop data fuel (o + d.size)).map
        (listed d ++ ·) := by
  rw [decodeLoop_step hLength hPc hOne]
  unfold listed
  by_cases hUnknown : d.fmt = .Unknown
  · have hSize : d.size = 8 := by
      rw [hD, fmt_decodeFormat] at hUnknown
      rw [hD, size_decodeFormat, hUnknown]
      rfl
    rw [if_pos hUnknown, if_pos hUnknown, hSize]
    simp
  · rw [if_neg hUnknown, if_neg hExit, if_neg hUnknown]
    rfl

/- The loop ends on an `EXIT` word it comes to. -/
theorem decodeLoop_exit
    {w : U64}
    (hLength : data.length < 2 ^ 32 - 8)
    (hPc : o < data.length)
    (hWord : readWord data o = some w)
    (hId : opcodeIdOf w = 0x80)
    (fuel : Nat) :
    decodeLoop data (fuel + 1) o =
        some [(decodeExitFormat w o).toIr] ∧
      o ∈ visited data (fuel + 1) o := by
  rcases decodeOne_of_readWord hLength hWord with ⟨raw1, hOne⟩
  rw [decodeFormat_exit hId] at hOne
  have hKnown : (decodeExitFormat w o).fmt ≠ .Unknown := by
    show MaxwellFormat.Exit ≠ .Unknown
    decide
  constructor
  · rw [decodeLoop_step hLength hPc hOne, if_neg hKnown,
      if_pos (opcode_decodeExitFormat hId)]
  · unfold visited
    rw [if_pos hPc, hOne]
    exact List.mem_cons_self

/-
  Behind a word the loop passed over it decodes something,
  unless no word there is known.
-/
theorem decodeLoop_behind
    {i fuel : Nat}
    (hLength : data.length < 2 ^ 32 - 8)
    (hMod : i % 8 = 0)
    (hFuel : data.length ≤ fuel + (i + 8)) :
    ∃ rest,
      decodeLoop data (fuel + 1) (i + 8) = some rest ∧
        (rest = [] ↔
          i ∈ visited data (fuel + 1) (i + 8) ∨
            UnknownFrom data (i + 8)) := by
  have hNil :=
    decodeLoop_eq_nil_iff hLength fuel (i + 8) (by omega)
      hFuel
  have hSome :
      (decodeLoop data (fuel + 1) (i + 8)).isSome := by
    rcases decodeLoop_isSome hLength (fuel + 1) (i + 8)
      (by omega) with hSome | hZero
    · exact hSome
    · omega
  rcases Option.isSome_iff_exists.mp hSome with ⟨rest, hRest⟩
  rw [hRest, Option.some.injEq] at hNil
  refine ⟨rest, hRest, ?_⟩
  rw [hNil]
  refine ⟨Or.inr, ?_⟩
  rintro (hMem | hUnknown)
  · have := le_of_mem_visited _ _ i hMem
    omega
  · exact hUnknown

/-
  Up to the first `EXIT` word the first bytes are decoded as
  all bytes are.  If the decoder stops there, both end; if it
  passes over the word, the rest of the program is lost.
-/
theorem decodeLoop_take
    {i : Nat}
    (hLength : data.length < 2 ^ 32 - 8)
    (hFirst : FirstExit data i) :
    ∀ fuel o : Nat,
      o % 8 = 0 → o ≤ i → data.length ≤ fuel + o →
        ∃ pre rest,
          decodeLoop (data.take (i + 8)) (fuel + 1) o =
              some pre ∧
            decodeLoop data (fuel + 1) o =
                some (pre ++ rest) ∧
              (rest = [] ↔
                i ∈ visited data (fuel + 1) o ∨
                  UnknownFrom data (i + 8)) := by
  rcases hFirst with ⟨_, ⟨hModI, hExitI⟩, hBefore⟩
  rcases Option.map_eq_some_iff.mp hExitI with
    ⟨wi, hWordI, hIdI⟩
  have hEndI := readWord_eq_some hWordI
  have hTake : (data.take (i + 8)).length = i + 8 := by
    rw [List.length_take, Nat.min_eq_left hEndI]
  have hShort : (data.take (i + 8)).length < 2 ^ 32 - 8 := by
    omega
  intro fuel
  induction fuel with
  | zero =>
      intro o _ hLe hFuel
      omega
  | succ fuel ih =>
      intro o hMod hLe hFuel
      have hPc : o < data.length := by omega
      have hPcTake : o < (data.take (i + 8)).length := by
        omega
      by_cases hHere : o = i
      · subst hHere
        have hWordTake :
            readWord (data.take (o + 8)) o = some wi := by
          rw [readWord_take (Nat.le_refl _) hEndI]
          exact hWordI
        have hAll :=
          decodeLoop_exit hLength hPc hWordI hIdI (fuel + 1)
        have hPre :=
          decodeLoop_exit hShort hPcTake hWordTake hIdI
            (fuel + 1)
        exact
          ⟨_, [], hPre.1, hAll.1,
            fun _ => Or.inl hAll.2, fun _ => rfl⟩
      · have hStep : o + 16 ≤ i + 8 := by omega
        rcases Option.isSome_iff_exists.mp
          (readWord_isSome (show o + 8 ≤ data.length by omega))
          with ⟨w, hWord⟩
        have hId : opcodeIdOf w ≠ 0x80 := by
          intro hId
          apply hBefore o (Nat.zero_le o) (by omega)
          exact ⟨hMod, by rw [hWord, Option.map_some, hId]⟩
        rcases decodeOne_of_readWord hLength hWord with
          ⟨raw1, hOne⟩
        generalize hD :
          decodeFormat w raw1 o (detectFormat (opcodeIdOf w)) =
            d at hOne
        have hExit : d.opcode ≠ .EXIT := by
          rw [← hD]
          exact opcode_ne_exit hId
        have hSize : d.size = 8 ∨ d.size = 16 := by
          rw [← hD, size_decodeFormat]
          split_ifs <;> simp
        have hOne' :
            decodeOne (data.take (i + 8)) o = some d := by
          rw [decodeOne_take hLength hStep hEndI]
          exact hOne
        rw [decodeLoop_next hShort hPcTake hD.symm hOne' hExit,
          decodeLoop_next hLength hPc hD.symm hOne hExit,
          visited_step hPc hOne hExit]
        have hNe : i ≠ o := fun hEq => hHere hEq.symm
        by_cases hNext : o + d.size ≤ i
        · rcases ih (o + d.size) (by omega) hNext (by omega)
            with ⟨pre, rest, hPre, hAll, hIff⟩
          refine ⟨listed d ++ pre, rest, ?_, ?_, ?_⟩
          · rw [hPre, Option.map_some]
          · rw [hAll, Option.map_some, List.append_assoc]
          · rw [hIff, List.mem_cons]
            simp [hNe]
        · -- The word is the second one of an instruction.
          have hBehind : o + d.size = i + 8 := by omega
          rcases decodeLoop_behind hLength hModI
            (show data.length ≤ fuel + (i + 8) by omega)
            with ⟨rest, hRest, hIff⟩
          refine ⟨listed d, rest, ?_, ?_, ?_⟩
          · rw [hBehind, decodeLoop_end (by omega),
              Option.map_some, List.append_nil]
          · rw [hBehind, hRest, Option.map_some]
          · rw [hIff, List.mem_cons, hBehind]
            simp [hNe]

end MaxwellDecoder

------
-- Extracted Bytes
------

namespace ShaderExtract

open MaxwellDecoder

/- The bytes that an extraction may take. -/
def availableBytes
    (region : Option (Nat → U8))
    (regionSize shaderOffset : Nat)
    (maxSize : Nat) : List U8 :=
  match region with
  | none => []
  | some bytes =>
      readBytes bytes shaderOffset
        (min (regionSize - shaderOffset) maxSize)

@[simp] theorem length_readBytes
    (region : Nat → U8)
    (start count : Nat) :
    (readBytes region start count).length = count := by
  simp [readBytes]

theorem take_readBytes
    (region : Nat → U8)
    {start count k : Nat}
    (hK : k ≤ count) :
    (readBytes region start count).take k =
      readBytes region start k := by
  unfold readBytes
  rw [← List.map_take, List.take_range, Nat.min_eq_left hK]

theorem drop_readBytes
    (region : Nat → U8)
    (start count k : Nat) :
    (readBytes region start count).drop k =
      readBytes region (start + k) (count - k) := by
  apply List.ext_getElem
  · simp [readBytes]
  · intro j hLeft hRight
    simp [readBytes, Nat.add_assoc]

/- A word of the bytes is the word behind the pointer. -/
theorem readWord_readBytes
    (region : Nat → U8)
    {start count i : Nat}
    (hEnd : i + 8 ≤ count) :
    readWord (readBytes region start count) i =
      some (wordOfBytes (readBytes region (start + i) 8)) := by
  unfold readWord
  rw [length_readBytes, if_pos hEnd, drop_readBytes,
    take_readBytes _ (by omega)]

theorem exitAt_readBytes_iff
    (region : Nat → U8)
    {start count i : Nat}
    (hMod : i % 8 = 0)
    (hEnd : i + 8 ≤ count) :
    ExitAt (readBytes region start count) i ↔
      bits (wordOfBytes (readBytes region (start + i) 8)) 12 5 =
        0x80 := by
  unfold ExitAt
  rw [readWord_readBytes region hEnd]
  simp [hMod, opcodeIdOf]

/-
  The scan ends behind the first `EXIT` word, or takes all
  that is available.
-/
theorem findExit_spec
    (region : Nat → U8)
    (start count : Nat) :
    ∀ fuel i : Nat,
      i % 8 = 0 → count ≤ fuel + i →
        (∃ j,
          FirstExitFrom (readBytes region start count) i j ∧
            findExit region start count fuel i = j + 8) ∨
          (∀ j, i ≤ j →
            ¬ ExitAt (readBytes region start count) j) ∧
            findExit region start count fuel i = count := by
  have hBehind :
      ∀ i, ¬ i + 8 ≤ count → ∀ j, i ≤ j →
        ¬ ExitAt (readBytes region start count) j := by
    rintro i hEnd j hJ ⟨_, hExit⟩
    rcases Option.map_eq_some_iff.mp hExit with ⟨w, hWord, _⟩
    have := readWord_eq_some hWord
    rw [length_readBytes] at this
    omega
  intro fuel
  induction fuel with
  | zero =>
      intro i _ hFuel
      exact Or.inr ⟨hBehind i (by omega), rfl⟩
  | succ fuel ih =>
      intro i hMod hFuel
      unfold findExit
      by_cases hEnd : i + 8 ≤ count
      · rw [if_pos hEnd]
        have hIff :
            ExitAt (readBytes region start count) i ↔ _ :=
          exitAt_readBytes_iff region hMod hEnd
        by_cases hExit :
            bits
              (wordOfBytes (readBytes region (start + i) 8))
              12 5 = 0x80
        · refine Or.inl ⟨i, ⟨Nat.le_refl i, hIff.mpr hExit, ?_⟩,
            if_pos hExit⟩
          intro j hLe hLt
          omega
        · -- No offset between `i` and `i + 8` is aligned.
          have hSkip :
              ∀ j, i ≤ j → j < i + 8 →
                ¬ ExitAt (readBytes region start count) j := by
            intro j hLe hLt hExitJ
            have hEq : j = i := by
              have := hExitJ.1
              omega
            subst hEq
            exact hExit (hIff.mp hExitJ)
          simp only [if_neg hExit]
          rcases ih (i + 8) (by omega) (by omega) with
            ⟨j, hFirst, hFind⟩ | ⟨hNone, hFind⟩
          · refine Or.inl ⟨j, ⟨?_, hFirst.2.1, ?_⟩, hFind⟩
            · have := hFirst.1
              omega
            · intro m hLe hLt
              by_cases hNear : m < i + 8
              · exact hSkip m hLe hNear
              · exact hFirst.2.2 m (by omega) hLt
          · refine Or.inr ⟨?_, hFind⟩
            intro m hLe
            by_cases hNear : m < i + 8
            · exact hSkip m hLe hNear
            · exact hNone m (by omega)
      · rw [if_neg hEnd]
        exact Or.inr ⟨hBehind i hEnd, rfl⟩

/-
  What is extracted: the bytes up to the first `EXIT` word,
  or all of them.
-/
theorem extractShader_spec
    (region : Option (Nat → U8))
    (regionSize shaderOffset maxSize : Nat) :
    let data :=
      availableBytes region regionSize shaderOffset maxSize
    let taken :=
      extractShader region regionSize shaderOffset maxSize
    (∃ i, FirstExit data i ∧ taken = data.take (i + 8)) ∨
      (∀ i, ¬ FirstExit data i) ∧ taken = data := by
  have hEmpty : ∀ i, ¬ FirstExit [] i := by
    rintro i ⟨_, ⟨_, hExit⟩, _⟩
    simp [readWord] at hExit
  unfold extractShader availableBytes
  cases region with
  | none => exact Or.inr ⟨hEmpty, rfl⟩
  | some bytes =>
      by_cases hOut :
          regionSize = 0 ∨ regionSize ≤ shaderOffset
      · have hZero : regionSize - shaderOffset = 0 := by omega
        simp only [if_pos hOut, hZero, Nat.zero_min]
        exact Or.inr ⟨hEmpty, rfl⟩
      · simp only [if_neg hOut]
        generalize min (regionSize - shaderOffset) maxSize =
          count
        rcases findExit_spec bytes shaderOffset count count 0
          rfl (Nat.le_refl _) with
          ⟨j, hFirst, hFind⟩ | ⟨hNone, hFind⟩
        · refine Or.inl ⟨j, hFirst, ?_⟩
          rcases Option.map_eq_some_iff.mp hFirst.2.1.2 with
            ⟨w, hWord, _⟩
          have hEnd := readWord_eq_some hWord
          rw [length_readBytes] at hEnd
          rw [hFind, take_readBytes _ hEnd]
        · refine Or.inr ⟨?_, by rw [hFind]⟩
          intro i hFirst
          exact hNone i (Nat.zero_le i) hFirst.2.1

------
-- Decoding What Is Extracted
------

theorem firstExit_unique
    {data : List U8}
    {i j : Nat}
    (hI : FirstExit data i)
    (hJ : FirstExit data j) :
    i = j := by
  rcases Nat.lt_trichotomy i j with hLt | hEq | hLt
  · exact absurd hI.2.1 (hJ.2.2 i (Nat.zero_le i) hLt)
  · exact hEq
  · exact absurd hJ.2.1 (hI.2.2 j (Nat.zero_le j) hLt)

theorem instructions_decode
    {data : List U8}
    (hLength : data.length < 2 ^ 32 - 8)
    (stage : ShaderStage) :
    (decode data stage).map (·.instructions) =
      decodeLoop data (data.length + 1) 0 := by
  unfold decode
  rw [sizedData_of_lt (by omega)]
  cases hLoop : decodeLoop data (data.length + 1) 0 with
  | none => simp [hLoop]
  | some insts => simp [hLoop]

/-
  Decoding the extracted bytes lists what decoding all
  available bytes lists exactly if the first `EXIT` word is
  one the decoder stops at, or nothing known follows it.
-/
theorem decode_extractShader_iff
    (region : Option (Nat → U8))
    (regionSize shaderOffset maxSize : Nat)
    (stage : ShaderStage)
    (hLength :
      (availableBytes region regionSize shaderOffset
        maxSize).length < 2 ^ 32 - 8) :
    (decode
        (extractShader region regionSize shaderOffset maxSize)
        stage).map (·.instructions) =
      (decode
        (availableBytes region regionSize shaderOffset maxSize)
        stage).map (·.instructions) ↔
    ∀ i,
      FirstExit
        (availableBytes region regionSize shaderOffset maxSize)
        i →
      i ∈ visited
        (availableBytes region regionSize shaderOffset maxSize)
        ((availableBytes region regionSize shaderOffset
          maxSize).length + 1) 0 ∨
      UnknownFrom
        (availableBytes region regionSize shaderOffset maxSize)
        (i + 8) := by
  have hSpec :=
    extractShader_spec region regionSize shaderOffset maxSize
  revert hSpec hLength
  generalize
    availableBytes region regionSize shaderOffset maxSize = data
  intro hLength hSpec
  rcases hSpec with ⟨i, hFirst, hTaken⟩ | ⟨hNone, hTaken⟩
  · have hShort : (data.take (i + 8)).length < 2 ^ 32 - 8 := by
      rw [List.length_take]
      omega
    rcases decodeLoop_take hLength hFirst data.length 0 rfl
      (Nat.zero_le i) (Nat.le_refl _) with
      ⟨pre, rest, hPre, hAll, hIff⟩
    have hOnly :
        (∀ j, FirstExit data j →
          j ∈ visited data (data.length + 1) 0 ∨
            UnknownFrom data (j + 8)) ↔ rest = [] := by
      rw [hIff]
      refine ⟨fun hEach => hEach i hFirst, fun hThis => ?_⟩
      intro j hFirstJ
      rw [← firstExit_unique hFirst hFirstJ]
      exact hThis
    -- The shorter program is decoded with less fuel.
    have hTake :
        decodeLoop (data.take (i + 8))
          ((data.take (i + 8)).length + 1) 0 = some pre := by
      have hLe : (data.take (i + 8)).length ≤ data.length := by
        rw [List.length_take]
        exact Nat.min_le_right _ _
      have hSome := decodeLoop_isSome hShort
        ((data.take (i + 8)).length + 1) 0 (by omega)
      rcases Option.isSome_iff_exists.mp
        (hSome.resolve_right (by omega)) with ⟨insts, hInsts⟩
      have hMore := decodeLoop_add hShort hInsts
        (data.length - (data.take (i + 8)).length)
      rw [show (data.take (i + 8)).length + 1 +
        (data.length - (data.take (i + 8)).length) =
          data.length + 1 by omega, hPre] at hMore
      rw [hInsts, hMore]
    rw [hTaken, instructions_decode hShort,
      instructions_decode hLength, hTake, hAll, hOnly,
      Option.some.injEq]
    exact List.self_eq_append_right
  · rw [hTaken]
    refine ⟨fun _ i hFirst => absurd hFirst (hNone i),
      fun _ => rfl⟩

/- A region of nothing but `EXIT` words. -/
def exitRegion (i : Nat) : U8 :=
  if i % 8 = 1 then 0x10 else 0

theorem exitRegion_decoded :
    (availableBytes (some exitRegion) 16 0 16).length <
        2 ^ 32 - 8 ∧
      (decode (extractShader (some exitRegion) 16 0 16)
          .VertexB).map (·.instructions) =
        (decode (availableBytes (some exitRegion) 16 0 16)
          .VertexB).map (·.instructions) := by
  refine ⟨by decide, ?_⟩
  refine (decode_extractShader_iff (some exitRegion) 16 0 16
    .VertexB (by decide)).mpr ?_
  intro i hFirst
  -- No later word is the first one.
  have hZero : i = 0 := by
    by_contra hNe
    exact hFirst.2.2 0 (Nat.le_refl 0) (by omega)
      (by decide)
  subst hZero
  exact Or.inl (by decide)

/-
  A load of two words whose second word has the bits of an
  `EXIT`, and an `EXIT` behind it.
-/
def loadRegion (i : Nat) : U8 :=
  if i % 8 = 1 then (if i = 1 then 0x08 else 0x10) else 0

theorem loadRegion_not_decoded :
    (decode (extractShader (some loadRegion) 24 0 24)
        .VertexB).map (·.instructions) ≠
      (decode (availableBytes (some loadRegion) 24 0 24)
        .VertexB).map (·.instructions) := by
  decide

end ShaderExtract

end M1Switch
