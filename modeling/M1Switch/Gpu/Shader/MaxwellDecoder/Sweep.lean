import M1Switch.Gpu.Shader.MaxwellDecoder.Encoding
import M1Switch.Gpu.Shader.MaxwellDecoder.Extraction
import M1Switch.Library.WordStream

/-
  The decoding loop as a sweep over words.

  The cursor moves on by eight bytes or by sixteen.  The sweep
  lists what every iteration decodes, and where the loop stops.
  Up to there each word is skipped, or it belongs to exactly
  one instruction of the program.

  Key definitions include:
    * `sweep`
    * `MaxwellDecoder.Swept`

  Main results:
    * `mem_slots_iff`
    * `covered_of_lt_stop`
    * `decode_layout`
-/

------
-- Iterations
------

namespace M1Switch

namespace MaxwellDecoder

/- What the iterations decode, and the offset behind them. -/
structure Sweep where
  slots : List DecodedInst := []
  stop : Nat

def Sweep.behind (d : DecodedInst) (s : Sweep) : Sweep :=
  { s with slots := d :: s.slots }

/- The decoding loop, with everything it comes to. -/
def sweep (data : List U8) : Nat → Nat → Option Sweep
| 0, _ => none
| fuel + 1, offset =>
    if offset < data.length then do
      let di ← decodeOne data offset
      if di.fmt = .Unknown then do
        let rest ← sweep data fuel ((offset + 8) % 2 ^ 32)
        return rest.behind di
      else if di.opcode = .EXIT then
        return {
          slots := [di]
          stop := (offset + di.size) % 2 ^ 32 }
      else do
        let rest ←
          sweep data fuel ((offset + di.size) % 2 ^ 32)
        return rest.behind di
    else return { stop := offset }

/- The instructions among what was decoded. -/
def Sweep.instructions (s : Sweep) : List ShaderInstruction :=
  s.slots.flatMap listed

@[simp] theorem slots_behind (d : DecodedInst) (s : Sweep) :
    (s.behind d).slots = d :: s.slots :=
  rfl

@[simp] theorem stop_behind (d : DecodedInst) (s : Sweep) :
    (s.behind d).stop = s.stop :=
  rfl

theorem instructions_behind (d : DecodedInst) (s : Sweep) :
    (s.behind d).instructions = listed d ++ s.instructions :=
  List.flatMap_cons

/- The loop lists the instructions of its sweep. -/
theorem decodeLoop_eq_sweep (data : List U8) :
    ∀ fuel offset : Nat,
      decodeLoop data fuel offset =
        (sweep data fuel offset).map Sweep.instructions := by
  intro fuel
  induction fuel with
  | zero =>
      intro offset
      rfl
  | succ fuel ih =>
      intro offset
      unfold decodeLoop sweep
      by_cases hPc : offset < data.length
      · rw [if_pos hPc, if_pos hPc]
        cases decodeOne data offset with
        | none => rfl
        | some d =>
            simp only [bind, Option.bind_some, ih, pure]
            split_ifs with hUnknown hExit
            · cases sweep data fuel ((offset + 8) % 2 ^ 32)
                with
              | none => rfl
              | some rest =>
                  simp [instructions_behind, listed, hUnknown]
            · simp [Sweep.instructions, listed, hUnknown]
            · cases
                sweep data fuel ((offset + d.size) % 2 ^ 32)
                with
              | none => rfl
              | some rest =>
                  simp [instructions_behind, listed, hUnknown]
      · rw [if_neg hPc, if_neg hPc]
        rfl

theorem decode_sweep
    {data : List U8}
    {stage : ShaderStage}
    {p : ShaderProgram}
    (hDecode : decode data stage = some p) :
    ∃ s,
      sweep (sizedData data)
          ((sizedData data).length + 1) 0 = some s ∧
        p.instructions = s.instructions := by
  have hLoop := decode_loop hDecode
  rw [decodeLoop_eq_sweep, Option.map_eq_some_iff] at hLoop
  rcases hLoop with ⟨s, hSweep, hInsts⟩
  exact ⟨s, hSweep, hInsts.symm⟩

------
-- Words
------

open WordStream

variable {data : List U8} {d : DecodedInst} {k : Nat}
variable {s : Sweep}

/- A memory or texture word: its instruction has two. -/
def longWord (data : List U8) (k : Nat) : Bool :=
  (readWord data (8 * k)).any fun w =>
    readsSecondWord (detectFormat (opcodeIdOf w))

/- A word that would end the program. -/
def exitWord (data : List U8) (k : Nat) : Bool :=
  (readWord data (8 * k)).any fun w => opcodeIdOf w = 0x80

/- A slot is cut off, or its word is decoded. -/
theorem decodeOne_cases
    {o : Nat}
    (hLength : data.length < 2 ^ 32)
    (hPc : o < data.length)
    (hOne : decodeOne data o = some d) :
    readWord data o = none ∧ d = { pc := o } ∨
      ∃ w raw1,
        readWord data o = some w ∧
          d = decodeFormat w raw1 o
            (detectFormat (opcodeIdOf w)) := by
  have hNext := decodeOne_next hLength hPc hOne
  unfold decodeOne at hOne
  rw [Nat.mod_eq_of_lt hNext] at hOne
  split_ifs at hOne with hShort
  · refine Or.inl ⟨?_, (Option.some.inj hOne).symm⟩
    unfold readWord
    rw [if_neg (by omega)]
  · simp only [bind, Option.bind_eq_some_iff, pure,
      Option.some.injEq] at hOne
    rcases hOne with ⟨w, hWord, raw1, _, hD⟩
    exact Or.inr ⟨w, raw1, hWord, hD.symm⟩

/- What is decoded at a word without an instruction. -/
theorem decodeOne_unknown
    {o : Nat}
    (hLength : data.length < 2 ^ 32)
    (hPc : o < data.length)
    (hOne : decodeOne data o = some d)
    (hUnknown : d.fmt = .Unknown) :
    d = { pc := o } := by
  rcases decodeOne_cases hLength hPc hOne with
    ⟨_, hD⟩ | ⟨w, raw1, _, hD⟩
  · exact hD
  · rw [hD, fmt_decodeFormat] at hUnknown
    rw [hD, hUnknown]
    rfl

theorem decodeOne_pc
    {o : Nat}
    (hLength : data.length < 2 ^ 32)
    (hPc : o < data.length)
    (hOne : decodeOne data o = some d) :
    d.pc = o := by
  rcases decodeOne_cases hLength hPc hOne with
    ⟨_, hD⟩ | ⟨w, raw1, _, hD⟩
  · rw [hD]
  · rw [hD, pc_decodeFormat]

/- The words tell the size, and whether the program ends. -/
theorem decodeOne_word
    (hLength : data.length < 2 ^ 32)
    (hPc : 8 * k < data.length)
    (hOne : decodeOne data (8 * k) = some d) :
    d.size = 8 * advance (longWord data) k ∧
      (d.opcode = .EXIT ↔ exitWord data k) := by
  unfold advance longWord exitWord
  rcases decodeOne_cases hLength hPc hOne with
    ⟨hNone, hD⟩ | ⟨w, raw1, hWord, hD⟩
  · rw [hNone, hD]
    simp
  · rw [hWord, hD]
    constructor
    · rw [size_decodeFormat, Option.any_some]
      split_ifs <;> rfl
    · rw [Option.any_some, decide_eq_true_eq]
      constructor
      · intro hExit
        by_contra hId
        exact opcode_ne_exit hId hExit
      · intro hId
        rw [decodeFormat_exit hId]
        exact opcode_decodeExitFormat hId

/- An instruction of two words is known. -/
theorem known_of_longWord
    (hLength : data.length < 2 ^ 32)
    (hPc : 8 * k < data.length)
    (hOne : decodeOne data (8 * k) = some d)
    (hLong : longWord data k) :
    d.fmt ≠ .Unknown := by
  intro hUnknown
  have hSize := (decodeOne_word hLength hPc hOne).1
  rw [advance_of_long hLong,
    decodeOne_unknown hLength hPc hOne hUnknown] at hSize
  have hEight : (8 : Nat) = 8 * 2 := hSize
  omega

/- The offset behind an iteration does not wrap. -/
theorem decodeOne_behind
    (hLength : data.length < 2 ^ 32)
    (hPc : 8 * k < data.length)
    (hOne : decodeOne data (8 * k) = some d) :
    8 * k + d.size < 2 ^ 32 := by
  by_cases hUnknown : d.fmt = .Unknown
  · rw [decodeOne_unknown hLength hPc hOne hUnknown]
    exact decodeOne_next hLength hPc hOne
  · exact (decodeOne_spec hLength hOne hUnknown).2.2.2

------
-- Sweeps From A Word
------

/- A sweep from a word, iteration by iteration. -/
inductive Swept (data : List U8) : Nat → Sweep → Prop
| done {k : Nat} :
    data.length ≤ 8 * k → Swept data k { stop := 8 * k }
| exit {k : Nat} {d : DecodedInst} :
    8 * k < data.length →
      decodeOne data (8 * k) = some d →
        exitWord data k →
          Swept data k { slots := [d], stop := 8 * k + 8 }
| step {k : Nat} {d : DecodedInst} {rest : Sweep} :
    8 * k < data.length →
      decodeOne data (8 * k) = some d →
        exitWord data k = false →
          Swept data (k + advance (longWord data) k) rest →
            Swept data k (rest.behind d)

/- A word that ends the program is a short one. -/
theorem advance_of_exitWord
    (hExit : exitWord data k) :
    advance (longWord data) k = 1 := by
  unfold exitWord at hExit
  unfold advance longWord
  cases hWord : readWord data (8 * k) with
  | none => rfl
  | some w =>
      rw [hWord, Option.any_some, decide_eq_true_eq] at hExit
      rw [Option.any_some, hExit]
      rfl

theorem swept_of_sweep
    (hLength : data.length < 2 ^ 32) :
    ∀ (fuel k : Nat) (s : Sweep),
      sweep data fuel (8 * k) = some s → Swept data k s := by
  intro fuel
  induction fuel with
  | zero =>
      intro k s hSweep
      cases hSweep
  | succ fuel ih =>
      intro k s hSweep
      unfold sweep at hSweep
      by_cases hPc : 8 * k < data.length
      · rw [if_pos hPc] at hSweep
        simp only [bind, Option.bind_eq_some_iff] at hSweep
        rcases hSweep with ⟨d, hOne, hSweep⟩
        have hWord := decodeOne_word hLength hPc hOne
        have hBehind := decodeOne_behind hLength hPc hOne
        -- Every way on is by the size of the slot.
        have hStep :
            ∀ {o : Nat} {rest : Sweep},
              o = 8 * k + d.size → d.opcode ≠ .EXIT →
                sweep data fuel (o % 2 ^ 32) = some rest →
                  Swept data k (rest.behind d) := by
          intro o rest hO hExit hRest
          rw [hO, Nat.mod_eq_of_lt hBehind, hWord.1,
            ← Nat.mul_add] at hRest
          refine Swept.step hPc hOne ?_ (ih _ _ hRest)
          rw [← Bool.not_eq_true, ← hWord.2]
          exact hExit
        split_ifs at hSweep with hUnknown hExit
        · simp only [Option.bind_eq_some_iff, pure,
            Option.some.injEq] at hSweep
          rcases hSweep with ⟨rest, hRest, hS⟩
          have hD :=
            decodeOne_unknown hLength hPc hOne hUnknown
          rw [← hS]
          refine hStep ?_ ?_ hRest
          · rw [hD]
          · rw [hD]
            exact fun hExit => nomatch hExit
        · have hEnds := hWord.2.mp hExit
          have hSize : d.size = 8 := by
            rw [hWord.1, advance_of_exitWord hEnds]
          simp only [pure, Option.some.injEq] at hSweep
          rw [← hSweep, Nat.mod_eq_of_lt hBehind, hSize]
          exact Swept.exit hPc hOne hEnds
        · simp only [Option.bind_eq_some_iff, pure,
            Option.some.injEq] at hSweep
          rcases hSweep with ⟨rest, hRest, hS⟩
          rw [← hS]
          exact hStep rfl hExit hRest
      · rw [if_neg hPc] at hSweep
        simp only [pure, Option.some.injEq] at hSweep
        rw [← hSweep]
        exact Swept.done (by omega)

/- The slots are what is decoded at the words reached. -/
theorem mem_slots_iff
    (hSwept : Swept data k s)
    (d : DecodedInst) :
    d ∈ s.slots ↔
      ∃ j,
        Reached (longWord data) (exitWord data) k j ∧
          8 * j < data.length ∧
            decodeOne data (8 * j) = some d := by
  induction hSwept with
  | @done k hEnd =>
      constructor
      · intro hMem
        cases hMem
      · rintro ⟨j, hReached, hIn, _⟩
        have := hReached.le
        omega
  | @exit k d' hPc hOne hExit =>
      rw [List.mem_singleton]
      constructor
      · intro hD
        rw [hD]
        exact ⟨k, Reached.here k, hPc, hOne⟩
      · rintro ⟨j, hReached, _, hHere⟩
        rcases reached_cases hReached with hJ | ⟨hGoes, _⟩
        · rw [hJ, hOne] at hHere
          exact (Option.some.inj hHere).symm
        · rw [hExit] at hGoes
          cases hGoes
  | @step k d' rest hPc hOne hGoes _ ih =>
      rw [slots_behind, List.mem_cons, ih]
      constructor
      · rintro (hD | ⟨j, hReached, hBoth⟩)
        · rw [hD]
          exact ⟨k, Reached.here k, hPc, hOne⟩
        · exact ⟨j, Reached.step hGoes hReached, hBoth⟩
      · rintro ⟨j, hReached, hIn, hHere⟩
        rcases reached_cases hReached with hJ | ⟨_, hRest⟩
        · rw [hJ, hOne] at hHere
          exact Or.inl (Option.some.inj hHere).symm
        · exact Or.inr ⟨j, hRest, hIn, hHere⟩

/- Before the stop each word is part of a slot. -/
theorem covered_of_lt_stop
    (hSwept : Swept data k s) :
    ∀ j,
      k ≤ j → 8 * j < s.stop → 8 * j < data.length →
        Reached (longWord data) (exitWord data) k j ∨
          ∃ i,
            j = i + 1 ∧ longWord data i ∧
              Reached (longWord data) (exitWord data) k i := by
  induction hSwept with
  | @done k hEnd =>
      intro j hLe hStop _
      exact absurd hStop (by omega)
  | @exit k d hPc hOne hExit =>
      intro j hLe hStop _
      have hJ : j = k := by
        have : 8 * j < 8 * k + 8 := hStop
        omega
      rw [hJ]
      exact Or.inl (Reached.here k)
  | @step k d rest hPc hOne hGoes _ ih =>
      intro j hLe hStop hIn
      by_cases hFar : k + advance (longWord data) k ≤ j
      · rcases ih j hFar hStop hIn with
          hReached | ⟨i, hJ, hLong, hReached⟩
        · exact Or.inl (Reached.step hGoes hReached)
        · exact
            Or.inr ⟨i, hJ, hLong, Reached.step hGoes hReached⟩
      · by_cases hHere : j = k
        · rw [hHere]
          exact Or.inl (Reached.here k)
        · -- Only a long word has another one behind it.
          have hLong : longWord data k := by
            by_contra hShort
            rw [advance_of_short hShort] at hFar
            omega
          rw [advance_of_long hLong] at hFar
          exact
            Or.inr ⟨k, by omega, hLong, Reached.here k⟩

/- Only the last instruction can end the program. -/
theorem exit_last
    (hLength : data.length < 2 ^ 32)
    (hSwept : Swept data k s) :
    ∀ inst ∈ s.instructions.dropLast, inst.opcode ≠ .EXIT := by
  induction hSwept with
  | done =>
      intro inst hInst
      cases hInst
  | exit =>
      intro inst hInst
      simp only [Sweep.instructions, List.flatMap_cons,
        List.flatMap_nil, List.append_nil, listed] at hInst
      split_ifs at hInst <;> cases hInst
  | @step k d rest hPc hOne hGoes _ ih =>
      intro inst hInst
      rw [instructions_behind] at hInst
      unfold listed at hInst
      split_ifs at hInst with hUnknown
      · exact ih inst hInst
      · by_cases hNil : rest.instructions = []
        · rw [hNil] at hInst
          cases hInst
        · rw [List.singleton_append,
            List.dropLast_cons_of_ne_nil hNil] at hInst
          rcases List.mem_cons.mp hInst with hHead | hTail
          · rw [hHead, opcode_toIr, Ne,
              (decodeOne_word hLength hPc hOne).2, hGoes]
            exact Bool.false_ne_true
          · exact ih inst hTail

------
-- Layout Of A Program
------

/- Opcodes of the instructions of two words. -/
def twoWords (op : ShaderOpcode) : Bool :=
  op ∈ opcodesOf .MemoryLoad ∨ op ∈ opcodesOf .MemoryStore ∨
    op ∈ opcodesOf .Texture

/- The word at an offset is the instruction's, or its second. -/
def Holds (inst : ShaderInstruction) (o : Nat) : Prop :=
  inst.pc = o ∨ inst.pc + 8 = o ∧ twoWords inst.opcode

/- The loop passed over the word, which it does not know. -/
def Skipped (s : Sweep) (o : Nat) : Prop :=
  ∃ d ∈ s.slots, d.pc = o ∧ d.fmt = .Unknown

/- A word is passed over, or one instruction's. -/
def Disposed
    (s : Sweep)
    (insts : List ShaderInstruction)
    (o : Nat) : Prop :=
  Skipped s o ∧ (∀ inst ∈ insts, ¬ Holds inst o) ∨
    ¬ Skipped s o ∧ ∃! inst, inst ∈ insts ∧ Holds inst o

/- How the instructions lie in the bytes. -/
structure Layout
    (data : List U8)
    (s : Sweep)
    (insts : List ShaderInstruction) : Prop where
  increasing : insts.Pairwise (fun a b => a.pc < b.pc)
  aligned : ∀ inst ∈ insts, inst.pc % 8 = 0
  inside : ∀ inst ∈ insts, inst.pc + 8 ≤ data.length
  disposed :
    ∀ o, o % 8 = 0 → o + 8 ≤ data.length → o < s.stop →
      Disposed s insts o
  exitLast : ∀ inst ∈ insts.dropLast, inst.opcode ≠ .EXIT

theorem mem_instructions_iff
    {inst : ShaderInstruction} :
    inst ∈ s.instructions ↔
      ∃ d ∈ s.slots, d.fmt ≠ .Unknown ∧ inst = d.toIr := by
  unfold Sweep.instructions
  rw [List.mem_flatMap]
  constructor
  · rintro ⟨d, hD, hInst⟩
    unfold listed at hInst
    split_ifs at hInst with hUnknown
    · cases hInst
    · exact ⟨d, hD, hUnknown, List.mem_singleton.mp hInst⟩
  · rintro ⟨d, hD, hKnown, hInst⟩
    refine ⟨d, hD, ?_⟩
    unfold listed
    rw [if_neg hKnown]
    exact List.mem_singleton.mpr hInst

theorem twoWords_opcodesOf (fmt : MaxwellFormat) :
    ∀ op ∈ opcodesOf fmt,
      twoWords op = readsSecondWord fmt := by
  cases fmt <;> decide

/- The opcode tells whether there are two words. -/
theorem twoWords_iff
    (hLength : data.length < 2 ^ 32)
    (hPc : 8 * k < data.length)
    (hOne : decodeOne data (8 * k) = some d)
    (hKnown : d.fmt ≠ .Unknown) :
    twoWords d.opcode ↔ longWord data k := by
  rcases decodeOne_cases hLength hPc hOne with
    ⟨_, hD⟩ | ⟨w, raw1, hWord, hD⟩
  · rw [hD] at hKnown
    exact absurd rfl hKnown
  · unfold longWord
    rw [hWord, Option.any_some, hD,
      twoWords_opcodesOf _ _ (opcode_decodeFormat w raw1 _)]

/- Instructions come from the words reached. -/
theorem mem_instructions_swept_iff
    (hSwept : Swept data k s)
    (inst : ShaderInstruction) :
    inst ∈ s.instructions ↔
      ∃ j d,
        Reached (longWord data) (exitWord data) k j ∧
          8 * j < data.length ∧
            decodeOne data (8 * j) = some d ∧
              d.fmt ≠ .Unknown ∧ inst = d.toIr := by
  rw [mem_instructions_iff]
  constructor
  · rintro ⟨d, hD, hKnown, hInst⟩
    rcases (mem_slots_iff hSwept d).mp hD with
      ⟨j, hReached, hIn, hOne⟩
    exact ⟨j, d, hReached, hIn, hOne, hKnown, hInst⟩
  · rintro ⟨j, d, hReached, hIn, hOne, hKnown, hInst⟩
    refine ⟨d, ?_, hKnown, hInst⟩
    exact (mem_slots_iff hSwept d).mpr ⟨j, hReached, hIn, hOne⟩

theorem skipped_iff
    {k j : Nat}
    (hLength : data.length < 2 ^ 32)
    (hSwept : Swept data k s) :
    Skipped s (8 * j) ↔
      Reached (longWord data) (exitWord data) k j ∧
        8 * j < data.length ∧
          ∃ d, decodeOne data (8 * j) = some d ∧
            d.fmt = .Unknown := by
  unfold Skipped
  constructor
  · rintro ⟨d, hD, hPc, hUnknown⟩
    rcases (mem_slots_iff hSwept d).mp hD with
      ⟨i, hReached, hIn, hOne⟩
    have hI : i = j := by
      rw [decodeOne_pc hLength hIn hOne] at hPc
      omega
    rw [hI] at hReached hIn hOne
    exact ⟨hReached, hIn, d, hOne, hUnknown⟩
  · rintro ⟨hReached, hIn, d, hOne, hUnknown⟩
    refine ⟨d, ?_, decodeOne_pc hLength hIn hOne, hUnknown⟩
    exact (mem_slots_iff hSwept d).mpr ⟨j, hReached, hIn, hOne⟩

/-
  The instruction at a word holds that word and, if it is a
  long one, the next; no other start.
-/
theorem holds_toIr_iff
    {i j : Nat}
    (hLength : data.length < 2 ^ 32)
    (hPc : 8 * i < data.length)
    (hOne : decodeOne data (8 * i) = some d)
    (hKnown : d.fmt ≠ .Unknown) :
    Holds d.toIr (8 * j) ↔
      i = j ∨ i + 1 = j ∧ longWord data i := by
  unfold Holds
  rw [pc_toIr, opcode_toIr, decodeOne_pc hLength hPc hOne,
    twoWords_iff hLength hPc hOne hKnown]
  constructor
  · rintro (hHere | ⟨hNext, hLong⟩)
    · exact Or.inl (by omega)
    · exact Or.inr ⟨by omega, hLong⟩
  · rintro (hHere | ⟨hNext, hLong⟩)
    · exact Or.inl (by omega)
    · exact Or.inr ⟨by omega, hLong⟩

/- Something is decoded at each word reached. -/
theorem decodeOne_of_reached
    {k j : Nat}
    (hSwept : Swept data k s)
    (hReached :
      Reached (longWord data) (exitWord data) k j)
    (hIn : 8 * j < data.length) :
    ∃ d, decodeOne data (8 * j) = some d := by
  induction hSwept with
  | done hEnd =>
      have := hReached.le
      omega
  | exit _ hOne hExit =>
      rcases reached_cases hReached with hJ | ⟨hGoes, _⟩
      · rw [hJ]
        exact ⟨_, hOne⟩
      · rw [hExit] at hGoes
        cases hGoes
  | step _ hOne _ _ ih =>
      rcases reached_cases hReached with hJ | ⟨_, hRest⟩
      · rw [hJ]
        exact ⟨_, hOne⟩
      · exact ih hRest

/- The word at a start is passed over, or a first word. -/
theorem disposed_of_reached
    {j : Nat}
    (hLength : data.length < 2 ^ 32)
    (hSwept : Swept data 0 s)
    (hReached :
      Reached (longWord data) (exitWord data) 0 j)
    (hIn : 8 * j < data.length) :
    Disposed s s.instructions (8 * j) := by
  rcases decodeOne_of_reached hSwept hReached hIn with
    ⟨d, hOne⟩
  have hStarts := (reached_zero_iff.mp hReached).1
  -- No other instruction holds a word that starts one.
  have hOnly :
      ∀ inst ∈ s.instructions, Holds inst (8 * j) →
        d.fmt ≠ .Unknown ∧ inst = d.toIr := by
    intro inst hInst hHolds
    rcases (mem_instructions_swept_iff hSwept inst).mp hInst
      with ⟨i, d', hReachedI, hInI, hOneI, hKnown, hEq⟩
    rw [hEq, holds_toIr_iff hLength hInI hOneI hKnown]
      at hHolds
    rcases hHolds with hI | ⟨hJ, hLong⟩
    · rw [hI, hOne] at hOneI
      rw [Option.some.inj hOneI]
      exact ⟨hKnown, hEq⟩
    · have hStartsI := (reached_zero_iff.mp hReachedI).1
      rw [← hJ, starts_succ_iff] at hStarts
      exact absurd ⟨hStartsI, hLong⟩ hStarts
  unfold Disposed
  rw [skipped_iff hLength hSwept]
  by_cases hUnknown : d.fmt = .Unknown
  · refine Or.inl ⟨⟨hReached, hIn, d, hOne, hUnknown⟩, ?_⟩
    intro inst hInst hHolds
    exact (hOnly inst hInst hHolds).1 hUnknown
  · refine Or.inr ⟨?_, d.toIr, ⟨?_, ?_⟩, ?_⟩
    · rintro ⟨_, _, d', hOne', hUnknown'⟩
      rw [hOne] at hOne'
      rw [Option.some.inj hOne'] at hUnknown
      exact hUnknown hUnknown'
    · apply (mem_instructions_swept_iff hSwept _).mpr
      exact ⟨j, d, hReached, hIn, hOne, hUnknown, rfl⟩
    · rw [holds_toIr_iff hLength hIn hOne hUnknown]
      exact Or.inl rfl
    · rintro inst ⟨hInst, hHolds⟩
      exact (hOnly inst hInst hHolds).2

/- The word behind a long one is its second word. -/
theorem disposed_of_second
    {i : Nat}
    (hLength : data.length < 2 ^ 32)
    (hSwept : Swept data 0 s)
    (hReached :
      Reached (longWord data) (exitWord data) 0 i)
    (hLong : longWord data i)
    (hIn : 8 * (i + 1) < data.length) :
    Disposed s s.instructions (8 * (i + 1)) := by
  have hInI : 8 * i < data.length := by omega
  rcases decodeOne_of_reached hSwept hReached hInI with
    ⟨d, hOne⟩
  have hKnown := known_of_longWord hLength hInI hOne hLong
  have hSecond : ¬ Starts (longWord data) (i + 1) := by
    rw [starts_succ_iff, not_not]
    exact ⟨(reached_zero_iff.mp hReached).1, hLong⟩
  refine Or.inr ⟨?_, d.toIr, ⟨?_, ?_⟩, ?_⟩
  · rw [skipped_iff hLength hSwept]
    rintro ⟨hNext, _⟩
    exact hSecond (reached_zero_iff.mp hNext).1
  · apply (mem_instructions_swept_iff hSwept _).mpr
    exact ⟨i, d, hReached, hInI, hOne, hKnown, rfl⟩
  · rw [holds_toIr_iff hLength hInI hOne hKnown]
    exact Or.inr ⟨rfl, hLong⟩
  · rintro inst ⟨hInst, hHolds⟩
    rcases (mem_instructions_swept_iff hSwept inst).mp hInst
      with ⟨m, d', hReachedM, hInM, hOneM, hKnownM, hEq⟩
    rw [hEq, holds_toIr_iff hLength hInM hOneM hKnownM]
      at hHolds
    rcases hHolds with hM | ⟨hM, _⟩
    · rw [hM] at hReachedM
      exact absurd (reached_zero_iff.mp hReachedM).1 hSecond
    · have hSame : m = i := by omega
      rw [hSame, hOne] at hOneM
      rw [hEq, Option.some.inj hOneM]

/- A decoded program's layout is that of its sweep. -/
theorem layout_of_swept
    (hLength : data.length < 2 ^ 32)
    (hSwept : Swept data 0 s)
    (hOrder :
      s.instructions.Pairwise (fun a b => a.pc < b.pc)) :
    Layout data s s.instructions where
  increasing := hOrder
  aligned := by
    intro inst hInst
    rcases (mem_instructions_swept_iff hSwept inst).mp hInst
      with ⟨j, d, _, hIn, hOne, _, hEq⟩
    rw [hEq, pc_toIr, decodeOne_pc hLength hIn hOne,
      Nat.mul_mod_right]
  inside := by
    intro inst hInst
    rcases (mem_instructions_swept_iff hSwept inst).mp hInst
      with ⟨j, d, _, hIn, hOne, hKnown, hEq⟩
    rw [hEq, pc_toIr, decodeOne_pc hLength hIn hOne]
    exact (decodeOne_spec hLength hOne hKnown).2.1
  disposed := by
    intro o hMod hEnd hStop
    have hO : o = 8 * (o / 8) := by omega
    rw [hO] at hEnd hStop ⊢
    have hIn : 8 * (o / 8) < data.length := by omega
    rcases covered_of_lt_stop hSwept (o / 8) (Nat.zero_le _)
      hStop hIn with hReached | ⟨i, hJ, hLong, hReached⟩
    · exact disposed_of_reached hLength hSwept hReached hIn
    · rw [hJ] at hIn ⊢
      exact
        disposed_of_second hLength hSwept hReached hLong hIn
  exitLast := exit_last hLength hSwept

/-
  Decoding ends on every byte string below the last slots and
  reads inside it only.  Its instructions start at increasing
  multiples of eight; each whole word before the stop is passed
  over, or it is one instruction's first or second word; and
  only the last instruction is an `EXIT`.
-/
theorem decode_layout
    (data : List U8)
    (stage : ShaderStage)
    (hLength : data.length < 2 ^ 32 - 16) :
    ∃ p s,
      decode data stage = some p ∧
        sweep data (data.length + 1) 0 = some s ∧
          Layout data s p.instructions := by
  rcases Option.isSome_iff_exists.mp
    (decode_isSome data stage (by omega)) with ⟨p, hDecode⟩
  have hShort : data.length < 2 ^ 32 := by omega
  rcases decode_sweep hDecode with ⟨s, hSweep, hInsts⟩
  rw [sizedData_of_lt hShort] at hSweep
  have hOrder := decode_pcs_increasing hDecode
  have hSwept := swept_of_sweep hShort _ 0 s hSweep
  refine ⟨p, s, hDecode, hSweep, ?_⟩
  rw [hInsts] at hOrder ⊢
  exact layout_of_swept hShort hSwept hOrder

/- The bytes of a program's words. -/
def bytesOfWords (words : List U64) : List U8 :=
  words.flatMap bytesOfWord

/-
  A multiplication, a load of two words, a word that is not
  known, and an `EXIT`.
-/
def sweptBytes : List U8 :=
  bytesOfWords [0, 0x800, 0, 0x1FE0, 0x1000]

theorem sweptBytes_layout :
    ∃ p s,
      decode sweptBytes .VertexB = some p ∧
        sweep sweptBytes (sweptBytes.length + 1) 0 = some s ∧
          Layout sweptBytes s p.instructions :=
  decode_layout sweptBytes .VertexB (by decide)

end MaxwellDecoder

end M1Switch
