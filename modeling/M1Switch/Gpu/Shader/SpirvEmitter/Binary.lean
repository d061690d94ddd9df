import Mathlib.Algebra.Order.Ring.Int
import M1Switch.Gpu.Shader.MaxwellDecoder.Sweep
import M1Switch.Gpu.Shader.SpirvEmitter.Execution

/-
  Integer programs from their bytes to their results.

  The words of integer instructions have a meaning by their
  bit fields.  A binary that starts with such words and an
  `EXIT` is decoded to them, and what is emitted leaves in the
  variables what the words leave in the registers.

  Key definitions include:
    * `eval`
    * `step`

  Main results:
    * `instOfWords_eq`
    * `decodeLoop_startsWith`
    * `translated_of_startsWith`
-/

------
-- Integer Words
------

namespace M1Switch

open MaxwellDecoder

/- Integer operations whose emitted opcodes are standard. -/
inductive IntegerOp where
  | IADD3
  | IMAD
  | IADD
  | ISUB
  | IMUL
  | IABS
  | INEG
  | I2I
deriving DecidableEq, Repr

namespace IntegerOp

/- Bits 12:5 of the instruction word. -/
def id : IntegerOp → Nat
| .IADD3 => 0x10
| .IMAD => 0x11
| .IADD => 0x12
| .ISUB => 0x13
| .IMUL => 0x14
| .IABS => 0x15
| .INEG => 0x16
| .I2I => 0x19

def opcode (op : IntegerOp) : ShaderOpcode :=
  decodeOpcode op.id (detectFormat op.id)

/- The sources the decoder takes, though not all are used. -/
def srcCount (op : IntegerOp) : Nat :=
  if detectFormat op.id = .Alu3In then 3 else 2

/- What the operation gives, modulo `2 ^ 32`. -/
def eval (op : IntegerOp) (a b c : BitVec 32) : BitVec 32 :=
  match op with
  | .IADD3 => a + b + c
  | .IMAD => a * b + c
  | .IADD => a + b
  | .ISUB => a - b
  | .IMUL => a * b
  | .IABS => a.abs
  | .INEG => -a
  | .I2I => a

theorem format_cases (op : IntegerOp) :
    detectFormat op.id = .Alu3In ∨
      detectFormat op.id = .Alu2In := by
  cases op <;> decide

end IntegerOp

/- The word of an integer instruction without modifiers. -/
structure IntWord where
  word : U64
  op : IntegerOp
  opcode : opcodeIdOf word = op.id
  plain : ∀ b ∈ [45, 46, 47, 48, 49], bit word b = false

namespace IntWord

/- The registers behind the instruction. -/
def step (w : IntWord) (regs : Registers) : Registers :=
  Function.update regs (bits w.word 44 39)
    (w.op.eval (regs (bits w.word 19 13))
      (regs (bits w.word 26 20)) (regs (bits w.word 33 27)))

/- The instruction it is decoded to. -/
def inst (w : IntWord) (pc : Nat) : ShaderInstruction :=
  { opcode := w.op.opcode
    pc := pc
    srcCount := w.op.srcCount
    dest := .gpr (bits w.word 44 39)
    src0 := .gpr (bits w.word 19 13)
    src1 := .gpr (bits w.word 26 20)
    src2 :=
      if w.op.srcCount = 3 then .gpr (bits w.word 33 27)
      else {} }

theorem instOfWords_eq
    (w : IntWord)
    (raw1 : U64)
    (pc : Nat) :
    instOfWords w.word raw1 pc = w.inst pc := by
  have hPlain := w.plain
  simp only [List.forall_mem_cons] at hPlain
  rcases hPlain with ⟨hNeg0, hNeg1, hAbs0, hAbs1, hSat, _⟩
  have hMufu :
      decodeOpcode w.op.id (detectFormat w.op.id) ≠ .MUFU := by
    cases w.op <;> decide
  have hToIr :=
    toIr_of_plain
      (d := decodeAluFormat w.word pc (detectFormat w.op.id))
      (detectFormat w.op.id) (decodeOpcode_mem _ _)
  unfold instOfWords
  rw [w.opcode]
  rcases w.op.format_cases with hFmt | hFmt <;>
    rw [hFmt] at hMufu hToIr ⊢ <;>
    refine (hToIr (by decide)).trans ?_ <;>
    simp [DecodedInst.toIrOperands, decodeAluFormat, aluField,
      inst, ShaderOperand.gpr, IntegerOp.opcode,
      IntegerOp.srcCount, w.opcode, hFmt, hMufu, hNeg0, hNeg1,
      hAbs0, hAbs1, hSat]

/- The instruction is one of registers, without a guard. -/
theorem intInst (w : IntWord) (pc : Nat) :
    IntInst (w.inst pc) := by
  rcases w with ⟨word, op, _, _⟩
  refine ⟨?_, ⟨rfl, rfl, rfl, rfl⟩, ?_, rfl⟩
  · cases op <;> exact ⟨_, rfl, Nat.le_of_ble_eq_true rfl⟩
  · cases op <;>
      simp [inst, ShaderInstruction.usedSrcs,
        IntegerOp.srcCount, IntegerOp.id, detectFormat,
        ShaderOperand.Plain, ShaderOperand.gpr]

/- On registers it does what the word is meant to do. -/
theorem irStep_inst
    (w : IntWord)
    (pc : Nat)
    (regs : Registers) :
    irStep (w.inst pc) regs = w.step regs := by
  rcases w with ⟨word, op, _, _⟩
  cases op <;>
    simp [irStep, inst, step, ShaderInstruction.usedSrcs,
      IntegerOp.srcCount, IntegerOp.opcode, IntegerOp.id,
      IntegerOp.eval, detectFormat, decodeOpcode, irResult,
      ShaderOperand.regIndex, ShaderOperand.gpr, bits_mod,
      BitVec.ofInt_add, BitVec.ofInt_mul, BitVec.ofInt_neg,
      -BitVec.ofInt_natCast, -Nat.cast_natAbs,
      SpirvEmitter.ofInt_sub_toInt,
      SpirvEmitter.ofInt_natAbs_toInt]

end IntWord

------
-- Decoding Binaries
------

namespace MaxwellDecoder

variable {data : List U8}

/- The words stand at an offset, with an `EXIT` behind them. -/
def StartsWith (data : List U8) : Nat → List IntWord → Prop
| o, [] =>
    ∃ w, readWord data o = some w ∧ opcodeIdOf w = 0x80
| o, w :: ws =>
    readWord data o = some w.word ∧ StartsWith data (o + 8) ws

/- The instructions of words from an offset on. -/
def instsFrom : Nat → List IntWord → List ShaderInstruction
| _, [] => []
| o, w :: ws => w.inst o :: instsFrom (o + 8) ws

theorem exists_word_of_mem :
    ∀ (ws : List IntWord) (o : Nat),
      ∀ inst ∈ instsFrom o ws,
        ∃ w : IntWord, ∃ pc, inst = w.inst pc := by
  intro ws
  induction ws with
  | nil =>
      intro o inst hInst
      cases hInst
  | cons w ws ih =>
      intro o inst hInst
      rcases List.mem_cons.mp hInst with hHead | hRest
      · exact ⟨w, o, hHead⟩
      · exact ih (o + 8) inst hRest

theorem irRun_instsFrom :
    ∀ (ws : List IntWord) (o : Nat) (regs : Registers),
      irRun (instsFrom o ws) regs =
        ws.foldl (fun regs w => w.step regs) regs := by
  intro ws
  induction ws with
  | nil =>
      intro o regs
      rfl
  | cons w ws ih =>
      intro o regs
      rw [instsFrom, irRun, w.irStep_inst, ih]
      rfl

/- An iteration of the loop on an integer word. -/
theorem decodeLoop_intWord
    {o : Nat}
    {w : IntWord}
    (hShort : data.length < 2 ^ 32 - 8)
    (hWord : readWord data o = some w.word)
    (fuel : Nat) :
    decodeLoop data (fuel + 1) o =
      (decodeLoop data fuel (o + 8)).map (w.inst o :: ·) := by
  rcases decodeOne_of_readWord hShort hWord with ⟨raw1, hOne⟩
  have hEnd := readWord_eq_some hWord
  have hInst := w.instOfWords_eq raw1 o
  unfold instOfWords at hInst
  rw [decodeLoop_step hShort (by omega) hOne, if_neg, if_neg,
    hInst, size_decodeFormat, w.opcode, if_neg]
  · cases w.op <;> decide
  · rw [opcode_decodeFormat_eq, w.opcode]
    cases w.op <;> decide
  · rw [fmt_decodeFormat, w.opcode]
    cases w.op <;> decide

/- The loop gives the instructions of the words and the end. -/
theorem decodeLoop_startsWith
    (hShort : data.length < 2 ^ 32 - 8) :
    ∀ (ws : List IntWord) (o fuel : Nat),
      StartsWith data o ws → data.length < fuel + o →
        ∃ exit,
          exit.opcode = .EXIT ∧ exit.predGuard = false ∧
            decodeLoop data fuel o =
              some (instsFrom o ws ++ [exit]) := by
  intro ws
  induction ws with
  | nil =>
      rintro o fuel ⟨w, hWord, hId⟩ hFuel
      have hEnd := readWord_eq_some hWord
      have hFuelEq : fuel = fuel - 1 + 1 := by
        omega
      rw [hFuelEq]
      refine ⟨(decodeExitFormat w o).toIr, ?_, ?_,
        (decodeLoop_exit hShort (by omega) hWord hId _).1⟩
      · rw [opcode_toIr]
        exact opcode_decodeExitFormat hId
      · rw [toIr_of_plain .Exit (decodeOpcode_mem _ _)
          (by decide)]
        rfl
  | cons w ws ih =>
      rintro o fuel ⟨hWord, hRest⟩ hFuel
      have hEnd := readWord_eq_some hWord
      have hFuelEq : fuel = fuel - 1 + 1 := by
        omega
      rcases ih (o + 8) (fuel - 1) hRest (by omega) with
        ⟨exit, hOp, hGuard, hLoop⟩
      refine ⟨exit, hOp, hGuard, ?_⟩
      rw [hFuelEq, decodeLoop_intWord hShort hWord, hLoop]
      rfl

end MaxwellDecoder

------
-- From Bytes to Results
------

namespace SpirvEmitter

open MaxwellDecoder

/-
  The binary is decoded, and under the standard's opcode
  numbers the function emitted for it leaves in the variables
  of the registers what the words leave in the registers.
-/
def Translated
    (data : List U8)
    (stage : ShaderStage)
    (e : SpirvEmitter)
    (ws : List IntWord) : Prop :=
  ∃ p insts,
    decode data stage = some p ∧
      instructionsOf (emit e p) = some insts ∧
        ∀ (m : Machine) (regs : Registers),
          Matches (registerVars e p) regs m →
            ∃ m',
              runFunction standardReading
                  (functionBody insts) m = some m' ∧
                Matches (registerVars e p)
                  (ws.foldl (fun regs w => w.step regs) regs)
                  m'

/- Whatever is behind the `EXIT`. -/
theorem translated_of_startsWith
    {data : List U8}
    {ws : List IntWord}
    (stage : ShaderStage)
    (e : SpirvEmitter)
    (hShort : data.length < 2 ^ 32 - 8)
    (hStarts : StartsWith data 0 ws) :
    Translated data stage e ws := by
  rcases Option.isSome_iff_exists.mp
    (decode_isSome data stage hShort) with ⟨p, hDecode⟩
  have hLoop := decode_loop hDecode
  rw [sizedData_of_lt (by omega)] at hLoop
  rcases decodeLoop_startsWith hShort ws 0 _ hStarts
    (Nat.lt_succ_self _) with ⟨exit, hExit, hGuard, hInsts⟩
  have hInt : IntProgram p (instsFrom 0 ws) exit := by
    refine ⟨Option.some.inj (hLoop.symm.trans hInsts), ?_,
      hExit, hGuard⟩
    intro inst hInst
    rcases exists_word_of_mem ws 0 inst hInst with ⟨w, pc, hW⟩
    rw [hW]
    exact w.intInst pc
  have hCompare :
      ∀ inst ∈ instsFrom 0 ws,
        ReadsCompare standardReading inst := by
    intro inst hInst hOp
    rcases exists_word_of_mem ws 0 inst hInst with ⟨w, pc, hW⟩
    rw [hW] at hOp
    rcases w with ⟨_, op, _, _⟩
    cases op <;> cases hOp
  rcases computes_of_reads readsNames_standard hInt hCompare e
    with ⟨insts, hEmit, hRuns⟩
  refine ⟨p, insts, hDecode, hEmit, ?_⟩
  intro m regs hMatches
  rcases hRuns m regs hMatches with ⟨m', hRun, hHolds, _⟩
  refine ⟨m', hRun, ?_⟩
  rw [hInt.instructions, irRun_append_exit hExit,
    irRun_instsFrom] at hHolds
  exact hHolds

/- Register 3 gets the sum of registers 1 and 2. -/
def sumWord : IntWord :=
  ⟨0x18000202240, .IADD, by decide, by decide⟩

theorem translated_of_startsWith_sum :
    Translated (bytesOfWords [0x18000202240, 0x1000]) .VertexB
      {} [sumWord] :=
  translated_of_startsWith _ _ (by decide)
    ⟨by decide, 0x1000, by decide, by decide⟩

end SpirvEmitter

end M1Switch
