import M1Switch.Gpu.Shader.MaxwellDecoder.Encoding
import M1Switch.Gpu.Shader.SpirvEmitter.WordMachine

/-
  Operand modifiers of ALU instructions.

  The decoder reads negation, absolute value and saturation
  from an instruction word and passes them on in the operands;
  the emitter reads none of them.  What it stores is the plain
  operation, which is the modified one only where the
  modifiers cancel or change nothing.

  Key definitions include:
    * `operation`
    * `modifiedResult`

  Main results:
    * `modifiers_instOfWords`
    * `execWords_word`
    * `modifiersApplied_iff`
-/

------
-- Modified Operations
------

namespace M1Switch

namespace SpirvEmitter

open MaxwellDecoder

structure Modifiers where
  neg0 : Bool := false
  neg1 : Bool := false
  abs0 : Bool := false
  abs1 : Bool := false
  saturate : Bool := false
deriving DecidableEq, Repr

/- The modifiers an instruction carries. -/
def modifiersOf (inst : ShaderInstruction) : Modifiers :=
  { neg0 := inst.src0.negate
    neg1 := inst.src1.negate
    abs0 := inst.src0.absolute
    abs1 := inst.src1.absolute
    saturate := inst.dest.saturate }

/- The formats that have modifiers and a register. -/
def modifierFormats : List MaxwellFormat :=
  [.Alu3In, .Alu2In]

/- The modifier bits of a word. -/
def wordModifiers (raw0 : U64) : Modifiers :=
  { neg0 := bit raw0 45
    neg1 := bit raw0 46
    abs0 := bit raw0 47
    abs1 :=
      if detectFormat (opcodeIdOf raw0) = .Alu3In then
        bit raw0 48
      else false
    saturate := bit raw0 49 }

/- Operations on floats, and those that give one. -/
def floatSources : List ShaderOpcode :=
  [.FMAD, .FADD, .FMUL, .FMAX, .FMIN, .FSAT, .F2F, .F2F_C,
    .F2I, .FSET]

def floatResults : List ShaderOpcode :=
  [.FMAD, .FADD, .FMUL, .FMAX, .FMIN, .FSAT, .F2F, .F2F_C,
    .I2F, .FSET]

/-
  What an opcode does with its sources.  Conversions in one
  format and `PRMT` copy; a `BFI` inserts 32 bits.
-/
def operation
    (op : ShaderOpcode)
    (a b c : BitVec 32) : BitVec 32 :=
  match op with
  | .FMAD => Binary32.add (Binary32.mul a b) c
  | .FADD => Binary32.add a b
  | .FMUL => Binary32.mul a b
  | .FMAX => Binary32.max a b
  | .FMIN => Binary32.min a b
  | .FSAT => Binary32.clamp a 0 Binary32.one
  | .FSET => if Binary32.Equal a b then Binary32.one else 0
  | .IADD3 => a + b + c
  | .IMAD => a * b + c
  | .IADD => a + b
  | .ISUB => a - b
  | .IMUL => a * b
  | .IABS => a.abs
  | .INEG => -a
  | .IMNMX => if b.sle a then a else b
  | .LEA => a + b <<< 2
  | .BFE => (a >>> b) &&& ((1#32 <<< c) - 1)
  | .BFI => (a &&& ~~~((-1#32) <<< c)) ||| (b <<< c)
  | .I2F => Binary32.ofInt a.toInt
  | .F2I => Binary32.toInt a
  | _ => a

/- The absolute value is taken before the negation. -/
def modified
    (isFloat negate absolute : Bool)
    (x : BitVec 32) : BitVec 32 :=
  let y :=
    if absolute then
      if isFloat then Binary32.abs x else x.abs
    else x
  if negate then
    if isFloat then Binary32.neg y else -y
  else y

/- Clamped to 0 and 1. -/
def saturated
    (isFloat : Bool)
    (x : BitVec 32) : BitVec 32 :=
  if isFloat then Binary32.clamp x 0 Binary32.one
  else if x.slt 0 then 0
  else if (1 : BitVec 32).slt x then 1
  else x

/- The operation with its modifiers. -/
def modifiedResult
    (op : ShaderOpcode)
    (mods : Modifiers)
    (a b c : BitVec 32) : BitVec 32 :=
  let isFloat := floatSources.contains op
  let result :=
    operation op (modified isFloat mods.neg0 mods.abs0 a)
      (modified isFloat mods.neg1 mods.abs1 b) c
  if mods.saturate then
    saturated (floatResults.contains op) result
  else result

------
-- Modifiers That Cancel
------

/-
  The modifiers change no result; `same` says that the first
  two sources are one register.
-/
def cancels
    (op : ShaderOpcode)
    (mods : Modifiers)
    (same : Bool) : Bool :=
  match op with
  | .I2I | .F2F | .F2F_C | .PRMT | .INEG | .I2F | .F2I =>
      !mods.neg0 && !mods.abs0 && !mods.saturate
  | .IABS => !mods.saturate
  | .FSAT => !mods.neg0 && !mods.abs0
  | .FMUL | .FMAD | .IMUL | .IMAD =>
      !mods.saturate && mods.neg0 == mods.neg1 &&
        mods.abs0 == mods.abs1 && (!mods.abs0 || same)
  | .ISUB =>
      same && mods.neg0 == mods.neg1 &&
        mods.abs0 == mods.abs1
  | _ => false

/- Opcodes whose code has numbers the machine reads. -/
def readOpcodes : List ShaderOpcode :=
  [.FMAD, .IADD3, .IMAD, .PRMT, .FADD, .FMUL, .FMAX, .FMIN,
    .FSAT, .IADD, .ISUB, .IMUL, .IABS, .INEG, .I2F, .I2I,
    .F2F, .F2I, .F2F_C]

/- Contents of the first source and of the others. -/
def samples : List (BitVec 32 × BitVec 32) :=
  [(0x3F800000, 0x3F800000), (0xBF800000, 0xBF800000),
    (0x40000000, 0x40000000), (0, 0),
    (0x80000000, 0x80000000), (2, 2),
    (0xFFFFFFFF, 0xFFFFFFFF), (0x60000000, 0x60000000),
    (0x3F800000, 0xC0000000), (0xBF800000, 0x40000000),
    (2, 0xFFFFFFFD), (0xFFFFFFFE, 3)]

/- The third source holds one of the two contents. -/
def Distinguishes
    (op : ShaderOpcode)
    (mods : Modifiers)
    (a b : BitVec 32) : Prop :=
  modifiedResult op mods a b a ≠ operation op a b a ∧
    modifiedResult op mods a b b ≠ operation op a b b

instance
    (op : ShaderOpcode)
    (mods : Modifiers)
    (a b : BitVec 32) :
    Decidable (Distinguishes op mods a b) :=
  inferInstanceAs (Decidable (_ ∧ _))

theorem samples_distinguish :
    ∀ op ∈ readOpcodes, ∀ n0 n1 a0 a1 s same : Bool,
      Modifiers.mk n0 n1 a0 a1 s ≠ {} →
        (a1 = true → op ∈ opcodesOf .Alu3In) →
          cancels op ⟨n0, n1, a0, a1, s⟩ same = false →
            ∃ ab ∈ samples, (same = true → ab.1 = ab.2) ∧
              Distinguishes op ⟨n0, n1, a0, a1, s⟩
                ab.1 ab.2 := by
  decide +kernel

theorem abs_neg (x : BitVec 32) : (-x).abs = x.abs := by
  by_cases hZero : x = 0#32
  · rw [hZero]
    rfl
  by_cases hMin : x = BitVec.intMin 32
  · rw [hMin]
    rfl
  rw [BitVec.abs_eq, BitVec.abs_eq, BitVec.msb_neg]
  cases x.msb with
  | true => simp [hZero, hMin]
  | false => simp [hZero, hMin]

theorem abs_abs (x : BitVec 32) : x.abs.abs = x.abs := by
  cases hMsb : x.msb with
  | true =>
      have hAbs : x.abs = -x := by
        rw [BitVec.abs_eq, hMsb, if_pos rfl]
      rw [hAbs, abs_neg, hAbs]
  | false =>
      have hAbs : x.abs = x := by
        rw [BitVec.abs_eq, hMsb, if_neg Bool.false_ne_true]
      rw [hAbs, hAbs]

theorem abs_mul_abs_self (x : BitVec 32) :
    x.abs * x.abs = x * x := by
  rw [BitVec.abs_eq]
  cases x.msb with
  | true => exact BitVec.neg_mul_neg x x
  | false => rfl

variable {op : ShaderOpcode} {mods : Modifiers}
variable {same : Bool} {a b : BitVec 32}

/- A product that keeps its value under the modifiers. -/
theorem mul_modified
    {mul : BitVec 32 → BitVec 32 → BitVec 32}
    (isFloat : Bool)
    (hNeg :
      ∀ a b,
        mul (modified isFloat true false a)
          (modified isFloat true false b) = mul a b)
    (hAbs :
      ∀ a,
        mul (modified isFloat false true a)
          (modified isFloat false true a) = mul a a)
    {negate absolute : Bool}
    (hSame : absolute = true → a = b) :
    mul (modified isFloat negate absolute a)
        (modified isFloat negate absolute b) = mul a b := by
  cases absolute with
  | false =>
      cases negate with
      | false => rfl
      | true => exact hNeg a b
  | true =>
      rw [hSame rfl]
      cases negate with
      | false => exact hAbs b
      | true =>
          have hBoth :
              ∀ x,
                modified isFloat true true x =
                  modified isFloat true false
                    (modified isFloat false true x) :=
            fun _ => rfl
          rw [hBoth, hNeg, hAbs]

theorem mul_modified_float
    {negate absolute : Bool}
    (hSame : absolute = true → a = b) :
    Binary32.mul (modified true negate absolute a)
        (modified true negate absolute b) =
      Binary32.mul a b :=
  mul_modified true Binary32.mul_neg_neg
    Binary32.mul_abs_self hSame

theorem mul_modified_int
    {negate absolute : Bool}
    (hSame : absolute = true → a = b) :
    modified false negate absolute a *
        modified false negate absolute b = a * b :=
  mul_modified false BitVec.neg_mul_neg abs_mul_abs_self hSame

theorem clamp_unit_idem (x : BitVec 32) :
    Binary32.clamp (Binary32.clamp x 0 Binary32.one) 0
        Binary32.one =
      Binary32.clamp x 0 Binary32.one :=
  Binary32.clamp_clamp x (by decide) (by decide)

theorem abs_modified (negate absolute : Bool) :
    (modified false negate absolute a).abs = a.abs := by
  cases negate with
  | false =>
      cases absolute with
      | false => rfl
      | true => exact abs_abs a
  | true =>
      cases absolute with
      | false => exact abs_neg a
      | true => exact (abs_neg a.abs).trans (abs_abs a)

/- Modifiers that cancel leave the operation. -/
theorem modifiedResult_of_cancels
    (hCancels : cancels op mods same = true)
    (hSame : same = true → a = b)
    (c : BitVec 32) :
    modifiedResult op mods a b c = operation op a b c := by
  rcases mods with ⟨n0, n1, a0, a1, s⟩
  unfold cancels at hCancels
  split at hCancels
  -- Copies, conversions and `INEG` have one source.
  iterate 7
    · simp only [Bool.and_eq_true, Bool.not_eq_true']
        at hCancels
      rcases hCancels with ⟨⟨rfl, rfl⟩, rfl⟩
      rfl
  · rw [Bool.not_eq_true'] at hCancels
    subst hCancels
    exact abs_modified n0 a0
  · simp only [Bool.and_eq_true, Bool.not_eq_true']
      at hCancels
    rcases hCancels with ⟨rfl, rfl⟩
    cases s with
    | false => rfl
    | true => exact clamp_unit_idem a
  -- Products, of equal factors where the sign is dropped.
  iterate 4
    · simp only [Bool.and_eq_true, Bool.not_eq_true',
        beq_iff_eq, Bool.or_eq_true] at hCancels
      rcases hCancels with ⟨⟨⟨rfl, rfl⟩, rfl⟩, hAbs⟩
      have hFactors : a0 = true → a = b := by
        intro hIs
        apply hSame
        rcases hAbs with hNot | hIsSame
        · rw [hNot] at hIs
          cases hIs
        · exact hIsSame
      first
      | exact mul_modified_float hFactors
      | exact
          congrArg (Binary32.add · c)
            (mul_modified_float hFactors)
      | exact mul_modified_int hFactors
      | exact congrArg (· + c) (mul_modified_int hFactors)
  -- The difference of a register and itself.
  · simp only [Bool.and_eq_true, beq_iff_eq] at hCancels
    rcases hCancels with ⟨⟨hIs, rfl⟩, rfl⟩
    rw [hSame hIs]
    have hZero :
        modified false n0 a0 b - modified false n0 a0 b =
          b - b := by
      rw [BitVec.sub_self, BitVec.sub_self]
    cases s with
    | false => exact hZero
    | true =>
        show saturated false
            (modified false n0 a0 b - modified false n0 a0 b) =
          b - b
        rw [hZero, BitVec.sub_self]
        rfl
  · cases hCancels

/- Modifiers that do not cancel show on some contents. -/
theorem exists_distinguishes
    (hOp : op ∈ readOpcodes)
    (hSome : mods ≠ {})
    (hFormat : mods.abs1 = true → op ∈ opcodesOf .Alu3In)
    (hCancels : cancels op mods same = false) :
    ∃ a b, (same = true → a = b) ∧
      Distinguishes op mods a b := by
  rcases mods with ⟨n0, n1, a0, a1, s⟩
  rcases samples_distinguish op hOp n0 n1 a0 a1 s same hSome
      hFormat hCancels with ⟨⟨a, b⟩, _, hSame, hDiffer⟩
  exact ⟨a, b, hSame, hDiffer⟩

------
-- What Is Emitted Without Modifiers
------

open StraightLine MaxwellDecoder

variable {gprMap : GprMap} {regs : Registers}
variable {inst : ShaderInstruction} {plan : Plan}
variable {e : SpirvEmitter} {m : Machine}

/- The opcodes left have an instruction nothing reads. -/
def unreadOpcodes : List ShaderOpcode :=
  [.IMNMX, .LEA, .FSET, .BFE, .BFI]

theorem read_or_unread :
    ∀ fmt ∈ modifierFormats, ∀ op ∈ opcodesOf fmt,
      op ∈ readOpcodes ∨ op ∈ unreadOpcodes := by
  decide

theorem cancels_unread
    (hUnread : op ∈ unreadOpcodes) :
    cancels op mods same = false := by
  simp only [unreadOpcodes, List.mem_cons, List.not_mem_nil,
    or_false] at hUnread
  rcases hUnread with rfl | rfl | rfl | rfl | rfl
  all_goals rfl

/- The template computes the plain operation. -/
theorem wordValue_of_read
    (hOp : inst.opcode ∈ readOpcodes)
    (hPlan : planOf inst = some plan)
    (regs : Registers) :
    wordValue plan.template
        ((srcRegs inst plan.arity).map regs) =
      some (.word
        (operation inst.opcode (regs inst.src0.regIndex)
          (regs inst.src1.regIndex)
          (regs inst.src2.regIndex))) := by
  simp only [readOpcodes, List.mem_cons, List.not_mem_nil,
    or_false] at hOp
  unfold planOf at hPlan
  rcases hOp with hOp | hOp | hOp | hOp | hOp | hOp | hOp |
    hOp | hOp | hOp | hOp | hOp | hOp | hOp | hOp | hOp | hOp |
    hOp | hOp
  all_goals
    rw [hOp] at hPlan ⊢
    first
    | cases hPlan
      rfl
    | rcases Option.ite_none_right_eq_some.mp hPlan with
        ⟨_, hPlan⟩
      cases hPlan
      rfl

/- A line no machine runs. -/
def Unread (op : LineOp) : Prop :=
  match op.form with
  | .core opcode =>
      standardReading opcode = none ∧
        opcode ∉ [12, 110, 111, 129, 133]
  | .ext _ => False
  | .const _ => True

instance (op : LineOp) : Decidable (Unread op) :=
  match op with
  | ⟨.core _, _⟩ => inferInstanceAs (Decidable (_ ∧ _))
  | ⟨.ext _, _⟩ => inferInstanceAs (Decidable False)
  | ⟨.const _, _⟩ => inferInstanceAs (Decidable True)

theorem execWordInst_unread
    {opcode : Nat}
    {operands : List Nat}
    (hRead : standardReading opcode = none)
    (hFloat : opcode ∉ [12, 110, 111, 129, 133]) :
    execWordInst ⟨opcode, operands⟩ m = none := by
  have hEval : ∀ xs, floatEval opcode xs = none := by
    intro xs
    unfold floatEval
    split
    all_goals
      first
      | rfl
      | exact absurd (by decide) hFloat
  have hExt : opcode ≠ SpirvOp.ExtInst :=
    fun hIs => hFloat (hIs ▸ (by decide))
  unfold execWordInst execInst
  dsimp only
  rw [hRead]
  dsimp only
  unfold execFloatInst
  rw [if_neg hExt]
  dsimp only
  split
  · unfold Machine.compute
    simp [hEval]
  · rfl

theorem execWordInst_placed_unread
    {q : Placed LineOp}
    (hUnread : Unread q.op) :
    execWordInst (placedInst e q) m = none := by
  rcases q with ⟨id, ⟨form, type⟩, operands⟩
  cases form with
  | core opcode =>
      exact execWordInst_unread hUnread.1 hUnread.2
  | ext instruction => exact hUnread.elim
  | const value =>
      exact execWordInst_unread rfl (by decide)

theorem exists_unread
    (hOp : inst.opcode ∈ unreadOpcodes)
    (hPlan : planOf inst = some plan) :
    ∃ l ∈ plan.template.lines, Unread l.op := by
  simp only [unreadOpcodes, List.mem_cons, List.not_mem_nil,
    or_false] at hOp
  unfold planOf at hPlan
  rcases hOp with hOp | hOp | hOp | hOp | hOp
  all_goals
    rw [hOp] at hPlan
    cases hPlan
    decide

/- Their code stops every machine. -/
theorem execWords_of_unread
    (hOp : inst.opcode ∈ unreadOpcodes)
    (hMapped : Mapped gprMap inst)
    (hActive : Active inst plan)
    (hGate : plan.gate = .always)
    (hDest : plan.dest = .gpr)
    (hNext : 0 < e.nextId) :
    execWords (emittedFor inst gprMap e) m = none := by
  rcases exists_unread hOp hActive.1 with ⟨l, hL, hUnread⟩
  have hPlaced :
      ∃ q ∈ place
          (templateArgs
            (loaded gprMap (srcRegs inst plan.arity) e)
            (loadIds gprMap e.nextId
              (srcRegs inst plan.arity)))
          (loaded gprMap (srcRegs inst plan.arity) e).nextId 0
          plan.template.lines, q.op = l.op :=
    exists_mem_place hL
  rcases hPlaced with ⟨q, hQ, hSame⟩
  have hMem :
      placedInst (loaded gprMap (srcRegs inst plan.arity) e)
          q ∈ emittedFor inst gprMap e := by
    rw [emittedFor_of_active hMapped hActive hGate hDest hNext]
    apply List.mem_append_right
    apply List.mem_append_left
    exact List.mem_map_of_mem hQ
  apply execWords_unread hMem
  intro m
  exact execWordInst_placed_unread (hSame ▸ hUnread)

------
-- Modifiers Of Decoded Words
------

open MaxwellDecoder

variable {raw0 raw1 : U64} {pc : Nat}

/- A word with a modifier of its format set. -/
def HasModifiers (raw0 : U64) : Prop :=
  detectFormat (opcodeIdOf raw0) ∈ modifierFormats ∧
    wordModifiers raw0 ≠ {}

/-
  Whatever the registers hold, what is emitted for the word's
  instruction leaves the modified result in the variable of
  its destination.
-/
def ModifiersApplied (raw0 raw1 : U64) : Prop :=
  ∀ (pc : Nat) (p : ShaderProgram) (atEntry e : SpirvEmitter)
    (regs : Registers) (m : Machine),
    instOfWords raw0 raw1 pc ∈ p.instructions →
      0 < atEntry.nextId → 0 < e.nextId →
        Provides (gprMapOf p atEntry) regs e m →
          ∃ m',
            execWords
                (emittedFor (instOfWords raw0 raw1 pc)
                  (gprMapOf p atEntry) e) m = some m' ∧
              m'.mem
                  (getGpr (gprMapOf p atEntry)
                    (instOfWords raw0 raw1 pc).dest.regIndex) =
                .word
                  (modifiedResult
                    (instOfWords raw0 raw1 pc).opcode
                    (wordModifiers raw0)
                    (regs
                      (instOfWords raw0 raw1 pc).src0.regIndex)
                    (regs
                      (instOfWords raw0 raw1 pc).src1.regIndex)
                    (regs
                      (instOfWords raw0 raw1 pc).src2.regIndex))

/- Nothing overrides the operands of these formats. -/
theorem instOfWords_of_format
    (hFmt :
      detectFormat (opcodeIdOf raw0) ∈ modifierFormats) :
    instOfWords raw0 raw1 pc =
      (decodeAluFormat raw0 pc
        (detectFormat (opcodeIdOf raw0))).toIrOperands := by
  have hDecode :
      decodeFormat raw0 raw1 pc
          (detectFormat (opcodeIdOf raw0)) =
        decodeAluFormat raw0 pc
          (detectFormat (opcodeIdOf raw0)) := by
    revert hFmt
    generalize detectFormat (opcodeIdOf raw0) = fmt
    intro hFmt
    rcases List.mem_pair.mp hFmt with hIs | hIs
    all_goals
      rw [hIs]
      rfl
  have hPlain :
      ∀ fmt ∈ modifierFormats, ∀ op ∈ opcodesOf fmt,
        DecodedInst.hasBranchTarget op = false ∧
          DecodedInst.isTexture op = false ∧ op ≠ .S2R := by
    decide
  rcases hPlain _ hFmt _ (wordOpcode_mem raw0) with
    ⟨hLabel, hTex, hS2r⟩
  have hOp :
      (decodeAluFormat raw0 pc
        (detectFormat (opcodeIdOf raw0))).opcode =
        wordOpcode raw0 := rfl
  rw [← hOp] at hLabel hTex hS2r
  unfold instOfWords
  rw [hDecode]
  unfold DecodedInst.toIr
  dsimp only
  rw [if_neg (Bool.not_eq_true _ ▸ hLabel),
    if_neg (Bool.not_eq_true _ ▸ hTex), if_neg hS2r]

/- The fields of a word in the operands. -/
structure ReadsFields
    (raw0 : U64)
    (inst : ShaderInstruction) : Prop where
  opcode : inst.opcode = wordOpcode raw0
  src0 : inst.src0.regIndex = bits raw0 19 13
  src1 : inst.src1.regIndex = bits raw0 26 20
  dest : inst.dest.regIndex = bits raw0 44 39
  modifiers : modifiersOf inst = wordModifiers raw0

theorem mod_bits (v : U64) (hi lo : Nat)
    (hWidth : hi - lo + 1 ≤ 8) :
    bits v hi lo % 256 = bits v hi lo :=
  Nat.mod_eq_of_lt
    (lt_of_lt_of_le (bits_lt v hi lo)
      (Nat.pow_le_pow_right (by decide) hWidth))

/- The decoder passes the modifiers on. -/
theorem modifiers_instOfWords
    (hFmt :
      detectFormat (opcodeIdOf raw0) ∈ modifierFormats) :
    ReadsFields raw0 (instOfWords raw0 raw1 pc) := by
  rw [instOfWords_of_format hFmt]
  rcases List.mem_pair.mp hFmt with hIs | hIs
  all_goals
    constructor
    · rfl
    all_goals
      simp [hIs, modifiersOf, wordModifiers, decodeAluFormat,
        aluField, DecodedInst.toIrOperands, ShaderOperand.gpr,
        ShaderOperand.regIndex, mod_bits]

/- Only the format of three sources has the second one. -/
theorem alu3In_of_abs1
    (raw0 : U64)
    (hAbs : (wordModifiers raw0).abs1 = true) :
    wordOpcode raw0 ∈ opcodesOf .Alu3In := by
  have hMem := wordOpcode_mem raw0
  unfold wordModifiers at hAbs
  dsimp only at hAbs
  split_ifs at hAbs with hFmt
  rw [hFmt] at hMem
  exact hMem

/- They have a plan for a register. -/
theorem active_of_modifierFormat
    (hFmt :
      detectFormat (opcodeIdOf raw0) ∈ modifierFormats) :
    ∃ plan, Active (instOfWords raw0 raw1 pc) plan ∧
      plan.gate = .always ∧ plan.dest = .gpr := by
  have hGpr :
      ∀ fmt ∈ modifierFormats,
        fmt ∈ MaxwellFormat.MemoryStore :: gprAluFormats ∧
          ∀ op ∈ opcodesOf fmt, op ≠ .SHL ∧ op ≠ .SHR := by
    decide
  rcases hGpr _ hFmt with ⟨hIn, hShift⟩
  rcases instOfWords_eq raw1 pc hIn with
    ⟨hOp, hCount, hDest⟩
  have hMem := wordOpcode_mem raw0
  have hNoShift := hShift _ hMem
  rw [← hOp] at hMem hNoShift
  exact active_of_format hIn hMem hNoShift hCount hDest

------
-- When Modifiers Are Applied
------

variable {p : ShaderProgram} {atEntry e : SpirvEmitter}

/- What is emitted leaves the plain operation. -/
theorem execWords_word
    (hFmt :
      detectFormat (opcodeIdOf raw0) ∈ modifierFormats)
    (hOp : wordOpcode raw0 ∈ readOpcodes)
    (hInst : instOfWords raw0 raw1 pc ∈ p.instructions)
    (hEntry : 0 < atEntry.nextId)
    (hNext : 0 < e.nextId)
    (hProvides : Provides (gprMapOf p atEntry) regs e m) :
    ∃ m',
      execWords
          (emittedFor (instOfWords raw0 raw1 pc)
            (gprMapOf p atEntry) e) m = some m' ∧
        m'.mem
            (getGpr (gprMapOf p atEntry)
              (instOfWords raw0 raw1 pc).dest.regIndex) =
          .word
            (operation (instOfWords raw0 raw1 pc).opcode
              (regs (instOfWords raw0 raw1 pc).src0.regIndex)
              (regs (instOfWords raw0 raw1 pc).src1.regIndex)
              (regs
                (instOfWords raw0 raw1 pc).src2.regIndex)) := by
  have hFields : ReadsFields raw0 (instOfWords raw0 raw1 pc) :=
    modifiers_instOfWords hFmt
  rcases active_of_modifierFormat hFmt with
    ⟨plan, hActive, hGate, hDest⟩
  have hMapped :=
    mapped_of_regular (regular_instOfWords raw0 raw1 pc) hInst
      hEntry
  rw [← hFields.opcode] at hOp
  exact execWords_emittedFor hMapped hActive hGate hDest hNext
    hProvides (wordValue_of_read hOp hActive.1 regs)

/- Nothing is left where an instruction has no meaning. -/
theorem execWords_unreadWord
    (hFmt :
      detectFormat (opcodeIdOf raw0) ∈ modifierFormats)
    (hOp : wordOpcode raw0 ∈ unreadOpcodes)
    (hInst : instOfWords raw0 raw1 pc ∈ p.instructions)
    (hEntry : 0 < atEntry.nextId)
    (hNext : 0 < e.nextId) :
    execWords
        (emittedFor (instOfWords raw0 raw1 pc)
          (gprMapOf p atEntry) e) m = none := by
  have hFields : ReadsFields raw0 (instOfWords raw0 raw1 pc) :=
    modifiers_instOfWords hFmt
  rcases active_of_modifierFormat hFmt with
    ⟨plan, hActive, hGate, hDest⟩
  have hMapped :=
    mapped_of_regular (regular_instOfWords raw0 raw1 pc) hInst
      hEntry
  rw [← hFields.opcode] at hOp
  exact execWords_of_unread hOp hMapped hActive hGate hDest
    hNext

/- The float constants of the head are two ids below. -/
theorem constants_preambleOf
    (kind : StageKind)
    (tex : Bool) :
    (preambleOf kind tex).constF32Zero <
        (preambleOf kind tex).nextId ∧
      (preambleOf kind tex).constF32One <
        (preambleOf kind tex).nextId ∧
        (preambleOf kind tex).constF32Zero ≠
          (preambleOf kind tex).constF32One := by
  cases kind <;> cases tex <;> decide +kernel

theorem constants_preambled
    (p : ShaderProgram)
    (e : SpirvEmitter) :
    (preambled p e).constF32Zero < (preambled p e).nextId ∧
      (preambled p e).constF32One < (preambled p e).nextId ∧
        (preambled p e).constF32Zero ≠
          (preambled p e).constF32One := by
  have hHead := sameHead_preambled p e
  rw [hHead.constF32Zero, hHead.constF32One, hHead.nextId]
  exact constants_preambleOf _ _

/- Variables can hold any registers. -/
theorem exists_matches
    (p : ShaderProgram)
    (e : SpirvEmitter)
    (regs : Registers) :
    ∃ mem : Nat → SpirvValue,
      ∀ r v, gprMapOf p e r = some v →
        mem v = .word (regs r) := by
  have hContent :
      ∀ v, ∃ x : SpirvValue,
        ∀ r, gprMapOf p e r = some v → x = .word (regs r) := by
    intro v
    by_cases hVar : ∃ r, gprMapOf p e r = some v
    · rcases hVar with ⟨r, hR⟩
      refine ⟨.word (regs r), ?_⟩
      intro r' hR'
      rw [separate_gprMapOf p e r r' v hR hR']
    · exact ⟨.word 0, fun r hR => absurd ⟨r, hR⟩ hVar⟩
  choose mem hMem using hContent
  exact ⟨mem, fun r v hV => hMem v r hV⟩

/- A machine in front of the first instruction. -/
theorem exists_provides
    (p : ShaderProgram)
    (regs : Registers) :
    ∃ m,
      Provides (gprMapOf p (entered p (preambled p {}))) regs
        (atLoop p (preambled p {})) m := by
  rcases exists_matches p (entered p (preambled p {})) regs with
    ⟨mem, hMem⟩
  rcases constants_preambled p {} with ⟨hZero, hOne, hNe⟩
  have hFrame :
      Adds Sized (preambled p {}) (atLoop p (preambled p {})) :=
    adds_atLoop frameForms_sized p
  have hZeroId :=
    congrArg HeadIds.constF32Zero hFrame.headIds
  have hOneId :=
    congrArg HeadIds.constF32One hFrame.headIds
  have hSame :
      (atLoop p (preambled p {})).constF32Zero =
          (preambled p {}).constF32Zero ∧
        (atLoop p (preambled p {})).constF32One =
          (preambled p {}).constF32One :=
    ⟨hZeroId, hOneId⟩
  refine
    ⟨{ env :=
          Function.update
            (Function.update (fun _ => none)
              (preambled p {}).constF32Zero
              (some (.word 0)))
            (preambled p {}).constF32One
            (some (.word Binary32.one))
       mem := mem }, hMem, ?_, ?_⟩
  · rw [hSame.1]
    refine ⟨hZero.trans_le hFrame.nextId, ?_⟩
    show Function.update _ _ _ _ = _
    rw [Function.update_of_ne hNe, Function.update_self]
  · rw [hSame.2]
    exact ⟨hOne.trans_le hFrame.nextId,
      Function.update_self _ _ _⟩

/- The first two sources are one register. -/
def sameSources (raw0 : U64) : Bool :=
  bits raw0 19 13 == bits raw0 26 20

/- The modifiers of the word change no result. -/
def wordCancels (raw0 : U64) : Bool :=
  cancels (wordOpcode raw0) (wordModifiers raw0)
    (sameSources raw0)

theorem applied_of_cancels
    (hFmt :
      detectFormat (opcodeIdOf raw0) ∈ modifierFormats)
    (hCancels : wordCancels raw0 = true) :
    ModifiersApplied raw0 raw1 := by
  intro pc p atEntry e regs m hInst hEntry hNext hProvides
  have hFields : ReadsFields raw0 (instOfWords raw0 raw1 pc) :=
    modifiers_instOfWords hFmt
  have hRead : wordOpcode raw0 ∈ readOpcodes := by
    rcases read_or_unread _ hFmt _ (wordOpcode_mem raw0) with
      hRead | hUnread
    · exact hRead
    · rw [wordCancels, cancels_unread hUnread] at hCancels
      cases hCancels
  rcases execWords_word hFmt hRead hInst hEntry hNext hProvides
    with ⟨m', hRun, hValue⟩
  have hSame :
      sameSources raw0 = true →
        regs (instOfWords raw0 raw1 pc).src0.regIndex =
          regs (instOfWords raw0 raw1 pc).src1.regIndex := by
    intro hSame
    rw [hFields.src0, hFields.src1, beq_iff_eq.mp hSame]
  refine ⟨m', hRun, ?_⟩
  rw [hValue, hFields.opcode,
    modifiedResult_of_cancels hCancels hSame]

/- Some contents of the registers show the difference. -/
theorem not_applied_of_not_cancels
    (hMods : HasModifiers raw0)
    (hCancels : wordCancels raw0 = false) :
    ¬ ModifiersApplied raw0 raw1 := by
  intro hApplied
  rcases hMods with ⟨hFmt, hSome⟩
  have hFields : ReadsFields raw0 (instOfWords raw0 raw1 0) :=
    modifiers_instOfWords hFmt
  let p := wordProgram raw0 raw1
  have hInst :
      instOfWords raw0 raw1 0 ∈ p.instructions :=
    List.mem_cons_self
  have hEntry : 0 < (entered p (preambled p {})).nextId :=
    Nat.succ_pos _
  have hNext : 0 < (atLoop p (preambled p {})).nextId :=
    (nextId_preambled_pos p {}).trans_le
      (adds_atLoop frameForms_sized p).nextId
  rcases read_or_unread _ hFmt _ (wordOpcode_mem raw0) with
    hRead | hUnread
  · rcases exists_distinguishes hRead hSome
        (alu3In_of_abs1 raw0) hCancels with
      ⟨a, b, hSame, hDiffer⟩
    let regs : Registers :=
      fun r => if r = bits raw0 19 13 then a else b
    rcases exists_provides p regs with ⟨m, hProvides⟩
    rcases hApplied 0 p _ _ regs m hInst hEntry hNext hProvides
      with ⟨m', hRun, hValue⟩
    rcases execWords_word hFmt hRead hInst hEntry hNext
      hProvides with ⟨m'', hRun', hValue'⟩
    cases hRun.symm.trans hRun'
    have hEqual :=
      SpirvValue.word.inj (hValue.symm.trans hValue')
    have hFirst : regs (bits raw0 19 13) = a := if_pos rfl
    have hSecond : regs (bits raw0 26 20) = b := by
      by_cases hIs : bits raw0 26 20 = bits raw0 19 13
      · exact (if_pos hIs).trans
          (hSame (beq_iff_eq.mpr hIs.symm))
      · exact if_neg hIs
    rw [hFields.opcode, hFields.src0, hFields.src1, hFirst,
      hSecond] at hEqual
    rcases ite_eq_or_eq
        ((instOfWords raw0 raw1 0).src2.regIndex =
          bits raw0 19 13) a b with hThird | hThird
    · rw [show regs _ = a from hThird] at hEqual
      exact hDiffer.1 hEqual
    · rw [show regs _ = b from hThird] at hEqual
      exact hDiffer.2 hEqual
  · rcases exists_provides p (fun _ => 0) with ⟨m, hProvides⟩
    rcases hApplied 0 p _ _ _ m hInst hEntry hNext hProvides
      with ⟨m', hRun, _⟩
    rw [execWords_unreadWord hFmt hUnread hInst hEntry hNext]
      at hRun
    cases hRun

/-
  The value stored for a word with modifiers is the modified
  one exactly where they cancel.
-/
theorem modifiersApplied_iff (raw0 raw1 : U64) :
    (HasModifiers raw0 → ModifiersApplied raw0 raw1) ↔
      (HasModifiers raw0 → wordCancels raw0 = true) := by
  constructor
  · intro hApplied hMods
    by_contra hNot
    exact not_applied_of_not_cancels hMods
      (Bool.eq_false_of_not_eq_true hNot) (hApplied hMods)
  · intro hCancels hMods
    exact applied_of_cancels hMods.1 (hCancels hMods)

/- An `FADD` that negates, takes `|r2|` and saturates. -/
def faddNegAbs : U64 := 0x2A30000404020

theorem faddNegAbs_not_applied :
    HasModifiers faddNegAbs ∧
      ¬ ModifiersApplied faddNegAbs 0 := by
  have hMods : HasModifiers faddNegAbs := by
    unfold HasModifiers
    decide +kernel
  exact ⟨hMods,
    not_applied_of_not_cancels hMods (by decide +kernel)⟩

end SpirvEmitter

end M1Switch
