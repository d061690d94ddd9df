import M1Switch.Gpu.Shader.SpirvEmitter
import Mathlib.Data.List.Basic
import Mathlib.Order.Nat

/-
  Emitted words as a stream of instructions.

  An instruction is its opcode and its operands; the first
  word carries the number of words in its upper half.  A
  quiet step appends instructions that neither set nor name a
  label and leaves the label bookkeeping alone.

  Key definitions include:
    * `SpirvInst`
    * `instructionsOf`

  Main results:
    * `instructionsOf_encode`
    * `labelsResolved_iff`
-/

------
-- Instruction Streams
------

namespace M1Switch

structure SpirvInst where
  opcode : Nat
  operands : List Nat
deriving DecidableEq, Repr

namespace SpirvInst

/- The words of an instruction. -/
def encode (i : SpirvInst) : List Nat :=
  SpirvEmitter.instHeader (i.operands.length + 1) i.opcode ::
    i.operands

/- The label the instruction sets. -/
def labelIds (i : SpirvInst) : List Nat :=
  if i.opcode = SpirvOp.Label then i.operands.take 1 else []

/- The labels the instruction names. -/
def labelRefs (i : SpirvInst) : List Nat :=
  if i.opcode = SpirvOp.Branch then i.operands.take 1
  else if i.opcode = SpirvOp.BranchConditional then
    (i.operands.drop 1).take 2
  else if i.opcode = SpirvOp.SelectionMerge then
    i.operands.take 1
  else if i.opcode = SpirvOp.LoopMerge then
    i.operands.take 2
  else []

end SpirvInst

/- The words of a list of instructions. -/
def encodeInsts (insts : List SpirvInst) : List Nat :=
  insts.flatMap SpirvInst.encode

/- Labels set by a list of instructions. -/
def labelIds (insts : List SpirvInst) : List Nat :=
  insts.flatMap SpirvInst.labelIds

/- Labels named by a list of instructions. -/
def labelRefIds (insts : List SpirvInst) : List Nat :=
  insts.flatMap SpirvInst.labelRefs

/- Split words into instructions by their word counts. -/
def splitInsts :
    Nat → List Nat → Option (List SpirvInst)
| _, [] => some []
| 0, _ :: _ => none
| fuel + 1, w :: ws =>
    let count := w >>> 16
    if count = 0 ∨ ws.length < count - 1 then none
    else do
      let rest ← splitInsts fuel (ws.drop (count - 1))
      return {
        opcode := w % 2 ^ 16
        operands := ws.take (count - 1) } :: rest

/- The instructions behind the five header words. -/
def instructionsOf (words : List Nat) :
    Option (List SpirvInst) :=
  splitInsts words.length (words.drop 5)

/- Every label named is set exactly once. -/
def LabelsResolvedIn (insts : List SpirvInst) : Prop :=
  ∀ id ∈ labelRefIds insts, (labelIds insts).count id = 1

instance (insts : List SpirvInst) :
    Decidable (LabelsResolvedIn insts) :=
  inferInstanceAs (Decidable (∀ id ∈ _, _))

/-
  The words split into instructions in which every label named
  is set exactly once.
-/
def LabelsResolved (words : List Nat) : Prop :=
  ∃ insts ∈ instructionsOf words, LabelsResolvedIn insts

instance (words : List Nat) :
    Decidable (LabelsResolved words) :=
  match hInsts : instructionsOf words with
  | none =>
      isFalse (by
        intro hResolved
        rcases hResolved with ⟨insts, hMem, _⟩
        rw [hInsts] at hMem
        cases hMem)
  | some insts =>
      decidable_of_iff (LabelsResolvedIn insts) (by
        unfold LabelsResolved
        rw [hInsts]
        simp)

------
-- Splitting Encoded Words
------

/- The word count of a header. -/
theorem instHeader_shiftRight
    {count opcode : Nat}
    (hOpcode : opcode < 2 ^ 16) :
    SpirvEmitter.instHeader count opcode >>> 16 = count := by
  unfold SpirvEmitter.instHeader
  rw [← Nat.shiftLeft_add_eq_or_of_lt hOpcode,
    Nat.shiftLeft_eq, Nat.shiftRight_eq_div_pow]
  omega

/- The opcode of a header. -/
theorem instHeader_mod
    {count opcode : Nat}
    (hOpcode : opcode < 2 ^ 16) :
    SpirvEmitter.instHeader count opcode % 2 ^ 16 =
      opcode := by
  unfold SpirvEmitter.instHeader
  rw [← Nat.shiftLeft_add_eq_or_of_lt hOpcode,
    Nat.shiftLeft_eq]
  omega

/- Splitting inverts encoding. -/
theorem splitInsts_encodeInsts :
    ∀ (insts : List SpirvInst) (fuel : Nat),
      (∀ i ∈ insts, i.opcode < 2 ^ 16) →
        (encodeInsts insts).length ≤ fuel →
          splitInsts fuel (encodeInsts insts) =
            some insts := by
  intro insts
  induction insts with
  | nil =>
      intro fuel _ _
      simp [encodeInsts, splitInsts]
  | cons i rest ih =>
      intro fuel hOpcodes hFuel
      have hOpcode := hOpcodes i List.mem_cons_self
      cases fuel with
      | zero => simp [encodeInsts, SpirvInst.encode] at hFuel
      | succ fuel =>
          have hTail :=
            ih fuel
              (fun j hJ => hOpcodes j (List.mem_cons_of_mem i hJ))
              (by
                simp [encodeInsts, SpirvInst.encode] at hFuel ⊢
                omega)
          unfold encodeInsts at hTail ⊢
          have hMod :
              SpirvEmitter.instHeader (i.operands.length + 1)
                i.opcode % 2 ^ 16 = i.opcode :=
            instHeader_mod hOpcode
          simp [SpirvInst.encode, splitInsts,
            instHeader_shiftRight hOpcode, hTail]
          exact congrArg (SpirvInst.mk · i.operands) hMod

variable {insts : List SpirvInst}

/- The instructions of a header and encoded instructions. -/
theorem instructionsOf_encode
    {header words : List Nat}
    (hHeader : header.length = 5)
    (hWords : words = header ++ encodeInsts insts)
    (hOpcodes : ∀ i ∈ insts, i.opcode < 2 ^ 16) :
    instructionsOf words = some insts := by
  unfold instructionsOf
  subst hWords
  rw [List.drop_append_of_le_length (by omega),
    List.drop_eq_nil_of_le (by omega), List.nil_append]
  apply splitInsts_encodeInsts insts _ hOpcodes
  simp

/- Resolution, once the instructions are known. -/
theorem labelsResolved_iff
    {words : List Nat}
    (hInsts : instructionsOf words = some insts) :
    LabelsResolved words ↔ LabelsResolvedIn insts := by
  unfold LabelsResolved
  rw [hInsts]
  simp

theorem encodeInsts_append (a b : List SpirvInst) :
    encodeInsts (a ++ b) = encodeInsts a ++ encodeInsts b :=
  List.flatMap_append

theorem labelIds_append (a b : List SpirvInst) :
    labelIds (a ++ b) = labelIds a ++ labelIds b :=
  List.flatMap_append

theorem labelRefIds_append (a b : List SpirvInst) :
    labelRefIds (a ++ b) = labelRefIds a ++ labelRefIds b :=
  List.flatMap_append

------
-- Quiet Steps
------

/- Opcodes that neither set nor name a label. -/
def PlainOp (opcode : Nat) : Prop :=
  opcode < 2 ^ 16 ∧
    opcode ∉ [SpirvOp.LoopMerge, SpirvOp.SelectionMerge,
      SpirvOp.Label, SpirvOp.Branch,
      SpirvOp.BranchConditional]

instance (opcode : Nat) : Decidable (PlainOp opcode) :=
  inferInstanceAs (Decidable (_ ∧ _))

theorem SpirvInst.labelIds_of_plain
    {i : SpirvInst}
    (hPlain : PlainOp i.opcode) :
    i.labelIds = [] := by
  unfold SpirvInst.labelIds
  apply if_neg
  intro hLabel
  exact hPlain.2 (by simp [hLabel])

theorem SpirvInst.labelRefs_of_plain
    {i : SpirvInst}
    (hPlain : PlainOp i.opcode) :
    i.labelRefs = [] := by
  have hNot := hPlain.2
  simp only [List.mem_cons, List.not_mem_nil, or_false,
    not_or] at hNot
  simp [SpirvInst.labelRefs, hNot]

theorem labelIds_of_plain
    (hPlain : ∀ i ∈ insts, PlainOp i.opcode) :
    labelIds insts = [] := by
  unfold labelIds
  rw [List.flatMap_eq_nil_iff]
  intro i hI
  exact SpirvInst.labelIds_of_plain (hPlain i hI)

theorem labelRefIds_of_plain
    (hPlain : ∀ i ∈ insts, PlainOp i.opcode) :
    labelRefIds insts = [] := by
  unfold labelRefIds
  rw [List.flatMap_eq_nil_iff]
  intro i hI
  exact SpirvInst.labelRefs_of_plain (hPlain i hI)

namespace SpirvEmitter

/-
  Only plain instructions are appended, ids only grow and the
  label bookkeeping stays.
-/
structure Quiet (e e' : SpirvEmitter) : Prop where
  words :
    ∃ insts : List SpirvInst,
      (∀ i ∈ insts, PlainOp i.opcode) ∧
        e'.words = e.words ++ encodeInsts insts
  nextId : e.nextId ≤ e'.nextId
  pcToLabel : e'.cfgState.pcToLabel = e.cfgState.pcToLabel
  ssyStack : e'.cfgState.ssyStack = e.cfgState.ssyStack
  labelsEmitted :
    e'.cfgState.labelsEmitted = e.cfgState.labelsEmitted

theorem quiet_refl (e : SpirvEmitter) : Quiet e e := by
  refine ⟨⟨[], ?_, ?_⟩, le_refl _, rfl, rfl, rfl⟩
  · intro i hI
    cases hI
  · exact (List.append_nil e.words).symm

end SpirvEmitter

end M1Switch
