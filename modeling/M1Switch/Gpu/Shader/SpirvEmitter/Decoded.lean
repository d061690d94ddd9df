import M1Switch.Gpu.Shader.SpirvEmitter.Forms

/-
  Emission of decoded programs.

  A decoded instruction has registers for the sources its plan
  loads, and every register of a program has a variable.  So
  a plan with enough sources is always carried out.

  Key definitions include:
    * `SpirvEmitter.Regular`
    * `SpirvEmitter.Active`

  Main results:
    * `decode_mem`
    * `regular_of_decode`
    * `planned_of_active`
-/

------
-- Instructions Of A Decoded Program
------

namespace M1Switch

namespace MaxwellDecoder

/- The instruction of a word and its second word. -/
def instOfWords
    (raw0 raw1 : U64)
    (pc : Nat) : ShaderInstruction :=
  (decodeFormat raw0 raw1 pc
    (detectFormat (opcodeIdOf raw0))).toIr

/- What a decoded instruction was read from. -/
structure ReadFrom
    (data : List U8)
    (inst : ShaderInstruction)
    (raw0 raw1 : U64) : Prop where
  word : readWord data inst.pc = some raw0
  second :
    secondWord data inst.pc
      (detectFormat (opcodeIdOf raw0)) = some raw1
  known : detectFormat (opcodeIdOf raw0) ≠ .Unknown
  inst : inst = instOfWords raw0 raw1 inst.pc

theorem readFrom_decodeOne
    {data : List U8}
    {pc : Nat}
    {d : DecodedInst}
    (hDecode : decodeOne data pc = some d)
    (hKnown : d.fmt ≠ .Unknown) :
    ∃ raw0 raw1, ReadFrom data d.toIr raw0 raw1 := by
  unfold decodeOne at hDecode
  split_ifs at hDecode with hShort
  · cases hDecode
    exact absurd rfl hKnown
  · simp only [bind, Option.bind_eq_some_iff, pure,
      Option.some.injEq] at hDecode
    rcases hDecode with ⟨raw0, hRaw0, raw1, hRaw1, hD⟩
    have hPc : d.toIr.pc = pc := by
      rw [pc_toIr, ← hD, pc_decodeFormat]
    refine ⟨raw0, raw1, ?_, ?_, ?_, ?_⟩
    · rw [hPc]
      exact hRaw0
    · rw [hPc]
      exact hRaw1
    · rw [← hD, fmt_decodeFormat] at hKnown
      exact hKnown
    · rw [hPc, ← hD]
      rfl

theorem readFrom_decodeLoop
    {data : List U8} :
    ∀ (fuel offset : Nat) (insts : List ShaderInstruction),
      decodeLoop data fuel offset = some insts →
        ∀ inst ∈ insts,
          ∃ raw0 raw1, ReadFrom data inst raw0 raw1 := by
  intro fuel
  induction fuel with
  | zero =>
      intro offset insts hLoop
      simp [decodeLoop] at hLoop
  | succ fuel ih =>
      intro offset insts hLoop inst hInst
      unfold decodeLoop at hLoop
      split_ifs at hLoop with hOffset
      · simp only [bind, Option.bind_eq_some_iff] at hLoop
        rcases hLoop with ⟨d, hOne, hRest⟩
        split_ifs at hRest with hUnknown hExit
        · exact ih _ _ hRest inst hInst
        · cases hRest
          rw [List.mem_singleton] at hInst
          subst hInst
          exact readFrom_decodeOne hOne hUnknown
        · simp only [Option.bind_eq_some_iff, pure,
            Option.some.injEq] at hRest
          rcases hRest with ⟨rest, hRest, hInsts⟩
          subst hInsts
          rcases List.mem_cons.mp hInst with hHead | hMem
          · subst hHead
            exact readFrom_decodeOne hOne hUnknown
          · exact ih _ _ hRest inst hMem
      · cases hLoop
        cases hInst

/- Every instruction is read from the word at its offset. -/
theorem decode_mem
    {data : List U8}
    {stage : ShaderStage}
    {p : ShaderProgram}
    (hDecode : decode data stage = some p) :
    ∀ inst ∈ p.instructions,
      ∃ raw0 raw1,
        ReadFrom (sizedData data) inst raw0 raw1 :=
  readFrom_decodeLoop _ _ _ (decode_loop hDecode)

theorem usesTextures_decode
    {data : List U8}
    {stage : ShaderStage}
    {p : ShaderProgram}
    (hDecode : decode data stage = some p) :
    p.usesTextures =
      p.instructions.any fun i => marksTextures i.opcode := by
  unfold decode at hDecode
  simp only [bind, Option.bind_eq_some_iff, pure,
    Option.some.injEq] at hDecode
  rcases hDecode with ⟨insts, _, hP⟩
  rw [← hP]

end MaxwellDecoder

------
-- Operands Of Decoded Instructions
------

namespace SpirvEmitter

open MaxwellDecoder

/- The plan is carried out for its source count. -/
def Active (inst : ShaderInstruction) (plan : Plan) : Prop :=
  planOf inst = some plan ∧ plan.minCount ≤ inst.srcCount

/- Operands fit the plan; a branch has no destination. -/
structure Regular (inst : ShaderInstruction) : Prop where
  bra : inst.opcode = .BRA → inst.dest.type = .None
  sources :
    ∀ plan, Active inst plan →
      ∀ op ∈ [inst.src0, inst.src1, inst.src2].take plan.arity,
        op.type = .GPR ∧ op ∈ inst.usedSrcs
  dest :
    ∀ plan, Active inst plan → plan.dest = .gpr →
      inst.dest.type = .GPR
  predDest :
    ∀ plan, planOf inst = some plan → plan.dest = .pred →
      inst.dest.predIndex = 0

/- A plan loads no more sources than it asks for. -/
theorem planOf_counts
    {inst : ShaderInstruction}
    {plan : Plan}
    (hPlan : planOf inst = some plan) :
    (plan.arity ≤ plan.minCount ∧ 1 ≤ plan.minCount) ∨
      ((inst.opcode = .LD ∨ inst.opcode = .ST) ∧
        plan.arity = 1) ∨
      (inst.opcode = .S2R ∧ plan.arity = 0) := by
  unfold planOf at hPlan
  split at hPlan <;> try cases hPlan
  all_goals try simp [valuePlan, comparePlan, *]
  split_ifs at hPlan
  cases hPlan
  simp [valuePlan]

theorem planOf_pred
    {inst : ShaderInstruction}
    {plan : Plan}
    (hPlan : planOf inst = some plan)
    (hDest : plan.dest = .pred) :
    inst.opcode = .ISETP ∨ inst.opcode = .FSETP := by
  unfold planOf at hPlan
  split at hPlan <;> try cases hPlan
  all_goals try simp [valuePlan, *] at hDest ⊢
  split_ifs at hPlan
  cases hPlan
  simp [valuePlan] at hDest

/- Branch opcodes have no plan. -/
theorem planOf_hasBranchTarget
    {inst : ShaderInstruction}
    (hOp : DecodedInst.hasBranchTarget inst.opcode) :
    planOf inst = none := by
  simp only [DecodedInst.hasBranchTarget,
    decide_eq_true_eq] at hOp
  unfold planOf
  rcases hOp with hOp | hOp | hOp | hOp <;> rw [hOp]

/- A texture instruction has one plan, on one source. -/
theorem planOf_isTexture
    {inst : ShaderInstruction}
    {plan : Plan}
    (hOp : DecodedInst.isTexture inst.opcode)
    (hPlan : planOf inst = some plan) :
    plan.arity = 1 := by
  simp only [DecodedInst.isTexture,
    decide_eq_true_eq] at hOp
  unfold planOf at hPlan
  rcases hOp with hOp | hOp | hOp | hOp <;>
    rw [hOp] at hPlan <;> dsimp only at hPlan <;>
      try split_ifs at hPlan
  all_goals
    cases hPlan
    rfl

theorem planOf_s2r
    {inst : ShaderInstruction}
    {plan : Plan}
    (hOp : inst.opcode = .S2R)
    (hPlan : planOf inst = some plan) :
    plan.arity = 0 := by
  unfold planOf at hPlan
  rw [hOp] at hPlan
  cases hPlan
  rfl

/- A used source of the operands is a register. -/
theorem gpr_toIrOperands
    (d : DecodedInst)
    {n : Nat}
    (hN : n ≤ d.field.srcCount)
    {op : ShaderOperand}
    (hOp :
      op ∈ [d.toIrOperands.src0, d.toIrOperands.src1,
        d.toIrOperands.src2].take n) :
    op.type = .GPR ∧ op ∈ d.toIrOperands.usedSrcs := by
  refine ⟨?_, ?_⟩
  · rcases n with _ | _ | _ | n
    · cases hOp
    · simp only [List.take_succ_cons, List.take_zero,
        List.mem_singleton] at hOp
      subst hOp
      simp [DecodedInst.toIrOperands, ShaderOperand.gpr,
        show 1 ≤ d.field.srcCount by omega]
    · simp only [List.take_succ_cons, List.take_zero,
        List.mem_cons, List.not_mem_nil, or_false] at hOp
      rcases hOp with hOp | hOp
      all_goals
        subst hOp
        simp [DecodedInst.toIrOperands, ShaderOperand.gpr,
          show 1 ≤ d.field.srcCount by omega,
          show 2 ≤ d.field.srcCount by omega]
    · simp only [List.take_succ_cons, List.take_nil,
        List.mem_cons, List.not_mem_nil, or_false] at hOp
      rcases hOp with hOp | hOp | hOp
      all_goals
        subst hOp
        simp [DecodedInst.toIrOperands, ShaderOperand.gpr,
          show 1 ≤ d.field.srcCount by omega,
          show 2 ≤ d.field.srcCount by omega,
          show 3 ≤ d.field.srcCount by omega]
  · exact (List.take_subset_take_left _ hN) hOp

theorem regular_toIr
    (d : DecodedInst)
    (hMem :
      d.opcode = .LD ∨ d.opcode = .ST →
        1 ≤ d.field.srcCount)
    (hBra :
      d.opcode = .BRA →
        d.field.srcCount = 0 ∧ d.field.gprDest = 0)
    (hCompare :
      d.opcode = .ISETP ∨ d.opcode = .FSETP →
        d.field.gprDest = 0) :
    Regular d.toIr := by
  have hOpcode := opcode_toIr d
  refine ⟨?_, ?_, ?_, ?_⟩
  · intro hOp
    rw [hOpcode] at hOp
    rcases hBra hOp with ⟨hCount, hDest⟩
    simp [DecodedInst.toIr, DecodedInst.hasBranchTarget,
      DecodedInst.toIrOperands, hOp, hCount, hDest]
  · rintro plan ⟨hPlan, hCount⟩ op hMemOp
    unfold DecodedInst.toIr at hPlan hCount hMemOp ⊢
    dsimp only at hPlan hCount hMemOp ⊢
    split_ifs at hPlan hCount hMemOp ⊢ with hLabel hTex hS2r
    · rw [planOf_hasBranchTarget hLabel] at hPlan
      cases hPlan
    · rw [planOf_isTexture hTex hPlan] at hMemOp
      rw [List.mem_singleton.mp hMemOp]
      exact ⟨rfl, List.mem_cons_self⟩
    · rw [planOf_s2r hS2r hPlan] at hMemOp
      cases hMemOp
    · apply gpr_toIrOperands d _ hMemOp
      rcases planOf_counts hPlan with
        hCounts | ⟨hOp, hArity⟩ | ⟨hOp, _⟩
      · exact hCounts.1.trans hCount
      · rw [hArity]
        exact hMem hOp
      · exact absurd hOp hS2r
  · rintro plan ⟨hPlan, hCount⟩ _
    unfold DecodedInst.toIr at hPlan hCount ⊢
    dsimp only at hPlan hCount ⊢
    split_ifs at hPlan hCount ⊢ with hLabel hTex hS2r
    · rw [planOf_hasBranchTarget hLabel] at hPlan
      cases hPlan
    · rfl
    · rfl
    · have hSrc : 0 < d.field.srcCount := by
        rcases planOf_counts hPlan with
          hCounts | ⟨hOp, _⟩ | ⟨hOp, _⟩
        · exact hCounts.2.trans hCount
        · exact hMem hOp
        · exact absurd hOp hS2r
      simp [DecodedInst.toIrOperands, hSrc,
        ShaderOperand.gpr]
  · intro plan hPlan hPred
    have hOp := planOf_pred hPlan hPred
    rw [hOpcode] at hOp
    have hDest := hCompare hOp
    have hIr : d.toIr.dest = d.toIrOperands.dest := by
      rcases hOp with hOp | hOp <;>
        simp [DecodedInst.toIr, DecodedInst.hasBranchTarget,
          DecodedInst.isTexture, hOp]
    rw [hIr]
    unfold DecodedInst.toIrOperands ShaderOperand.predIndex
    dsimp only
    split_ifs <;> simp [ShaderOperand.gpr, hDest]

theorem regular_instOfWords
    (raw0 raw1 : U64)
    (pc : Nat) :
    Regular (instOfWords raw0 raw1 pc) := by
  have hMember := opcode_decodeFormat raw0 raw1 pc
  unfold instOfWords
  revert hMember
  generalize detectFormat (opcodeIdOf raw0) = fmt
  intro hMember
  apply regular_toIr
  · intro hOp
    cases fmt <;> try exact le_refl 1
    all_goals
      exfalso
      rcases hOp with hOp | hOp <;>
        exact absurd (hOp ▸ hMember) (by decide)
  · intro hOp
    cases fmt <;> try exact ⟨rfl, rfl⟩
    all_goals exact absurd (hOp ▸ hMember) (by decide)
  · intro hOp
    cases fmt <;> try rfl
    all_goals
      rcases hOp with hOp | hOp <;>
        exact absurd (hOp ▸ hMember) (by decide)

/- Decoded instructions are regular. -/
theorem regular_of_decode
    {data : List U8}
    {stage : ShaderStage}
    {p : ShaderProgram}
    (hDecode : decode data stage = some p)
    {inst : ShaderInstruction}
    (hInst : inst ∈ p.instructions) :
    Regular inst := by
  rcases decode_mem hDecode inst hInst with
    ⟨raw0, raw1, hRead⟩
  rw [hRead.inst]
  exact regular_instOfWords raw0 raw1 inst.pc

/- Source counts of the formats. -/
def formatCount : MaxwellFormat → Nat
| .Alu3In => 3
| .Alu2In | .ISetp | .FSetp => 2
| .Alu1In | .MemoryLoad | .MemoryStore | .Texture => 1
| _ => 0

theorem srcCount_decodeFormat
    (raw0 raw1 : U64)
    (pc : Nat)
    (fmt : MaxwellFormat) :
    (decodeFormat raw0 raw1 pc fmt).field.srcCount =
      formatCount fmt := by
  cases fmt <;> rfl

/- Opcodes that always find their sources. -/
def countedOpcodes : List ShaderOpcode :=
  [.LDC, .TEX, .ISETP, .FSETP, .BFI, .LEA]

theorem counted_toIr
    {d : DecodedInst}
    {fmt : MaxwellFormat}
    (hMember : d.opcode ∈ opcodesOf fmt)
    (hCount : d.field.srcCount = formatCount fmt)
    (hOp : d.opcode ∈ countedOpcodes) :
    ∃ plan, Active d.toIr plan := by
  have hIr := opcode_toIr d
  simp only [countedOpcodes, List.mem_cons,
    List.not_mem_nil, or_false] at hOp
  rcases hOp with hOp | hOp | hOp | hOp | hOp | hOp
  all_goals
    rw [hOp] at hIr hMember
    unfold Active planOf
    rw [hIr]
    refine ⟨_, rfl, ?_⟩
    unfold DecodedInst.toIr
    simp only [DecodedInst.hasBranchTarget,
      DecodedInst.isTexture, hOp]
    cases fmt <;>
      first
      | exact absurd hMember (by decide)
      | exact le_refl 2
      | exact hCount.ge

/- A decoded instruction of these opcodes is carried out. -/
theorem active_of_decode
    {data : List U8}
    {stage : ShaderStage}
    {p : ShaderProgram}
    (hDecode : decode data stage = some p)
    {inst : ShaderInstruction}
    (hInst : inst ∈ p.instructions)
    (hOp : inst.opcode ∈ countedOpcodes) :
    ∃ plan, Active inst plan := by
  rcases decode_mem hDecode inst hInst with
    ⟨raw0, raw1, hRead⟩
  rw [hRead.inst] at hOp ⊢
  unfold instOfWords at hOp ⊢
  rw [opcode_toIr] at hOp
  exact counted_toIr (opcode_decodeFormat raw0 raw1 _)
    (srcCount_decodeFormat raw0 raw1 _ _) hOp

------
-- Variables Of The Registers
------

variable {p : ShaderProgram} {inst : ShaderInstruction}
variable {plan : Plan} {gprMap : GprMap}

/- A declared register keeps its variable. -/
theorem declared_of_some :
    ∀ (ops : List ShaderOperand) (gprMap : GprMap)
      (e : SpirvEmitter) (r v : Nat),
      gprMap r = some v →
        (declared ops gprMap e).1 r = some v := by
  intro ops
  induction ops with
  | nil =>
      intro gprMap e r v hV
      exact hV
  | cons op ops ih =>
      intro gprMap e r v hV
      unfold declared
      split_ifs with hNew
      · apply ih
        have hNe : r ≠ op.regIndex := by
          intro hEq
          rw [hEq, hNew.2] at hV
          cases hV
        rw [Function.update_of_ne hNe]
        exact hV
      · exact ih _ _ _ _ hV

/- Every register operand is declared. -/
theorem declared_isSome :
    ∀ (ops : List ShaderOperand) (gprMap : GprMap)
      (e : SpirvEmitter),
      ∀ op ∈ ops, op.type = .GPR →
        ∃ v, (declared ops gprMap e).1 op.regIndex =
          some v := by
  intro ops
  induction ops with
  | nil =>
      intro gprMap e op hOp
      cases hOp
  | cons first ops ih =>
      intro gprMap e op hOp hType
      rcases List.mem_cons.mp hOp with hHead | hTail
      · subst hHead
        unfold declared
        split_ifs with hNew
        · exact ⟨_, declared_of_some _ _ _ _ _
            (Function.update_self _ _ _)⟩
        · cases hOld : gprMap op.regIndex with
          | none => exact absurd ⟨hType, hOld⟩ hNew
          | some v =>
              exact ⟨v, declared_of_some _ _ _ _ _ hOld⟩
      · unfold declared
        split_ifs
        · exact ih _ _ op hTail hType
        · exact ih _ _ op hTail hType

/- Declaring takes ids and leaves the smaller ones. -/
theorem nextId_le_declared :
    ∀ (ops : List ShaderOperand) (gprMap : GprMap)
      (e : SpirvEmitter),
      e.nextId ≤ (declared ops gprMap e).2.nextId := by
  intro ops
  induction ops with
  | nil =>
      intro gprMap e
      exact le_refl _
  | cons op ops ih =>
      intro gprMap e
      unfold declared
      split_ifs
      · refine le_trans ?_ (ih _ _)
        exact Nat.le_succ e.nextId
      · exact ih _ _

/- Declared variables are old or new ids. -/
theorem declared_ids :
    ∀ (ops : List ShaderOperand) (gprMap : GprMap)
      (e : SpirvEmitter) (r v : Nat),
      (declared ops gprMap e).1 r = some v →
        gprMap r = some v ∨
          (e.nextId ≤ v ∧
            v < (declared ops gprMap e).2.nextId) := by
  intro ops
  induction ops with
  | nil =>
      intro gprMap e r v hV
      exact Or.inl hV
  | cons op ops ih =>
      intro gprMap e r v hV
      unfold declared at hV ⊢
      split_ifs at hV ⊢ with hNew
      · rcases ih _ _ r v hV with hOld | ⟨hLow, hHigh⟩
        · by_cases hReg : r = op.regIndex
          · subst hReg
            rw [Function.update_self] at hOld
            cases hOld
            have hNext := nextId_le_declared ops
              (Function.update gprMap op.regIndex
                (some e.nextId))
              (e.pushed 1
                [⟨SpirvOp.Variable,
                  [e.types.f32Fnptr, e.nextId,
                    SpirvStorageClass.Function]⟩])
            rw [nextId_pushed] at hNext
            exact Or.inr ⟨le_refl _, hNext⟩
          · rw [Function.update_of_ne hReg] at hOld
            exact Or.inl hOld
        · rw [nextId_pushed] at hLow
          exact Or.inr ⟨Nat.le_of_succ_le hLow, hHigh⟩
      · exact ih _ _ r v hV

/- Operands of an instruction of the program. -/
theorem mem_gprOperands
    (hInst : inst ∈ p.instructions)
    {op : ShaderOperand}
    (hOp : op = inst.dest ∨ op ∈ inst.usedSrcs) :
    op ∈ gprOperands p := by
  apply List.mem_flatMap.mpr
  exact ⟨inst, hInst, List.mem_cons.mpr hOp⟩

theorem getGpr_gprMapOf
    {e : SpirvEmitter}
    (hNext : 0 < e.nextId)
    {op : ShaderOperand}
    (hOp : op ∈ gprOperands p)
    (hType : op.type = .GPR) :
    getGpr (gprMapOf p e) op.regIndex ≠ 0 := by
  rcases declared_isSome _ (fun _ => none) e op hOp hType
    with ⟨v, hV⟩
  have hIds := declared_ids _ _ _ _ _ hV
  unfold getGpr gprMapOf
  rw [hV]
  rcases hIds with hNone | hIds
  · cases hNone
  · show v ≠ 0
    omega

/- Every source and destination the plans use is mapped. -/
structure Mapped
    (gprMap : GprMap)
    (inst : ShaderInstruction) : Prop where
  sources :
    ∀ plan, Active inst plan →
      ∀ r ∈ srcRegs inst plan.arity, getGpr gprMap r ≠ 0
  dest :
    ∀ plan, Active inst plan → plan.dest = .gpr →
      getGpr gprMap inst.dest.regIndex ≠ 0

theorem mapped_of_regular
    (hRegular : Regular inst)
    (hInst : inst ∈ p.instructions)
    {e : SpirvEmitter}
    (hNext : 0 < e.nextId) :
    Mapped (gprMapOf p e) inst := by
  refine ⟨?_, ?_⟩
  · intro plan hActive r hR
    rcases List.mem_map.mp hR with ⟨op, hOp, hIndex⟩
    rcases hRegular.sources plan hActive op hOp with
      ⟨hType, hUsed⟩
    subst hIndex
    exact getGpr_gprMapOf hNext
      (mem_gprOperands hInst (Or.inr hUsed)) hType
  · intro plan hActive hDest
    exact getGpr_gprMapOf hNext
      (mem_gprOperands hInst (Or.inl rfl))
      (hRegular.dest plan hActive hDest)

/- Loads of mapped registers give nonzero ids. -/
theorem zero_notMem_loadIds :
    ∀ (rs : List Nat) (n : Nat),
      0 < n →
        (∀ r ∈ rs, getGpr gprMap r ≠ 0) →
          0 ∉ loadIds gprMap n rs := by
  intro rs
  induction rs with
  | nil =>
      intro n _ _ hMem
      cases hMem
  | cons r rs ih =>
      intro n hN hMapped hMem
      unfold loadIds at hMem
      rw [if_neg (hMapped r List.mem_cons_self)] at hMem
      rcases List.mem_cons.mp hMem with hZero | hTail
      · omega
      · exact ih (n + 1) (Nat.succ_pos n)
          (fun r' hR' => hMapped r' (List.mem_cons_of_mem r hR'))
          hTail

/- A mapped plan is carried out up to its gate. -/
theorem ready_of_mapped
    (hMapped : Mapped gprMap inst)
    (hActive : Active inst plan)
    {e : SpirvEmitter}
    (hNext : 0 < e.nextId)
    (hGate : plan.gate.id e ≠ 0) :
    plan.Ready inst gprMap e :=
  ⟨zero_notMem_loadIds _ _ hNext
    (hMapped.sources plan hActive), hGate⟩

/- The emitter behind a plan that is carried out. -/
theorem planned_of_active
    (hMapped : Mapped gprMap inst)
    (hActive : Active inst plan)
    {e : SpirvEmitter}
    (hNext : 0 < e.nextId)
    (hGate : plan.gate.id e ≠ 0) :
    planned plan inst gprMap e =
      finished plan.dest inst gprMap
        (plan.template.resultId
          (loaded gprMap (srcRegs inst plan.arity) e)
          (loadIds gprMap e.nextId
            (srcRegs inst plan.arity)))
        (plan.template.emitted
          (loadIds gprMap e.nextId (srcRegs inst plan.arity))
          (loaded gprMap (srcRegs inst plan.arity) e)) := by
  unfold planned
  rw [if_pos hActive.2]
  dsimp only
  rw [if_pos (ready_of_mapped hMapped hActive hNext hGate)]

------
-- Instructions That Are Added
------

open StraightLine

variable {G : SpirvInst → Prop} {cfg : CfgAnnotation}
variable {next : Option ShaderInstruction}
variable {e e' e'' : SpirvEmitter}

/- An instruction with the property is among those added. -/
def AddsSome
    (G : SpirvInst → Prop)
    (e e' : SpirvEmitter) : Prop :=
  ∃ code : List SpirvInst,
    (∀ i ∈ code, Sized i) ∧ (∃ i ∈ code, G i) ∧
      e'.words = e.words ++ encodeInsts code

theorem AddsSome.behind
    (hFirst : Adds Sized e e')
    (hSome : AddsSome G e' e'') :
    AddsSome G e e'' := by
  rcases hFirst.words with ⟨a, hA, hWordsA⟩
  rcases hSome with ⟨b, hB, ⟨i, hI, hG⟩, hWordsB⟩
  refine ⟨a ++ b, List.forall_mem_append.mpr ⟨hA, hB⟩,
    ⟨i, List.mem_append_right a hI, hG⟩, ?_⟩
  rw [hWordsB, hWordsA, encodeInsts_append,
    List.append_assoc]

theorem AddsSome.before
    (hSome : AddsSome G e e')
    (hSecond : Adds Sized e' e'') :
    AddsSome G e e'' := by
  rcases hSome with ⟨a, hA, ⟨i, hI, hG⟩, hWordsA⟩
  rcases hSecond.words with ⟨b, hB, hWordsB⟩
  refine ⟨a ++ b, List.forall_mem_append.mpr ⟨hA, hB⟩,
    ⟨i, List.mem_append_left b hI, hG⟩, ?_⟩
  rw [hWordsB, hWordsA, encodeInsts_append,
    List.append_assoc]

theorem addsSome_pushed
    {ids : Nat}
    {code : List SpirvInst}
    (hCode : ∀ i ∈ code, Sized i)
    (hSome : ∃ i ∈ code, G i) :
    AddsSome G e (e.pushed ids code) :=
  ⟨code, hCode, hSome, rfl⟩

/- An instruction of the template, for any ids. -/
theorem addsSome_template
    (hForms : PlanForms Sized plan)
    (srcs : List Nat)
    (hSome :
      ∃ q ∈ place (templateArgs e srcs) e.nextId 0
        plan.template.lines, G (placedInst e q)) :
    AddsSome G e (plan.template.emitted srcs e) := by
  rcases hSome with ⟨q, hQ, hG⟩
  exact addsSome_pushed (form_template hForms srcs)
    ⟨placedInst e q, List.mem_map_of_mem hQ, hG⟩

/-
  A plan that is carried out adds what its template has and
  what its destination asks for.
-/
theorem addsSome_planned
    (hMapped : Mapped gprMap inst)
    (hActive : Active inst plan)
    (hNext : 0 < e.nextId)
    (hGate : plan.gate.id e ≠ 0)
    (hSome :
      ∀ (e1 : SpirvEmitter) (srcs : List Nat),
        e1.headIds = e.headIds →
          e1.cfgState = e.cfgState →
            AddsSome G e1 (plan.template.emitted srcs e1) ∨
              ∀ v, AddsSome G (plan.template.emitted srcs e1)
                (finished plan.dest inst gprMap v
                  (plan.template.emitted srcs e1))) :
    AddsSome G e (planned plan inst gprMap e) := by
  have hForms := planForms_sized hActive.1
  have hLoaded :
      Adds Sized e
        (loaded gprMap (srcRegs inst plan.arity) e) :=
    adds_loaded hForms.load _
  rw [planned_of_active hMapped hActive hNext hGate]
  apply AddsSome.behind hLoaded
  rcases hSome _ (loadIds gprMap e.nextId
    (srcRegs inst plan.arity)) hLoaded.headIds rfl with
    hTemplate | hDest
  · exact hTemplate.before (adds_finished hForms _)
  · exact AddsSome.behind (adds_template hForms _) (hDest _)

/- The same for a whole step. -/
theorem addsSome_stepped
    (hPlan : planOf inst = some plan)
    (hBreak : inst.opcode ≠ .BREAK)
    (hCont : inst.opcode ≠ .CONT)
    (hSome :
      ∀ e1 : SpirvEmitter,
        e.nextId ≤ e1.nextId → e1.headIds = e.headIds →
          e1.cfgState.predVars = e.cfgState.predVars →
            AddsSome G e1 (planned plan inst gprMap e1)) :
    AddsSome G e (stepped cfg gprMap inst next e) := by
  have hLabel :
      Adds Sized e (blockLabelled cfg inst.pc e) :=
    adds_blockLabelled controlForms_sized.label inst.pc
  unfold stepped
  rw [advanced_of_planOf _ _ _ hPlan hBreak hCont]
  exact AddsSome.behind hLabel
    (hSome _ hLabel.nextId hLabel.headIds
      (predVars_blockLabelled _))

/- One instruction that always adds it is enough. -/
theorem addsSome_streamed
    (cfg : CfgAnnotation)
    (gprMap : GprMap) :
    ∀ (insts : List ShaderInstruction) (e : SpirvEmitter),
      (∃ inst ∈ insts,
        ∀ (e1 : SpirvEmitter) (next : Option ShaderInstruction),
          e.nextId ≤ e1.nextId → e1.headIds = e.headIds →
            AddsSome G e1
              (stepped cfg gprMap inst next e1)) →
        AddsSome G e (streamed cfg gprMap insts e) := by
  intro insts
  induction insts with
  | nil =>
      intro e hSome
      rcases hSome with ⟨inst, hInst, _⟩
      cases hInst
  | cons first rest ih =>
      intro e hSome
      rcases hSome with ⟨inst, hInst, hStep⟩
      rcases List.mem_cons.mp hInst with hHead | hTail
      · subst hHead
        exact (hStep e _ (le_refl _) rfl).before
          (adds_streamed controlForms_sized _ _
            fun _ _ _ hPlan => planForms_sized hPlan)
      · have hFirst :
            Adds Sized e
              (stepped cfg gprMap first rest.head? e) :=
          adds_stepped controlForms_sized
            fun _ hPlan => planForms_sized hPlan
        apply AddsSome.behind hFirst
        apply ih
        refine ⟨inst, hTail, ?_⟩
        intro e1 next hLe hHeadIds
        exact hStep e1 next (hFirst.nextId.trans hLe)
          (hHeadIds.trans hFirst.headIds)

end SpirvEmitter

end M1Switch
