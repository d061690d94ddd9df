import M1Switch.Gpu.Shader.SpirvEmitter.Decoded

/-
  The logical layout of a module.

  Types, constants and global variables belong in front of the
  function, local variables to the start of its entry block.
  The emitter keeps to this except for four opcodes, which
  declare something where they stand.

  Key definitions include:
    * `LogicalLayout`
    * `lateOpcodes`

  Main results:
    * `emit_logicalLayout_iff`
-/

------
-- Logical Layout
------

namespace M1Switch

/- Opcodes of types and constants. -/
def declarationOps : List Nat :=
  [SpirvOp.TypeVoid, SpirvOp.TypeBool, SpirvOp.TypeInt,
    SpirvOp.TypeFloat, SpirvOp.TypeVector, SpirvOp.TypeImage,
    SpirvOp.TypeSampledImage, SpirvOp.TypeRuntimeArray,
    SpirvOp.TypeStruct, SpirvOp.TypePointer,
    SpirvOp.TypeFunction, SpirvOp.Constant,
    SpirvOp.ConstantTrue, SpirvOp.ConstantFalse]

namespace SpirvInst

/- A variable of the storage class `Function`. -/
def isLocalVar (i : SpirvInst) : Bool :=
  i.opcode = SpirvOp.Variable ∧
    i.operands[2]? = some SpirvStorageClass.Function

/- A type, a constant or a variable of another class. -/
def isGlobal (i : SpirvInst) : Bool :=
  i.opcode ∈ declarationOps ∨
    (i.opcode = SpirvOp.Variable ∧ ¬ i.isLocalVar)

end SpirvInst

/- The instructions in front of `OpFunction`. -/
def moduleHead (insts : List SpirvInst) : List SpirvInst :=
  insts.takeWhile (·.opcode ≠ SpirvOp.Function)

/- The instructions behind `OpFunction`. -/
def functionBody (insts : List SpirvInst) : List SpirvInst :=
  (insts.dropWhile (·.opcode ≠ SpirvOp.Function)).tail

/-
  Global declarations stand in front of the function, local
  variables behind its first label, before anything else.
-/
def LogicalLayoutIn (insts : List SpirvInst) : Prop :=
  (∀ i ∈ moduleHead insts, ¬ i.isLocalVar) ∧
    (∀ i ∈ functionBody insts, ¬ i.isGlobal) ∧
      (functionBody insts).head?.map SpirvInst.opcode =
        some SpirvOp.Label ∧
        ∀ i ∈ (functionBody insts).tail.dropWhile
          SpirvInst.isLocalVar, ¬ i.isLocalVar

/- The words split into instructions laid out so. -/
def LogicalLayout (words : List Nat) : Prop :=
  ∃ insts, instructionsOf words = some insts ∧
    LogicalLayoutIn insts

theorem logicalLayout_iff
    {words : List Nat}
    {insts : List SpirvInst}
    (hInsts : instructionsOf words = some insts) :
    LogicalLayout words ↔ LogicalLayoutIn insts := by
  unfold LogicalLayout
  rw [hInsts]
  simp

------
-- The Body Of A Module
------

namespace SpirvEmitter

theorem moduleHead_preambleCode
    (kind : StageKind)
    (tex : Bool) :
    ∀ i ∈ moduleHead (preambleCode kind tex),
      ¬ i.isLocalVar := by
  cases kind <;> cases tex <;> decide +kernel

/- The head ends with its only `OpFunction`. -/
theorem dropWhile_preambleCode
    (kind : StageKind)
    (tex : Bool) :
    ((preambleCode kind tex).dropWhile
      (·.opcode ≠ SpirvOp.Function)).map SpirvInst.opcode =
        [SpirvOp.Function] := by
  cases kind <;> cases tex <;> decide +kernel

theorem dropWhile_eq_singleton
    (kind : StageKind)
    (tex : Bool) :
    ∃ f : SpirvInst,
      (preambleCode kind tex).dropWhile
        (·.opcode ≠ SpirvOp.Function) = [f] := by
  have hDrop := dropWhile_preambleCode kind tex
  rcases List.map_eq_singleton_iff.mp hDrop with ⟨f, hF, _⟩
  exact ⟨f, hF⟩

theorem functionBody_moduleOf
    (p : ShaderProgram)
    (code : List SpirvInst) :
    functionBody (moduleOf p code) = code ++ endCode p := by
  rcases dropWhile_eq_singleton (kindOf p.stage)
    p.usesTextures with ⟨f, hF⟩
  unfold functionBody moduleOf
  rw [List.append_assoc, List.dropWhile_append, hF]
  rfl

theorem moduleHead_moduleOf
    (p : ShaderProgram)
    (code : List SpirvInst) :
    moduleHead (moduleOf p code) =
      moduleHead
        (preambleCode (kindOf p.stage) p.usesTextures) := by
  rcases dropWhile_eq_singleton (kindOf p.stage)
    p.usesTextures with ⟨f, hF⟩
  have hSplit :=
    congrArg List.length (List.takeWhile_append_dropWhile
      (p := (·.opcode ≠ SpirvOp.Function))
      (l := preambleCode (kindOf p.stage) p.usesTextures))
  rw [hF, List.length_append, List.length_singleton] at hSplit
  unfold moduleHead moduleOf
  rw [List.append_assoc, List.takeWhile_append,
    if_neg (by omega)]

/- The layout of a module is the layout of its function. -/
theorem logicalLayoutIn_moduleOf
    (p : ShaderProgram)
    (code : List SpirvInst) :
    LogicalLayoutIn (moduleOf p code) ↔
      (∀ i ∈ code ++ endCode p, ¬ i.isGlobal) ∧
        (code ++ endCode p).head?.map SpirvInst.opcode =
          some SpirvOp.Label ∧
          ∀ i ∈ (code ++ endCode p).tail.dropWhile
            SpirvInst.isLocalVar, ¬ i.isLocalVar := by
  unfold LogicalLayoutIn
  rw [functionBody_moduleOf, moduleHead_moduleOf]
  constructor
  · intro hLayout
    exact hLayout.2
  · intro hLayout
    exact ⟨moduleHead_preambleCode _ _, hLayout⟩

------
-- Programs Without Late Declarations
------

/- Neither a declaration nor a variable. -/
def OrdinaryShape (opcode count : Nat) : Prop :=
  opcode ∉ SpirvOp.Variable :: declarationOps ∧
    SizedShape opcode count

instance (opcode count : Nat) :
    Decidable (OrdinaryShape opcode count) :=
  inferInstanceAs (Decidable (_ ∧ _))

def Ordinary (i : SpirvInst) : Prop :=
  Shaped OrdinaryShape i

theorem Ordinary.not_isGlobal
    {i : SpirvInst}
    (hOrdinary : Ordinary i) :
    ¬ i.isGlobal := by
  have hOpcode := List.ne_and_not_mem_of_not_mem_cons hOrdinary.1
  simp [SpirvInst.isGlobal, hOpcode.1, hOpcode.2]

theorem Ordinary.not_isLocalVar
    {i : SpirvInst}
    (hOrdinary : Ordinary i) :
    ¬ i.isLocalVar := by
  have hOpcode := List.ne_and_not_mem_of_not_mem_cons hOrdinary.1
  simp [SpirvInst.isLocalVar, hOpcode.1]

theorem not_isGlobal_of_isLocalVar
    {i : SpirvInst}
    (hLocal : i.isLocalVar) :
    ¬ i.isGlobal := by
  have hOpcode : i.opcode = SpirvOp.Variable := by
    simp only [SpirvInst.isLocalVar, decide_eq_true_eq]
      at hLocal
    exact hLocal.1
  have hNot : SpirvOp.Variable ∉ declarationOps := by decide
  simp [SpirvInst.isGlobal, hOpcode, hLocal, hNot]

theorem controlForms_ordinary : ControlForms Ordinary :=
  controlForms_shaped (by decide)

/- Opcodes that declare something where they stand. -/
def lateOpcodes : List ShaderOpcode :=
  [.ISETP, .FSETP, .BFI, .LEA]

/- The other opcodes declare nothing. -/
theorem ordinary_planShapes
    {inst : ShaderInstruction}
    {plan : Plan}
    (hPlan : planOf inst = some plan)
    (hOp : inst.opcode ∉ lateOpcodes) :
    ∀ s ∈ planShapes plan, OrdinaryShape s.1 s.2 := by
  unfold planOf at hPlan
  split at hPlan <;> try cases hPlan
  all_goals try decide
  all_goals try simp [lateOpcodes, *] at hOp
  · cases inst.src0.mufuOp with
    | Unnamed code =>
        show ∀ s ∈ planShapes (valuePlan 1 copyTemplate), _
        decide
    | _ => decide
  · split_ifs at hPlan
    cases hPlan
    decide

theorem planForms_ordinary
    {inst : ShaderInstruction}
    {plan : Plan}
    (hOp : inst.opcode ∉ lateOpcodes)
    (hPlan : planOf inst = some plan) :
    PlanForms Ordinary plan :=
  planForms_shaped (ordinary_planShapes hPlan hOp)

theorem ordinary_endCode (p : ShaderProgram) :
    ∀ i ∈ endCode p, Ordinary i := by
  unfold endCode Ordinary Shaped
  split_ifs <;> decide

/-
  The function's code: its label, local variables and behind
  them what the body adds.
-/
theorem words_behindLoop
    {F : SpirvInst → Prop}
    (p : ShaderProgram)
    (e : SpirvEmitter)
    (hBody : Adds F (gprsDeclared p (entered p e))
      (behindLoop p e)) :
    ∃ vars code : List SpirvInst,
      (∀ i ∈ vars, i.isLocalVar ∧ Sized i) ∧
        (∀ i ∈ code, F i) ∧
          (behindLoop p e).words =
            e.words ++ encodeInsts
              (labelInst e.nextId :: vars ++ code) := by
  have hDeclared :
      Adds (fun i => i.isLocalVar ∧ Sized i) (entered p e)
        (gprsDeclared p (entered p e)) :=
    adds_declared
      (fun x y => ⟨rfl, frameForms_sized.declare x y⟩) _ _ _
  rcases hDeclared.words with ⟨vars, hVars, hWords⟩
  rcases hBody.words with ⟨code, hCode, hLoop⟩
  refine ⟨vars, code, hVars, hCode, ?_⟩
  rw [hLoop, hWords]
  show e.words ++ encodeInsts [labelInst e.nextId] ++ _ ++ _ =
    _
  rw [List.append_assoc, List.append_assoc,
    ← encodeInsts_append, ← encodeInsts_append]
  rfl

/- The layout holds without late opcodes. -/
theorem layout_of_no_late
    (e : SpirvEmitter)
    {p : ShaderProgram}
    (hLate : ∀ inst ∈ p.instructions,
      inst.opcode ∉ lateOpcodes) :
    LogicalLayout (emit e p) := by
  have hBody :
      Adds Ordinary
        (gprsDeclared p (entered p (preambled p e)))
        (behindLoop p (preambled p e)) := by
    have hLoad : OrdinaryShape SpirvOp.Load 3 := by decide
    have hStore : OrdinaryShape SpirvOp.Store 2 := by decide
    refine (adds_ioCopied (fun _ _ _ => hLoad)
      (fun _ _ => hStore) p.stage).trans ?_
    exact adds_streamed controlForms_ordinary _ _
      fun inst hInst plan hPlan =>
        planForms_ordinary (hLate inst hInst) hPlan
  rcases words_behindLoop p _ hBody with
    ⟨vars, code, hVars, hCode, hWords⟩
  have hSized :
      ∀ i ∈ labelInst (preambled p e).nextId :: vars ++ code,
        Sized i := by
    rw [List.cons_append, List.forall_mem_cons,
      List.forall_mem_append]
    exact ⟨frameForms_sized.label _,
      fun i hI => (hVars i hI).2, fun i hI => (hCode i hI).2⟩
  have hRest : ∀ i ∈ code ++ endCode p, Ordinary i := by
    rw [List.forall_mem_append]
    exact ⟨hCode, ordinary_endCode p⟩
  rw [logicalLayout_iff (instructionsOf_emit hSized hWords),
    logicalLayoutIn_moduleOf, List.cons_append,
    List.cons_append, List.append_assoc]
  refine ⟨?_, rfl, ?_⟩
  · rw [List.forall_mem_cons, List.forall_mem_append]
    refine ⟨(controlForms_ordinary.label _).not_isGlobal,
      ?_, ?_⟩
    · intro i hI
      exact not_isGlobal_of_isLocalVar (hVars i hI).1
    · intro i hI
      exact (hRest i hI).not_isGlobal
  · rw [List.tail_cons, List.dropWhile_append_of_pos
      fun i hI => (hVars i hI).1]
    intro i hI
    have hMem := (List.dropWhile_sublist _).subset hI
    exact (hRest i hMem).not_isLocalVar

------
-- Late Declarations
------

open MaxwellDecoder StraightLine

variable {cfg : CfgAnnotation} {gprMap : GprMap}
variable {inst : ShaderInstruction}
variable {next : Option ShaderInstruction} {plan : Plan}
variable {e e' e'' : SpirvEmitter}

def IsGlobal (i : SpirvInst) : Prop :=
  i.isGlobal

theorem isGlobal_of_mem
    {i : SpirvInst}
    (hOpcode : i.opcode ∈ declarationOps) :
    IsGlobal i := by
  unfold IsGlobal
  simp [SpirvInst.isGlobal, hOpcode]

/- The first write of a predicate declares its variable. -/
theorem addsGlobal_finished
    (hVars : e.cfgState.predVars inst.dest.predIndex = none)
    (value : Nat) :
    AddsSome IsGlobal e (finished .pred inst gprMap value e) := by
  have hPointer : SizedShape SpirvOp.TypePointer 3 := by decide
  have hVariable : SizedShape SpirvOp.Variable 3 := by decide
  have hStore : SizedShape SpirvOp.Store 2 := by decide
  have hType : SpirvOp.TypePointer ∈ declarationOps := by
    decide
  have hDecl :
      AddsSome IsGlobal e (predDeclared inst.dest.predIndex e) := by
    unfold predDeclared
    rw [hVars]
    refine ⟨predDeclCode e, ?_, ?_, rfl⟩
    · unfold predDeclCode
      simp only [List.forall_mem_cons]
      exact ⟨hPointer, hVariable, by simp⟩
    · exact ⟨_, List.mem_cons_self, isGlobal_of_mem hType⟩
  apply hDecl.before
  apply adds_pushed
  intro i hI
  rw [List.mem_singleton] at hI
  subst hI
  exact hStore

/- A template with a constant defines it in the body. -/
theorem addsGlobal_emitted
    (hForms : PlanForms Sized plan)
    (hConst :
      ∃ l ∈ plan.template.lines, ∃ v, l.op.form = .const v)
    (srcs : List Nat) :
    AddsSome IsGlobal e (plan.template.emitted srcs e) := by
  rcases hConst with ⟨l, hL, v, hForm⟩
  have hType : SpirvOp.Constant ∈ declarationOps := by decide
  have hPlaced :
      ∃ q ∈ place (templateArgs e srcs) e.nextId 0
        plan.template.lines, q.op = l.op :=
    exists_mem_place hL
  rcases hPlaced with ⟨q, hQ, hOp⟩
  refine addsSome_template hForms srcs ⟨q, hQ, ?_⟩
  apply isGlobal_of_mem
  unfold placedInst
  rw [hOp, hForm]
  exact hType

/- Late opcodes define a constant or write a predicate. -/
theorem late_cases
    (hPlan : planOf inst = some plan)
    (hOp : inst.opcode ∈ lateOpcodes) :
    plan.gate = .always ∧
      (plan.dest = .pred ∨
        ∃ l ∈ plan.template.lines,
          ∃ v, l.op.form = .const v) := by
  simp only [lateOpcodes, List.mem_cons, List.not_mem_nil,
    or_false] at hOp
  unfold planOf at hPlan
  rcases hOp with hOp | hOp | hOp | hOp
  all_goals
    rw [hOp] at hPlan
    cases hPlan
  · exact ⟨rfl, Or.inl rfl⟩
  · exact ⟨rfl, Or.inl rfl⟩
  · exact ⟨rfl, Or.inr ⟨constLine 32, by decide, 32, rfl⟩⟩
  · exact ⟨rfl, Or.inr ⟨constLine 2, by decide, 2, rfl⟩⟩

theorem addsGlobal_stepped
    (hMapped : Mapped gprMap inst)
    (hActive : Active inst plan)
    (hOp : inst.opcode ∈ lateOpcodes)
    (hNext : 0 < e.nextId)
    (hVars : e.cfgState.predVars inst.dest.predIndex = none) :
    AddsSome IsGlobal e (stepped cfg gprMap inst next e) := by
  have hForms := planForms_sized hActive.1
  rcases late_cases hActive.1 hOp with ⟨hGate, hLate⟩
  apply addsSome_stepped hActive.1
  · intro hIs
    rw [hIs] at hOp
    exact absurd hOp (by decide)
  · intro hIs
    rw [hIs] at hOp
    exact absurd hOp (by decide)
  intro e1 hLe _ hPred
  apply addsSome_planned hMapped hActive (by omega)
  · rw [hGate]
    exact Nat.one_ne_zero
  intro e2 srcs _ hCfg
  rcases hLate with hDest | hConst
  · right
    intro v
    rw [hDest]
    apply addsGlobal_finished
    show e2.cfgState.predVars _ = none
    rw [hCfg, hPred]
    exact hVars
  · left
    exact addsGlobal_emitted hForms hConst srcs

/- An instruction that is not a compare declares nothing. -/
theorem predVars_of_not_late
    (hOp : inst.opcode ∉ lateOpcodes) :
    (stepped cfg gprMap inst next e).cfgState.predVars =
      e.cfgState.predVars := by
  apply predVars_stepped
  intro plan hPlan
  cases hDest : plan.dest with
  | gpr => rfl
  | pred =>
      rcases planOf_pred hPlan hDest with hIs | hIs
      all_goals
        rw [hIs] at hOp
        exact absurd (by decide) hOp

/-
  The first late instruction of a program declares something:
  before it no predicate has a variable.
-/
theorem addsGlobal_streamed
    (cfg : CfgAnnotation)
    (gprMap : GprMap) :
    ∀ (insts : List ShaderInstruction) (e : SpirvEmitter),
      (∀ inst ∈ insts, Mapped gprMap inst) →
        (∀ inst ∈ insts, inst.opcode ∈ lateOpcodes →
          ∃ plan, Active inst plan) →
          (∃ inst ∈ insts, inst.opcode ∈ lateOpcodes) →
            0 < e.nextId →
              (∀ q, e.cfgState.predVars q = none) →
                AddsSome IsGlobal e (streamed cfg gprMap insts e) := by
  intro insts
  induction insts with
  | nil =>
      intro e _ _ hLate
      rcases hLate with ⟨inst, hInst, _⟩
      cases hInst
  | cons inst rest ih =>
      intro e hMapped hActive hLate hNext hVars
      have hStep :
          Adds Sized e
            (stepped cfg gprMap inst rest.head? e) :=
        adds_stepped controlForms_sized
          fun plan hPlan => planForms_sized hPlan
      by_cases hOp : inst.opcode ∈ lateOpcodes
      · rcases hActive inst List.mem_cons_self hOp with
          ⟨plan, hPlan⟩
        have hGlobal :
            AddsSome IsGlobal e
              (stepped cfg gprMap inst rest.head? e) :=
          addsGlobal_stepped
            (hMapped inst List.mem_cons_self) hPlan hOp hNext
            (hVars _)
        exact hGlobal.before
          (adds_streamed controlForms_sized _ _
            fun _ _ _ hPlan => planForms_sized hPlan)
      · apply AddsSome.behind hStep
        apply ih
        · exact fun i hI =>
            hMapped i (List.mem_cons_of_mem inst hI)
        · exact fun i hI =>
            hActive i (List.mem_cons_of_mem inst hI)
        · rcases hLate with ⟨late, hMem, hIs⟩
          rcases List.mem_cons.mp hMem with hHead | hTail
          · subst hHead
            exact absurd hIs hOp
          · exact ⟨late, hTail, hIs⟩
        · exact lt_of_lt_of_le hNext hStep.nextId
        · rw [predVars_of_not_late hOp]
          exact hVars

/- A late opcode breaks the layout of a decoded program. -/
theorem not_layout_of_late
    (e : SpirvEmitter)
    {data : List U8}
    {stage : ShaderStage}
    {p : ShaderProgram}
    (hDecode : decode data stage = some p)
    (hLate : ∃ inst ∈ p.instructions,
      inst.opcode ∈ lateOpcodes) :
    ¬ LogicalLayout (emit e p) := by
  have hFrame :
      Adds Sized (preambled p e) (atLoop p (preambled p e)) :=
    adds_atLoop frameForms_sized p
  have hMapped :
      ∀ inst ∈ p.instructions,
        Mapped (gprMapOf p (entered p (preambled p e))) inst :=
    fun inst hInst =>
      mapped_of_regular (regular_of_decode hDecode hInst) hInst
        (Nat.succ_pos _)
  have hActive :
      ∀ inst ∈ p.instructions, inst.opcode ∈ lateOpcodes →
        ∃ plan, Active inst plan := by
    intro inst hInst hOp
    apply active_of_decode hDecode hInst
    exact List.mem_of_mem_drop (i := 2) hOp
  have hNext : 0 < (atLoop p (preambled p e)).nextId :=
    lt_of_lt_of_le (nextId_preambled_pos p e) hFrame.nextId
  have hVars :
      ∀ q, (atLoop p (preambled p e)).cfgState.predVars q =
        none := by
    intro q
    rw [cfgState_atLoop]
    show (preambled p e).cfgState.predVars q = none
    rw [cfgState_preambled]
  have hLoop :=
    addsGlobal_streamed (buildCfg p) _ _ _ hMapped hActive
      hLate hNext hVars
  rcases hLoop.behind hFrame with
    ⟨code, hSized, ⟨i, hI, hGlobal⟩, hWords⟩
  rw [logicalLayout_iff (instructionsOf_emit hSized hWords),
    logicalLayoutIn_moduleOf]
  intro hLayout
  exact hLayout.1 i (List.mem_append_left _ hI) hGlobal

/-
  The words emitted for a decoded program keep to the logical
  layout exactly when it has none of the late opcodes.
-/
theorem emit_logicalLayout_iff
    (e : SpirvEmitter)
    (data : List U8)
    (stage : ShaderStage)
    (p : ShaderProgram)
    (hDecode : decode data stage = some p) :
    LogicalLayout (emit e p) ↔
      ∀ inst ∈ p.instructions,
        inst.opcode ∉ lateOpcodes := by
  constructor
  · intro hLayout inst hInst hOp
    exact not_layout_of_late e hDecode ⟨inst, hInst, hOp⟩
      hLayout
  · exact layout_of_no_late e

/- An `FADD`, then `EXIT`. -/
def faddThenExit : List U8 :=
  [32, 0, 0, 0, 0, 0, 0, 0, 0, 16, 0, 0, 0, 0, 0, 0]

theorem faddThenExit_logicalLayout :
    ∃ p, decode faddThenExit .VertexB = some p ∧
      p.instructions.map (·.opcode) = [.FADD, .EXIT] ∧
        LogicalLayout (emit {} p) := by
  refine ⟨_, rfl, by decide, ?_⟩
  rw [emit_logicalLayout_iff {} faddThenExit .VertexB _ rfl]
  decide

/- A `LEA`, whose shift is a constant, then `EXIT`. -/
def leaThenExit : List U8 :=
  [96, 3, 0, 0, 0, 0, 0, 0, 0, 16, 0, 0, 0, 0, 0, 0]

theorem leaThenExit_not_logicalLayout :
    ∃ p, decode leaThenExit .VertexB = some p ∧
      ¬ LogicalLayout (emit {} p) := by
  refine ⟨_, rfl, ?_⟩
  have hDecode : decode leaThenExit .VertexB = some _ := rfl
  apply not_layout_of_late {} hDecode
  decide

end SpirvEmitter

end M1Switch
