import M1Switch.Gpu.Shader.SpirvEmitter.Segments

/-
  Which instructions a module consists of.

  The head of a module depends on the kind of its stage and on
  whether it samples textures only.  The function behind it
  grows by the instructions of its segments; a property of all
  of these, whatever their operands, is checked once for each
  form of instruction.

  Key definitions include:
    * `preambleCode`
    * `SpirvEmitter.Adds`

  Main results:
    * `adds_stepped`
    * `adds_streamed`
    * `emit_wellSplit`
-/

------
-- The Head Of A Module
------

namespace M1Switch

namespace SpirvEmitter

/- What the emitter distinguishes about a stage. -/
inductive StageKind where
  | vertex
  | fragment
  | other
deriving DecidableEq, Repr

def StageKind.stage : StageKind → ShaderStage
| .vertex => .VertexA
| .fragment => .Fragment
| .other => .Compute

def kindOf (stage : ShaderStage) : StageKind :=
  if isVertex stage then .vertex
  else if isFragment stage then .fragment
  else .other

/- The emitter behind the header words. -/
def headed (e : SpirvEmitter) : SpirvEmitter :=
  (emitHeader.run (beginEmit e)).2

/- The emitter behind `OpFunction`. -/
def preambled
    (p : ShaderProgram)
    (e : SpirvEmitter) : SpirvEmitter :=
  ((emitPreamble p).run (headed e)).2

/- The same for a new emitter. -/
def preambleOf
    (kind : StageKind)
    (tex : Bool) : SpirvEmitter :=
  preambled { stage := kind.stage, usesTextures := tex } {}

/- The instructions up to `OpFunction`. -/
def preambleCode
    (kind : StageKind)
    (tex : Bool) : List SpirvInst :=
  (instructionsOf (preambleOf kind tex).words).getD []

def headerWords : List Nat :=
  [SPIRV_MAGIC, SPIRV_VERSION, 0, 0, 0]

theorem isVertex_kindOf (stage : ShaderStage) :
    isVertex stage = isVertex (kindOf stage).stage := by
  cases stage <;> rfl

theorem isFragment_kindOf (stage : ShaderStage) :
    isFragment stage = isFragment (kindOf stage).stage := by
  cases stage <;> rfl

/- Of a stage only its kind counts. -/
theorem emitPreamble_kindOf (p : ShaderProgram) :
    emitPreamble p =
      emitPreamble
        { stage := (kindOf p.stage).stage
          usesTextures := p.usesTextures } := by
  simp only [emitPreamble, emitCapabilities, emitShaderIo,
    emitEntryPoint, interfaceIds, emitExecutionMode,
    emitIoDecorations, emitIoVariables,
    isVertex_kindOf p.stage, isFragment_kindOf p.stage]

theorem preambled_kindOf
    (p : ShaderProgram)
    (e : SpirvEmitter) :
    preambled p e =
      preambled
        { stage := (kindOf p.stage).stage
          usesTextures := p.usesTextures } e := by
  unfold preambled
  rw [emitPreamble_kindOf p]

/- Emitters that agree on what the body depends on. -/
structure SameHead (e e' : SpirvEmitter) : Prop where
  words : e.words = e'.words
  nextId : e.nextId = e'.nextId
  types : e.types = e'.types
  glslExtId : e.glslExtId = e'.glslExtId
  cbufVarId : e.cbufVarId = e'.cbufVarId
  constF32Zero : e.constF32Zero = e'.constF32Zero
  constF32One : e.constF32One = e'.constF32One
  constTrue : e.constTrue = e'.constTrue
  io : e.io = e'.io

/- Nothing of an earlier call shows in the head. -/
theorem sameHead_preambled
    (p : ShaderProgram)
    (e : SpirvEmitter) :
    SameHead (preambled p e)
      (preambleOf (kindOf p.stage) p.usesTextures) := by
  rw [preambled_kindOf]
  cases kindOf p.stage <;> cases p.usesTextures <;>
    exact ⟨rfl, rfl, rfl, rfl, rfl, rfl, rfl, rfl, rfl⟩

/- A module that samples textures sets its variable. -/
theorem tex_preambled
    {p : ShaderProgram}
    (hTex : p.usesTextures = true)
    (e : SpirvEmitter) :
    (preambled p e).texSampledImageVar =
      (preambleOf (kindOf p.stage) true).texSampledImageVar := by
  rw [preambled_kindOf, hTex]
  cases kindOf p.stage <;> rfl

/- No label or predicate is there in front of the function. -/
theorem cfgState_preambled
    (p : ShaderProgram)
    (e : SpirvEmitter) :
    (preambled p e).cfgState = {} := by
  rw [preambled_kindOf]
  cases kindOf p.stage <;> cases p.usesTextures <;> rfl

theorem nextId_preambled_pos
    (p : ShaderProgram)
    (e : SpirvEmitter) :
    0 < (preambled p e).nextId := by
  rw [(sameHead_preambled p e).nextId]
  cases kindOf p.stage <;> cases p.usesTextures <;>
    decide

/- The head is encoded instructions behind the header. -/
theorem words_preambleOf (kind : StageKind) (tex : Bool) :
    (preambleOf kind tex).words =
      headerWords ++ encodeInsts (preambleCode kind tex) := by
  cases kind <;> cases tex <;> decide +kernel

------
-- Steps That Add Instructions
------

variable {F : SpirvInst → Prop} {e e' e'' : SpirvEmitter}

/- Ids set in front of the function. -/
structure HeadIds where
  types : TypeIds
  glslExtId : Nat
  cbufVarId : Nat
  texSampledImageVar : Nat
  constF32Zero : Nat
  constF32One : Nat
  constTrue : Nat
  io : ShaderIo

def headIds (e : SpirvEmitter) : HeadIds :=
  { types := e.types
    glslExtId := e.glslExtId
    cbufVarId := e.cbufVarId
    texSampledImageVar := e.texSampledImageVar
    constF32Zero := e.constF32Zero
    constF32One := e.constF32One
    constTrue := e.constTrue
    io := e.io }

/-
  Only instructions with the property are appended, and the
  ids of the head stay.
-/
structure Adds
    (F : SpirvInst → Prop)
    (e e' : SpirvEmitter) : Prop where
  words :
    ∃ code : List SpirvInst,
      (∀ i ∈ code, F i) ∧
        e'.words = e.words ++ encodeInsts code
  bounded : e.nextId ≤ e.bound → e'.nextId ≤ e'.bound
  nextId : e.nextId ≤ e'.nextId
  headIds : e'.headIds = e.headIds

/- The state of the labels may change. -/
theorem adds_of_eq
    (hWords : e'.words = e.words)
    (hNextId : e'.nextId = e.nextId)
    (hBound : e'.bound = e.bound)
    (hHead : e'.headIds = e.headIds) :
    Adds F e e' := by
  refine ⟨⟨[], ?_, ?_⟩, ?_, hNextId.ge, hHead⟩
  · intro i hI
    cases hI
  · simp [encodeInsts, hWords]
  · rw [hNextId, hBound]
    exact id

theorem Adds.refl : Adds F e e :=
  adds_of_eq rfl rfl rfl rfl

theorem Adds.trans
    (hFirst : Adds F e e')
    (hSecond : Adds F e' e'') :
    Adds F e e'' := by
  rcases hFirst.words with ⟨a, hA, hWordsA⟩
  rcases hSecond.words with ⟨b, hB, hWordsB⟩
  refine ⟨⟨a ++ b, ?_, ?_⟩, ?_,
    hFirst.nextId.trans hSecond.nextId,
    hSecond.headIds.trans hFirst.headIds⟩
  · intro i hI
    rcases List.mem_append.mp hI with hI | hI
    · exact hA i hI
    · exact hB i hI
  · rw [hWordsB, hWordsA, encodeInsts_append,
      List.append_assoc]
  · intro hBound
    exact hSecond.bounded (hFirst.bounded hBound)

theorem adds_pushed
    {ids : Nat}
    {code : List SpirvInst}
    (hCode : ∀ i ∈ code, F i) :
    Adds F e (e.pushed ids code) := by
  refine ⟨⟨code, hCode, rfl⟩, ?_, Nat.le_add_right _ _, rfl⟩
  intro hBound
  show e.nextId + ids ≤ boundAfter e ids
  unfold boundAfter
  split_ifs <;> omega

/- Forms of what stands in front of a branch. -/
structure MergeForms (F : SpirvInst → Prop) : Prop where
  selectionMerge : ∀ x y, F ⟨SpirvOp.SelectionMerge, [x, y]⟩
  loopMerge : ∀ x y z, F ⟨SpirvOp.LoopMerge, [x, y, z]⟩
  load : ∀ x y z, F ⟨SpirvOp.Load, [x, y, z]⟩

/- Forms of branches and what stands in front of them. -/
structure BranchForms (F : SpirvInst → Prop) : Prop
    extends MergeForms F where
  branch : ∀ x, F ⟨SpirvOp.Branch, [x]⟩
  branchConditional :
    ∀ x y z, F ⟨SpirvOp.BranchConditional, [x, y, z]⟩
  kill : F ⟨SpirvOp.Kill, []⟩

/- Forms of the control flow instructions. -/
structure ControlForms (F : SpirvInst → Prop) : Prop
    extends BranchForms F where
  label : ∀ x, F ⟨SpirvOp.Label, [x]⟩

/- Forms of the instructions a plan emits. -/
structure PlanForms
    (F : SpirvInst → Prop)
    (plan : Plan) : Prop where
  load : ∀ x y z, F ⟨SpirvOp.Load, [x, y, z]⟩
  store : ∀ x y, F ⟨SpirvOp.Store, [x, y]⟩
  line :
    ∀ l ∈ plan.template.lines,
      ∀ (e : SpirvEmitter) (id : Nat) (ops : List Nat),
        ops.length = l.refs.length →
          F (placedInst e ⟨id, l.op, ops⟩)
  decl :
    plan.dest = .pred →
      (∀ x y z, F ⟨SpirvOp.TypePointer, [x, y, z]⟩) ∧
        ∀ x y z, F ⟨SpirvOp.Variable, [x, y, z]⟩

variable {cfg : CfgAnnotation} {gprMap : GprMap}
variable {inst : ShaderInstruction}
variable {next : Option ShaderInstruction} {plan : Plan}

theorem form_loadCode
    (hLoad : ∀ x y z, F ⟨SpirvOp.Load, [x, y, z]⟩) :
    ∀ (rs : List Nat) (type n : Nat),
      ∀ i ∈ loadCode gprMap type n rs, F i := by
  intro rs
  induction rs with
  | nil =>
      intro type n i hI
      cases hI
  | cons r rs ih =>
      intro type n i hI
      unfold loadCode at hI
      split_ifs at hI
      · exact ih type n i hI
      · rcases List.mem_cons.mp hI with hHead | hTail
        · subst hHead
          exact hLoad _ _ _
        · exact ih type (n + 1) i hTail

theorem adds_loaded
    (hLoad : ∀ x y z, F ⟨SpirvOp.Load, [x, y, z]⟩)
    (rs : List Nat) :
    Adds F e (loaded gprMap rs e) :=
  adds_pushed (form_loadCode hLoad rs _ _)

/- Instructions of a plan's template. -/
theorem form_template
    (hForms : PlanForms F plan)
    (srcs : List Nat) :
    ∀ i ∈ plan.template.code e srcs, F i := by
  intro i hI
  rcases List.mem_map.mp hI with ⟨q, hQ, hInst⟩
  rcases StraightLine.mem_place hQ with
    ⟨l, hL, hOp, hOperands⟩
  rcases q with ⟨id, op, ops⟩
  subst hInst
  simp only at hOp
  rw [hOp]
  apply hForms.line l hL
  simp only at hOperands
  rw [hOperands, List.length_map]

theorem adds_template
    (hForms : PlanForms F plan)
    (srcs : List Nat) :
    Adds F e (plan.template.emitted srcs e) :=
  adds_pushed (form_template hForms srcs)

theorem adds_predDeclared
    (hPointer : ∀ x y z, F ⟨SpirvOp.TypePointer, [x, y, z]⟩)
    (hVar : ∀ x y z, F ⟨SpirvOp.Variable, [x, y, z]⟩)
    (predIdx : Nat) :
    Adds F e (predDeclared predIdx e) := by
  unfold predDeclared
  cases e.cfgState.predVars predIdx with
  | some var => exact Adds.refl
  | none =>
      have hPushed : Adds F e (e.pushed 2 (predDeclCode e)) := by
        apply adds_pushed
        intro i hI
        simp only [predDeclCode, List.mem_cons,
          List.not_mem_nil, or_false] at hI
        rcases hI with hI | hI
        · subst hI
          exact hPointer _ _ _
        · subst hI
          exact hVar _ _ _
      exact hPushed.trans (adds_of_eq rfl rfl rfl rfl)

theorem adds_finished
    (hForms : PlanForms F plan)
    (value : Nat) :
    Adds F e
      (finished plan.dest inst gprMap value e) := by
  cases hDest : plan.dest with
  | gpr =>
      apply adds_pushed
      intro i hI
      unfold storeCode at hI
      split_ifs at hI
      · cases hI
      · rw [List.mem_singleton] at hI
        subst hI
        exact hForms.store _ _
  | pred =>
      rcases hForms.decl hDest with ⟨hPointer, hVar⟩
      have hDeclared :=
        adds_predDeclared (e := e) hPointer hVar
          inst.dest.predIndex
      refine hDeclared.trans (adds_pushed ?_)
      intro i hI
      rw [List.mem_singleton] at hI
      subst hI
      exact hForms.store _ _

theorem adds_planned
    (hForms : PlanForms F plan) :
    Adds F e (planned plan inst gprMap e) := by
  unfold planned
  dsimp only
  split_ifs with hCount hReady
  · exact ((adds_loaded hForms.load _).trans
      (adds_template hForms _)).trans
        (adds_finished hForms _)
  · exact adds_loaded hForms.load _
  · exact Adds.refl

theorem adds_reserved (pc : Nat) :
    Adds F e (reserved pc e) := by
  unfold reserved
  cases e.cfgState.pcToLabel pc with
  | some id => exact Adds.refl
  | none =>
      have hPushed : Adds F e (e.pushed 1 []) := by
        apply adds_pushed
        intro i hI
        cases hI
      exact hPushed.trans (adds_of_eq rfl rfl rfl rfl)

theorem adds_blockLabelled
    (hLabel : ∀ x, F ⟨SpirvOp.Label, [x]⟩)
    (pc : Nat) :
    Adds F e (blockLabelled cfg pc e) := by
  unfold blockLabelled
  split_ifs
  · have hPushed :
        Adds F e (e.pushed 1 [labelInst e.nextId]) := by
      apply adds_pushed
      intro i hI
      rw [List.mem_singleton] at hI
      subst hI
      exact hLabel _
    exact hPushed.trans (adds_of_eq rfl rfl rfl rfl)
  · exact Adds.refl

theorem adds_synced (pc : Nat) : Adds F e (synced pc e) := by
  unfold synced
  cases e.cfgState.ssyStack with
  | nil => exact Adds.refl
  | cons top rest =>
      dsimp only
      split_ifs
      · exact adds_of_eq rfl rfl rfl rfl
      · exact Adds.refl

theorem adds_continued
    (pair : SsySyncPair)
    (pc : Nat) :
    Adds F e (continued pair pc e).2 := by
  unfold continued
  dsimp only
  split_ifs
  · exact adds_reserved _
  · exact adds_reserved _
  · exact Adds.refl

theorem adds_opened (pc : Nat) :
    Adds F e (opened cfg pc e) := by
  unfold opened
  cases cfg.pairs.find? (·.ssyPc = pc) with
  | none => exact Adds.refl
  | some pair =>
      exact ((adds_reserved _).trans
        (adds_continued pair pc)).trans
          (adds_of_eq rfl rfl rfl rfl)

theorem adds_merged
    (hForms : MergeForms F) :
    Adds F e (merged e) := by
  unfold merged
  cases e.cfgState.ssyStack with
  | nil => exact Adds.refl
  | cons top rest =>
      have hPushed : Adds F e (e.pushed 0 (mergeCode top)) := by
        apply adds_pushed
        intro i hI
        unfold mergeCode at hI
        split_ifs at hI
        · rw [List.mem_singleton] at hI
          subst hI
          exact hForms.selectionMerge _ _
        · rw [List.mem_singleton] at hI
          subst hI
          exact hForms.loopMerge _ _ _
        · cases hI
      exact hPushed.trans (adds_of_eq rfl rfl rfl rfl)

theorem adds_branched
    (hForms : BranchForms F)
    (pc : Nat) :
    Adds F e (branched pc e) := by
  refine (adds_reserved pc).trans ?_
  apply adds_pushed
  intro i hI
  rw [List.mem_singleton] at hI
  subst hI
  exact hForms.branch _

theorem form_guardedBranchInst
    (hForms : BranchForms F)
    (cond t f : Nat) :
    F (guardedBranchInst inst cond t f) := by
  unfold guardedBranchInst
  split_ifs <;> exact hForms.branchConditional _ _ _

theorem form_guardCode
    (hForms : MergeForms F) :
    ∀ i ∈ guardCode inst e, F i := by
  unfold guardCode
  cases e.cfgState.predVars inst.predGuardIndex with
  | some var =>
      intro i hI
      rw [List.mem_singleton] at hI
      subst hI
      exact hForms.load _ _ _
  | none =>
      intro i hI
      cases hI

theorem adds_predBranched
    (hForms : ControlForms F) :
    Adds F e (predBranched inst next e) := by
  unfold predBranched
  dsimp only
  have hReserved :
      Adds F e
        (reserved (falsePc inst next)
          (reserved inst.targetPc (merged e))) :=
    ((adds_merged hForms.toMergeForms).trans
      (adds_reserved _)).trans (adds_reserved _)
  have hCode :
      ∀ (e3 : SpirvEmitter) (cond t f : Nat),
        ∀ i ∈ guardCode inst e3 ++
          [guardedBranchInst inst cond t f, labelInst f],
            F i := by
    intro e3 cond t f i hI
    rcases List.mem_append.mp hI with hI | hI
    · exact form_guardCode hForms.toMergeForms i hI
    · simp only [List.mem_cons, List.not_mem_nil, or_false]
        at hI
      rcases hI with hI | hI
      · subst hI
        exact form_guardedBranchInst hForms.toBranchForms
          _ _ _
      · subst hI
        exact hForms.label _
  exact (hReserved.trans
    (adds_pushed (hCode _ _ _ _))).trans
      (adds_of_eq rfl rfl rfl rfl)

theorem adds_broken
    (hForms : BranchForms F) :
    Adds F e (broken e) := by
  unfold broken
  cases e.cfgState.ssyStack with
  | nil => exact Adds.refl
  | cons top rest => exact adds_branched hForms _

theorem adds_looped
    (hForms : BranchForms F) :
    Adds F e (looped cfg e) := by
  unfold looped
  cases e.cfgState.ssyStack with
  | nil => exact Adds.refl
  | cons top rest =>
      dsimp only
      split_ifs
      · cases cfg.pairs.find? (·.ssyPc = top.ssyPc) with
        | none => exact Adds.refl
        | some pair => exact adds_branched hForms _
      · exact Adds.refl

/- One iteration, given the forms of its plan. -/
theorem adds_stepped
    (hControl : ControlForms F)
    (hPlan :
      ∀ plan, planOf inst = some plan → PlanForms F plan) :
    Adds F e (stepped cfg gprMap inst next e) := by
  have hLabel : Adds F e (blockLabelled cfg inst.pc e) :=
    adds_blockLabelled hControl.label inst.pc
  refine hLabel.trans ?_
  unfold stepped
  cases advance_cases cfg gprMap inst next with
  | sync hSync hEq =>
      rw [hEq]
      exact adds_synced _
  | ssy hSsy hEq =>
      rw [hEq]
      exact adds_opened _
  | bra hSsy hPlain hEq =>
      rw [hEq]
      exact (adds_merged hControl.toMergeForms).trans
        (adds_branched hControl.toBranchForms _)
  | predBra hSsy hPlain hPred hEq =>
      rw [hEq]
      exact adds_predBranched hControl
  | exit hNot hExit hEq =>
      rw [hEq]
      exact Adds.refl
  | brk hNot hBreak hEq =>
      rw [hEq]
      exact adds_broken hControl.toBranchForms
  | cont hNot hCont hEq =>
      rw [hEq]
      exact adds_looped hControl.toBranchForms
  | kil hNot hKil hEq =>
      rw [hEq]
      apply adds_pushed
      intro i hI
      rw [List.mem_singleton] at hI
      subst hI
      exact hControl.kill
  | none hNot hFlow hKil hNone hEq =>
      rw [hEq]
      exact Adds.refl
  | plan hNot hFlow hKil plan hInst hEq =>
      rw [hEq]
      exact adds_planned (hPlan plan hInst)

/- The whole loop, by induction over the instructions. -/
theorem adds_streamed
    (hControl : ControlForms F) :
    ∀ (insts : List ShaderInstruction) (e : SpirvEmitter),
      (∀ inst ∈ insts, ∀ plan, planOf inst = some plan →
        PlanForms F plan) →
          Adds F e (streamed cfg gprMap insts e) := by
  intro insts
  induction insts with
  | nil =>
      intro e _
      exact Adds.refl
  | cons inst rest ih =>
      intro e hPlans
      have hStep : Adds F e
          (stepped cfg gprMap inst rest.head? e) :=
        adds_stepped hControl
          (hPlans inst List.mem_cons_self)
      exact hStep.trans
        (ih _ fun i hI =>
          hPlans i (List.mem_cons_of_mem inst hI))

------
-- Steps In Front Of The Loop
------

/- Forms of the instructions around the loop. -/
structure FrameForms (F : SpirvInst → Prop) : Prop where
  label : ∀ x, F ⟨SpirvOp.Label, [x]⟩
  declare :
    ∀ x y,
      F ⟨SpirvOp.Variable, [x, y, SpirvStorageClass.Function]⟩
  load : ∀ x y z, F ⟨SpirvOp.Load, [x, y, z]⟩
  store : ∀ x y, F ⟨SpirvOp.Store, [x, y]⟩

theorem adds_declared
    (hDeclare :
      ∀ x y,
        F ⟨SpirvOp.Variable,
          [x, y, SpirvStorageClass.Function]⟩) :
    ∀ (ops : List ShaderOperand) (gprMap : GprMap)
      (e : SpirvEmitter),
      Adds F e (declared ops gprMap e).2 := by
  intro ops
  induction ops with
  | nil =>
      intro gprMap e
      exact Adds.refl
  | cons op ops ih =>
      intro gprMap e
      unfold declared
      split_ifs
      · refine Adds.trans (adds_pushed ?_) (ih _ _)
        intro i hI
        rw [List.mem_singleton] at hI
        subst hI
        exact hDeclare _ _
      · exact ih _ _

theorem adds_entered
    (hForms : FrameForms F)
    (p : ShaderProgram) :
    Adds F e (entered p e) := by
  have hPushed :
      Adds F e (e.pushed 1 [labelInst e.nextId]) := by
    apply adds_pushed
    intro i hI
    rw [List.mem_singleton] at hI
    subst hI
    exact hForms.label _
  exact hPushed.trans (adds_of_eq rfl rfl rfl rfl)

theorem form_ioCode
    (hLoad : ∀ x y z, F ⟨SpirvOp.Load, [x, y, z]⟩)
    (hStore : ∀ x y, F ⟨SpirvOp.Store, [x, y]⟩)
    (stage : ShaderStage) :
    ∀ i ∈ ioCode stage e, F i := by
  unfold ioCode
  dsimp only
  split_ifs
  · simp only [List.cons_append, List.nil_append,
      List.forall_mem_cons]
    exact ⟨hLoad _ _ _, hStore _ _, hLoad _ _ _,
      hStore _ _, by simp⟩
  · simp only [List.forall_mem_cons]
    exact ⟨hLoad _ _ _, hStore _ _, by simp⟩
  · simp

theorem adds_ioCopied
    (hLoad : ∀ x y z, F ⟨SpirvOp.Load, [x, y, z]⟩)
    (hStore : ∀ x y, F ⟨SpirvOp.Store, [x, y]⟩)
    (stage : ShaderStage) :
    Adds F e (ioCopied stage e) :=
  adds_pushed (form_ioCode hLoad hStore stage)

/- Registers and copies behind the entry label. -/
theorem adds_frame
    (hDeclare :
      ∀ x y,
        F ⟨SpirvOp.Variable,
          [x, y, SpirvStorageClass.Function]⟩)
    (hLoad : ∀ x y z, F ⟨SpirvOp.Load, [x, y, z]⟩)
    (hStore : ∀ x y, F ⟨SpirvOp.Store, [x, y]⟩)
    (p : ShaderProgram) :
    Adds F (entered p e) (atLoop p e) := by
  have hDeclared :
      Adds F (entered p e) (gprsDeclared p (entered p e)) :=
    adds_declared hDeclare _ _ _
  exact hDeclared.trans (adds_ioCopied hLoad hStore _)

theorem adds_atLoop
    (hForms : FrameForms F)
    (p : ShaderProgram) :
    Adds F e (atLoop p e) :=
  (adds_entered hForms p).trans
    (adds_frame hForms.declare hForms.load hForms.store p)

theorem adds_behindLoop
    (hFrame : FrameForms F)
    (hControl : ControlForms F)
    (p : ShaderProgram)
    (hPlans :
      ∀ inst ∈ p.instructions,
        ∀ plan, planOf inst = some plan → PlanForms F plan) :
    Adds F e (behindLoop p e) :=
  (adds_atLoop hFrame p).trans
    (adds_streamed hControl _ _ hPlans)

------
-- Opcodes And Operand Counts
------

variable {G : Nat → Nat → Prop}

/- A property of the opcode and the number of operands. -/
def Shaped (G : Nat → Nat → Prop) (i : SpirvInst) : Prop :=
  G i.opcode i.operands.length

def branchShapes : List (Nat × Nat) :=
  [(SpirvOp.Branch, 1), (SpirvOp.BranchConditional, 3),
    (SpirvOp.SelectionMerge, 2), (SpirvOp.LoopMerge, 3),
    (SpirvOp.Kill, 0), (SpirvOp.Load, 3)]

theorem branchForms_shaped
    (hShapes : ∀ s ∈ branchShapes, G s.1 s.2) :
    BranchForms (Shaped G) := by
  simp only [branchShapes, List.forall_mem_cons] at hShapes
  rcases hShapes with ⟨hBranch, hConditional, hSelection,
    hLoop, hKill, hLoad, _⟩
  exact ⟨⟨fun _ _ => hSelection, fun _ _ _ => hLoop,
    fun _ _ _ => hLoad⟩, fun _ => hBranch,
    fun _ _ _ => hConditional, hKill⟩

theorem controlForms_shaped
    (hShapes :
      ∀ s ∈ (SpirvOp.Label, 1) :: branchShapes, G s.1 s.2) :
    ControlForms (Shaped G) := by
  rw [List.forall_mem_cons] at hShapes
  exact ⟨branchForms_shaped hShapes.2, fun _ => hShapes.1⟩

def frameShapes : List (Nat × Nat) :=
  [(SpirvOp.Label, 1), (SpirvOp.Variable, 3),
    (SpirvOp.Load, 3), (SpirvOp.Store, 2)]

theorem frameForms_shaped
    (hShapes : ∀ s ∈ frameShapes, G s.1 s.2) :
    FrameForms (Shaped G) := by
  simp only [frameShapes, List.forall_mem_cons] at hShapes
  rcases hShapes with ⟨hLabel, hVariable, hLoad, hStore, _⟩
  exact ⟨fun _ => hLabel, fun _ _ => hVariable,
    fun _ _ _ => hLoad, fun _ _ => hStore⟩

/- A line's instruction and the number of its operands. -/
def lineShape (l : StraightLine.Line LineOp) : Nat × Nat :=
  match l.op.form with
  | .core opcode => (opcode, l.refs.length + 2)
  | .ext _ => (SpirvOp.ExtInst, l.refs.length + 4)
  | .const _ => (SpirvOp.Constant, 3)

def planShapes (plan : Plan) : List (Nat × Nat) :=
  [(SpirvOp.Load, 3), (SpirvOp.Store, 2)] ++
    plan.template.lines.map lineShape ++
      if plan.dest = .pred then
        [(SpirvOp.TypePointer, 3), (SpirvOp.Variable, 3)]
      else []

theorem shaped_placedInst
    {l : StraightLine.Line LineOp}
    (hShape : G (lineShape l).1 (lineShape l).2)
    (id : Nat)
    (ops : List Nat)
    (hOps : ops.length = l.refs.length) :
    Shaped G (placedInst e ⟨id, l.op, ops⟩) := by
  rcases l with ⟨⟨form, type⟩, refs⟩
  have hCount : ops.length = refs.length := hOps
  cases form with
  | core opcode =>
      show G opcode (ops.length + 1 + 1)
      rw [hCount]
      exact hShape
  | ext instruction =>
      show G SpirvOp.ExtInst (ops.length + 1 + 1 + 1 + 1)
      rw [hCount]
      exact hShape
  | const value => exact hShape

theorem planForms_shaped
    (hShapes : ∀ s ∈ planShapes plan, G s.1 s.2) :
    PlanForms (Shaped G) plan := by
  have hLoad := hShapes (SpirvOp.Load, 3)
    (by simp [planShapes])
  have hStore := hShapes (SpirvOp.Store, 2)
    (by simp [planShapes])
  refine ⟨fun _ _ _ => hLoad, fun _ _ => hStore, ?_, ?_⟩
  · intro l hL e id ops hOps
    apply shaped_placedInst _ id ops hOps
    apply hShapes
    unfold planShapes
    rw [List.mem_append, List.mem_append]
    exact Or.inl (Or.inr (List.mem_map_of_mem hL))
  · intro hDest
    have hPointer := hShapes (SpirvOp.TypePointer, 3)
      (by simp [planShapes, hDest])
    have hVariable := hShapes (SpirvOp.Variable, 3)
      (by simp [planShapes, hDest])
    exact ⟨fun _ _ _ => hPointer, fun _ _ _ => hVariable⟩

end SpirvEmitter

------
-- The Whole Module
------

/-
  The words behind the header split into instructions, from a
  capability to the end of the function, each with its number
  of words in the upper half of its first word.
-/
structure WellSplit (words : List Nat) (bound : Nat) : Prop where
  split :
    ∃ insts : List SpirvInst,
      words.drop 5 = encodeInsts insts ∧
        instructionsOf words = some insts ∧
          (∀ i ∈ insts,
            ∃ first operands,
              i.encode = first :: operands ∧
                first >>> 16 = i.encode.length ∧
                  i.encode.length < 2 ^ 16) ∧
            insts.head?.map SpirvInst.opcode =
              some SpirvOp.Capability ∧
              insts.getLast?.map SpirvInst.opcode =
                some SpirvOp.FunctionEnd
  length : 5 ≤ words.length
  bound : words[3]? = some bound

namespace SpirvEmitter

/- The emitter at the end of a call. -/
def emitted (p : ShaderProgram) (e : SpirvEmitter) :
    SpirvEmitter :=
  ((emitModule p).run (beginEmit e)).2

theorem emitted_eq (p : ShaderProgram) (e : SpirvEmitter) :
    emitted p e =
      (behindLoop p (preambled p e)).pushed 0
        (endCode p) := by
  unfold emitted emitModule preambled headed
  rw [run_bind, run_bind, run_emitFunctionBody]

/- Word count and opcode fit their halves. -/
def SizedShape (opcode count : Nat) : Prop :=
  opcode < 2 ^ 16 ∧ count + 1 < 2 ^ 16

instance (opcode count : Nat) :
    Decidable (SizedShape opcode count) :=
  inferInstanceAs (Decidable (_ ∧ _))

def Sized (i : SpirvInst) : Prop :=
  Shaped SizedShape i

instance (i : SpirvInst) : Decidable (Sized i) :=
  inferInstanceAs (Decidable (SizedShape _ _))

/- Encoded words determine the instructions. -/
theorem encodeInsts_inj
    {a b : List SpirvInst}
    (hA : ∀ i ∈ a, Sized i)
    (hB : ∀ i ∈ b, Sized i)
    (hWords : encodeInsts a = encodeInsts b) :
    a = b := by
  have hLeft :
      splitInsts (encodeInsts a).length (encodeInsts a) =
        some a :=
    splitInsts_encodeInsts a _ (fun i hI => (hA i hI).1)
      (le_refl _)
  have hRight :
      splitInsts (encodeInsts b).length (encodeInsts b) =
        some b :=
    splitInsts_encodeInsts b _ (fun i hI => (hB i hI).1)
      (le_refl _)
  rw [hWords, hRight] at hLeft
  exact (Option.some.inj hLeft).symm

theorem controlForms_sized : ControlForms Sized :=
  controlForms_shaped (by decide)

theorem frameForms_sized : FrameForms Sized :=
  frameForms_shaped (by decide)

theorem sizedShape_plans :
    ∀ plan ∈ plans, ∀ s ∈ planShapes plan,
      SizedShape s.1 s.2 := by
  decide

/- No plan sets or names a label. -/
theorem plainOp_plans :
    ∀ plan ∈ plans, ∀ s ∈ planShapes plan, PlainOp s.1 := by
  decide

variable {e : SpirvEmitter} {p : ShaderProgram}
variable {code : List SpirvInst}

theorem quiet_planned
    {gprMap : GprMap}
    {inst : ShaderInstruction}
    {plan : Plan}
    (hPlan : planOf inst = some plan) :
    Quiet e (planned plan inst gprMap e) := by
  have hForms :
      PlanForms (Shaped fun opcode _ => PlainOp opcode) plan :=
    planForms_shaped
      (plainOp_plans plan (planOf_mem_plans hPlan))
  have hAdds :
      Adds (Shaped fun opcode _ => PlainOp opcode) e
        (planned plan inst gprMap e) :=
    adds_planned hForms
  rcases cfgState_planned plan with ⟨predVars, hState⟩
  refine ⟨hAdds.words, hAdds.nextId, ?_, ?_, ?_⟩
  all_goals rw [hState]

theorem planForms_sized
    {inst : ShaderInstruction}
    {plan : Plan}
    (hPlan : planOf inst = some plan) :
    PlanForms Sized plan :=
  planForms_shaped
    (sizedShape_plans plan (planOf_mem_plans hPlan))

theorem sized_preambleCode (kind : StageKind) (tex : Bool) :
    ∀ i ∈ preambleCode kind tex, Sized i := by
  cases kind <;> cases tex <;> decide +kernel

theorem sized_endCode (p : ShaderProgram) :
    ∀ i ∈ endCode p, Sized i := by
  unfold endCode
  split_ifs <;> decide

theorem adds_loop_sized
    (p : ShaderProgram)
    (e : SpirvEmitter) :
    Adds Sized e (behindLoop p e) :=
  adds_behindLoop frameForms_sized controlForms_sized p
    fun _ _ _ hPlan => planForms_sized hPlan

/- The instructions of a module with some code in its loop. -/
def moduleOf
    (p : ShaderProgram)
    (code : List SpirvInst) : List SpirvInst :=
  preambleCode (kindOf p.stage) p.usesTextures ++ code ++
    endCode p

/- The bound goes into the fourth word of the header. -/
theorem set_headerWords (bound : Nat) :
    headerWords.set 3 bound =
      [SPIRV_MAGIC, SPIRV_VERSION, 0, bound, 0] :=
  rfl

/- The words of a module, given the function's code. -/
theorem emit_eq_moduleOf
    (hWords :
      (behindLoop p (preambled p e)).words =
        (preambled p e).words ++ encodeInsts code) :
    emit e p =
      [SPIRV_MAGIC, SPIRV_VERSION, 0, (emitted p e).bound, 0]
        ++ encodeInsts (moduleOf p code) := by
  show (emitted p e).words.set 3 (emitted p e).bound = _
  generalize (emitted p e).bound = bound
  rw [emitted_eq, words_pushed, hWords,
    (sameHead_preambled p e).words, words_preambleOf,
    List.append_assoc, List.append_assoc,
    List.set_append_left _ _ (by decide), moduleOf,
    encodeInsts_append, encodeInsts_append,
    List.append_assoc, set_headerWords]

theorem sized_moduleOf
    (hCode : ∀ i ∈ code, Sized i) :
    ∀ i ∈ moduleOf p code, Sized i := by
  intro i hI
  unfold moduleOf at hI
  rw [List.mem_append, List.mem_append] at hI
  rcases hI with (hI | hI) | hI
  · exact sized_preambleCode _ _ i hI
  · exact hCode i hI
  · exact sized_endCode p i hI

/- The instructions of a call, given the function's code. -/
theorem instructionsOf_emit
    (hCode : ∀ i ∈ code, Sized i)
    (hWords :
      (behindLoop p (preambled p e)).words =
        (preambled p e).words ++ encodeInsts code) :
    instructionsOf (emit e p) = some (moduleOf p code) :=
  instructionsOf_encode rfl (emit_eq_moduleOf hWords)
    fun i hI => (sized_moduleOf hCode i hI).1

theorem nextId_le_bound_emitted
    (p : ShaderProgram)
    (e : SpirvEmitter) :
    (emitted p e).nextId ≤ (emitted p e).bound := by
  have hHead :
      (preambled p e).nextId ≤ (preambled p e).bound := by
    rw [preambled_kindOf]
    cases kindOf p.stage <;> cases p.usesTextures <;>
      exact Nat.le_max_right _ _
  rw [emitted_eq]
  exact (adds_loop_sized p _).bounded hHead

theorem head_preambleCode (kind : StageKind) (tex : Bool) :
    (preambleCode kind tex).head?.map SpirvInst.opcode =
      some SpirvOp.Capability := by
  cases kind <;> cases tex <;> decide +kernel

theorem getLast_endCode (p : ShaderProgram) :
    (endCode p).getLast? = some ⟨SpirvOp.FunctionEnd, []⟩ := by
  unfold endCode
  split_ifs <;> rfl

/- The header word of an encoded instruction. -/
theorem Sized.encode
    {i : SpirvInst}
    (hSized : Sized i) :
    ∃ first operands,
      i.encode = first :: operands ∧
        first >>> 16 = i.encode.length ∧
          i.encode.length < 2 ^ 16 :=
  ⟨_, _, rfl, instHeader_shiftRight hSized.1, hSized.2⟩

/-
  Every call gives words that split into instructions, with
  the bound in the header.
-/
theorem emit_wellSplit
    (e : SpirvEmitter)
    (p : ShaderProgram) :
    WellSplit (emit e p) (emitted p e).bound ∧
      (emitted p e).nextId ≤ (emitted p e).bound := by
  rcases (adds_loop_sized p (preambled p e)).words with
    ⟨code, hCode, hWords⟩
  have hEmit := emit_eq_moduleOf hWords
  have hSized := sized_moduleOf (p := p) hCode
  refine ⟨⟨⟨moduleOf p code, ?_, ?_, ?_, ?_, ?_⟩, ?_, ?_⟩,
    nextId_le_bound_emitted p e⟩
  · rw [hEmit]
    exact List.drop_left' rfl
  · exact instructionsOf_emit hCode hWords
  · intro i hI
    exact (hSized i hI).encode
  · unfold moduleOf
    rw [List.append_assoc, List.head?_append, Option.map_or,
      head_preambleCode]
    rfl
  · unfold moduleOf
    rw [List.getLast?_append, getLast_endCode]
    rfl
  · rw [hEmit, List.length_append]
    simp
  · rw [hEmit]
    rfl

end SpirvEmitter

end M1Switch
