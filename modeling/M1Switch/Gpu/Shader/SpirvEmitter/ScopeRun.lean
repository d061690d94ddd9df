import M1Switch.Gpu.Shader.SpirvEmitter.Scope

/-
  Scopes along a whole emission.

  Every step of the emission loop keeps the scope, and so does
  the loop; it starts in the scope of the module's head.

  Key definitions include:
    * `SpirvEmitter.StepFits`
    * `SpirvEmitter.IoScope`

  Main results:
    * `keeps_stepped`
    * `grow_behindLoop`
    * `scope_preambled`
-/

------
-- Control Flow
------

namespace M1Switch

namespace SpirvEmitter

variable {tex strict : Prop} {cfg : CfgAnnotation}
variable {m : GprMap} {Γ : List SpirvInst}
variable {e : SpirvEmitter} {inst : ShaderInstruction}
variable {next : Option ShaderInstruction}

/- An id more, without an instruction. -/
theorem Scope.grow_id
    (hScope : Scope tex m Γ e) :
    Grown tex strict m Γ e (e.pushed 1 []) [] where
  words := rfl
  checked := trivial
  range i hI := by cases hI
  new i hI := by cases hI
  sized i hI := by cases hI
  nextId := Nat.le_succ _
  scope := hScope.push (by
    intro x hX
    cases hX)

theorem labels_update
    {pcToLabel : Nat → Option Nat}
    {n pc id : Nat}
    (hLabels :
      ∀ q x, pcToLabel q = some x → 0 < x ∧ x < n)
    (hId : 0 < id ∧ id < n) :
    ∀ q x, Function.update pcToLabel pc (some id) q = some x →
      0 < x ∧ x < n := by
  intro q x hX
  by_cases hQ : q = pc
  · subst hQ
    rw [Function.update_self, Option.some.injEq] at hX
    rw [← hX]
    exact hId
  · rw [Function.update_of_ne hQ] at hX
    exact hLabels q x hX

/- The id of an offset is allocated behind its reservation. -/
theorem Scope.grow_reserved
    (hScope : Scope tex m Γ e)
    (strict : Prop)
    (pc : Nat) :
    Grown tex strict m Γ e (reserved pc e) [] ∧
      0 < labelIdOf pc e ∧
        labelIdOf pc e < (reserved pc e).nextId := by
  unfold reserved labelIdOf
  cases hPc : e.cfgState.pcToLabel pc with
  | some id =>
      exact ⟨Grown.refl hScope, hScope.labels pc id hPc⟩
  | none =>
      have hGrown : Grown tex strict m Γ e _ [] :=
        hScope.grow_id
      have hNew := hGrown.scope
      have hId :
          0 < e.nextId ∧ e.nextId < (e.pushed 1 []).nextId :=
        ⟨hScope.nextId, Nat.lt_succ_self _⟩
      refine ⟨hGrown.congr rfl rfl ?_, hId⟩
      exact hNew.setCfg hNew.pred
        (labels_update hNew.labels hId) hNew.stack

/- A label under an allocated id. -/
theorem Scope.grow_label
    (hScope : Scope tex m Γ e)
    {n id : Nat}
    (hId : 0 < id ∧ id < e.nextId + n) :
    Grown tex strict m Γ e (e.pushed n [labelInst id])
      [labelInst id] := by
  have hPure : Pure SpirvOp.Label := by decide
  refine hScope.grow ?_ ?_ ?_ ?_
    (controlForms_sized.label id)
  · intro x hX
    cases hX
  · intro hLabel
    exact absurd rfl hLabel
  · intro _
    exact settled_of_pure hPure
  · intro x hX
    have hIds : x ∈ [id] := hX
    rw [List.mem_singleton] at hIds
    rw [hIds]
    exact hId

theorem keeps_blockLabelled (pc : Nat) :
    Keeps tex strict m e (blockLabelled cfg pc e) := by
  intro Γ hScope
  unfold blockLabelled
  split_ifs
  · have hId : 0 < e.nextId ∧ e.nextId < e.nextId + 1 :=
      ⟨hScope.nextId, Nat.lt_succ_self _⟩
    have hGrown :
        Grown tex strict m Γ e (e.pushed 1 _)
          [labelInst e.nextId] :=
      hScope.grow_label hId
    have hNew := hGrown.scope
    refine ⟨_, hGrown.congr rfl rfl ?_⟩
    exact hNew.setCfg hNew.pred
      (labels_update hNew.labels hId) hNew.stack
  · exact ⟨[], Grown.refl hScope⟩

/- The regions behind a change of the stack. -/
theorem Scope.setStack
    (hScope : Scope tex m Γ e)
    {stack : List SsyStackEntry}
    (hStack : ∀ s ∈ stack, StackScope e.nextId s) :
    Scope tex m Γ { e with cfgState.ssyStack := stack } :=
  hScope.setCfg hScope.pred hScope.labels hStack

theorem keeps_synced (pc : Nat) :
    Keeps tex strict m e (synced pc e) := by
  intro Γ hScope
  have hStack := hScope.stack
  unfold synced
  cases hTop : e.cfgState.ssyStack with
  | nil => exact ⟨[], Grown.refl hScope⟩
  | cons top rest =>
      rw [hTop] at hStack
      dsimp only
      split_ifs
      · refine ⟨[], (Grown.refl hScope).congr rfl rfl ?_⟩
        rw [List.append_nil]
        apply hScope.setStack
        intro s hS
        exact hStack s (List.mem_cons_of_mem top hS)
      · exact ⟨[], Grown.refl hScope⟩

/- The continue label of a loop is allocated. -/
theorem Scope.grow_continued
    (hScope : Scope tex m Γ e)
    (strict : Prop)
    (pair : SsySyncPair)
    (pc : Nat) :
    Grown tex strict m Γ e (continued pair pc e).2 [] ∧
      (pair.type = .Loop →
        0 < (continued pair pc e).1 ∧
          (continued pair pc e).1 <
            (continued pair pc e).2.nextId) := by
  unfold continued
  by_cases hLoop : pair.type = .Loop
  · rw [if_pos hLoop]
    have hReserved :=
      hScope.grow_reserved strict
        (if pair.braTargetPc ≠ 0 then pair.braTargetPc
          else nextPc pc)
    exact ⟨hReserved.1, fun _ => hReserved.2⟩
  · rw [if_neg hLoop]
    exact ⟨Grown.refl hScope, fun h => absurd h hLoop⟩

theorem keeps_opened (pc : Nat) :
    Keeps tex strict m e (opened cfg pc e) := by
  intro Γ hScope
  unfold opened
  cases cfg.pairs.find? (·.ssyPc = pc) with
  | none => exact ⟨[], Grown.refl hScope⟩
  | some pair =>
      dsimp only
      rcases hScope.grow_reserved strict
        pair.syncPc with ⟨hMerge, hMergeId⟩
      rcases hMerge.scope.grow_continued strict
        pair pc with ⟨hCont, hContId⟩
      have hBoth := hMerge.trans hCont
      refine ⟨_, hBoth.congr rfl rfl ?_⟩
      apply hBoth.scope.setStack
      intro s hS
      rcases List.mem_cons.mp hS with hNew | hOld
      · subst hNew
        exact ⟨lt_of_lt_of_le hMergeId.2 hCont.nextId,
          hContId⟩
      · exact hBoth.scope.stack s hOld

/- An instruction that only names labels. -/
theorem Scope.grow_labelRefs
    (hScope : Scope tex m Γ e)
    {i : SpirvInst}
    (hResults : i.results = [])
    (hUses : i.uses = [])
    (hLabels :
      ∀ x ∈ i.ofKind .label, 0 < x ∧ x < e.nextId)
    (hPure : Pure i.opcode)
    (hSized : Sized i) :
    Grown tex strict m Γ e (e.pushed 0 [i]) [i] := by
  refine hScope.grow_none hResults ?_ hLabels
    (fun _ => settled_of_pure hPure) hSized
  intro x hX
  rw [hUses] at hX
  cases hX

/- The merge of an open region. -/
theorem Scope.grow_mergeCode
    (hScope : Scope tex m Γ e)
    {top : SsyStackEntry}
    (hTop : StackScope e.nextId top) :
    Grown tex strict m Γ e (e.pushed 0 (mergeCode top))
      (mergeCode top) := by
  have hSelection : Pure SpirvOp.SelectionMerge := by decide
  have hLoop : Pure SpirvOp.LoopMerge := by decide
  unfold mergeCode
  split_ifs with hIsSelection hIsLoop
  · refine hScope.grow_labelRefs rfl rfl ?_ hSelection
      (controlForms_sized.selectionMerge _ _)
    intro x hX
    have hIds : x ∈ [top.mergeLabel] := hX
    rw [List.mem_singleton] at hIds
    rw [hIds]
    exact ⟨Nat.pos_of_ne_zero hIsSelection.1, hTop.merge⟩
  · refine hScope.grow_labelRefs rfl rfl ?_ hLoop
      (controlForms_sized.loopMerge _ _ _)
    intro x hX
    have hIds :
        x ∈ [top.mergeLabel, top.continueLabel] := hX
    simp only [List.mem_cons, List.not_mem_nil, or_false]
      at hIds
    rcases hIds with hIds | hIds
    · rw [hIds]
      exact ⟨Nat.pos_of_ne_zero hIsLoop.1, hTop.merge⟩
    · rw [hIds]
      exact hTop.loop hIsLoop.2
  · rw [pushed_nil]
    exact Grown.refl hScope

theorem keeps_merged : Keeps tex strict m e (merged e) := by
  intro Γ hScope
  have hStack := hScope.stack
  unfold merged
  cases hTop : e.cfgState.ssyStack with
  | nil => exact ⟨[], Grown.refl hScope⟩
  | cons top rest =>
      rw [hTop] at hStack
      dsimp only
      have hOld := hStack top List.mem_cons_self
      have hGrown :
          Grown tex strict m Γ e _ (mergeCode top) :=
        hScope.grow_mergeCode hOld
      refine ⟨_, hGrown.congr rfl rfl ?_⟩
      apply hGrown.scope.setStack
      intro s hS
      rcases List.mem_cons.mp hS with hNew | hRest
      · subst hNew
        exact ⟨lt_of_le_of_lt (Nat.zero_le _) hOld.merge,
          hOld.loop⟩
      · exact hStack s (List.mem_cons_of_mem top hRest)

/- A branch to an allocated label. -/
theorem Scope.grow_branch
    (hScope : Scope tex m Γ e)
    {id : Nat}
    (hId : 0 < id ∧ id < e.nextId) :
    Grown tex strict m Γ e
      (e.pushed 0 [⟨SpirvOp.Branch, [id]⟩])
      [⟨SpirvOp.Branch, [id]⟩] := by
  have hBranch : Pure SpirvOp.Branch := by decide
  refine hScope.grow_labelRefs rfl rfl ?_ hBranch
    (controlForms_sized.branch _)
  intro x hX
  have hIds : x ∈ [id] := hX
  rw [List.mem_singleton] at hIds
  rw [hIds]
  exact hId

theorem keeps_branched (pc : Nat) :
    Keeps tex strict m e (branched pc e) := by
  intro Γ hScope
  rcases hScope.grow_reserved strict pc with
    ⟨hReserved, hId⟩
  exact ⟨_, hReserved.trans
    (hReserved.scope.grow_branch hId)⟩

/- The guard of a branch is a boolean value. -/
theorem Scope.grow_guard
    (hScope : Scope tex m Γ e) :
    Grown tex strict m Γ e
        (e.pushed (guardCode inst e).length
          (guardCode inst e))
        (guardCode inst e) ∧
      guardId inst e ∈
        resultsOf (Γ ++ guardCode inst e) := by
  unfold guardCode guardId
  cases hVar : e.cfgState.predVars inst.predGuardIndex with
  | some var =>
      have hBool : e.types.boolT ∈ resultsOf Γ :=
        hScope.head.lineType .boolT (mem_lineTypes _)
      refine ⟨hScope.grow_load hBool
        (hScope.pred _ _ hVar), ?_⟩
      rw [resultsOf_append]
      exact List.mem_append_right _ List.mem_cons_self
  | none =>
      dsimp only
      rw [List.length_nil, pushed_nil, List.append_nil]
      exact ⟨Grown.refl hScope,
        mem_resultsOf_of_typeOf hScope.head.holds⟩

/- A conditional branch on a value, to allocated labels. -/
theorem Scope.grow_guardedBranch
    (hScope : Scope tex m Γ e)
    {cond t f : Nat}
    (hCond : cond ∈ resultsOf Γ)
    (hT : 0 < t ∧ t < e.nextId)
    (hF : 0 < f ∧ f < e.nextId) :
    Grown tex strict m Γ e
      (e.pushed 0 [guardedBranchInst inst cond t f])
      [guardedBranchInst inst cond t f] := by
  have hPure : Pure SpirvOp.BranchConditional := by decide
  have hBranch :
      ∀ a b : Nat, 0 < a ∧ a < e.nextId →
        0 < b ∧ b < e.nextId →
          Grown tex strict m Γ e
            (e.pushed 0
              [⟨SpirvOp.BranchConditional, [cond, a, b]⟩])
            [⟨SpirvOp.BranchConditional, [cond, a, b]⟩] := by
    intro a b hA hB
    refine hScope.grow_none rfl ?_ ?_
      (fun _ => settled_of_pure hPure)
      (controlForms_sized.branchConditional _ _ _)
    · intro x hX
      have hUses : x ∈ [cond] := hX
      rw [List.mem_singleton] at hUses
      rw [hUses]
      exact hCond
    · intro x hX
      have hIds : x ∈ [a, b] := hX
      simp only [List.mem_cons, List.not_mem_nil, or_false]
        at hIds
      rcases hIds with hIds | hIds
      · rw [hIds]
        exact hA
      · rw [hIds]
        exact hB
  unfold guardedBranchInst
  split_ifs
  · exact hBranch f t hF hT
  · exact hBranch t f hT hF

/- A guard and the branch on it. -/
theorem Scope.grow_guarded
    (hScope : Scope tex m Γ e)
    {t f : Nat}
    (hT : 0 < t ∧ t < e.nextId)
    (hF : 0 < f ∧ f < e.nextId) :
    Grown tex strict m Γ e
      (e.pushed (guardCode inst e).length
        (guardCode inst e ++
          [guardedBranchInst inst (guardId inst e) t f]))
      (guardCode inst e ++
        [guardedBranchInst inst (guardId inst e) t f]) := by
  have hGuard :
      Grown tex strict m Γ e _ (guardCode inst e) ∧
        guardId inst e ∈ _ :=
    hScope.grow_guard
  rcases hGuard with ⟨hGuard, hCond⟩
  have hLe := hGuard.nextId
  have hBranch :
      Grown tex strict m _ _ (pushed _ 0 _)
        [guardedBranchInst inst (guardId inst e) t f] :=
    hGuard.scope.grow_guardedBranch hCond
      ⟨hT.1, lt_of_lt_of_le hT.2 hLe⟩
      ⟨hF.1, lt_of_lt_of_le hF.2 hLe⟩
  have hBoth := hGuard.trans hBranch
  rw [pushed_pushed, Nat.add_zero] at hBoth
  exact hBoth

/- The label behind them. -/
theorem Scope.grow_predBranch
    (hScope : Scope tex m Γ e)
    {t f : Nat}
    (hT : 0 < t ∧ t < e.nextId)
    (hF : 0 < f ∧ f < e.nextId) :
    Grown tex strict m Γ e
      (e.pushed (guardCode inst e).length
        (guardCode inst e ++
          [guardedBranchInst inst (guardId inst e) t f,
            labelInst f]))
      (guardCode inst e ++
        [guardedBranchInst inst (guardId inst e) t f,
          labelInst f]) := by
  have hGuarded :
      Grown tex strict m Γ e (pushed _ _ _)
        (guardCode inst e ++
          [guardedBranchInst inst (guardId inst e) t f]) :=
    hScope.grow_guarded hT hF
  have hLabel :
      Grown tex strict m _ _ (pushed _ 0 _) [labelInst f] :=
    hGuarded.scope.grow_label
      ⟨hF.1, lt_of_lt_of_le hF.2 hGuarded.nextId⟩
  have hAll := hGuarded.trans hLabel
  simp only [pushed_pushed, Nat.add_zero,
    List.append_assoc] at hAll
  exact hAll

theorem keeps_predBranched :
    Keeps tex strict m e (predBranched inst next e) := by
  intro Γ hScope
  have hMerge : Keeps tex strict m e (merged e) :=
    keeps_merged
  rcases hMerge Γ hScope with ⟨code, hMerged⟩
  rcases hMerged.scope.grow_reserved strict inst.targetPc with
    ⟨hTrue, hTrueId⟩
  rcases hTrue.scope.grow_reserved strict
    (falsePc inst next) with ⟨hFalse, hFalseId⟩
  have hBranch :
      Grown tex strict m _ _ (pushed _ _ _)
        (guardCode inst _ ++
          [guardedBranchInst inst (guardId inst _) _ _,
            labelInst _]) :=
    hFalse.scope.grow_predBranch
      ⟨hTrueId.1, lt_of_lt_of_le hTrueId.2 hFalse.nextId⟩
      hFalseId
  have hAll :=
    hMerged.trans (hTrue.trans (hFalse.trans
      (by simpa using hBranch)))
  have hLast := hAll.scope
  exact ⟨_, hAll.congr rfl rfl
    (hLast.setCfg hLast.pred hLast.labels hLast.stack)⟩

theorem keeps_broken : Keeps tex strict m e (broken e) := by
  unfold broken
  cases e.cfgState.ssyStack with
  | nil => exact Keeps.refl
  | cons top rest => exact keeps_branched _

theorem keeps_looped :
    Keeps tex strict m e (looped cfg e) := by
  unfold looped
  cases e.cfgState.ssyStack with
  | nil => exact Keeps.refl
  | cons top rest =>
      dsimp only
      split_ifs
      · cases cfg.pairs.find? (·.ssyPc = top.ssyPc) with
        | none => exact Keeps.refl
        | some pair => exact keeps_branched _
      · exact Keeps.refl

theorem keeps_kill :
    Keeps tex strict m e
      (e.pushed 0 [⟨SpirvOp.Kill, []⟩]) := by
  intro Γ hScope
  have hKill : Pure SpirvOp.Kill := by decide
  refine ⟨_, hScope.grow_labelRefs rfl rfl ?_ hKill
    controlForms_sized.kill⟩
  intro x hX
  cases hX

/- What a step needs of an instruction's plan. -/
structure StepFits
    (tex strict : Prop)
    (e : SpirvEmitter)
    (inst : ShaderInstruction) : Prop where
  tex :
    ∀ plan, planOf inst = some plan → plan.gate = .tex →
      e.texSampledImageVar ≠ 0 → tex
  strict :
    ∀ plan, planOf inst = some plan → strict →
      plan.gate = .always

/- One iteration keeps the scope. -/
theorem keeps_stepped
    (hFits : StepFits tex strict e inst) :
    Keeps tex strict m e (stepped cfg m inst next e) := by
  have hLabel :
      Keeps tex strict m e (blockLabelled cfg inst.pc e) :=
    keeps_blockLabelled _
  have hTex :
      (blockLabelled cfg inst.pc e).texSampledImageVar =
        e.texSampledImageVar := by
    unfold blockLabelled
    split_ifs <;> rfl
  refine hLabel.trans ?_
  unfold stepped
  cases advance_cases cfg m inst next with
  | sync hSync hEq =>
      rw [hEq]
      exact keeps_synced _
  | ssy hSsy hEq =>
      rw [hEq]
      exact keeps_opened _
  | bra hSsy hPlain hEq =>
      rw [hEq]
      exact keeps_merged.trans (keeps_branched _)
  | predBra hSsy hPlain hPred hEq =>
      rw [hEq]
      exact keeps_predBranched
  | exit hNot hExit hEq =>
      rw [hEq]
      exact Keeps.refl
  | brk hNot hBreak hEq =>
      rw [hEq]
      exact keeps_broken
  | cont hNot hCont hEq =>
      rw [hEq]
      exact keeps_looped
  | kil hNot hKil hEq =>
      rw [hEq]
      exact keeps_kill
  | none hNot hFlow hKil hNone hEq =>
      rw [hEq]
      exact Keeps.refl
  | plan hNot hFlow hKil plan hPlan hEq =>
      rw [hEq]
      refine keeps_planned (planOf_mem_plans hPlan) ?_
        (hFits.strict plan hPlan)
      rw [hTex]
      exact hFits.tex plan hPlan

------
-- The Whole Function
------

variable {p : ShaderProgram}

/- What a later step needs stays. -/
theorem StepFits.step
    {inst inst' : ShaderInstruction}
    (hFits : StepFits tex strict e inst) :
    StepFits tex strict (stepped cfg m inst' next e) inst := by
  have hHead :
      (stepped cfg m inst' next e).headIds = e.headIds :=
    (adds_stepped controlForms_sized
      fun _ hPlan => planForms_sized hPlan).headIds
  have hTex :
      (stepped cfg m inst' next e).texSampledImageVar =
        e.texSampledImageVar :=
    congrArg HeadIds.texSampledImageVar hHead
  refine ⟨?_, hFits.strict⟩
  rw [hTex]
  exact hFits.tex

/- The whole loop, by induction over the instructions. -/
theorem keeps_streamed (cfg : CfgAnnotation) :
    ∀ (insts : List ShaderInstruction) (e : SpirvEmitter),
      (∀ inst ∈ insts, StepFits tex strict e inst) →
        Keeps tex strict m e (streamed cfg m insts e) := by
  intro insts
  induction insts with
  | nil =>
      intro e _
      exact Keeps.refl
  | cons inst rest ih =>
      intro e hFits
      have hStep :
          Keeps tex strict m e
            (stepped cfg m inst rest.head? e) :=
        keeps_stepped (hFits inst List.mem_cons_self)
      refine hStep.trans (ih _ ?_)
      intro i hI
      exact (hFits i (List.mem_cons_of_mem inst hI)).step

/- Registers get variables of the register type. -/
theorem Scope.grow_declared :
    ∀ (ops : List ShaderOperand) (m : GprMap)
      (Γ : List SpirvInst) (e : SpirvEmitter),
      Scope tex m Γ e →
        ∃ code,
          Grown tex strict (declared ops m e).1 Γ e
            (declared ops m e).2 code := by
  intro ops
  induction ops with
  | nil =>
      intro m Γ e hScope
      exact ⟨[], Grown.refl hScope⟩
  | cons op ops ih =>
      intro m Γ e hScope
      unfold declared
      split_ifs with hNew
      · have hType : e.types.f32Fnptr ∈ resultsOf Γ :=
          mem_resultsOf_of_pointeeType hScope.head.registers
        have hVar :
            Grown tex strict m Γ e (e.pushed 1 _)
              [⟨SpirvOp.Variable,
                [e.types.f32Fnptr, e.nextId,
                  SpirvStorageClass.Function]⟩] :=
          hScope.grow_variable _ hType
        have hOld := hVar.scope
        have hScope' :
            Scope tex
              (Function.update m op.regIndex (some e.nextId))
              (Γ ++ [⟨SpirvOp.Variable,
                [e.types.f32Fnptr, e.nextId,
                  SpirvStorageClass.Function]⟩])
              (e.pushed 1 [⟨SpirvOp.Variable,
                [e.types.f32Fnptr, e.nextId,
                  SpirvStorageClass.Function]⟩]) := by
          refine ⟨hOld.fresh, hOld.nextId, hOld.head, hOld.tex,
            ?_, hOld.pred, hOld.labels, hOld.stack⟩
          intro r v hV
          by_cases hR : r = op.regIndex
          · subst hR
            rw [Function.update_self, Option.some.injEq] at hV
            rw [← hV]
            exact hScope.typeOf_next rfl rfl
          · rw [Function.update_of_ne hR] at hV
            exact hOld.gpr r v hV
        rcases ih _ _ _ hScope' with ⟨code, hGrown⟩
        exact ⟨_, hVar.trans hGrown⟩
      · exact ih m Γ e hScope

theorem Scope.grow_entered
    (hScope : Scope tex m Γ e) :
    Grown tex strict m Γ e (entered p e)
      [labelInst e.nextId] := by
  have hLabel :
      Grown tex strict m Γ e (e.pushed 1 _)
        [labelInst e.nextId] :=
    hScope.grow_label
      ⟨hScope.nextId, Nat.lt_succ_self _⟩
  have hNew := hLabel.scope
  exact hLabel.congr rfl rfl
    (hNew.setCfg hNew.pred hNew.labels hNew.stack)

/- Inputs and outputs of the stage point to vectors. -/
def IoScope
    (stage : ShaderStage)
    (Γ : List SpirvInst)
    (h : HeadIds) : Prop :=
  ∀ x ∈ interfaceIds stage h.io,
    pointeeOf Γ x = some h.types.vec4f32T

/- A copy from one variable to another. -/
theorem Scope.grow_copy
    (hScope : Scope tex m Γ e)
    {input output : Nat}
    (hInput : pointeeOf Γ input = some e.types.vec4f32T)
    (hOutput : pointeeOf Γ output = some e.types.vec4f32T) :
    Grown tex strict m Γ e
      (e.pushed 1
        [⟨SpirvOp.Load,
            [e.types.vec4f32T, e.nextId, input]⟩,
          ⟨SpirvOp.Store, [output, e.nextId]⟩])
      [⟨SpirvOp.Load, [e.types.vec4f32T, e.nextId, input]⟩,
        ⟨SpirvOp.Store, [output, e.nextId]⟩] := by
  have hVec : e.types.vec4f32T ∈ resultsOf Γ :=
    hScope.head.lineType .vec4f32T (mem_lineTypes _)
  have hLoad :
      Grown tex strict m Γ e (e.pushed 1 _)
        [⟨SpirvOp.Load,
          [e.types.vec4f32T, e.nextId, input]⟩] :=
    hScope.grow_load hVec hInput
  have hType :
      typeOf (Γ ++ [⟨SpirvOp.Load,
        [e.types.vec4f32T, e.nextId, input]⟩]) e.nextId =
          some e.types.vec4f32T :=
    hScope.typeOf_next rfl rfl
  have hStore :
      Grown tex strict m _ _ (pushed _ 0 _)
        [⟨SpirvOp.Store, [output, e.nextId]⟩] :=
    hLoad.scope.grow_store (pointeeOf_append hOutput)
      (mem_resultsOf_of_typeOf hType) fun _ => hType
  have hBoth := hLoad.trans hStore
  rw [pushed_pushed] at hBoth
  exact hBoth

theorem keeps_ioCopied
    (stage : ShaderStage)
    (hScope : Scope tex m Γ e)
    (hIo : IoScope stage Γ e.headIds) :
    Grown tex strict m Γ e (ioCopied stage e)
      (ioCode stage e) := by
  unfold IoScope interfaceIds at hIo
  unfold ioCopied ioCode ioCount
  dsimp only
  split_ifs at hIo ⊢ with hVertex hFragment
  · simp only [List.forall_mem_cons] at hIo
    rcases hIo with ⟨hIn0, hIn1, hOut0, hOut1, _⟩
    have hFirst :
        Grown tex strict m Γ e (e.pushed 1 _)
          [⟨SpirvOp.Load,
              [e.types.vec4f32T, e.nextId,
                e.io.vertInPosition]⟩,
            ⟨SpirvOp.Store,
              [e.io.vertOutPosition, e.nextId]⟩] :=
      hScope.grow_copy hIn0 hOut0
    have hSecond :
        Grown tex strict m _ _ (pushed _ 1 _)
          [⟨SpirvOp.Load,
              [e.types.vec4f32T, e.nextId + 1,
                e.io.vertInColor]⟩,
            ⟨SpirvOp.Store,
              [e.io.vertOutColor, e.nextId + 1]⟩] :=
      hFirst.scope.grow_copy (pointeeOf_append hIn1)
        (pointeeOf_append hOut1)
    have hBoth := hFirst.trans hSecond
    rw [pushed_pushed] at hBoth
    exact hBoth
  · simp only [List.forall_mem_cons] at hIo
    rcases hIo with ⟨hIn, hOut, _⟩
    exact hScope.grow_copy hIn hOut
  · rw [pushed_nil]
    exact Grown.refl hScope

theorem IoScope.append
    {stage : ShaderStage}
    {h : HeadIds}
    (hIo : IoScope stage Γ h)
    (b : List SpirvInst) :
    IoScope stage (Γ ++ b) h :=
  fun x hX => pointeeOf_append (hIo x hX)

theorem headIds_gprsDeclared
    (p : ShaderProgram)
    (e : SpirvEmitter) :
    (gprsDeclared p (entered p e)).headIds = e.headIds := by
  have hEntered :
      Adds (fun _ => True) e (entered p e) :=
    adds_entered ⟨fun _ => trivial, fun _ _ => trivial,
      fun _ _ _ => trivial, fun _ _ => trivial⟩ p
  have hDeclared :
      Adds (fun _ => True) (entered p e)
        (gprsDeclared p (entered p e)) :=
    adds_declared (fun _ _ => trivial) _ _ _
  exact hDeclared.headIds.trans hEntered.headIds

/- Registers and copies behind the entry label. -/
theorem Scope.grow_frame
    (hScope : Scope tex (fun _ => none) Γ (entered p e))
    (hIo : IoScope p.stage Γ e.headIds) :
    ∃ code,
      Grown tex strict (gprMapOf p (entered p e)) Γ
        (entered p e) (atLoop p e) code := by
  have hDeclared :
      ∃ code,
        Grown tex strict (gprMapOf p (entered p e)) Γ
          (entered p e) (gprsDeclared p (entered p e)) code :=
    Scope.grow_declared _ _ _ _ hScope
  rcases hDeclared with ⟨b, hB⟩
  have hIo' :
      IoScope p.stage (Γ ++ b)
        (gprsDeclared p (entered p e)).headIds := by
    rw [headIds_gprsDeclared]
    exact hIo.append b
  have hCopied :
      Grown tex strict _ _ _ (atLoop p e) _ :=
    keeps_ioCopied p.stage hB.scope hIo'
  exact ⟨_, hB.trans hCopied⟩

/- The code of a whole function behind its head. -/
theorem Scope.grow_behindLoop
    (hScope : Scope tex (fun _ => none) Γ e)
    (hIo : IoScope p.stage Γ e.headIds)
    (hFits :
      ∀ inst ∈ p.instructions,
        StepFits tex strict (atLoop p e) inst) :
    ∃ code,
      Grown tex strict (gprMapOf p (entered p e)) Γ e
        (behindLoop p e) code := by
  have hA :
      Grown tex strict _ Γ e (entered p e)
        [labelInst e.nextId] :=
    hScope.grow_entered
  have hFrame :
      ∃ code,
        Grown tex strict (gprMapOf p (entered p e)) _
          (entered p e) (atLoop p e) code :=
    hA.scope.grow_frame (hIo.append _)
  rcases hFrame with ⟨b, hB⟩
  have hLoop :
      Keeps tex strict (gprMapOf p (entered p e)) (atLoop p e)
        (behindLoop p e) :=
    keeps_streamed (buildCfg p) _ _ hFits
  rcases hLoop _ hB.scope with ⟨c, hC⟩
  exact ⟨_, hA.trans (hB.trans hC)⟩

------
-- The Scope Of The Head
------

/- What the head of a module is checked for. -/
def HeadOk (kind : StageKind) (tex : Bool) : Prop :=
  let Γ := preambleCode kind tex
  let e := preambleOf kind tex
  (∀ x ∈ resultsOf Γ, 0 < x ∧ x < e.nextId) ∧
    HeadScope Γ e.headIds ∧
      (tex = true → e.texSampledImageVar ∈ resultsOf Γ) ∧
        ∀ x ∈ interfaceIds kind.stage e.io,
          pointeeOf Γ x = some e.types.vec4f32T

instance (kind : StageKind) (tex : Bool) :
    Decidable (HeadOk kind tex) :=
  inferInstanceAs (Decidable (_ ∧ _ ∧ _ ∧ _))

theorem headOk (kind : StageKind) (tex : Bool) :
    HeadOk kind tex := by
  cases kind <;> cases tex <;> decide +kernel

theorem interfaceIds_kindOf
    (stage : ShaderStage)
    (io : ShaderIo) :
    interfaceIds stage io =
      interfaceIds (kindOf stage).stage io := by
  unfold interfaceIds
  rw [isVertex_kindOf stage, isFragment_kindOf stage]

theorem HeadScope.congr
    {e e' : SpirvEmitter}
    (hHead : HeadScope Γ e'.headIds)
    (hSame : SameHead e e') :
    HeadScope Γ e.headIds := by
  rcases hHead with ⟨h1, h2, h3, h4, h5, h6, h7⟩
  refine ⟨?_, ?_, ?_, ?_, ?_, ?_, ?_⟩ <;>
    simp only [headIds, hSame.types, hSame.constF32Zero,
      hSame.constF32One, hSame.constTrue, hSame.glslExtId,
      hSame.cbufVarId]
  · exact h1
  · exact h2
  · exact h3
  · exact h4
  · exact h5
  · exact h6
  · exact h7

/- The scope behind the head of a module. -/
theorem scope_preambled
    (p : ShaderProgram)
    (e : SpirvEmitter) :
    Scope (p.usesTextures = true) (fun _ => none)
      (preambleCode (kindOf p.stage) p.usesTextures)
      (preambled p e) := by
  have hSame := sameHead_preambled p e
  rcases headOk (kindOf p.stage) p.usesTextures with
    ⟨hFresh, hHead, hTex, _⟩
  refine ⟨?_, nextId_preambled_pos p e, hHead.congr hSame,
    ?_, ?_, ?_, ?_, ?_⟩
  · rw [hSame.nextId]
    exact hFresh
  · intro hUses
    have hVar := hTex hUses
    rw [hUses] at hVar ⊢
    rw [tex_preambled hUses]
    exact hVar
  · intro r v hV
    cases hV
  · rw [cfgState_preambled]
    intro q v hV
    cases hV
  · rw [cfgState_preambled]
    intro pc id hId
    cases hId
  · rw [cfgState_preambled]
    intro s hS
    cases hS

theorem ioScope_preambled
    (p : ShaderProgram)
    (e : SpirvEmitter) :
    IoScope p.stage
      (preambleCode (kindOf p.stage) p.usesTextures)
      (preambled p e).headIds := by
  have hSame := sameHead_preambled p e
  have hIo := (headOk (kindOf p.stage) p.usesTextures).2.2.2
  unfold IoScope
  rw [interfaceIds_kindOf]
  simp only [headIds, hSame.types, hSame.io]
  exact hIo

end SpirvEmitter

end M1Switch
