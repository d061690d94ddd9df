import M1Switch.Gpu.Shader.SpirvEmitter.IdCount
import M1Switch.Gpu.Shader.SpirvEmitter.Predicates
import Mathlib.Data.List.Induction

/-
  Several programs emitted one after another by one emitter.

  A call starts the words, the ids and the label state anew,
  but neither the bound nor the variable of the texture.  So
  the words of a program depend on the earlier ones: an
  earlier program with more ids leaves its bound in the
  header, and one that samples leaves a variable with which
  a program that declares no texture samples as well.

  Key definitions include:
    * `afterAll`
    * `SpirvEmitter.Samples`

  Main results:
    * `alike_streamed`
    * `idBound_tex`
    * `historyIndependent_iff`
-/

------
-- Calls On One Emitter
------

namespace M1Switch

namespace SpirvEmitter

/- The emitter behind a call. -/
def afterEmit
    (e : SpirvEmitter)
    (p : ShaderProgram) : SpirvEmitter :=
  { emitted p e with words := emit e p }

/- A new emitter behind a list of programs. -/
def afterAll (history : List ShaderProgram) : SpirvEmitter :=
  history.foldl afterEmit {}

/- Some program declared a texture. -/
def texHeld (history : List ShaderProgram) : Bool :=
  history.any (·.usesTextures)

/- A texture instruction that has its coordinate. -/
def SamplesWith
    (registers : List Nat)
    (inst : ShaderInstruction) : Prop :=
  inst.opcode = .TEX ∧ 2 ≤ inst.srcCount ∧
    inst.src0.regIndex ∈ registers

instance
    (registers : List Nat)
    (inst : ShaderInstruction) :
    Decidable (SamplesWith registers inst) :=
  inferInstanceAs (Decidable (_ ∧ _))

def Samples (p : ShaderProgram) : Prop :=
  ∃ inst ∈ p.instructions, SamplesWith (registers p) inst

------
-- Texture Plans
------

open StraightLine

variable {inst : ShaderInstruction} {plan : Plan}

def texPlan : Plan :=
  { minCount := 2
    arity := 1
    template := texTemplate
    gate := .tex }

theorem planOf_tex (hOp : inst.opcode = .TEX) :
    planOf inst = some texPlan := by
  unfold planOf
  rw [hOp]
  rfl

/- Only the plan of a texture refers to its variable. -/
theorem refs_plans :
    ∀ plan ∈ plans, plan.gate ≠ .tex →
      (∀ l ∈ plan.template.lines, texRef ∉ l.refs) ∧
        plan.template.result ≠ texRef := by
  decide

theorem dest_texPlan :
    ∀ plan ∈ plans, plan.dest = .pred →
      plan.gate ≠ .tex := by
  decide

------
-- Emitters Alike But For What Stays
------

/- The same but for the bound and fields without use. -/
def Alike (e e' : SpirvEmitter) : Prop :=
  ∃ bound constFalse typesBuilt tex,
    e' =
      { e with
        bound := bound
        constFalse := constFalse
        typesBuilt := typesBuilt
        texSampledImageVar := tex }

variable {cfg : CfgAnnotation} {m : GprMap}
variable {e e' : SpirvEmitter}
variable {next : Option ShaderInstruction}

theorem Alike.words (hAlike : Alike e e') :
    e.words = e'.words := by
  rcases hAlike with ⟨_, _, _, _, rfl⟩
  rfl

theorem Alike.pushed
    (hAlike : Alike e e')
    (n : Nat)
    {code code' : List SpirvInst}
    (hCode : code = code') :
    Alike (e.pushed n code) (e'.pushed n code') := by
  rcases hAlike with ⟨_, _, _, _, rfl⟩
  subst hCode
  exact ⟨_, _, _, _, rfl⟩

theorem Alike.reserved
    (hAlike : Alike e e')
    (pc : Nat) :
    Alike (reserved pc e) (reserved pc e') ∧
      labelIdOf pc e = labelIdOf pc e' := by
  rcases hAlike with ⟨_, _, _, _, rfl⟩
  refine ⟨?_, rfl⟩
  unfold SpirvEmitter.reserved
  dsimp only
  cases e.cfgState.pcToLabel pc with
  | none => exact ⟨_, _, _, _, rfl⟩
  | some id => exact ⟨_, _, _, _, rfl⟩

theorem Alike.blockLabelled
    (hAlike : Alike e e')
    (pc : Nat) :
    Alike (blockLabelled cfg pc e)
      (blockLabelled cfg pc e') := by
  rcases hAlike with ⟨_, _, _, _, rfl⟩
  unfold SpirvEmitter.blockLabelled
  dsimp only
  split_ifs
  · exact ⟨_, _, _, _, rfl⟩
  · exact ⟨_, _, _, _, rfl⟩

theorem Alike.synced
    (hAlike : Alike e e')
    (pc : Nat) :
    Alike (synced pc e) (synced pc e') := by
  rcases hAlike with ⟨_, _, _, _, rfl⟩
  unfold SpirvEmitter.synced
  dsimp only
  cases e.cfgState.ssyStack with
  | nil => exact ⟨_, _, _, _, rfl⟩
  | cons top rest =>
      dsimp only
      split_ifs <;> exact ⟨_, _, _, _, rfl⟩

theorem Alike.merged (hAlike : Alike e e') :
    Alike (merged e) (merged e') := by
  rcases hAlike with ⟨_, _, _, _, rfl⟩
  unfold SpirvEmitter.merged
  dsimp only
  cases e.cfgState.ssyStack with
  | nil => exact ⟨_, _, _, _, rfl⟩
  | cons top rest => exact ⟨_, _, _, _, rfl⟩

theorem Alike.branched
    (hAlike : Alike e e')
    (pc : Nat) :
    Alike (branched pc e) (branched pc e') := by
  rcases hAlike.reserved pc with ⟨hReserved, hId⟩
  apply hReserved.pushed 0
  rw [hId]

theorem Alike.continued
    (hAlike : Alike e e')
    (pair : SsySyncPair)
    (pc : Nat) :
    Alike (continued pair pc e).2 (continued pair pc e').2 ∧
      (continued pair pc e).1 = (continued pair pc e').1 := by
  unfold SpirvEmitter.continued
  dsimp only
  split_ifs
  · exact hAlike.reserved _
  · exact hAlike.reserved _
  · exact ⟨hAlike, rfl⟩

theorem Alike.opened
    (hAlike : Alike e e')
    (pc : Nat) :
    Alike (opened cfg pc e) (opened cfg pc e') := by
  unfold SpirvEmitter.opened
  cases cfg.pairs.find? (·.ssyPc = pc) with
  | none => exact hAlike
  | some pair =>
      rcases hAlike.reserved pair.syncPc with ⟨hSync, hId⟩
      rcases hSync.continued pair pc with ⟨hCont, hTarget⟩
      dsimp only
      rw [hId, hTarget]
      revert hCont
      generalize
        (SpirvEmitter.continued pair pc
          (SpirvEmitter.reserved pair.syncPc e)).2 = e1
      generalize
        (SpirvEmitter.continued pair pc
          (SpirvEmitter.reserved pair.syncPc e')).2 = e2
      rintro ⟨_, _, _, _, rfl⟩
      exact ⟨_, _, _, _, rfl⟩

theorem Alike.predBranched (hAlike : Alike e e') :
    Alike (predBranched inst next e)
      (predBranched inst next e') := by
  have hMerged := hAlike.merged
  rcases hMerged.reserved inst.targetPc with ⟨hTrue, hTrueId⟩
  rcases hTrue.reserved (falsePc inst next) with
    ⟨hFalse, hFalseId⟩
  unfold SpirvEmitter.predBranched
  dsimp only
  rw [hTrueId, hFalseId]
  revert hFalse
  generalize
    SpirvEmitter.reserved (falsePc inst next)
      (SpirvEmitter.reserved inst.targetPc
        (SpirvEmitter.merged e)) = e1
  generalize
    SpirvEmitter.reserved (falsePc inst next)
      (SpirvEmitter.reserved inst.targetPc
        (SpirvEmitter.merged e')) = e2
  rintro ⟨_, _, _, _, rfl⟩
  exact ⟨_, _, _, _, rfl⟩

theorem Alike.broken (hAlike : Alike e e') :
    Alike (broken e) (broken e') := by
  have hStack :
      e'.cfgState.ssyStack = e.cfgState.ssyStack := by
    rcases hAlike with ⟨_, _, _, _, rfl⟩
    rfl
  unfold SpirvEmitter.broken
  rw [hStack]
  cases e.cfgState.ssyStack with
  | nil => exact hAlike
  | cons top rest => exact hAlike.branched _

theorem Alike.looped (hAlike : Alike e e') :
    Alike (looped cfg e) (looped cfg e') := by
  have hStack :
      e'.cfgState.ssyStack = e.cfgState.ssyStack := by
    rcases hAlike with ⟨_, _, _, _, rfl⟩
    rfl
  unfold SpirvEmitter.looped
  rw [hStack]
  cases e.cfgState.ssyStack with
  | nil => exact hAlike
  | cons top rest =>
      dsimp only
      split_ifs
      · cases cfg.pairs.find? (·.ssyPc = top.ssyPc) with
        | none => exact hAlike
        | some pair => exact hAlike.branched _
      · exact hAlike

------
-- Plans Of Emitters Alike
------

open StraightLine

/- The emitters agree on the texture, or it is not used. -/
def TexIrrelevant
    (e e' : SpirvEmitter)
    (unused : Prop) : Prop :=
  e.texSampledImageVar = e'.texSampledImageVar ∨ unused

/- No coordinate is there to sample with. -/
def Unsampled
    (m : GprMap)
    (inst : ShaderInstruction) : Prop :=
  inst.opcode = .TEX → 2 ≤ inst.srcCount →
    getGpr m inst.src0.regIndex = 0

theorem Alike.getD_templateArgs
    (hAlike : Alike e e')
    (srcs : List Nat)
    {i : Nat}
    (hTex : TexIrrelevant e e' (Ref.arg i ≠ texRef)) :
    (templateArgs e srcs).getD i 0 =
      (templateArgs e' srcs).getD i 0 := by
  have hThree :
      i = 3 →
        e.texSampledImageVar = e'.texSampledImageVar := by
    intro hI
    rcases hTex with hSame | hOther
    · exact hSame
    · exact absurd (congrArg Ref.arg hI) hOther
  rcases hAlike with ⟨_, _, _, _, rfl⟩
  match i with
  | 0 => rfl
  | 1 => rfl
  | 2 => rfl
  | 3 => exact hThree rfl
  | i + 4 => rfl

theorem Alike.place_template
    (hAlike : Alike e e')
    (hPlan : plan ∈ plans)
    (hTex : TexIrrelevant e e' (plan.gate ≠ .tex))
    (srcs : List Nat) :
    plan.template.code e srcs = plan.template.code e' srcs ∧
      plan.template.resultId e srcs =
        plan.template.resultId e' srcs := by
  have hLines :
      ∀ l ∈ plan.template.lines, ∀ i, Ref.arg i ∈ l.refs →
        (templateArgs e srcs).getD i 0 =
          (templateArgs e' srcs).getD i 0 := by
    intro l hL i hI
    apply hAlike.getD_templateArgs
    rcases hTex with hSame | hGate
    · exact Or.inl hSame
    · right
      intro hIs
      exact (refs_plans plan hPlan hGate).1 l hL (hIs ▸ hI)
  have hResult :
      ∀ i, plan.template.result = Ref.arg i →
        (templateArgs e srcs).getD i 0 =
          (templateArgs e' srcs).getD i 0 := by
    intro i hI
    apply hAlike.getD_templateArgs
    rcases hTex with hSame | hGate
    · exact Or.inl hSame
    · right
      rw [← hI]
      exact (refs_plans plan hPlan hGate).2
  have hPlaces :=
    place_congr (n := e.nextId) hLines 0
  rcases hAlike with ⟨_, _, _, _, rfl⟩
  refine ⟨?_, ?_⟩
  · unfold Template.code
    rw [hPlaces]
    rfl
  · unfold Template.resultId
    cases hRef : plan.template.result with
    | arg i => exact hResult i hRef
    | line i => rfl

theorem Alike.finished
    (hAlike : Alike e e')
    (dest : PlanDest)
    {value value' : Nat}
    (hValue : value = value') :
    Alike (finished dest inst m value e)
      (finished dest inst m value' e') := by
  subst hValue
  cases dest with
  | gpr => exact hAlike.pushed 0 rfl
  | pred =>
      rcases hAlike with ⟨_, _, _, _, rfl⟩
      unfold SpirvEmitter.finished predDeclared predVarId
      dsimp only
      cases e.cfgState.predVars inst.dest.predIndex with
      | none => exact ⟨_, _, _, _, rfl⟩
      | some var => exact ⟨_, _, _, _, rfl⟩

theorem Alike.loaded
    (hAlike : Alike e e')
    (rs : List Nat) :
    Alike (loaded m rs e) (loaded m rs e') := by
  rcases hAlike with ⟨_, _, _, _, rfl⟩
  exact ⟨_, _, _, _, rfl⟩

/- A gate is open in both, but for the texture's. -/
theorem Alike.ready_iff
    (hAlike : Alike e e')
    (hTex : TexIrrelevant e e' (plan.gate ≠ .tex)) :
    plan.Ready inst m e ↔ plan.Ready inst m e' := by
  have hGate : plan.gate.id e = plan.gate.id e' := by
    cases hIs : plan.gate with
    | always => rfl
    | cbuf =>
        rcases hAlike with ⟨_, _, _, _, rfl⟩
        rfl
    | tex =>
        rcases hTex with hSame | hOther
        · exact hSame
        · exact absurd hIs hOther
  unfold Plan.Ready
  rw [hGate]
  rcases hAlike with ⟨_, _, _, _, rfl⟩
  exact Iff.rfl

theorem not_ready_of_unsampled
    (hUnsampled : Unsampled m inst)
    (hOp : inst.opcode = .TEX)
    (hCount : 2 ≤ inst.srcCount) :
    ¬ texPlan.Ready inst m e := by
  intro hReady
  apply hReady.1
  have hRegs :
      srcRegs inst texPlan.arity = [inst.src0.regIndex] :=
    rfl
  rw [hRegs, loadIds, if_pos (hUnsampled hOp hCount)]
  exact List.mem_cons_self

theorem Alike.planned
    (hAlike : Alike e e')
    (hPlan : planOf inst = some plan)
    (hTex : TexIrrelevant e e' (Unsampled m inst)) :
    Alike (planned plan inst m e)
      (planned plan inst m e') := by
  have hLoaded :
      Alike (SpirvEmitter.loaded m (srcRegs inst plan.arity) e)
        (SpirvEmitter.loaded m
          (srcRegs inst plan.arity) e') :=
    hAlike.loaded _
  have hNextId : e.nextId = e'.nextId := by
    rcases hAlike with ⟨_, _, _, _, rfl⟩
    rfl
  unfold SpirvEmitter.planned
  by_cases hCount : plan.minCount ≤ inst.srcCount
  · rw [if_pos hCount, if_pos hCount]
    dsimp only
    by_cases hGate : TexIrrelevant e e' (plan.gate ≠ .tex)
    · have hBoth : plan.Ready inst m e ↔ plan.Ready inst m e' :=
        hAlike.ready_iff hGate
      by_cases hReady : plan.Ready inst m e
      · rw [if_pos hReady, if_pos (hBoth.mp hReady), hNextId]
        rcases hLoaded.place_template
          (planOf_mem_plans hPlan) hGate
          (loadIds m e'.nextId (srcRegs inst plan.arity)) with
          ⟨hCode, hResult⟩
        exact (hLoaded.pushed _ hCode).finished _ hResult
      · rw [if_neg hReady,
          if_neg fun h => hReady (hBoth.mpr h)]
        exact hLoaded
    · unfold TexIrrelevant at hGate hTex
      rw [not_or, not_not] at hGate
      have hUnsampled := hTex.resolve_left hGate.1
      have hOp := opcode_of_gate hPlan hGate.2
      have hIs : plan = texPlan :=
        Option.some.inj (hPlan.symm.trans (planOf_tex hOp))
      subst hIs
      rw [if_neg (not_ready_of_unsampled hUnsampled hOp hCount),
        if_neg (not_ready_of_unsampled hUnsampled hOp hCount)]
      exact hLoaded
  · rw [if_neg hCount, if_neg hCount]
    exact hAlike

theorem Alike.advanced
    (hAlike : Alike e e')
    (hTex : TexIrrelevant e e' (Unsampled m inst)) :
    Alike (advanced cfg m inst next e)
      (advanced cfg m inst next e') := by
  cases advance_cases cfg m inst next with
  | sync hSync hEq =>
      rw [hEq, hEq]
      exact hAlike.synced _
  | ssy hSsy hEq =>
      rw [hEq, hEq]
      exact hAlike.opened _
  | bra hSsy hPlain hEq =>
      rw [hEq, hEq]
      exact hAlike.merged.branched _
  | predBra hSsy hPlain hPred hEq =>
      rw [hEq, hEq]
      exact hAlike.predBranched
  | exit hNot hExit hEq =>
      rw [hEq, hEq]
      exact hAlike
  | brk hNot hBreak hEq =>
      rw [hEq, hEq]
      exact hAlike.broken
  | cont hNot hCont hEq =>
      rw [hEq, hEq]
      exact hAlike.looped
  | kil hNot hKil hEq =>
      rw [hEq, hEq]
      exact hAlike.pushed 0 rfl
  | none hNot hFlow hKil hNone hEq =>
      rw [hEq, hEq]
      exact hAlike
  | plan hNot hFlow hKil plan hPlan hEq =>
      rw [hEq, hEq]
      exact hAlike.planned hPlan hTex

/- The texture is never set in the function. -/
theorem tex_stepped :
    (stepped cfg m inst next e).texSampledImageVar =
      e.texSampledImageVar :=
  congrArg HeadIds.texSampledImageVar
    (adds_stepped controlForms_sized
      fun _ hPlan => planForms_sized hPlan).headIds

theorem Alike.stepped
    (hAlike : Alike e e')
    (hTex : TexIrrelevant e e' (Unsampled m inst)) :
    Alike (stepped cfg m inst next e)
      (stepped cfg m inst next e') := by
  apply (hAlike.blockLabelled inst.pc).advanced
  have hSame :
      ∀ e : SpirvEmitter,
        (SpirvEmitter.blockLabelled cfg inst.pc
            e).texSampledImageVar =
          e.texSampledImageVar := by
    intro e
    unfold SpirvEmitter.blockLabelled
    split_ifs <;> rfl
  unfold TexIrrelevant at hTex ⊢
  rw [hSame, hSame]
  exact hTex

/- The loop, by induction over the instructions. -/
theorem alike_streamed :
    ∀ (insts : List ShaderInstruction)
      (e e' : SpirvEmitter),
      Alike e e' →
        TexIrrelevant e e' (∀ inst ∈ insts, Unsampled m inst) →
          Alike (streamed cfg m insts e)
            (streamed cfg m insts e') := by
  intro insts
  induction insts with
  | nil =>
      intro e e' hAlike _
      exact hAlike
  | cons inst rest ih =>
      intro e e' hAlike hTex
      have hHere : TexIrrelevant e e' (Unsampled m inst) :=
        hTex.imp_right fun hAll =>
          hAll inst List.mem_cons_self
      apply ih _ _ (hAlike.stepped hHere)
      unfold TexIrrelevant at hTex ⊢
      rw [tex_stepped, tex_stepped]
      exact hTex.imp_right fun hAll i hI =>
        hAll i (List.mem_cons_of_mem inst hI)

------
-- Calls Of Emitters Alike
------

variable {p : ShaderProgram}

/- What the head agrees on is all but what stays. -/
theorem alike_of_sameHead
    (hHead : SameHead e' e)
    (hState : e'.cfgState = e.cfgState) :
    Alike e e' := by
  refine ⟨e'.bound, e'.constFalse, e'.typesBuilt,
    e'.texSampledImageVar, ?_⟩
  rw [← hHead.words, ← hHead.nextId, ← hHead.types,
    ← hHead.glslExtId, ← hHead.cbufVarId,
    ← hHead.constF32Zero, ← hHead.constF32One,
    ← hHead.constTrue, ← hHead.io, ← hState]

/- The head of a module is the same on every emitter. -/
theorem alike_preambled
    (p : ShaderProgram)
    (e e' : SpirvEmitter) :
    Alike (preambled p e) (preambled p e') := by
  have hHead := sameHead_preambled p e
  have hHead' := sameHead_preambled p e'
  apply alike_of_sameHead
  · exact
      ⟨hHead'.words.trans hHead.words.symm,
        hHead'.nextId.trans hHead.nextId.symm,
        hHead'.types.trans hHead.types.symm,
        hHead'.glslExtId.trans hHead.glslExtId.symm,
        hHead'.cbufVarId.trans hHead.cbufVarId.symm,
        hHead'.constF32Zero.trans hHead.constF32Zero.symm,
        hHead'.constF32One.trans hHead.constF32One.symm,
        hHead'.constTrue.trans hHead.constTrue.symm,
        hHead'.io.trans hHead.io.symm⟩
  · rw [cfgState_preambled, cfgState_preambled]

theorem alike_declared :
    ∀ (ops : List ShaderOperand) (m : GprMap)
      (e e' : SpirvEmitter),
      Alike e e' →
        (declared ops m e).1 = (declared ops m e').1 ∧
          Alike (declared ops m e).2 (declared ops m e').2 := by
  intro ops
  induction ops with
  | nil =>
      intro m e e' hAlike
      exact ⟨rfl, hAlike⟩
  | cons op ops ih =>
      intro m e e' hAlike
      unfold declared
      split_ifs
      · rcases hAlike with ⟨_, _, _, _, rfl⟩
        exact ih _ _ _ ⟨_, _, _, _, rfl⟩
      · exact ih _ _ _ hAlike

theorem alike_atLoop
    (hAlike : Alike e e') :
    gprMapOf p (entered p e) = gprMapOf p (entered p e') ∧
      Alike (atLoop p e) (atLoop p e') := by
  have hEntered : Alike (entered p e) (entered p e') := by
    rcases hAlike with ⟨_, _, _, _, rfl⟩
    exact ⟨_, _, _, _, rfl⟩
  rcases alike_declared (gprOperands p) (fun _ => none) _ _
    hEntered with ⟨hMap, hDeclared⟩
  refine ⟨hMap, hDeclared.pushed _ ?_⟩
  unfold gprsDeclared
  revert hDeclared
  generalize
    (declared (gprOperands p) (fun _ => none)
      (entered p e)).2 = e1
  generalize
    (declared (gprOperands p) (fun _ => none)
      (entered p e')).2 = e2
  rintro ⟨_, _, _, _, rfl⟩
  rfl

/- Without samples nothing reads the texture. -/
theorem unsampled_of_not_samples
    (hSamples : ¬ Samples p) :
    ∀ inst ∈ p.instructions,
      Unsampled (gprMapOf p (entered p e)) inst := by
  intro inst hInst hOp hCount
  by_contra hVar
  apply hSamples
  refine ⟨inst, hInst, hOp, hCount, ?_⟩
  exact
    ((registered_gprMapOf (Nat.succ_pos _)).2.getGpr_iff _).mp
      hVar

/- What a call emits behind the header. -/
theorem words_emitted
    (hTex :
      TexIrrelevant (preambled p e) (preambled p e')
        (¬ Samples p)) :
    (emitted p e).words = (emitted p e').words := by
  have hHead := alike_preambled p e e'
  rcases alike_atLoop (p := p) hHead with ⟨hMap, hStart⟩
  have hSame :
      ∀ e : SpirvEmitter,
        (atLoop p e).texSampledImageVar =
          e.texSampledImageVar :=
    fun e =>
      congrArg HeadIds.texSampledImageVar
        (adds_atLoop frameForms_sized p).headIds
  have hLoop :
      Alike (behindLoop p (preambled p e))
        (behindLoop p (preambled p e')) := by
    unfold behindLoop
    rw [← hMap]
    apply alike_streamed _ _ _ hStart
    unfold TexIrrelevant at hTex ⊢
    rw [hSame, hSame]
    exact hTex.imp_right unsampled_of_not_samples
  rw [emitted_eq, emitted_eq]
  exact (hLoop.pushed 0 rfl).words

------
-- What The Texture Costs
------

variable {regs : List Nat} {st : IdState}

/- A texture plan is carried with a texture only. -/
theorem carried_texPlan_iff (tex : Bool) :
    Carried ⟨cfg, regs, tex⟩ inst texPlan ↔
      (2 ≤ inst.srcCount ∧ inst.src0.regIndex ∈ regs) ∧
        tex = true := by
  have hRegs :
      srcRegs inst texPlan.arity = [inst.src0.regIndex] :=
    rfl
  unfold Carried
  rw [hRegs]
  simp [texPlan, and_assoc]

/- Other plans are carried with and without. -/
theorem carried_of_ne
    (hGate : plan.gate ≠ .tex)
    (tex : Bool) :
    Carried ⟨cfg, regs, tex⟩ inst plan ↔
      Carried ⟨cfg, regs, false⟩ inst plan := by
  unfold Carried
  simp [hGate]

theorem valueTests_tex :
    valueTests ⟨cfg, regs, true⟩ inst =
      valueTests ⟨cfg, regs, false⟩ inst := by
  unfold valueTests
  cases hPlan : valuePlanOf inst with
  | none => rfl
  | some plan =>
      have hOf : planOf inst = some plan := by
        unfold valuePlanOf at hPlan
        split_ifs at hPlan
        exact hPlan
      dsimp only
      unfold planTests
      by_cases hDest : plan.dest = .pred
      · have hGate :=
          dest_texPlan plan (planOf_mem_plans hOf) hDest
        simp only [carried_of_ne hGate true]
      · simp only [hDest, and_false, if_false]

/- The code of a sample is what the texture adds. -/
theorem valueIds_tex (tested : List Nat) :
    valueIds ⟨cfg, regs, true⟩ inst tested =
      valueIds ⟨cfg, regs, false⟩ inst tested +
        if SamplesWith regs inst then texTemplate.lines.length
        else 0 := by
  unfold valueIds
  cases hPlan : valuePlanOf inst with
  | none =>
      rw [if_neg]
      rintro ⟨hOp, -, -⟩
      rw [valuePlanOf, hOp, planOf_tex hOp] at hPlan
      simp at hPlan
  | some plan =>
      have hOf : planOf inst = some plan := by
        unfold valuePlanOf at hPlan
        split_ifs at hPlan
        exact hPlan
      by_cases hGate : plan.gate = .tex
      · have hOp := opcode_of_gate hOf hGate
        have hIs : plan = texPlan :=
          Option.some.inj (hOf.symm.trans (planOf_tex hOp))
        subst hIs
        have hSamples :
            SamplesWith regs inst ↔
              2 ≤ inst.srcCount ∧ inst.src0.regIndex ∈ regs :=
          and_iff_right hOp
        have hDecl : declIds inst texPlan tested = 0 := rfl
        dsimp only
        unfold planIds
        simp only [carried_texPlan_iff, hSamples, hDecl,
          and_true, Bool.false_eq_true, and_false, if_false]
        have hMin : texPlan.minCount = 2 := rfl
        rw [hMin]
        by_cases hCount : 2 ≤ inst.srcCount
        · simp only [hCount, true_and, if_true]
          rfl
        · simp only [hCount, false_and, if_false]
      · have hOther : ¬ SamplesWith regs inst := by
          rintro ⟨hOp, -, -⟩
          apply hGate
          rw [planOf_tex hOp] at hOf
          rw [← Option.some.inj hOf]
          rfl
        dsimp only
        unfold planIds
        rw [if_neg hOther, Nat.add_zero]
        simp only [carried_of_ne hGate true]

theorem step_tex :
    st.step ⟨cfg, regs, true⟩ inst next =
      st.step ⟨cfg, regs, false⟩ inst next := by
  unfold IdState.step
  rw [valueTests_tex]

/- The loop, by induction over the instructions. -/
theorem loopIds_tex :
    ∀ (insts : List ShaderInstruction) (st : IdState),
      loopIds ⟨cfg, regs, true⟩ insts st =
        loopIds ⟨cfg, regs, false⟩ insts st +
          (insts.filter (SamplesWith regs)).length *
            texTemplate.lines.length := by
  intro insts
  induction insts with
  | nil =>
      intro st
      rfl
  | cons inst rest ih =>
      intro st
      have hInst :
          instIds ⟨cfg, regs, true⟩ inst rest.head? st =
            instIds ⟨cfg, regs, false⟩ inst rest.head? st +
              if SamplesWith regs inst then
                texTemplate.lines.length
              else 0 := by
        unfold instIds
        rw [valueIds_tex]
        dsimp only
        omega
      rw [loopIds, loopIds, hInst, ih, step_tex]
      by_cases hSamples : SamplesWith regs inst
      · have hKept :
            (inst :: rest).filter (SamplesWith regs) =
              inst :: rest.filter (SamplesWith regs) :=
          List.filter_cons_of_pos (decide_eq_true hSamples)
        rw [hKept, if_pos hSamples, List.length_cons,
          Nat.succ_mul]
        omega
      · have hLeft :
            (inst :: rest).filter (SamplesWith regs) =
              rest.filter (SamplesWith regs) := by
          apply List.filter_cons_of_neg
          simpa using hSamples
        rw [hLeft, if_neg hSamples]
        omega

/- A texture costs ids only where it is sampled. -/
theorem idBound_tex (p : ShaderProgram) :
    idBound true p =
      idBound false p +
        (p.instructions.filter
            (SamplesWith (registers p))).length *
          texTemplate.lines.length := by
  unfold idBound
  rw [loopIds_tex]
  omega

theorem idBound_eq_iff (p : ShaderProgram) :
    idBound true p = idBound false p ↔ ¬ Samples p := by
  have hLines : texTemplate.lines.length = 3 := rfl
  have hNone :
      (p.instructions.filter
          (SamplesWith (registers p))).length = 0 ↔
        ¬ Samples p := by
    rw [List.length_eq_zero_iff, List.filter_eq_nil_iff]
    unfold Samples
    simp
  rw [idBound_tex, hLines, ← hNone]
  omega

theorem idBound_le (p : ShaderProgram) (tex : Bool) :
    idBound tex p ≤ idBound true p := by
  cases tex with
  | true => exact le_refl _
  | false =>
      rw [idBound_tex]
      exact Nat.le_add_right _ _

------
-- What Stays Behind Some Calls
------

variable {p q : ShaderProgram}
variable {history : List ShaderProgram}

theorem afterAll_append
    (history : List ShaderProgram)
    (q : ShaderProgram) :
    afterAll (history ++ [q]) =
      afterEmit (afterAll history) q := by
  unfold afterAll
  rw [List.foldl_append]
  rfl

theorem texHeld_append
    (history : List ShaderProgram)
    (q : ShaderProgram) :
    texHeld (history ++ [q]) =
      (texHeld history || q.usesTextures) := by
  unfold texHeld
  rw [List.any_append, List.any_cons, List.any_nil,
    Bool.or_false]

/- A program without a texture leaves the variable. -/
theorem tex_preambled_old
    (hTex : p.usesTextures = false) :
    (preambled p e).texSampledImageVar =
      e.texSampledImageVar := by
  rw [preambled_kindOf, hTex]
  -- The field of a built emitter is compared, not the emitters.
  rcases e with ⟨⟩
  cases kindOf p.stage <;> rfl

theorem tex_preambled_ne
    (hTex : p.usesTextures = true) :
    (preambled p e).texSampledImageVar ≠ 0 := by
  rw [tex_preambled hTex]
  cases kindOf p.stage <;> decide +kernel

theorem tex_emitted :
    (emitted p e).texSampledImageVar =
      (preambled p e).texSampledImageVar := by
  rw [emitted_eq]
  exact
    congrArg HeadIds.texSampledImageVar
      (adds_loop_sized p (preambled p e)).headIds

/- The variable is set from the first texture on. -/
theorem tex_preambled_iff
    (hOld : e.texSampledImageVar ≠ 0 ↔ texHeld history = true)
    (p : ShaderProgram) :
    (preambled p e).texSampledImageVar ≠ 0 ↔
      texHeld (history ++ [p]) = true := by
  rw [texHeld_append, Bool.or_eq_true]
  cases hTex : p.usesTextures with
  | true => simp [tex_preambled_ne hTex]
  | false =>
      rw [tex_preambled_old hTex, hOld]
      simp

theorem tex_afterAll (history : List ShaderProgram) :
    (afterAll history).texSampledImageVar ≠ 0 ↔
      texHeld history = true := by
  induction history using List.reverseRecOn with
  | nil => decide
  | append_singleton history q ih =>
      have hLast :
          (afterEmit (afterAll history) q).texSampledImageVar =
            (emitted q (afterAll history)).texSampledImageVar :=
        rfl
      rw [afterAll_append, hLast, tex_emitted]
      exact tex_preambled_iff ih q

theorem bound_emitted_afterAll
    (history : List ShaderProgram)
    (p : ShaderProgram) :
    (emitted p (afterAll history)).bound =
      max (afterAll history).bound
        (idBound (texHeld (history ++ [p])) p) :=
  bound_emitted (tex_preambled_iff (tex_afterAll history) p)

/- The bound is the largest one of all calls. -/
theorem bound_afterAll_le_iff (n : Nat) :
    (afterAll history).bound ≤ n ↔
      ∀ before q, before ++ [q] <+: history →
        idBound (texHeld (before ++ [q])) q ≤ n := by
  induction history using List.reverseRecOn with
  | nil =>
      constructor
      · intro _ before q hPrefix
        simp at hPrefix
      · intro _
        exact Nat.zero_le n
  | append_singleton history last ih =>
      have hLast :
          (afterAll (history ++ [last])).bound =
            (emitted last (afterAll history)).bound := by
        rw [afterAll_append]
        rfl
      rw [hLast, bound_emitted_afterAll, Nat.max_le, ih]
      constructor
      · rintro ⟨hBefore, hHere⟩ before q hPrefix
        rcases List.prefix_concat_iff.mp hPrefix with
          hAll | hPrefix
        · rcases List.append_inj' hAll rfl with ⟨rfl, hQ⟩
          cases hQ
          exact hHere
        · exact hBefore before q hPrefix
      · intro hAll
        refine ⟨?_, hAll history last (List.prefix_refl _)⟩
        intro before q hPrefix
        exact hAll before q
          (hPrefix.trans (List.prefix_append _ _))

------
-- The Same Words On A New Emitter
------

open MaxwellDecoder

/- No earlier program took more ids. -/
def NoLargerBefore
    (history : List ShaderProgram)
    (p : ShaderProgram) : Prop :=
  ∀ before q, before ++ [q] <+: history →
    idBound (texHeld (before ++ [q])) q ≤
      idBound p.usesTextures p

/- Samples find the program's own texture, not an old one. -/
def OwnTexture
    (history : List ShaderProgram)
    (p : ShaderProgram) : Prop :=
  texHeld history = true →
    p.usesTextures = true ∨ ¬ Samples p

/- Word 3 of a module is its bound. -/
theorem bound_of_emit
    (hSame : emit e p = emit e' p) :
    (emitted p e).bound = (emitted p e').bound := by
  have hBound := (emit_wellSplit e p).1.bound
  have hBound' := (emit_wellSplit e' p).1.bound
  rw [hSame, hBound'] at hBound
  exact (Option.some.inj hBound).symm

theorem bound_emitted_new (p : ShaderProgram) :
    (emitted p {}).bound = idBound p.usesTextures p := by
  have hBound := bound_emitted_afterAll [] p
  have hNone : texHeld ([] ++ [p]) = p.usesTextures := by
    rw [texHeld_append]
    rfl
  rw [hNone] at hBound
  exact hBound.trans (Nat.zero_max _)

/- The texture costs the program nothing if it is its own. -/
theorem ownTexture_iff :
    OwnTexture history p ↔
      idBound (texHeld (history ++ [p])) p =
        idBound p.usesTextures p := by
  unfold OwnTexture
  rw [texHeld_append]
  cases texHeld history with
  | false => simp
  | true =>
      cases p.usesTextures with
      | true => simp
      | false =>
          rw [Bool.true_or, idBound_eq_iff]
          simp

/- The calls agree on the texture, or nothing samples it. -/
theorem texIrrelevant_of_ownTexture
    (hOwn : OwnTexture history p) :
    TexIrrelevant (preambled p (afterAll history))
      (preambled p {}) (¬ Samples p) := by
  cases hTex : p.usesTextures with
  | true =>
      left
      rw [tex_preambled hTex, tex_preambled hTex]
  | false =>
      cases hHeld : texHeld history with
      | true =>
          right
          rcases hOwn hHeld with hUses | hNone
          · rw [hTex] at hUses
            cases hUses
          · exact hNone
      | false =>
          left
          have hUnset :
              (afterAll history).texSampledImageVar = 0 := by
            by_contra hSet
            rw [(tex_afterAll history).mp hSet] at hHeld
            cases hHeld
          rw [tex_preambled_old hTex, tex_preambled_old hTex,
            hUnset]

/-
  A call gives the words a new emitter gives exactly when no
  program in front took more ids and, if one declared a
  texture, this one declares its own or does not sample.
-/
theorem historyIndependent_iff
    (history : List ShaderProgram)
    (p : ShaderProgram) :
    emit (afterAll history) p = emit {} p ↔
      NoLargerBefore history p ∧ OwnTexture history p := by
  have hBound := bound_emitted_afterAll history p
  have hNew := bound_emitted_new p
  have hLess :
      idBound p.usesTextures p ≤
        idBound (texHeld (history ++ [p])) p := by
    rw [texHeld_append]
    cases p.usesTextures with
    | true => simp
    | false =>
        cases texHeld history with
        | true => exact idBound_le p false
        | false => exact le_refl _
  rw [ownTexture_iff]
  unfold NoLargerBefore
  rw [← bound_afterAll_le_iff]
  constructor
  · intro hSame
    have hEq := bound_of_emit hSame
    rw [hBound, hNew] at hEq
    omega
  · rintro ⟨hBefore, hOwn⟩
    have hWords :
        (emitted p (afterAll history)).words =
          (emitted p {}).words :=
      words_emitted
        (texIrrelevant_of_ownTexture (ownTexture_iff.mpr hOwn))
    have hEq :
        (emitted p (afterAll history)).bound =
          (emitted p {}).bound := by
      rw [hBound, hNew, hOwn]
      exact max_eq_right hBefore
    show (emitted p (afterAll history)).words.set 3
        (emitted p (afterAll history)).bound =
      (emitted p {}).words.set 3 (emitted p {}).bound
    rw [hWords, hEq]

/- An `FADD` and `EXIT`, and `EXIT` alone. -/
def addThenExit : List U8 :=
  [32, 0, 0, 0, 0, 0, 0, 0, 0, 16, 0, 0, 0, 0, 0, 0]

def exitAlone : List U8 :=
  [0, 16, 0, 0, 0, 0, 0, 0]

/- The larger program in front leaves its bound. -/
theorem exitAlone_not_independent :
    ∃ q p, decode addThenExit .VertexB = some q ∧
      decode exitAlone .VertexB = some p ∧
        emit (afterAll [q]) p ≠ emit {} p := by
  refine ⟨_, _, rfl, rfl, ?_⟩
  intro hSame
  have hWord := congrArg (fun words => words[3]?) hSame
  revert hWord
  decide +kernel

end SpirvEmitter

end M1Switch
