import M1Switch.Gpu.Shader.SpirvEmitter.Labels
import M1Switch.Gpu.Shader.SpirvEmitter.Listing

/-
  The segment of the stream an instruction is emitted as.

  The emission loop appends one segment for each instruction
  of the program: the label of a block start, then what the
  control flow or the plan of the instruction asks for.  The
  segment and the emitter behind it are given here without the
  state monad.

  Key definitions include:
    * `planned`
    * `stepped`

  Main results:
    * `run_emitCfgInst`
    * `run_emitFunctionBody`
    * `predVars_stepped`
-/

------
-- Plans Without The Monad
------

namespace M1Switch

namespace SpirvEmitter

/- Ids of the loaded registers; 0 for a missing one. -/
def loadIds (gprMap : GprMap) : Nat → List Nat → List Nat
| _, [] => []
| n, r :: rs =>
    if getGpr gprMap r = 0 then 0 :: loadIds gprMap n rs
    else n :: loadIds gprMap (n + 1) rs

def loadCode
    (gprMap : GprMap)
    (type : Nat) :
    Nat → List Nat → List SpirvInst
| _, [] => []
| n, r :: rs =>
    if getGpr gprMap r = 0 then loadCode gprMap type n rs
    else
      ⟨SpirvOp.Load, [type, n, getGpr gprMap r]⟩ ::
        loadCode gprMap type (n + 1) rs

/- The emitter behind the loads. -/
def loaded
    (gprMap : GprMap)
    (rs : List Nat)
    (e : SpirvEmitter) : SpirvEmitter :=
  let code := loadCode gprMap e.types.f32T e.nextId rs
  e.pushed code.length code

/- A store to a register; none to a missing one. -/
def storeCode
    (gprMap : GprMap)
    (index value : Nat) : List SpirvInst :=
  if getGpr gprMap index = 0 then []
  else [⟨SpirvOp.Store, [getGpr gprMap index, value]⟩]

/- Type and variable of a predicate. -/
def predDeclCode (e : SpirvEmitter) : List SpirvInst :=
  [⟨SpirvOp.TypePointer,
      [e.nextId, SpirvStorageClass.Function, e.types.boolT]⟩,
    ⟨SpirvOp.Variable,
      [e.nextId, e.nextId + 1, SpirvStorageClass.Function]⟩]

/- The emitter with a variable for a predicate. -/
def predDeclared
    (predIdx : Nat)
    (e : SpirvEmitter) : SpirvEmitter :=
  match e.cfgState.predVars predIdx with
  | some _ => e
  | none =>
      { e.pushed 2 (predDeclCode e) with
        cfgState.predVars :=
          Function.update e.cfgState.predVars predIdx
            (some (e.nextId + 1)) }

def predVarId (predIdx : Nat) (e : SpirvEmitter) : Nat :=
  (e.cfgState.predVars predIdx).getD (e.nextId + 1)

/- The emitter behind the store of a value. -/
def finished
    (dest : PlanDest)
    (inst : ShaderInstruction)
    (gprMap : GprMap)
    (value : Nat)
    (e : SpirvEmitter) : SpirvEmitter :=
  match dest with
  | .gpr =>
      e.pushed 0 (storeCode gprMap inst.dest.regIndex value)
  | .pred =>
      (predDeclared inst.dest.predIndex e).pushed 0
        [⟨SpirvOp.Store,
          [predVarId inst.dest.predIndex e, value]⟩]

def Template.emitted
    (t : Template)
    (srcs : List Nat)
    (e : SpirvEmitter) : SpirvEmitter :=
  e.pushed t.lines.length (t.code e srcs)

/- All sources loaded and the variable needed is there. -/
def Plan.Ready
    (plan : Plan)
    (inst : ShaderInstruction)
    (gprMap : GprMap)
    (e : SpirvEmitter) : Prop :=
  0 ∉ loadIds gprMap e.nextId (srcRegs inst plan.arity) ∧
    plan.gate.id e ≠ 0

instance
    (plan : Plan)
    (inst : ShaderInstruction)
    (gprMap : GprMap)
    (e : SpirvEmitter) :
    Decidable (plan.Ready inst gprMap e) :=
  inferInstanceAs (Decidable (_ ∧ _))

/- The emitter behind an instruction with a plan. -/
def planned
    (plan : Plan)
    (inst : ShaderInstruction)
    (gprMap : GprMap)
    (e : SpirvEmitter) : SpirvEmitter :=
  if plan.minCount ≤ inst.srcCount then
    let regs := srcRegs inst plan.arity
    let srcs := loadIds gprMap e.nextId regs
    let e1 := loaded gprMap regs e
    if plan.Ready inst gprMap e then
      finished plan.dest inst gprMap
        (plan.template.resultId e1 srcs)
        (plan.template.emitted srcs e1)
    else e1
  else e

------
-- Running Plans
------

variable {gprMap : GprMap} {inst : ShaderInstruction}

theorem run_loadGpr (r : Nat) (e : SpirvEmitter) :
    (loadGpr gprMap r).run e =
      if getGpr gprMap r = 0 then (0, e)
      else
        (e.nextId,
          e.pushed 1
            [⟨SpirvOp.Load,
              [e.types.f32T, e.nextId,
                getGpr gprMap r]⟩]) := by
  unfold loadGpr
  dsimp only
  split_ifs with hVar
  · rfl
  · rw [run_get_bind]
    exact run_emitUnary _ _ _ e

theorem run_loadGprs :
    ∀ (rs : List Nat) (e : SpirvEmitter),
      (loadGprs gprMap rs).run e =
        (loadIds gprMap e.nextId rs, loaded gprMap rs e) := by
  intro rs
  induction rs with
  | nil =>
      intro e
      simp only [loaded, loadCode, List.length_nil,
        pushed_nil]
      rfl
  | cons r rs ih =>
      intro e
      unfold loadGprs
      rw [run_bind, run_bind, run_loadGpr]
      by_cases hVar : getGpr gprMap r = 0
      · rw [if_pos hVar, ih]
        simp only [loadIds, loaded, loadCode, if_pos hVar]
        rfl
      · rw [if_neg hVar, ih]
        simp only [loadIds, loaded, loadCode, if_neg hVar,
          pushed_pushed, nextId_pushed, types_pushed,
          List.length_cons, List.cons_append,
          List.nil_append, Nat.add_comm 1]
        rfl

theorem run_predVar (predIdx : Nat) (e : SpirvEmitter) :
    (predVar predIdx).run e =
      (predVarId predIdx e, predDeclared predIdx e) := by
  unfold predVar predVarId predDeclared
  rw [run_get_bind]
  cases e.cfgState.predVars predIdx with
  | some var => rfl
  | none =>
      dsimp only
      rw [run_bind, run_emitTypePointer, run_bind,
        run_emitVariable, pushed_pushed]
      rfl

theorem run_finishPlan
    (dest : PlanDest)
    (value : Nat)
    (e : SpirvEmitter) :
    (finishPlan dest inst gprMap value).run e =
      (value, finished dest inst gprMap value e) := by
  cases dest with
  | gpr =>
      unfold finishPlan finishInst storeGpr finished storeCode
      dsimp only
      rw [run_bind]
      by_cases hVar : getGpr gprMap inst.dest.regIndex = 0
      · rw [if_neg (by simp [hVar]), if_pos hVar, pushed_nil]
        rfl
      · rw [if_pos hVar, if_neg hVar]
        unfold emitStore
        rw [run_emitInst2]
        rfl
  | pred =>
      unfold finishPlan finished
      dsimp only
      rw [run_bind, run_predVar, run_bind]
      unfold emitStore
      rw [run_emitInst2]
      rfl

/- A plan runs to the emitter it describes. -/
theorem run_emitPlan
    (plan : Plan)
    (e : SpirvEmitter) :
    ((emitPlan plan inst gprMap).run e).2 =
      planned plan inst gprMap e := by
  unfold emitPlan planned
  by_cases hCount : plan.minCount ≤ inst.srcCount
  · rw [if_pos hCount, if_pos hCount, run_bind, run_loadGprs,
      run_get_bind]
    have hGate :
        plan.gate.id
          (loaded gprMap (srcRegs inst plan.arity) e) =
            plan.gate.id e := by
      cases plan.gate <;> rfl
    dsimp only
    rw [hGate]
    by_cases hReady : plan.Ready inst gprMap e
    · rw [if_pos hReady]
      unfold Plan.Ready at hReady
      rw [if_pos hReady, run_bind, run_finishPlan]
      rfl
    · rw [if_neg hReady]
      unfold Plan.Ready at hReady
      rw [if_neg hReady]
      rfl
  · rw [if_neg hCount, if_neg hCount]
    rfl

------
-- Control Flow Without The Monad
------

/- The label id of an offset, an old or the next one. -/
def labelIdOf (pc : Nat) (e : SpirvEmitter) : Nat :=
  (e.cfgState.pcToLabel pc).getD e.nextId

/- The emitter with an id for the label of an offset. -/
def reserved (pc : Nat) (e : SpirvEmitter) : SpirvEmitter :=
  match e.cfgState.pcToLabel pc with
  | some _ => e
  | none =>
      { e.pushed 1 [] with
        cfgState.pcToLabel :=
          Function.update e.cfgState.pcToLabel pc
            (some e.nextId) }

/- The emitter behind the label of a block start. -/
def blockLabelled
    (cfg : CfgAnnotation)
    (pc : Nat)
    (e : SpirvEmitter) : SpirvEmitter :=
  if pc ∈ cfg.blockStarts ∧
      pc ∉ e.cfgState.labelsEmitted then
    { e.pushed 1 [labelInst e.nextId] with
      cfgState.pcToLabel :=
        Function.update e.cfgState.pcToLabel pc
          (some e.nextId)
      cfgState.labelsEmitted :=
        pc :: e.cfgState.labelsEmitted }
  else e

/- The emitter behind a `SYNC`. -/
def synced (pc : Nat) (e : SpirvEmitter) : SpirvEmitter :=
  match e.cfgState.ssyStack with
  | [] => e
  | top :: rest =>
      if top.syncPc = pc then
        { e with cfgState.ssyStack := rest }
      else e

/- The emitter with the continue label of a region. -/
def continued
    (pair : SsySyncPair)
    (pc : Nat)
    (e : SpirvEmitter) : Nat × SpirvEmitter :=
  if pair.type = .Loop then
    let target :=
      if pair.braTargetPc ≠ 0 then pair.braTargetPc
      else nextPc pc
    (labelIdOf target e, reserved target e)
  else (0, e)

/- The emitter behind an `SSY`. -/
def opened
    (cfg : CfgAnnotation)
    (pc : Nat)
    (e : SpirvEmitter) : SpirvEmitter :=
  match cfg.pairs.find? (·.ssyPc = pc) with
  | none => e
  | some pair =>
      let e1 := reserved pair.syncPc e
      let cont := continued pair pc e1
      { cont.2 with
        cfgState.ssyStack :=
          { ssyPc := pc
            syncPc := pair.syncPc
            type := pair.type
            mergeLabel := labelIdOf pair.syncPc e
            continueLabel := cont.1 } ::
            cont.2.cfgState.ssyStack }

def mergeCode (top : SsyStackEntry) : List SpirvInst :=
  if top.mergeLabel ≠ 0 ∧ top.type = .Selection then
    [⟨SpirvOp.SelectionMerge, [top.mergeLabel, 0]⟩]
  else if top.mergeLabel ≠ 0 ∧ top.type = .Loop then
    [⟨SpirvOp.LoopMerge,
      [top.mergeLabel, top.continueLabel, 0]⟩]
  else []

/- The emitter behind the deferred merge. -/
def merged (e : SpirvEmitter) : SpirvEmitter :=
  match e.cfgState.ssyStack with
  | [] => e
  | top :: rest =>
      { e.pushed 0 (mergeCode top) with
        cfgState.ssyStack :=
          { top with mergeLabel := 0 } :: rest }

/- The emitter behind a branch to an offset. -/
def branched (pc : Nat) (e : SpirvEmitter) : SpirvEmitter :=
  (reserved pc e).pushed 0
    [⟨SpirvOp.Branch, [labelIdOf pc e]⟩]

def guardCode
    (inst : ShaderInstruction)
    (e : SpirvEmitter) : List SpirvInst :=
  match e.cfgState.predVars inst.predGuardIndex with
  | some var =>
      [⟨SpirvOp.Load, [e.types.boolT, e.nextId, var]⟩]
  | none => []

def guardId
    (inst : ShaderInstruction)
    (e : SpirvEmitter) : Nat :=
  match e.cfgState.predVars inst.predGuardIndex with
  | some _ => e.nextId
  | none => e.constTrue

def guardedBranchInst
    (inst : ShaderInstruction)
    (cond trueLabel falseLabel : Nat) : SpirvInst :=
  if inst.predGuardNegate then
    ⟨SpirvOp.BranchConditional, [cond, falseLabel, trueLabel]⟩
  else
    ⟨SpirvOp.BranchConditional, [cond, trueLabel, falseLabel]⟩

/- The emitter behind a predicated branch. -/
def predBranched
    (inst : ShaderInstruction)
    (next : Option ShaderInstruction)
    (e : SpirvEmitter) : SpirvEmitter :=
  let e1 := merged e
  let e2 := reserved inst.targetPc e1
  let falseLabel := labelIdOf (falsePc inst next) e2
  let e3 := reserved (falsePc inst next) e2
  let guard := guardCode inst e3
  let e4 :=
    e3.pushed guard.length
      (guard ++
        [guardedBranchInst inst (guardId inst e3)
            (labelIdOf inst.targetPc e1) falseLabel,
          labelInst falseLabel])
  { e4 with
    cfgState.labelsEmitted :=
      falsePc inst next :: e4.cfgState.labelsEmitted }

/- The emitter behind a `BREAK`. -/
def broken (e : SpirvEmitter) : SpirvEmitter :=
  match e.cfgState.ssyStack with
  | [] => e
  | top :: _ => branched top.syncPc e

/- The emitter behind a `CONT`. -/
def looped
    (cfg : CfgAnnotation)
    (e : SpirvEmitter) : SpirvEmitter :=
  match e.cfgState.ssyStack with
  | [] => e
  | top :: _ =>
      if top.type = .Loop then
        match cfg.pairs.find? (·.ssyPc = top.ssyPc) with
        | none => e
        | some pair => branched pair.braTargetPc e
      else e

/- The emitter behind the instruction itself. -/
def advanced
    (cfg : CfgAnnotation)
    (gprMap : GprMap)
    (inst : ShaderInstruction)
    (next : Option ShaderInstruction)
    (e : SpirvEmitter) : SpirvEmitter :=
  if inst.opcode = .SYNC then synced inst.pc e
  else if inst.opcode = .SSY then opened cfg inst.pc e
  else if isPlainBra inst then
    branched inst.targetPc (merged e)
  else if isPredBra inst then predBranched inst next e
  else if inst.opcode = .EXIT ∨ inst.opcode = .RET then e
  else if inst.opcode = .BREAK then broken e
  else if inst.opcode = .CONT then looped cfg e
  else if inst.opcode = .KIL then
    e.pushed 0 [⟨SpirvOp.Kill, []⟩]
  else
    match planOf inst with
    | none => e
    | some plan => planned plan inst gprMap e

/- The emitter behind one iteration of the loop. -/
def stepped
    (cfg : CfgAnnotation)
    (gprMap : GprMap)
    (inst : ShaderInstruction)
    (next : Option ShaderInstruction)
    (e : SpirvEmitter) : SpirvEmitter :=
  advanced cfg gprMap inst next
    (blockLabelled cfg inst.pc e)

------
-- What An Instruction Does
------

/- What is left once regions and branches are set apart. -/
structure Unbranched (inst : ShaderInstruction) : Prop where
  ssy : inst.opcode ≠ .SSY
  plain : ¬ isPlainBra inst = true
  pred : ¬ isPredBra inst = true

/- What an instruction does to the emitter. -/
inductive AdvanceCase
    (cfg : CfgAnnotation)
    (gprMap : GprMap)
    (inst : ShaderInstruction)
    (next : Option ShaderInstruction) : Prop where
  | sync
      (hSync : inst.opcode = .SYNC)
      (hEq :
        ∀ e, advanced cfg gprMap inst next e = synced inst.pc e)
  | ssy
      (hSsy : inst.opcode = .SSY)
      (hEq :
        ∀ e,
          advanced cfg gprMap inst next e =
            opened cfg inst.pc e)
  | bra
      (hSsy : inst.opcode ≠ .SSY)
      (hPlain : isPlainBra inst = true)
      (hEq :
        ∀ e,
          advanced cfg gprMap inst next e =
            branched inst.targetPc (merged e))
  | predBra
      (hSsy : inst.opcode ≠ .SSY)
      (hPlain : ¬ isPlainBra inst = true)
      (hPred : isPredBra inst = true)
      (hEq :
        ∀ e,
          advanced cfg gprMap inst next e =
            predBranched inst next e)
  | exit
      (hNot : Unbranched inst)
      (hExit : inst.opcode = .EXIT ∨ inst.opcode = .RET)
      (hEq : ∀ e, advanced cfg gprMap inst next e = e)
  | brk
      (hNot : Unbranched inst)
      (hBreak : inst.opcode = .BREAK)
      (hEq : ∀ e, advanced cfg gprMap inst next e = broken e)
  | cont
      (hNot : Unbranched inst)
      (hCont : inst.opcode = .CONT)
      (hEq :
        ∀ e, advanced cfg gprMap inst next e = looped cfg e)
  | kil
      (hNot : Unbranched inst)
      (hKil : inst.opcode = .KIL)
      (hEq :
        ∀ e,
          advanced cfg gprMap inst next e =
            e.pushed 0 [⟨SpirvOp.Kill, []⟩])
  | none
      (hNot : Unbranched inst)
      (hFlow : inst.opcode ≠ .BREAK ∧ inst.opcode ≠ .CONT)
      (hKil : inst.opcode ≠ .KIL)
      (hPlan : planOf inst = .none)
      (hEq : ∀ e, advanced cfg gprMap inst next e = e)
  | plan
      (hNot : Unbranched inst)
      (hFlow : inst.opcode ≠ .BREAK ∧ inst.opcode ≠ .CONT)
      (hKil : inst.opcode ≠ .KIL)
      (plan : Plan)
      (hPlan : planOf inst = some plan)
      (hEq :
        ∀ e,
          advanced cfg gprMap inst next e =
            planned plan inst gprMap e)

theorem advance_cases
    (cfg : CfgAnnotation)
    (gprMap : GprMap)
    (inst : ShaderInstruction)
    (next : Option ShaderInstruction) :
    AdvanceCase cfg gprMap inst next := by
  by_cases hSync : inst.opcode = .SYNC
  · exact .sync hSync fun e => by rw [advanced, if_pos hSync]
  by_cases hSsy : inst.opcode = .SSY
  · exact .ssy hSsy fun e => by
      rw [advanced, if_neg hSync, if_pos hSsy]
  by_cases hPlain : isPlainBra inst = true
  · exact .bra hSsy hPlain fun e => by
      rw [advanced, if_neg hSync, if_neg hSsy, if_pos hPlain]
  by_cases hPred : isPredBra inst = true
  · exact .predBra hSsy hPlain hPred fun e => by
      rw [advanced, if_neg hSync, if_neg hSsy, if_neg hPlain,
        if_pos hPred]
  have hNot : Unbranched inst := ⟨hSsy, hPlain, hPred⟩
  by_cases hExit : inst.opcode = .EXIT ∨ inst.opcode = .RET
  · exact .exit hNot hExit fun e => by
      rw [advanced, if_neg hSync, if_neg hSsy, if_neg hPlain,
        if_neg hPred, if_pos hExit]
  by_cases hBreak : inst.opcode = .BREAK
  · exact .brk hNot hBreak fun e => by
      rw [advanced, if_neg hSync, if_neg hSsy, if_neg hPlain,
        if_neg hPred, if_neg hExit, if_pos hBreak]
  by_cases hCont : inst.opcode = .CONT
  · exact .cont hNot hCont fun e => by
      rw [advanced, if_neg hSync, if_neg hSsy, if_neg hPlain,
        if_neg hPred, if_neg hExit, if_neg hBreak,
        if_pos hCont]
  by_cases hKil : inst.opcode = .KIL
  · exact .kil hNot hKil fun e => by
      rw [advanced, if_neg hSync, if_neg hSsy, if_neg hPlain,
        if_neg hPred, if_neg hExit, if_neg hBreak,
        if_neg hCont, if_pos hKil]
  have hPlanned :
      ∀ e,
        advanced cfg gprMap inst next e =
          match planOf inst with
          | none => e
          | some plan => planned plan inst gprMap e := by
    intro e
    rw [advanced, if_neg hSync, if_neg hSsy, if_neg hPlain,
      if_neg hPred, if_neg hExit, if_neg hBreak, if_neg hCont,
      if_neg hKil]
  cases hPlan : planOf inst with
  | none =>
      rw [hPlan] at hPlanned
      exact .none hNot ⟨hBreak, hCont⟩ hKil hPlan hPlanned
  | some plan =>
      rw [hPlan] at hPlanned
      exact .plan hNot ⟨hBreak, hCont⟩ hKil plan hPlan hPlanned

------
-- Instructions With A Plan
------

variable {plan : Plan}

/- Control flow opcodes but two have no plan. -/
theorem opcode_of_planOf
    (hPlan : planOf inst = some plan) :
    inst.opcode ≠ .SYNC ∧ inst.opcode ≠ .SSY ∧
      inst.opcode ≠ .BRA ∧ inst.opcode ≠ .EXIT ∧
        inst.opcode ≠ .RET ∧ inst.opcode ≠ .KIL := by
  refine ⟨?_, ?_, ?_, ?_, ?_, ?_⟩
  all_goals
    intro hOp
    unfold planOf at hPlan
    rw [hOp] at hPlan
    cases hPlan

theorem advanced_of_planOf
    (cfg : CfgAnnotation)
    (gprMap : GprMap)
    (next : Option ShaderInstruction)
    (hPlan : planOf inst = some plan)
    (hBreak : inst.opcode ≠ .BREAK)
    (hCont : inst.opcode ≠ .CONT)
    (e : SpirvEmitter) :
    advanced cfg gprMap inst next e =
      planned plan inst gprMap e := by
  rcases opcode_of_planOf hPlan with
    ⟨hSync, hSsy, hBra, hExit, hRet, hKil⟩
  simp [advanced, isPlainBra, isPredBra, hSync, hSsy, hBra,
    hExit, hRet, hKil, hBreak, hCont, hPlan]

------
-- Running The Loop
------

variable {cfg : CfgAnnotation}
variable {next : Option ShaderInstruction}

theorem run_reserveLabel (pc : Nat) (e : SpirvEmitter) :
    (reserveLabel pc).run e =
      (labelIdOf pc e, reserved pc e) := by
  unfold reserveLabel labelIdOf reserved
  rw [run_get_bind]
  cases e.cfgState.pcToLabel pc with
  | some id => rfl
  | none =>
      dsimp only
      rw [run_bind, run_allocId]
      rfl

theorem run_emitBlockLabel (pc : Nat) (e : SpirvEmitter) :
    ((emitBlockLabel cfg pc).run e).2 =
      blockLabelled cfg pc e := by
  unfold emitBlockLabel blockLabelled
  rw [run_get_bind]
  split_ifs with hStart
  · rw [run_bind, run_allocId, run_bind, run_emitInst1,
      pushed_pushed]
    rfl
  · rfl

theorem run_handleSync (pc : Nat) (e : SpirvEmitter) :
    ((handleSync pc).run e).2 = synced pc e := by
  unfold handleSync synced
  rw [run_get_bind]
  cases e.cfgState.ssyStack with
  | nil => rfl
  | cons top rest =>
      dsimp only
      split_ifs <;> rfl

theorem run_reserveContinue
    (pair : SsySyncPair)
    (pc : Nat)
    (e : SpirvEmitter) :
    (reserveContinue pair pc).run e =
      continued pair pc e := by
  unfold reserveContinue continued
  dsimp only
  split_ifs with hLoop hTarget
  · exact run_reserveLabel _ e
  · exact run_reserveLabel _ e
  · rfl

theorem run_handleSsy (pc : Nat) (e : SpirvEmitter) :
    ((handleSsy cfg pc).run e).2 = opened cfg pc e := by
  unfold handleSsy opened
  cases cfg.pairs.find? (·.ssyPc = pc) with
  | none => rfl
  | some pair =>
      dsimp only
      rw [run_bind, run_reserveLabel, run_bind,
        run_reserveContinue, run_get_bind]
      rfl

theorem run_emitDeferredMerge (e : SpirvEmitter) :
    (emitDeferredMerge.run e).2 = merged e := by
  unfold emitDeferredMerge merged
  rw [run_get_bind]
  cases e.cfgState.ssyStack with
  | nil => rfl
  | cons top rest =>
      dsimp only
      unfold emitMerge mergeCode
      rw [run_bind]
      split_ifs with hSelection hLoop
      · rw [run_emitInst2]
        rfl
      · rw [run_emitInst3]
        rfl
      · rw [pushed_nil]
        rfl

/- A branch to the label of an offset. -/
theorem run_branchTo (pc : Nat) (e : SpirvEmitter) :
    ((do
      let label ← reserveLabel pc
      emitBranch label : Emit Unit).run e).2 =
        branched pc e := by
  unfold emitBranch branched
  rw [run_bind, run_reserveLabel, run_emitInst1]

theorem run_handleBra (e : SpirvEmitter) :
    ((handleBra inst).run e).2 =
      branched inst.targetPc (merged e) := by
  unfold handleBra
  rw [run_bind, run_branchTo, run_emitDeferredMerge]

theorem run_emitGuard (e : SpirvEmitter) :
    (emitGuard inst).run e =
      (guardId inst e,
        e.pushed (guardCode inst e).length
          (guardCode inst e)) := by
  unfold emitGuard guardId guardCode
  rw [run_get_bind]
  cases e.cfgState.predVars inst.predGuardIndex with
  | some var => exact run_emitUnary _ _ _ e
  | none =>
      dsimp only
      rw [List.length_nil, pushed_nil]
      rfl

theorem run_emitGuardedBranch
    (cond trueLabel falseLabel : Nat)
    (e : SpirvEmitter) :
    ((emitGuardedBranch inst cond trueLabel falseLabel).run
      e).2 =
        e.pushed 0
          [guardedBranchInst inst cond trueLabel
            falseLabel] := by
  unfold emitGuardedBranch guardedBranchInst
    emitBranchConditional
  split_ifs <;> rw [run_emitInst3]

theorem run_handlePredBra (e : SpirvEmitter) :
    ((handlePredBra inst next).run e).2 =
      predBranched inst next e := by
  unfold handlePredBra predBranched emitFalseLabel
  rw [run_bind, run_emitDeferredMerge, run_bind,
    run_reserveLabel, run_bind, run_reserveLabel, run_bind,
    run_emitGuard, run_bind, run_emitGuardedBranch, run_bind,
    run_emitInst1, pushed_pushed, pushed_pushed]
  simp only [Nat.add_zero, List.cons_append, List.nil_append]
  rfl

theorem run_handleBreak (e : SpirvEmitter) :
    (handleBreak.run e).2 = broken e := by
  unfold handleBreak broken
  rw [run_get_bind]
  cases e.cfgState.ssyStack with
  | nil => rfl
  | cons top rest => exact run_branchTo _ e

theorem run_handleCont (e : SpirvEmitter) :
    ((handleCont cfg).run e).2 = looped cfg e := by
  unfold handleCont looped
  rw [run_get_bind]
  cases e.cfgState.ssyStack with
  | nil => rfl
  | cons top rest =>
      dsimp only
      split_ifs with hLoop
      · cases cfg.pairs.find? (·.ssyPc = top.ssyPc) with
        | none => rfl
        | some pair => exact run_branchTo _ e
      · rfl

/- One iteration runs to the emitter it describes. -/
theorem run_emitCfgInst (e : SpirvEmitter) :
    ((emitCfgInst cfg gprMap inst next).run e).2 =
      stepped cfg gprMap inst next e := by
  unfold emitCfgInst stepped advanced
  rw [run_bind, run_emitBlockLabel]
  have hPlain :
      isPlainBra inst = true ↔
        (inst.opcode = .BRA ∧ (!inst.predGuard) = true ∧
          inst.dest.type = .None) := by
    simp [isPlainBra]
  have hPred :
      isPredBra inst = true ↔
        (inst.opcode = .BRA ∧ inst.predGuard = true) := by
    simp [isPredBra]
  simp only [hPlain, hPred]
  by_cases hSync : inst.opcode = .SYNC
  · rw [if_pos hSync, if_pos hSync]
    exact run_handleSync _ _
  rw [if_neg hSync, if_neg hSync]
  by_cases hSsy : inst.opcode = .SSY
  · rw [if_pos hSsy, if_pos hSsy]
    exact run_handleSsy _ _
  rw [if_neg hSsy, if_neg hSsy]
  by_cases hBra :
      inst.opcode = .BRA ∧ (!inst.predGuard) = true ∧
        inst.dest.type = .None
  · rw [if_pos hBra, if_pos hBra]
    exact run_handleBra _
  rw [if_neg hBra, if_neg hBra]
  by_cases hPredBra : inst.opcode = .BRA ∧ inst.predGuard = true
  · rw [if_pos hPredBra, if_pos hPredBra]
    exact run_handlePredBra _
  rw [if_neg hPredBra, if_neg hPredBra]
  by_cases hExit : inst.opcode = .EXIT ∨ inst.opcode = .RET
  · rw [if_pos hExit, if_pos hExit]
    rfl
  rw [if_neg hExit, if_neg hExit]
  by_cases hBreak : inst.opcode = .BREAK
  · rw [if_pos hBreak, if_pos hBreak]
    exact run_handleBreak _
  rw [if_neg hBreak, if_neg hBreak]
  by_cases hCont : inst.opcode = .CONT
  · rw [if_pos hCont, if_pos hCont]
    exact run_handleCont _
  rw [if_neg hCont, if_neg hCont]
  by_cases hKil : inst.opcode = .KIL
  · rw [if_pos hKil, if_pos hKil]
    unfold emitKill
    rw [run_emitInst0]
  rw [if_neg hKil, if_neg hKil, emitShaderInst_eq hKil,
    run_bind]
  cases planOf inst with
  | none => rfl
  | some plan => exact run_emitPlan plan _

------
-- The Function Without The Monad
------

/- The emitter behind the loop. -/
def streamed
    (cfg : CfgAnnotation)
    (gprMap : GprMap) :
    List ShaderInstruction → SpirvEmitter → SpirvEmitter
| [], e => e
| inst :: rest, e =>
    streamed cfg gprMap rest
      (stepped cfg gprMap inst rest.head? e)

/- Registers declared with the operands of a list. -/
def declared :
    List ShaderOperand → GprMap → SpirvEmitter →
      GprMap × SpirvEmitter
| [], gprMap, e => (gprMap, e)
| op :: ops, gprMap, e =>
    if op.type = .GPR ∧ gprMap op.regIndex = none then
      declared ops
        (Function.update gprMap op.regIndex (some e.nextId))
        (e.pushed 1
          [⟨SpirvOp.Variable,
            [e.types.f32Fnptr, e.nextId,
              SpirvStorageClass.Function]⟩])
    else declared ops gprMap e

/- Operands whose registers get a variable. -/
def gprOperands (p : ShaderProgram) : List ShaderOperand :=
  p.instructions.flatMap fun inst => inst.dest :: inst.usedSrcs

/- Copies of the stage's inputs to its outputs. -/
def ioCode
    (stage : ShaderStage)
    (e : SpirvEmitter) : List SpirvInst :=
  let copy (input output n : Nat) : List SpirvInst :=
    [⟨SpirvOp.Load, [e.types.vec4f32T, n, input]⟩,
      ⟨SpirvOp.Store, [output, n]⟩]
  if isVertex stage then
    copy e.io.vertInPosition e.io.vertOutPosition e.nextId ++
      copy e.io.vertInColor e.io.vertOutColor (e.nextId + 1)
  else if isFragment stage then
    copy e.io.fragInColor e.io.fragOutColor e.nextId
  else []

def ioCount (stage : ShaderStage) : Nat :=
  if isVertex stage then 2
  else if isFragment stage then 1 else 0

def ioCopied
    (stage : ShaderStage)
    (e : SpirvEmitter) : SpirvEmitter :=
  e.pushed (ioCount stage) (ioCode stage e)

/- The return is left out when the program has a `KIL`. -/
def endCode (p : ShaderProgram) : List SpirvInst :=
  if p.instructions.any (·.opcode = .KIL) then
    [⟨SpirvOp.FunctionEnd, []⟩]
  else
    [⟨SpirvOp.Return, []⟩, ⟨SpirvOp.FunctionEnd, []⟩]

/- The variables of a program's registers. -/
def gprMapOf (p : ShaderProgram) (e : SpirvEmitter) : GprMap :=
  (declared (gprOperands p) (fun _ => none) e).1

def gprsDeclared
    (p : ShaderProgram)
    (e : SpirvEmitter) : SpirvEmitter :=
  (declared (gprOperands p) (fun _ => none) e).2

/- The emitter behind the entry label. -/
def entered
    (p : ShaderProgram)
    (e : SpirvEmitter) : SpirvEmitter :=
  { e.pushed 1 [labelInst e.nextId] with
    cfgState.labelsEmitted :=
      (p.instructions.head?.map (·.pc)).toList ++
        e.cfgState.labelsEmitted }

/- The emitter in front of the first instruction. -/
def atLoop
    (p : ShaderProgram)
    (e : SpirvEmitter) : SpirvEmitter :=
  ioCopied p.stage (gprsDeclared p (entered p e))

/- The emitter behind the last instruction. -/
def behindLoop
    (p : ShaderProgram)
    (e : SpirvEmitter) : SpirvEmitter :=
  streamed (buildCfg p) (gprMapOf p (entered p e))
    p.instructions (atLoop p e)

theorem cfgState_declared :
    ∀ (ops : List ShaderOperand) (gprMap : GprMap)
      (e : SpirvEmitter),
      (declared ops gprMap e).2.cfgState = e.cfgState := by
  intro ops
  induction ops with
  | nil =>
      intro gprMap e
      rfl
  | cons op ops ih =>
      intro gprMap e
      unfold declared
      split_ifs
      · rw [ih, cfgState_pushed]
      · exact ih _ _

/- Only the entry label is there in front of the loop. -/
theorem cfgState_atLoop
    (p : ShaderProgram)
    (e : SpirvEmitter) :
    (atLoop p e).cfgState = (entered p e).cfgState := by
  unfold atLoop ioCopied gprsDeclared
  rw [cfgState_pushed, cfgState_declared]

theorem run_emitStructuredCfg
    (cfg : CfgAnnotation)
    (gprMap : GprMap) :
    ∀ (insts : List ShaderInstruction) (e : SpirvEmitter),
      ((emitStructuredCfg cfg gprMap insts).run e).2 =
        streamed cfg gprMap insts e := by
  intro insts
  induction insts with
  | nil =>
      intro e
      rfl
  | cons inst rest ih =>
      intro e
      unfold emitStructuredCfg streamed
      rw [run_bind, ih, run_emitCfgInst]

theorem run_declareGprs :
    ∀ (ops : List ShaderOperand) (gprMap : GprMap)
      (e : SpirvEmitter),
      (declareGprs ops gprMap).run e =
        declared ops gprMap e := by
  intro ops
  induction ops with
  | nil =>
      intro gprMap e
      rfl
  | cons op ops ih =>
      intro gprMap e
      unfold declareGprs declared declareGpr
      rw [run_bind, ih]
      split_ifs with hNew
      · rw [run_get_bind, run_bind, run_emitVariable]
        rfl
      · rfl

theorem run_emitIoBody
    (stage : ShaderStage)
    (e : SpirvEmitter) :
    ((emitIoBody stage).run e).2 = ioCopied stage e := by
  unfold emitIoBody emitVertexIoBody emitFragmentIoBody
    ioCopied ioCode ioCount emitLoad emitStore
  dsimp only
  split_ifs with hVertex hFragment
  · rw [run_get_bind, run_bind, run_emitUnary, run_bind,
      run_emitInst2, run_bind, run_emitUnary, run_emitInst2]
    simp only [pushed_pushed, nextId_pushed]
    rfl
  · rw [run_get_bind, run_bind, run_emitUnary, run_emitInst2,
      pushed_pushed]
    rfl
  · rw [pushed_nil]
    rfl

theorem run_emitLabel (e : SpirvEmitter) :
    emitLabel.run e =
      (e.nextId, e.pushed 1 [labelInst e.nextId]) :=
  run_withNewId labelInst (fun _ => rfl) e

theorem run_emitEntry
    (p : ShaderProgram)
    (e : SpirvEmitter) :
    ((emitEntry p).run e).2 = entered p e := by
  unfold emitEntry markEntry entered
  rw [run_bind, run_emitLabel]
  cases p.instructions with
  | nil => rfl
  | cons first rest => rfl

theorem run_emitFunctionEnd
    (p : ShaderProgram)
    (e : SpirvEmitter) :
    ((emitFunctionEnd p).run e).2 =
      e.pushed 0 (endCode p) := by
  unfold emitFunctionEnd endCode
  cases hKil : p.instructions.any (·.opcode = .KIL) with
  | true =>
      rw [if_neg (by simp), if_pos rfl]
      exact congrArg Prod.snd (run_emitInst0 _ e)
  | false =>
      rw [if_pos (by simp), if_neg (by simp)]
      unfold emitReturn
      rw [run_bind, run_emitInst0, run_emitInst0,
        pushed_pushed]
      rfl

/- The function body runs to the emitter it describes. -/
theorem run_emitFunctionBody
    (p : ShaderProgram)
    (e : SpirvEmitter) :
    ((emitFunctionBody p).run e).2 =
      (behindLoop p e).pushed 0 (endCode p) := by
  unfold emitFunctionBody behindLoop atLoop gprsDeclared
    gprMapOf buildGprMap
  rw [run_bind, run_emitEntry, run_bind, run_declareGprs,
    run_bind, run_emitIoBody, run_bind, run_emitStructuredCfg,
    run_emitFunctionEnd]
  rfl

------
-- Predicate Variables
------

variable {e : SpirvEmitter}

@[simp] theorem predVars_reserved (pc : Nat) :
    (reserved pc e).cfgState.predVars =
      e.cfgState.predVars := by
  unfold reserved
  split <;> rfl

@[simp] theorem predVars_blockLabelled (pc : Nat) :
    (blockLabelled cfg pc e).cfgState.predVars =
      e.cfgState.predVars := by
  unfold blockLabelled
  split_ifs <;> rfl

theorem predVars_synced (pc : Nat) :
    (synced pc e).cfgState.predVars =
      e.cfgState.predVars := by
  unfold synced
  split
  · rfl
  · split_ifs <;> rfl

theorem predVars_continued (pair : SsySyncPair) (pc : Nat) :
    (continued pair pc e).2.cfgState.predVars =
      e.cfgState.predVars := by
  unfold continued
  dsimp only
  split_ifs <;> simp

theorem predVars_opened (pc : Nat) :
    (opened cfg pc e).cfgState.predVars =
      e.cfgState.predVars := by
  unfold opened
  split
  · rfl
  · exact (predVars_continued _ _).trans
      (predVars_reserved _)

@[simp] theorem predVars_merged :
    (merged e).cfgState.predVars =
      e.cfgState.predVars := by
  unfold merged
  split <;> rfl

@[simp] theorem predVars_branched (pc : Nat) :
    (branched pc e).cfgState.predVars =
      e.cfgState.predVars :=
  predVars_reserved pc

theorem predVars_predBranched :
    (predBranched inst next e).cfgState.predVars =
      e.cfgState.predVars := by
  unfold predBranched
  simp

theorem predVars_broken :
    (broken e).cfgState.predVars =
      e.cfgState.predVars := by
  unfold broken
  split <;> simp

theorem predVars_looped :
    (looped cfg e).cfgState.predVars =
      e.cfgState.predVars := by
  unfold looped
  split
  · rfl
  · split_ifs
    · split <;> simp
    · rfl

/- A plan declares predicates, and touches no label. -/
theorem cfgState_planned (plan : Plan) :
    ∃ predVars,
      (planned plan inst gprMap e).cfgState =
        { e.cfgState with predVars := predVars } := by
  unfold planned finished predDeclared
  dsimp only
  split_ifs
  · split
    · exact ⟨_, rfl⟩
    · split <;> exact ⟨_, rfl⟩
  · exact ⟨_, rfl⟩
  · exact ⟨_, rfl⟩

/- Only a plan with a predicate destination declares one. -/
theorem predVars_planned
    (hDest : plan.dest = .gpr) :
    (planned plan inst gprMap e).cfgState.predVars =
      e.cfgState.predVars := by
  unfold planned
  dsimp only
  rw [hDest]
  split_ifs <;> rfl

theorem predVars_stepped
    (hPlan :
      ∀ plan, planOf inst = some plan → plan.dest = .gpr) :
    (stepped cfg gprMap inst next e).cfgState.predVars =
      e.cfgState.predVars := by
  have hLabel :
      (blockLabelled cfg inst.pc e).cfgState.predVars =
        e.cfgState.predVars :=
    predVars_blockLabelled _
  unfold stepped
  cases advance_cases cfg gprMap inst next with
  | sync hSync hEq =>
      rw [hEq]
      exact (predVars_synced _).trans hLabel
  | ssy hSsy hEq =>
      rw [hEq]
      exact (predVars_opened _).trans hLabel
  | bra hSsy hPlain hEq =>
      rw [hEq]
      simp
  | predBra hSsy hPlain hPred hEq =>
      rw [hEq]
      exact predVars_predBranched.trans hLabel
  | exit hNot hExit hEq =>
      rw [hEq]
      exact hLabel
  | brk hNot hBreak hEq =>
      rw [hEq]
      exact predVars_broken.trans hLabel
  | cont hNot hCont hEq =>
      rw [hEq]
      exact predVars_looped.trans hLabel
  | kil hNot hKil hEq =>
      rw [hEq]
      exact hLabel
  | none hNot hFlow hKil hNone hEq =>
      rw [hEq]
      exact hLabel
  | plan hNot hFlow hKil plan hInst hEq =>
      rw [hEq]
      exact (predVars_planned (hPlan plan hInst)).trans hLabel

end SpirvEmitter

end M1Switch
