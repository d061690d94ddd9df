import M1Switch.Gpu.Shader.SpirvEmitter.Ids
import M1Switch.Gpu.Shader.SpirvEmitter.Layout
import M1Switch.Library.BasicBlocks

/-
  Basic blocks of the emitted function.

  Each instruction of a program either emits nothing, or code
  inside a block, or the end of a block; a block start emits
  a label, but no branch in front of it.  So the function is
  a sequence of blocks exactly when the instructions already
  close and open blocks in turn.

  Key definitions include:
    * `FunctionBlocks`
    * `SpirvEmitter.Effect`

  Main results:
    * `scans_stepped`
    * `scans_streamed`
    * `emit_functionBlocks_iff`
-/

------
-- Blocks Of A Function
------

namespace M1Switch

open BasicBlocks

/- Opcodes that end a block. -/
def terminatorOps : List Nat :=
  [SpirvOp.Branch, SpirvOp.BranchConditional, SpirvOp.Return,
    SpirvOp.Kill]

def SpirvInst.kind (i : SpirvInst) : Kind :=
  if i.opcode = SpirvOp.Label then .label
  else if i.opcode ∈ terminatorOps then .terminator
  else .plain

/-
  The words split into instructions, and those from
  `OpFunction` to `OpFunctionEnd` are basic blocks.
-/
def FunctionBlocks (words : List Nat) : Prop :=
  ∃ insts body,
    instructionsOf words = some insts ∧
      functionBody insts =
        body ++ [⟨SpirvOp.FunctionEnd, []⟩] ∧
        Blocks SpirvInst.kind body

theorem functionBlocks_iff
    {words : List Nat}
    {insts body : List SpirvInst}
    (hInsts : instructionsOf words = some insts)
    (hBody :
      functionBody insts =
        body ++ [⟨SpirvOp.FunctionEnd, []⟩]) :
    FunctionBlocks words ↔ Blocks SpirvInst.kind body := by
  constructor
  · rintro ⟨insts', body', hInsts', hBody', hBlocks⟩
    rw [hInsts, Option.some.injEq] at hInsts'
    rw [← hInsts', hBody] at hBody'
    rw [List.append_cancel_right hBody']
    exact hBlocks
  · intro hBlocks
    exact ⟨insts, body, hInsts, hBody, hBlocks⟩

------
-- Effects Of Instructions
------

namespace SpirvEmitter

/- What an instruction does to the block it stands in. -/
inductive Effect where
  | silent
  | plain
  | opening
  | closing
  | reopening
deriving DecidableEq, Repr

/- Whether a block is open behind an effect. -/
def Effect.run : Effect → Bool → Option Bool
| .silent, isOpen => some isOpen
| .plain, true => some true
| .opening, false => some true
| .closing, true => some false
| .reopening, true => some true
| _, _ => none

/- The innermost region is a loop. -/
def inLoop : List OpenRegion → Bool
| [] => false
| r :: _ => r.pair.type = .Loop

/- The effect of an instruction in the open regions. -/
def effectOf
    (regions : List OpenRegion)
    (inst : ShaderInstruction) : Effect :=
  if isPlainBra inst then .closing
  else if isPredBra inst then .reopening
  else if inst.opcode = .KIL then .closing
  else if inst.opcode = .BREAK then
    if regions = [] then .silent else .closing
  else if inst.opcode = .CONT then
    if inLoop regions then .closing else .silent
  else
    match planOf inst with
    | none => .silent
    | some plan =>
        if plan.minCount ≤ inst.srcCount then .plain
        else .silent

/- The effect of the label in front of an instruction. -/
def startEffect
    (cfg : CfgAnnotation)
    (seen : Bool)
    (inst : ShaderInstruction) : Effect :=
  if inst.pc ∈ cfg.blockStarts ∧ seen = false then .opening
  else .silent

/-
  Whether a block is open behind the instructions, if each
  label finds the block closed and other code finds it open.
-/
def blockRun (cfg : CfgAnnotation) :
    Bool → List OpenRegion → List ShaderInstruction →
      Bool → Option Bool
| _, _, [], isOpen => some isOpen
| seen, regions, inst :: rest, isOpen => do
    let started ← (startEffect cfg seen inst).run isOpen
    let stepped ← (effectOf regions inst).run started
    blockRun cfg (isPredBra inst)
      (stepRegions cfg inst regions) rest stepped

/-
  Blocks are closed and opened in turn, and the last one is
  left open unless the program has a `KIL`.
-/
def AlternatesBlocks (p : ShaderProgram) : Prop :=
  blockRun (buildCfg p) true [] p.instructions true =
    some (!p.instructions.any (·.opcode = .KIL))

instance (p : ShaderProgram) :
    Decidable (AlternatesBlocks p) :=
  inferInstanceAs (Decidable (_ = _))

------
-- Scans Of Emitted Code
------

open BasicBlocks

variable {e e' e'' : SpirvEmitter}
variable {f g : Bool → Option Bool}

/- The code between two emitters scans like `f`. -/
def Scans
    (e e' : SpirvEmitter)
    (f : Bool → Option Bool) : Prop :=
  ∃ code : List SpirvInst,
    (∀ i ∈ code, Sized i) ∧
      e'.words = e.words ++ encodeInsts code ∧
        ∀ isOpen, scan SpirvInst.kind code isOpen = f isOpen

theorem scans_of_words
    (hWords : e'.words = e.words) :
    Scans e e' some := by
  refine ⟨[], ?_, ?_, fun _ => rfl⟩
  · intro i hI
    cases hI
  · rw [hWords]
    simp [encodeInsts]

theorem Scans.trans
    (hFirst : Scans e e' f)
    (hSecond : Scans e' e'' g) :
    Scans e e'' (fun isOpen => (f isOpen).bind g) := by
  rcases hFirst with ⟨a, hA, hWordsA, hScanA⟩
  rcases hSecond with ⟨b, hB, hWordsB, hScanB⟩
  refine ⟨a ++ b, List.forall_mem_append.mpr ⟨hA, hB⟩,
    ?_, ?_⟩
  · rw [hWordsB, hWordsA, encodeInsts_append,
      List.append_assoc]
  · intro isOpen
    rw [scan_append, hScanA]
    congr 1
    funext isOpen'
    exact hScanB isOpen'

theorem Scans.congr
    (hScans : Scans e e' f)
    (hEq : ∀ isOpen, f isOpen = g isOpen) :
    Scans e e' g := by
  rcases hScans with ⟨code, hSized, hWords, hScan⟩
  exact ⟨code, hSized, hWords,
    fun isOpen => (hScan isOpen).trans (hEq isOpen)⟩

/- One instruction. -/
theorem scans_single
    {ids : Nat}
    {i : SpirvInst}
    (hSized : Sized i) :
    Scans e (e.pushed ids [i])
      (fun isOpen => advance isOpen i.kind) := by
  refine ⟨[i], ?_, rfl, ?_⟩
  · intro j hJ
    rw [List.mem_singleton.mp hJ]
    exact hSized
  · intro isOpen
    rw [scan]
    exact Option.bind_fun_some _

/- Instructions that neither start nor end a block. -/
def InnerShape (opcode count : Nat) : Prop :=
  SizedShape opcode count ∧
    opcode ∉ SpirvOp.Label :: terminatorOps

instance (opcode count : Nat) :
    Decidable (InnerShape opcode count) :=
  inferInstanceAs (Decidable (_ ∧ _))

theorem kind_of_inner
    {i : SpirvInst}
    (hInner : Shaped InnerShape i) :
    i.kind = .plain := by
  have hOpcode := List.ne_and_not_mem_of_not_mem_cons hInner.2
  unfold SpirvInst.kind
  rw [if_neg hOpcode.1, if_neg hOpcode.2]

/- Code inside a block, at least one instruction. -/
theorem scans_code
    {code : List SpirvInst}
    (hCode : ∀ i ∈ code, Shaped InnerShape i)
    (hSome : code ≠ [])
    (hWords : e'.words = e.words ++ encodeInsts code) :
    Scans e e' Effect.plain.run := by
  have hPlain : ∀ i ∈ code, i.kind = .plain :=
    fun i hI => kind_of_inner (hCode i hI)
  refine ⟨code, fun i hI => (hCode i hI).1, hWords, ?_⟩
  intro isOpen
  cases isOpen with
  | true => exact scan_plain hPlain
  | false => exact scan_plain_closed hPlain hSome

theorem scans_plain
    (hAdds : Adds (Shaped InnerShape) e e')
    (hSome : AddsSome (fun _ => True) e e') :
    Scans e e' Effect.plain.run := by
  rcases hAdds.words with ⟨code, hCode, hWords⟩
  rcases hSome with ⟨code', hSized, ⟨i, hI, _⟩, hWords'⟩
  have hSame : code = code' := by
    apply encodeInsts_inj (fun j hJ => (hCode j hJ).1) hSized
    rw [hWords] at hWords'
    exact List.append_cancel_left hWords'
  subst hSame
  exact scans_code hCode (List.ne_nil_of_mem hI) hWords

/- Code inside a block, maybe none. -/
theorem scans_inner
    (hAdds : Adds (Shaped InnerShape) e e') :
    Scans e e' some ∨ Scans e e' Effect.plain.run := by
  rcases hAdds.words with ⟨code, hCode, hWords⟩
  by_cases hNil : code = []
  · subst hNil
    rw [encodeInsts, List.flatMap_nil, List.append_nil]
      at hWords
    exact Or.inl (scans_of_words hWords)
  · exact Or.inr (scans_code hCode hNil hWords)

/- Such code in front of the end of a block. -/
theorem Scans.behind_inner
    {effect : Effect}
    (hEffect : effect.run false = none)
    (hAdds : Adds (Shaped InnerShape) e e')
    (hScans : Scans e' e'' effect.run) :
    Scans e e'' effect.run := by
  rcases scans_inner hAdds with hNone | hPlain
  · exact hNone.trans hScans
  · refine (hPlain.trans hScans).congr ?_
    intro isOpen
    cases isOpen with
    | true => rfl
    | false => exact hEffect.symm

/- Such code behind the start of a block. -/
theorem Scans.before_inner
    (hScans : Scans e e' Effect.opening.run)
    (hAdds : Adds (Shaped InnerShape) e' e'') :
    Scans e e'' Effect.opening.run := by
  rcases scans_inner hAdds with hNone | hPlain
  · refine (hScans.trans hNone).congr ?_
    exact fun isOpen => Option.bind_fun_some _
  · refine (hScans.trans hPlain).congr ?_
    intro isOpen
    cases isOpen <;> rfl

------
-- Scans Of Steps
------

open BasicBlocks

variable {cfg : CfgAnnotation} {m : GprMap}
variable {regions : List OpenRegion}
variable {inst : ShaderInstruction}
variable {next : Option ShaderInstruction} {plan : Plan}

theorem mergeForms_inner : MergeForms (Shaped InnerShape) := by
  have hSelection : InnerShape SpirvOp.SelectionMerge 2 := by
    decide
  have hLoop : InnerShape SpirvOp.LoopMerge 3 := by decide
  have hLoad : InnerShape SpirvOp.Load 3 := by decide
  exact ⟨fun _ _ => hSelection, fun _ _ _ => hLoop,
    fun _ _ _ => hLoad⟩

theorem innerShape_plans :
    ∀ plan ∈ plans, ∀ s ∈ planShapes plan,
      InnerShape s.1 s.2 := by
  decide

theorem kind_guardedBranchInst (cond t f : Nat) :
    (guardedBranchInst inst cond t f).kind = .terminator := by
  unfold guardedBranchInst
  split_ifs <;> rfl

@[simp] theorem words_reserved (pc : Nat) :
    (reserved pc e).words = e.words := by
  unfold reserved
  split
  · rfl
  · simp [encodeInsts]

/- A label at the start of a block. -/
theorem scans_blockLabelled
    {seen : Bool}
    (hSeen :
      inst.pc ∈ e.cfgState.labelsEmitted ↔ seen = true) :
    Scans e (blockLabelled cfg inst.pc e)
      (startEffect cfg seen inst).run := by
  have hStart :
      (inst.pc ∈ cfg.blockStarts ∧
          inst.pc ∉ e.cfgState.labelsEmitted) ↔
        inst.pc ∈ cfg.blockStarts ∧ seen = false := by
    rw [hSeen, Bool.not_eq_true]
  unfold startEffect blockLabelled
  by_cases hIs : inst.pc ∈ cfg.blockStarts ∧ seen = false
  · rw [if_pos hIs, if_pos (hStart.mpr hIs)]
    have hLabel :
        Scans e (e.pushed 1 [labelInst e.nextId]) _ :=
      scans_single (controlForms_sized.label _)
    refine hLabel.congr ?_
    intro isOpen
    cases isOpen <;> rfl
  · rw [if_neg hIs, if_neg (fun h => hIs (hStart.mp h))]
    exact scans_of_words rfl

/- A branch ends the block. -/
theorem scans_branched (pc : Nat) :
    Scans e (branched pc e) Effect.closing.run := by
  have hReserved : Scans e (reserved pc e) some :=
    scans_of_words (words_reserved pc)
  have hBranch :
      Scans (reserved pc e) (branched pc e) _ :=
    scans_single (controlForms_sized.branch _)
  refine (hReserved.trans hBranch).congr ?_
  intro isOpen
  cases isOpen <;> rfl

/- A guarded branch ends the block and starts the next. -/
theorem scans_guarded
    {cond t f : Nat}
    (hWords :
      e'.words =
        e.words ++ encodeInsts
          (guardCode inst e ++
            [guardedBranchInst inst cond t f,
              labelInst f])) :
    Scans e e' Effect.reopening.run := by
  have hGuard :
      Adds (Shaped InnerShape) e
        (e.pushed 0 (guardCode inst e)) :=
    adds_pushed (form_guardCode mergeForms_inner)
  refine Scans.behind_inner rfl hGuard
    ⟨[guardedBranchInst inst cond t f, labelInst f],
      ?_, ?_, ?_⟩
  · rw [List.forall_mem_cons, List.forall_mem_singleton]
    exact ⟨form_guardedBranchInst
      controlForms_sized.toBranchForms _ _ _,
      controlForms_sized.label _⟩
  · rw [hWords, words_pushed, encodeInsts_append,
      List.append_assoc]
  · intro isOpen
    rw [scan, kind_guardedBranchInst]
    cases isOpen <;> rfl

theorem scans_predBranched :
    Scans e (predBranched inst next e)
      Effect.reopening.run := by
  have hReserved :
      Adds (Shaped InnerShape) e
        (reserved (falsePc inst next)
          (reserved inst.targetPc (merged e))) :=
    ((adds_merged mergeForms_inner).trans
      (adds_reserved _)).trans (adds_reserved _)
  exact Scans.behind_inner rfl hReserved (scans_guarded rfl)

theorem scans_kill :
    Scans e (e.pushed 0 [⟨SpirvOp.Kill, []⟩])
      Effect.closing.run := by
  have hKill :
      Scans e (e.pushed 0 [⟨SpirvOp.Kill, []⟩]) _ :=
    scans_single controlForms_sized.kill
  refine hKill.congr ?_
  intro isOpen
  cases isOpen <;> rfl

/- Without its sources a plan emits nothing. -/
theorem planned_of_not_active
    (hPlan : planOf inst = some plan)
    (hActive : ¬ Active inst plan) :
    planned plan inst m e = e := by
  unfold planned
  rw [if_neg (fun hCount => hActive ⟨hPlan, hCount⟩)]

/- A plan without sources stores a value in any case. -/
theorem arity_plans :
    ∀ plan ∈ plans,
      1 ≤ plan.arity ∨
        (plan.dest = .gpr ∧ plan.gate = .always) := by
  decide

/- The first source is loaded. -/
theorem addsSome_loaded
    {r : Nat}
    {rs : List Nat}
    (hVar : getGpr m r ≠ 0) :
    AddsSome (fun _ => True) e (loaded m (r :: rs) e) := by
  have hLoad : SizedShape SpirvOp.Load 3 := by decide
  refine addsSome_pushed
    (form_loadCode (fun _ _ _ => hLoad) _ _ _) ?_
  unfold loadCode
  rw [if_neg hVar]
  exact ⟨_, List.mem_cons_self, trivial⟩

/- A plan that is carried out emits something. -/
theorem addsSome_of_active
    (hMapped : Mapped m inst)
    (hActive : Active inst plan)
    (hNext : 0 < e.nextId) :
    AddsSome (fun _ => True) e (planned plan inst m e) := by
  have hForms := planForms_sized hActive.1
  rcases arity_plans plan (planOf_mem_plans hActive.1) with
    hArity | ⟨hDest, hGate⟩
  · have hRegs :
        ∃ rs, srcRegs inst plan.arity =
          inst.src0.regIndex :: rs := by
      unfold srcRegs
      cases hCase : plan.arity with
      | zero => omega
      | succ n => exact ⟨_, rfl⟩
    rcases hRegs with ⟨rs, hRegs⟩
    have hVar : getGpr m inst.src0.regIndex ≠ 0 := by
      apply hMapped.sources plan hActive
      rw [hRegs]
      exact List.mem_cons_self
    unfold planned
    rw [if_pos hActive.2]
    dsimp only
    rw [hRegs]
    have hLoaded :
        AddsSome (fun _ => True) e
          (loaded m (inst.src0.regIndex :: rs) e) :=
      addsSome_loaded hVar
    split_ifs
    · exact hLoaded.before
        ((adds_template hForms _).trans
          (adds_finished hForms _))
    · exact hLoaded
  · have hVar := hMapped.dest plan hActive hDest
    have hStore : SizedShape SpirvOp.Store 2 := by decide
    apply addsSome_planned hMapped hActive hNext
    · rw [hGate]
      exact Nat.one_ne_zero
    · intro e1 srcs _ _
      right
      intro v
      rw [hDest]
      unfold finished storeCode
      rw [if_neg hVar]
      refine addsSome_pushed ?_ ⟨_, List.mem_cons_self, trivial⟩
      intro i hI
      rw [List.mem_singleton.mp hI]
      exact hStore

theorem scans_planned
    (hMapped : Mapped m inst)
    (hPlan : planOf inst = some plan)
    (hNext : 0 < e.nextId) :
    Scans e (planned plan inst m e)
      (if plan.minCount ≤ inst.srcCount then Effect.plain
        else .silent).run := by
  split_ifs with hCount
  · have hForms : PlanForms (Shaped InnerShape) plan :=
      planForms_shaped
        (innerShape_plans plan (planOf_mem_plans hPlan))
    exact scans_plain (adds_planned hForms)
      (addsSome_of_active hMapped ⟨hPlan, hCount⟩ hNext)
  · rw [planned_of_not_active hPlan fun h => hCount h.2]
    exact scans_of_words rfl

/- A stack entry stands for a region of the annotation. -/
structure RegionLike
    (cfg : CfgAnnotation)
    (entry : SsyStackEntry)
    (r : OpenRegion) : Prop where
  ssyPc : entry.ssyPc = r.pair.ssyPc
  syncPc : entry.syncPc = r.pair.syncPc
  type : entry.type = r.pair.type
  pair :
    cfg.pairs.find? (·.ssyPc = r.pair.ssyPc) = some r.pair

def StackLike
    (cfg : CfgAnnotation)
    (stack : List SsyStackEntry)
    (regions : List OpenRegion) : Prop :=
  List.Forall₂ (RegionLike cfg) stack regions

theorem scans_broken
    (hStack : StackLike cfg e.cfgState.ssyStack regions) :
    Scans e (broken e)
      (if regions = [] then Effect.silent
        else .closing).run := by
  unfold broken
  revert hStack
  cases e.cfgState.ssyStack with
  | nil =>
      intro hStack
      cases hStack
      exact scans_of_words rfl
  | cons top rest =>
      intro hStack
      cases hStack
      exact scans_branched _

theorem scans_looped
    (hStack : StackLike cfg e.cfgState.ssyStack regions) :
    Scans e (looped cfg e)
      (if inLoop regions then Effect.closing
        else .silent).run := by
  unfold looped
  revert hStack
  cases e.cfgState.ssyStack with
  | nil =>
      intro hStack
      cases hStack
      exact scans_of_words rfl
  | cons top rest =>
      intro hStack
      cases hStack with
      | cons hTop hRest =>
          rename_i r regions
          dsimp only
          rw [hTop.type, hTop.ssyPc, hTop.pair]
          unfold inLoop
          by_cases hLoop : r.pair.type = .Loop
          · simp only [hLoop, if_true, decide_true]
            exact scans_branched _
          · simp only [hLoop, if_false, decide_false]
            exact scans_of_words rfl

/- Markers of regions and returns emit nothing. -/
theorem effectOf_silent
    (hOp :
      inst.opcode = .SYNC ∨ inst.opcode = .SSY ∨
        inst.opcode = .EXIT ∨ inst.opcode = .RET) :
    effectOf regions inst = .silent := by
  have hPlan : planOf inst = none := by
    unfold planOf
    rcases hOp with hOp | hOp | hOp | hOp <;> rw [hOp]
  rcases hOp with hOp | hOp | hOp | hOp <;>
    simp [effectOf, isPlainBra, isPredBra, hOp, hPlan]

theorem words_synced (pc : Nat) :
    (synced pc e).words = e.words := by
  unfold synced
  split
  · rfl
  · split_ifs <;> rfl

theorem words_opened (pc : Nat) :
    (opened cfg pc e).words = e.words := by
  unfold opened continued
  dsimp only
  split
  · rfl
  · split_ifs <;> simp

/- The instruction itself has its effect. -/
theorem scans_advanced
    (hMapped : Mapped m inst)
    (hNext : 0 < e.nextId)
    (hStack : StackLike cfg e.cfgState.ssyStack regions) :
    Scans e (advanced cfg m inst next e)
      (effectOf regions inst).run := by
  cases advance_cases cfg m inst next with
  | sync hSync hEq =>
      rw [hEq, effectOf_silent (Or.inl hSync)]
      exact scans_of_words (words_synced _)
  | ssy hSsy hEq =>
      rw [hEq, effectOf_silent (Or.inr (Or.inl hSsy))]
      exact scans_of_words (words_opened _)
  | bra hSsy hPlain hEq =>
      rw [hEq, effectOf, if_pos hPlain]
      exact Scans.behind_inner rfl
        (adds_merged mergeForms_inner) (scans_branched _)
  | predBra hSsy hPlain hPred hEq =>
      rw [hEq, effectOf, if_neg hPlain, if_pos hPred]
      exact scans_predBranched
  | exit hNot hExit hEq =>
      rw [hEq, effectOf_silent (Or.inr (Or.inr hExit))]
      exact scans_of_words rfl
  | brk hNot hBreak hEq =>
      rw [hEq, effectOf, if_neg hNot.plain, if_neg hNot.pred,
        if_neg (by simp [hBreak]), if_pos hBreak]
      exact scans_broken hStack
  | cont hNot hCont hEq =>
      rw [hEq, effectOf, if_neg hNot.plain, if_neg hNot.pred,
        if_neg (by simp [hCont]), if_neg (by simp [hCont]),
        if_pos hCont]
      exact scans_looped hStack
  | kil hNot hKil hEq =>
      rw [hEq, effectOf, if_neg hNot.plain, if_neg hNot.pred,
        if_pos hKil]
      exact scans_kill
  | none hNot hFlow hKil hNone hEq =>
      rw [hEq, effectOf, if_neg hNot.plain, if_neg hNot.pred,
        if_neg hKil, if_neg hFlow.1, if_neg hFlow.2, hNone]
      exact scans_of_words rfl
  | plan hNot hFlow hKil plan hPlan hEq =>
      rw [hEq, effectOf, if_neg hNot.plain, if_neg hNot.pred,
        if_neg hKil, if_neg hFlow.1, if_neg hFlow.2, hPlan]
      exact scans_planned hMapped hPlan hNext

/- One iteration: the label, then the instruction. -/
theorem scans_stepped
    {seen : Bool}
    (hMapped : Mapped m inst)
    (hNext : 0 < e.nextId)
    (hStack : StackLike cfg e.cfgState.ssyStack regions)
    (hSeen :
      inst.pc ∈ e.cfgState.labelsEmitted ↔ seen = true) :
    Scans e (stepped cfg m inst next e)
      (fun isOpen =>
        ((startEffect cfg seen inst).run isOpen).bind
          (effectOf regions inst).run) := by
  have hLabel :
      Adds Sized e (blockLabelled cfg inst.pc e) :=
    adds_blockLabelled controlForms_sized.label _
  have hSame :
      (blockLabelled cfg inst.pc e).cfgState.ssyStack =
        e.cfgState.ssyStack := by
    unfold blockLabelled
    split_ifs <;> rfl
  refine (scans_blockLabelled hSeen).trans ?_
  apply scans_advanced hMapped
    (lt_of_lt_of_le hNext hLabel.nextId)
  rw [hSame]
  exact hStack

------
-- Regions Of The Stack
------

@[simp] theorem ssyStack_reserved (pc : Nat) :
    (reserved pc e).cfgState.ssyStack =
      e.cfgState.ssyStack := by
  unfold reserved
  split <;> rfl

theorem ssyStack_planned (plan : Plan) :
    (planned plan inst m e).cfgState.ssyStack =
      e.cfgState.ssyStack := by
  rcases cfgState_planned plan with ⟨predVars, hState⟩
  rw [hState]

@[simp] theorem ssyStack_branched (pc : Nat) :
    (branched pc e).cfgState.ssyStack =
      e.cfgState.ssyStack :=
  ssyStack_reserved pc

theorem ssyStack_broken :
    (broken e).cfgState.ssyStack = e.cfgState.ssyStack := by
  unfold broken
  split <;> simp

theorem ssyStack_looped :
    (looped cfg e).cfgState.ssyStack =
      e.cfgState.ssyStack := by
  unfold looped
  split
  · rfl
  · split_ifs
    · split <;> simp
    · rfl

theorem stackLike_synced
    (hStack : StackLike cfg e.cfgState.ssyStack regions)
    (pc : Nat) :
    StackLike cfg (synced pc e).cfgState.ssyStack
      (closeRegion pc regions) := by
  unfold synced
  revert hStack
  cases hEntries : e.cfgState.ssyStack with
  | nil =>
      intro hStack
      cases hStack
      rw [hEntries]
      exact List.Forall₂.nil
  | cons top rest =>
      intro hStack
      cases hStack with
      | cons hTop hRest =>
          rename_i r regions
          dsimp only [closeRegion]
          rw [hTop.syncPc]
          by_cases hPc : r.pair.syncPc = pc
          · rw [if_pos hPc, if_pos hPc]
            exact hRest
          · rw [if_neg hPc, if_neg hPc, hEntries]
            exact List.Forall₂.cons hTop hRest

theorem stackLike_merged
    (hStack : StackLike cfg e.cfgState.ssyStack regions) :
    StackLike cfg (merged e).cfgState.ssyStack
      (mergeRegion regions) := by
  unfold merged
  revert hStack
  cases hEntries : e.cfgState.ssyStack with
  | nil =>
      intro hStack
      cases hStack
      rw [hEntries]
      exact List.Forall₂.nil
  | cons top rest =>
      intro hStack
      cases hStack with
      | cons hTop hRest =>
          exact List.Forall₂.cons
            ⟨hTop.ssyPc, hTop.syncPc, hTop.type, hTop.pair⟩
            hRest

theorem stackLike_opened
    (hStack : StackLike cfg e.cfgState.ssyStack regions)
    (pc : Nat) :
    StackLike cfg (opened cfg pc e).cfgState.ssyStack
      (openRegion cfg pc regions) := by
  unfold opened openRegion
  cases hPair : cfg.pairs.find? (·.ssyPc = pc) with
  | none => exact hStack
  | some pair =>
      have hPc : pair.ssyPc = pc := by
        have hFound := List.find?_some hPair
        exact of_decide_eq_true hFound
      subst hPc
      refine List.Forall₂.cons ⟨rfl, rfl, rfl, hPair⟩ ?_
      unfold continued
      dsimp only
      unfold StackLike at hStack
      split_ifs <;> simpa using hStack

/- Regions follow the stack over one iteration. -/
theorem stackLike_stepped
    (hStack : StackLike cfg e.cfgState.ssyStack regions) :
    StackLike cfg
      (stepped cfg m inst next e).cfgState.ssyStack
      (stepRegions cfg inst regions) := by
  have hSame :
      (blockLabelled cfg inst.pc e).cfgState.ssyStack =
        e.cfgState.ssyStack := by
    unfold blockLabelled
    split_ifs <;> rfl
  rw [← hSame] at hStack
  unfold stepped
  revert hStack
  generalize blockLabelled cfg inst.pc e = e
  intro hStack
  unfold advanced stepRegions
  by_cases hSync : inst.opcode = .SYNC
  · rw [if_pos hSync, if_pos hSync]
    exact stackLike_synced hStack _
  by_cases hSsy : inst.opcode = .SSY
  · rw [if_neg hSync, if_pos hSsy, if_neg hSync, if_pos hSsy]
    exact stackLike_opened hStack _
  rw [if_neg hSync, if_neg hSsy, if_neg hSync, if_neg hSsy]
  by_cases hPlain : isPlainBra inst = true
  · rw [if_pos hPlain, if_pos (Or.inl hPlain)]
    rw [ssyStack_branched]
    exact stackLike_merged hStack
  by_cases hPred : isPredBra inst = true
  · rw [if_neg hPlain, if_pos hPred, if_pos (Or.inr hPred)]
    have hMerged := stackLike_merged hStack
    unfold predBranched
    simpa using hMerged
  rw [if_neg hPlain, if_neg hPred,
    if_neg (not_or.mpr ⟨hPlain, hPred⟩)]
  split_ifs
  · exact hStack
  · rw [ssyStack_broken]
    exact hStack
  · rw [ssyStack_looped]
    exact hStack
  · exact hStack
  · split
    · exact hStack
    · rw [ssyStack_planned]
      exact hStack

------
-- The Whole Function
------

open BasicBlocks MaxwellDecoder

variable {p : ShaderProgram}

/- The loop, by induction over the instructions. -/
theorem scans_streamed :
    ∀ (insts : List ShaderInstruction) (seen : Bool)
      (regions : List OpenRegion) (e : SpirvEmitter),
      (∀ inst ∈ insts, Mapped m inst) →
        insts.Pairwise (fun a b => a.pc < b.pc) →
          0 < e.nextId → Ahead seen insts e →
            StackLike cfg e.cfgState.ssyStack regions →
              Scans e (streamed cfg m insts e)
                (blockRun cfg seen regions insts) := by
  intro insts
  induction insts with
  | nil =>
      intro seen regions e _ _ _ _ _
      exact scans_of_words rfl
  | cons inst rest ih =>
      intro seen regions e hMapped hPcs hNext hAhead hStack
      have hStep :
          Scans e (stepped cfg m inst rest.head? e) _ :=
        scans_stepped (hMapped inst List.mem_cons_self) hNext
          hStack (hAhead.head inst rfl)
      have hAdds :
          Adds Sized e (stepped cfg m inst rest.head? e) :=
        adds_stepped controlForms_sized
          fun _ hPlan => planForms_sized hPlan
      have hRest :=
        ih (isPredBra inst) (stepRegions cfg inst regions)
          (stepped cfg m inst rest.head? e)
          (fun i hI => hMapped i (List.mem_cons_of_mem inst hI))
          (List.pairwise_cons.mp hPcs).2
          (lt_of_lt_of_le hNext hAdds.nextId)
          (hAhead.step hPcs) (stackLike_stepped hStack)
      refine (hStep.trans hRest).congr ?_
      intro isOpen
      exact Option.bind_assoc _ _ _

theorem adds_frame_inner
    (p : ShaderProgram)
    (e : SpirvEmitter) :
    Adds (Shaped InnerShape) (entered p e) (atLoop p e) := by
  have hVariable : InnerShape SpirvOp.Variable 3 := by decide
  have hLoad : InnerShape SpirvOp.Load 3 := by decide
  have hStore : InnerShape SpirvOp.Store 2 := by decide
  exact adds_frame (fun _ _ => hVariable) (fun _ _ _ => hLoad)
    (fun _ _ => hStore) p

/- The label of the entry opens the first block. -/
theorem scans_atLoop :
    Scans e (atLoop p e) Effect.opening.run := by
  have hLabel :
      Scans e (e.pushed 1 [labelInst e.nextId])
        (fun isOpen => advance isOpen .label) :=
    scans_single (controlForms_sized.label _)
  have hEntered :
      Scans e (entered p e) Effect.opening.run := by
    refine hLabel.congr ?_
    intro isOpen
    cases isOpen <;> rfl
  exact hEntered.before_inner (adds_frame_inner p e)

/- The function's code, and its blocks. -/
theorem scans_behindLoop
    {data : List U8}
    {stage : ShaderStage}
    (hDecode : decode data stage = some p) :
    Scans (preambled p e) (behindLoop p (preambled p e))
      (fun isOpen =>
        (Effect.opening.run isOpen).bind
          (blockRun (buildCfg p) true [] p.instructions)) := by
  have hState := cfgState_preambled p e
  have hPcs := decode_pcs_increasing hDecode
  have hFrame :
      Adds Sized (preambled p e) (atLoop p (preambled p e)) :=
    adds_atLoop frameForms_sized p
  have hMapped :
      ∀ inst ∈ p.instructions,
        Mapped (gprMapOf p (entered p (preambled p e))) inst :=
    fun inst hInst =>
      mapped_of_regular (regular_of_decode hDecode hInst) hInst
        (Nat.succ_pos _)
  have hNext : 0 < (atLoop p (preambled p e)).nextId :=
    lt_of_lt_of_le (nextId_preambled_pos p e) hFrame.nextId
  have hStack :
      StackLike (buildCfg p)
        (atLoop p (preambled p e)).cfgState.ssyStack [] := by
    rw [cfgState_atLoop]
    show StackLike _ (preambled p e).cfgState.ssyStack []
    rw [hState]
    exact List.Forall₂.nil
  exact scans_atLoop.trans
    (scans_streamed _ _ _ _ hMapped hPcs hNext
      (ahead_atLoop hState hPcs) hStack)

/- The code behind the loop closes the last block. -/
def returnCode (p : ShaderProgram) : List SpirvInst :=
  if p.instructions.any (·.opcode = .KIL) then []
  else [⟨SpirvOp.Return, []⟩]

theorem endCode_eq (p : ShaderProgram) :
    endCode p =
      returnCode p ++ [⟨SpirvOp.FunctionEnd, []⟩] := by
  unfold endCode returnCode
  split_ifs <;> rfl

theorem scan_returnCode_iff (isOpen : Bool) :
    scan SpirvInst.kind (returnCode p) isOpen = some false ↔
      isOpen = !p.instructions.any (·.opcode = .KIL) := by
  unfold returnCode
  cases p.instructions.any (·.opcode = .KIL) <;>
    cases isOpen <;> decide

/- The body of the function, and what its scan depends on. -/
theorem exists_body
    (e : SpirvEmitter)
    {data : List U8}
    {stage : ShaderStage}
    (hDecode : decode data stage = some p) :
    ∃ insts body,
      instructionsOf (emit e p) = some insts ∧
        functionBody insts =
          body ++ [⟨SpirvOp.FunctionEnd, []⟩] ∧
          body ≠ [] ∧
            (scan SpirvInst.kind body false = some false ↔
              AlternatesBlocks p) := by
  have hScans :
      Scans (preambled p e) (behindLoop p (preambled p e)) _ :=
    scans_behindLoop hDecode
  rcases hScans with ⟨code, hSized, hWords, hScan⟩
  have hStart :
      scan SpirvInst.kind code false =
        blockRun (buildCfg p) true [] p.instructions true :=
    hScan false
  refine ⟨moduleOf p code, code ++ returnCode p,
    instructionsOf_emit hSized hWords, ?_, ?_, ?_⟩
  · rw [functionBody_moduleOf, endCode_eq, List.append_assoc]
  · intro hNil
    have hCode : code = [] :=
      (List.append_eq_nil_iff.mp hNil).1
    have hOpen := hScan true
    rw [hCode] at hOpen
    cases hOpen
  · rw [scan_append, hStart]
    unfold AlternatesBlocks
    cases blockRun (buildCfg p) true [] p.instructions true with
    | none => simp
    | some isOpen =>
        rw [Option.bind_some, scan_returnCode_iff,
          Option.some.injEq]

/-
  The function emitted for a decoded program is a sequence of
  basic blocks exactly when its instructions close and open
  blocks in turn.
-/
theorem emit_functionBlocks_iff
    (e : SpirvEmitter)
    (data : List U8)
    (stage : ShaderStage)
    (p : ShaderProgram)
    (hDecode : decode data stage = some p) :
    FunctionBlocks (emit e p) ↔ AlternatesBlocks p := by
  rcases exists_body e hDecode with
    ⟨insts, body, hInsts, hBody, hSome, hScan⟩
  rw [functionBlocks_iff hInsts hBody, blocks_iff_scan hSome,
    hScan]

/- A guarded `BRA`, an `FADD` and `EXIT`. -/
def branchOverOne : List U8 :=
  [32, 48, 0, 0, 2, 0, 0, 0, 32, 0, 0, 0, 0, 0, 0, 0,
    0, 16, 0, 0, 0, 0, 0, 0]

theorem branchOverOne_functionBlocks :
    ∃ p, decode branchOverOne .VertexB = some p ∧
      p.instructions.map (·.opcode) = [.BRA, .FADD, .EXIT] ∧
        FunctionBlocks (emit {} p) := by
  refine ⟨_, rfl, by decide, ?_⟩
  rw [emit_functionBlocks_iff {} branchOverOne .VertexB _ rfl]
  decide

/-
  An `SSY` and its `SYNC`: the label of the block behind the
  `SSY` follows no terminator.
-/
def ssyThenSync : List U8 :=
  [96, 16, 0, 0, 0, 0, 0, 0, 128, 16, 0, 0, 0, 0, 0, 0,
    0, 16, 0, 0, 0, 0, 0, 0]

theorem ssyThenSync_not_functionBlocks :
    ∃ p, decode ssyThenSync .VertexB = some p ∧
      p.instructions.map (·.opcode) = [.SSY, .SYNC, .EXIT] ∧
        ¬ FunctionBlocks (emit {} p) := by
  refine ⟨_, rfl, by decide, ?_⟩
  have hDecode : decode ssyThenSync .VertexB = some _ := rfl
  rcases exists_body {} hDecode with
    ⟨insts, body, hInsts, hBody, hSome, hScan⟩
  rw [functionBlocks_iff hInsts hBody, blocks_iff_scan hSome,
    hScan]
  decide

end SpirvEmitter

end M1Switch
