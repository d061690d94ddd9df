import M1Switch.Gpu.Shader.SpirvEmitter.Blocks
import M1Switch.Library.StateRelation

/-
  How many ids the emission of a program takes.

  An id is taken for each type and constant of the head, for
  each register, for each label and for each value that is
  computed.  A label takes its id the first time an offset is
  named; the bound of the module is one more than the ids.

  Key definitions include:
    * `registers`
    * `instIds`

  Main results:
    * `takes_streamed`
    * `takes_preambled`
    * `bound_emitted`
-/

------
-- Counting
------

namespace M1Switch

namespace SpirvEmitter

/- Registers of a list of operands, each one once. -/
def registersFrom :
    List ShaderOperand → List Nat → List Nat
| [], regs => regs
| op :: ops, regs =>
    if op.type = .GPR ∧ op.regIndex ∉ regs then
      registersFrom ops (op.regIndex :: regs)
    else registersFrom ops regs

def registers (p : ShaderProgram) : List Nat :=
  registersFrom (gprOperands p) []

/- Ids for the labels of some offsets. -/
def labelCount : List Nat → List Nat → Nat
| [], _ => 0
| pc :: pcs, known =>
    (if pc ∈ known then 0 else 1) +
      labelCount pcs (pc :: known)

/- What the count of an instruction depends on. -/
structure IdContext where
  cfg : CfgAnnotation
  registers : List Nat
  tex : Bool

/-
  Offsets that have a label, offsets whose label stands,
  predicates that have a variable and the open regions.
-/
structure IdState where
  labelled : List Nat := []
  placed : List Nat := []
  tested : List Nat := []
  regions : List OpenRegion := []

/- The label in front of an instruction. -/
def startPcs
    (cfg : CfgAnnotation)
    (inst : ShaderInstruction)
    (placed : List Nat) : List Nat :=
  if inst.pc ∈ cfg.blockStarts ∧ inst.pc ∉ placed then
    [inst.pc]
  else []

/- Offsets an instruction names. -/
def namedPcs
    (cfg : CfgAnnotation)
    (inst : ShaderInstruction)
    (next : Option ShaderInstruction)
    (regions : List OpenRegion) : List Nat :=
  if inst.opcode = .SSY then
    match cfg.pairs.find? (·.ssyPc = inst.pc) with
    | none => []
    | some pair =>
        pair.syncPc ::
          if pair.type = .Loop then [continuePc pair] else []
  else if isPlainBra inst then [inst.targetPc]
  else if isPredBra inst then
    [inst.targetPc, falsePc inst next]
  else if inst.opcode = .BREAK then
    (regions.head?.map (·.pair.syncPc)).toList
  else if inst.opcode = .CONT ∧ inLoop regions then
    (regions.head?.map (·.pair.braTargetPc)).toList
  else []

/- The plan of an instruction outside the control flow. -/
def valuePlanOf (inst : ShaderInstruction) : Option Plan :=
  if inst.opcode = .BREAK ∨ inst.opcode = .CONT then none
  else planOf inst

/- The plan finds its sources, and the variable it needs. -/
def Carried
    (ctx : IdContext)
    (inst : ShaderInstruction)
    (plan : Plan) : Prop :=
  plan.minCount ≤ inst.srcCount ∧
    (∀ r ∈ srcRegs inst plan.arity, r ∈ ctx.registers) ∧
      (plan.gate = .tex → ctx.tex)

instance
    (ctx : IdContext)
    (inst : ShaderInstruction)
    (plan : Plan) :
    Decidable (Carried ctx inst plan) :=
  inferInstanceAs (Decidable (_ ∧ _))

/- Ids for the variable of a predicate and its type. -/
def declIds
    (inst : ShaderInstruction)
    (plan : Plan)
    (tested : List Nat) : Nat :=
  if plan.dest = .pred ∧ inst.dest.predIndex ∉ tested then 2
  else 0

/- Ids for the loads and the code of a plan. -/
def planIds
    (ctx : IdContext)
    (inst : ShaderInstruction)
    (plan : Plan)
    (tested : List Nat) : Nat :=
  if plan.minCount ≤ inst.srcCount then
    ((srcRegs inst plan.arity).filter
        (· ∈ ctx.registers)).length +
      if Carried ctx inst plan then
        plan.template.lines.length + declIds inst plan tested
      else 0
  else 0

def valueIds
    (ctx : IdContext)
    (inst : ShaderInstruction)
    (tested : List Nat) : Nat :=
  match valuePlanOf inst with
  | none => 0
  | some plan => planIds ctx inst plan tested

/- The predicate a plan stores to. -/
def planTests
    (ctx : IdContext)
    (inst : ShaderInstruction)
    (plan : Plan) : List Nat :=
  if Carried ctx inst plan ∧ plan.dest = .pred then
    [inst.dest.predIndex]
  else []

def valueTests
    (ctx : IdContext)
    (inst : ShaderInstruction) : List Nat :=
  match valuePlanOf inst with
  | none => []
  | some plan => planTests ctx inst plan

/- The load of a guard that has a variable. -/
def guardIds
    (inst : ShaderInstruction)
    (tested : List Nat) : Nat :=
  if isPredBra inst ∧ inst.predGuardIndex ∈ tested then 1
  else 0

/- Ids that one instruction takes. -/
def instIds
    (ctx : IdContext)
    (inst : ShaderInstruction)
    (next : Option ShaderInstruction)
    (st : IdState) : Nat :=
  (startPcs ctx.cfg inst st.placed).length +
    (labelCount (namedPcs ctx.cfg inst next st.regions)
        (startPcs ctx.cfg inst st.placed ++ st.labelled) +
      (guardIds inst st.tested +
        valueIds ctx inst st.tested))

def IdState.step
    (ctx : IdContext)
    (inst : ShaderInstruction)
    (next : Option ShaderInstruction)
    (st : IdState) : IdState :=
  { labelled :=
      namedPcs ctx.cfg inst next st.regions ++
        (startPcs ctx.cfg inst st.placed ++ st.labelled)
    placed :=
      endLabels inst next ++
        (startPcs ctx.cfg inst st.placed ++ st.placed)
    tested := valueTests ctx inst ++ st.tested
    regions := stepRegions ctx.cfg inst st.regions }

/- Ids that the instructions take. -/
def loopIds (ctx : IdContext) :
    List ShaderInstruction → IdState → Nat
| [], _ => 0
| inst :: rest, st =>
    instIds ctx inst rest.head? st +
      loopIds ctx rest (st.step ctx inst rest.head?)

/- The first id behind the head. -/
def headBound (kind : StageKind) (tex : Bool) : Nat :=
  34 + (if tex then 1 else 0) +
    match kind with
    | .vertex => 4
    | .fragment => 2
    | .other => 0

/- One more than the ids of a module. -/
def idBound (tex : Bool) (p : ShaderProgram) : Nat :=
  headBound (kindOf p.stage) p.usesTextures +
    (1 + ((registers p).length + (ioCount p.stage +
      loopIds ⟨buildCfg p, registers p, tex⟩ p.instructions
        { placed :=
            (p.instructions.head?.map (·.pc)).toList })))

------
-- Ids Taken By A Step
------

variable {e e' e'' : SpirvEmitter} {m n : Nat}

/- So many ids are taken, and the bound follows. -/
structure Takes
    (n : Nat)
    (e e' : SpirvEmitter) : Prop where
  nextId : e'.nextId = e.nextId + n
  bound : e'.bound = boundAfter e n

theorem takes_zero
    (hNextId : e'.nextId = e.nextId)
    (hBound : e'.bound = e.bound) :
    Takes 0 e e' :=
  ⟨hNextId, hBound⟩

theorem takes_pushed (n : Nat) (code : List SpirvInst) :
    Takes n e (e.pushed n code) :=
  ⟨rfl, rfl⟩

theorem Takes.trans
    (hFirst : Takes m e e')
    (hSecond : Takes n e' e'') :
    Takes (m + n) e e'' := by
  constructor
  · rw [hSecond.nextId, hFirst.nextId, Nat.add_assoc]
  · rw [hSecond.bound]
    unfold boundAfter
    rw [hFirst.nextId, hFirst.bound]
    unfold boundAfter
    split_ifs <;> omega

theorem labelCount_congr
    (pcs : List Nat)
    {known known' : List Nat}
    (hSame : ∀ pc, pc ∈ known ↔ pc ∈ known') :
    labelCount pcs known = labelCount pcs known' := by
  induction pcs generalizing known known' with
  | nil => rfl
  | cons pc pcs ih =>
      rw [labelCount, labelCount]
      have hRest :
          labelCount pcs (pc :: known) =
            labelCount pcs (pc :: known') := by
        apply ih
        intro q
        rw [List.mem_cons, List.mem_cons, hSame q]
      simp only [hRest, hSame pc]

theorem labelCount_append
    (as bs known : List Nat) :
    labelCount (as ++ bs) known =
      labelCount as known + labelCount bs (as ++ known) := by
  induction as generalizing known with
  | nil =>
      rw [List.nil_append, List.nil_append, labelCount,
        Nat.zero_add]
  | cons pc as ih =>
      have hSame :
          labelCount bs (as ++ pc :: known) =
            labelCount bs (pc :: as ++ known) := by
        apply labelCount_congr
        intro q
        simp only [List.mem_append, List.mem_cons]
        tauto
      rw [List.cons_append, labelCount, labelCount, ih, hSame,
        Nat.add_assoc]

/- The offsets with a label. -/
def HasLabels (known : List Nat) (e : SpirvEmitter) : Prop :=
  ∀ pc, (e.cfgState.pcToLabel pc).isSome ↔ pc ∈ known

/- Ids for the labels of some offsets, and `n` more. -/
def Spends
    (pcs : List Nat)
    (n : Nat)
    (e e' : SpirvEmitter) : Prop :=
  ∀ known, HasLabels known e →
    Takes (labelCount pcs known + n) e e' ∧
      HasLabels (pcs ++ known) e'

theorem spends_of_takes
    (hTakes : Takes n e e')
    (hIds : e'.cfgState.pcToLabel = e.cfgState.pcToLabel) :
    Spends [] n e e' := by
  intro known hKnown
  refine ⟨?_, ?_⟩
  · rw [labelCount, Nat.zero_add]
    exact hTakes
  · intro pc
    rw [hIds]
    exact hKnown pc

theorem Spends.refl : Spends [] 0 e e :=
  spends_of_takes (takes_zero rfl rfl) rfl

theorem spends_pushed (n : Nat) (code : List SpirvInst) :
    Spends [] n e (e.pushed n code) :=
  spends_of_takes (takes_pushed n code) rfl

theorem Spends.trans
    {as bs : List Nat}
    (hFirst : Spends as m e e')
    (hSecond : Spends bs n e' e'') :
    Spends (as ++ bs) (m + n) e e'' := by
  intro known hKnown
  rcases hFirst known hKnown with ⟨hTakes, hLabels⟩
  rcases hSecond _ hLabels with ⟨hTakes', hLabels'⟩
  refine ⟨?_, ?_⟩
  · have hCount :
        labelCount (as ++ bs) known + (m + n) =
          labelCount as known + m +
            (labelCount bs (as ++ known) + n) := by
      rw [labelCount_append]
      omega
    rw [hCount]
    exact hTakes.trans hTakes'
  · intro pc
    rw [hLabels' pc]
    simp only [List.mem_append]
    tauto

/- The rest of the emitter does not matter. -/
theorem Spends.congr
    {pcs : List Nat}
    (hSpends : Spends pcs n e e')
    (hNextId : e''.nextId = e'.nextId)
    (hBound : e''.bound = e'.bound)
    (hIds :
      e''.cfgState.pcToLabel = e'.cfgState.pcToLabel) :
    Spends pcs n e e'' := by
  have hBoth :=
    hSpends.trans
      (spends_of_takes (takes_zero hNextId hBound) hIds)
  rw [List.append_nil, Nat.add_zero] at hBoth
  exact hBoth

------
-- Ids Of The Control Flow
------

variable {cfg : CfgAnnotation} {gprMap : GprMap}
variable {inst : ShaderInstruction}
variable {next : Option ShaderInstruction}
variable {regions : List OpenRegion}

theorem spends_reserved (pc : Nat) :
    Spends [pc] 0 e (reserved pc e) := by
  intro known hKnown
  have hPc := hKnown pc
  unfold reserved
  cases hOld : e.cfgState.pcToLabel pc with
  | some id =>
      rw [hOld] at hPc
      have hMem : pc ∈ known := hPc.mp rfl
      refine ⟨?_, ?_⟩
      · rw [labelCount, labelCount, if_pos hMem]
        exact takes_zero rfl rfl
      · intro q
        rw [hKnown q, List.singleton_append, List.mem_cons]
        constructor
        · exact Or.inr
        · rintro (hSelf | hQ)
          · exact hSelf ▸ hMem
          · exact hQ
  | none =>
      rw [hOld] at hPc
      have hMem : pc ∉ known := fun hIn => by
        simpa using hPc.mpr hIn
      refine ⟨?_, ?_⟩
      · rw [labelCount, labelCount, if_neg hMem]
        exact ⟨rfl, rfl⟩
      · intro q
        rw [List.singleton_append, List.mem_cons, ← hKnown q]
        by_cases hQ : q = pc
        · rw [hQ]
          simp
        · simp [hQ]

theorem spends_branched (pc : Nat) :
    Spends [pc] 0 e (branched pc e) := by
  have hBoth :=
    (spends_reserved (e := e) pc).trans
      (spends_pushed 0 [⟨SpirvOp.Branch, [labelIdOf pc e]⟩])
  exact hBoth

theorem spends_synced (pc : Nat) :
    Spends [] 0 e (synced pc e) := by
  apply spends_of_takes _ (sameLabels_synced pc).ids
  unfold synced
  split
  · exact takes_zero rfl rfl
  · split_ifs <;> exact takes_zero rfl rfl

theorem spends_merged : Spends [] 0 e (merged e) := by
  apply spends_of_takes _ sameLabels_merged.ids
  unfold merged
  split
  · exact takes_zero rfl rfl
  · exact ⟨rfl, rfl⟩

theorem spends_continued
    {pair : SsySyncPair}
    {pc : Nat}
    (hPc : pair.ssyPc = pc) :
    Spends (if pair.type = .Loop then [continuePc pair] else [])
      0 e (continued pair pc e).2 := by
  unfold continued continuePc
  dsimp only
  rw [hPc]
  by_cases hLoop : pair.type = .Loop
  · rw [if_pos hLoop, if_pos hLoop]
    exact spends_reserved _
  · rw [if_neg hLoop, if_neg hLoop]
    exact Spends.refl

theorem spends_opened (hSsy : inst.opcode = .SSY) :
    Spends (namedPcs cfg inst next regions) 0 e
      (opened cfg inst.pc e) := by
  unfold opened namedPcs
  rw [if_pos hSsy]
  cases hFind : cfg.pairs.find? (·.ssyPc = inst.pc) with
  | none => exact Spends.refl
  | some pair =>
      have hIs := List.find?_some hFind
      have hPc : pair.ssyPc = inst.pc := of_decide_eq_true hIs
      have hBoth :=
        (spends_reserved (e := e) pair.syncPc).trans
          (spends_continued hPc)
      exact hBoth.congr rfl rfl rfl

theorem spends_broken
    (hStack : StackLike cfg e.cfgState.ssyStack regions) :
    Spends (regions.head?.map (·.pair.syncPc)).toList 0 e
      (broken e) := by
  unfold broken
  revert hStack
  cases e.cfgState.ssyStack with
  | nil =>
      intro hStack
      cases hStack
      exact Spends.refl
  | cons top rest =>
      intro hStack
      cases hStack with
      | cons hTop hRest =>
          dsimp only
          rw [hTop.syncPc]
          exact spends_branched _

theorem spends_looped
    (hStack : StackLike cfg e.cfgState.ssyStack regions) :
    Spends
      (if inLoop regions then
        (regions.head?.map (·.pair.braTargetPc)).toList
      else []) 0 e (looped cfg e) := by
  unfold looped
  revert hStack
  cases e.cfgState.ssyStack with
  | nil =>
      intro hStack
      cases hStack
      exact Spends.refl
  | cons top rest =>
      intro hStack
      cases hStack with
      | cons hTop hRest =>
          dsimp only
          rw [hTop.type, hTop.ssyPc, hTop.pair]
          unfold inLoop
          split_ifs with hIs hLoop hLoop
          · exact spends_branched _
          · exact absurd (of_decide_eq_true hIs) hLoop
          · exact absurd (decide_eq_true hLoop) hIs
          · exact Spends.refl

theorem spends_predBranched
    {tested : List Nat}
    (hPred : isPredBra inst = true)
    (hTested :
      ∀ k, (e.cfgState.predVars k).isSome ↔ k ∈ tested) :
    Spends [inst.targetPc, falsePc inst next]
      (guardIds inst tested) e (predBranched inst next e) := by
  have hLabels :=
    ((spends_merged (e := e)).trans
      (spends_reserved inst.targetPc)).trans
        (spends_reserved (falsePc inst next))
  unfold predBranched
  dsimp only
  generalize hE3 :
    reserved (falsePc inst next)
      (reserved inst.targetPc (merged e)) = e3 at hLabels ⊢
  have hPreds : e3.cfgState.predVars = e.cfgState.predVars := by
    rw [← hE3]
    simp
  have hGuard :
      (guardCode inst e3).length = guardIds inst tested := by
    unfold guardCode guardIds
    have hIndex := hTested inst.predGuardIndex
    rw [hPreds]
    cases hVar : e.cfgState.predVars inst.predGuardIndex with
    | none =>
        rw [hVar] at hIndex
        rw [if_neg]
        · rfl
        · intro hBoth
          simpa using hIndex.mpr hBoth.2
    | some var =>
        rw [hVar] at hIndex
        rw [if_pos ⟨hPred, hIndex.mp rfl⟩]
        rfl
  have hAll :
      ∀ code,
        Spends [inst.targetPc, falsePc inst next]
          (guardIds inst tested) e
          (e3.pushed (guardIds inst tested) code) := by
    intro code
    have hBoth :=
      hLabels.trans (spends_pushed (guardIds inst tested) code)
    have hZero :
        0 + 0 + 0 + guardIds inst tested =
          guardIds inst tested :=
      Nat.zero_add _
    rw [hZero] at hBoth
    exact hBoth
  rw [hGuard]
  exact (hAll _).congr rfl rfl rfl

------
-- Ids Of Values
------

variable {ctx : IdContext} {plan : Plan}

/- The registers of the context are those with a variable. -/
def MapsRegisters (ctx : IdContext) (gprMap : GprMap) : Prop :=
  ∀ r, getGpr gprMap r ≠ 0 ↔ r ∈ ctx.registers

theorem length_loadCode_filter
    (hMaps : MapsRegisters ctx gprMap)
    (type : Nat) :
    ∀ (rs : List Nat) (n : Nat),
      (loadCode gprMap type n rs).length =
        (rs.filter (· ∈ ctx.registers)).length := by
  intro rs
  induction rs with
  | nil =>
      intro n
      rfl
  | cons r rs ih =>
      intro n
      rw [loadCode]
      by_cases hVar : getGpr gprMap r = 0
      · have hNot : r ∉ ctx.registers :=
          fun hMem => (hMaps r).mpr hMem hVar
        rw [if_pos hVar, ih, List.filter_cons_of_neg]
        simpa using hNot
      · have hKept :
            (r :: rs).filter (· ∈ ctx.registers) =
              r :: rs.filter (· ∈ ctx.registers) :=
          List.filter_cons_of_pos
            (decide_eq_true ((hMaps r).mp hVar))
        rw [if_neg hVar, List.length_cons, ih, hKept,
          List.length_cons]

/- All loads have an id if all registers have a variable. -/
theorem zero_notMem_loadIds_iff :
    ∀ (rs : List Nat) (n : Nat), 0 < n →
      (0 ∉ loadIds gprMap n rs ↔
        ∀ r ∈ rs, getGpr gprMap r ≠ 0) := by
  intro rs n hN
  constructor
  · intro hZero r hR hVar
    apply hZero
    clear hZero
    induction rs generalizing n with
    | nil => cases hR
    | cons r' rs ih =>
        rw [loadIds]
        rcases List.mem_cons.mp hR with hHead | hTail
        · rw [← hHead, if_pos hVar]
          exact List.mem_cons_self
        · split_ifs
          · exact List.mem_cons_self
          · exact
              List.mem_cons_of_mem _
                (ih (n + 1) (Nat.succ_pos n) hTail)
  · exact zero_notMem_loadIds rs n hN

/- A gate is open for a texture only if there is one. -/
structure GatesOpen
    (ctx : IdContext)
    (e : SpirvEmitter) : Prop where
  cbuf : e.cbufVarId ≠ 0
  tex : e.texSampledImageVar ≠ 0 ↔ ctx.tex = true

theorem GatesOpen.gate_iff
    (hGates : GatesOpen ctx e)
    (gate : Gate) :
    gate.id e ≠ 0 ↔ (gate = .tex → ctx.tex = true) := by
  cases gate with
  | always => simp [Gate.id]
  | cbuf => simp [Gate.id, hGates.cbuf]
  | tex => simp only [Gate.id, hGates.tex, forall_const]

theorem carried_iff
    (hMaps : MapsRegisters ctx gprMap)
    (hGates : GatesOpen ctx e)
    (hNext : 0 < e.nextId) :
    Carried ctx inst plan ↔
      plan.minCount ≤ inst.srcCount ∧
        plan.Ready inst gprMap e := by
  unfold Carried Plan.Ready
  rw [zero_notMem_loadIds_iff _ _ hNext, hGates.gate_iff]
  simp only [hMaps _]

/- The variable of a predicate that has none. -/
theorem takes_finished
    {tested : List Nat}
    (hTested :
      ∀ k, (e.cfgState.predVars k).isSome ↔ k ∈ tested)
    (value : Nat) :
    Takes (declIds inst plan tested) e
      (finished plan.dest inst gprMap value e) := by
  unfold finished declIds
  cases plan.dest with
  | gpr =>
      rw [if_neg (fun hBoth => nomatch hBoth.1)]
      exact takes_pushed 0 _
  | pred =>
      have hIndex := hTested inst.dest.predIndex
      unfold predDeclared
      cases hVar : e.cfgState.predVars inst.dest.predIndex with
      | some var =>
          rw [hVar] at hIndex
          rw [if_neg (fun hBoth => hBoth.2 (hIndex.mp rfl))]
          exact takes_pushed 0 _
      | none =>
          rw [hVar] at hIndex
          have hNot : inst.dest.predIndex ∉ tested :=
            fun hMem => by simpa using hIndex.mpr hMem
          rw [if_pos ⟨rfl, hNot⟩]
          exact ⟨rfl, rfl⟩

theorem takes_planned
    {tested : List Nat}
    (hMaps : MapsRegisters ctx gprMap)
    (hGates : GatesOpen ctx e)
    (hNext : 0 < e.nextId)
    (hTested :
      ∀ k, (e.cfgState.predVars k).isSome ↔ k ∈ tested) :
    Takes (planIds ctx inst plan tested) e
      (planned plan inst gprMap e) := by
  have hCarried :
      Carried ctx inst plan ↔ _ ∧ plan.Ready inst gprMap e :=
    carried_iff hMaps hGates hNext
  have hLoads :
      Takes
        ((srcRegs inst plan.arity).filter
          (· ∈ ctx.registers)).length e
        (loaded gprMap (srcRegs inst plan.arity) e) := by
    unfold loaded
    dsimp only
    rw [length_loadCode_filter hMaps]
    exact takes_pushed _ _
  unfold planned planIds
  by_cases hCount : plan.minCount ≤ inst.srcCount
  · rw [if_pos hCount, if_pos hCount]
    dsimp only
    by_cases hReady : plan.Ready inst gprMap e
    · rw [if_pos hReady, if_pos (hCarried.mpr ⟨hCount, hReady⟩)]
      have hCode :
          ∀ srcs,
            Takes plan.template.lines.length
              (loaded gprMap (srcRegs inst plan.arity) e)
              (plan.template.emitted srcs
                (loaded gprMap (srcRegs inst plan.arity) e)) :=
        fun _ => takes_pushed _ _
      have hFinished :
          ∀ srcs value,
            Takes (declIds inst plan tested)
              (plan.template.emitted srcs
                (loaded gprMap (srcRegs inst plan.arity) e))
              (finished plan.dest inst gprMap value
                (plan.template.emitted srcs
                  (loaded gprMap
                    (srcRegs inst plan.arity) e))) := by
        intro srcs value
        apply takes_finished
        exact hTested
      exact hLoads.trans ((hCode _).trans (hFinished _ _))
    · rw [if_neg hReady,
        if_neg (fun hIs => hReady (hCarried.mp hIs).2)]
      exact hLoads
  · rw [if_neg hCount, if_neg hCount]
    exact takes_zero rfl rfl

/- The predicates with a variable behind a plan. -/
theorem tested_planned
    {tested : List Nat}
    (hMaps : MapsRegisters ctx gprMap)
    (hGates : GatesOpen ctx e)
    (hNext : 0 < e.nextId)
    (hTested :
      ∀ k, (e.cfgState.predVars k).isSome ↔ k ∈ tested)
    (k : Nat) :
    ((planned plan inst gprMap e).cfgState.predVars
        k).isSome ↔
      k ∈ planTests ctx inst plan ++ tested := by
  have hCarried :
      Carried ctx inst plan ↔ _ ∧ plan.Ready inst gprMap e :=
    carried_iff hMaps hGates hNext
  unfold planTests
  cases hDest : plan.dest with
  | gpr =>
      rw [predVars_planned hDest,
        if_neg (fun hBoth => nomatch hBoth.2)]
      exact hTested k
  | pred =>
      unfold planned
      dsimp only
      by_cases hCount : plan.minCount ≤ inst.srcCount
      · by_cases hReady : plan.Ready inst gprMap e
        · rw [if_pos hCount, if_pos hReady,
            if_pos ⟨hCarried.mpr ⟨hCount, hReady⟩, rfl⟩, hDest,
            List.singleton_append, List.mem_cons, ← hTested k]
          unfold finished predDeclared
          dsimp only [cfgState_pushed, Template.emitted, loaded]
          cases hVar :
              e.cfgState.predVars inst.dest.predIndex with
          | some var =>
              constructor
              · exact Or.inr
              · rintro (hSelf | hK)
                · rw [hSelf]
                  exact Option.isSome_of_eq_some hVar
                · exact hK
          | none =>
              by_cases hK : k = inst.dest.predIndex
              · rw [hK]
                simp
              · simp [hK]
        · rw [if_pos hCount, if_neg hReady, if_neg]
          · exact hTested k
          · exact fun hBoth => hReady (hCarried.mp hBoth.1).2
      · rw [if_neg hCount, if_neg]
        · exact hTested k
        · exact fun hBoth => hCount hBoth.1.1

------
-- Ids Of A Step
------

variable {tested : List Nat}

/- Opcodes of the control flow. -/
def controlOpcodes : List ShaderOpcode :=
  [.SYNC, .SSY, .BRA, .EXIT, .RET, .KIL, .BREAK, .CONT]

theorem valuePlanOf_of_control
    (hOp : inst.opcode ∈ controlOpcodes) :
    valuePlanOf inst = none := by
  unfold valuePlanOf
  split_ifs with hFlow
  · rfl
  · cases hPlan : planOf inst with
    | none => rfl
    | some plan =>
        have hNone := opcode_of_planOf hPlan
        rw [not_or] at hFlow
        simp [controlOpcodes, hNone, hFlow] at hOp

/- Control flow takes ids for labels and its guard. -/
theorem spends_control
    {pcs : List Nat}
    (hOp : inst.opcode ∈ controlOpcodes)
    (hPcs : namedPcs ctx.cfg inst next regions = pcs)
    (hGuard : guardIds inst tested = n)
    (hSpends : Spends pcs n e e') :
    Spends (namedPcs ctx.cfg inst next regions)
      (guardIds inst tested + valueIds ctx inst tested)
      e e' := by
  have hValue : valueIds ctx inst tested = 0 := by
    rw [valueIds, valuePlanOf_of_control hOp]
  rw [hPcs, hGuard, hValue, Nat.add_zero]
  exact hSpends

theorem guardIds_of_ne
    (hPred : ¬ isPredBra inst = true) :
    guardIds inst tested = 0 :=
  if_neg fun hBoth => hPred hBoth.1

/- What is no control flow names no position. -/
theorem namedPcs_of_flow
    (hNot : Unbranched inst)
    (hFlow : inst.opcode ≠ .BREAK ∧ inst.opcode ≠ .CONT) :
    namedPcs cfg inst next regions = [] := by
  rw [namedPcs, if_neg hNot.ssy, if_neg hNot.plain,
    if_neg hNot.pred, if_neg hFlow.1,
    if_neg fun hBoth => hFlow.2 hBoth.1]

theorem spends_advanced
    (hMaps : MapsRegisters ctx gprMap)
    (hGates : GatesOpen ctx e)
    (hNext : 0 < e.nextId)
    (hTested :
      ∀ k, (e.cfgState.predVars k).isSome ↔ k ∈ tested)
    (hStack : StackLike ctx.cfg e.cfgState.ssyStack regions) :
    Spends (namedPcs ctx.cfg inst next regions)
      (guardIds inst tested + valueIds ctx inst tested) e
      (advanced ctx.cfg gprMap inst next e) := by
  cases advance_cases ctx.cfg gprMap inst next with
  | sync hSync hEq =>
      rw [hEq]
      apply spends_control _ _ _ (spends_synced _)
      · simp [controlOpcodes, hSync]
      · simp [namedPcs, isPlainBra, isPredBra, hSync]
      · simp [guardIds, isPredBra, hSync]
  | ssy hSsy hEq =>
      rw [hEq]
      apply spends_control _ rfl _ (spends_opened hSsy)
      · simp [controlOpcodes, hSsy]
      · simp [guardIds, isPredBra, hSsy]
  | bra hSsy hPlain hEq =>
      rw [hEq]
      have hOp : inst.opcode = .BRA := by
        simp [isPlainBra] at hPlain
        exact hPlain.1
      apply spends_control _ _ _
        (spends_merged.trans (spends_branched _))
      · simp [controlOpcodes, hOp]
      · rw [namedPcs, if_neg hSsy, if_pos hPlain]
        rfl
      · simp [isPlainBra] at hPlain
        simp [guardIds, isPredBra, hPlain]
  | predBra hSsy hPlain hPred hEq =>
      rw [hEq]
      have hOp : inst.opcode = .BRA := by
        simp [isPredBra] at hPred
        exact hPred.1
      apply spends_control _ _ rfl
        (spends_predBranched hPred hTested)
      · simp [controlOpcodes, hOp]
      · rw [namedPcs, if_neg hSsy, if_neg hPlain, if_pos hPred]
  | exit hNot hExit hEq =>
      rw [hEq]
      apply spends_control _ _ (guardIds_of_ne hNot.pred)
        Spends.refl
      · rcases hExit with hOp | hOp <;>
          simp [controlOpcodes, hOp]
      · rcases hExit with hOp | hOp <;>
          simp [namedPcs, isPlainBra, isPredBra, hOp]
  | brk hNot hBreak hEq =>
      rw [hEq]
      apply spends_control _ _ (guardIds_of_ne hNot.pred)
        (spends_broken hStack)
      · simp [controlOpcodes, hBreak]
      · rw [namedPcs, if_neg hNot.ssy, if_neg hNot.plain,
          if_neg hNot.pred, if_pos hBreak]
  | cont hNot hCont hEq =>
      rw [hEq]
      apply spends_control _ _ (guardIds_of_ne hNot.pred)
        (spends_looped hStack)
      · simp [controlOpcodes, hCont]
      · rw [namedPcs, if_neg hNot.ssy, if_neg hNot.plain,
          if_neg hNot.pred, if_neg (by simp [hCont])]
        simp only [hCont, true_and]
  | kil hNot hKil hEq =>
      rw [hEq]
      apply spends_control _ _ (guardIds_of_ne hNot.pred)
        (spends_pushed 0 _)
      · simp [controlOpcodes, hKil]
      · simp [namedPcs, isPlainBra, isPredBra, hKil]
  | none hNot hFlow hKil hNone hEq =>
      rw [hEq, namedPcs_of_flow hNot hFlow,
        guardIds_of_ne hNot.pred, Nat.zero_add, valueIds,
        valuePlanOf, if_neg (not_or.mpr hFlow), hNone]
      exact Spends.refl
  | plan hNot hFlow hKil plan hPlan hEq =>
      rw [hEq, namedPcs_of_flow hNot hFlow,
        guardIds_of_ne hNot.pred, Nat.zero_add, valueIds,
        valuePlanOf, if_neg (not_or.mpr hFlow), hPlan]
      exact
        spends_of_takes
          (takes_planned hMaps hGates hNext hTested)
          (sameLabels_planned plan).ids

theorem spends_blockLabelled
    {placed : List Nat}
    (hPlaced : e.cfgState.labelsEmitted = placed)
    {known : List Nat}
    (hKnown : HasLabels known e) :
    Takes (startPcs ctx.cfg inst placed).length e
        (blockLabelled ctx.cfg inst.pc e) ∧
      HasLabels (startPcs ctx.cfg inst placed ++ known)
        (blockLabelled ctx.cfg inst.pc e) := by
  unfold blockLabelled startPcs
  rw [hPlaced]
  split_ifs with hStart
  · refine ⟨⟨rfl, rfl⟩, ?_⟩
    intro q
    rw [List.singleton_append, List.mem_cons, ← hKnown q]
    by_cases hQ : q = inst.pc
    · rw [hQ]
      simp
    · simp [hQ]
  · exact ⟨takes_zero rfl rfl, hKnown⟩

/- The predicates with a variable behind an instruction. -/
theorem tested_advanced
    (hMaps : MapsRegisters ctx gprMap)
    (hGates : GatesOpen ctx e)
    (hNext : 0 < e.nextId)
    (hTested :
      ∀ k, (e.cfgState.predVars k).isSome ↔ k ∈ tested)
    (k : Nat) :
    ((advanced ctx.cfg gprMap inst next e).cfgState.predVars
        k).isSome ↔
      k ∈ valueTests ctx inst ++ tested := by
  unfold valueTests
  cases hPlan : valuePlanOf inst with
  | none =>
      have hSame :
          (advanced ctx.cfg gprMap inst next
              e).cfgState.predVars =
            e.cfgState.predVars := by
        cases advance_cases ctx.cfg gprMap inst next with
        | sync hSync hEq =>
            rw [hEq]
            exact predVars_synced _
        | ssy hSsy hEq =>
            rw [hEq]
            exact predVars_opened _
        | bra hSsy hPlain hEq =>
            rw [hEq]
            simp
        | predBra hSsy hPlain hPred hEq =>
            rw [hEq]
            exact predVars_predBranched
        | exit hNot hExit hEq => rw [hEq]
        | brk hNot hBreak hEq =>
            rw [hEq]
            exact predVars_broken
        | cont hNot hCont hEq =>
            rw [hEq]
            exact predVars_looped
        | kil hNot hKil hEq =>
            rw [hEq]
            rfl
        | none hNot hFlow hKil hNone hEq => rw [hEq]
        | plan hNot hFlow hKil plan hInst hEq =>
            rw [valuePlanOf, if_neg (not_or.mpr hFlow), hInst]
              at hPlan
            cases hPlan
      rw [hSame]
      exact hTested k
  | some plan =>
      have hSame :
          advanced ctx.cfg gprMap inst next e =
            planned plan inst gprMap e := by
        unfold valuePlanOf at hPlan
        split_ifs at hPlan with hFlow
        rw [not_or] at hFlow
        exact advanced_of_planOf _ _ _ hPlan hFlow.1 hFlow.2 _
      rw [hSame]
      exact tested_planned hMaps hGates hNext hTested k

------
-- Ids Of The Loop
------

variable {st : IdState}

/- The state of the count agrees with the emitter. -/
structure Tracks
    (ctx : IdContext)
    (st : IdState)
    (e : SpirvEmitter) : Prop where
  labelled : HasLabels st.labelled e
  placed : e.cfgState.labelsEmitted = st.placed
  tested :
    ∀ k, (e.cfgState.predVars k).isSome ↔ k ∈ st.tested
  regions : StackLike ctx.cfg e.cfgState.ssyStack st.regions
  gates : GatesOpen ctx e
  next : 0 < e.nextId

theorem GatesOpen.congr
    (hGates : GatesOpen ctx e)
    (hHead : e'.headIds = e.headIds) :
    GatesOpen ctx e' := by
  have hCbuf : e'.cbufVarId = e.cbufVarId :=
    congrArg HeadIds.cbufVarId hHead
  have hTex : e'.texSampledImageVar = e.texSampledImageVar :=
    congrArg HeadIds.texSampledImageVar hHead
  refine ⟨?_, ?_⟩
  · rw [hCbuf]
    exact hGates.cbuf
  · rw [hTex]
    exact hGates.tex

/- One instruction takes the ids counted for it. -/
theorem takes_stepped
    (hMaps : MapsRegisters ctx gprMap)
    (hTracks : Tracks ctx st e) :
    Takes (instIds ctx inst next st) e
        (stepped ctx.cfg gprMap inst next e) ∧
      Tracks ctx (st.step ctx inst next)
        (stepped ctx.cfg gprMap inst next e) := by
  have hAdds :
      Adds Sized e (stepped ctx.cfg gprMap inst next e) :=
    adds_stepped controlForms_sized
      fun _ hPlan => planForms_sized hPlan
  have hLabel :
      Adds Sized e (blockLabelled ctx.cfg inst.pc e) :=
    adds_blockLabelled controlForms_sized.label _
  have hRegions :
      StackLike ctx.cfg
        (stepped ctx.cfg gprMap inst next e).cfgState.ssyStack
        (stepRegions ctx.cfg inst st.regions) :=
    stackLike_stepped hTracks.regions
  have hStart :
      Takes (startPcs ctx.cfg inst st.placed).length e
          (blockLabelled ctx.cfg inst.pc e) ∧
        HasLabels
          (startPcs ctx.cfg inst st.placed ++ st.labelled)
          (blockLabelled ctx.cfg inst.pc e) :=
    spends_blockLabelled hTracks.placed hTracks.labelled
  have hMarked :
      (blockLabelled ctx.cfg inst.pc e).cfgState.labelsEmitted =
        startPcs ctx.cfg inst st.placed ++ st.placed := by
    rw [labelsEmitted_blockLabelled, startLabels, startPcs,
      hTracks.placed]
  have hTested :
      ∀ k,
        ((blockLabelled ctx.cfg inst.pc e).cfgState.predVars
            k).isSome ↔ k ∈ st.tested := by
    rw [predVars_blockLabelled]
    exact hTracks.tested
  have hStack :
      (blockLabelled ctx.cfg inst.pc e).cfgState.ssyStack =
        e.cfgState.ssyStack := by
    unfold blockLabelled
    split_ifs <;> rfl
  have hGates := hTracks.gates.congr hLabel.headIds
  have hNext := lt_of_lt_of_le hTracks.next hLabel.nextId
  have hSpends :
      Spends (namedPcs ctx.cfg inst next st.regions)
        (guardIds inst st.tested + valueIds ctx inst st.tested)
        (blockLabelled ctx.cfg inst.pc e)
        (stepped ctx.cfg gprMap inst next e) :=
    spends_advanced hMaps hGates hNext hTested
      (hStack ▸ hTracks.regions)
  rcases hSpends _ hStart.2 with ⟨hTakes, hLabels⟩
  refine ⟨hStart.1.trans hTakes, ?_⟩
  refine
    ⟨hLabels, ?_, ?_, hRegions,
      hTracks.gates.congr hAdds.headIds,
      lt_of_lt_of_le hTracks.next hAdds.nextId⟩
  · unfold stepped
    rw [labelsEmitted_advanced, hMarked]
    rfl
  · exact tested_advanced hMaps hGates hNext hTested

/- The loop, by induction over the instructions. -/
theorem takes_streamed
    (hMaps : MapsRegisters ctx gprMap) :
    ∀ (insts : List ShaderInstruction) (st : IdState)
      (e : SpirvEmitter),
      Tracks ctx st e →
        Takes (loopIds ctx insts st) e
          (streamed ctx.cfg gprMap insts e) := by
  intro insts
  induction insts with
  | nil =>
      intro st e _
      exact takes_zero rfl rfl
  | cons inst rest ih =>
      intro st e hTracks
      have hStep :
          Takes (instIds ctx inst rest.head? st) e
              (stepped ctx.cfg gprMap inst rest.head? e) ∧
            Tracks ctx (st.step ctx inst rest.head?)
              (stepped ctx.cfg gprMap inst rest.head? e) :=
        takes_stepped hMaps hTracks
      exact hStep.1.trans (ih _ _ hStep.2)

------
-- Ids Of The Head
------

open StateRelation

/- Some ids are taken, and the bound follows. -/
def Raises (e e' : SpirvEmitter) : Prop :=
  ∃ n, Takes n e e'

instance : Std.Refl Raises where
  refl _ := ⟨0, takes_zero rfl rfl⟩

instance : IsTrans SpirvEmitter Raises where
  trans _ _ _ hFirst hSecond := by
    rcases hFirst with ⟨m, hFirst⟩
    rcases hSecond with ⟨n, hSecond⟩
    exact ⟨m + n, hFirst.trans hSecond⟩

/- Every run of the step takes ids so. -/
abbrev Raising {α : Type} (m : Emit α) : Prop :=
  Respects Raises m

variable {α : Type}

theorem raising_allocId : Raising allocId := by
  intro e
  exact ⟨1, rfl, rfl⟩

/- An update that leaves the ids alone. -/
theorem raising_modify
    {f : SpirvEmitter → SpirvEmitter}
    (hNextId : ∀ e, (f e).nextId = e.nextId)
    (hBound : ∀ e, (f e).bound = e.bound) :
    Raising (modify f) :=
  respects_modify fun e =>
    ⟨0, takes_zero (hNextId e) (hBound e)⟩

theorem raising_get_bind
    {f : SpirvEmitter → Emit α}
    (hF : ∀ e, Raising (f e)) :
    Raising (get >>= f) :=
  Respects.bind respects_get hF

theorem raising_emitWords (ws : List Nat) :
    Raising (emitWords ws) :=
  raising_modify (fun _ => rfl) (fun _ => rfl)

theorem raising_withNewId
    {f : Nat → Emit Unit}
    (hF : ∀ id, Raising (f id)) :
    Raising (do
      let id ← allocId
      f id
      return id) := by
  apply Respects.bind raising_allocId
  intro id
  apply Respects.bind (hF id)
  intro _
  exact respects_pure id

theorem raising_emitResourceDecorations (usesTextures : Bool) :
    Raising (emitResourceDecorations usesTextures) := by
  unfold emitResourceDecorations
  repeat'
    first
    | with_reducible apply Respects.bind
    | exact raising_allocId
    | exact raising_modify (fun _ => rfl) (fun _ => rfl)
    | exact respects_pure _
    | split
    | intro _

theorem raising_declareBaseTypes :
    Raising declareBaseTypes := by
  unfold declareBaseTypes
  repeat'
    first
    | with_reducible apply raising_get_bind
    | with_reducible apply Respects.bind
    | exact raising_withNewId fun _ => raising_emitWords _
    | exact raising_modify (fun _ => rfl) (fun _ => rfl)
    | intro _

/- A step that is left out if a test fails. -/
theorem raising_when
    (c : Prop)
    [Decidable c]
    {m : Emit Unit}
    (hM : Raising m) :
    Raising (if c then m else pure ()) := by
  split_ifs
  · exact hM
  · exact respects_pure _

theorem raising_emitCapabilities (p : ShaderProgram) :
    Raising (emitCapabilities p) :=
  Respects.bind (raising_emitWords _) fun _ =>
    raising_when _ (raising_emitWords _)

theorem raising_emitExtInstImport :
    Raising emitExtInstImport := by
  have hSet : ∀ id, Raising (setGlslExtId id) :=
    fun _ => raising_modify (fun _ => rfl) (fun _ => rfl)
  apply Respects.bind raising_allocId
  intro id
  apply Respects.bind (hSet id)
  intro _
  exact raising_emitWords _

theorem raising_emitShaderIo (stage : ShaderStage) :
    Raising (emitShaderIo stage) := by
  unfold emitShaderIo
  split_ifs
  all_goals
    repeat'
      first
      | with_reducible apply Respects.bind
      | exact raising_allocId
      | exact raising_modify (fun _ => rfl) (fun _ => rfl)
      | exact respects_pure _
      | intro _

/- Words that depend on the emitter. -/
theorem raising_emitEntryPoint
    (stage : ShaderStage)
    (funcId : Nat) :
    Raising (emitEntryPoint stage funcId) :=
  raising_get_bind fun _ => raising_emitWords _

theorem raising_emitIoDecorations (stage : ShaderStage) :
    Raising (emitIoDecorations stage) := by
  apply raising_get_bind
  intro e
  dsimp only
  split_ifs
  all_goals
    repeat'
      first
      | with_reducible apply Respects.bind
      | exact raising_emitWords _
      | exact respects_pure _
      | intro _

theorem raising_buildBaseTypes : Raising buildBaseTypes := by
  have hSet : Raising setTypesBuilt :=
    raising_modify (fun _ => rfl) (fun _ => rfl)
  apply raising_get_bind
  intro e
  split_ifs
  · exact respects_pure _
  · apply Respects.bind hSet
    intro _
    exact raising_declareBaseTypes

theorem raising_emitConstants : Raising emitConstants := by
  have hFloat : ∀ bits, Raising (emitConstantF32 bits) :=
    fun bits =>
      raising_get_bind fun _ =>
        raising_withNewId fun _ => raising_emitWords _
  have hBool : ∀ value, Raising (emitConstantBool value) :=
    fun value =>
      raising_get_bind fun _ =>
        raising_withNewId fun _ => raising_emitWords _
  unfold emitConstants
  apply Respects.bind (hFloat _)
  intro f32Zero
  apply Respects.bind (hFloat _)
  intro f32One
  apply Respects.bind (hBool _)
  intro trueId
  apply Respects.bind (hBool _)
  intro falseId
  exact raising_modify (fun _ => rfl) (fun _ => rfl)

theorem raising_emitIoVariables (stage : ShaderStage) :
    Raising (emitIoVariables stage) := by
  apply raising_get_bind
  intro e
  dsimp only
  split_ifs
  all_goals
    repeat'
      first
      | with_reducible apply Respects.bind
      | exact raising_emitWords _
      | exact respects_pure _
      | intro _

theorem raising_emitResourceVariables (usesTextures : Bool) :
    Raising (emitResourceVariables usesTextures) := by
  have hVariable :
      ∀ id type storage,
        Raising (emitVariablePreallocated id type storage) :=
    fun id type storage =>
      Respects.bind (raising_emitWords _) fun _ =>
        respects_pure _
  apply raising_get_bind
  intro e
  apply Respects.bind (hVariable _ _ _)
  intro _
  split_ifs
  · apply Respects.bind (hVariable _ _ _)
    intro _
    exact respects_pure _
  · exact respects_pure _

theorem raising_emitPreamble (p : ShaderProgram) :
    Raising (emitPreamble p) := by
  unfold emitPreamble
  apply Respects.bind (raising_emitCapabilities p)
  intro _
  apply Respects.bind raising_emitExtInstImport
  intro _
  apply Respects.bind (raising_emitWords _)
  intro _
  apply Respects.bind raising_allocId
  intro funcId
  apply Respects.bind (raising_emitShaderIo _)
  intro _
  apply Respects.bind (raising_emitEntryPoint _ _)
  intro _
  apply Respects.bind (raising_when _ (raising_emitWords _))
  intro _
  apply Respects.bind (raising_emitIoDecorations _)
  intro _
  apply Respects.bind (raising_emitResourceDecorations _)
  intro _
  apply Respects.bind raising_buildBaseTypes
  intro _
  apply Respects.bind raising_emitConstants
  intro _
  apply Respects.bind (raising_emitIoVariables _)
  intro _
  apply Respects.bind (raising_emitResourceVariables _)
  intro _
  apply raising_get_bind
  intro e
  apply Respects.bind
    (raising_withNewId fun _ => raising_emitWords _)
  intro funcType
  exact raising_emitWords _

/- The head takes the ids below its bound. -/
theorem takes_preambled
    (p : ShaderProgram)
    (e : SpirvEmitter) :
    (preambled p e).nextId =
        headBound (kindOf p.stage) p.usesTextures ∧
      (preambled p e).bound =
        max e.bound
          (headBound (kindOf p.stage) p.usesTextures) := by
  have hNextId :
      (preambled p e).nextId =
        headBound (kindOf p.stage) p.usesTextures := by
    rw [(sameHead_preambled p e).nextId]
    cases kindOf p.stage <;> cases p.usesTextures <;>
      decide
  have hStart : (headed e).nextId = 1 := rfl
  have hBound : (headed e).bound = e.bound := rfl
  have hRaises : Raises (headed e) (preambled p e) :=
    raising_emitPreamble p (headed e)
  rcases hRaises with ⟨n, hTakes⟩
  have hTaken := hTakes.nextId
  rw [hNextId, hStart] at hTaken
  have hSome :
      34 ≤ headBound (kindOf p.stage) p.usesTextures := by
    unfold headBound
    omega
  refine ⟨hNextId, ?_⟩
  rw [hTakes.bound, boundAfter, if_neg (by omega), hBound,
    hStart, hTaken]

------
-- Ids Of The Registers
------

/- The variables are those of some registers. -/
structure Registered
    (regs : List Nat)
    (gprMap : GprMap) : Prop where
  none : ∀ r, gprMap r = none ↔ r ∉ regs
  some : ∀ r, gprMap r ≠ some 0

theorem Registered.getGpr_iff
    {regs : List Nat}
    (hRegs : Registered regs gprMap)
    (r : Nat) :
    getGpr gprMap r ≠ 0 ↔ r ∈ regs := by
  have hNone := hRegs.none r
  have hSome := hRegs.some r
  unfold getGpr
  cases hVar : gprMap r with
  | none =>
      rw [hVar] at hNone
      simpa using hNone
  | some v =>
      rw [hVar] at hNone hSome
      constructor
      · intro _
        by_contra hNot
        cases hNone.mpr hNot
      · intro _ hZero
        apply hSome
        rw [show v = 0 from hZero]

/- A register gets an id the first time it is named. -/
theorem takes_declared :
    ∀ (ops : List ShaderOperand) (regs : List Nat)
      (gprMap : GprMap) (e : SpirvEmitter),
      0 < e.nextId → Registered regs gprMap →
        (∃ n,
          (registersFrom ops regs).length =
              n + regs.length ∧
            Takes n e (declared ops gprMap e).2) ∧
          Registered (registersFrom ops regs)
            (declared ops gprMap e).1 := by
  intro ops
  induction ops with
  | nil =>
      intro regs gprMap e _ hRegs
      refine ⟨⟨0, ?_, takes_zero rfl rfl⟩, hRegs⟩
      rw [registersFrom, Nat.zero_add]
  | cons op ops ih =>
      intro regs gprMap e hNext hRegs
      unfold declared registersFrom
      have hNew :
          (op.type = .GPR ∧ gprMap op.regIndex = none) ↔
            (op.type = .GPR ∧ op.regIndex ∉ regs) := by
        rw [hRegs.none]
      by_cases hIs : op.type = .GPR ∧ op.regIndex ∉ regs
      · rw [if_pos (hNew.mpr hIs), if_pos hIs]
        have hMore :
            Registered (op.regIndex :: regs)
              (Function.update gprMap op.regIndex
                (some e.nextId)) := by
          refine ⟨?_, ?_⟩
          · intro r
            by_cases hR : r = op.regIndex
            · rw [hR]
              simp
            · simpa [hR] using hRegs.none r
          · intro r
            by_cases hR : r = op.regIndex
            · rw [hR]
              simp
              omega
            · simpa [hR] using hRegs.some r
        rcases ih _ _
          (e.pushed 1
            [⟨SpirvOp.Variable,
              [e.types.f32Fnptr, e.nextId,
                SpirvStorageClass.Function]⟩])
          (Nat.succ_pos _) hMore with
          ⟨⟨n, hLength, hTakes⟩, hRest⟩
        refine ⟨⟨1 + n, ?_, ?_⟩, hRest⟩
        · rw [hLength, List.length_cons]
          omega
        · exact (takes_pushed 1 _).trans hTakes
      · rw [if_neg fun h => hIs (hNew.mp h), if_neg hIs]
        exact ih _ _ _ hNext hRegs

variable {p : ShaderProgram}

theorem registered_gprMapOf (hNext : 0 < e.nextId) :
    Takes (registers p).length e (gprsDeclared p e) ∧
      Registered (registers p) (gprMapOf p e) := by
  have hNone : Registered [] (fun _ => none) := by
    refine ⟨?_, ?_⟩ <;> simp
  rcases takes_declared (gprOperands p) [] _ e hNext hNone with
    ⟨⟨n, hLength, hTakes⟩, hRegs⟩
  refine ⟨?_, hRegs⟩
  rw [registers, hLength]
  exact hTakes

/- What the function takes in front of its loop. -/
theorem takes_atLoop :
    Takes (1 + ((registers p).length + ioCount p.stage)) e
      (atLoop p e) := by
  have hEntered : Takes 1 e (entered p e) := ⟨rfl, rfl⟩
  have hRegs :=
    (registered_gprMapOf (p := p) (e := entered p e)
      (Nat.succ_pos _)).1
  have hIo :
      Takes (ioCount p.stage) (gprsDeclared p (entered p e))
        (atLoop p e) :=
    takes_pushed _ _
  exact hEntered.trans (hRegs.trans hIo)

------
-- Ids Of A Module
------

variable {tex : Bool}

theorem cbufVarId_preambled
    (p : ShaderProgram)
    (e : SpirvEmitter) :
    (preambled p e).cbufVarId ≠ 0 := by
  rw [(sameHead_preambled p e).cbufVarId]
  cases kindOf p.stage <;> cases p.usesTextures <;>
    decide

/- The count starts where the loop starts. -/
theorem tracks_atLoop
    (hTex :
      (preambled p e).texSampledImageVar ≠ 0 ↔ tex = true) :
    Tracks ⟨buildCfg p, registers p, tex⟩
      { placed := (p.instructions.head?.map (·.pc)).toList }
      (atLoop p (preambled p e)) := by
  have hEntered :
      (entered p (preambled p e)).cfgState =
        { (preambled p e).cfgState with
          labelsEmitted :=
            (p.instructions.head?.map (·.pc)).toList ++
              (preambled p e).cfgState.labelsEmitted } :=
    rfl
  have hState :
      (atLoop p (preambled p e)).cfgState =
        { ({} : CfgEmitState) with
          labelsEmitted :=
            (p.instructions.head?.map (·.pc)).toList } := by
    rw [cfgState_atLoop, hEntered, cfgState_preambled,
      List.append_nil]
  have hHead :
      (atLoop p (preambled p e)).headIds =
        (preambled p e).headIds :=
    (adds_atLoop frameForms_sized p).headIds
  have hGates :
      GatesOpen ⟨buildCfg p, registers p, tex⟩
        (preambled p e) :=
    ⟨cbufVarId_preambled p e, hTex⟩
  have hNext : 0 < (atLoop p (preambled p e)).nextId :=
    lt_of_lt_of_le (nextId_preambled_pos p e)
      (adds_atLoop frameForms_sized p).nextId
  refine ⟨?_, ?_, ?_, ?_, hGates.congr hHead, hNext⟩
  · intro pc
    rw [hState]
    simp
  · rw [hState]
  · intro k
    rw [hState]
    simp
  · rw [hState]
    exact List.Forall₂.nil

/- The bound behind a call: that before it, or the ids. -/
theorem bound_emitted
    (hTex :
      (preambled p e).texSampledImageVar ≠ 0 ↔ tex = true) :
    (emitted p e).bound = max e.bound (idBound tex p) := by
  rcases takes_preambled p e with ⟨hNextId, hBound⟩
  have hMaps :
      MapsRegisters ⟨buildCfg p, registers p, tex⟩
        (gprMapOf p (entered p (preambled p e))) :=
    fun r =>
      (registered_gprMapOf (Nat.succ_pos _)).2.getGpr_iff r
  have hLoop :=
    takes_streamed hMaps p.instructions _ _
      (tracks_atLoop hTex)
  have hAll :=
    ((takes_atLoop (p := p) (e := preambled p e)).trans
      hLoop).bound
  have hEnd :
      (emitted p e).bound =
        (behindLoop p (preambled p e)).bound := by
    rw [emitted_eq]
    rfl
  rw [hEnd]
  refine hAll.trans ?_
  rw [boundAfter, if_neg (by omega), hNextId, hBound, idBound]
  omega

end SpirvEmitter

end M1Switch
