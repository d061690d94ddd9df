import M1Switch.Gpu.Shader.SpirvEmitter.ScopeRun

/-
  Predicates from the compare to the branch.

  A compare names its destination in bits 42:40 of its word, a
  branch its guard in bits 35:33.  The decoder keeps the guard
  but drops the destination: every compare writes the variable
  of predicate 0, and a branch guarded by another one finds no
  variable and tests a constant.

  Key definitions include:
    * `segmentsOf`
    * `SpirvEmitter.TestsStored`

  Main results:
    * `not_testsStored`
    * `exists_commonVar`
    * `emit_predicatesKept_iff`
-/

------
-- Segments
------

namespace M1Switch

namespace SpirvEmitter

/- The instructions between the words of two emitters. -/
def appended (e e' : SpirvEmitter) : List SpirvInst :=
  let words := e'.words.drop e.words.length
  (splitInsts words.length words).getD []

/- What the loop appends for each instruction. -/
def segmentsFrom
    (cfg : CfgAnnotation)
    (gprMap : GprMap) :
    List ShaderInstruction → SpirvEmitter →
      List (List SpirvInst)
| [], _ => []
| inst :: rest, e =>
    let e' := ((emitCfgInst cfg gprMap inst rest.head?).run e).2
    appended e e' :: segmentsFrom cfg gprMap rest e'

/- The segments of a program's instructions. -/
def segmentsOf
    (p : ShaderProgram)
    (e : SpirvEmitter) : List (List SpirvInst) :=
  segmentsFrom (buildCfg p)
    (gprMapOf p (entered p (preambled p e)))
    p.instructions (atLoop p (preambled p e))

variable {cfg : CfgAnnotation} {m : GprMap}
variable {e e' : SpirvEmitter}

theorem appended_eq
    {code : List SpirvInst}
    (hSized : ∀ i ∈ code, Sized i)
    (hWords : e'.words = e.words ++ encodeInsts code) :
    appended e e' = code := by
  unfold appended
  rw [hWords, List.drop_left]
  dsimp only
  rw [splitInsts_encodeInsts code _
    (fun i hI => (hSized i hI).1) (le_refl _)]
  rfl

/- What is appended has the forms of the step. -/
theorem form_appended
    {F : SpirvInst → Prop}
    (hAdds : Adds F e e')
    (hSized : ∀ i, F i → Sized i) :
    ∀ i ∈ appended e e', F i := by
  rcases hAdds.words with ⟨code, hCode, hWords⟩
  rw [appended_eq (fun i hI => hSized i (hCode i hI)) hWords]
  exact hCode

theorem exists_appended
    {G : SpirvInst → Prop}
    (hSome : AddsSome G e e') :
    ∃ i ∈ appended e e', G i := by
  rcases hSome with ⟨code, hSized, hSome, hWords⟩
  rw [appended_eq hSized hWords]
  exact hSome

theorem words_appended
    (hAdds : Adds Sized e e') :
    e'.words = e.words ++ encodeInsts (appended e e') := by
  rcases hAdds.words with ⟨code, hCode, hWords⟩
  rw [appended_eq hCode hWords]
  exact hWords

theorem adds_stepped_sized
    (cfg : CfgAnnotation)
    (m : GprMap)
    (inst : ShaderInstruction)
    (next : Option ShaderInstruction)
    (e : SpirvEmitter) :
    Adds Sized e (stepped cfg m inst next e) :=
  adds_stepped controlForms_sized
    fun _ hPlan => planForms_sized hPlan

theorem segmentsFrom_cons
    (inst : ShaderInstruction)
    (rest : List ShaderInstruction)
    (e : SpirvEmitter) :
    segmentsFrom cfg m (inst :: rest) e =
      appended e (stepped cfg m inst rest.head? e) ::
        segmentsFrom cfg m rest
          (stepped cfg m inst rest.head? e) := by
  rw [segmentsFrom, run_emitCfgInst]

/- The segments in a row are the code of the loop. -/
theorem words_segmentsFrom :
    ∀ (insts : List ShaderInstruction) (e : SpirvEmitter),
      (∀ i ∈ (segmentsFrom cfg m insts e).flatten, Sized i) ∧
        (streamed cfg m insts e).words =
          e.words ++ encodeInsts
            (segmentsFrom cfg m insts e).flatten := by
  intro insts
  induction insts with
  | nil =>
      intro e
      refine ⟨?_, ?_⟩
      · intro i hI
        cases hI
      · simp [segmentsFrom, streamed, encodeInsts]
  | cons inst rest ih =>
      intro e
      have hStep := adds_stepped_sized cfg m inst rest.head? e
      rcases ih (stepped cfg m inst rest.head? e) with
        ⟨hSized, hWords⟩
      rw [segmentsFrom_cons, List.flatten_cons]
      refine ⟨?_, ?_⟩
      · exact List.forall_mem_append.mpr
          ⟨form_appended hStep fun _ hI => hI, hSized⟩
      · rw [streamed, hWords, words_appended hStep,
          encodeInsts_append, List.append_assoc]

------
-- Compares And Branches
------

open MaxwellDecoder

/- The word an instruction was read from. -/
def wordAt (data : List U8) (inst : ShaderInstruction) : U64 :=
  (readWord (sizedData data) inst.pc).getD 0

def isCompare (inst : ShaderInstruction) : Bool :=
  inst.opcode = .ISETP ∨ inst.opcode = .FSETP

/- The predicate a compare's word names as destination. -/
def destPred
    (data : List U8)
    (inst : ShaderInstruction) : Nat :=
  bits (wordAt data inst) 42 40

/- The predicate a branch's word names as guard. -/
def guardPred
    (data : List U8)
    (inst : ShaderInstruction) : Nat :=
  bits (wordAt data inst) 35 33

def isGuardedBra
    (data : List U8)
    (inst : ShaderInstruction) : Bool :=
  inst.opcode = .BRA ∧ guardPred data inst ≠ 0

/- The instructions of segments between two of them. -/
def between
    (segs : List (List SpirvInst))
    (i j : Nat) : List SpirvInst :=
  ((segs.take j).drop (i + 1)).flatten

/-
  The branch of segment `j` tests what segment `i` stores: its
  condition is loaded from the variable stored to, and nothing
  else is stored there in between.
-/
def TestsStored
    (segs : List (List SpirvInst))
    (i j : Nat) : Prop :=
  ∃ before var value after guard cond t f rest,
    segs[i]? =
        some (before ++ ⟨SpirvOp.Store, [var, value]⟩ :: after) ∧
      segs[j]? =
          some (guard ++
            ⟨SpirvOp.BranchConditional, [cond, t, f]⟩ :: rest) ∧
        ∃ pre type post,
          after ++ between segs i j ++ guard =
              pre ++ ⟨SpirvOp.Load, [type, cond, var]⟩ :: post ∧
            ∀ x, ⟨SpirvOp.Store, [var, x]⟩ ∉ pre

/- A segment writes a variable. -/
def Writes (seg : List SpirvInst) (var : Nat) : Prop :=
  ∃ value, ⟨SpirvOp.Store, [var, value]⟩ ∈ seg

/-
  Branches test the compare that wrote their guard, and
  compares with different destinations write different
  variables.
-/
structure PredicatesKept
    (data : List U8)
    (p : ShaderProgram)
    (e : SpirvEmitter) : Prop where
  stream :
    ∃ front back,
      instructionsOf (emit e p) =
        some (front ++ (segmentsOf p e).flatten ++ back)
  tested :
    ∀ i j compare branch,
      i < j → p.instructions[i]? = some compare →
        p.instructions[j]? = some branch →
          isCompare compare = true →
            isGuardedBra data branch = true →
              (∀ k other, i < k → k < j →
                p.instructions[k]? = some other →
                  isCompare other = true →
                    destPred data other ≠
                      guardPred data branch) →
                (TestsStored (segmentsOf p e) i j ↔
                  destPred data compare =
                    guardPred data branch)
  distinct :
    ∀ (i j : Nat) first second segI segJ,
      p.instructions[i]? = some first →
        p.instructions[j]? = some second →
          isCompare first = true → isCompare second = true →
            destPred data first ≠ destPred data second →
              (segmentsOf p e)[i]? = some segI →
                (segmentsOf p e)[j]? = some segJ →
                  ∀ var, ¬ (Writes segI var ∧ Writes segJ var)

/-
  No compare precedes a branch guarded by its destination, and
  all compares have the same destination.
-/
structure NoPredicateFlow
    (data : List U8)
    (p : ShaderProgram) : Prop where
  unguarded :
    p.instructions.Pairwise fun compare branch =>
      isCompare compare = true →
        isGuardedBra data branch = true →
          destPred data compare ≠ guardPred data branch
  single :
    ∀ first ∈ p.instructions, ∀ second ∈ p.instructions,
      isCompare first = true → isCompare second = true →
        destPred data first = destPred data second

instance (data : List U8) (p : ShaderProgram) :
    Decidable (NoPredicateFlow data p) :=
  decidable_of_iff (_ ∧ _)
    ⟨fun h => ⟨h.1, h.2⟩, fun h => ⟨h.unguarded, h.single⟩⟩

------
-- Predicate Variables Of Decoded Programs
------

variable {inst : ShaderInstruction}
variable {next : Option ShaderInstruction} {plan : Plan}

/- What holds at each instruction of a loop. -/
theorem segment_at
    {I : SpirvEmitter → Prop} :
    ∀ (insts : List ShaderInstruction) (e : SpirvEmitter),
      (∀ inst ∈ insts, ∀ next e,
        I e → I (stepped cfg m inst next e)) →
        I e →
          ∀ (j : Nat) inst, insts[j]? = some inst →
            ∃ e1 next, I e1 ∧
              (segmentsFrom cfg m insts e)[j]? =
                some (appended e1
                  (stepped cfg m inst next e1)) := by
  intro insts
  induction insts with
  | nil =>
      intro e _ _ j inst hInst
      cases hInst
  | cons first rest ih =>
      intro e hStep hI j inst hInst
      rw [segmentsFrom_cons]
      cases j with
      | zero =>
          rw [List.getElem?_cons_zero, Option.some.injEq]
            at hInst
          subst hInst
          exact ⟨e, rest.head?, hI, rfl⟩
      | succ j =>
          rw [List.getElem?_cons_succ] at hInst ⊢
          exact ih _
            (fun i hMem =>
              hStep i (List.mem_cons_of_mem first hMem))
            (hStep first List.mem_cons_self _ _ hI) j inst
            hInst

theorem predVars_finished
    {dest : PlanDest}
    {q value : Nat}
    (hQ : q ≠ inst.dest.predIndex) :
    (finished dest inst m value e).cfgState.predVars q =
      e.cfgState.predVars q := by
  cases dest with
  | gpr => rfl
  | pred =>
      unfold finished
      rw [cfgState_pushed]
      unfold predDeclared
      split
      · rfl
      · exact Function.update_of_ne hQ _ _

/- A plan declares no other predicate than its own. -/
theorem predVars_planned_of_ne
    {q : Nat}
    (hQ : q ≠ inst.dest.predIndex) :
    (planned plan inst m e).cfgState.predVars q =
      e.cfgState.predVars q := by
  unfold planned
  dsimp only
  split_ifs
  · exact predVars_finished hQ
  · rfl
  · rfl

theorem stepped_of_planOf
    (hPlan : planOf inst = some plan)
    (hDest : plan.dest = .pred) :
    stepped cfg m inst next e =
      planned plan inst m (blockLabelled cfg inst.pc e) := by
  have hOp := planOf_pred hPlan hDest
  refine advanced_of_planOf _ _ _ hPlan ?_ ?_ _
  · rcases hOp with hOp | hOp <;> rw [hOp] <;> decide
  · rcases hOp with hOp | hOp <;> rw [hOp] <;> decide

/- Decoded instructions declare predicate 0 only. -/
theorem predVars_stepped_of_regular
    (hRegular : Regular inst)
    {q : Nat}
    (hQ : q ≠ 0) :
    (stepped cfg m inst next e).cfgState.predVars q =
      e.cfgState.predVars q := by
  by_cases hPred :
      ∃ plan, planOf inst = some plan ∧ plan.dest = .pred
  · rcases hPred with ⟨plan, hPlan, hDest⟩
    rw [stepped_of_planOf hPlan hDest,
      predVars_planned_of_ne, predVars_blockLabelled]
    rw [hRegular.predDest plan hPlan hDest]
    exact hQ
  · rw [predVars_stepped]
    intro plan hPlan
    cases hDest : plan.dest with
    | gpr => rfl
    | pred => exact absurd ⟨plan, hPlan, hDest⟩ hPred

/-
  The state of the loop for a decoded program: no predicate
  but 0 has a variable.
-/
structure PredInv (h : HeadIds) (e : SpirvEmitter) : Prop where
  vars : ∀ q, q ≠ 0 → e.cfgState.predVars q = none
  headIds : e.headIds = h
  nextId : 0 < e.nextId

theorem PredInv.step
    {h : HeadIds}
    (hInv : PredInv h e)
    (hRegular : Regular inst) :
    PredInv h (stepped cfg m inst next e) := by
  have hAdds := adds_stepped_sized cfg m inst next e
  refine ⟨?_, hAdds.headIds.trans hInv.headIds,
    lt_of_lt_of_le hInv.nextId hAdds.nextId⟩
  intro q hQ
  rw [predVars_stepped_of_regular hRegular hQ]
  exact hInv.vars q hQ

/- Conditional branches test the given id. -/
def TestsId (c : Nat) (i : SpirvInst) : Prop :=
  Sized i ∧
    (i.opcode = SpirvOp.BranchConditional →
      i.operands.head? = some c)

/- Any other instruction. -/
theorem testsId_of_ne
    {c : Nat}
    {i : SpirvInst}
    (hSized : Sized i)
    (hOp : i.opcode ≠ SpirvOp.BranchConditional) :
    TestsId c i :=
  ⟨hSized, fun h => absurd h hOp⟩

theorem mergeForms_testsId (c : Nat) :
    MergeForms (TestsId c) := by
  have hSelection :
      SpirvOp.SelectionMerge ≠ SpirvOp.BranchConditional := by
    decide
  have hLoop :
      SpirvOp.LoopMerge ≠ SpirvOp.BranchConditional := by
    decide
  have hLoad : SpirvOp.Load ≠ SpirvOp.BranchConditional := by
    decide
  have hForms := controlForms_sized
  exact
    ⟨fun x y =>
        testsId_of_ne (hForms.selectionMerge x y) hSelection,
      fun x y z =>
        testsId_of_ne (hForms.loopMerge x y z) hLoop,
      fun x y z => testsId_of_ne (hForms.load x y z) hLoad⟩

theorem testsId_label (c x : Nat) :
    TestsId c ⟨SpirvOp.Label, [x]⟩ := by
  have hLabel :
      SpirvOp.Label ≠ SpirvOp.BranchConditional := by
    decide
  exact testsId_of_ne (controlForms_sized.label x) hLabel

theorem testsId_guardedBranchInst (c t f : Nat) :
    TestsId c (guardedBranchInst inst c t f) := by
  unfold guardedBranchInst
  split_ifs
  · exact ⟨controlForms_sized.branchConditional _ _ _,
      fun _ => rfl⟩
  · exact ⟨controlForms_sized.branchConditional _ _ _,
      fun _ => rfl⟩

theorem advanced_of_predBra
    (hPred : isPredBra inst = true) :
    advanced cfg m inst next e = predBranched inst next e := by
  have hOp : inst.opcode = .BRA ∧ inst.predGuard = true := by
    simpa [isPredBra] using hPred
  simp [advanced, isPlainBra, isPredBra, hOp.1, hOp.2]

/- A branch on a predicate without variable. -/
theorem adds_guarded
    {c : Nat}
    (hConst : e.constTrue = c)
    (hPred : isPredBra inst = true)
    (hVars :
      e.cfgState.predVars inst.predGuardIndex = none) :
    Adds (TestsId c) e (stepped cfg m inst next e) := by
  have hLabel :
      Adds (TestsId c) e (blockLabelled cfg inst.pc e) :=
    adds_blockLabelled (testsId_label c) _
  -- the state in which the branch is emitted
  let ready :=
    reserved (falsePc inst next)
      (reserved inst.targetPc
        (merged (blockLabelled cfg inst.pc e)))
  have hReserved : Adds (TestsId c) e ready :=
    ((hLabel.trans (adds_merged (mergeForms_testsId c))).trans
      (adds_reserved _)).trans (adds_reserved _)
  have hSame := congrArg HeadIds.constTrue hReserved.headIds
  have hNone :
      ready.cfgState.predVars inst.predGuardIndex = none := by
    simpa [ready] using hVars
  have hGuard : guardCode inst ready = [] := by
    unfold guardCode
    rw [hNone]
  have hId : guardId inst ready = c := by
    unfold guardId
    rw [hNone]
    exact hSame.trans hConst
  unfold stepped
  rw [advanced_of_predBra hPred]
  refine (hReserved.trans (adds_pushed ?_)).trans
    (adds_of_eq rfl rfl rfl rfl)
  rw [hGuard, hId, List.nil_append, List.forall_mem_cons,
    List.forall_mem_singleton]
  exact ⟨testsId_guardedBranchInst c _ _, testsId_label c _⟩

------
-- Branches Test A Constant
------

open MaxwellDecoder

variable {data : List U8} {stage : ShaderStage}
variable {p : ShaderProgram}

/- Conversion keeps the guard. -/
theorem predGuard_toIr (d : DecodedInst) :
    d.toIr.predGuardIndex = d.field.predSrc ∧
      d.toIr.predGuard = decide (d.field.predSrc ≠ 0) := by
  unfold DecodedInst.toIr
  dsimp only
  split_ifs <;> exact ⟨rfl, rfl⟩

/- The guard of a branch is that of its word. -/
theorem predGuard_instOfWords
    {raw0 raw1 : U64}
    {pc : Nat}
    (hBra : (instOfWords raw0 raw1 pc).opcode = .BRA) :
    (instOfWords raw0 raw1 pc).predGuardIndex =
        bits raw0 35 33 ∧
      (instOfWords raw0 raw1 pc).predGuard =
        decide (bits raw0 35 33 ≠ 0) := by
  have hMember := opcode_decodeFormat raw0 raw1 pc
  unfold instOfWords at hBra ⊢
  rw [opcode_toIr] at hBra
  rw [hBra] at hMember
  revert hMember
  generalize detectFormat (opcodeIdOf raw0) = fmt
  intro hMember
  cases fmt
  case Branch => exact predGuard_toIr _
  all_goals exact absurd hMember (by decide)

theorem predGuard_of_decode
    (hDecode : decode data stage = some p)
    (hInst : inst ∈ p.instructions)
    (hGuarded : isGuardedBra data inst = true) :
    isPredBra inst = true ∧ inst.predGuardIndex ≠ 0 := by
  rcases decode_mem hDecode inst hInst with
    ⟨raw0, raw1, hRead⟩
  have hWord : wordAt data inst = raw0 := by
    unfold wordAt
    rw [hRead.word]
    rfl
  have hBra :
      inst.opcode = .BRA ∧ bits raw0 35 33 ≠ 0 := by
    rw [← hWord]
    exact of_decide_eq_true hGuarded
  have hIr := hBra.1
  rw [hRead.inst] at hIr
  have hGuard := predGuard_instOfWords hIr
  rw [← hRead.inst] at hGuard
  refine ⟨?_, ?_⟩
  · simp [isPredBra, hBra.1, hGuard.2, hBra.2]
  · rw [hGuard.1]
    exact hBra.2

/- Only `TEX` needs the texture. -/
theorem opcode_of_gate
    (hPlan : planOf inst = some plan)
    (hGate : plan.gate = .tex) :
    inst.opcode = .TEX := by
  unfold planOf at hPlan
  split at hPlan <;> try cases hPlan
  all_goals try cases hGate
  · assumption
  · split_ifs at hPlan
    cases hPlan
    cases hGate

/- A decoded program that samples textures declares one. -/
theorem stepFits_of_decode
    (hDecode : decode data stage = some p)
    (hInst : inst ∈ p.instructions)
    (e : SpirvEmitter) :
    StepFits (p.usesTextures = true) False e inst := by
  refine ⟨?_, fun _ _ h => h.elim⟩
  intro plan hPlan hGate _
  rw [usesTextures_decode hDecode, List.any_eq_true]
  refine ⟨inst, hInst, ?_⟩
  rw [opcode_of_gate hPlan hGate]
  rfl

/- The code of a function: its frame and the segments. -/
theorem words_segmentsOf
    (p : ShaderProgram)
    (e : SpirvEmitter) :
    ∃ frame : List SpirvInst,
      (∀ i ∈ frame ++ (segmentsOf p e).flatten, Sized i) ∧
        (behindLoop p (preambled p e)).words =
          (preambled p e).words ++ encodeInsts
            (frame ++ (segmentsOf p e).flatten) := by
  have hFrame :
      Adds Sized (preambled p e) (atLoop p (preambled p e)) :=
    adds_atLoop frameForms_sized p
  rcases hFrame.words with ⟨frame, hSized, hWords⟩
  have hLoop :
      (∀ i ∈ (segmentsOf p e).flatten, Sized i) ∧
        (behindLoop p (preambled p e)).words = _ :=
    words_segmentsFrom p.instructions
      (atLoop p (preambled p e))
  refine ⟨frame, List.forall_mem_append.mpr
    ⟨hSized, hLoop.1⟩, ?_⟩
  rw [hLoop.2, hWords, encodeInsts_append, List.append_assoc]
  rfl

/- Results of the loop's code are new ids. -/
theorem new_segmentsOf
    (hDecode : decode data stage = some p)
    (e : SpirvEmitter) :
    ∀ i ∈ (segmentsOf p e).flatten,
      i.opcode ≠ SpirvOp.Label →
        ∀ x ∈ i.results, (preambled p e).nextId ≤ x := by
  rcases (scope_preambled p e).grow_behindLoop
    (ioScope_preambled p e)
    (fun inst hInst => stepFits_of_decode hDecode hInst _)
    with ⟨code, hGrown⟩
  rcases words_segmentsOf p e with ⟨frame, hSized, hWords⟩
  have hCode : code = frame ++ (segmentsOf p e).flatten := by
    apply encodeInsts_inj hGrown.sized hSized
    rw [hGrown.words] at hWords
    exact List.append_cancel_left hWords
  intro i hI
  apply hGrown.new i
  rw [hCode]
  exact List.mem_append_right _ hI

/- The state in front of the loop. -/
theorem predInv_atLoop
    (p : ShaderProgram)
    (e : SpirvEmitter) :
    PredInv (preambled p e).headIds
      (atLoop p (preambled p e)) := by
  have hFrame :
      Adds Sized (preambled p e) (atLoop p (preambled p e)) :=
    adds_atLoop frameForms_sized p
  refine ⟨?_, hFrame.headIds,
    lt_of_lt_of_le (nextId_preambled_pos p e) hFrame.nextId⟩
  intro q _
  rw [cfgState_atLoop]
  show (preambled p e).cfgState.predVars q = none
  rw [cfgState_preambled]

theorem mem_flatten_of_get
    {segs : List (List SpirvInst)}
    {j : Nat}
    {seg : List SpirvInst}
    {i : SpirvInst}
    (hSeg : segs[j]? = some seg)
    (hI : i ∈ seg) :
    i ∈ segs.flatten :=
  List.mem_flatten.mpr ⟨seg, List.mem_of_getElem? hSeg, hI⟩

theorem mem_between
    {segs : List (List SpirvInst)}
    {i j : Nat}
    {x : SpirvInst}
    (hX : x ∈ between segs i j) :
    x ∈ segs.flatten := by
  rcases List.mem_flatten.mp hX with ⟨seg, hSeg, hMem⟩
  exact List.mem_flatten.mpr
    ⟨seg, List.mem_of_mem_take (List.mem_of_mem_drop hSeg),
      hMem⟩

/- A guarded branch tests no stored value. -/
theorem not_testsStored
    (hDecode : decode data stage = some p)
    (e : SpirvEmitter)
    {i j : Nat}
    {branch : ShaderInstruction}
    (hBranch : p.instructions[j]? = some branch)
    (hGuarded : isGuardedBra data branch = true) :
    ¬ TestsStored (segmentsOf p e) i j := by
  have hMem : branch ∈ p.instructions :=
    List.mem_of_getElem? hBranch
  rcases predGuard_of_decode hDecode hMem hGuarded with
    ⟨hPred, hGuard⟩
  have hSegment :
      ∃ e1 next, PredInv (preambled p e).headIds e1 ∧
        (segmentsOf p e)[j]? =
          some (appended e1 (stepped _ _ branch next e1)) :=
    segment_at p.instructions _
      (fun i hI _ _ hInv =>
        hInv.step (regular_of_decode hDecode hI))
      (predInv_atLoop p e) j branch hBranch
  rcases hSegment with ⟨e1, next, hInv, hSeg⟩
  have hConst : e1.constTrue = (preambled p e).constTrue :=
    congrArg HeadIds.constTrue hInv.headIds
  have hTests :
      ∀ x ∈ appended e1 (stepped (buildCfg p)
        (gprMapOf p (entered p (preambled p e))) branch next
        e1), TestsId (preambled p e).constTrue x :=
    form_appended
      (adds_guarded hConst hPred (hInv.vars _ hGuard))
      fun _ hI => hI.1
  rintro ⟨before, var, value, after, guard, cond, t, f, rest,
    hI, hJ, pre, type, post, hLoad, _⟩
  rw [hSeg, Option.some.injEq] at hJ
  have hCond : some cond = some (preambled p e).constTrue := by
    refine (hTests ⟨SpirvOp.BranchConditional, [cond, t, f]⟩
      ?_).2 rfl
    rw [hJ]
    simp
  have hIn :
      ⟨SpirvOp.Load, [type, cond, var]⟩ ∈
        (segmentsOf p e).flatten := by
    have hMemLoad :
        ⟨SpirvOp.Load, [type, cond, var]⟩ ∈
          after ++ between (segmentsOf p e) i j ++ guard := by
      rw [hLoad]
      simp
    rw [List.mem_append, List.mem_append] at hMemLoad
    rcases hMemLoad with (hMemLoad | hMemLoad) | hMemLoad
    · exact mem_flatten_of_get hI (by simp [hMemLoad])
    · exact mem_between hMemLoad
    · rw [hJ] at hSeg
      exact mem_flatten_of_get hSeg (by simp [hMemLoad])
  have hScope := scope_preambled p e
  have hOld :=
    hScope.fresh _ (mem_resultsOf_of_typeOf hScope.head.holds)
  have hNot : SpirvOp.Load ≠ SpirvOp.Label := by decide
  have hNew :
      (preambled p e).nextId ≤ cond :=
    new_segmentsOf hDecode e _ hIn hNot cond List.mem_cons_self
  have hLt : (preambled p e).constTrue <
      (preambled p e).nextId := hOld.2
  rw [Option.some.injEq] at hCond
  omega

------
-- Compares Share A Variable
------

open MaxwellDecoder

/- Compares are carried out and write a predicate. -/
theorem planOf_compare
    (hCompare : isCompare inst = true)
    (hPlan : planOf inst = some plan) :
    plan.dest = .pred ∧ plan.gate = .always := by
  have hOp : inst.opcode = .ISETP ∨ inst.opcode = .FSETP :=
    of_decide_eq_true hCompare
  unfold planOf at hPlan
  rcases hOp with hOp | hOp
  all_goals
    rw [hOp] at hPlan
    cases hPlan
    exact ⟨rfl, rfl⟩

theorem predVars_predDeclared (q : Nat) :
    (predDeclared q e).cfgState.predVars q =
      some (predVarId q e) := by
  unfold predDeclared predVarId
  cases hVar : e.cfgState.predVars q with
  | some var => exact hVar
  | none => exact Function.update_self _ _ _

/- The end of a compare: a store to its variable. -/
theorem finished_pred
    (hForms : PlanForms Sized plan)
    (hPred : plan.dest = .pred)
    (hDest : inst.dest.predIndex = 0)
    (value : Nat) :
    ∃ var,
      (finished .pred inst m value e).cfgState.predVars 0 =
          some var ∧
        (∀ v, e.cfgState.predVars 0 = some v → v = var) ∧
          AddsSome
            (fun i => i = ⟨SpirvOp.Store, [var, value]⟩) e
            (finished .pred inst m value e) := by
  rcases hForms.decl hPred with ⟨hPointer, hVariable⟩
  have hDeclared : Adds Sized e (predDeclared 0 e) :=
    adds_predDeclared hPointer hVariable 0
  unfold finished
  rw [hDest]
  refine ⟨predVarId 0 e, predVars_predDeclared 0, ?_, ?_⟩
  · intro v hV
    unfold predVarId
    rw [hV]
    rfl
  · apply AddsSome.behind hDeclared
    apply addsSome_pushed
    · intro i hI
      rw [List.mem_singleton.mp hI]
      exact hForms.store _ _
    · exact ⟨_, List.mem_cons_self, rfl⟩

/- A compare writes the variable of predicate 0. -/
theorem exists_write
    (hMapped : Mapped m inst)
    (hActive : Active inst plan)
    (hCompare : isCompare inst = true)
    (hDest : inst.dest.predIndex = 0)
    (hNext : 0 < e.nextId) :
    ∃ var,
      (stepped cfg m inst next e).cfgState.predVars 0 =
          some var ∧
        (∀ v, e.cfgState.predVars 0 = some v → v = var) ∧
          Writes (appended e (stepped cfg m inst next e))
            var := by
  have hForms := planForms_sized hActive.1
  have hLabel :
      Adds Sized e (blockLabelled cfg inst.pc e) :=
    adds_blockLabelled controlForms_sized.label _
  rcases planOf_compare hCompare hActive.1 with ⟨hPred, hGate⟩
  have hReady :
      plan.gate.id (blockLabelled cfg inst.pc e) ≠ 0 := by
    rw [hGate]
    exact Nat.one_ne_zero
  rw [stepped_of_planOf hActive.1 hPred,
    planned_of_active hMapped hActive
      (lt_of_lt_of_le hNext hLabel.nextId) hReady, hPred]
  have hVars :
      (blockLabelled cfg inst.pc e).cfgState.predVars =
        e.cfgState.predVars :=
    predVars_blockLabelled _
  generalize hSrcs :
    loadIds m (blockLabelled cfg inst.pc e).nextId
      (srcRegs inst plan.arity) = srcs
  have hAdds :
      Adds Sized e
        (plan.template.emitted srcs
          (loaded m (srcRegs inst plan.arity)
            (blockLabelled cfg inst.pc e))) :=
    (hLabel.trans (adds_loaded hForms.load _)).trans
      (adds_template hForms srcs)
  generalize hEnd :
    plan.template.emitted srcs
      (loaded m (srcRegs inst plan.arity)
        (blockLabelled cfg inst.pc e)) = e2 at hAdds ⊢
  have hSame : e2.cfgState.predVars = e.cfgState.predVars := by
    rw [← hEnd, ← hVars]
    rfl
  rcases finished_pred (m := m) (e := e2) hForms hPred hDest
    (plan.template.resultId
      (loaded m (srcRegs inst plan.arity)
        (blockLabelled cfg inst.pc e)) srcs) with
    ⟨var, hVar, hOld, hSome⟩
  rw [hSame] at hOld
  refine ⟨var, hVar, hOld, ?_⟩
  rcases exists_appended (hSome.behind hAdds) with
    ⟨i, hI, hStore⟩
  exact ⟨_, hStore ▸ hI⟩

/- All compares write one variable. -/
theorem exists_commonVar :
    ∀ (insts : List ShaderInstruction) (e : SpirvEmitter),
      (∀ inst ∈ insts, isCompare inst = true →
        Mapped m inst ∧ (∃ plan, Active inst plan) ∧
          inst.dest.predIndex = 0) →
        0 < e.nextId →
          ∃ var,
            (∀ v, e.cfgState.predVars 0 = some v → v = var) ∧
              ∀ (j : Nat) inst seg, insts[j]? = some inst →
                isCompare inst = true →
                  (segmentsFrom cfg m insts e)[j]? =
                    some seg → Writes seg var := by
  intro insts
  induction insts with
  | nil =>
      intro e _ _
      refine ⟨(e.cfgState.predVars 0).getD 0, ?_, ?_⟩
      · intro v hV
        rw [hV]
        rfl
      · intro j inst seg hInst
        cases hInst
  | cons first rest ih =>
      intro e hFits hNext
      have hAdds :=
        adds_stepped_sized cfg m first rest.head? e
      rcases ih (stepped cfg m first rest.head? e)
        (fun i hI => hFits i (List.mem_cons_of_mem first hI))
        (lt_of_lt_of_le hNext hAdds.nextId) with
        ⟨var, hVar, hRest⟩
      by_cases hCompare : isCompare first = true
      · rcases hFits first List.mem_cons_self hCompare with
          ⟨hMapped, ⟨plan, hActive⟩, hDest⟩
        rcases exists_write hMapped hActive hCompare hDest
          hNext with ⟨var', hNew, hOld, hWrites⟩
        have hSame := hVar var' hNew
        subst hSame
        refine ⟨var', hOld, ?_⟩
        intro j inst seg hInst hIs hSeg
        rw [segmentsFrom_cons] at hSeg
        cases j with
        | zero =>
            rw [List.getElem?_cons_zero, Option.some.injEq]
              at hSeg
            rw [← hSeg]
            exact hWrites
        | succ j =>
            rw [List.getElem?_cons_succ] at hInst hSeg
            exact hRest j inst seg hInst hIs hSeg
      · have hSame :
            (stepped cfg m first
              rest.head? e).cfgState.predVars =
                e.cfgState.predVars := by
          apply predVars_stepped
          intro plan hPlan
          cases hDest : plan.dest with
          | gpr => rfl
          | pred =>
              exact absurd
                (decide_eq_true (planOf_pred hPlan hDest))
                hCompare
        rw [hSame] at hVar
        refine ⟨var, hVar, ?_⟩
        intro j inst seg hInst hIs hSeg
        rw [segmentsFrom_cons] at hSeg
        cases j with
        | zero =>
            rw [List.getElem?_cons_zero, Option.some.injEq]
              at hInst
            rw [← hInst] at hIs
            exact absurd hIs hCompare
        | succ j =>
            rw [List.getElem?_cons_succ] at hInst hSeg
            exact hRest j inst seg hInst hIs hSeg

/- What the lemma asks of a decoded program's compares. -/
theorem compare_of_decode
    (hDecode : decode data stage = some p)
    (hInst : inst ∈ p.instructions)
    (hCompare : isCompare inst = true)
    (e : SpirvEmitter) :
    Mapped (gprMapOf p (entered p e)) inst ∧
      (∃ plan, Active inst plan) ∧
        inst.dest.predIndex = 0 := by
  have hRegular := regular_of_decode hDecode hInst
  have hOp : inst.opcode = .ISETP ∨ inst.opcode = .FSETP :=
    of_decide_eq_true hCompare
  have hCounted : inst.opcode ∈ countedOpcodes := by
    rcases hOp with hOp | hOp <;> rw [hOp] <;> decide
  rcases active_of_decode hDecode hInst hCounted with
    ⟨plan, hActive⟩
  exact ⟨mapped_of_regular hRegular hInst (Nat.succ_pos _),
    ⟨plan, hActive⟩,
    hRegular.predDest plan hActive.1
      (planOf_compare hCompare hActive.1).1⟩

------
-- Programs That Keep Their Predicates
------

/- The last position with a property in front of another. -/
theorem exists_last
    {P : Nat → Prop}
    {i j : Nat}
    (hI : P i)
    (hLt : i < j) :
    ∃ k, P k ∧ k < j ∧ ∀ l, k < l → l < j → ¬ P l := by
  induction j with
  | zero => omega
  | succ j ih =>
      by_cases hJ : P j
      · refine ⟨j, hJ, Nat.lt_succ_self j, ?_⟩
        intro l hLow hHigh
        omega
      · have hNe : i ≠ j := fun hEq => hJ (hEq ▸ hI)
        rcases ih (by omega) with ⟨k, hK, hKj, hNone⟩
        refine ⟨k, hK, by omega, ?_⟩
        intro l hLow hHigh
        by_cases hEq : l = j
        · rw [hEq]
          exact hJ
        · exact hNone l hLow (by omega)

theorem length_segmentsFrom
    {m : GprMap} :
    ∀ (insts : List ShaderInstruction) (e : SpirvEmitter),
      (segmentsFrom cfg m insts e).length = insts.length := by
  intro insts
  induction insts with
  | nil =>
      intro e
      rfl
  | cons inst rest ih =>
      intro e
      rw [segmentsFrom_cons, List.length_cons, ih,
        List.length_cons]

theorem exists_segment
    {i : Nat}
    (hInst : p.instructions[i]? = some inst) :
    ∃ seg, (segmentsOf p e)[i]? = some seg := by
  have hLt := (List.getElem?_eq_some_iff.mp hInst).1
  have hLength :
      (segmentsOf p e).length = p.instructions.length :=
    length_segmentsFrom _ _
  rw [← hLength] at hLt
  exact ⟨_, List.getElem?_eq_getElem hLt⟩

/- Predicates are kept only if no compare reaches a branch. -/
theorem unguarded_of_kept
    (hDecode : decode data stage = some p)
    (hKept : PredicatesKept data p e) :
    p.instructions.Pairwise fun compare branch =>
      isCompare compare = true →
        isGuardedBra data branch = true →
          destPred data compare ≠ guardPred data branch := by
  rw [List.pairwise_iff_getElem]
  intro i j hI hJ hLt hCompare hGuarded hEq
  let Sets (k : Nat) : Prop :=
    ∃ c, p.instructions[k]? = some c ∧
      isCompare c = true ∧
        destPred data c = guardPred data p.instructions[j]
  have hSets : Sets i :=
    ⟨_, List.getElem?_eq_getElem hI, hCompare, hEq⟩
  rcases exists_last hSets hLt with
    ⟨k, ⟨c, hC, hIs, hDest⟩, hKj, hNone⟩
  have hBranch := List.getElem?_eq_getElem hJ
  have hTested :=
    hKept.tested k j c _ hKj hC hBranch hIs hGuarded (by
      intro l other hLow hHigh hOther hOtherIs hOtherDest
      exact hNone l hLow hHigh
        ⟨other, hOther, hOtherIs, hOtherDest⟩)
  exact not_testsStored hDecode e hBranch hGuarded
    (hTested.mpr hDest)

/- The compares of a decoded program write one variable. -/
theorem commonVar_of_decode
    (hDecode : decode data stage = some p)
    (e : SpirvEmitter) :
    ∃ var,
      ∀ (j : Nat) inst seg, p.instructions[j]? = some inst →
        isCompare inst = true →
          (segmentsOf p e)[j]? = some seg →
            Writes seg var := by
  have hShared :
      ∃ var, _ ∧
        ∀ (j : Nat) inst seg,
          p.instructions[j]? = some inst →
            isCompare inst = true →
              (segmentsOf p e)[j]? = some seg →
                Writes seg var :=
    exists_commonVar p.instructions (atLoop p (preambled p e))
      (fun inst hInst hIs =>
        compare_of_decode hDecode hInst hIs _)
      (predInv_atLoop p e).nextId
  rcases hShared with ⟨var, _, hWrites⟩
  exact ⟨var, hWrites⟩

/- And only if all compares have one destination. -/
theorem single_of_kept
    (hDecode : decode data stage = some p)
    (hKept : PredicatesKept data p e) :
    ∀ first ∈ p.instructions, ∀ second ∈ p.instructions,
      isCompare first = true → isCompare second = true →
        destPred data first = destPred data second := by
  intro first hFirst second hSecond hIsFirst hIsSecond
  by_contra hNe
  rcases List.getElem?_of_mem hFirst with ⟨i, hI⟩
  rcases List.getElem?_of_mem hSecond with ⟨j, hJ⟩
  rcases exists_segment (e := e) hI with ⟨segI, hSegI⟩
  rcases exists_segment (e := e) hJ with ⟨segJ, hSegJ⟩
  rcases commonVar_of_decode hDecode e with ⟨var, hWrites⟩
  exact hKept.distinct i j first second segI segJ hI hJ
    hIsFirst hIsSecond hNe hSegI hSegJ var
    ⟨hWrites i first segI hI hIsFirst hSegI,
      hWrites j second segJ hJ hIsSecond hSegJ⟩

/- The segments are part of the words. -/
theorem stream_segmentsOf
    (p : ShaderProgram)
    (e : SpirvEmitter) :
    ∃ front back,
      instructionsOf (emit e p) =
        some (front ++ (segmentsOf p e).flatten ++ back) := by
  rcases words_segmentsOf p e with ⟨frame, hSized, hWords⟩
  refine ⟨preambleCode (kindOf p.stage) p.usesTextures ++
    frame, endCode p, ?_⟩
  rw [instructionsOf_emit hSized hWords]
  unfold moduleOf
  rw [List.append_assoc (preambleCode _ _) frame]

theorem predicatesKept_of_noFlow
    (hDecode : decode data stage = some p)
    (e : SpirvEmitter)
    (hFlow : NoPredicateFlow data p) :
    PredicatesKept data p e := by
  refine ⟨stream_segmentsOf p e, ?_, ?_⟩
  · intro i j compare branch hLt hI hJ hIs hGuarded _
    have hNot : ¬ TestsStored (segmentsOf p e) i j :=
      not_testsStored hDecode e hJ hGuarded
    refine iff_of_false hNot ?_
    rcases List.getElem?_eq_some_iff.mp hI with ⟨hILt, hIEq⟩
    rcases List.getElem?_eq_some_iff.mp hJ with ⟨hJLt, hJEq⟩
    have hPair :=
      List.pairwise_iff_getElem.mp hFlow.unguarded i j hILt
        hJLt hLt
    rw [hIEq, hJEq] at hPair
    exact hPair hIs hGuarded
  · intro i j first second segI segJ hI hJ hIsFirst hIsSecond
      hNe
    exact absurd
      (hFlow.single first (List.mem_of_getElem? hI) second
        (List.mem_of_getElem? hJ) hIsFirst hIsSecond) hNe

/-
  The predicates of a shader binary reach the emitted branches
  exactly when none of them is used: no branch is guarded by
  the destination of an earlier compare, and all compares have
  one destination.
-/
theorem emit_predicatesKept_iff
    (e : SpirvEmitter)
    (data : List U8)
    (stage : ShaderStage)
    (p : ShaderProgram)
    (hDecode : decode data stage = some p) :
    PredicatesKept data p e ↔ NoPredicateFlow data p := by
  constructor
  · intro hKept
    exact ⟨unguarded_of_kept hDecode hKept,
      single_of_kept hDecode hKept⟩
  · exact predicatesKept_of_noFlow hDecode e

/- An `ISETP` to predicate 1, then `EXIT`. -/
def compareThenExit : List U8 :=
  [224, 2, 0, 0, 0, 1, 0, 0, 0, 16, 0, 0, 0, 0, 0, 0]

theorem compareThenExit_predicatesKept :
    ∃ p, decode compareThenExit .Fragment = some p ∧
      p.instructions.map (·.opcode) = [.ISETP, .EXIT] ∧
        PredicatesKept compareThenExit p {} := by
  refine ⟨_, rfl, by decide, ?_⟩
  rw [emit_predicatesKept_iff {} compareThenExit .Fragment _
    rfl]
  decide

/-
  An `ISETP` to predicate 1, a `BRA` to the next slot guarded
  by it, and `EXIT`: the branch tests a constant.
-/
def compareThenBranch : List U8 :=
  [224, 2, 0, 0, 0, 1, 0, 0, 32, 16, 0, 0, 2, 0, 0, 0,
    0, 16, 0, 0, 0, 0, 0, 0]

theorem compareThenBranch_not_predicatesKept :
    ∃ p, decode compareThenBranch .Fragment = some p ∧
      p.instructions.map (·.opcode) = [.ISETP, .BRA, .EXIT] ∧
        ¬ PredicatesKept compareThenBranch p {} := by
  refine ⟨_, rfl, by decide, ?_⟩
  have hDecode :
      decode compareThenBranch .Fragment = some _ := rfl
  intro hKept
  have hFlow := unguarded_of_kept hDecode hKept
  revert hFlow
  decide

end SpirvEmitter

end M1Switch
