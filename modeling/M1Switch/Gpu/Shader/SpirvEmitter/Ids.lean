import M1Switch.Gpu.Shader.SpirvEmitter.ScopeRun

/-
  Ids of an emitted module.

  Every instruction but a label defines the next id, so only
  a label can define an id twice.  Its id belongs to an offset
  of the program, and offsets have different ids: an id is
  defined twice exactly when an offset gets two labels.

  Key definitions include:
    * `IdsValid`
    * `labelEvents`

  Main results:
    * `marks_streamed`
    * `nodup_labelEvents_iff`
    * `emit_idsValid_iff`
-/

------
-- Valid Ids
------

namespace M1Switch

/-
  Ids are defined once and lie below the bound; ids used in
  the function are defined in front of their use.
-/
structure IdsValidIn
    (insts : List SpirvInst)
    (bound : Nat) : Prop where
  unique : (resultsOf insts).Nodup
  range : ∀ i ∈ insts, ∀ x ∈ i.ids, 0 < x ∧ x < bound
  defined :
    ∀ a i b, insts = a ++ i :: b →
      (∃ f ∈ a, f.opcode = SpirvOp.Function) →
        ∀ x ∈ i.uses, x ∈ resultsOf a

/- The words split into instructions with valid ids. -/
def IdsValid (words : List Nat) : Prop :=
  ∃ insts bound,
    instructionsOf words = some insts ∧
      words[3]? = some bound ∧ IdsValidIn insts bound

theorem idsValid_iff
    {words : List Nat}
    {insts : List SpirvInst}
    {bound : Nat}
    (hInsts : instructionsOf words = some insts)
    (hBound : words[3]? = some bound) :
    IdsValid words ↔ IdsValidIn insts bound := by
  unfold IdsValid
  rw [hInsts, hBound]
  simp

theorem length_pickOperands_le
    {k rest : OperandKind}
    (hRest : rest ≠ k) :
    ∀ (kinds : List OperandKind) (xs : List Nat),
      (pickOperands k kinds rest xs).length ≤
        kinds.count k := by
  intro kinds
  induction kinds with
  | nil =>
      intro xs
      simp [pickOperands, hRest]
  | cons kind kinds ih =>
      intro xs
      cases xs with
      | nil => exact Nat.zero_le _
      | cons x xs =>
          have hTail := ih xs
          unfold pickOperands
          by_cases hKind : kind = k
          · simp only [hKind, if_true, List.length_cons,
              List.count_cons_self]
            omega
          · rw [if_neg hKind, List.count_cons_of_ne hKind]
            exact hTail

/- Kinds of operands with one result at most. -/
def OneResult (ks : List OperandKind × OperandKind) : Prop :=
  ks.2 ≠ .result ∧ ks.1.count .result ≤ 1

instance (ks : List OperandKind × OperandKind) :
    Decidable (OneResult ks) :=
  inferInstanceAs (Decidable (_ ∧ _))

theorem oneResult_ite
    {c : Prop}
    [Decidable c]
    {ks ks' : List OperandKind × OperandKind}
    (hThen : OneResult ks)
    (hElse : OneResult ks') :
    OneResult (if c then ks else ks') := by
  split
  · exact hThen
  · exact hElse

theorem oneResult_operandKinds (opcode : Nat) :
    OneResult (operandKinds opcode) := by
  unfold operandKinds
  repeat
    refine oneResult_ite (by decide) ?_
  decide

/- An instruction defines one id at most. -/
theorem SpirvInst.nodup_results (i : SpirvInst) :
    i.results.Nodup := by
  rcases oneResult_operandKinds i.opcode with ⟨hRest, hCount⟩
  have hLength : i.results.length ≤ 1 :=
    (length_pickOperands_le hRest _ _).trans hCount
  rcases hResults : i.results with _ | ⟨x, _ | ⟨y, ys⟩⟩
  · exact List.nodup_nil
  · exact List.nodup_singleton x
  · rw [hResults, List.length_cons, List.length_cons] at hLength
    omega

------
-- Labels Of Offsets
------

namespace SpirvEmitter

/-
  Offsets in the order their labels are emitted; `seen` tells
  that the first of the instructions has its label already.
-/
def labelEvents (starts : List Nat) :
    Bool → List ShaderInstruction → List Nat
| _, [] => []
| seen, inst :: rest =>
    (if inst.pc ∈ starts ∧ seen = false then [inst.pc]
      else []) ++
      (if isPredBra inst then [falsePc inst rest.head?]
        else []) ++
        labelEvents starts (isPredBra inst) rest

/- Labels of the offsets `D` are in `Γ`, and no others. -/
structure LabelInv
    (D : List Nat)
    (Γ : List SpirvInst)
    (e : SpirvEmitter) : Prop where
  inj :
    ∀ q q' id, e.cfgState.pcToLabel q = some id →
      e.cfgState.pcToLabel q' = some id → q = q'
  placed :
    ∀ q id, e.cfgState.pcToLabel q = some id →
      (id ∈ resultsOf Γ ↔ q ∈ D)
  mapped : ∀ q ∈ D, (e.cfgState.pcToLabel q).isSome
  emitted : ∀ q ∈ D, q ∈ e.cfgState.labelsEmitted
  unique : (resultsOf Γ).Nodup ↔ D.Nodup

variable {tex strict : Prop} {m m' : GprMap}
variable {D D' D'' : List Nat} {Γ code : List SpirvInst}
variable {e e' e'' : SpirvEmitter}

/- Code without labels defines new ids, each of them once. -/
theorem nodup_resultsOf_append
    (hChecked : Prefixes.Checked (InstOk strict) Γ code)
    (hPlain : ∀ i ∈ code, i.opcode ≠ SpirvOp.Label) :
    (resultsOf (Γ ++ code)).Nodup ↔ (resultsOf Γ).Nodup := by
  induction code generalizing Γ with
  | nil => rw [List.append_nil]
  | cons i code ih =>
      rcases hChecked with ⟨hHead, hTail⟩
      rw [List.forall_mem_cons] at hPlain
      have hRest := ih hTail hPlain.2
      rw [List.append_assoc, List.singleton_append] at hRest
      rw [hRest, resultsOf_append, List.nodup_append]
      have hOne : resultsOf [i] = i.results :=
        List.flatMap_singleton _ _
      rw [hOne]
      constructor
      · exact fun h => h.1
      · intro hNodup
        refine ⟨hNodup, i.nodup_results, ?_⟩
        intro x hX y hY hEq
        subst hEq
        exact hHead.fresh hPlain.1 x hY hX

/- Code without labels keeps the labels. -/
theorem LabelInv.quiet
    (hInv : LabelInv D Γ e)
    (hScope : Scope tex m Γ e)
    (hGrown : Grown tex strict m' Γ e e' code)
    (hPlain : ∀ i ∈ code, i.opcode ≠ SpirvOp.Label)
    (hIds : e'.cfgState.pcToLabel = e.cfgState.pcToLabel)
    (hEmitted :
      e'.cfgState.labelsEmitted = e.cfgState.labelsEmitted) :
    LabelInv D (Γ ++ code) e' := by
  refine ⟨?_, ?_, ?_, ?_, ?_⟩
  · rw [hIds]
    exact hInv.inj
  · intro q id hId
    rw [hIds] at hId
    rw [← hInv.placed q id hId, resultsOf_append,
      List.mem_append, or_iff_left]
    intro hNew
    rcases List.mem_flatMap.mp hNew with ⟨i, hI, hX⟩
    have hLe := hGrown.new i hI (hPlain i hI) id hX
    have hLt := hScope.labels q id hId
    omega
  · rw [hIds]
    exact hInv.mapped
  · rw [hEmitted]
    exact hInv.emitted
  · rw [nodup_resultsOf_append hGrown.checked hPlain]
    exact hInv.unique

/- A new id for an offset without a label. -/
theorem LabelInv.assign
    (hInv : LabelInv D Γ e)
    (hScope : Scope tex m Γ e)
    {q : Nat}
    (hQ : q ∉ D)
    (hIds :
      e'.cfgState.pcToLabel =
        Function.update e.cfgState.pcToLabel q
          (some e.nextId))
    (hEmitted :
      e'.cfgState.labelsEmitted = e.cfgState.labelsEmitted) :
    LabelInv D Γ e' := by
  have hNew :
      ∀ q', e.cfgState.pcToLabel q' ≠ some e.nextId := by
    intro q' hId
    have := hScope.labels q' _ hId
    omega
  refine ⟨?_, ?_, ?_, ?_, hInv.unique⟩
  · intro a b id hA hB
    rw [hIds] at hA hB
    by_cases hEqA : a = q <;> by_cases hEqB : b = q
    · rw [hEqA, hEqB]
    · subst hEqA
      rw [Function.update_self, Option.some.injEq] at hA
      rw [Function.update_of_ne hEqB, ← hA] at hB
      exact absurd hB (hNew b)
    · subst hEqB
      rw [Function.update_self, Option.some.injEq] at hB
      rw [Function.update_of_ne hEqA, ← hB] at hA
      exact absurd hA (hNew a)
    · rw [Function.update_of_ne hEqA] at hA
      rw [Function.update_of_ne hEqB] at hB
      exact hInv.inj a b id hA hB
  · intro a id hA
    rw [hIds] at hA
    by_cases hEq : a = q
    · subst hEq
      rw [Function.update_self, Option.some.injEq] at hA
      subst hA
      exact iff_of_false (hScope.not_mem (le_refl _)) hQ
    · rw [Function.update_of_ne hEq] at hA
      exact hInv.placed a id hA
  · intro a hA
    have hNe : a ≠ q := fun hEq => hQ (hEq ▸ hA)
    rw [hIds, Function.update_of_ne hNe]
    exact hInv.mapped a hA
  · rw [hEmitted]
    exact hInv.emitted

/- The label of an offset, under its id. -/
theorem LabelInv.place
    (hInv : LabelInv D Γ e)
    {q id : Nat}
    (hId : e.cfgState.pcToLabel q = some id)
    (hIds : e'.cfgState.pcToLabel = e.cfgState.pcToLabel)
    (hEmitted :
      e'.cfgState.labelsEmitted =
        q :: e.cfgState.labelsEmitted) :
    LabelInv (D ++ [q]) (Γ ++ [labelInst id]) e' := by
  have hResults :
      resultsOf (Γ ++ [labelInst id]) = resultsOf Γ ++ [id] := by
    rw [resultsOf_append]
    rfl
  refine ⟨?_, ?_, ?_, ?_, ?_⟩
  · rw [hIds]
    exact hInv.inj
  · intro a x hX
    rw [hIds] at hX
    rw [hResults, List.mem_append, List.mem_append,
      List.mem_singleton, List.mem_singleton,
      hInv.placed a x hX]
    constructor
    · rintro (hA | hEq)
      · exact Or.inl hA
      · subst hEq
        exact Or.inr (hInv.inj a q x hX hId)
    · rintro (hA | hEq)
      · exact Or.inl hA
      · subst hEq
        rw [hX, Option.some.injEq] at hId
        exact Or.inr hId
  · intro a hA
    rw [hIds]
    rw [List.mem_append, List.mem_singleton] at hA
    rcases hA with hA | hEq
    · exact hInv.mapped a hA
    · rw [hEq, hId]
      rfl
  · intro a hA
    rw [hEmitted]
    rw [List.mem_append, List.mem_singleton] at hA
    rcases hA with hA | hEq
    · exact List.mem_cons_of_mem _ (hInv.emitted a hA)
    · rw [hEq]
      exact List.mem_cons_self
  · rw [hResults, List.nodup_append, List.nodup_append,
      hInv.unique]
    have hMem := hInv.placed q id hId
    simp only [List.nodup_singleton, List.mem_singleton,
      forall_eq, true_and]
    constructor
    · rintro ⟨hNodup, hNew⟩
      refine ⟨hNodup, ?_⟩
      intro a hA hEq
      subst hEq
      exact hNew id (hMem.mpr hA) rfl
    · rintro ⟨hNodup, hNew⟩
      refine ⟨hNodup, ?_⟩
      intro a hA hEq
      subst hEq
      exact hNew q (hMem.mp hA) rfl

------
-- Steps Of The Loop
------

variable {cfg : CfgAnnotation} {inst : ShaderInstruction}
variable {next : Option ShaderInstruction}

/- The code of a step consists of the step's instructions. -/
theorem Grown.form
    {F : SpirvInst → Prop}
    (hGrown : Grown tex strict m Γ e e' code)
    (hAdds : Adds F e e')
    (hSized : ∀ i, F i → Sized i) :
    ∀ i ∈ code, F i := by
  rcases hAdds.words with ⟨code', hF, hWords⟩
  have hSame : code = code' := by
    apply encodeInsts_inj hGrown.sized
      fun i hI => hSized i (hF i hI)
    rw [hGrown.words] at hWords
    exact List.append_cancel_left hWords
  rw [hSame]
  exact hF

/- Instructions that are no labels. -/
def PlainShape (opcode count : Nat) : Prop :=
  SizedShape opcode count ∧ opcode ≠ SpirvOp.Label

instance (opcode count : Nat) :
    Decidable (PlainShape opcode count) :=
  inferInstanceAs (Decidable (_ ∧ _))

theorem branchForms_plain : BranchForms (Shaped PlainShape) :=
  branchForms_shaped (by decide)

theorem plainShape_plans :
    ∀ plan ∈ plans, ∀ s ∈ planShapes plan,
      PlainShape s.1 s.2 := by
  decide

/- The step's code labels the offsets behind `D` in `D'`. -/
def Marks
    (tex strict : Prop)
    (m : GprMap)
    (D D' : List Nat)
    (e e' : SpirvEmitter) : Prop :=
  ∀ Γ, Scope tex m Γ e → LabelInv D Γ e →
    ∃ code,
      Grown tex strict m Γ e e' code ∧
        LabelInv D' (Γ ++ code) e'

theorem Marks.refl : Marks tex strict m D D e e := by
  intro Γ hScope hInv
  refine ⟨[], Grown.refl hScope, ?_⟩
  rw [List.append_nil]
  exact hInv

theorem Marks.trans
    (hFirst : Marks tex strict m D D' e e')
    (hSecond : Marks tex strict m D' D'' e' e'') :
    Marks tex strict m D D'' e e'' := by
  intro Γ hScope hInv
  rcases hFirst Γ hScope hInv with ⟨a, hA, hInvA⟩
  rcases hSecond (Γ ++ a) hA.scope hInvA with ⟨b, hB, hInvB⟩
  rw [List.append_assoc] at hInvB
  exact ⟨a ++ b, hA.trans hB, hInvB⟩

/- Labels of offsets are kept. -/
structure SameLabels (e e' : SpirvEmitter) : Prop where
  ids : e'.cfgState.pcToLabel = e.cfgState.pcToLabel
  emitted :
    e'.cfgState.labelsEmitted = e.cfgState.labelsEmitted

/- A step without labels. -/
theorem marks_of_plain
    (hKeeps : Keeps tex strict m e e')
    (hAdds : Adds (Shaped PlainShape) e e')
    (hSame : SameLabels e e') :
    Marks tex strict m D D e e' := by
  intro Γ hScope hInv
  rcases hKeeps Γ hScope with ⟨code, hGrown⟩
  have hPlain := hGrown.form hAdds fun i hI => hI.1
  exact ⟨code, hGrown, hInv.quiet hScope hGrown
    (fun i hI => (hPlain i hI).2) hSame.ids hSame.emitted⟩

theorem LabelInv.congr
    (hInv : LabelInv D Γ e)
    (hSame : SameLabels e e') :
    LabelInv D Γ e' := by
  rcases hInv with ⟨hInj, hPlaced, hMapped, hEmitted, hUnique⟩
  rw [← hSame.ids] at hInj hPlaced hMapped
  rw [← hSame.emitted] at hEmitted
  exact ⟨hInj, hPlaced, hMapped, hEmitted, hUnique⟩

/- The label of an offset gets its id. -/
theorem LabelInv.reserved
    (hInv : LabelInv D Γ e)
    (hScope : Scope tex m Γ e)
    (pc : Nat) :
    LabelInv D Γ (reserved pc e) := by
  unfold SpirvEmitter.reserved
  cases hPc : e.cfgState.pcToLabel pc with
  | some id => exact hInv
  | none =>
      refine hInv.assign hScope ?_ rfl rfl
      intro hD
      have hSome := hInv.mapped pc hD
      rw [hPc] at hSome
      cases hSome

theorem marks_reserved (pc : Nat) :
    Marks tex strict m D D e (reserved pc e) := by
  intro Γ hScope hInv
  refine ⟨[], (hScope.grow_reserved strict pc).1, ?_⟩
  rw [List.append_nil]
  exact hInv.reserved hScope pc

/- Offsets labelled by a block start. -/
def startLabels (cfg : CfgAnnotation) (pc : Nat)
    (e : SpirvEmitter) : List Nat :=
  if pc ∈ cfg.blockStarts ∧ pc ∉ e.cfgState.labelsEmitted then
    [pc]
  else []

theorem marks_blockLabelled (pc : Nat) :
    Marks tex strict m D (D ++ startLabels cfg pc e) e
      (blockLabelled cfg pc e) := by
  intro Γ hScope hInv
  have hKeeps :
      Keeps tex strict m e (blockLabelled cfg pc e) :=
    keeps_blockLabelled pc
  rcases hKeeps Γ hScope with ⟨code, hGrown⟩
  unfold startLabels
  unfold blockLabelled at hGrown ⊢
  split_ifs at hGrown ⊢ with hStart
  · have hCode : code = [labelInst e.nextId] := by
      apply encodeInsts_inj hGrown.sized
      · intro i hI
        rw [List.mem_singleton.mp hI]
        exact controlForms_sized.label _
      · exact List.append_cancel_left hGrown.words.symm
    subst hCode
    have hFresh : pc ∉ D :=
      fun hD => hStart.2 (hInv.emitted pc hD)
    have hAssigned :
        LabelInv D Γ
          { e with
            cfgState.pcToLabel :=
              Function.update e.cfgState.pcToLabel pc
                (some e.nextId) } :=
      hInv.assign hScope hFresh rfl rfl
    exact ⟨_, hGrown, hAssigned.place
      (Function.update_self _ _ _) rfl rfl⟩
  · rw [List.append_nil]
    exact Marks.refl Γ hScope hInv

------
-- Control Flow And Labels
------

theorem sameLabels_synced (pc : Nat) :
    SameLabels e (synced pc e) := by
  unfold synced
  split
  · exact ⟨rfl, rfl⟩
  · split_ifs <;> exact ⟨rfl, rfl⟩

theorem sameLabels_merged : SameLabels e (merged e) := by
  unfold merged
  split <;> exact ⟨rfl, rfl⟩

theorem sameLabels_planned (plan : Plan) :
    SameLabels e (planned plan inst m e) := by
  rcases cfgState_planned plan with ⟨predVars, hState⟩
  constructor <;> rw [hState]

theorem marks_merged :
    Marks tex strict m D D e (merged e) :=
  marks_of_plain keeps_merged
    (adds_merged branchForms_plain.toMergeForms)
    sameLabels_merged

theorem LabelInv.continued
    (hInv : LabelInv D Γ e)
    (hScope : Scope tex m Γ e)
    (pair : SsySyncPair)
    (pc : Nat) :
    LabelInv D Γ (continued pair pc e).2 := by
  unfold SpirvEmitter.continued
  dsimp only
  split_ifs
  · exact hInv.reserved hScope _
  · exact hInv.reserved hScope _
  · exact hInv

/- An `SSY` reserves ids only. -/
theorem marks_opened (pc : Nat) :
    Marks tex strict m D D e (opened cfg pc e) := by
  intro Γ hScope hInv
  have hKeeps : Keeps tex strict m e (opened cfg pc e) :=
    keeps_opened pc
  rcases hKeeps Γ hScope with ⟨code, hGrown⟩
  have hNone : ∀ i ∈ code, False :=
    hGrown.form (adds_opened pc) fun i hI => hI.elim
  have hCode : code = [] :=
    List.eq_nil_iff_forall_not_mem.mpr hNone
  subst hCode
  refine ⟨[], hGrown, ?_⟩
  rw [List.append_nil]
  unfold opened
  split
  · exact hInv
  · rename_i pair _
    have hMerge := hInv.reserved hScope pair.syncPc
    have hScope' :=
      (hScope.grow_reserved strict pair.syncPc).1.scope
    rw [List.append_nil] at hScope'
    exact (hMerge.continued hScope' pair pc).congr ⟨rfl, rfl⟩

/- A branch reserves an id and names it. -/
theorem marks_branched (pc : Nat) :
    Marks tex strict m D D e (branched pc e) := by
  intro Γ hScope hInv
  rcases hScope.grow_reserved strict pc with
    ⟨hReserved, hId⟩
  have hBranch :
      Grown tex strict m (Γ ++ []) (reserved pc e)
        (branched pc e) [⟨SpirvOp.Branch, [labelIdOf pc e]⟩] :=
    hReserved.scope.grow_branch hId
  have hInv' := hInv.reserved hScope pc
  rw [← List.append_nil Γ] at hInv'
  have hQuiet :=
    hInv'.quiet hReserved.scope hBranch (by
      intro i hI
      rw [List.mem_singleton.mp hI]
      exact (branchForms_plain.branch _).2) rfl rfl
  rw [List.append_assoc] at hQuiet
  exact ⟨_, hReserved.trans hBranch, hQuiet⟩

theorem marks_broken :
    Marks tex strict m D D e (broken e) := by
  unfold broken
  cases e.cfgState.ssyStack with
  | nil => exact Marks.refl
  | cons top rest => exact marks_branched _

theorem marks_looped :
    Marks tex strict m D D e (looped cfg e) := by
  unfold looped
  cases e.cfgState.ssyStack with
  | nil => exact Marks.refl
  | cons top rest =>
      dsimp only
      split_ifs
      · cases cfg.pairs.find? (·.ssyPc = top.ssyPc) with
        | none => exact Marks.refl
        | some pair => exact marks_branched _
      · exact Marks.refl

/- The id of an offset behind its reservation. -/
theorem pcToLabel_reserved (pc : Nat) :
    (reserved pc e).cfgState.pcToLabel pc =
      some (labelIdOf pc e) := by
  unfold reserved labelIdOf
  cases hPc : e.cfgState.pcToLabel pc with
  | some id => exact hPc
  | none => exact Function.update_self _ _ _

/- A guarded branch labels what follows it. -/
theorem marks_predBranched :
    Marks tex strict m D (D ++ [falsePc inst next]) e
      (predBranched inst next e) := by
  have hMerged : Marks tex strict m D D e (merged e) :=
    marks_merged
  have hTrue :
      Marks tex strict m D D (merged e)
        (reserved inst.targetPc (merged e)) :=
    marks_reserved _
  refine (hMerged.trans hTrue).trans ?_
  intro Γ hScope hInv
  have hTrueId :=
    hScope.labels _ _ (pcToLabel_reserved inst.targetPc)
  rcases hScope.grow_reserved strict
    (falsePc inst next) with ⟨hFalse, hFalseId⟩
  have hGuarded :
      Grown tex strict m _ _ (pushed _ _ _)
        (guardCode inst _ ++
          [guardedBranchInst inst (guardId inst _) _ _]) :=
    hFalse.scope.grow_guarded
      ⟨hTrueId.1, lt_of_lt_of_le hTrueId.2 hFalse.nextId⟩
      hFalseId
  have hLabel :
      Grown tex strict m _ _ (pushed _ 0 _)
        [labelInst (labelIdOf (falsePc inst next) _)] :=
    hGuarded.scope.grow_label
      ⟨hFalseId.1, lt_of_lt_of_le hFalseId.2 hGuarded.nextId⟩
  have hAll := hFalse.trans (hGuarded.trans hLabel)
  have hReserved := hInv.reserved hScope (falsePc inst next)
  rw [← List.append_nil Γ] at hReserved
  have hQuiet :=
    hReserved.quiet hFalse.scope hGuarded (by
      intro i hI
      rcases List.mem_append.mp hI with hI | hI
      · exact (form_guardCode branchForms_plain.toMergeForms
          i hI).2
      · rw [List.mem_singleton.mp hI]
        exact (form_guardedBranchInst branchForms_plain
          _ _ _).2) rfl rfl
  have hPlaced :
      LabelInv (D ++ [falsePc inst next]) _
        (predBranched inst next e) :=
    hQuiet.place (pcToLabel_reserved _) rfl rfl
  rw [List.append_assoc, List.append_assoc,
    List.append_assoc] at hPlaced
  rw [pushed_pushed, Nat.add_zero, List.append_assoc] at hAll
  have hLast := hAll.scope
  exact ⟨_, hAll.congr rfl rfl
    (hLast.setCfg hLast.pred hLast.labels hLast.stack),
    hPlaced⟩

/- A plan labels nothing. -/
theorem marks_planned
    {plan : Plan}
    (hFits : StepFits tex strict e inst)
    (hPlan : planOf inst = some plan) :
    Marks tex strict m D D e (planned plan inst m e) := by
  have hForms : PlanForms (Shaped PlainShape) plan :=
    planForms_shaped
      (plainShape_plans plan (planOf_mem_plans hPlan))
  exact marks_of_plain
    (keeps_planned (planOf_mem_plans hPlan)
      (hFits.tex plan hPlan) (hFits.strict plan hPlan))
    (adds_planned hForms) (sameLabels_planned plan)

theorem marks_kill :
    Marks tex strict m D D e
      (e.pushed 0 [⟨SpirvOp.Kill, []⟩]) := by
  apply marks_of_plain keeps_kill _ ⟨rfl, rfl⟩
  apply adds_pushed
  intro i hI
  rw [List.mem_singleton.mp hI]
  exact branchForms_plain.kill

/- Offsets labelled behind an instruction. -/
def endLabels
    (inst : ShaderInstruction)
    (next : Option ShaderInstruction) : List Nat :=
  if isPredBra inst then [falsePc inst next] else []

theorem endLabels_of_ne
    (hOp : inst.opcode ≠ .BRA) :
    endLabels inst next = [] := by
  simp [endLabels, isPredBra, hOp]

theorem endLabels_of_plain
    (hPlain : isPlainBra inst = true) :
    endLabels inst next = [] := by
  simp [isPlainBra] at hPlain
  simp [endLabels, isPredBra, hPlain]

theorem marks_advanced
    (hFits : StepFits tex strict e inst) :
    Marks tex strict m D (D ++ endLabels inst next) e
      (advanced cfg m inst next e) := by
  have hNone :
      ¬ isPredBra inst = true → endLabels inst next = [] :=
    fun hPred => if_neg hPred
  cases advance_cases cfg m inst next with
  | sync hSync hEq =>
      rw [hEq, endLabels_of_ne (by simp [hSync]),
        List.append_nil]
      exact marks_of_plain (keeps_synced _) (adds_synced _)
        (sameLabels_synced _)
  | ssy hSsy hEq =>
      rw [hEq, endLabels_of_ne (by simp [hSsy]),
        List.append_nil]
      exact marks_opened _
  | bra hSsy hPlain hEq =>
      rw [hEq, endLabels_of_plain hPlain, List.append_nil]
      exact marks_merged.trans (marks_branched _)
  | predBra hSsy hPlain hPred hEq =>
      rw [hEq, endLabels, if_pos hPred]
      exact marks_predBranched
  | exit hNot hExit hEq =>
      rw [hEq, hNone hNot.pred, List.append_nil]
      exact Marks.refl
  | brk hNot hBreak hEq =>
      rw [hEq, hNone hNot.pred, List.append_nil]
      exact marks_broken
  | cont hNot hCont hEq =>
      rw [hEq, hNone hNot.pred, List.append_nil]
      exact marks_looped
  | kil hNot hKil hEq =>
      rw [hEq, hNone hNot.pred, List.append_nil]
      exact marks_kill
  | none hNot hFlow hKil hPlan hEq =>
      rw [hEq, hNone hNot.pred, List.append_nil]
      exact Marks.refl
  | plan hNot hFlow hKil plan hPlan hEq =>
      rw [hEq, hNone hNot.pred, List.append_nil]
      exact marks_planned hFits hPlan

/- One iteration labels its block and what follows it. -/
theorem marks_stepped
    (hFits : StepFits tex strict e inst) :
    Marks tex strict m D
      (D ++ startLabels cfg inst.pc e ++ endLabels inst next)
      e (stepped cfg m inst next e) := by
  have hLabel :
      Marks tex strict m D (D ++ startLabels cfg inst.pc e) e
        (blockLabelled cfg inst.pc e) :=
    marks_blockLabelled _
  refine hLabel.trans (marks_advanced ?_)
  have hTex :
      (blockLabelled cfg inst.pc e).texSampledImageVar =
        e.texSampledImageVar := by
    unfold blockLabelled
    split_ifs <;> rfl
  refine ⟨?_, hFits.strict⟩
  rw [hTex]
  exact hFits.tex

------
-- Offsets Marked As Labelled
------

@[simp] theorem labelsEmitted_reserved (pc : Nat) :
    (reserved pc e).cfgState.labelsEmitted =
      e.cfgState.labelsEmitted := by
  unfold reserved
  split <;> rfl

@[simp] theorem labelsEmitted_merged :
    (merged e).cfgState.labelsEmitted =
      e.cfgState.labelsEmitted :=
  sameLabels_merged.emitted

@[simp] theorem labelsEmitted_branched (pc : Nat) :
    (branched pc e).cfgState.labelsEmitted =
      e.cfgState.labelsEmitted :=
  labelsEmitted_reserved pc

theorem labelsEmitted_opened (pc : Nat) :
    (opened cfg pc e).cfgState.labelsEmitted =
      e.cfgState.labelsEmitted := by
  unfold opened continued
  dsimp only
  split
  · rfl
  · split_ifs <;> simp

theorem labelsEmitted_broken :
    (broken e).cfgState.labelsEmitted =
      e.cfgState.labelsEmitted := by
  unfold broken
  split <;> simp

theorem labelsEmitted_looped :
    (looped cfg e).cfgState.labelsEmitted =
      e.cfgState.labelsEmitted := by
  unfold looped
  split
  · rfl
  · split_ifs
    · split <;> simp
    · rfl

theorem labelsEmitted_predBranched :
    (predBranched inst next e).cfgState.labelsEmitted =
      falsePc inst next :: e.cfgState.labelsEmitted := by
  unfold predBranched
  simp

theorem labelsEmitted_blockLabelled (pc : Nat) :
    (blockLabelled cfg pc e).cfgState.labelsEmitted =
      startLabels cfg pc e ++ e.cfgState.labelsEmitted := by
  unfold blockLabelled startLabels
  split_ifs <;> rfl

theorem labelsEmitted_advanced :
    (advanced cfg m inst next e).cfgState.labelsEmitted =
      endLabels inst next ++ e.cfgState.labelsEmitted := by
  have hNone :
      ¬ isPredBra inst = true → endLabels inst next = [] :=
    fun hPred => if_neg hPred
  cases advance_cases cfg m inst next with
  | sync hSync hEq =>
      rw [hEq, endLabels_of_ne (by simp [hSync])]
      exact (sameLabels_synced _).emitted
  | ssy hSsy hEq =>
      rw [hEq, endLabels_of_ne (by simp [hSsy])]
      exact labelsEmitted_opened _
  | bra hSsy hPlain hEq =>
      rw [hEq, endLabels_of_plain hPlain]
      simp
  | predBra hSsy hPlain hPred hEq =>
      rw [hEq, endLabels, if_pos hPred]
      exact labelsEmitted_predBranched
  | exit hNot hExit hEq =>
      rw [hEq, hNone hNot.pred, List.nil_append]
  | brk hNot hBreak hEq =>
      rw [hEq, hNone hNot.pred, List.nil_append]
      exact labelsEmitted_broken
  | cont hNot hCont hEq =>
      rw [hEq, hNone hNot.pred, List.nil_append]
      exact labelsEmitted_looped
  | kil hNot hKil hEq =>
      rw [hEq, hNone hNot.pred, List.nil_append]
      rfl
  | none hNot hFlow hKil hPlan hEq =>
      rw [hEq, hNone hNot.pred, List.nil_append]
  | plan hNot hFlow hKil plan hPlan hEq =>
      rw [hEq, hNone hNot.pred, List.nil_append]
      exact (sameLabels_planned _).emitted

/-
  The first instruction is marked if `seen` holds; no other
  one is.
-/
structure Ahead
    (seen : Bool)
    (insts : List ShaderInstruction)
    (e : SpirvEmitter) : Prop where
  head :
    ∀ inst ∈ insts.head?,
      inst.pc ∈ e.cfgState.labelsEmitted ↔ seen = true
  tail :
    ∀ inst ∈ insts.tail,
      ∀ q ∈ e.cfgState.labelsEmitted, q < inst.pc

variable {seen : Bool} {rest : List ShaderInstruction}

theorem mem_startLabels
    {q : Nat}
    (hQ : q ∈ startLabels cfg inst.pc e) :
    q = inst.pc := by
  unfold startLabels at hQ
  split_ifs at hQ
  · exact List.mem_singleton.mp hQ
  · cases hQ

/- A step marks what follows a guarded branch. -/
theorem Ahead.step
    (hAhead : Ahead seen (inst :: rest) e)
    (hPcs :
      (inst :: rest).Pairwise (fun a b => a.pc < b.pc)) :
    Ahead (isPredBra inst) rest
      (stepped cfg m inst rest.head? e) := by
  have hMarks :
      (stepped cfg m inst rest.head? e).cfgState.labelsEmitted =
        endLabels inst rest.head? ++
          (startLabels cfg inst.pc e ++
            e.cfgState.labelsEmitted) := by
    unfold stepped
    rw [labelsEmitted_advanced, labelsEmitted_blockLabelled]
  rcases List.pairwise_cons.mp hPcs with ⟨hFirst, hRest⟩
  have hOld :
      ∀ i ∈ rest, ∀ q ∈ startLabels cfg inst.pc e ++
        e.cfgState.labelsEmitted, q < i.pc := by
    intro i hI q hQ
    rcases List.mem_append.mp hQ with hQ | hQ
    · rw [mem_startLabels hQ]
      exact hFirst i hI
    · exact hAhead.tail i hI q hQ
  refine ⟨?_, ?_⟩
  · intro n hN
    have hMem : n ∈ rest := List.mem_of_mem_head? hN
    rw [Option.mem_def] at hN
    rw [hMarks, List.mem_append]
    have hNot : n.pc ∉ startLabels cfg inst.pc e ++
        e.cfgState.labelsEmitted :=
      fun hQ => lt_irrefl _ (hOld n hMem n.pc hQ)
    unfold endLabels falsePc
    rw [hN]
    by_cases hPred : isPredBra inst = true
    · simp [hPred]
    · simp [hPred, hNot]
  · intro n hN q hQ
    have hMem : n ∈ rest := List.mem_of_mem_tail hN
    rw [hMarks, List.mem_append] at hQ
    rcases hQ with hQ | hQ
    · unfold endLabels at hQ
      split_ifs at hQ
      · rw [List.mem_singleton] at hQ
        subst hQ
        cases rest with
        | nil => cases hN
        | cons next rest =>
            exact (List.pairwise_cons.mp hRest).1 n hN
      · cases hQ
    · exact hOld n hMem q hQ

/- The loop, by induction over the instructions. -/
theorem marks_streamed :
    ∀ (insts : List ShaderInstruction) (seen : Bool)
      (D : List Nat) (e : SpirvEmitter),
      (∀ inst ∈ insts, StepFits tex strict e inst) →
        insts.Pairwise (fun a b => a.pc < b.pc) →
          Ahead seen insts e →
            Marks tex strict m D
              (D ++ labelEvents cfg.blockStarts seen insts)
              e (streamed cfg m insts e) := by
  intro insts
  induction insts with
  | nil =>
      intro seen D e _ _ _
      rw [labelEvents, List.append_nil]
      exact Marks.refl
  | cons inst rest ih =>
      intro seen D e hFits hPcs hAhead
      have hStep :
          Marks tex strict m D
            (D ++ startLabels cfg inst.pc e ++
              endLabels inst rest.head?)
            e (stepped cfg m inst rest.head? e) :=
        marks_stepped (hFits inst List.mem_cons_self)
      have hStart :
          startLabels cfg inst.pc e =
            if inst.pc ∈ cfg.blockStarts ∧ seen = false then
              [inst.pc]
            else [] := by
        have hHead := hAhead.head inst rfl
        simp only [startLabels, hHead, Bool.not_eq_true]
      have hRest :=
        ih (isPredBra inst)
          (D ++ startLabels cfg inst.pc e ++
            endLabels inst rest.head?)
          (stepped cfg m inst rest.head? e)
          (fun i hI =>
            (hFits i (List.mem_cons_of_mem inst hI)).step)
          (List.pairwise_cons.mp hPcs).2 (hAhead.step hPcs)
      have hAll := hStep.trans hRest
      rw [hStart, endLabels, List.append_assoc,
        List.append_assoc] at hAll
      rw [labelEvents, List.append_assoc]
      exact hAll

------
-- Offsets With Two Labels
------

/-
  Offsets labelled in front of an instruction: block starts,
  and what follows a predicated branch.
-/
def labelledPcs (starts : List Nat) :
    List ShaderInstruction → List Nat
| [] => []
| [_] => []
| a :: b :: rest =>
    (if isPredBra a ∨ b.pc ∈ starts then [b.pc] else []) ++
      labelledPcs starts (b :: rest)

/- The offset labelled behind the last instruction. -/
def lastFall (insts : List ShaderInstruction) : List Nat :=
  insts.getLast?.toList.flatMap fun last =>
    if isPredBra last then [nextPc last.pc] else []

/-
  The last instruction does not fall through to an offset
  that has its label already.
-/
def EndsFresh (p : ShaderProgram) : Prop :=
  ∀ last ∈ p.instructions.getLast?, isPredBra last = true →
    nextPc last.pc ∉
      labelledPcs (buildCfg p).blockStarts p.instructions

instance (p : ShaderProgram) : Decidable (EndsFresh p) :=
  match hLast : p.instructions.getLast? with
  | none =>
      isTrue (by
        intro last hMem
        rw [hLast] at hMem
        cases hMem)
  | some last =>
      decidable_of_iff
        (isPredBra last = true →
          nextPc last.pc ∉
            labelledPcs (buildCfg p).blockStarts
              p.instructions) (by
        unfold EndsFresh
        rw [hLast]
        simp)

/- Labels of a program, by what they precede or follow. -/
theorem labelEvents_cons
    (starts : List Nat) :
    ∀ (rest : List ShaderInstruction)
      (inst : ShaderInstruction) (seen : Bool),
      labelEvents starts seen (inst :: rest) =
        (if inst.pc ∈ starts ∧ seen = false then [inst.pc]
          else []) ++ labelledPcs starts (inst :: rest) ++
            lastFall (inst :: rest) := by
  intro rest
  induction rest with
  | nil =>
      intro inst seen
      simp [labelEvents, labelledPcs, lastFall, falsePc]
  | cons next rest ih =>
      intro inst seen
      have hLast :
          lastFall (inst :: next :: rest) =
            lastFall (next :: rest) := by
        unfold lastFall
        rw [List.getLast?_cons_cons]
      rw [labelEvents, ih, labelledPcs, hLast]
      by_cases hPred : isPredBra inst = true <;>
        by_cases hStart : next.pc ∈ starts <;>
          simp [hPred, hStart, falsePc]

theorem sublist_labelledPcs
    (starts : List Nat) :
    ∀ insts : List ShaderInstruction,
      (labelledPcs starts insts).Sublist
        (insts.tail.map (·.pc)) := by
  intro insts
  induction insts with
  | nil => exact List.Sublist.refl _
  | cons a rest ih =>
      cases rest with
      | nil => exact List.Sublist.refl _
      | cons b rest =>
          unfold labelledPcs
          split_ifs
          · exact ih.cons_cons b.pc
          · exact ih.cons b.pc

/- The first instruction counts as labelled. -/
theorem labelEvents_seen
    (starts : List Nat)
    (insts : List ShaderInstruction) :
    labelEvents starts true insts =
      labelledPcs starts insts ++ lastFall insts := by
  cases insts with
  | nil => rfl
  | cons inst rest => simp [labelEvents_cons]

/- Only the last label can be a second one. -/
theorem nodup_labelEvents_iff
    (p : ShaderProgram)
    (hPcs :
      p.instructions.Pairwise (fun a b => a.pc < b.pc)) :
    (labelEvents (buildCfg p).blockStarts true
      p.instructions).Nodup ↔ EndsFresh p := by
  have hNodup :
      (labelledPcs (buildCfg p).blockStarts
        p.instructions).Nodup := by
    refine (sublist_labelledPcs _ _).nodup ?_
    have hMap :
        (p.instructions.tail.map (·.pc)).Pairwise (· < ·) :=
      List.pairwise_map.mpr
        (hPcs.sublist (List.tail_sublist _))
    exact hMap.imp fun h => Nat.ne_of_lt h
  unfold EndsFresh
  rw [labelEvents_seen, List.nodup_append]
  unfold lastFall
  cases p.instructions.getLast? with
  | none => simp [hNodup]
  | some last =>
      by_cases hPred : isPredBra last = true
      · simp only [Option.toList_some, List.flatMap_singleton,
          hPred, if_true, List.nodup_singleton,
          List.mem_singleton, forall_eq, hNodup, true_and,
          Option.mem_def, Option.some.injEq, forall_eq',
          forall_true_left]
        constructor
        · intro hNe hMem
          exact hNe _ hMem rfl
        · intro hNot x hX hEq
          exact hNot (hEq ▸ hX)
      · simp [hPred, hNodup]

------
-- The Whole Module
------

open Prefixes

variable {p : ShaderProgram}

/- Inside the function ids are used behind their definition. -/
def UseOk (a : List SpirvInst) (i : SpirvInst) : Prop :=
  (∃ f ∈ a, f.opcode = SpirvOp.Function) →
    ∀ x ∈ i.uses, x ∈ resultsOf a

instance (a : List SpirvInst) (i : SpirvInst) :
    Decidable (UseOk a i) :=
  inferInstanceAs (Decidable (_ → _))

/- What is checked of the ids of a head. -/
def HeadIdsOk (kind : StageKind) (tex : Bool) : Prop :=
  let Γ := preambleCode kind tex
  (resultsOf Γ).Nodup ∧
    (∀ i ∈ Γ, ∀ x ∈ i.ids,
      0 < x ∧ x < (preambleOf kind tex).nextId) ∧
      Checked UseOk [] Γ

instance (kind : StageKind) (tex : Bool) :
    Decidable (HeadIdsOk kind tex) :=
  inferInstanceAs (Decidable (_ ∧ _ ∧ _))

theorem headIdsOk (kind : StageKind) (tex : Bool) :
    HeadIdsOk kind tex := by
  cases kind <;> cases tex <;> decide +kernel

/- A new emitter has a texture only if the module uses it. -/
theorem tex_preambled_new
    (hTex : p.usesTextures = false) :
    (preambled p {}).texSampledImageVar = 0 := by
  rw [preambled_kindOf, hTex]
  cases kindOf p.stage <;> rfl

theorem stepFits_atLoop
    (inst : ShaderInstruction) :
    StepFits (p.usesTextures = true) False
      (atLoop p (preambled p {})) inst := by
  have hHead :
      (atLoop p (preambled p {})).headIds =
        (preambled p {}).headIds :=
    (adds_atLoop frameForms_sized p).headIds
  have hTex :
      (atLoop p (preambled p {})).texSampledImageVar =
        (preambled p {}).texSampledImageVar :=
    congrArg HeadIds.texSampledImageVar hHead
  refine ⟨?_, fun _ _ h => h.elim⟩
  intro plan _ _ hVar
  by_contra hNot
  rw [hTex, tex_preambled_new (Bool.eq_false_of_not_eq_true
    hNot)] at hVar
  exact hVar rfl

/- No label but the entry's is there in front of the loop. -/
theorem labelInv_atLoop
    (hState : e.cfgState = {})
    (hUnique : (resultsOf Γ).Nodup) :
    LabelInv [] Γ (atLoop p e) := by
  have hNone :
      ∀ q, (atLoop p e).cfgState.pcToLabel q = none := by
    intro q
    rw [cfgState_atLoop]
    show e.cfgState.pcToLabel q = none
    rw [hState]
  refine ⟨?_, ?_, ?_, ?_, iff_of_true hUnique List.nodup_nil⟩
  · intro q q' id hId
    rw [hNone] at hId
    cases hId
  · intro q id hId
    rw [hNone] at hId
    cases hId
  · intro q hQ
    cases hQ
  · intro q hQ
    cases hQ

theorem ahead_atLoop
    (hState : e.cfgState = {})
    (hPcs :
      p.instructions.Pairwise (fun a b => a.pc < b.pc)) :
    Ahead true p.instructions (atLoop p e) := by
  have hEmitted :
      (atLoop p e).cfgState.labelsEmitted =
        (p.instructions.head?.map (·.pc)).toList := by
    rw [cfgState_atLoop]
    unfold entered
    rw [hState, List.append_nil]
  refine ⟨?_, ?_⟩
  · intro inst hInst
    rw [hEmitted, hInst]
    simp
  · intro inst hInst q hQ
    rw [hEmitted] at hQ
    cases hInsts : p.instructions with
    | nil =>
        rw [hInsts] at hInst
        cases hInst
    | cons first rest =>
        rw [hInsts] at hInst hQ hPcs
        have hFirst : q = first.pc := by simpa using hQ
        rw [hFirst]
        exact (List.pairwise_cons.mp hPcs).1 inst hInst

theorem adds_frame_plain
    (p : ShaderProgram)
    (e : SpirvEmitter) :
    Adds (Shaped PlainShape) (entered p e) (atLoop p e) := by
  have hVariable : PlainShape SpirvOp.Variable 3 := by decide
  have hLoad : PlainShape SpirvOp.Load 3 := by decide
  have hStore : PlainShape SpirvOp.Store 2 := by decide
  exact adds_frame (fun _ _ => hVariable) (fun _ _ _ => hLoad)
    (fun _ _ => hStore) p

/- The code of the function, and when its ids are unique. -/
theorem grown_behindLoop
    (p : ShaderProgram)
    (hPcs :
      p.instructions.Pairwise (fun a b => a.pc < b.pc)) :
    ∃ code,
      Grown (p.usesTextures = true) False
        (gprMapOf p (entered p (preambled p {})))
        (preambleCode (kindOf p.stage) p.usesTextures)
        (preambled p {}) (behindLoop p (preambled p {}))
        code ∧
      ((resultsOf
        (preambleCode (kindOf p.stage) p.usesTextures ++
          code)).Nodup ↔ EndsFresh p) := by
  have hState := cfgState_preambled p {}
  have hScope := scope_preambled p {}
  have hUnique := (headIdsOk (kindOf p.stage) p.usesTextures).1
  have hEntry :
      Grown (p.usesTextures = true) False (fun _ => none)
        (preambleCode (kindOf p.stage) p.usesTextures)
        (preambled p {}) (entered p (preambled p {}))
        [labelInst (preambled p {}).nextId] :=
    hScope.grow_entered
  have hFrame :
      ∃ code,
        Grown (p.usesTextures = true) False
          (gprMapOf p (entered p (preambled p {}))) _
          (entered p (preambled p {}))
          (atLoop p (preambled p {})) code :=
    hEntry.scope.grow_frame ((ioScope_preambled p {}).append _)
  rcases hFrame with ⟨b, hB⟩
  have hPlain :=
    hB.form (adds_frame_plain p (preambled p {}))
      fun i hI => hI.1
  have hEntryUnique :
      (resultsOf
        (preambleCode (kindOf p.stage) p.usesTextures ++
          [labelInst (preambled p {}).nextId])).Nodup := by
    rw [resultsOf_append]
    refine List.nodup_append.mpr
      ⟨hUnique, List.nodup_singleton _, ?_⟩
    intro x hX y hY hEq
    have hLt := hScope.fresh x hX
    have hNew : y = (preambled p {}).nextId :=
      List.mem_singleton.mp hY
    omega
  have hFrameUnique :=
    (nodup_resultsOf_append hB.checked
      fun i hI => (hPlain i hI).2).mpr hEntryUnique
  have hLoop :
      Marks (p.usesTextures = true) False
        (gprMapOf p (entered p (preambled p {}))) []
        ([] ++ labelEvents (buildCfg p).blockStarts true
          p.instructions) (atLoop p (preambled p {}))
        (behindLoop p (preambled p {})) :=
    marks_streamed _ _ _ _ (fun i _ => stepFits_atLoop i) hPcs
      (ahead_atLoop hState hPcs)
  rcases hLoop _ hB.scope
    (labelInv_atLoop hState hFrameUnique) with ⟨c, hC, hInv⟩
  refine ⟨_, hEntry.trans (hB.trans hC), ?_⟩
  rw [← nodup_labelEvents_iff p hPcs, ← List.append_assoc,
    ← List.append_assoc]
  exact hInv.unique

theorem ids_endCode (p : ShaderProgram) :
    ∀ i ∈ endCode p, i.ids = [] := by
  unfold endCode
  split_ifs <;> decide

theorem results_endCode (p : ShaderProgram) :
    resultsOf (endCode p) = [] := by
  unfold endCode
  split_ifs <;> decide

/- Ids of a module lie below its bound. -/
theorem range_moduleOf
    (hGrown :
      Grown tex strict m Γ (preambled p e)
        (behindLoop p (preambled p e)) code) :
    ∀ i ∈ moduleOf p code, ∀ x ∈ i.ids,
      0 < x ∧ x < (emitted p e).bound := by
  have hBound := nextId_le_bound_emitted p e
  have hNext :
      (emitted p e).nextId =
        (behindLoop p (preambled p e)).nextId := by
    rw [emitted_eq, nextId_pushed, Nat.add_zero]
  have hLe := hGrown.nextId
  intro i hI x hX
  unfold moduleOf at hI
  rw [List.mem_append, List.mem_append] at hI
  rcases hI with (hI | hI) | hI
  · have hHead :=
      (headIdsOk (kindOf p.stage) p.usesTextures).2.1
        i hI x hX
    rw [← (sameHead_preambled p e).nextId] at hHead
    omega
  · have hCode := hGrown.range i hI x hX
    omega
  · rw [ids_endCode p i hI] at hX
    cases hX

/- Ids of a module are defined in front of their uses. -/
theorem defined_moduleOf
    (hChecked :
      Checked (InstOk strict)
        (preambleCode (kindOf p.stage) p.usesTextures) code) :
    Checked UseOk [] (moduleOf p code) := by
  unfold moduleOf
  rw [checked_append, checked_append, List.nil_append]
  refine ⟨⟨(headIdsOk _ _).2.2, ?_⟩, ?_⟩
  · exact hChecked.mono fun _ _ hOk _ => hOk.uses
  · apply checked_of_forall
    intro a i hI _ x hX
    have hIds : x ∈ i.ids := by
      unfold SpirvInst.ids
      exact List.mem_append_left _ (List.mem_append_right _ hX)
    rw [ids_endCode p i hI] at hIds
    cases hIds

/- Ids of a module are valid if none is defined twice. -/
theorem idsValid_emit_iff
    (hGrown :
      Grown tex strict m
        (preambleCode (kindOf p.stage) p.usesTextures)
        (preambled p e) (behindLoop p (preambled p e)) code) :
    IdsValid (emit e p) ↔
      (resultsOf
        (preambleCode (kindOf p.stage) p.usesTextures ++
          code)).Nodup := by
  have hBound :
      (emit e p)[3]? = some (emitted p e).bound := by
    rw [emit_eq_moduleOf hGrown.words]
    rfl
  have hResults :
      resultsOf (moduleOf p code) =
        resultsOf
          (preambleCode (kindOf p.stage) p.usesTextures ++
            code) := by
    have hEnd := results_endCode p
    unfold moduleOf
    rw [resultsOf_append, hEnd, List.append_nil]
  rw [idsValid_iff
    (instructionsOf_emit hGrown.sized hGrown.words) hBound,
    ← hResults]
  constructor
  · exact fun hValid => hValid.unique
  · intro hNodup
    refine ⟨hNodup, range_moduleOf hGrown, ?_⟩
    intro a i b hSplit
    have hChecked := defined_moduleOf hGrown.checked
    rw [hSplit] at hChecked
    exact hChecked.at

/-
  The ids a new emitter gives a program are valid exactly when
  its last instruction does not fall through, in 32 bits, to a
  label that is already there.
-/
theorem emit_idsValid_iff
    (p : ShaderProgram)
    (hPcs :
      p.instructions.Pairwise (fun a b => a.pc < b.pc)) :
    IdsValid (emit {} p) ↔ EndsFresh p := by
  rcases grown_behindLoop p hPcs with ⟨code, hGrown, hUnique⟩
  rw [idsValid_emit_iff hGrown, hUnique]

/- A guarded branch at the given offset. -/
def guardedBra (pc : Nat) : ShaderInstruction :=
  { opcode := .BRA, predGuard := true, pc := pc }

/- Two guarded branches. -/
def twoBranches : ShaderProgram :=
  { instructions := [guardedBra 0, guardedBra 8] }

theorem twoBranches_idsValid :
    twoBranches.instructions.Pairwise
        (fun a b => a.pc < b.pc) ∧
      IdsValid (emit {} twoBranches) := by
  have hPcs :
      twoBranches.instructions.Pairwise
        (fun a b => a.pc < b.pc) := by
    decide
  exact ⟨hPcs, (emit_idsValid_iff twoBranches hPcs).mpr
    (by decide)⟩

/-
  Three guarded branches, the last one at the top of the
  offsets: it falls through to the second one.
-/
def wrappingBranches : ShaderProgram :=
  { instructions :=
      [guardedBra 3, guardedBra 5, guardedBra 0xFFFFFFFD] }

theorem wrappingBranches_not_idsValid :
    wrappingBranches.instructions.Pairwise
        (fun a b => a.pc < b.pc) ∧
      ¬ IdsValid (emit {} wrappingBranches) := by
  have hPcs :
      wrappingBranches.instructions.Pairwise
        (fun a b => a.pc < b.pc) := by
    decide
  refine ⟨hPcs, ?_⟩
  rcases grown_behindLoop wrappingBranches hPcs with
    ⟨code, hGrown, hUnique⟩
  rw [idsValid_emit_iff hGrown, hUnique]
  decide

end SpirvEmitter

end M1Switch
