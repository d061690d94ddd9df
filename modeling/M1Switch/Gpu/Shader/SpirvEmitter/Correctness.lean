import M1Switch.Gpu.Shader.MaxwellDecoder
import M1Switch.Gpu.Shader.SpirvEmitter.Regions

/-
  The emission loop over a decoded program, and which emitted
  programs have all their labels.

  Key definitions include:
    * `SpirvEmitter.LoopAt`
    * `SpirvEmitter.LoopDone`

  Main results:
    * `loopDone_streamed`
    * `emit_labelsResolved_iff`
-/

------
-- Offsets Of A Laid Out Program
------

namespace M1Switch

namespace SpirvEmitter

/- Instructions at increasing offsets, none at the top. -/
structure LaidOut (insts : List ShaderInstruction) :
    Prop where
  increasing : insts.Pairwise (fun a b => a.pc < b.pc)
  bound : ∀ inst ∈ insts, inst.pc + 8 < 2 ^ 32

variable {p : ShaderProgram} {inst : ShaderInstruction}
variable {pre rest : List ShaderInstruction} {q : Nat}

/- What follows a decoded instruction lies behind it. -/
theorem lt_falsePc
    (hLaid : LaidOut (inst :: rest)) :
    inst.pc < falsePc inst rest.head? := by
  cases rest with
  | nil =>
      have hBound := hLaid.bound inst List.mem_cons_self
      simp only [falsePc, List.head?_nil, nextPc]
      omega
  | cons following rest =>
      exact (List.pairwise_cons.mp hLaid.increasing).1
        following List.mem_cons_self

/- What follows an instruction is no later than the rest. -/
theorem falsePc_le
    (hLaid : LaidOut (inst :: rest)) :
    ∀ i ∈ rest, falsePc inst rest.head? ≤ i.pc := by
  intro i hI
  cases rest with
  | nil => cases hI
  | cons following rest =>
      have hRest := (List.pairwise_cons.mp
        (List.pairwise_cons.mp hLaid.increasing).2).1
      rcases List.mem_cons.mp hI with hEq | hI
      · exact hEq ▸ le_refl _
      · exact le_of_lt (hRest i hI)

theorem LaidOut.tail
    (hLaid : LaidOut (inst :: rest)) :
    LaidOut rest :=
  ⟨(List.pairwise_cons.mp hLaid.increasing).2,
    fun i hI => hLaid.bound i (List.mem_cons_of_mem _ hI)⟩

/- Only the first instruction has the entry offset. -/
theorem mem_tail_iff
    (hLaid : LaidOut p.instructions)
    (hMem : inst ∈ p.instructions) :
    inst.pc ∈ p.instructions.tail.map (·.pc) ↔
      entryPc p ≠ some inst.pc := by
  unfold entryPc
  cases hInsts : p.instructions with
  | nil =>
      rw [hInsts] at hMem
      cases hMem
  | cons first others =>
      rw [hInsts] at hLaid hMem
      have hLt := (List.pairwise_cons.mp hLaid.increasing).1
      simp only [List.tail_cons, List.head?_cons,
        Option.map_some, ne_eq, Option.some.injEq]
      constructor
      · intro hIn hEq
        rcases List.mem_map.mp hIn with ⟨i, hI, hPc⟩
        have := hLt i hI
        omega
      · intro hNe
        rcases List.mem_cons.mp hMem with hEq | hIn
        · exact absurd (hEq ▸ rfl) hNe
        · exact List.mem_map_of_mem hIn

/- The entry offset is the least one. -/
theorem entryPc_le
    (hLaid : LaidOut p.instructions)
    (hMem : inst ∈ p.instructions)
    (hEntry : entryPc p = some q) :
    q ≤ inst.pc := by
  unfold entryPc at hEntry
  cases hInsts : p.instructions with
  | nil =>
      rw [hInsts] at hMem
      cases hMem
  | cons first others =>
      rw [hInsts] at hLaid hMem hEntry
      have hLt := (List.pairwise_cons.mp hLaid.increasing).1
      have hFirst : first.pc = q := by simpa using hEntry
      rcases List.mem_cons.mp hMem with hEq | hIn
      · rw [hEq, hFirst]
      · have := hLt inst hIn
        omega

/- The fallthroughs of a suffix lie behind its start. -/
theorem lt_of_mem_fallthroughs :
    ∀ {insts : List ShaderInstruction} {n : Nat},
      LaidOut insts → (∀ i ∈ insts, n ≤ i.pc) →
        ∀ q ∈ fallthroughs insts, n < q := by
  intro insts
  induction insts with
  | nil =>
      intro n _ _ q hQ
      cases hQ
  | cons inst rest ih =>
      intro n hLaid hLe q hQ
      have hHead := hLe inst List.mem_cons_self
      have hRest :
          ∀ q ∈ fallthroughs rest, n < q :=
        ih hLaid.tail fun i hI =>
          hLe i (List.mem_cons_of_mem _ hI)
      unfold fallthroughs at hQ
      split_ifs at hQ
      · rcases List.mem_cons.mp hQ with hEq | hQ
        · have := lt_falsePc hLaid
          omega
        · exact hRest q hQ
      · exact hRest q hQ

------
-- The Emission Loop
------

variable {n : Nat} {ft : List Nat}
variable {suffix : List ShaderInstruction}
variable {held : List (Nat × LabelRef)}

/-
  The loop stands before `suffix`: earlier instructions lie
  below `n` and have passed their fallthroughs `ft`.
-/
structure LoopAt
    (p : ShaderProgram)
    (n : Nat)
    (ft : List Nat)
    (suffix : List ShaderInstruction) : Prop where
  sub : ∀ i ∈ suffix, i ∈ p.instructions
  split : ∀ i ∈ p.instructions, i ∈ suffix ∨ i.pc < n
  le : ∀ i ∈ suffix, n ≤ i.pc
  laidOut : LaidOut suffix
  mem :
    ∀ q, q ∈ fallthroughs p.instructions ↔
      q ∈ ft ∨ q ∈ fallthroughs suffix
  ft_le : ∀ q ∈ ft, ∀ i ∈ suffix, q ≤ i.pc

/- The loop starts before the whole program. -/
theorem loopAt_start
    (hLaid : LaidOut p.instructions) :
    LoopAt p 0 [] p.instructions := by
  refine ⟨fun _ hI => hI, fun _ hI => Or.inl hI,
    fun _ _ => Nat.zero_le _, hLaid, ?_, ?_⟩
  · intro q
    simp
  · intro q hQ
    cases hQ

section Step

/- No label is set between two instructions. -/
theorem LoopAt.le_of_freshStart
    (hLoop : LoopAt p n ft (inst :: rest)) :
    ∀ q, FreshStart p q → n ≤ q → inst.pc ≤ q := by
  intro q hFresh hLe
  rcases List.mem_map.mp hFresh.2.1 with ⟨i, hTail, hPc⟩
  rcases hLoop.split i (List.mem_of_mem_tail hTail) with
    hIn | hLt
  · have hLaid := hLoop.laidOut.increasing
    rcases List.mem_cons.mp hIn with hEq | hIn
    · rw [← hPc, hEq]
    · have := (List.pairwise_cons.mp hLaid).1 i hIn
      omega
  · omega

/- The fallthroughs seen at an instruction are all there. -/
theorem LoopAt.mem_ft_iff
    (hLoop : LoopAt p n ft (inst :: rest)) :
    inst.pc ∈ ft ↔ inst.pc ∈ fallthroughs p.instructions := by
  rw [hLoop.mem inst.pc]
  constructor
  · exact Or.inl
  · intro hMem
    rcases hMem with hFt | hSuffix
    · exact hFt
    · have hLaid := hLoop.laidOut
      have hLe : ∀ i ∈ inst :: rest, inst.pc ≤ i.pc := by
        intro i hI
        rcases List.mem_cons.mp hI with hEq | hI
        · exact hEq ▸ le_refl _
        · exact le_of_lt
            ((List.pairwise_cons.mp hLaid.increasing).1 i hI)
      have := lt_of_mem_fallthroughs hLaid hLe _ hSuffix
      omega

/- A predicated branch sets the label of a new place. -/
theorem LoopAt.newFallthrough
    (hProgram : LaidOut p.instructions)
    (hLoop : LoopAt p n ft (inst :: rest))
    (hPred : isPredBra inst = true) :
    NewFallthrough p ft (falsePc inst rest.head?) := by
  have hLt := lt_falsePc hLoop.laidOut
  have hInst := hLoop.sub inst List.mem_cons_self
  refine ⟨?_, ?_, ?_⟩
  · rw [hLoop.mem]
    refine Or.inr ?_
    rw [fallthroughs, if_pos hPred]
    exact List.mem_cons_self
  · intro hEntry
    have := entryPc_le hProgram hInst hEntry
    omega
  · intro hFt
    have := hLoop.ft_le _ hFt inst List.mem_cons_self
    omega

/- The loop moves on behind an instruction. -/
theorem LoopAt.step
    (hLoop : LoopAt p n ft (inst :: rest)) :
    LoopAt p (inst.pc + 1)
      (passedFallthroughs inst rest.head? ft) rest := by
  have hLaid := hLoop.laidOut
  have hLt := (List.pairwise_cons.mp hLaid.increasing).1
  refine ⟨?_, ?_, hLt, hLaid.tail, ?_, ?_⟩
  · intro i hI
    exact hLoop.sub i (List.mem_cons_of_mem _ hI)
  · intro i hI
    rcases hLoop.split i hI with hIn | hBelow
    · rcases List.mem_cons.mp hIn with hEq | hIn
      · exact Or.inr (hEq ▸ Nat.lt_succ_self _)
      · exact Or.inl hIn
    · have := hLoop.le inst List.mem_cons_self
      exact Or.inr (by omega)
  · intro q
    rw [hLoop.mem q, passedFallthroughs, fallthroughs]
    split_ifs
    · simp only [List.mem_cons]
      exact ⟨fun h => by tauto, fun h => by tauto⟩
    · exact Iff.rfl
  · intro q hQ i hI
    have hOld :
        ∀ q ∈ ft, q ≤ i.pc := fun q hFt =>
      hLoop.ft_le q hFt i (List.mem_cons_of_mem _ hI)
    unfold passedFallthroughs at hQ
    split_ifs at hQ
    · rcases List.mem_cons.mp hQ with hEq | hQ
      · exact hEq ▸ falsePc_le hLaid i hI
      · exact hOld q hQ
    · exact hOld q hQ

end Step

/-
  The loop is through: all labels are set and `refs` are the
  references emitted.
-/
def LoopDone
    (p : ShaderProgram)
    (refs : List LabelRef)
    (e : SpirvEmitter) : Prop :=
  ∃ n ft regions,
    (∀ i ∈ p.instructions, i.pc < n) ∧
      (∀ q, q ∈ fallthroughs p.instructions ↔ q ∈ ft) ∧
        Inv p n ft [] regions refs e

/- The whole loop, by induction over the instructions. -/
theorem loopDone_streamed
    {gprMap : GprMap}
    (hProgram : LaidOut p.instructions) :
    ∀ (suffix : List ShaderInstruction) (n : Nat)
      (ft : List Nat) (regions : List OpenRegion)
      (refs : List LabelRef) (e : SpirvEmitter),
      LoopAt p n ft suffix →
        Inv p n ft [] regions refs e →
          LoopDone p
            (refs ++
              labelRefsFrom (buildCfg p) regions suffix)
            (streamed (buildCfg p) gprMap suffix e) := by
  intro suffix
  induction suffix with
  | nil =>
      intro n ft regions refs e hLoop hInv
      refine ⟨n, ft, regions, ?_, ?_, ?_⟩
      · intro i hI
        rcases hLoop.split i hI with hIn | hLt
        · cases hIn
        · exact hLt
      · intro q
        rw [hLoop.mem q]
        simp [fallthroughs]
      · rw [labelRefsFrom, List.append_nil]
        exact hInv
  | cons inst rest ih =>
      intro n ft regions refs e hLoop hInv
      have hInst := hLoop.sub inst List.mem_cons_self
      have hHere : Inv p inst.pc ft [] regions refs e :=
        hInv.advance (hLoop.le inst List.mem_cons_self)
          hLoop.le_of_freshStart
      have hStep :
          Inv p (inst.pc + 1)
            (passedFallthroughs inst rest.head? ft) []
            (stepRegions (buildCfg p) inst regions)
            (refs ++ instRefs inst rest.head? regions)
            (stepped (buildCfg p) gprMap inst rest.head? e) :=
        inv_stepped (mem_tail_iff hProgram hInst)
          hLoop.mem_ft_iff (hLoop.newFallthrough hProgram)
          hHere
      rw [labelRefsFrom, ← List.append_assoc, streamed]
      exact ih _ _ _ _ _ hLoop.step hStep

------
-- Around The Loop
------

variable {e : SpirvEmitter} {refs : List LabelRef}

/- No label has been set or reserved. -/
structure Blank (e : SpirvEmitter) : Prop where
  emitted :
    ∃ insts,
      EmittedAs insts e ∧ ∀ i ∈ insts, PlainOp i.opcode
  nextId : 0 < e.nextId
  pcToLabel : ∀ q, e.cfgState.pcToLabel q = none
  ssyStack : e.cfgState.ssyStack = []
  labelsEmitted : e.cfgState.labelsEmitted = []

/- Nothing in front of the entry label concerns labels. -/
theorem plainOp_preambleCode (kind : StageKind) (tex : Bool) :
    ∀ i ∈ preambleCode kind tex, PlainOp i.opcode := by
  cases kind <;> cases tex <;> decide +kernel

theorem blank_preambled
    (p : ShaderProgram)
    (e : SpirvEmitter) :
    Blank (preambled p e) := by
  have hPlain :=
    plainOp_preambleCode (kindOf p.stage) p.usesTextures
  have hWords :
      (preambled p e).words =
        headerWords ++
          encodeInsts
            (preambleCode (kindOf p.stage) p.usesTextures) := by
    rw [(sameHead_preambled p e).words, words_preambleOf]
  have hState := cfgState_preambled p e
  refine ⟨⟨_, ⟨⟨_, rfl, hWords⟩, ?_⟩, hPlain⟩,
    nextId_preambled_pos p e, ?_, ?_, ?_⟩
  · intro i hI
    exact (hPlain i hI).1
  all_goals rw [hState]
  intro q
  rfl

/- Behind the entry label the loop's invariant holds. -/
theorem Blank.enter
    (hBlank : Blank e) :
    Inv p 0 [] [] [] [] (entered p e) := by
  rcases hBlank.emitted with ⟨insts, hEmitted, hPlain⟩
  have hIds :
      labelIds (insts ++ [labelInst e.nextId]) =
        [e.nextId] := by
    rw [labelIds_append, labelIds_of_plain hPlain]
    rfl
  have hNone :
      ∀ q, (entered p e).cfgState.pcToLabel q = none :=
    hBlank.pcToLabel
  have hBound :
      ∀ q, q ∉ (labelTable p (insts ++ [labelInst e.nextId])
        (entered p e)).bound := by
    intro q hQ
    have hIn : q ∈ (entryPc p).toList ++
        e.cfgState.labelsEmitted := hQ.1
    rw [hBlank.labelsEmitted, List.append_nil,
      Option.mem_toList] at hIn
    exact hQ.2 hIn
  refine ⟨insts ++ [labelInst e.nextId],
    { emitted := hEmitted.label rfl
      wellFormed := ?_
      nextId := Nat.succ_pos _
      ids := ?_
      entry := ?_
      boundIds := fun q hQ => absurd hQ (hBound q)
      bound := ?_
      held := fun x hX => absurd hX List.not_mem_nil
      refs := ?_
      stack := ?_ }⟩
  · refine ⟨?_, ?_, ?_, ?_, ?_⟩
    · show (labelIds _).Nodup
      rw [hIds]
      exact List.nodup_singleton _
    · intro id hId
      change id ∈ labelIds _ at hId
      rw [hIds, List.mem_singleton] at hId
      subst hId
      exact Nat.lt_succ_self e.nextId
    · intro q id hId
      cases (hNone q).symm.trans hId
    · intro q _ id hId
      cases (hNone q).symm.trans hId
    · intro q id hId
      cases (hNone q).symm.trans hId
  · intro q id hId
    cases (hNone q).symm.trans hId
  · intro q hQ
    apply List.mem_append_left
    rw [Option.mem_toList]
    exact hQ
  · intro q
    simp [hBound q]
  · rw [labelRefIds_label, labelRefIds_of_plain hPlain]
    exact List.Forall₂.nil
  · have hStack :
        (entered p e).cfgState.ssyStack = [] :=
      hBlank.ssyStack
    rw [hStack]
    exact List.Forall₂.nil

/- The variables of registers concern no label. -/
theorem quiet_gprsDeclared
    (p : ShaderProgram)
    (e : SpirvEmitter) :
    Quiet e (gprsDeclared p e) := by
  have hVariable : PlainOp SpirvOp.Variable := by decide
  have hAdds :
      Adds (fun i => PlainOp i.opcode) e (gprsDeclared p e) :=
    adds_declared (fun _ _ => hVariable) _ _ _
  have hState : (gprsDeclared p e).cfgState = e.cfgState :=
    cfgState_declared _ _ e
  refine ⟨hAdds.words, hAdds.nextId, ?_, ?_, ?_⟩
  all_goals rw [hState]

/- Nor do the copies of the stage's inputs. -/
theorem quiet_ioCopied
    (stage : ShaderStage)
    (e : SpirvEmitter) :
    Quiet e (ioCopied stage e) := by
  apply quiet_pushed
  apply form_ioCode
  · intro _ _ _
    show PlainOp SpirvOp.Load
    decide
  · intro _ _
    show PlainOp SpirvOp.Store
    decide

/- The whole module. -/
theorem loopDone_emitted
    (hProgram : LaidOut p.instructions)
    (e : SpirvEmitter) :
    LoopDone p (labelRefs p) (emitted p e) := by
  have hAtLoop :
      Inv p 0 [] [] [] [] (atLoop p (preambled p e)) :=
    ((blank_preambled p e).enter.quiet
      (quiet_gprsDeclared p _)).quiet (quiet_ioCopied _ _)
  have hLoop :
      LoopDone p (labelRefs p)
        (behindLoop p (preambled p e)) :=
    loopDone_streamed hProgram _ 0 [] [] [] _
      (loopAt_start hProgram) hAtLoop
  have hEnd :
      Quiet (behindLoop p (preambled p e)) (emitted p e) := by
    rw [emitted_eq]
    apply quiet_pushed
    unfold endCode
    split_ifs <;> decide
  rcases hLoop with ⟨n, ft, regions, hAll, hFt, hInv⟩
  exact ⟨n, ft, regions, hAll, hFt, hInv.quiet hEnd⟩

------
-- Resolution
------

open MaxwellDecoder

variable {regions : List OpenRegion}
variable {insts : List SpirvInst}

/- Related lists meet related conditions alike. -/
theorem forall_mem_iff_of_forall₂
    {α β : Type}
    {R : α → β → Prop}
    {P : α → Prop}
    {Q : β → Prop}
    {as : List α}
    {bs : List β}
    (hRel : List.Forall₂ R as bs)
    (hIff : ∀ a b, R a b → (P a ↔ Q b)) :
    (∀ a ∈ as, P a) ↔ ∀ b ∈ bs, Q b := by
  induction hRel with
  | nil => simp
  | cons hHead _ ih =>
      simp only [List.forall_mem_cons, hIff _ _ hHead, ih]

/- An id is a label exactly when its reference is labelled. -/
theorem CfgInv.mem_labelIds_iff
    (hAll : ∀ i ∈ p.instructions, i.pc < n)
    (hFt : ∀ q, q ∈ fallthroughs p.instructions ↔ q ∈ ft)
    (hInv : CfgInv p n ft [] regions refs insts e)
    {id : Nat}
    {r : LabelRef}
    (hRef : HeldRef p n (labelTable p insts e) id r) :
    id ∈ labelIds insts ↔ Labelled p r := by
  have hMem :=
    LabelTable.mem_labels_iff_of_held hInv.wellFormed
      hRef.held
  have hBelow : FreshStart p r.target → r.target < n := by
    intro hFresh
    rcases List.mem_map.mp hFresh.2.1 with ⟨i, hI, hPc⟩
    have := hAll i (List.mem_of_mem_tail hI)
    omega
  refine hMem.trans ?_
  rw [hInv.bound, ← hFt]
  unfold Rebound Labelled
  constructor
  · intro hBoth
    rcases hBoth with ⟨hNot, hPassed | ⟨hFresh, hLt⟩⟩
    · exact Or.inl hPassed
    · refine Or.inr ⟨hFresh.1, hFresh.2.1, ?_⟩
      by_contra hLater
      exact hNot ⟨hFresh, by omega, hLt⟩
  · intro hLabelled
    by_cases hPassed :
        r.target ∈ fallthroughs p.instructions
    · exact ⟨fun hR => hR.1.2.2 hPassed, Or.inl hPassed⟩
    · rcases hLabelled with hIn | ⟨hStart, hTail, hLe⟩
      · exact absurd hIn hPassed
      · have hFresh : FreshStart p r.target :=
          ⟨hStart, hTail, hPassed⟩
        refine ⟨fun hR => ?_,
          Or.inr ⟨hFresh, hBelow hFresh⟩⟩
        have := hR.2.1
        omega

/- The labels of a finished loop. -/
theorem LoopDone.labelsResolved_iff
    (hDone : LoopDone p refs e)
    (bound : Nat) :
    LabelsResolved (e.words.set 3 bound) ↔
      ∀ r ∈ refs, Labelled p r := by
  rcases hDone with ⟨n, ft, regions, hAll, hFt, insts, hInv⟩
  rcases hInv.emitted.words with ⟨header, hHeader, hWords⟩
  have hInsts :
      instructionsOf (e.words.set 3 bound) = some insts := by
    apply instructionsOf_encode _ _ hInv.emitted.opcodes
    · exact header.set 3 bound
    · rw [List.length_set, hHeader]
    · rw [hWords, List.set_append_left _ _ (by omega)]
  rw [M1Switch.labelsResolved_iff hInsts]
  refine Iff.trans ?_ (forall_mem_iff_of_forall₂ hInv.refs
    fun id r => hInv.mem_labelIds_iff hAll hFt)
  have hNodup : (labelIds insts).Nodup :=
    hInv.wellFormed.labels_nodup
  constructor
  · intro hCount id hId
    rw [← List.count_pos_iff, hCount id hId]
    exact Nat.one_pos
  · intro hIn id hId
    exact List.count_eq_one_of_mem hNodup (hIn id hId)

/-
  The words emitted for a decoded program set every label they
  name exactly when each reference has its label.
-/
theorem emit_labelsResolved_iff
    (e : SpirvEmitter)
    (data : List U8)
    (stage : ShaderStage)
    (p : ShaderProgram)
    (hDecode : decode data stage = some p) :
    LabelsResolved (emit e p) ↔
      ∀ r ∈ labelRefs p, Labelled p r := by
  have hProgram : LaidOut p.instructions :=
    ⟨decode_pcs_increasing hDecode, decode_pc_bound hDecode⟩
  exact (loopDone_emitted hProgram e).labelsResolved_iff _

/- A predicated `BRA` to the next slot, then `EXIT`. -/
def branchToNext : List U8 :=
  [32, 16, 0, 0, 2, 0, 0, 0, 0, 16, 0, 0, 0, 0, 0, 0]

theorem branchToNext_labelsResolved :
    ∃ p, decode branchToNext .VertexB = some p ∧
      labelRefs p = [⟨8, 0⟩, ⟨8, 0⟩] ∧
        LabelsResolved (emit {} p) := by
  refine ⟨_, rfl, by decide +kernel, ?_⟩
  rw [emit_labelsResolved_iff {} branchToNext .VertexB _ rfl]
  decide +kernel

/-
  `SSY`, a predicated `BRA` over an `FADD` and the `SYNC` both
  lead to: the label of the `SYNC` is set under another id than
  the one the merge and the branch name.
-/
def branchOverFadd : List U8 :=
  [96, 80, 0, 0, 0, 0, 0, 0, 32, 48, 0, 0, 2, 0, 0, 0,
    32, 0, 0, 0, 0, 0, 0, 0, 128, 16, 0, 0, 0, 0, 0, 0,
    0, 16, 0, 0, 0, 0, 0, 0]

theorem branchOverFadd_not_labelsResolved :
    ∃ p, decode branchOverFadd .VertexB = some p ∧
      ¬ LabelsResolved (emit {} p) := by
  refine ⟨_, rfl, ?_⟩
  decide +kernel

end SpirvEmitter

end M1Switch
