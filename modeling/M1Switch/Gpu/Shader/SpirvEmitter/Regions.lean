import M1Switch.Gpu.Shader.SpirvEmitter.Forms

/-
  The instructions of the emission loop and the label
  invariant.

  Each step moves the open regions and the emitted label
  references as `stepRegions` and `instRefs` say.

  Main results:
    * `inv_opened`
    * `inv_predBranched`
    * `inv_stepped`
-/

------
-- Reserving And Naming Labels
------

namespace M1Switch

namespace SpirvEmitter

variable {p : ShaderProgram} {n : Nat} {ft : List Nat}
variable {held : List (Nat × LabelRef)}
variable {regions : List OpenRegion} {refs : List LabelRef}
variable {insts : List SpirvInst} {e : SpirvEmitter}

/- A reservation on the emitter is one on its table. -/
theorem labelTable_reserved
    (p : ShaderProgram)
    (insts : List SpirvInst)
    (q : Nat)
    (e : SpirvEmitter) :
    (labelIdOf q e, labelTable p insts (reserved q e)) =
      (labelTable p insts e).reserve q := by
  unfold labelIdOf reserved
  cases hQ : e.cfgState.pcToLabel q with
  | some id => simp [LabelTable.reserve, labelTable, hQ]
  | none => simp [LabelTable.reserve, labelTable, hQ]

/- What a reservation leaves alone. -/
theorem reserved_frame (q : Nat) (e : SpirvEmitter) :
    (reserved q e).words = e.words ∧
      (reserved q e).cfgState.ssyStack = e.cfgState.ssyStack ∧
      (reserved q e).cfgState.labelsEmitted =
        e.cfgState.labelsEmitted ∧
      e.nextId ≤ (reserved q e).nextId := by
  unfold reserved
  cases e.cfgState.pcToLabel q with
  | some id => exact ⟨rfl, rfl, rfl, le_refl _⟩
  | none =>
      exact ⟨List.append_nil _, rfl, rfl, Nat.le_succ _⟩

/-
  The instruction at `n` reserves the label of `q`: the id is
  held from here on.
-/
theorem inv_reserved
    (q : Nat)
    (hInv : Inv p (n + 1) ft held regions refs e) :
    Inv p (n + 1) ft ((labelIdOf q e, ⟨q, n⟩) :: held) regions
      refs (reserved q e) := by
  rcases hInv with ⟨insts, hInv⟩
  rcases reserved_frame q e with
    ⟨hWords, hStack, hLabels, hNext⟩
  have hReserve := labelTable_reserved p insts q e
  have hId :
      labelIdOf q e = ((labelTable p insts e).reserve q).1 :=
    congrArg Prod.fst hReserve
  have hTable :
      labelTable p insts (reserved q e) =
        ((labelTable p insts e).reserve q).2 :=
    congrArg Prod.snd hReserve
  have hIdOf :
      (reserved q e).cfgState.pcToLabel =
        ((labelTable p insts e).reserve q).2.idOf :=
    congrArg LabelTable.idOf hTable
  have hKeep :
      ∀ id r,
        HeldRef p (n + 1) (labelTable p insts e) id r →
          HeldRef p (n + 1)
            (labelTable p insts (reserved q e)) id r := by
    intro id r hHeld
    rw [hTable]
    exact ⟨hHeld.pos, hHeld.source_lt, hHeld.held.reserve q⟩
  have hIds :
      ∀ r id,
        (reserved q e).cfgState.pcToLabel r = some id →
          0 < id := by
    intro r id hR
    rw [hIdOf] at hR
    rcases LabelTable.idOf_reserve hR with hOld | hNew
    · exact hInv.ids r id hOld
    · rw [hNew]
      exact hInv.nextId
  have hBound :
      (labelTable p insts (reserved q e)).bound =
        (labelTable p insts e).bound := by
    rw [hTable, LabelTable.bound_reserve]
  have hSelf :
      (reserved q e).cfgState.pcToLabel q =
        some (labelIdOf q e) := by
    rw [hIdOf, hId]
    exact LabelTable.idOf_reserve_self _ q
  refine ⟨insts,
    { emitted := hInv.emitted.congr hWords
      wellFormed := ?_
      nextId := lt_of_lt_of_le hInv.nextId hNext
      ids := hIds
      entry := ?_
      boundIds := ?_
      bound := ?_
      held := ?_
      refs := hInv.refs.imp hKeep
      stack := ?_ }⟩
  · rw [hTable]
    exact hInv.wellFormed.reserve (hInv.boundIds q)
  · rw [hLabels]
    exact hInv.entry
  · intro r hR
    rw [hBound] at hR
    rcases Option.isSome_iff_exists.mp (hInv.boundIds r hR) with
      ⟨id, hOld⟩
    rw [hIdOf]
    exact
      Option.isSome_iff_exists.mpr
        ⟨id, LabelTable.idOf_reserve_of_some hOld⟩
  · rw [hBound]
    exact hInv.bound
  · intro x hX
    rcases List.mem_cons.mp hX with hX | hX
    · subst hX
      refine ⟨hIds q _ hSelf, Nat.lt_succ_self n, ?_⟩
      rw [hTable, hId]
      apply LabelTable.held_reserve_self
      rintro ⟨-, hBehind, hBefore⟩
      exact absurd hBefore (Nat.not_lt.mpr hBehind)
    · exact hKeep _ _ (hInv.held x hX)
  · rw [hStack]
    exact hInv.stack.imp fun _ _ => RegionHeld.mono hKeep

/- An instruction that names held ids. -/
theorem CfgInv.emitRefs
    {newRefs : List LabelRef}
    (hInv : CfgInv p n ft held regions refs insts e)
    (i : SpirvInst)
    (hOpcode : i.opcode < 2 ^ 16)
    (hLabels : i.labelIds = [])
    (hRefs :
      List.Forall₂ (HeldRef p n (labelTable p insts e))
        i.labelRefs newRefs) :
    CfgInv p n ft held regions (refs ++ newRefs)
      (insts ++ [i]) (e.pushed 0 [i]) := by
  have hTable :
      labelTable p (insts ++ [i]) (e.pushed 0 [i]) =
        labelTable p insts e := by
    have hIds : labelIds [i] = [] := by
      simp [labelIds, hLabels]
    unfold labelTable
    rw [labelIds_append, hIds, List.append_nil]
    rfl
  refine
    { emitted := ?_
      wellFormed := ?_
      nextId := hInv.nextId
      ids := hInv.ids
      entry := hInv.entry
      boundIds := ?_
      bound := ?_
      held := ?_
      refs := ?_
      stack := ?_ }
  · exact hInv.emitted.append rfl (by simpa using hOpcode)
  · rw [hTable]
    exact hInv.wellFormed
  · rw [hTable]
    exact hInv.boundIds
  · rw [hTable]
    exact hInv.bound
  · rw [hTable]
    exact hInv.held
  · have hNew : labelRefIds [i] = i.labelRefs := by
      simp [labelRefIds]
    rw [hTable, labelRefIds_append, hNew]
    exact List.rel_append hInv.refs hRefs
  · rw [hTable]
    exact hInv.stack

/- A branch reserves its label and names it. -/
theorem inv_branched
    (q : Nat)
    (hInv : Inv p (n + 1) ft held regions refs e) :
    Inv p (n + 1) ft held regions (refs ++ [⟨q, n⟩])
      (branched q e) := by
  rcases inv_reserved q hInv with ⟨insts, hNew⟩
  have hHeld := hNew.held _ List.mem_cons_self
  have hBranch :=
    hNew.emitRefs ⟨SpirvOp.Branch, [labelIdOf q e]⟩
      (show SpirvOp.Branch < 2 ^ 16 by decide) rfl
      (List.Forall₂.cons hHeld List.Forall₂.nil)
  refine Inv.weaken ⟨_, hBranch⟩ ?_
  intro x hX
  exact List.mem_cons_of_mem _ hX

------
-- Labels Of Blocks And Fallthroughs
------

variable {n c : Nat}

/- The emitter behind a block label. -/
def withBlockLabel (e : SpirvEmitter) (c : Nat) :
    SpirvEmitter :=
  { e.pushed 1 [labelInst e.nextId] with
    cfgState.pcToLabel :=
      Function.update e.cfgState.pcToLabel c (some e.nextId)
    cfgState.labelsEmitted :=
      c :: e.cfgState.labelsEmitted }

/- A block label binds its place afresh. -/
theorem labelTable_withBlockLabel
    (insts : List SpirvInst)
    (e : SpirvEmitter)
    (hEntry : entryPc p ≠ some c) :
    labelTable p (insts ++ [labelInst e.nextId])
        (withBlockLabel e c) =
      (labelTable p insts e).bindFresh c := by
  unfold labelTable LabelTable.bindFresh
  simp only [LabelTable.mk.injEq]
  refine ⟨rfl, rfl, bound_cons hEntry _, ?_⟩
  rw [labelIds_append]
  rfl

/- The place at `c` gets a label under a new id. -/
theorem CfgInv.blockLabel
    (hInv : CfgInv p c ft held regions refs insts e)
    (hFresh : FreshStart p c)
    (hEntry : entryPc p ≠ some c)
    (hFree : c ∉ (labelTable p insts e).bound) :
    CfgInv p (c + 1) ft held regions refs
      (insts ++ [labelInst e.nextId])
      (withBlockLabel e c) := by
  have hTable :=
    labelTable_withBlockLabel insts e hEntry
  have hKeep :
      ∀ id r, HeldRef p c (labelTable p insts e) id r →
        HeldRef p (c + 1)
          (labelTable p (insts ++ [labelInst e.nextId])
            (withBlockLabel e c)) id r := by
    intro id r hHeld
    rw [hTable]
    refine ⟨hHeld.pos, Nat.lt_succ_of_lt hHeld.source_lt, ?_⟩
    have hNew := hHeld.held.bindFresh hInv.wellFormed hFree
    exact hNew.congr (rebound_succ hFresh hHeld.source_lt)
  refine
    { emitted := hInv.emitted.label rfl
      wellFormed := ?_
      nextId := Nat.succ_pos _
      ids := ?_
      entry := fun q hQ =>
        List.mem_cons_of_mem c (hInv.entry q hQ)
      boundIds := ?_
      bound := ?_
      held := fun x hX => hKeep _ _ (hInv.held x hX)
      refs := ?_
      stack :=
        hInv.stack.imp fun _ _ => RegionHeld.mono hKeep }
  · rw [hTable]
    exact hInv.wellFormed.bindFresh c
  · intro q id hId
    have hUpdate :
        Function.update (labelTable p insts e).idOf c
          (some (labelTable p insts e).next) q = some id :=
      hId
    rcases LabelTable.update_eq_some hUpdate with
      ⟨_, hNew⟩ | ⟨_, hOld⟩
    · rw [hNew]
      exact hInv.nextId
    · exact hInv.ids q id hOld
  · rw [hTable]
    intro q hQ
    show (Function.update e.cfgState.pcToLabel c
      (some e.nextId) q).isSome
    by_cases hQc : q = c
    · simp [hQc]
    · rw [Function.update_of_ne hQc]
      exact hInv.boundIds q (hQ.resolve_left hQc)
  · rw [hTable]
    intro q
    show q = c ∨ q ∈ (labelTable p insts e).bound ↔ _
    rw [hInv.bound q]
    constructor
    · intro hQ
      rcases hQ with hQc | hFt | ⟨hStart, hLt⟩
      · subst hQc
        exact Or.inr ⟨hFresh, Nat.lt_succ_self _⟩
      · exact Or.inl hFt
      · exact Or.inr ⟨hStart, Nat.lt_succ_of_lt hLt⟩
    · intro hQ
      rcases hQ with hFt | ⟨hStart, hLt⟩
      · exact Or.inr (Or.inl hFt)
      · by_cases hQc : q = c
        · exact Or.inl hQc
        · exact Or.inr (Or.inr ⟨hStart, by omega⟩)
  · rw [labelRefIds_label]
    exact hInv.refs.imp hKeep

/-
  The block start check at `c`: a label is set exactly at the
  places that get a new id.
-/
theorem inv_blockLabelled
    (hTail :
      c ∈ p.instructions.tail.map (·.pc) ↔
        entryPc p ≠ some c)
    (hFt : c ∈ ft ↔ c ∈ fallthroughs p.instructions)
    (hInv : Inv p c ft held regions refs e) :
    Inv p (c + 1) ft held regions refs
      (blockLabelled (buildCfg p) c e) := by
  unfold blockLabelled
  rcases hInv with ⟨insts, hInv⟩
  have hBound :
      c ∈ (labelTable p insts e).bound ↔ c ∈ ft := by
    rw [hInv.bound c]
    simp
  have hEmitted :
      c ∉ e.cfgState.labelsEmitted ↔
        c ∉ ft ∧ entryPc p ≠ some c := by
    rw [← hBound]
    constructor
    · intro hNot
      refine ⟨fun hIn => hNot hIn.1, ?_⟩
      intro hEntry
      exact hNot (hInv.entry c hEntry)
    · intro hNot hIn
      exact hNot.1 ⟨hIn, hNot.2⟩
  have hStart :
      FreshStart p c ↔
        c ∈ (buildCfg p).blockStarts ∧
          c ∉ e.cfgState.labelsEmitted := by
    rw [hEmitted, hFt, ← hTail]
    unfold FreshStart
    exact ⟨fun h => ⟨h.1, h.2.2, h.2.1⟩,
      fun h => ⟨h.1, h.2.2, h.2.1⟩⟩
  by_cases hFresh : FreshStart p c
  · rw [if_pos (hStart.mp hFresh)]
    have hNew := hEmitted.mp (hStart.mp hFresh).2
    refine ⟨_, hInv.blockLabel hFresh hNew.2 ?_⟩
    rw [hBound]
    exact hNew.1
  · rw [if_neg (mt hStart.mpr hFresh)]
    refine Inv.advance ⟨insts, hInv⟩ (Nat.le_succ c) ?_
    intro q hQ hLe
    rcases Nat.lt_or_eq_of_le hLe with hLt | hEq
    · exact hLt
    · exact absurd (hEq ▸ hQ) hFresh

/- A predicated branch sets the label of a new place. -/
structure NewFallthrough
    (p : ShaderProgram)
    (ft : List Nat)
    (f : Nat) : Prop where
  mem : f ∈ fallthroughs p.instructions
  entry : entryPc p ≠ some f
  new : f ∉ ft

/- The emitter behind the label of a fallthrough. -/
def withFallthrough
    (e : SpirvEmitter)
    (id f : Nat) : SpirvEmitter :=
  { e.pushed 0 [labelInst id] with
    cfgState.labelsEmitted :=
      f :: e.cfgState.labelsEmitted }

/- A fallthrough binds its place under the reserved id. -/
theorem labelTable_withFallthrough
    {f : Nat}
    (insts : List SpirvInst)
    (e : SpirvEmitter)
    (id : Nat)
    (hEntry : entryPc p ≠ some f) :
    labelTable p (insts ++ [labelInst id])
        (withFallthrough e id f) =
      (labelTable p insts e).bind f id := by
  unfold labelTable LabelTable.bind
  simp only [LabelTable.mk.injEq]
  refine ⟨rfl, rfl, bound_cons hEntry _, ?_⟩
  rw [labelIds_append]
  rfl

/- The label of the place behind a predicated branch. -/
theorem inv_withFallthrough
    {id f source : Nat}
    (hNew : NewFallthrough p ft f)
    (hHeld : (id, ⟨f, source⟩) ∈ held)
    (hInv : Inv p n ft held regions refs e) :
    Inv p n (f :: ft) held regions refs
      (withFallthrough e id f) := by
  rcases hInv with ⟨insts, hInv⟩
  have hTable :=
    labelTable_withFallthrough insts e id hNew.entry
  have hNotFresh : ¬ FreshStart p f := by
    intro hFresh
    exact hFresh.2.2 hNew.mem
  have hId : (labelTable p insts e).idOf f = some id := by
    apply (hInv.held _ hHeld).held.2
    intro hRebound
    exact hNotFresh hRebound.1
  have hFree : f ∉ (labelTable p insts e).bound := by
    rw [hInv.bound f]
    intro hBound
    rcases hBound with hIn | ⟨hFresh, _⟩
    · exact hNew.new hIn
    · exact hNotFresh hFresh
  have hKeep :
      ∀ i r, HeldRef p n (labelTable p insts e) i r →
        HeldRef p n
          (labelTable p (insts ++ [labelInst id])
            (withFallthrough e id f)) i r := by
    intro i r hRef
    rw [hTable]
    exact ⟨hRef.pos, hRef.source_lt, hRef.held.bind hId⟩
  refine ⟨insts ++ [labelInst id],
    { emitted := hInv.emitted.label rfl
      wellFormed := ?_
      nextId := hInv.nextId
      ids := hInv.ids
      entry := fun q hQ =>
        List.mem_cons_of_mem f (hInv.entry q hQ)
      boundIds := ?_
      bound := ?_
      held := fun x hX => hKeep _ _ (hInv.held x hX)
      refs := ?_
      stack :=
        hInv.stack.imp fun _ _ => RegionHeld.mono hKeep }⟩
  · rw [hTable]
    exact hInv.wellFormed.bind hId hFree
  · rw [hTable]
    intro q hQ
    rcases hQ with hQf | hQ
    · rw [hQf]
      exact Option.isSome_iff_exists.mpr ⟨id, hId⟩
    · exact hInv.boundIds q hQ
  · rw [hTable]
    intro q
    show q = f ∨ q ∈ (labelTable p insts e).bound ↔ _
    rw [hInv.bound q, List.mem_cons, or_assoc]
  · rw [labelRefIds_label]
    exact hInv.refs.imp hKeep

------
-- Regions
------

/- Another stack that stands for other regions. -/
theorem CfgInv.setStack
    {regions' : List OpenRegion}
    {stack : List SsyStackEntry}
    (hInv : CfgInv p n ft held regions refs insts e)
    (hStack :
      List.Forall₂ (RegionHeld p n (labelTable p insts e))
        stack regions') :
    CfgInv p n ft held regions' refs insts
      { e with cfgState.ssyStack := stack } :=
  { emitted := hInv.emitted.congr rfl
    wellFormed := hInv.wellFormed
    nextId := hInv.nextId
    ids := hInv.ids
    entry := hInv.entry
    boundIds := hInv.boundIds
    bound := hInv.bound
    held := hInv.held
    refs := hInv.refs
    stack := hStack }

theorem inv_synced
    (pc : Nat)
    (hInv : Inv p n ft held regions refs e) :
    Inv p n ft held (closeRegion pc regions) refs
      (synced pc e) := by
  rcases hInv with ⟨insts, hInv⟩
  have hStack := hInv.stack
  unfold synced
  cases hEntries : e.cfgState.ssyStack with
  | nil =>
      rw [hEntries] at hStack
      cases hStack
      exact ⟨insts, hInv⟩
  | cons top rest =>
      rw [hEntries] at hStack
      cases hStack with
      | cons hTop hRest =>
          simp only [closeRegion, ← hTop.syncPc]
          split_ifs with hSync
          · exact ⟨insts, hInv.setStack hRest⟩
          · exact ⟨insts, hInv⟩

/- The continue label is held for loops. -/
theorem inv_continued
    {pair : SsySyncPair}
    (hPc : pair.ssyPc = n)
    (hInv : Inv p (n + 1) ft held regions refs e) :
    ∃ held',
      (∀ x ∈ held, x ∈ held') ∧
        (pair.type = .Loop →
          ((continued pair n e).1, ⟨continuePc pair, n⟩) ∈
            held') ∧
          Inv p (n + 1) ft held' regions refs
            (continued pair n e).2 := by
  unfold continued
  by_cases hLoop : pair.type = .Loop
  · have hTarget :
        (if pair.braTargetPc ≠ 0 then pair.braTargetPc
          else nextPc n) = continuePc pair := by
      rw [continuePc, hPc]
    rw [if_pos hLoop, hTarget]
    refine ⟨_, ?_, ?_, inv_reserved _ hInv⟩
    · intro x hX
      exact List.mem_cons_of_mem _ hX
    · intro _
      exact List.mem_cons_self
  · rw [if_neg hLoop]
    exact ⟨held, fun _ hX => hX,
      fun hType => absurd hType hLoop, hInv⟩

theorem inv_opened
    (hInv : Inv p (n + 1) ft held regions refs e) :
    Inv p (n + 1) ft held (openRegion (buildCfg p) n regions)
      refs (opened (buildCfg p) n e) := by
  unfold opened openRegion
  cases hFind : (buildCfg p).pairs.find? (·.ssyPc = n) with
  | none => exact hInv
  | some pair =>
      have hPc : pair.ssyPc = n := by
        have := List.find?_some hFind
        simpa using this
      rcases inv_continued hPc
          (inv_reserved pair.syncPc hInv) with
        ⟨held', hSub, hLoop, insts, hInv⟩
      have hMerge :=
        hInv.held _ (hSub _ List.mem_cons_self)
      refine Inv.weaken
        ⟨insts, hInv.setStack
          (List.Forall₂.cons ?_ hInv.stack)⟩ ?_
      · refine ⟨hPc.symm, rfl, rfl, ?_, ?_, ?_, ?_⟩
        · rw [hPc]
          exact hFind
        · intro hMerged
          cases hMerged
        · intro _
          rw [hPc]
          exact hMerge
        · intro hType
          rw [hPc]
          exact hInv.held _ (hLoop hType)
      · intro x hX
        exact hSub x (List.mem_cons_of_mem _ hX)

/- The deferred merge of a region names its labels. -/
theorem CfgInv.merge
    {top : SsyStackEntry}
    {r : OpenRegion}
    (hInv : CfgInv p n ft held regions refs insts e)
    (hTop : RegionHeld p n (labelTable p insts e) top r) :
    Inv p n ft held regions (refs ++ mergeRefs r)
      (e.pushed 0 (mergeCode top)) := by
  unfold mergeCode
  rw [hTop.type]
  cases hMerged : r.merged with
  | true =>
      have hZero := hTop.merged hMerged
      simp only [hZero, ne_eq, not_true_eq_false, false_and,
        if_false, mergeRefs, hMerged, if_true,
        List.append_nil, pushed_nil]
      exact ⟨insts, hInv⟩
  | false =>
      have hMerge := hTop.mergeHeld hMerged
      have hPos : top.mergeLabel ≠ 0 := by
        have := hMerge.pos
        omega
      cases hType : r.pair.type with
      | Selection =>
          rw [if_pos ⟨hPos, rfl⟩]
          simp only [mergeRefs, hMerged, hType]
          exact ⟨_, hInv.emitRefs
            ⟨SpirvOp.SelectionMerge, [top.mergeLabel, 0]⟩
            (show SpirvOp.SelectionMerge < 2 ^ 16 by decide)
            rfl
            (List.Forall₂.cons hMerge List.Forall₂.nil)⟩
      | Loop =>
          have hContinue := hTop.continueHeld hType
          rw [if_neg (by simp), if_pos ⟨hPos, rfl⟩]
          simp only [mergeRefs, hMerged, hType]
          exact ⟨_, hInv.emitRefs
            ⟨SpirvOp.LoopMerge,
              [top.mergeLabel, top.continueLabel, 0]⟩
            (show SpirvOp.LoopMerge < 2 ^ 16 by decide)
            rfl
            (List.Forall₂.cons hMerge
              (List.Forall₂.cons hContinue
                List.Forall₂.nil))⟩
      | Normal =>
          simp only [mergeRefs, hMerged, hType, reduceCtorEq,
            and_false, if_false, Bool.false_eq_true,
            List.append_nil, pushed_nil]
          exact ⟨insts, hInv⟩
      | Merge =>
          simp only [mergeRefs, hMerged, hType, reduceCtorEq,
            and_false, if_false, Bool.false_eq_true,
            List.append_nil, pushed_nil]
          exact ⟨insts, hInv⟩

/- A branched region needs no merge any more. -/
theorem RegionHeld.markMerged
    {T : LabelTable Nat}
    {top : SsyStackEntry}
    {r : OpenRegion}
    (hTop : RegionHeld p n T top r) :
    RegionHeld p n T { top with mergeLabel := 0 }
      { r with merged := true } := by
  refine ⟨hTop.ssyPc, hTop.syncPc, hTop.type, hTop.pair,
    fun _ => rfl, ?_, hTop.continueHeld⟩
  intro hMerged
  cases hMerged

theorem inv_merged
    (hInv : Inv p n ft held regions refs e) :
    Inv p n ft held (mergeRegion regions)
      (refs ++ deferredRefs regions) (merged e) := by
  rcases hInv with ⟨insts, hInv⟩
  have hStack := hInv.stack
  unfold merged
  cases hEntries : e.cfgState.ssyStack with
  | nil =>
      rw [hEntries] at hStack
      cases hStack
      simp only [mergeRegion, deferredRefs, List.append_nil]
      exact ⟨insts, hInv⟩
  | cons top rest =>
      rw [hEntries] at hStack
      cases hStack with
      | cons hTop hRest =>
          rcases hInv.merge hTop with ⟨insts', hMerge⟩
          have hNew := hMerge.stack
          rw [cfgState_pushed, hEntries] at hNew
          cases hNew with
          | cons hTop' hRest' =>
              exact ⟨insts', hMerge.setStack
                (List.Forall₂.cons hTop'.markMerged
                  hRest')⟩

------
-- Branches
------

variable {inst : ShaderInstruction}
variable {next : Option ShaderInstruction}

/- The load of a guard neither sets nor names a label. -/
theorem inv_guarded
    (inst : ShaderInstruction)
    (hInv : Inv p n ft held regions refs e) :
    Inv p n ft held regions refs
      (e.pushed (guardCode inst e).length
        (guardCode inst e)) := by
  refine hInv.quiet (quiet_pushed ?_)
  intro i hI
  unfold guardCode at hI
  split at hI
  · rw [List.mem_singleton] at hI
    rw [hI]
    show PlainOp SpirvOp.Load
    decide
  · cases hI

/- The conditional branch of two ids just reserved. -/
theorem inv_guardedBranch
    {trueId falseId : Nat}
    (cond : Nat)
    (hTrue : (trueId, ⟨inst.targetPc, inst.pc⟩) ∈ held)
    (hFalse : (falseId, ⟨falsePc inst next, inst.pc⟩) ∈ held)
    (hInv : Inv p n ft held regions refs e) :
    Inv p n ft held regions (refs ++ predBraRefs inst next)
      (e.pushed 0
        [guardedBranchInst inst cond trueId falseId]) := by
  rcases hInv with ⟨insts, hInv⟩
  have hTrueHeld := hInv.held _ hTrue
  have hFalseHeld := hInv.held _ hFalse
  have hOpcode : SpirvOp.BranchConditional < 2 ^ 16 := by
    decide
  unfold guardedBranchInst predBraRefs
  split_ifs
  · exact ⟨_, hInv.emitRefs
      ⟨SpirvOp.BranchConditional, [cond, falseId, trueId]⟩
      hOpcode rfl
      (List.Forall₂.cons hFalseHeld
        (List.Forall₂.cons hTrueHeld List.Forall₂.nil))⟩
  · exact ⟨_, hInv.emitRefs
      ⟨SpirvOp.BranchConditional, [cond, trueId, falseId]⟩
      hOpcode rfl
      (List.Forall₂.cons hTrueHeld
        (List.Forall₂.cons hFalseHeld List.Forall₂.nil))⟩

/- The label is the last instruction of the branch. -/
theorem predBranched_eq :
    predBranched inst next e =
      let e1 := merged e
      let e2 := reserved inst.targetPc e1
      let e3 := reserved (falsePc inst next) e2
      let falseId := labelIdOf (falsePc inst next) e2
      withFallthrough
        ((e3.pushed (guardCode inst e3).length
          (guardCode inst e3)).pushed 0
            [guardedBranchInst inst (guardId inst e3)
              (labelIdOf inst.targetPc e1) falseId])
        falseId (falsePc inst next) := by
  unfold predBranched withFallthrough
  dsimp only
  rw [pushed_pushed, pushed_pushed]
  rfl

theorem inv_predBranched
    (hNew : NewFallthrough p ft (falsePc inst next))
    (hInv : Inv p (inst.pc + 1) ft held regions refs e) :
    Inv p (inst.pc + 1) (falsePc inst next :: ft) held
      (mergeRegion regions)
      (refs ++ (deferredRefs regions ++ predBraRefs inst next))
      (predBranched inst next e) := by
  rw [predBranched_eq]
  have hReserved :=
    inv_reserved (falsePc inst next)
      (inv_reserved inst.targetPc (inv_merged hInv))
  have hBranched (cond : Nat) :=
    inv_guardedBranch cond
      (List.mem_cons_of_mem _ List.mem_cons_self)
      List.mem_cons_self (inv_guarded inst hReserved)
  dsimp only
  rw [← List.append_assoc]
  refine
    (inv_withFallthrough hNew List.mem_cons_self
      (hBranched _)).weaken ?_
  intro x hX
  exact List.mem_cons_of_mem _ (List.mem_cons_of_mem _ hX)

/- A `BREAK` leaves for the innermost region's end. -/
theorem inv_broken
    (hInv : Inv p (inst.pc + 1) ft held regions refs e) :
    Inv p (inst.pc + 1) ft held regions
      (refs ++ breakRefs inst regions) (broken e) := by
  rcases id hInv with ⟨insts, hCfg⟩
  have hStack := hCfg.stack
  unfold broken
  cases hEntries : e.cfgState.ssyStack with
  | nil =>
      rw [hEntries] at hStack
      cases hStack
      simp only [breakRefs, List.append_nil]
      exact hInv
  | cons top rest =>
      rw [hEntries] at hStack
      cases hStack with
      | cons hTop hRest =>
          simp only [breakRefs, ← hTop.syncPc]
          exact inv_branched top.syncPc hInv

/- A `CONT` goes to the loop's branch target. -/
theorem inv_looped
    (hInv : Inv p (inst.pc + 1) ft held regions refs e) :
    Inv p (inst.pc + 1) ft held regions
      (refs ++ contRefs inst regions)
      (looped (buildCfg p) e) := by
  rcases id hInv with ⟨insts, hCfg⟩
  have hStack := hCfg.stack
  unfold looped
  cases hEntries : e.cfgState.ssyStack with
  | nil =>
      rw [hEntries] at hStack
      cases hStack
      simp only [contRefs, List.append_nil]
      exact hInv
  | cons top rest =>
      rw [hEntries] at hStack
      cases hStack with
      | @cons _ r _ _ hTop hRest =>
          simp only [contRefs, hTop.type, hTop.ssyPc,
            hTop.pair]
          split_ifs with hLoop
          · exact inv_branched r.pair.braTargetPc hInv
          · rw [List.append_nil]
            exact hInv

------
-- One Iteration
------

variable {gprMap : GprMap}

/- Fallthroughs behind an instruction. -/
def passedFallthroughs
    (inst : ShaderInstruction)
    (next : Option ShaderInstruction)
    (ft : List Nat) : List Nat :=
  if isPredBra inst then falsePc inst next :: ft else ft

/- An instruction that is no branch names no label. -/
theorem instRefs_of_ne
    (hBra : inst.opcode ≠ .BRA)
    (hBreak : inst.opcode ≠ .BREAK)
    (hCont : inst.opcode ≠ .CONT) :
    instRefs inst next regions = [] := by
  simp [instRefs, isPlainBra, isPredBra, hBra, hBreak,
    hCont]

/- An instruction that is no branch passes nothing. -/
theorem passedFallthroughs_of_ne
    (hBra : inst.opcode ≠ .BRA) :
    passedFallthroughs inst next ft = ft := by
  simp [passedFallthroughs, isPredBra, hBra]

/- Any other instruction keeps the regions. -/
theorem stepRegions_of_ne
    {cfg : CfgAnnotation}
    (hSync : inst.opcode ≠ .SYNC)
    (hSsy : inst.opcode ≠ .SSY)
    (hPlain : isPlainBra inst = false)
    (hPred : isPredBra inst = false) :
    stepRegions cfg inst regions = regions := by
  simp [stepRegions, hSync, hSsy, hPlain, hPred]

/- The instruction itself, behind its block label. -/
theorem inv_advanced
    (hNew :
      isPredBra inst = true →
        NewFallthrough p ft (falsePc inst next))
    (hInv : Inv p (inst.pc + 1) ft held regions refs e) :
    Inv p (inst.pc + 1) (passedFallthroughs inst next ft) held
      (stepRegions (buildCfg p) inst regions)
      (refs ++ instRefs inst next regions)
      (advanced (buildCfg p) gprMap inst next e) := by
  by_cases hSync : inst.opcode = .SYNC
  · rw [instRefs_of_ne (by simp [hSync]) (by simp [hSync])
      (by simp [hSync]), passedFallthroughs_of_ne
      (by simp [hSync]), List.append_nil, stepRegions,
      if_pos hSync, advanced, if_pos hSync]
    exact inv_synced inst.pc hInv
  -- An unbranched instruction keeps regions and fallthroughs.
  have hKeep (hNot : Unbranched inst) :
      passedFallthroughs inst next ft = ft ∧
        stepRegions (buildCfg p) inst regions = regions := by
    have hPred := eq_false_of_ne_true hNot.pred
    refine ⟨?_, stepRegions_of_ne hSync hNot.ssy
      (eq_false_of_ne_true hNot.plain) hPred⟩
    rw [passedFallthroughs, hPred, if_neg Bool.false_ne_true]
  have hQuiet
      (hNot : Unbranched inst)
      (hFlow : inst.opcode ≠ .BREAK ∧ inst.opcode ≠ .CONT)
      {e' : SpirvEmitter}
      (hStep : Quiet e e') :
      Inv p (inst.pc + 1) (passedFallthroughs inst next ft)
        held (stepRegions (buildCfg p) inst regions)
        (refs ++ instRefs inst next regions) e' := by
    rcases hKeep hNot with ⟨hFt, hRegions⟩
    rw [hFt, hRegions, instRefs, if_neg hNot.plain,
      if_neg hNot.pred, if_neg hFlow.1, if_neg hFlow.2,
      List.append_nil]
    exact hInv.quiet hStep
  cases advance_cases (buildCfg p) gprMap inst next with
  | sync hIs hEq => exact absurd hIs hSync
  | ssy hSsy hEq =>
      rw [hEq, instRefs_of_ne (by simp [hSsy])
        (by simp [hSsy]) (by simp [hSsy]),
        passedFallthroughs_of_ne (by simp [hSsy]),
        List.append_nil, stepRegions, if_neg hSync,
        if_pos hSsy]
      exact inv_opened hInv
  | bra hSsy hPlain hEq =>
      have hPred : isPredBra inst = false := by
        have hGuard : inst.predGuard = false := by
          simp [isPlainBra] at hPlain
          exact hPlain.2.1
        simp [isPredBra, hGuard]
      rw [hEq, passedFallthroughs, hPred,
        if_neg Bool.false_ne_true, stepRegions, if_neg hSync,
        if_neg hSsy, if_pos (Or.inl hPlain), instRefs,
        if_pos hPlain, ← List.append_assoc]
      exact inv_branched inst.targetPc (inv_merged hInv)
  | predBra hSsy hPlain hPred hEq =>
      rw [hEq, passedFallthroughs, if_pos hPred, stepRegions,
        if_neg hSync, if_neg hSsy, if_pos (Or.inr hPred),
        instRefs, if_neg hPlain, if_pos hPred]
      exact inv_predBranched (hNew hPred) hInv
  | exit hNot hExit hEq =>
      rw [hEq]
      apply hQuiet hNot ?_ (quiet_refl e)
      rcases hExit with hExit | hExit <;> simp [hExit]
  | brk hNot hBreak hEq =>
      rcases hKeep hNot with ⟨hFt, hRegions⟩
      rw [hEq, hFt, hRegions, instRefs, if_neg hNot.plain,
        if_neg hNot.pred, if_pos hBreak]
      exact inv_broken hInv
  | cont hNot hCont hEq =>
      rcases hKeep hNot with ⟨hFt, hRegions⟩
      rw [hEq, hFt, hRegions, instRefs, if_neg hNot.plain,
        if_neg hNot.pred, if_neg (by simp [hCont]),
        if_pos hCont]
      exact inv_looped hInv
  | kil hNot hKil hEq =>
      rw [hEq]
      apply hQuiet hNot (by simp [hKil])
      apply quiet_pushed
      intro i hI
      rw [List.mem_singleton] at hI
      rw [hI]
      show PlainOp SpirvOp.Kill
      decide
  | none hNot hFlow hKil hNone hEq =>
      rw [hEq]
      exact hQuiet hNot hFlow (quiet_refl e)
  | plan hNot hFlow hKil plan hInst hEq =>
      rw [hEq]
      exact hQuiet hNot hFlow (quiet_planned hInst)

/-
  One iteration: the label of the block start, if any, and the
  instruction.
-/
theorem inv_stepped
    (hTail :
      inst.pc ∈ p.instructions.tail.map (·.pc) ↔
        entryPc p ≠ some inst.pc)
    (hFt : inst.pc ∈ ft ↔
      inst.pc ∈ fallthroughs p.instructions)
    (hNew :
      isPredBra inst = true →
        NewFallthrough p ft (falsePc inst next))
    (hInv : Inv p inst.pc ft held regions refs e) :
    Inv p (inst.pc + 1) (passedFallthroughs inst next ft) held
      (stepRegions (buildCfg p) inst regions)
      (refs ++ instRefs inst next regions)
      (stepped (buildCfg p) gprMap inst next e) :=
  inv_advanced hNew (inv_blockLabelled hTail hFt hInv)

end SpirvEmitter

end M1Switch
