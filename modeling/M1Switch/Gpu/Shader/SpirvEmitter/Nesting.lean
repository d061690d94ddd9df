import M1Switch.Gpu.Shader.SpirvEmitter.Blocks
import M1Switch.Library.NestedRegions

/-
  Nested regions of a program.

  The annotation of an `SSY` is found by a scan up to its
  `SYNC`, which takes the first branch it comes to, whatever
  region that is in; the emission follows the regions on a
  stack.

  Key definitions include:
    * `SpirvEmitter.ProperlyNested`
    * `SpirvEmitter.OwnBra`

  Main results:
    * `pairs_eq_regionPairs_iff`
    * `ssyStack_eq_nil_iff`
    * `regionsFollowed_iff`
-/

------
-- Regions
------

namespace M1Switch

namespace SpirvEmitter

/-
  Each `SSY` names a `SYNC` further on, and the regions of two
  are nested or disjoint.
-/
structure ProperlyNested (p : ShaderProgram) : Prop where
  ordered : p.instructions.Pairwise (fun a b => a.pc < b.pc)
  closed :
    ∀ ssy ∈ p.instructions, ssy.opcode = .SSY →
      ssy.pc < ssy.targetPc ∧
        ∃ sync ∈ p.instructions,
          sync.opcode = .SYNC ∧ sync.pc = ssy.targetPc
  laminar :
    ∀ outer ∈ p.instructions, ∀ inner ∈ p.instructions,
      outer.opcode = .SSY → inner.opcode = .SSY →
        outer.pc < inner.pc →
          inner.targetPc ≤ outer.targetPc ∨
            outer.targetPc < inner.pc

/- Strictly between an `SSY` and its `SYNC`. -/
def Inside (ssy inst : ShaderInstruction) : Prop :=
  ssy.pc < inst.pc ∧ inst.pc < ssy.targetPc

instance (ssy inst : ShaderInstruction) :
    Decidable (Inside ssy inst) :=
  inferInstanceAs (Decidable (_ ∧ _))

/- The region of `inner` is nested in that of `ssy`. -/
def NestedIn (ssy inner : ShaderInstruction) : Prop :=
  inner.opcode = .SSY ∧ ssy.pc < inner.pc ∧
    inner.targetPc ≤ ssy.targetPc

instance (ssy inner : ShaderInstruction) :
    Decidable (NestedIn ssy inner) :=
  inferInstanceAs (Decidable (_ ∧ _))

/- A branch inside a region, at any depth. -/
def BraInside (ssy bra : ShaderInstruction) : Prop :=
  bra.opcode = .BRA ∧ Inside ssy bra

instance (ssy bra : ShaderInstruction) :
    Decidable (BraInside ssy bra) :=
  inferInstanceAs (Decidable (_ ∧ _))

/- A branch inside a region and in no nested one. -/
def OwnBra
    (p : ShaderProgram)
    (ssy bra : ShaderInstruction) : Prop :=
  BraInside ssy bra ∧
    ∀ inner ∈ p.instructions,
      NestedIn ssy inner → ¬ Inside inner bra

instance (p : ShaderProgram) (ssy bra : ShaderInstruction) :
    Decidable (OwnBra p ssy bra) :=
  inferInstanceAs (Decidable (_ ∧ _))

/- The pair of an `SSY`, classified by its branch. -/
def regionPair
    (ssy : ShaderInstruction) :
    Option ShaderInstruction → SsySyncPair
| none => { ssyPc := ssy.pc, syncPc := ssy.targetPc }
| some bra =>
    { ssyPc := ssy.pc
      syncPc := ssy.targetPc
      braPc := bra.pc
      braTargetPc := bra.targetPc
      type :=
        if bra.targetPc < nextPc ssy.pc then .Loop
        else .Selection }

/- The `SSY` instructions of a list. -/
def ssys (insts : List ShaderInstruction) :
    List ShaderInstruction :=
  insts.filter (·.opcode = .SSY)

/- The pair of each `SSY` with the first of its branches. -/
def regionPairs (p : ShaderProgram) : List SsySyncPair :=
  (ssys p.instructions).map fun ssy =>
    regionPair ssy (p.instructions.find? (OwnBra p ssy ·))

/-
  The annotation has the pair of each region, and the emission
  leaves no region on the stack.
-/
structure RegionsFollowed (p : ShaderProgram) : Prop where
  pairs : (buildCfg p).pairs = regionPairs p
  stack :
    ∀ (gprMap : GprMap) (e : SpirvEmitter),
      e.cfgState.ssyStack = [] →
        ((emitStructuredCfg (buildCfg p) gprMap
          p.instructions).run e).2.cfgState.ssyStack = []

/- A branch in a nested region stands behind an own one. -/
def OwnBraLeads (p : ShaderProgram) : Prop :=
  ∀ ssy ∈ p.instructions, ssy.opcode = .SSY →
    ∀ bra ∈ p.instructions, BraInside ssy bra →
      OwnBra p ssy bra ∨
        ∃ first ∈ p.instructions,
          OwnBra p ssy first ∧ first.pc < bra.pc

instance (p : ShaderProgram) : Decidable (OwnBraLeads p) :=
  inferInstanceAs (Decidable (∀ _ ∈ _, _))

/- No two regions share their `SYNC`. -/
def SyncsApart (p : ShaderProgram) : Prop :=
  ((ssys p.instructions).map (·.targetPc)).Nodup

instance (p : ShaderProgram) : Decidable (SyncsApart p) :=
  inferInstanceAs (Decidable (List.Nodup _))

------
-- The Scan
------

variable {p : ShaderProgram}
variable {insts : List ShaderInstruction}
variable {ssy : ShaderInstruction}

theorem mem_ssys_iff :
    ssy ∈ ssys insts ↔ ssy ∈ insts ∧ ssy.opcode = .SSY := by
  simp [ssys]

theorem ssys_cons_of_ssy
    (hSsy : ssy.opcode = .SSY) :
    ssys (ssy :: insts) = ssy :: ssys insts :=
  List.filter_cons_of_pos (decide_eq_true hSsy)

theorem ssys_cons_of_ne
    (hSsy : ssy.opcode ≠ .SSY) :
    ssys (ssy :: insts) = ssys insts :=
  List.filter_cons_of_neg
    fun hIs => hSsy (of_decide_eq_true hIs)

theorem ssyPair_eq_regionPair
    (rest : List ShaderInstruction) :
    ssyPair ssy rest =
      regionPair ssy (findBra ssy.targetPc rest) := by
  unfold ssyPair
  dsimp only
  cases findBra ssy.targetPc rest <;> rfl

/- Behind an `SSY`, the scan stops where its region ends. -/
theorem findBra_eq_find?
    (hBehind : ∀ inst ∈ insts, ssy.pc < inst.pc)
    (hOrdered : insts.Pairwise (fun a b => a.pc < b.pc))
    (hSync :
      ∃ sync ∈ insts,
        sync.opcode = .SYNC ∧ sync.pc = ssy.targetPc) :
    findBra ssy.targetPc insts =
      insts.find? (BraInside ssy ·) := by
  induction insts with
  | nil =>
      rcases hSync with ⟨sync, hMem, _⟩
      cases hMem
  | cons next rest ih =>
      rcases List.pairwise_cons.mp hOrdered with
        ⟨hHead, hRest⟩
      rw [findBra]
      by_cases hStop :
          next.opcode = .SYNC ∧ next.pc = ssy.targetPc
      · rw [if_pos hStop, eq_comm, List.find?_eq_none]
        intro bra hBra hIs
        have hInside : BraInside ssy bra :=
          of_decide_eq_true hIs
        rcases List.mem_cons.mp hBra with hSelf | hLater
        · have hOp := hInside.1
          rw [hSelf, hStop.1] at hOp
          cases hOp
        · have hFurther := hHead bra hLater
          have hLt := hInside.2.2
          omega
      · rcases hSync with ⟨sync, hMem, hOp, hPc⟩
        rcases List.mem_cons.mp hMem with hSelf | hLater
        · rw [hSelf] at hOp hPc
          exact absurd ⟨hOp, hPc⟩ hStop
        · rw [if_neg hStop]
          by_cases hBra : next.opcode = .BRA
          · have hLt := hHead sync hLater
            rw [if_pos hBra, List.find?_cons_of_pos]
            exact
              decide_eq_true
                ⟨hBra, hBehind next List.mem_cons_self,
                  hPc ▸ hLt⟩
          · have hTail :=
              ih
                (fun i hI =>
                  hBehind i (List.mem_cons_of_mem _ hI))
                hRest ⟨sync, hLater, hOp, hPc⟩
            rw [if_neg hBra, List.find?_cons_of_neg, hTail]
            intro hIs
            have hInside : BraInside ssy next :=
              of_decide_eq_true hIs
            exact hBra hInside.1

/- The scan finds the first branch inside the region. -/
theorem ProperlyNested.findBra_eq
    {before rest : List ShaderInstruction}
    (hNested : ProperlyNested p)
    (hParts : p.instructions = before ++ ssy :: rest)
    (hSsy : ssy.opcode = .SSY) :
    findBra ssy.targetPc rest =
      p.instructions.find? (BraInside ssy ·) := by
  have hOrdered := hNested.ordered
  have hClosed :=
    hNested.closed ssy
      (by rw [hParts]; exact
        List.mem_append_right _ List.mem_cons_self) hSsy
  rw [hParts] at hOrdered hClosed
  rcases List.pairwise_append.mp hOrdered with
    ⟨_, hBehind, hCross⟩
  rcases List.pairwise_cons.mp hBehind with ⟨hHead, hRest⟩
  rcases hClosed with ⟨hLt, sync, hSync, hOp, hPc⟩
  have hLater : sync ∈ rest := by
    rcases List.mem_append.mp hSync with hBefore | hBehind
    · have hFront :=
        hCross sync hBefore ssy List.mem_cons_self
      omega
    · rcases List.mem_cons.mp hBehind with hSelf | hLater
      · rw [hSelf] at hPc
        omega
      · exact hLater
  have hFront :
      before.find? (BraInside ssy ·) = none := by
    rw [List.find?_eq_none]
    intro bra hBra hIs
    have hInside : BraInside ssy bra := of_decide_eq_true hIs
    have hLess := hCross bra hBra ssy List.mem_cons_self
    have hMore := hInside.2.1
    omega
  have hSelf :
      (ssy :: rest).find? (BraInside ssy ·) =
        rest.find? (BraInside ssy ·) := by
    apply List.find?_cons_of_neg
    intro hIs
    have hInside : BraInside ssy ssy := of_decide_eq_true hIs
    exact absurd hInside.2.1 (Nat.lt_irrefl _)
  rw [hParts, List.find?_append, hFront, Option.none_or, hSelf,
    findBra_eq_find? hHead hRest ⟨sync, hLater, hOp, hPc⟩]

/- The annotation has the first branch inside each region. -/
theorem ProperlyNested.pairs_eq
    (hNested : ProperlyNested p) :
    (buildCfg p).pairs =
      (ssys p.instructions).map fun ssy =>
        regionPair ssy
          (p.instructions.find? (BraInside ssy ·)) := by
  have hSuffix :
      ∀ rest before, p.instructions = before ++ rest →
        ssyPairs rest =
          (ssys rest).map fun ssy =>
            regionPair ssy
              (p.instructions.find? (BraInside ssy ·)) := by
    intro rest
    induction rest with
    | nil =>
        intro before _
        rfl
    | cons inst rest ih =>
        intro before hParts
        have hRest :=
          ih (before ++ [inst])
            (by rw [hParts, List.append_cons])
        rw [ssyPairs]
        by_cases hSsy : inst.opcode = .SSY
        · rw [if_pos hSsy, hRest, ssyPair_eq_regionPair,
            hNested.findBra_eq hParts hSsy,
            ssys_cons_of_ssy hSsy, List.map_cons]
        · rw [if_neg hSsy, hRest, ssys_cons_of_ne hSsy]
  exact hSuffix p.instructions [] rfl

theorem eq_of_pc_eq
    (hOrdered : insts.Pairwise (fun a b => a.pc < b.pc))
    {a b : ShaderInstruction}
    (hA : a ∈ insts)
    (hB : b ∈ insts)
    (hPc : a.pc = b.pc) :
    a = b := by
  induction insts with
  | nil => cases hA
  | cons inst rest ih =>
      rcases List.pairwise_cons.mp hOrdered with
        ⟨hHead, hRest⟩
      rcases List.mem_cons.mp hA with hSelfA | hLaterA <;>
        rcases List.mem_cons.mp hB with hSelfB | hLaterB
      · rw [hSelfA, hSelfB]
      · have hLt := hHead b hLaterB
        rw [← hSelfA] at hLt
        omega
      · have hLt := hHead a hLaterA
        rw [← hSelfB] at hLt
        omega
      · exact ih hRest hLaterA hLaterB

/- A pair tells which branch it was classified by. -/
theorem ProperlyNested.regionPair_inj
    {found found' : Option ShaderInstruction}
    (hNested : ProperlyNested p)
    (hFound : ∀ bra, found = some bra → bra ∈ p.instructions)
    (hFound' :
      ∀ bra, found' = some bra → bra ∈ p.instructions) :
    regionPair ssy found = regionPair ssy found' ↔
      found = found' := by
  refine ⟨?_, congrArg _⟩
  intro hEq
  have hPc := congrArg SsySyncPair.braPc hEq
  have hType := congrArg SsySyncPair.type hEq
  cases found with
  | none =>
      cases found' with
      | none => rfl
      | some bra =>
          change
            CfgBlockType.Normal = if _ then _ else _ at hType
          split_ifs at hType
  | some bra =>
      cases found' with
      | none =>
          change
            (if _ then _ else _) = CfgBlockType.Normal at hType
          split_ifs at hType
      | some bra' =>
          exact
            congrArg some
              (eq_of_pc_eq hNested.ordered (hFound bra rfl)
                (hFound' bra' rfl) hPc)

/- When the scan finds the branches of the regions. -/
theorem pairs_eq_regionPairs_iff
    (hNested : ProperlyNested p) :
    (buildCfg p).pairs = regionPairs p ↔ OwnBraLeads p := by
  rw [hNested.pairs_eq]
  unfold regionPairs OwnBraLeads
  rw [List.map_inj_left]
  apply forall_congr'
  intro ssy
  rw [mem_ssys_iff, and_imp]
  apply imp_congr_right
  intro hMem
  apply imp_congr_right
  intro hSsy
  rw [hNested.regionPair_inj
      (fun bra hBra => List.mem_of_find?_eq_some hBra)
      (fun bra hBra => List.mem_of_find?_eq_some hBra),
    NestedRegions.find?_eq_find?_iff ?_ p.instructions
      hNested.ordered]
  · simp only [decide_eq_true_eq]
  · intro bra hOwn
    rw [decide_eq_true_eq] at hOwn ⊢
    exact hOwn.1

------
-- The Stack
------

open NestedRegions

variable {cfg : CfgAnnotation} {m : GprMap}
variable {inst : ShaderInstruction}
variable {regions : List OpenRegion}

/- What an instruction is to the regions. -/
def eventOf (inst : ShaderInstruction) : Event Nat :=
  { pos := inst.pc
    kind :=
      if inst.opcode = .SSY then .opening inst.targetPc
      else if inst.opcode = .SYNC then .closing
      else .plain }

theorem kind_eq_opening_iff {t : Nat} :
    (eventOf inst).kind = .opening t ↔
      inst.opcode = .SSY ∧ inst.targetPc = t := by
  unfold eventOf
  dsimp only
  split_ifs with hSsy hSync
  · simp [hSsy]
  · simp [hSync]
  · simp [hSsy]

theorem kind_eq_closing_iff :
    (eventOf inst).kind = .closing ↔
      inst.opcode = .SYNC := by
  unfold eventOf
  dsimp only
  split_ifs with hSsy hSync
  · simp [hSsy]
  · simp [hSync]
  · simp [hSync]

theorem ProperlyNested.nested
    (hNested : ProperlyNested p) :
    Nested (p.instructions.map eventOf) := by
  constructor
  · exact List.pairwise_map.mpr hNested.ordered
  · intro a hA ends hKind
    rcases List.mem_map.mp hA with ⟨ssy, hSsy, hEq⟩
    rw [← hEq] at hKind ⊢
    rcases kind_eq_opening_iff.mp hKind with ⟨hOp, hEnds⟩
    rcases hNested.closed ssy hSsy hOp with
      ⟨hLt, sync, hSync, hSyncOp, hPc⟩
    rw [← hEnds]
    exact
      ⟨hLt, eventOf sync, List.mem_map_of_mem hSync,
        kind_eq_closing_iff.mpr hSyncOp, hPc⟩
  · intro a hA b hB outer inner hOuter hInner hLt
    rcases List.mem_map.mp hA with ⟨x, hX, hEqA⟩
    rcases List.mem_map.mp hB with ⟨y, hY, hEqB⟩
    rw [← hEqA] at hOuter hLt
    rw [← hEqB] at hInner hLt ⊢
    rcases kind_eq_opening_iff.mp hOuter with ⟨hOpX, hEndX⟩
    rcases kind_eq_opening_iff.mp hInner with ⟨hOpY, hEndY⟩
    rw [← hEndX, ← hEndY]
    exact hNested.laminar x hX y hY hOpX hOpY hLt

theorem targets_map_eventOf
    (insts : List ShaderInstruction) :
    targets (insts.map eventOf) =
      (ssys insts).map (·.targetPc) := by
  induction insts with
  | nil => rfl
  | cons inst rest ih =>
      rw [List.map_cons]
      by_cases hSsy : inst.opcode = .SSY
      · rw [ssys_cons_of_ssy hSsy, List.map_cons, eventOf,
          if_pos hSsy, targets, ih]
      · rw [ssys_cons_of_ne hSsy, eventOf, if_neg hSsy]
        by_cases hSync : inst.opcode = .SYNC
        · rw [if_pos hSync]
          exact ih
        · rw [if_neg hSync]
          exact ih

/- The annotation of an `SSY` knows its `SYNC`. -/
theorem ProperlyNested.find?_pair
    (hNested : ProperlyNested p)
    (hMem : inst ∈ p.instructions)
    (hSsy : inst.opcode = .SSY) :
    ∃ pair,
      (buildCfg p).pairs.find? (·.ssyPc = inst.pc) =
          some pair ∧
        pair.syncPc = inst.targetPc := by
  have hPair :
      ∀ (ssy : ShaderInstruction)
        (found : Option ShaderInstruction),
        (regionPair ssy found).ssyPc = ssy.pc ∧
          (regionPair ssy found).syncPc = ssy.targetPc := by
    intro ssy found
    cases found <;> exact ⟨rfl, rfl⟩
  cases hFind :
      (buildCfg p).pairs.find? (·.ssyPc = inst.pc) with
  | none =>
      rw [hNested.pairs_eq, List.find?_eq_none] at hFind
      have hNot :=
        hFind _
          (List.mem_map_of_mem (mem_ssys_iff.mpr ⟨hMem, hSsy⟩))
      exact absurd (decide_eq_true (hPair _ _).1) hNot
  | some pair =>
      have hIs := List.find?_some hFind
      have hPc : pair.ssyPc = inst.pc := of_decide_eq_true hIs
      have hFound := List.mem_of_find?_eq_some hFind
      rw [hNested.pairs_eq] at hFound
      rcases List.mem_map.mp hFound with ⟨ssy, hIn, hEq⟩
      have hSame : ssy = inst := by
        apply eq_of_pc_eq hNested.ordered
          (mem_ssys_iff.mp hIn).1 hMem
        rw [← hPc, ← hEq, (hPair _ _).1]
      rw [← hSame, ← hEq]
      exact ⟨_, rfl, (hPair _ _).2⟩

/- Where the open regions close. -/
def syncPcs (regions : List OpenRegion) : List Nat :=
  regions.map (·.pair.syncPc)

/- One instruction. -/
theorem ProperlyNested.syncPcs_stepRegions
    (hNested : ProperlyNested p)
    (hMem : inst ∈ p.instructions) :
    syncPcs (stepRegions (buildCfg p) inst regions) =
      NestedRegions.step (syncPcs regions)
        (eventOf inst) := by
  unfold stepRegions eventOf
  by_cases hSync : inst.opcode = .SYNC
  · have hNot : inst.opcode ≠ .SSY := by simp [hSync]
    rw [if_pos hSync, if_neg hNot, if_pos hSync]
    unfold NestedRegions.step
    dsimp only
    cases regions with
    | nil => rfl
    | cons r rest =>
        rw [closeRegion]
        unfold syncPcs
        by_cases hPc : r.pair.syncPc = inst.pc
        · rw [if_pos hPc]
          exact (if_pos (congrArg some hPc)).symm
        · rw [if_neg hPc]
          exact
            (if_neg fun hSome =>
              hPc (Option.some.inj hSome)).symm
  rw [if_neg hSync]
  by_cases hSsy : inst.opcode = .SSY
  · rcases hNested.find?_pair hMem hSsy with
      ⟨pair, hFind, hPc⟩
    rw [if_pos hSsy, if_pos hSsy, openRegion, hFind]
    unfold NestedRegions.step
    rw [← hPc]
    rfl
  · rw [if_neg hSsy, if_neg hSsy, if_neg hSync]
    unfold NestedRegions.step
    dsimp only
    split_ifs
    · cases regions <;> rfl
    · rfl

/- All instructions. -/
theorem ProperlyNested.syncPcs_foldl
    (hNested : ProperlyNested p) :
    ∀ (insts : List ShaderInstruction)
      (regions : List OpenRegion),
      (∀ inst ∈ insts, inst ∈ p.instructions) →
        syncPcs
            (insts.foldl
              (fun rs i => stepRegions (buildCfg p) i rs)
              regions) =
          NestedRegions.run (syncPcs regions)
            (insts.map eventOf) := by
  intro insts
  induction insts with
  | nil =>
      intro regions _
      rfl
  | cons inst rest ih =>
      intro regions hAll
      rw [List.foldl_cons,
        ih _ (fun i hI => hAll i (List.mem_cons_of_mem _ hI)),
        hNested.syncPcs_stepRegions
          (hAll inst List.mem_cons_self)]
      rfl

/- Regions follow the stack over the loop. -/
theorem stackLike_streamed :
    ∀ (insts : List ShaderInstruction)
      (regions : List OpenRegion) (e : SpirvEmitter),
      StackLike cfg e.cfgState.ssyStack regions →
        StackLike cfg
          (streamed cfg m insts e).cfgState.ssyStack
          (insts.foldl (fun rs i => stepRegions cfg i rs)
            regions) := by
  intro insts
  induction insts with
  | nil =>
      intro regions e hStack
      exact hStack
  | cons inst rest ih =>
      intro regions e hStack
      exact ih _ _ (stackLike_stepped hStack)

/- When the emission ends with no region on the stack. -/
theorem ssyStack_eq_nil_iff
    {e : SpirvEmitter}
    (hNested : ProperlyNested p)
    (hEmpty : e.cfgState.ssyStack = []) :
    ((emitStructuredCfg (buildCfg p) m
        p.instructions).run e).2.cfgState.ssyStack = [] ↔
      SyncsApart p := by
  have hStart :
      StackLike (buildCfg p) e.cfgState.ssyStack [] := by
    rw [hEmpty]
    exact List.Forall₂.nil
  have hEnd :=
    stackLike_streamed (m := m) p.instructions [] e hStart
  have hSyncs :=
    hNested.syncPcs_foldl p.instructions [] fun _ hI => hI
  have hRun := run_eq_nil_iff hNested.nested
  rw [targets_map_eventOf] at hRun
  unfold SyncsApart
  rw [run_emitStructuredCfg, ← hRun]
  change _ ↔ NestedRegions.run (syncPcs []) _ = []
  rw [← hSyncs]
  revert hEnd
  generalize
    p.instructions.foldl
      (fun rs i => stepRegions (buildCfg p) i rs) [] = regions
  intro hEnd
  constructor
  · intro hNil
    rw [hNil] at hEnd
    cases hEnd
    rfl
  · intro hNil
    rw [List.map_eq_nil_iff.mp hNil] at hEnd
    cases hForall :
        (streamed (buildCfg p) m p.instructions
          e).cfgState.ssyStack with
    | nil => rfl
    | cons top rest =>
        rw [hForall] at hEnd
        cases hEnd

/-
  The annotation and the stack follow the regions of a
  properly nested program exactly if no branch of a nested
  region comes first and no two regions share their `SYNC`.
-/
theorem regionsFollowed_iff
    (p : ShaderProgram)
    (hNested : ProperlyNested p) :
    RegionsFollowed p ↔ OwnBraLeads p ∧ SyncsApart p := by
  constructor
  · intro hFollowed
    refine
      ⟨(pairs_eq_regionPairs_iff hNested).mp hFollowed.pairs,
        ?_⟩
    have hEmpty :
        ({} : SpirvEmitter).cfgState.ssyStack = [] := rfl
    exact
      (ssyStack_eq_nil_iff hNested hEmpty).mp
        (hFollowed.stack (fun _ => none) {} hEmpty)
  · rintro ⟨hLeads, hApart⟩
    constructor
    · exact (pairs_eq_regionPairs_iff hNested).mpr hLeads
    · intro gprMap e hEmpty
      exact (ssyStack_eq_nil_iff hNested hEmpty).mpr hApart

/- An instruction with a label, in units of eight bytes. -/
def labelled
    (opcode : ShaderOpcode)
    (pc label : Nat) : ShaderInstruction :=
  { opcode := opcode
    src0 := .ofLabel label
    srcCount := 1
    pc := pc }

/- A region in a region, and the branch of the outer first. -/
def outerBraFirst : ShaderProgram :=
  { stage := .Compute
    instructions :=
      [labelled .SSY 0 5, labelled .BRA 8 5,
        labelled .SSY 16 4, labelled .BRA 24 4,
        { opcode := .SYNC, pc := 32 },
        { opcode := .SYNC, pc := 40 }] }

theorem outerBraFirst_nested :
    ProperlyNested outerBraFirst := by
  constructor <;> decide

theorem outerBraFirst_followed :
    ProperlyNested outerBraFirst ∧
      RegionsFollowed outerBraFirst :=
  ⟨outerBraFirst_nested,
    (regionsFollowed_iff outerBraFirst
      outerBraFirst_nested).mpr (by decide)⟩

/- The same, with the branch of the inner region first. -/
def innerBraFirst : ShaderProgram :=
  { stage := .Compute
    instructions :=
      [labelled .SSY 0 5, labelled .SSY 8 3,
        labelled .BRA 16 3, { opcode := .SYNC, pc := 24 },
        labelled .BRA 32 5, { opcode := .SYNC, pc := 40 }] }

/- The inner branch is taken for the outer one. -/
theorem innerBraFirst_not_followed :
    ProperlyNested innerBraFirst ∧
      ¬ RegionsFollowed innerBraFirst := by
  have hNested : ProperlyNested innerBraFirst := by
    constructor <;> decide
  refine ⟨hNested, ?_⟩
  intro hFollowed
  have hLeads :=
    (pairs_eq_regionPairs_iff hNested).mp hFollowed.pairs
  exact absurd hLeads (by decide)

end SpirvEmitter

end M1Switch
