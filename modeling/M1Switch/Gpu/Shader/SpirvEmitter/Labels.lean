import M1Switch.Gpu.Shader.MaxwellDecoder
import M1Switch.Gpu.Shader.SpirvEmitter.Stream
import M1Switch.Library.LabelTable

/-
  Which label references of an emitted program resolve.

  A block start gets its label under a new id, whatever id was
  reserved for it before.  So a reference resolves exactly when
  it names the instruction behind a predicated branch, whose
  label is set under the reserved id, or looks back to a block
  start that already has its label.

  Key definitions include:
    * `labelRefs`
    * `SpirvEmitter.Labelled`

  Main results:
    * `quiet`
    * `advance`
-/

------
-- References Of A Program
------

namespace M1Switch

namespace SpirvEmitter

/-
  The label of `target` is named; its id is reserved by the
  instruction at `source`.
-/
structure LabelRef where
  target : Nat
  source : Nat
deriving DecidableEq, Repr

/- A region opened by an `SSY`; merged once branched in. -/
structure OpenRegion where
  pair : SsySyncPair
  merged : Bool
deriving DecidableEq, Repr

/- The offset a loop region continues at. -/
def continuePc (pair : SsySyncPair) : Nat :=
  if pair.braTargetPc ≠ 0 then pair.braTargetPc
  else nextPc pair.ssyPc

/- References of a region's merge instruction. -/
def mergeRefs (r : OpenRegion) : List LabelRef :=
  if r.merged then []
  else
    match r.pair.type with
    | .Selection => [⟨r.pair.syncPc, r.pair.ssyPc⟩]
    | .Loop =>
        [⟨r.pair.syncPc, r.pair.ssyPc⟩,
          ⟨continuePc r.pair, r.pair.ssyPc⟩]
    | .Normal | .Merge => []

/- The branch forms the emission loop handles. -/
def isPlainBra (inst : ShaderInstruction) : Bool :=
  inst.opcode = .BRA ∧ !inst.predGuard ∧
    inst.dest.type = .None

def isPredBra (inst : ShaderInstruction) : Bool :=
  inst.opcode = .BRA ∧ inst.predGuard

/- Regions behind a `SYNC`, the innermost first. -/
def closeRegion (pc : Nat) :
    List OpenRegion → List OpenRegion
| [] => []
| r :: rs => if r.pair.syncPc = pc then rs else r :: rs

/- Regions behind an `SSY`. -/
def openRegion
    (cfg : CfgAnnotation)
    (pc : Nat)
    (regions : List OpenRegion) : List OpenRegion :=
  match cfg.pairs.find? (·.ssyPc = pc) with
  | none => regions
  | some pair => ⟨pair, false⟩ :: regions

/- Regions behind a branch. -/
def mergeRegion : List OpenRegion → List OpenRegion
| [] => []
| r :: rs => { r with merged := true } :: rs

/- Regions behind an instruction. -/
def stepRegions
    (cfg : CfgAnnotation)
    (inst : ShaderInstruction)
    (regions : List OpenRegion) : List OpenRegion :=
  if inst.opcode = .SYNC then
    closeRegion inst.pc regions
  else if inst.opcode = .SSY then
    openRegion cfg inst.pc regions
  else if isPlainBra inst ∨ isPredBra inst then
    mergeRegion regions
  else regions

/- References of the innermost region's merge. -/
def deferredRefs (regions : List OpenRegion) :
    List LabelRef :=
  match regions with
  | [] => []
  | r :: _ => mergeRefs r

/- References of a predicated branch, in operand order. -/
def predBraRefs
    (inst : ShaderInstruction)
    (next : Option ShaderInstruction) : List LabelRef :=
  if inst.predGuardNegate then
    [⟨falsePc inst next, inst.pc⟩, ⟨inst.targetPc, inst.pc⟩]
  else
    [⟨inst.targetPc, inst.pc⟩, ⟨falsePc inst next, inst.pc⟩]

/- References of a `BREAK`. -/
def breakRefs
    (inst : ShaderInstruction)
    (regions : List OpenRegion) : List LabelRef :=
  match regions with
  | [] => []
  | r :: _ => [⟨r.pair.syncPc, inst.pc⟩]

/- References of a `CONT`; loops only. -/
def contRefs
    (inst : ShaderInstruction)
    (regions : List OpenRegion) : List LabelRef :=
  match regions with
  | [] => []
  | r :: _ =>
      if r.pair.type = .Loop then
        [⟨r.pair.braTargetPc, inst.pc⟩]
      else []

/- References an instruction emits. -/
def instRefs
    (inst : ShaderInstruction)
    (next : Option ShaderInstruction)
    (regions : List OpenRegion) : List LabelRef :=
  if isPlainBra inst then
    deferredRefs regions ++ [⟨inst.targetPc, inst.pc⟩]
  else if isPredBra inst then
    deferredRefs regions ++ predBraRefs inst next
  else if inst.opcode = .BREAK then breakRefs inst regions
  else if inst.opcode = .CONT then contRefs inst regions
  else []

/- References emitted from an instruction on. -/
def labelRefsFrom
    (cfg : CfgAnnotation) :
    List OpenRegion → List ShaderInstruction →
      List LabelRef
| _, [] => []
| regions, inst :: rest =>
    instRefs inst rest.head? regions ++
      labelRefsFrom cfg (stepRegions cfg inst regions) rest

/- All label references of a program. -/
def labelRefs (p : ShaderProgram) : List LabelRef :=
  labelRefsFrom (buildCfg p) [] p.instructions

/- Offsets behind the predicated branches. -/
def fallthroughs : List ShaderInstruction → List Nat
| [] => []
| inst :: rest =>
    if isPredBra inst then
      falsePc inst rest.head? :: fallthroughs rest
    else fallthroughs rest

/-
  The target is what follows a predicated branch, or a block
  start behind the first instruction that is no later than
  the instruction reserving the id.
-/
def Labelled (p : ShaderProgram) (r : LabelRef) : Prop :=
  r.target ∈ fallthroughs p.instructions ∨
    (r.target ∈ (buildCfg p).blockStarts ∧
      r.target ∈ p.instructions.tail.map (·.pc) ∧
      r.target ≤ r.source)

instance (p : ShaderProgram) (r : LabelRef) :
    Decidable (Labelled p r) :=
  inferInstanceAs (Decidable (_ ∨ _))

------
-- The Label Table Of An Emitter
------

/- Offset of the first instruction. -/
def entryPc (p : ShaderProgram) : Option Nat :=
  p.instructions.head?.map (·.pc)

/-
  The table behind an emitter.  The first instruction counts
  as emitted but its label has no id in the map.
-/
def labelTable
    (p : ShaderProgram)
    (insts : List SpirvInst)
    (e : SpirvEmitter) : LabelTable Nat :=
  { next := e.nextId
    idOf := e.cfgState.pcToLabel
    bound :=
      {q | q ∈ e.cfgState.labelsEmitted ∧ entryPc p ≠ some q}
    labels := labelIds insts }

/- Block starts that get their label under a new id. -/
def FreshStart (p : ShaderProgram) (q : Nat) : Prop :=
  q ∈ (buildCfg p).blockStarts ∧
    q ∈ p.instructions.tail.map (·.pc) ∧
    q ∉ fallthroughs p.instructions

/-
  The target got a new id behind the reservation, at an offset
  below `n`.
-/
def Rebound
    (p : ShaderProgram)
    (n : Nat)
    (r : LabelRef) : Prop :=
  FreshStart p r.target ∧ r.source < r.target ∧ r.target < n

/- The id handed out for a reference made before `n`. -/
structure HeldRef
    (p : ShaderProgram)
    (n : Nat)
    (T : LabelTable Nat)
    (id : Nat)
    (r : LabelRef) : Prop where
  pos : 0 < id
  source_lt : r.source < n
  held : T.Held (Rebound p n r) id r.target

/- A stack entry and the region it stands for. -/
structure RegionHeld
    (p : ShaderProgram)
    (n : Nat)
    (T : LabelTable Nat)
    (entry : SsyStackEntry)
    (r : OpenRegion) : Prop where
  ssyPc : entry.ssyPc = r.pair.ssyPc
  syncPc : entry.syncPc = r.pair.syncPc
  type : entry.type = r.pair.type
  pair :
    (buildCfg p).pairs.find? (·.ssyPc = r.pair.ssyPc) =
      some r.pair
  merged : r.merged = true → entry.mergeLabel = 0
  mergeHeld :
    r.merged = false →
      HeldRef p n T entry.mergeLabel
        ⟨r.pair.syncPc, r.pair.ssyPc⟩
  continueHeld :
    r.pair.type = .Loop →
      HeldRef p n T entry.continueLabel
        ⟨continuePc r.pair, r.pair.ssyPc⟩

/- The words are a header and encoded instructions. -/
structure EmittedAs
    (insts : List SpirvInst)
    (e : SpirvEmitter) : Prop where
  words :
    ∃ header : List Nat,
      header.length = 5 ∧
        e.words = header ++ encodeInsts insts
  opcodes : ∀ i ∈ insts, i.opcode < 2 ^ 16

/-
  State of the emission loop before offset `n`: `ft` are the
  fallthroughs passed, `held` the ids just reserved, `regions`
  the open regions and `refs` the references emitted.
-/
structure CfgInv
    (p : ShaderProgram)
    (n : Nat)
    (ft : List Nat)
    (held : List (Nat × LabelRef))
    (regions : List OpenRegion)
    (refs : List LabelRef)
    (insts : List SpirvInst)
    (e : SpirvEmitter) : Prop where
  emitted : EmittedAs insts e
  wellFormed : (labelTable p insts e).WellFormed
  nextId : 0 < e.nextId
  ids :
    ∀ q id, e.cfgState.pcToLabel q = some id → 0 < id
  entry :
    ∀ q, entryPc p = some q → q ∈ e.cfgState.labelsEmitted
  boundIds :
    ∀ q ∈ (labelTable p insts e).bound,
      (e.cfgState.pcToLabel q).isSome
  bound :
    ∀ q, q ∈ (labelTable p insts e).bound ↔
      q ∈ ft ∨ (FreshStart p q ∧ q < n)
  held :
    ∀ x ∈ held, HeldRef p n (labelTable p insts e) x.1 x.2
  refs :
    List.Forall₂ (HeldRef p n (labelTable p insts e))
      (labelRefIds insts) refs
  stack :
    List.Forall₂ (RegionHeld p n (labelTable p insts e))
      e.cfgState.ssyStack regions

/- The invariant for some list of instructions. -/
def Inv
    (p : ShaderProgram)
    (n : Nat)
    (ft : List Nat)
    (held : List (Nat × LabelRef))
    (regions : List OpenRegion)
    (refs : List LabelRef)
    (e : SpirvEmitter) : Prop :=
  ∃ insts, CfgInv p n ft held regions refs insts e

------
-- Steps That Keep The Table
------

variable {p : ShaderProgram} {n n' : Nat} {ft : List Nat}
variable {held : List (Nat × LabelRef)}
variable {regions : List OpenRegion} {refs : List LabelRef}
variable {insts insts' : List SpirvInst}
variable {e e' : SpirvEmitter} {T T' : LabelTable Nat}

/- More instructions behind the emitted ones. -/
theorem EmittedAs.append
    {more : List SpirvInst}
    (hEmitted : EmittedAs insts e)
    (hWords : e'.words = e.words ++ encodeInsts more)
    (hOpcodes : ∀ i ∈ more, i.opcode < 2 ^ 16) :
    EmittedAs (insts ++ more) e' := by
  rcases hEmitted.words with ⟨header, hHeader, hOld⟩
  refine ⟨⟨header, hHeader, ?_⟩, ?_⟩
  · rw [hWords, hOld, encodeInsts_append, List.append_assoc]
  · intro i hI
    rcases List.mem_append.mp hI with hI | hI
    · exact hEmitted.opcodes i hI
    · exact hOpcodes i hI

/- Emission depends on the words only. -/
theorem EmittedAs.congr
    (hEmitted : EmittedAs insts e)
    (hWords : e'.words = e.words) :
    EmittedAs insts e' := by
  refine ⟨?_, hEmitted.opcodes⟩
  rw [hWords]
  exact hEmitted.words

/- Regions stay held when ids do. -/
theorem RegionHeld.mono
    {entry : SsyStackEntry}
    {r : OpenRegion}
    (hKeep :
      ∀ id r, HeldRef p n T id r → HeldRef p n' T' id r)
    (hRegion : RegionHeld p n T entry r) :
    RegionHeld p n' T' entry r := by
  refine ⟨hRegion.ssyPc, hRegion.syncPc, hRegion.type,
    hRegion.pair, hRegion.merged, ?_, ?_⟩
  · intro hMerged
    exact hKeep _ _ (hRegion.mergeHeld hMerged)
  · intro hLoop
    exact hKeep _ _ (hRegion.continueHeld hLoop)

/- A quiet step on the table only moves the next id. -/
theorem labelTable_quiet
    (hQuiet : Quiet e e')
    {plain : List SpirvInst}
    (hPlain : ∀ i ∈ plain, PlainOp i.opcode) :
    labelTable p (insts ++ plain) e' =
      (labelTable p insts e).skip e'.nextId := by
  unfold labelTable LabelTable.skip
  rw [hQuiet.pcToLabel, hQuiet.labelsEmitted,
    labelIds_append, labelIds_of_plain hPlain,
    List.append_nil]

/- Quiet steps keep the invariant. -/
theorem Inv.quiet
    (hInv : Inv p n ft held regions refs e)
    (hQuiet : Quiet e e') :
    Inv p n ft held regions refs e' := by
  rcases hInv with ⟨insts, hInv⟩
  rcases hQuiet.words with ⟨plain, hPlain, hWords⟩
  have hTable :
      labelTable p (insts ++ plain) e' =
        (labelTable p insts e).skip e'.nextId :=
    labelTable_quiet hQuiet hPlain
  have hKeep :
      ∀ id r, HeldRef p n (labelTable p insts e) id r →
        HeldRef p n (labelTable p (insts ++ plain) e') id
          r := by
    intro id r hHeld
    rw [hTable]
    exact ⟨hHeld.pos, hHeld.source_lt,
      hHeld.held.skip hQuiet.nextId⟩
  refine ⟨insts ++ plain, ?_⟩
  refine
    { emitted :=
        hInv.emitted.append hWords fun i hI => (hPlain i hI).1
      wellFormed := ?_
      nextId := lt_of_lt_of_le hInv.nextId hQuiet.nextId
      ids := ?_
      entry := ?_
      boundIds := ?_
      bound := ?_
      held := fun x hX => hKeep _ _ (hInv.held x hX)
      refs := ?_
      stack := ?_ }
  · rw [hTable]
    exact hInv.wellFormed.skip hQuiet.nextId
  · rw [hQuiet.pcToLabel]
    exact hInv.ids
  · rw [hQuiet.labelsEmitted]
    exact hInv.entry
  · rw [hTable, hQuiet.pcToLabel]
    exact hInv.boundIds
  · rw [hTable]
    exact hInv.bound
  · rw [labelRefIds_append, labelRefIds_of_plain hPlain,
      List.append_nil]
    exact hInv.refs.imp hKeep
  · rw [hQuiet.ssyStack]
    exact hInv.stack.imp fun _ _ => RegionHeld.mono hKeep

/- The offset may move past places that get no new label. -/
theorem Inv.advance
    (hInv : Inv p n ft held regions refs e)
    (hLe : n ≤ n')
    (hNone : ∀ q, FreshStart p q → n ≤ q → n' ≤ q) :
    Inv p n' ft held regions refs e := by
  rcases hInv with ⟨insts, hInv⟩
  have hRebound :
      ∀ r, Rebound p n r ↔ Rebound p n' r := by
    intro r
    unfold Rebound
    constructor
    · intro hR
      exact ⟨hR.1, hR.2.1, by omega⟩
    · intro hR
      refine ⟨hR.1, hR.2.1, ?_⟩
      by_contra hGe
      have := hNone r.target hR.1 (by omega)
      omega
  have hKeep :
      ∀ id r, HeldRef p n (labelTable p insts e) id r →
        HeldRef p n' (labelTable p insts e) id r := by
    intro id r hHeld
    refine ⟨hHeld.pos, ?_, hHeld.held.congr (hRebound r)⟩
    exact lt_of_lt_of_le hHeld.source_lt hLe
  refine ⟨insts,
    { hInv with
      bound := ?_
      held := fun x hX => hKeep _ _ (hInv.held x hX)
      refs := hInv.refs.imp hKeep
      stack :=
        hInv.stack.imp fun _ _ => RegionHeld.mono hKeep }⟩
  intro q
  rw [hInv.bound q]
  constructor
  · intro hQ
    rcases hQ with hFt | ⟨hFresh, hLt⟩
    · exact Or.inl hFt
    · exact Or.inr ⟨hFresh, by omega⟩
  · intro hQ
    rcases hQ with hFt | ⟨hFresh, hLt⟩
    · exact Or.inl hFt
    · refine Or.inr ⟨hFresh, ?_⟩
      by_contra hGe
      have := hNone q hFresh (by omega)
      omega

/- Fewer ids may be kept in view. -/
theorem Inv.weaken
    {held' : List (Nat × LabelRef)}
    (hInv : Inv p n ft held regions refs e)
    (hSub : ∀ x ∈ held', x ∈ held) :
    Inv p n ft held' regions refs e := by
  rcases hInv with ⟨insts, hInv⟩
  exact ⟨insts,
    { hInv with
      held := fun x hX => hInv.held x (hSub x hX) }⟩

------
-- Setting Labels
------

variable {c : Nat}

/- The instruction that sets a label. -/
def labelInst (id : Nat) : SpirvInst :=
  ⟨SpirvOp.Label, [id]⟩

/- A label behind the emitted instructions. -/
theorem EmittedAs.label
    {id : Nat}
    (hEmitted : EmittedAs insts e)
    (hWords :
      e'.words = e.words ++ encodeInsts [labelInst id]) :
    EmittedAs (insts ++ [labelInst id]) e' := by
  apply hEmitted.append hWords
  intro i hI
  rw [List.mem_singleton] at hI
  rw [hI]
  show SpirvOp.Label < 2 ^ 16
  decide

/- A label names no label. -/
theorem labelRefIds_label
    (insts : List SpirvInst)
    (id : Nat) :
    labelRefIds (insts ++ [labelInst id]) =
      labelRefIds insts := by
  rw [labelRefIds_append]
  exact List.append_nil _

/- One more emitted place is one more bound place. -/
theorem bound_cons
    {f : Nat}
    (hEntry : entryPc p ≠ some f)
    (emitted : List Nat) :
    {q | q ∈ f :: emitted ∧ entryPc p ≠ some q} =
      insert f {q | q ∈ emitted ∧ entryPc p ≠ some q} := by
  ext q
  simp only [Set.mem_ofPred_eq, List.mem_cons,
    Set.mem_insert_iff]
  constructor
  · intro hQ
    rcases hQ with ⟨hHead | hTail, hNe⟩
    · exact Or.inl hHead
    · exact Or.inr ⟨hTail, hNe⟩
  · intro hQ
    rcases hQ with hHead | ⟨hTail, hNe⟩
    · subst hHead
      exact ⟨Or.inl rfl, hEntry⟩
    · exact ⟨Or.inr hTail, hNe⟩

/- References behind a new label of their target. -/
theorem rebound_succ
    {r : LabelRef}
    (hFresh : FreshStart p c)
    (hSource : r.source < c) :
    Rebound p c r ∨ r.target = c ↔ Rebound p (c + 1) r := by
  unfold Rebound
  constructor
  · intro hR
    rcases hR with ⟨hStart, hLt, hBefore⟩ | hTarget
    · exact ⟨hStart, hLt, by omega⟩
    · rw [hTarget]
      exact ⟨hFresh, hSource, Nat.lt_succ_self c⟩
  · intro hR
    rcases hR with ⟨hStart, hLt, hBefore⟩
    by_cases hTarget : r.target = c
    · exact Or.inr hTarget
    · exact Or.inl ⟨hStart, hLt, by omega⟩

end SpirvEmitter

end M1Switch
