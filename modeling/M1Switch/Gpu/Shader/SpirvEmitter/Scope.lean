import M1Switch.Gpu.Shader.SpirvEmitter.Grammar

/-
  What is defined at each point of the emission.

  Behind every instruction of the stream the ids the emitter
  holds are defined: types and constants of the head, variables
  of registers and predicates.  So every instruction it adds
  uses defined ids and defines a new one, except for labels.

  Key definitions include:
    * `SpirvEmitter.Scope`
    * `SpirvEmitter.InstOk`

  Main results:
    * `grow_place`
    * `keeps_planned`
-/

------
-- Scopes
------

namespace M1Switch

namespace SpirvEmitter

/- The types lines of templates have. -/
def lineTypes : List LineType :=
  [.boolT, .f32T, .i32T, .u32T, .vec2f32T, .vec4f32T,
    .f32UniformPtr, .f32Image2d]

theorem mem_lineTypes (t : LineType) : t ∈ lineTypes := by
  cases t <;> decide

/- The head defines the ids the function uses. -/
structure HeadScope
    (Γ : List SpirvInst)
    (h : HeadIds) : Prop where
  lineType : ∀ t ∈ lineTypes, typeId h.types t ∈ resultsOf Γ
  registers :
    pointeeType Γ h.types.f32Fnptr = some h.types.f32T
  zero : typeOf Γ h.constF32Zero = some h.types.f32T
  one : typeOf Γ h.constF32One = some h.types.f32T
  holds : typeOf Γ h.constTrue = some h.types.boolT
  glsl : h.glslExtId ∈ resultsOf Γ
  cbuf : h.cbufVarId ∈ resultsOf Γ

instance (Γ : List SpirvInst) (h : HeadIds) :
    Decidable (HeadScope Γ h) :=
  decidable_of_iff
    ((∀ t ∈ lineTypes, typeId h.types t ∈ resultsOf Γ) ∧
      pointeeType Γ h.types.f32Fnptr = some h.types.f32T ∧
        typeOf Γ h.constF32Zero = some h.types.f32T ∧
          typeOf Γ h.constF32One = some h.types.f32T ∧
            typeOf Γ h.constTrue = some h.types.boolT ∧
              h.glslExtId ∈ resultsOf Γ ∧
                h.cbufVarId ∈ resultsOf Γ)
    ⟨fun ⟨h1, h2, h3, h4, h5, h6, h7⟩ =>
      ⟨h1, h2, h3, h4, h5, h6, h7⟩,
      fun ⟨h1, h2, h3, h4, h5, h6, h7⟩ =>
        ⟨h1, h2, h3, h4, h5, h6, h7⟩⟩

/- Labels a region holds are allocated. -/
structure StackScope (n : Nat) (s : SsyStackEntry) : Prop where
  merge : s.mergeLabel < n
  loop :
    s.type = .Loop →
      0 < s.continueLabel ∧ s.continueLabel < n

/-
  The emitter behind the instructions `Γ`, with variables `m`
  for registers.  The texture is defined if `tex` holds.
-/
structure Scope
    (tex : Prop)
    (m : GprMap)
    (Γ : List SpirvInst)
    (e : SpirvEmitter) : Prop where
  fresh : ∀ x ∈ resultsOf Γ, 0 < x ∧ x < e.nextId
  nextId : 0 < e.nextId
  head : HeadScope Γ e.headIds
  tex : tex → e.texSampledImageVar ∈ resultsOf Γ
  gpr :
    ∀ r v, m r = some v → typeOf Γ v = some e.types.f32Fnptr
  pred :
    ∀ q v, e.cfgState.predVars q = some v →
      pointeeOf Γ v = some e.types.boolT
  labels :
    ∀ pc id, e.cfgState.pcToLabel pc = some id →
      0 < id ∧ id < e.nextId
  stack :
    ∀ s ∈ e.cfgState.ssyStack, StackScope e.nextId s

/-
  Used ids are defined, the result is new unless it is a
  label, and if `strict` holds the instruction is typed.
-/
structure InstOk
    (strict : Prop)
    (Γ : List SpirvInst)
    (i : SpirvInst) : Prop where
  uses : ∀ x ∈ i.uses, x ∈ resultsOf Γ
  fresh :
    i.opcode ≠ SpirvOp.Label →
      ∀ x ∈ i.results, x ∉ resultsOf Γ
  typed : strict → Settled Γ i

def InRange (n : Nat) (i : SpirvInst) : Prop :=
  ∀ x ∈ i.ids, 0 < x ∧ x < n

/- The code between two emitters, behind `Γ`. -/
structure Grown
    (tex strict : Prop)
    (m : GprMap)
    (Γ : List SpirvInst)
    (e e' : SpirvEmitter)
    (code : List SpirvInst) : Prop where
  words : e'.words = e.words ++ encodeInsts code
  checked : Prefixes.Checked (InstOk strict) Γ code
  range : ∀ i ∈ code, InRange e'.nextId i
  new :
    ∀ i ∈ code, i.opcode ≠ SpirvOp.Label →
      ∀ x ∈ i.results, e.nextId ≤ x
  sized : ∀ i ∈ code, Sized i
  nextId : e.nextId ≤ e'.nextId
  scope : Scope tex m (Γ ++ code) e'

/- Good code leads from one emitter to the other. -/
def Keeps
    (tex strict : Prop)
    (m : GprMap)
    (e e' : SpirvEmitter) : Prop :=
  ∀ Γ, Scope tex m Γ e →
    ∃ code, Grown tex strict m Γ e e' code

------
-- Growing Scopes
------

open Prefixes

variable {tex strict : Prop} {m : GprMap}
variable {Γ a b : List SpirvInst} {e e' e'' : SpirvEmitter}
variable {i : SpirvInst}

theorem HeadScope.append
    {h : HeadIds}
    (hHead : HeadScope Γ h) :
    HeadScope (Γ ++ b) h where
  lineType t hT := by
    rw [resultsOf_append]
    exact List.mem_append_left _ (hHead.lineType t hT)
  registers := pointeeType_append hHead.registers
  zero := typeOf_append hHead.zero
  one := typeOf_append hHead.one
  holds := typeOf_append hHead.holds
  glsl := by
    rw [resultsOf_append]
    exact List.mem_append_left _ hHead.glsl
  cbuf := by
    rw [resultsOf_append]
    exact List.mem_append_left _ hHead.cbuf

theorem InRange.mono
    {n n' : Nat}
    (hRange : InRange n i)
    (hLe : n ≤ n') :
    InRange n' i := by
  intro x hX
  have := hRange x hX
  omega

theorem StackScope.mono
    {n n' : Nat}
    {s : SsyStackEntry}
    (hStack : StackScope n s)
    (hLe : n ≤ n') :
    StackScope n' s := by
  refine ⟨lt_of_lt_of_le hStack.merge hLe, ?_⟩
  intro hLoop
  have := hStack.loop hLoop
  omega

/- An id from `nextId` on is not defined yet. -/
theorem Scope.not_mem
    (hScope : Scope tex m Γ e)
    {x : Nat}
    (hX : e.nextId ≤ x) :
    x ∉ resultsOf Γ := by
  intro hMem
  have := hScope.fresh x hMem
  omega

/- More instructions with results in range. -/
theorem Scope.push
    (hScope : Scope tex m Γ e)
    {n : Nat}
    (hResults :
      ∀ x ∈ resultsOf b, 0 < x ∧ x < e.nextId + n) :
    Scope tex m (Γ ++ b) (e.pushed n b) where
  fresh x hX := by
    rw [nextId_pushed]
    rw [resultsOf_append, List.mem_append] at hX
    rcases hX with hX | hX
    · have := hScope.fresh x hX
      omega
    · exact hResults x hX
  nextId := by
    rw [nextId_pushed]
    exact Nat.add_pos_left hScope.nextId n
  head := hScope.head.append
  tex hTex := by
    rw [resultsOf_append]
    exact List.mem_append_left _ (hScope.tex hTex)
  gpr r v hV := typeOf_append (hScope.gpr r v hV)
  pred q v hV := pointeeOf_append (hScope.pred q v hV)
  labels pc id hId := by
    have := hScope.labels pc id hId
    rw [nextId_pushed]
    omega
  stack s hS :=
    (hScope.stack s hS).mono (Nat.le_add_right _ _)

theorem Grown.refl
    (hScope : Scope tex m Γ e) :
    Grown tex strict m Γ e e [] where
  words := by simp [encodeInsts]
  checked := trivial
  range i hI := by cases hI
  new i hI := by cases hI
  sized i hI := by cases hI
  nextId := le_refl _
  scope := by
    rw [List.append_nil]
    exact hScope

theorem Grown.trans
    {m' : GprMap}
    (hFirst : Grown tex strict m Γ e e' a)
    (hSecond : Grown tex strict m' (Γ ++ a) e' e'' b) :
    Grown tex strict m' Γ e e'' (a ++ b) where
  words := by
    rw [hSecond.words, hFirst.words, encodeInsts_append,
      List.append_assoc]
  checked := checked_append.mpr
    ⟨hFirst.checked, hSecond.checked⟩
  range i hI := by
    rcases List.mem_append.mp hI with hI | hI
    · exact (hFirst.range i hI).mono hSecond.nextId
    · exact hSecond.range i hI
  new i hI hLabel x hX := by
    rcases List.mem_append.mp hI with hI | hI
    · exact hFirst.new i hI hLabel x hX
    · exact hFirst.nextId.trans
        (hSecond.new i hI hLabel x hX)
  sized i hI := by
    rcases List.mem_append.mp hI with hI | hI
    · exact hFirst.sized i hI
    · exact hSecond.sized i hI
  nextId := hFirst.nextId.trans hSecond.nextId
  scope := by
    rw [← List.append_assoc]
    exact hSecond.scope

/- Other fields of the emitter may change. -/
theorem Grown.congr
    (hGrown : Grown tex strict m Γ e e' a)
    (hWords : e''.words = e'.words)
    (hNext : e''.nextId = e'.nextId)
    (hScope : Scope tex m (Γ ++ a) e'') :
    Grown tex strict m Γ e e'' a where
  words := hWords.trans hGrown.words
  checked := hGrown.checked
  range := by
    rw [hNext]
    exact hGrown.range
  new := hGrown.new
  sized := hGrown.sized
  nextId := by
    rw [hNext]
    exact hGrown.nextId
  scope := hScope

theorem Keeps.refl : Keeps tex strict m e e :=
  fun _ hScope => ⟨[], Grown.refl hScope⟩

theorem Keeps.trans
    (hFirst : Keeps tex strict m e e')
    (hSecond : Keeps tex strict m e' e'') :
    Keeps tex strict m e e'' := by
  intro Γ hScope
  rcases hFirst Γ hScope with ⟨a, hA⟩
  rcases hSecond (Γ ++ a) hA.scope with ⟨b, hB⟩
  exact ⟨a ++ b, hA.trans hB⟩

/- One instruction more. -/
theorem Scope.grow
    (hScope : Scope tex m Γ e)
    {n : Nat}
    (hUses : ∀ x ∈ i.uses, x ∈ resultsOf Γ)
    (hNew :
      i.opcode ≠ SpirvOp.Label →
        ∀ x ∈ i.results, e.nextId ≤ x)
    (hTyped : strict → Settled Γ i)
    (hRange : InRange (e.nextId + n) i)
    (hSized : Sized i) :
    Grown tex strict m Γ e (e.pushed n [i]) [i] where
  words := rfl
  checked := checked_singleton
    ⟨hUses, fun hLabel x hX =>
      hScope.not_mem (hNew hLabel x hX), hTyped⟩
  new j hJ := by
    rw [List.mem_singleton] at hJ
    subst hJ
    exact hNew
  range j hJ := by
    rw [List.mem_singleton] at hJ
    subst hJ
    exact hRange
  sized j hJ := by
    rw [List.mem_singleton] at hJ
    subst hJ
    exact hSized
  nextId := Nat.le_add_right _ _
  scope := by
    apply hScope.push
    intro x hX
    rw [resultsOf, List.flatMap_singleton] at hX
    apply hRange
    unfold SpirvInst.ids
    exact List.mem_append_left _ (List.mem_append_left _ hX)

------
-- Forms Of Instructions
------

/- Defined ids are in range. -/
theorem Scope.inRange_of_mem
    (hScope : Scope tex m Γ e)
    {n x : Nat}
    (hX : x ∈ resultsOf Γ) :
    0 < x ∧ x < e.nextId + n := by
  have := hScope.fresh x hX
  omega

/- An instruction that defines the next id. -/
theorem Scope.grow_new
    (hScope : Scope tex m Γ e)
    (hResults : i.results = [e.nextId])
    (hUses : ∀ x ∈ i.uses, x ∈ resultsOf Γ)
    (hLabels : i.ofKind .label = [])
    (hTyped : strict → Settled Γ i)
    (hSized : Sized i) :
    Grown tex strict m Γ e (e.pushed 1 [i]) [i] := by
  refine hScope.grow hUses ?_ hTyped ?_ hSized
  · intro _ x hX
    rw [hResults, List.mem_singleton] at hX
    exact hX.ge
  · intro x hX
    unfold SpirvInst.ids at hX
    rw [hResults, hLabels, List.append_nil, List.mem_append,
      List.mem_singleton] at hX
    have hNext := hScope.nextId
    rcases hX with hX | hX
    · omega
    · exact hScope.inRange_of_mem (hUses x hX)

/- An instruction without a result. -/
theorem Scope.grow_none
    (hScope : Scope tex m Γ e)
    (hResults : i.results = [])
    (hUses : ∀ x ∈ i.uses, x ∈ resultsOf Γ)
    (hLabels :
      ∀ x ∈ i.ofKind .label, 0 < x ∧ x < e.nextId)
    (hTyped : strict → Settled Γ i)
    (hSized : Sized i) :
    Grown tex strict m Γ e (e.pushed 0 [i]) [i] := by
  refine hScope.grow hUses ?_ hTyped ?_ hSized
  · intro _ x hX
    rw [hResults] at hX
    cases hX
  · intro x hX
    unfold SpirvInst.ids at hX
    rw [hResults, List.nil_append, List.mem_append] at hX
    rcases hX with hX | hX
    · exact hScope.inRange_of_mem (hUses x hX)
    · exact hLabels x hX

/- The next id is defined by the instruction added. -/
theorem Scope.definitionOf_next
    (hScope : Scope tex m Γ e)
    (hResults : i.results = [e.nextId]) :
    definitionOf (Γ ++ [i]) e.nextId = some i := by
  rw [definitionOf_new (hScope.not_mem (le_refl _))]
  unfold definitionOf
  rw [List.find?_cons_of_pos]
  rw [hResults]
  simp

theorem Scope.typeOf_next
    (hScope : Scope tex m Γ e)
    {t : Nat}
    (hResults : i.results = [e.nextId])
    (hType : i.resultType = some t) :
    typeOf (Γ ++ [i]) e.nextId = some t := by
  unfold typeOf
  rw [hScope.definitionOf_next hResults]
  exact hType

/- Opcodes of typed results. -/
def ValueOp (opcode : Nat) : Prop :=
  operandKinds opcode = ([.use, .result], .use) ∧
    opcode ≠ SpirvOp.EntryPoint

instance (opcode : Nat) : Decidable (ValueOp opcode) :=
  inferInstanceAs (Decidable (_ ∧ _))

section

variable {opcode : Nat} (hOp : ValueOp opcode) (t id : Nat)
variable (ops : List Nat)

include hOp

theorem results_value :
    (⟨opcode, t :: id :: ops⟩ : SpirvInst).results =
      [id] := by
  simp [SpirvInst.results, SpirvInst.ofKind,
    SpirvInst.plainOperands, hOp.1, hOp.2, pickOperands]

theorem uses_value :
    (⟨opcode, t :: id :: ops⟩ : SpirvInst).uses =
      t :: ops := by
  simp [SpirvInst.uses, SpirvInst.ofKind,
    SpirvInst.plainOperands, hOp.1, hOp.2, pickOperands]

theorem labels_value :
    (⟨opcode, t :: id :: ops⟩ : SpirvInst).ofKind .label =
      [] := by
  simp [SpirvInst.ofKind, SpirvInst.plainOperands, hOp.1,
    hOp.2, pickOperands]

theorem resultType_value :
    (⟨opcode, t :: id :: ops⟩ : SpirvInst).resultType =
      some t := by
  simp [SpirvInst.resultType, hOp.1]

end

/- Opcodes that read or write no memory. -/
def Pure (opcode : Nat) : Prop :=
  opcode ∉ [SpirvOp.Load, SpirvOp.Store, SpirvOp.AccessChain]

instance (opcode : Nat) : Decidable (Pure opcode) :=
  inferInstanceAs (Decidable (¬ _))

theorem settled_of_pure
    (hPure : Pure i.opcode) :
    Settled Γ i := by
  unfold Pure at hPure
  simp only [List.mem_cons, List.not_mem_nil, or_false,
    not_or] at hPure
  exact ⟨⟨fun h => absurd h hPure.1,
    fun h => absurd h hPure.2.1,
    fun h => absurd h hPure.2.2⟩, hPure.2.2⟩

/- A load through a typed pointer. -/
theorem Scope.grow_load
    (hScope : Scope tex m Γ e)
    {t ptr : Nat}
    (hType : t ∈ resultsOf Γ)
    (hPtr : pointeeOf Γ ptr = some t) :
    Grown tex strict m Γ e
      (e.pushed 1 [⟨SpirvOp.Load, [t, e.nextId, ptr]⟩])
      [⟨SpirvOp.Load, [t, e.nextId, ptr]⟩] := by
  refine hScope.grow_new rfl ?_ rfl ?_
    (controlForms_sized.load _ _ _)
  · intro x hX
    have hUses : x = t ∨ x = ptr := by
      simpa using (show x ∈ [t, ptr] from hX)
    rcases hUses with hX | hX
    · rw [hX]
      exact hType
    · rw [hX]
      exact mem_resultsOf_of_pointeeOf hPtr
  · intro _
    exact settled_load hPtr _

/- A store of a value of the right type. -/
theorem Scope.grow_store
    (hScope : Scope tex m Γ e)
    {t ptr v : Nat}
    (hPtr : pointeeOf Γ ptr = some t)
    (hValue : v ∈ resultsOf Γ)
    (hType : strict → typeOf Γ v = some t) :
    Grown tex strict m Γ e
      (e.pushed 0 [⟨SpirvOp.Store, [ptr, v]⟩])
      [⟨SpirvOp.Store, [ptr, v]⟩] := by
  refine hScope.grow_none rfl ?_ ?_ ?_
    (frameForms_sized.store _ _)
  · intro x hX
    have hUses : x = ptr ∨ x = v := by
      simpa using (show x ∈ [ptr, v] from hX)
    rcases hUses with hX | hX
    · rw [hX]
      exact mem_resultsOf_of_pointeeOf hPtr
    · rw [hX]
      exact hValue
  · intro x hX
    cases hX
  · intro hStrict
    exact settled_store hPtr (hType hStrict)

------
-- Plans
------

open StraightLine Prefixes

variable {inst : ShaderInstruction} {plan : Plan}

/- A mapped register points to a float. -/
theorem Scope.pointeeOf_getGpr
    (hScope : Scope tex m Γ e)
    {r : Nat}
    (hVar : getGpr m r ≠ 0) :
    pointeeOf Γ (getGpr m r) = some e.types.f32T := by
  unfold getGpr at hVar ⊢
  cases hM : m r with
  | none =>
      rw [hM] at hVar
      exact absurd rfl hVar
  | some v =>
      unfold pointeeOf
      show (typeOf Γ v).bind _ = _
      rw [hScope.gpr r v hM]
      exact hScope.head.registers

/- Loads of registers are floats. -/
theorem Scope.grow_loaded :
    ∀ (rs : List Nat) (Γ : List SpirvInst) (e : SpirvEmitter),
      Scope tex m Γ e →
        Grown tex strict m Γ e (loaded m rs e)
            (loadCode m e.types.f32T e.nextId rs) ∧
          ∀ x ∈ loadIds m e.nextId rs, x ≠ 0 →
            typeOf (Γ ++ loadCode m e.types.f32T e.nextId rs)
              x = some e.types.f32T := by
  intro rs
  induction rs with
  | nil =>
      intro Γ e hScope
      refine ⟨?_, ?_⟩
      · unfold loaded loadCode
        dsimp only
        rw [List.length_nil, pushed_nil]
        exact Grown.refl hScope
      · intro x hX
        cases hX
  | cons r rs ih =>
      intro Γ e hScope
      unfold loaded loadCode loadIds
      by_cases hVar : getGpr m r = 0
      · rw [if_pos hVar, if_pos hVar]
        rcases ih Γ e hScope with ⟨hGrown, hIds⟩
        refine ⟨hGrown, ?_⟩
        intro x hX hZero
        rcases List.mem_cons.mp hX with hX | hX
        · exact absurd hX hZero
        · exact hIds x hX hZero
      · rw [if_neg hVar, if_neg hVar]
        have hF32 : e.types.f32T ∈ resultsOf Γ :=
          hScope.head.lineType .f32T (mem_lineTypes _)
        have hLoad :
            Grown tex strict m Γ e (e.pushed 1 _)
              [⟨SpirvOp.Load,
                [e.types.f32T, e.nextId, getGpr m r]⟩] :=
          hScope.grow_load hF32
            (hScope.pointeeOf_getGpr hVar)
        rcases ih _ _ hLoad.scope with ⟨hGrown, hIds⟩
        simp only [nextId_pushed, types_pushed] at hGrown hIds
        refine ⟨?_, ?_⟩
        · have hBoth := hLoad.trans hGrown
          unfold loaded at hBoth
          simp only [pushed_pushed, nextId_pushed,
            types_pushed, Nat.add_comm 1] at hBoth
          exact hBoth
        · intro x hX hZero
          rw [List.append_cons]
          rcases List.mem_cons.mp hX with hX | hX
          · rw [hX]
            exact typeOf_append (hScope.typeOf_next rfl rfl)
          · exact hIds x hX hZero

/- Core instructions of a line give typed results. -/
def LineOk (l : Line LineOp) : Prop :=
  match l.op.form with
  | .core opcode => ValueOp opcode
  | .ext _ => True
  | .const _ => True

instance (l : Line LineOp) : Decidable (LineOk l) :=
  match h : l.op.form with
  | .core opcode =>
      decidable_of_iff (ValueOp opcode)
        (by unfold LineOk; rw [h])
  | .ext _ => isTrue (by unfold LineOk; rw [h]; trivial)
  | .const _ => isTrue (by unfold LineOk; rw [h]; trivial)

/- A line with defined operands. -/
theorem Scope.grow_line
    (hScope : Scope tex m Γ e)
    {l : Line LineOp}
    {ops : List Nat}
    (hLine : LineOk l)
    (hShape :
      SizedShape (lineShape l).1 (lineShape l).2)
    (hPure : strict → Pure (lineShape l).1)
    (hLength : ops.length = l.refs.length)
    (hOps : ∀ x ∈ ops, x ∈ resultsOf Γ) :
    Grown tex strict m Γ e
        (e.pushed 1 [placedInst e ⟨e.nextId, l.op, ops⟩])
        [placedInst e ⟨e.nextId, l.op, ops⟩] ∧
      typeOf (Γ ++ [placedInst e ⟨e.nextId, l.op, ops⟩])
        e.nextId = some (typeId e.types l.op.type) := by
  have hType : typeId e.types l.op.type ∈ resultsOf Γ :=
    hScope.head.lineType _ (mem_lineTypes _)
  have hSized :
      Sized (placedInst e ⟨e.nextId, l.op, ops⟩) :=
    shaped_placedInst hShape _ _ hLength
  rcases l with ⟨⟨form, type⟩, refs⟩
  cases form with
  | core opcode =>
      have hOp : ValueOp opcode := hLine
      refine ⟨hScope.grow_new (results_value hOp _ _ _) ?_
        (labels_value hOp _ _ _)
        (fun hStrict => settled_of_pure (hPure hStrict))
        hSized, ?_⟩
      · intro x hX
        have hUses : x ∈ typeId e.types type :: ops := by
          rw [← uses_value hOp _ e.nextId]
          exact hX
        rcases List.mem_cons.mp hUses with hX | hX
        · rw [hX]
          exact hType
        · exact hOps x hX
      · exact hScope.typeOf_next (results_value hOp _ _ _)
          (resultType_value hOp _ _ _)
  | ext instruction =>
      refine ⟨hScope.grow_new rfl ?_ ?_
        (fun hStrict => settled_of_pure (hPure hStrict))
        hSized, ?_⟩
      · intro x hX
        have hUses :
            x ∈ typeId e.types type :: e.glslExtId :: ops :=
          hX
        rcases List.mem_cons.mp hUses with hX | hX
        · rw [hX]
          exact hType
        · rcases List.mem_cons.mp hX with hX | hX
          · rw [hX]
            exact hScope.head.glsl
          · exact hOps x hX
      · rfl
      · exact hScope.typeOf_next rfl rfl
  | const value =>
      refine ⟨hScope.grow_new rfl ?_ rfl
        (fun hStrict => settled_of_pure (hPure hStrict))
        hSized, ?_⟩
      · intro x hX
        have hUses : x ∈ [typeId e.types type] := hX
        rw [List.mem_singleton] at hUses
        rw [hUses]
        exact hType
      · exact hScope.typeOf_next rfl rfl

/- What the code of a template needs of a line. -/
structure LineFits
    (strict : Prop)
    (args : List Nat)
    (Γ : List SpirvInst)
    (l : Line LineOp) : Prop where
  ok : LineOk l
  shape : SizedShape (lineShape l).1 (lineShape l).2
  pure : strict → Pure (lineShape l).1
  args : ∀ i, Ref.arg i ∈ l.refs → args.getD i 0 ∈ resultsOf Γ

theorem LineFits.append
    {args : List Nat}
    {l : Line LineOp}
    (hFits : LineFits strict args Γ l)
    (b : List SpirvInst) :
    LineFits strict args (Γ ++ b) l := by
  refine ⟨hFits.ok, hFits.shape, hFits.pure, ?_⟩
  intro i hI
  rw [resultsOf_append]
  exact List.mem_append_left _ (hFits.args i hI)

/-
  Placed lines, by induction; `k` lines stand in front.  Each
  line has the type of its operation.
-/
theorem Scope.grow_place
    {arity n : Nat}
    {args : List Nat} :
    ∀ (ls : List (Line LineOp)) (k : Nat)
      (Γ : List SpirvInst) (e : SpirvEmitter),
      Scope tex m Γ e →
        e.nextId = n + k →
          (∀ l ∈ ls, LineFits strict args Γ l) →
            Scoped arity k ls →
              (∀ j < k, n + j ∈ resultsOf Γ) →
                Grown tex strict m Γ e
                  (e.pushed ls.length
                    ((place args n k ls).map (placedInst e)))
                  ((place args n k ls).map (placedInst e)) ∧
                ∀ j l, ls[j]? = some l →
                  typeOf (Γ ++
                    (place args n k ls).map (placedInst e))
                      (n + k + j) =
                        some (typeId e.types l.op.type) := by
  intro ls
  induction ls with
  | nil =>
      intro k Γ e hScope _ _ _ _
      refine ⟨?_, ?_⟩
      · simp only [place, List.map_nil, List.length_nil,
          pushed_nil]
        exact Grown.refl hScope
      · intro j l hL
        simp at hL
  | cons l ls ih =>
      intro k Γ e hScope hNext hFits hScoped hLines
      have hLine := hFits l List.mem_cons_self
      have hOps :
          ∀ x ∈ l.refs.map (Ref.id args n),
            x ∈ resultsOf Γ := by
        intro x hX
        rcases List.mem_map.mp hX with ⟨r, hR, hId⟩
        subst hId
        cases r with
        | arg i => exact hLine.args i hR
        | line i => exact hLines i (hScoped.1 _ hR)
      have hOne :=
        hScope.grow_line hLine.ok hLine.shape hLine.pure
          (List.length_map (Ref.id args n)) hOps
      rw [hNext] at hOne
      rcases hOne with ⟨hGrown, hType⟩
      have hDefined := mem_resultsOf_of_typeOf hType
      have hRest :=
        ih (k + 1) _ _ hGrown.scope
          (by rw [nextId_pushed, hNext, Nat.add_assoc])
          (fun l' hL' =>
            (hFits l' (List.mem_cons_of_mem l hL')).append _)
          hScoped.2 (by
            intro j hJ
            rcases Nat.lt_succ_iff_lt_or_eq.mp hJ with hJ | hJ
            · rw [resultsOf_append]
              exact List.mem_append_left _ (hLines j hJ)
            · rw [hJ]
              exact hDefined)
      rcases hRest with ⟨hGrownRest, hTypes⟩
      refine ⟨?_, ?_⟩
      · have hBoth := hGrown.trans hGrownRest
        rw [pushed_pushed, Nat.add_comm 1] at hBoth
        exact hBoth
      · intro j l' hL'
        simp only [place, List.map_cons]
        rw [List.append_cons]
        cases j with
        | zero =>
            simp only [List.getElem?_cons_zero,
              Option.some.injEq] at hL'
            subst hL'
            exact typeOf_append hType
        | succ j =>
            rw [List.getElem?_cons_succ] at hL'
            have := hTypes j l' hL'
            rw [show n + k + (j + 1) = n + (k + 1) + j by omega]
            exact this

/- Another state of labels and predicates. -/
theorem Scope.setCfg
    (hScope : Scope tex m Γ e)
    {c : CfgEmitState}
    (hPred :
      ∀ q v, c.predVars q = some v →
        pointeeOf Γ v = some e.types.boolT)
    (hLabels :
      ∀ pc id, c.pcToLabel pc = some id →
        0 < id ∧ id < e.nextId)
    (hStack : ∀ s ∈ c.ssyStack, StackScope e.nextId s) :
    Scope tex m Γ { e with cfgState := c } :=
  ⟨hScope.fresh, hScope.nextId, hScope.head, hScope.tex,
    hScope.gpr, hPred, hLabels, hStack⟩

/- A pointer type to a defined type. -/
theorem Scope.grow_typePointer
    (hScope : Scope tex m Γ e)
    (storage : Nat)
    {t : Nat}
    (hType : t ∈ resultsOf Γ) :
    Grown tex strict m Γ e
      (e.pushed 1 [⟨SpirvOp.TypePointer,
        [e.nextId, storage, t]⟩])
      [⟨SpirvOp.TypePointer, [e.nextId, storage, t]⟩] := by
  have hPure : Pure SpirvOp.TypePointer := by decide
  have hSized : SizedShape SpirvOp.TypePointer 3 := by decide
  refine hScope.grow_new rfl ?_ rfl
    (fun _ => settled_of_pure hPure) hSized
  intro x hX
  have hUses : x ∈ [t] := hX
  rw [List.mem_singleton] at hUses
  rw [hUses]
  exact hType

/- A variable of a defined pointer type. -/
theorem Scope.grow_variable
    (hScope : Scope tex m Γ e)
    (storage : Nat)
    {t : Nat}
    (hType : t ∈ resultsOf Γ) :
    Grown tex strict m Γ e
      (e.pushed 1 [⟨SpirvOp.Variable,
        [t, e.nextId, storage]⟩])
      [⟨SpirvOp.Variable, [t, e.nextId, storage]⟩] := by
  have hPure : Pure SpirvOp.Variable := by decide
  have hSized : SizedShape SpirvOp.Variable 3 := by decide
  refine hScope.grow_new rfl ?_ rfl
    (fun _ => settled_of_pure hPure) hSized
  intro x hX
  have hUses : x ∈ [t] := hX
  rw [List.mem_singleton] at hUses
  rw [hUses]
  exact hType

/- A new variable for a predicate. -/
theorem Scope.grow_predDecl
    (hScope : Scope tex m Γ e) :
    Grown tex strict m Γ e (e.pushed 2 (predDeclCode e))
        (predDeclCode e) ∧
      pointeeOf (Γ ++ predDeclCode e) (e.nextId + 1) =
        some e.types.boolT := by
  have hBool : e.types.boolT ∈ resultsOf Γ :=
    hScope.head.lineType .boolT (mem_lineTypes _)
  have hPointer :
      Grown tex strict m Γ e (e.pushed 1 _)
        [⟨SpirvOp.TypePointer,
          [e.nextId, SpirvStorageClass.Function,
            e.types.boolT]⟩] :=
    hScope.grow_typePointer _ hBool
  have hPointee :
      pointeeType (Γ ++
        [⟨SpirvOp.TypePointer,
          [e.nextId, SpirvStorageClass.Function,
            e.types.boolT]⟩]) e.nextId =
          some e.types.boolT := by
    unfold pointeeType
    rw [hScope.definitionOf_next rfl]
    rfl
  have hDefined :
      e.nextId ∈ resultsOf (Γ ++
        [⟨SpirvOp.TypePointer,
          [e.nextId, SpirvStorageClass.Function,
            e.types.boolT]⟩]) := by
    rw [resultsOf_append]
    exact List.mem_append_right _ List.mem_cons_self
  have hVariable :
      Grown tex strict m _ _ (pushed _ 1 _)
        [⟨SpirvOp.Variable,
          [e.nextId, e.nextId + 1,
            SpirvStorageClass.Function]⟩] :=
    hPointer.scope.grow_variable _ hDefined
  refine ⟨?_, ?_⟩
  · have hBoth := hPointer.trans hVariable
    rw [pushed_pushed] at hBoth
    exact hBoth
  · have hType := hPointer.scope.typeOf_next
      (t := e.nextId)
      (i := ⟨SpirvOp.Variable,
        [e.nextId, e.nextId + 1,
          SpirvStorageClass.Function]⟩) rfl rfl
    unfold predDeclCode
    rw [List.append_cons]
    unfold pointeeOf
    rw [show typeOf _ (e.nextId + 1) = _ from hType]
    exact pointeeType_append hPointee

/- The variable of a predicate points to a boolean. -/
theorem Scope.grow_predDeclared
    (hScope : Scope tex m Γ e)
    (q : Nat) :
    ∃ code,
      Grown tex strict m Γ e (predDeclared q e) code ∧
        pointeeOf (Γ ++ code) (predVarId q e) =
          some e.types.boolT := by
  unfold predDeclared predVarId
  cases hVar : e.cfgState.predVars q with
  | some v =>
      refine ⟨[], Grown.refl hScope, ?_⟩
      rw [List.append_nil]
      exact hScope.pred q v hVar
  | none =>
      have hDecl :
          Grown tex strict m Γ e _ _ ∧
            pointeeOf (Γ ++ predDeclCode e) (e.nextId + 1) =
              some e.types.boolT :=
        hScope.grow_predDecl
      rcases hDecl with ⟨hGrown, hPointee⟩
      refine ⟨predDeclCode e, ?_, hPointee⟩
      refine hGrown.congr rfl rfl ?_
      have hOld := hGrown.scope
      refine hOld.setCfg ?_ hOld.labels hOld.stack
      intro q' v hV
      by_cases hQ : q' = q
      · subst hQ
        simp only [Function.update_self, Option.some.injEq]
          at hV
        rw [← hV]
        exact hPointee
      · simp only [Function.update_of_ne hQ] at hV
        exact hOld.pred q' v hV

/- The type of the value a destination takes. -/
def destType : PlanDest → LineType
| .gpr => .f32T
| .pred => .boolT

/- The store of a value with the right type. -/
theorem Scope.grow_finished
    (hScope : Scope tex m Γ e)
    (dest : PlanDest)
    {v : Nat}
    (hValue : v ∈ resultsOf Γ)
    (hType :
      strict →
        typeOf Γ v = some (typeId e.types (destType dest))) :
    ∃ code,
      Grown tex strict m Γ e (finished dest inst m v e)
        code := by
  cases dest with
  | gpr =>
      unfold finished storeCode
      dsimp only
      split_ifs with hVar
      · rw [pushed_nil]
        exact ⟨[], Grown.refl hScope⟩
      · exact ⟨_, hScope.grow_store
          (hScope.pointeeOf_getGpr hVar) hValue hType⟩
  | pred =>
      have hDeclared :
          ∃ code, Grown tex strict m Γ e _ code ∧ _ :=
        hScope.grow_predDeclared inst.dest.predIndex
      rcases hDeclared with ⟨code, hGrown, hPointee⟩
      have hValue' : v ∈ resultsOf (Γ ++ code) := by
        rw [resultsOf_append]
        exact List.mem_append_left _ hValue
      exact ⟨_, hGrown.trans
        (hGrown.scope.grow_store hPointee hValue'
          fun hStrict => typeOf_append (hType hStrict))⟩

------
-- Instructions With A Plan
------

open StraightLine

/- The type of a template's value; sources are floats. -/
def Template.resultType (t : Template) : Option LineType :=
  match t.result with
  | .arg i => if i = 2 ∨ i = 3 then none else some .f32T
  | .line i => t.lines[i]?.map (·.op.type)

/- What all plans have in common. -/
structure PlanFits (plan : Plan) : Prop where
  arity : plan.arity ≤ 3
  linesScoped :
    Scoped (4 + plan.arity) 0 plan.template.lines
  lines : ∀ l ∈ plan.template.lines, LineOk l
  result :
    plan.template.result.Scoped (4 + plan.arity)
      plan.template.lines.length
  resultArg :
    plan.template.result ≠ cbufRef ∧
      plan.template.result ≠ texRef
  texture :
    plan.gate ≠ .tex →
      ∀ l ∈ plan.template.lines, texRef ∉ l.refs
  pure :
    plan.gate = .always →
      ∀ l ∈ plan.template.lines, Pure (lineShape l).1
  resultType :
    plan.gate = .always →
      plan.template.resultType = some (destType plan.dest)

theorem planFits_plans : ∀ plan ∈ plans, PlanFits plan := by
  have hArity : ∀ plan ∈ plans, plan.arity ≤ 3 := by decide
  have hScoped :
      ∀ plan ∈ plans,
        Scoped (4 + plan.arity) 0 plan.template.lines := by
    decide
  have hLines :
      ∀ plan ∈ plans,
        ∀ l ∈ plan.template.lines, LineOk l := by
    decide
  have hResult :
      ∀ plan ∈ plans,
        plan.template.result.Scoped (4 + plan.arity)
          plan.template.lines.length := by
    decide
  have hArg :
      ∀ plan ∈ plans,
        plan.template.result ≠ cbufRef ∧
          plan.template.result ≠ texRef := by
    decide
  have hTexture :
      ∀ plan ∈ plans, plan.gate ≠ .tex →
        ∀ l ∈ plan.template.lines, texRef ∉ l.refs := by
    decide
  have hPure :
      ∀ plan ∈ plans, plan.gate = .always →
        ∀ l ∈ plan.template.lines, Pure (lineShape l).1 := by
    decide
  have hType :
      ∀ plan ∈ plans, plan.gate = .always →
        plan.template.resultType =
          some (destType plan.dest) := by
    decide
  intro plan hPlan
  exact ⟨hArity plan hPlan, hScoped plan hPlan,
    hLines plan hPlan, hResult plan hPlan, hArg plan hPlan,
    hTexture plan hPlan, hPure plan hPlan, hType plan hPlan⟩

theorem length_loadIds :
    ∀ (rs : List Nat) (n : Nat),
      (loadIds m n rs).length = rs.length := by
  intro rs
  induction rs with
  | nil =>
      intro n
      rfl
  | cons r rs ih =>
      intro n
      unfold loadIds
      split_ifs
      · rw [List.length_cons, ih, List.length_cons]
      · rw [List.length_cons, ih, List.length_cons]

theorem length_srcRegs
    (inst : ShaderInstruction)
    {arity : Nat}
    (hArity : arity ≤ 3) :
    (srcRegs inst arity).length = arity := by
  unfold srcRegs
  rw [List.length_map, List.length_take]
  exact Nat.min_eq_left hArity

/- An argument other than the texture is defined. -/
theorem Scope.mem_templateArgs
    (hScope : Scope tex m Γ e)
    {srcs : List Nat}
    (hSrcs : ∀ x ∈ srcs, x ∈ resultsOf Γ)
    {i : Nat}
    (hI : i < 4 + srcs.length)
    (hTex : i = 3 → tex) :
    (templateArgs e srcs).getD i 0 ∈ resultsOf Γ := by
  match i with
  | 0 => exact mem_resultsOf_of_typeOf hScope.head.zero
  | 1 => exact mem_resultsOf_of_typeOf hScope.head.one
  | 2 => exact hScope.head.cbuf
  | 3 => exact hScope.tex (hTex rfl)
  | j + 4 =>
      have hJ : j < srcs.length := by omega
      show srcs.getD j 0 ∈ _
      rw [List.getD_eq_getElem _ _ hJ]
      exact hSrcs _ (List.getElem_mem hJ)

/- The value of a template and its type. -/
theorem Scope.resultId_template
    {Δ : List SpirvInst}
    (hScope : Scope tex m Γ e)
    {srcs : List Nat}
    (hSrcs : ∀ x ∈ srcs, typeOf Γ x = some e.types.f32T)
    (hFits : PlanFits plan)
    (hLength : srcs.length = plan.arity)
    (hLines :
      ∀ j l, plan.template.lines[j]? = some l →
        typeOf (Γ ++ Δ) (e.nextId + j) =
          some (typeId e.types l.op.type)) :
    plan.template.resultId e srcs ∈ resultsOf (Γ ++ Δ) ∧
      ∀ t, plan.template.resultType = some t →
        typeOf (Γ ++ Δ) (plan.template.resultId e srcs) =
          some (typeId e.types t) := by
  have hScoped := hFits.result
  have hArg := hFits.resultArg
  unfold Template.resultId Template.resultType
  cases hResult : plan.template.result with
  | arg i =>
      rw [hResult] at hScoped hArg
      have hI : i < 4 + srcs.length := by
        rw [hLength]
        exact hScoped
      have hType :
          typeOf (Γ ++ Δ) ((templateArgs e srcs).getD i 0) =
            some e.types.f32T := by
        apply typeOf_append
        match i with
        | 0 => exact hScope.head.zero
        | 1 => exact hScope.head.one
        | 2 => exact absurd rfl hArg.1
        | 3 => exact absurd rfl hArg.2
        | j + 4 =>
            have hJ : j < srcs.length := by omega
            show typeOf Γ (srcs.getD j 0) = _
            rw [List.getD_eq_getElem _ _ hJ]
            exact hSrcs _ (List.getElem_mem hJ)
      refine ⟨mem_resultsOf_of_typeOf hType, ?_⟩
      intro t hT
      dsimp only at hT
      split_ifs at hT
      cases hT
      exact hType
  | line i =>
      rw [hResult] at hScoped
      have hI : i < plan.template.lines.length := hScoped
      have hLine :=
        hLines i _ (List.getElem?_eq_getElem hI)
      refine ⟨mem_resultsOf_of_typeOf hLine, ?_⟩
      intro t hT
      simp only [List.getElem?_eq_getElem hI, Option.map_some,
        Option.some.injEq] at hT
      rw [← hT]
      exact hLine

/- Every line of a plan fits the scope behind its loads. -/
theorem Scope.lineFits
    (hScope : Scope tex m Γ e)
    {srcs : List Nat}
    (hSrcs : ∀ x ∈ srcs, x ∈ resultsOf Γ)
    (hLength : srcs.length = plan.arity)
    (hPlan : plan ∈ plans)
    (hTex : plan.gate = .tex → tex)
    (hStrict : strict → plan.gate = .always) :
    ∀ l ∈ plan.template.lines,
      LineFits strict (templateArgs e srcs) Γ l := by
  intro l hL
  have hFits := planFits_plans plan hPlan
  refine ⟨hFits.lines l hL, ?_, ?_, ?_⟩
  · apply sizedShape_plans plan hPlan
    unfold planShapes
    rw [List.mem_append, List.mem_append]
    exact Or.inl (Or.inr (List.mem_map_of_mem hL))
  · intro hS
    exact hFits.pure (hStrict hS) l hL
  · intro i hI
    apply hScope.mem_templateArgs hSrcs
    · rw [hLength]
      exact scoped_of_mem hFits.linesScoped hL hI
    · intro hThree
      subst hThree
      by_cases hGate : plan.gate = .tex
      · exact hTex hGate
      · exact absurd hI (hFits.texture hGate l hL)

/- The code of a plan. -/
theorem keeps_planned
    (hPlan : plan ∈ plans)
    (hTex :
      plan.gate = .tex → e.texSampledImageVar ≠ 0 → tex)
    (hStrict : strict → plan.gate = .always) :
    Keeps tex strict m e (planned plan inst m e) := by
  intro Γ hScope
  have hFits := planFits_plans plan hPlan
  unfold planned
  dsimp only
  have hLoaded :
      Grown tex strict m Γ e _ _ ∧ _ :=
    hScope.grow_loaded (srcRegs inst plan.arity) Γ e
  rcases hLoaded with ⟨hLoads, hTypes⟩
  split_ifs with hCount hReady
  · have hSrcs :
        ∀ x ∈ loadIds m e.nextId (srcRegs inst plan.arity),
          typeOf (Γ ++ loadCode m e.types.f32T e.nextId
            (srcRegs inst plan.arity)) x =
              some e.types.f32T := by
      intro x hX
      apply hTypes x hX
      intro hZero
      rw [hZero] at hX
      exact hReady.1 hX
    have hLength :
        (loadIds m e.nextId
          (srcRegs inst plan.arity)).length = plan.arity := by
      rw [length_loadIds, length_srcRegs inst hFits.arity]
    have hGate : plan.gate = .tex → tex := by
      intro hIs
      apply hTex hIs
      have hId := hReady.2
      rw [hIs] at hId
      exact hId
    have hLines :=
      hLoads.scope.lineFits
        (fun x hX => mem_resultsOf_of_typeOf (hSrcs x hX))
        hLength hPlan hGate hStrict
    have hPlaced :=
      Scope.grow_place plan.template.lines 0 _ _ hLoads.scope
        rfl hLines hFits.linesScoped
        (fun j hJ => absurd hJ (Nat.not_lt_zero j))
    rcases hPlaced with ⟨hCode, hLineTypes⟩
    rcases hLoads.scope.resultId_template hSrcs hFits hLength
      hLineTypes with ⟨hValue, hType⟩
    have hFinished :
        ∃ code, Grown tex strict m _ _
          (finished plan.dest inst m _ _) code :=
      hCode.scope.grow_finished plan.dest hValue
        fun hS => hType _ (hFits.resultType (hStrict hS))
    rcases hFinished with ⟨code, hStore⟩
    exact ⟨_, (hLoads.trans hCode).trans
      (by rw [← List.append_assoc]; exact hStore)⟩
  · exact ⟨_, hLoads⟩
  · exact ⟨[], Grown.refl hScope⟩

end SpirvEmitter

end M1Switch
