import M1Switch.Gpu.Shader.SpirvEmitter.ScopeRun

/-
  Types of loads, stores and access chains.

  Registers are float variables, and every plan but two stores
  a float into them.  A constant load indexes a structure with
  a float constant, and a texture instruction loads under the
  type of the pointer.

  Key definitions include:
    * `untypedOpcodes`

  Main results:
    * `emit_typeSafe_iff`
-/

------
-- Programs Without Resource Accesses
------

namespace M1Switch

namespace SpirvEmitter

variable {inst : ShaderInstruction} {plan : Plan}
variable {p : ShaderProgram}

/- Opcodes whose code does not fit its types. -/
def untypedOpcodes : List ShaderOpcode :=
  [.LDC, .TEX]

/- Only they need a variable of the head. -/
theorem gate_of_planOf
    (hPlan : planOf inst = some plan)
    (hOp : inst.opcode ∉ untypedOpcodes) :
    plan.gate = .always := by
  unfold planOf at hPlan
  split at hPlan <;> try cases hPlan
  all_goals try rfl
  all_goals try simp [untypedOpcodes, *] at hOp
  split_ifs at hPlan
  cases hPlan
  rfl

theorem pure_preambleCode (kind : StageKind) (tex : Bool) :
    ∀ i ∈ preambleCode kind tex, Pure i.opcode := by
  cases kind <;> cases tex <;> decide +kernel

theorem pure_endCode (p : ShaderProgram) :
    ∀ i ∈ endCode p, Pure i.opcode := by
  unfold endCode
  split_ifs <;> decide

/- Instructions checked one by one are typed in the whole. -/
theorem settled_of_checked
    {Γ code b : List SpirvInst}
    (hChecked : Prefixes.Checked (InstOk True) Γ code) :
    ∀ i ∈ code, Settled (Γ ++ code ++ b) i := by
  intro i hI
  rcases List.append_of_mem hI with ⟨s, t, hSplit⟩
  rw [hSplit] at hChecked ⊢
  have hSettled := hChecked.at.typed trivial
  have hWhole := hSettled.append (b := i :: t ++ b)
  simpa using hWhole

/- Without them everything is typed. -/
theorem typeSafe_of_typed
    (e : SpirvEmitter)
    (hOps :
      ∀ inst ∈ p.instructions,
        inst.opcode ∉ untypedOpcodes) :
    TypeSafe (emit e p) := by
  have hFits :
      ∀ inst ∈ p.instructions,
        StepFits (p.usesTextures = true) True
          (atLoop p (preambled p e)) inst := by
    intro inst hInst
    refine ⟨?_, ?_⟩
    · intro plan hPlan hGate
      rw [gate_of_planOf hPlan (hOps inst hInst)] at hGate
      cases hGate
    · intro plan hPlan _
      exact gate_of_planOf hPlan (hOps inst hInst)
  rcases (scope_preambled p e).grow_behindLoop
    (ioScope_preambled p e) hFits with ⟨code, hGrown⟩
  rw [typeSafe_iff
    (instructionsOf_emit hGrown.sized hGrown.words)]
  intro i hI
  unfold moduleOf at hI ⊢
  rw [List.mem_append, List.mem_append] at hI
  rcases hI with (hI | hI) | hI
  · exact (settled_of_pure
      (pure_preambleCode _ _ i hI)).typed
  · exact (settled_of_checked hGrown.checked i hI).typed
  · exact (settled_of_pure (pure_endCode p i hI)).typed

------
-- Resource Accesses
------

open MaxwellDecoder StraightLine

variable {e : SpirvEmitter}

/- The constant 0 of the head is no integer. -/
theorem zero_preambleOf (kind : StageKind) (tex : Bool) :
    ∃ t i,
      typeOf (preambleCode kind tex)
        (preambleOf kind tex).constF32Zero = some t ∧
      definitionOf (preambleCode kind tex) t = some i ∧
      i.opcode ≠ SpirvOp.TypeInt := by
  have hAny :
      ((typeOf (preambleCode kind tex)
        (preambleOf kind tex).constF32Zero).bind
          (definitionOf (preambleCode kind tex))).any
            (·.opcode ≠ SpirvOp.TypeInt) := by
    cases kind <;> cases tex <;> decide +kernel
  rcases (Option.any_eq_true _ _).mp hAny with
    ⟨i, hI, hOp⟩
  rcases Option.bind_eq_some_iff.mp hI with ⟨t, hT, hDef⟩
  exact ⟨t, i, hT, hDef, of_decide_eq_true hOp⟩

/- The texture points to something else than its pointer. -/
theorem tex_preambleOf (kind : StageKind) :
    ∃ t,
      pointeeOf (preambleCode kind true)
        (preambleOf kind true).texSampledImageVar = some t ∧
      t ≠ (preambleOf kind true).types.f32Image2d := by
  have hAny :
      (pointeeOf (preambleCode kind true)
        (preambleOf kind true).texSampledImageVar).any
          (· ≠ (preambleOf kind true).types.f32Image2d) := by
    cases kind <;> decide +kernel
  rcases (Option.any_eq_true _ _).mp hAny with
    ⟨t, hT, hNe⟩
  exact ⟨t, hT, of_decide_eq_true hNe⟩

/- An access chain whose first index is the constant 0. -/
def ChainAtZero (e : SpirvEmitter) (i : SpirvInst) : Prop :=
  ∃ t id base indices,
    i = ⟨SpirvOp.AccessChain,
      t :: id :: base :: e.constF32Zero :: indices⟩

/- A load of the texture under its pointer type. -/
def TexLoad (e : SpirvEmitter) (i : SpirvInst) : Prop :=
  ∃ id,
    i = ⟨SpirvOp.Load,
      [e.types.f32Image2d, id, e.texSampledImageVar]⟩

theorem not_typed_of_chainAtZero
    {i : SpirvInst}
    {b : List SpirvInst}
    (hChain : ChainAtZero (preambled p e) i) :
    ¬ Typed
      (preambleCode (kindOf p.stage) p.usesTextures ++ b)
      i := by
  rcases hChain with ⟨t, id, base, indices, hI⟩
  subst hI
  intro hTyped
  have hIndices :
      ChainTyped _ _ (_ :: indices) := hTyped.2.2 rfl
  have hInteger := hIndices.1
  rw [(sameHead_preambled p e).constF32Zero] at hInteger
  rcases zero_preambleOf (kindOf p.stage) p.usesTextures with
    ⟨t, i, hT, hDef, hOp⟩
  unfold isInteger at hInteger
  rw [typeOf_append hT, Option.bind_some,
    definitionOf_append hDef] at hInteger
  simp [hOp] at hInteger

theorem not_typed_of_texLoad
    {i : SpirvInst}
    {b : List SpirvInst}
    (hUses : p.usesTextures = true)
    (hLoad : TexLoad (preambled p e) i) :
    ¬ Typed
      (preambleCode (kindOf p.stage) p.usesTextures ++ b)
      i := by
  rcases hLoad with ⟨id, hI⟩
  subst hI
  intro hTyped
  have hPointee :
      pointeeOf _ (preambled p e).texSampledImageVar =
        some (preambled p e).types.f32Image2d :=
    hTyped.1 rfl
  rcases tex_preambleOf (kindOf p.stage) with ⟨t, hT, hNe⟩
  rw [tex_preambled hUses, (sameHead_preambled p e).types,
    hUses, pointeeOf_append hT, Option.some.injEq] at hPointee
  exact hNe hPointee

theorem gate_id_congr
    (gate : Gate)
    {e e' : SpirvEmitter}
    (hHead : e.headIds = e'.headIds) :
    gate.id e = gate.id e' := by
  cases gate with
  | always => rfl
  | cbuf => exact congrArg HeadIds.cbufVarId hHead
  | tex => exact congrArg HeadIds.texSampledImageVar hHead

/- The instruction of a constant load that is mistyped. -/
theorem chainAtZero_ldc
    {e1 : SpirvEmitter}
    (hHead : e1.headIds = e.headIds)
    (srcs : List Nat) :
    ∃ q ∈ place (templateArgs e1 srcs) e1.nextId 0
      ldcTemplate.lines,
        ChainAtZero e (placedInst e1 q) := by
  have hZero : e1.constF32Zero = e.constF32Zero :=
    congrArg HeadIds.constF32Zero hHead
  refine ⟨_, List.mem_cons_of_mem _ List.mem_cons_self, ?_⟩
  refine ⟨e1.types.f32UniformPtr, e1.nextId + 1,
    e1.cbufVarId, [e1.nextId], ?_⟩
  rw [← hZero]
  rfl

/- The instruction of a texture sample that is mistyped. -/
theorem texLoad_tex
    {e1 : SpirvEmitter}
    (hHead : e1.headIds = e.headIds)
    (srcs : List Nat) :
    ∃ q ∈ place (templateArgs e1 srcs) e1.nextId 0
      texTemplate.lines, TexLoad e (placedInst e1 q) := by
  have hTypes : e1.types = e.types :=
    congrArg HeadIds.types hHead
  have hTex : e1.texSampledImageVar = e.texSampledImageVar :=
    congrArg HeadIds.texSampledImageVar hHead
  refine ⟨_, List.mem_cons_of_mem _ List.mem_cons_self,
    e1.nextId + 1, ?_⟩
  rw [← hTypes, ← hTex]
  rfl

/- A decoded access adds its mistyped instruction. -/
theorem addsSome_access
    {G : SpirvInst → Prop}
    {data : List U8}
    {stage : ShaderStage}
    (hDecode : decode data stage = some p)
    (hInst : inst ∈ p.instructions)
    (hOp : inst.opcode ∈ untypedOpcodes)
    (hGate :
      ∀ plan, planOf inst = some plan →
        plan.gate.id (preambled p e) ≠ 0)
    (hSome :
      ∀ plan, planOf inst = some plan →
        ∀ (e1 : SpirvEmitter) (srcs : List Nat),
          e1.headIds = (preambled p e).headIds →
            ∃ q ∈ place (templateArgs e1 srcs) e1.nextId 0
              plan.template.lines, G (placedInst e1 q)) :
    AddsSome G (preambled p e)
      (behindLoop p (preambled p e)) := by
  have hFrame :
      Adds Sized (preambled p e) (atLoop p (preambled p e)) :=
    adds_atLoop frameForms_sized p
  have hNext : 0 < (atLoop p (preambled p e)).nextId :=
    lt_of_lt_of_le (nextId_preambled_pos p e) hFrame.nextId
  have hMapped :
      Mapped (gprMapOf p (entered p (preambled p e))) inst :=
    mapped_of_regular (regular_of_decode hDecode hInst) hInst
      (Nat.succ_pos _)
  have hCounted : inst.opcode ∈ countedOpcodes :=
    List.mem_of_mem_take (i := 2) hOp
  rcases active_of_decode hDecode hInst hCounted with
    ⟨plan, hActive⟩
  have hForms := planForms_sized hActive.1
  apply AddsSome.behind hFrame
  apply addsSome_streamed
  refine ⟨inst, hInst, ?_⟩
  intro e1 next hLe hHead
  apply addsSome_stepped hActive.1
  · intro hIs
    rw [hIs] at hOp
    exact absurd hOp (by decide)
  · intro hIs
    rw [hIs] at hOp
    exact absurd hOp (by decide)
  intro e2 hLe2 hHead2 _
  have hIds : e2.headIds = (preambled p e).headIds :=
    (hHead2.trans hHead).trans hFrame.headIds
  apply addsSome_planned hMapped hActive (by omega)
  · have hId := hGate plan hActive.1
    rw [gate_id_congr plan.gate hIds]
    exact hId
  · intro e3 srcs hHead3 _
    left
    exact addsSome_template hForms srcs
      (hSome plan hActive.1 e3 srcs (hHead3.trans hIds))

theorem not_typeSafe_of_addsSome
    {G : SpirvInst → Prop}
    (hSome :
      AddsSome G (preambled p e)
        (behindLoop p (preambled p e)))
    (hNot :
      ∀ i b, G i →
        ¬ Typed
          (preambleCode (kindOf p.stage) p.usesTextures ++ b)
          i) :
    ¬ TypeSafe (emit e p) := by
  rcases hSome with ⟨code, hSized, ⟨i, hI, hG⟩, hWords⟩
  rw [typeSafe_iff (instructionsOf_emit hSized hWords)]
  intro hAll
  have hMem : i ∈ moduleOf p code := by
    unfold moduleOf
    exact List.mem_append_left _
      (List.mem_append_right _ hI)
  have hTyped := hAll i hMem
  unfold moduleOf at hTyped
  rw [List.append_assoc] at hTyped
  exact hNot i _ hG hTyped

/- A constant load or a texture sample is not typed. -/
theorem not_typeSafe_of_untyped
    (e : SpirvEmitter)
    {data : List U8}
    {stage : ShaderStage}
    (hDecode : decode data stage = some p)
    (hOps :
      ∃ inst ∈ p.instructions,
        inst.opcode ∈ untypedOpcodes) :
    ¬ TypeSafe (emit e p) := by
  rcases hOps with ⟨inst, hInst, hOp⟩
  have hScope := scope_preambled p e
  have hEither : inst.opcode = .LDC ∨ inst.opcode = .TEX := by
    simpa [untypedOpcodes] using hOp
  rcases hEither with hLdc | hTex
  · have hSome :
        AddsSome (ChainAtZero (preambled p e)) (preambled p e)
          (behindLoop p (preambled p e)) := by
      apply addsSome_access hDecode hInst hOp
      · intro plan hPlan
        unfold planOf at hPlan
        rw [hLdc] at hPlan
        cases hPlan
        exact (hScope.fresh _ hScope.head.cbuf).1.ne'
      · intro plan hPlan e1 srcs hHead
        unfold planOf at hPlan
        rw [hLdc] at hPlan
        cases hPlan
        exact chainAtZero_ldc hHead srcs
    exact not_typeSafe_of_addsSome hSome
      fun i b => not_typed_of_chainAtZero
  · have hUses : p.usesTextures = true := by
      rw [usesTextures_decode hDecode, List.any_eq_true]
      refine ⟨inst, hInst, ?_⟩
      rw [hTex]
      rfl
    have hSome :
        AddsSome (TexLoad (preambled p e)) (preambled p e)
          (behindLoop p (preambled p e)) := by
      apply addsSome_access hDecode hInst hOp
      · intro plan hPlan
        unfold planOf at hPlan
        rw [hTex] at hPlan
        cases hPlan
        exact (hScope.fresh _ (hScope.tex hUses)).1.ne'
      · intro plan hPlan e1 srcs hHead
        unfold planOf at hPlan
        rw [hTex] at hPlan
        cases hPlan
        exact texLoad_tex hHead srcs
    exact not_typeSafe_of_addsSome hSome
      fun i b => not_typed_of_texLoad hUses

/-
  The words emitted for a decoded program are typed exactly
  when it has no constant load and no texture sample.
-/
theorem emit_typeSafe_iff
    (e : SpirvEmitter)
    (data : List U8)
    (stage : ShaderStage)
    (p : ShaderProgram)
    (hDecode : decode data stage = some p) :
    TypeSafe (emit e p) ↔
      ∀ inst ∈ p.instructions,
        inst.opcode ∉ untypedOpcodes := by
  constructor
  · intro hSafe inst hInst hOp
    exact not_typeSafe_of_untyped e hDecode
      ⟨inst, hInst, hOp⟩ hSafe
  · exact typeSafe_of_typed e

/- An `IADD`, then `EXIT`. -/
def iaddThenExit : List U8 :=
  [64, 2, 0, 0, 0, 0, 0, 0, 0, 16, 0, 0, 0, 0, 0, 0]

theorem iaddThenExit_typeSafe :
    ∃ p, decode iaddThenExit .Fragment = some p ∧
      p.instructions.map (·.opcode) = [.IADD, .EXIT] ∧
        TypeSafe (emit {} p) := by
  refine ⟨_, rfl, by decide, ?_⟩
  rw [emit_typeSafe_iff {} iaddThenExit .Fragment _ rfl]
  decide

/- A constant load of two words, then `EXIT`. -/
def ldcThenExit : List U8 :=
  [128, 8, 0, 0, 0, 0, 0, 0, 0, 0, 0, 0, 0, 0, 0, 0,
    0, 16, 0, 0, 0, 0, 0, 0]

theorem ldcThenExit_not_typeSafe :
    ∃ p, decode ldcThenExit .Fragment = some p ∧
      ¬ TypeSafe (emit {} p) := by
  refine ⟨_, rfl, ?_⟩
  have hDecode : decode ldcThenExit .Fragment = some _ := rfl
  apply not_typeSafe_of_untyped {} hDecode
  decide

end SpirvEmitter

end M1Switch
