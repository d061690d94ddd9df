import M1Switch.Gpu.Shader.SpirvEmitter.Predicates

/-
  Operand counts of the decoder and of the emitter.

  The decoder gives an instruction the sources of its format;
  the emitter has a count of its own for each opcode.  An
  instruction that finds its sources stores to its register.
  A shift has one source and needs two, and the stores to
  memory have no code of their own: they copy their address
  to the register that holds the data.

  Key definitions include:
    * `emittedFor`
    * `SpirvEmitter.OperandsAgree`

  Main results:
    * `active_of_format`
    * `emitsFor_storesDest`
    * `operandsAgree_iff`
-/

------
-- Agreement
------

namespace M1Switch

namespace SpirvEmitter

open MaxwellDecoder

/- What is emitted for one instruction. -/
def emittedFor
    (inst : ShaderInstruction)
    (gprMap : GprMap)
    (e : SpirvEmitter) : List SpirvInst :=
  appended e ((emitShaderInst inst gprMap).run e).2

/- The formats whose result goes to a register. -/
def gprAluFormats : List MaxwellFormat :=
  [.Alu3In, .Alu2In, .Alu1In]

/-
  The property holds of what is emitted for the instruction
  of a word, in every program with it.
-/
def EmitsFor
    (raw0 raw1 : U64)
    (holds :
      ShaderInstruction → GprMap → List SpirvInst → Prop) :
    Prop :=
  ∀ (pc : Nat) (p : ShaderProgram) (atEntry e : SpirvEmitter),
    instOfWords raw0 raw1 pc ∈ p.instructions →
      0 < atEntry.nextId → 0 < e.nextId →
        holds (instOfWords raw0 raw1 pc) (gprMapOf p atEntry)
          (emittedFor (instOfWords raw0 raw1 pc)
            (gprMapOf p atEntry) e)

/- The variable of the destination is stored to. -/
def StoresDest
    (inst : ShaderInstruction)
    (gprMap : GprMap)
    (code : List SpirvInst) : Prop :=
  ∃ var, gprMap inst.dest.regIndex = some var ∧
    Writes code var

/- No variable of a register is stored to. -/
def StoresNoGpr
    (_ : ShaderInstruction)
    (gprMap : GprMap)
    (code : List SpirvInst) : Prop :=
  ∀ r var, gprMap r = some var → ¬ Writes code var

/-
  An ALU instruction stores its result, and a store to memory
  stores to no register.
-/
structure OperandsAgree (raw0 raw1 : U64) : Prop where
  alu :
    detectFormat (opcodeIdOf raw0) ∈ gprAluFormats →
      EmitsFor raw0 raw1 StoresDest
  store :
    detectFormat (opcodeIdOf raw0) = .MemoryStore →
      EmitsFor raw0 raw1 StoresNoGpr

/- The opcode a word is decoded to. -/
def wordOpcode (raw0 : U64) : ShaderOpcode :=
  decodeOpcode (opcodeIdOf raw0)
    (detectFormat (opcodeIdOf raw0))

/- Shifts, and the stores to memory. -/
def mismatchedOpcodes : List ShaderOpcode :=
  [.SHL, .SHR, .ST, .STG, .STL, .STS]

------
-- What A Plan Stores
------

variable {gprMap : GprMap} {inst : ShaderInstruction}
variable {plan : Plan} {e : SpirvEmitter}

/- Without the monad. -/
theorem emittedFor_of_planOf
    (hPlan : planOf inst = some plan) :
    emittedFor inst gprMap e =
      appended e (planned plan inst gprMap e) := by
  have hKil : inst.opcode ≠ .KIL := by
    intro hOp
    unfold planOf at hPlan
    rw [hOp] at hPlan
    cases hPlan
  unfold emittedFor
  rw [emitShaderInst_eq hKil, hPlan]
  exact congrArg (appended e) (run_emitPlan plan e)

theorem var_of_getGpr_ne
    {r : Nat}
    (hNe : getGpr gprMap r ≠ 0) :
    gprMap r = some (getGpr gprMap r) := by
  unfold getGpr at hNe ⊢
  cases hVar : gprMap r with
  | none =>
      rw [hVar] at hNe
      exact absurd rfl hNe
  | some var => rfl

/- A plan for a register stores there, if it is active. -/
theorem storesDest_of_active
    (hMapped : Mapped gprMap inst)
    (hActive : Active inst plan)
    (hGate : plan.gate = .always)
    (hDest : plan.dest = .gpr)
    (hNext : 0 < e.nextId) :
    StoresDest inst gprMap (emittedFor inst gprMap e) := by
  have hVar := hMapped.dest plan hActive hDest
  refine ⟨_, var_of_getGpr_ne hVar, ?_⟩
  rw [emittedFor_of_planOf hActive.1]
  have hSome :
      AddsSome
        (fun i =>
          ∃ value,
            i = ⟨SpirvOp.Store,
              [getGpr gprMap inst.dest.regIndex, value]⟩)
        e (planned plan inst gprMap e) := by
    apply addsSome_planned hMapped hActive hNext
    · rw [hGate]
      exact Nat.one_ne_zero
    · intro e1 srcs _ _
      refine Or.inr fun value => ?_
      rw [hDest]
      unfold finished storeCode
      rw [if_neg hVar]
      apply addsSome_pushed
      · intro i hI
        rw [List.mem_singleton.mp hI]
        exact (planForms_sized hActive.1).store _ _
      · exact ⟨_, List.mem_cons_self, value, rfl⟩
  rcases exists_appended hSome with ⟨i, hI, value, hEq⟩
  exact ⟨value, hEq ▸ hI⟩

/- A plan without enough sources emits nothing. -/
theorem emittedFor_eq_nil
    (hPlan : planOf inst = some plan)
    (hCount : inst.srcCount < plan.minCount) :
    emittedFor inst gprMap e = [] := by
  rw [emittedFor_of_planOf hPlan]
  unfold planned
  rw [if_neg (Nat.not_le.mpr hCount)]
  apply appended_eq (List.forall_mem_nil _)
  rw [encodeInsts, List.flatMap_nil, List.append_nil]

------
-- Plans Of Decoded Words
------

open MaxwellDecoder

variable {raw0 raw1 : U64} {pc : Nat}

theorem wordOpcode_mem (raw0 : U64) :
    wordOpcode raw0 ∈
      opcodesOf (detectFormat (opcodeIdOf raw0)) :=
  decodeOpcode_mem _ _

/- Of the shifts and stores, only the formats they are in. -/
theorem format_of_mismatched
    (hOp : wordOpcode raw0 ∈ mismatchedOpcodes) :
    (detectFormat (opcodeIdOf raw0) = .Alu1In ∧
        (wordOpcode raw0 = .SHL ∨ wordOpcode raw0 = .SHR)) ∨
      (detectFormat (opcodeIdOf raw0) = .MemoryStore ∧
        wordOpcode raw0 ∈ opcodesOf .MemoryStore) := by
  have hMem := wordOpcode_mem raw0
  revert hMem hOp
  generalize wordOpcode raw0 = op
  generalize detectFormat (opcodeIdOf raw0) = fmt
  intro hOp hMem
  have hAll :
      ∀ fmt ∈ [MaxwellFormat.Alu3In, .Alu2In, .Alu1In, .ISetp,
          .FSetp, .MemoryLoad, .MemoryStore, .Texture, .S2R,
          .PredicateReg, .Branch, .Sync, .Exit, .Unknown],
        ∀ op ∈ mismatchedOpcodes, op ∈ opcodesOf fmt →
          (fmt = .Alu1In ∧ (op = .SHL ∨ op = .SHR)) ∨
            (fmt = .MemoryStore ∧
              op ∈ opcodesOf .MemoryStore) := by
    decide
  exact hAll fmt (by cases fmt <;> decide) op hOp hMem

/- The instruction of a word in an ALU or store format. -/
theorem instOfWords_eq
    (raw1 : U64)
    (pc : Nat)
    (hFmt :
      detectFormat (opcodeIdOf raw0) ∈
        .MemoryStore :: gprAluFormats) :
    (instOfWords raw0 raw1 pc).opcode = wordOpcode raw0 ∧
      (instOfWords raw0 raw1 pc).srcCount =
        formatCount (detectFormat (opcodeIdOf raw0)) ∧
        (instOfWords raw0 raw1 pc).dest.type = .GPR := by
  have hOp := opcode_decodeFormat_eq raw0 raw1 pc
  have hCount :=
    srcCount_decodeFormat raw0 raw1 pc
      (detectFormat (opcodeIdOf raw0))
  have hMem := wordOpcode_mem raw0
  unfold instOfWords
  rw [opcode_toIr, hOp]
  refine ⟨rfl, ?_⟩
  have hPlain :
      ∀ fmt ∈ MaxwellFormat.MemoryStore :: gprAluFormats,
        0 < formatCount fmt ∧
          ∀ op ∈ opcodesOf fmt,
            DecodedInst.hasBranchTarget op = false ∧
              DecodedInst.isTexture op = false ∧
                op ≠ .S2R := by
    decide
  rcases hPlain _ hFmt with ⟨hPos, hAll⟩
  rcases hAll _ hMem with ⟨hLabel, hTex, hS2r⟩
  rw [← hCount] at hPos ⊢
  unfold wordOpcode at hLabel hTex hS2r
  rw [← hOp] at hLabel hTex hS2r
  unfold DecodedInst.toIr
  dsimp only
  rw [if_neg (by simp [hLabel]), if_neg (by simp [hTex]),
    if_neg hS2r]
  refine ⟨rfl, ?_⟩
  unfold DecodedInst.toIrOperands
  dsimp only
  rw [if_pos (Or.inr (Or.inl hPos))]
  rfl

/- All but the shifts have the sources they ask for. -/
theorem active_of_format
    {fmt : MaxwellFormat}
    (hFmt : fmt ∈ MaxwellFormat.MemoryStore :: gprAluFormats)
    (hOp : inst.opcode ∈ opcodesOf fmt)
    (hShift : inst.opcode ≠ .SHL ∧ inst.opcode ≠ .SHR)
    (hCount : inst.srcCount = formatCount fmt)
    (hDest : inst.dest.type = .GPR) :
    ∃ plan, Active inst plan ∧ plan.gate = .always ∧
      plan.dest = .gpr := by
  simp only [gprAluFormats, List.mem_cons, List.not_mem_nil,
    or_false] at hFmt
  unfold Active planOf
  rcases hFmt with hFmt | hFmt | hFmt | hFmt
  all_goals
    rw [hFmt] at hOp hCount
    rw [hCount]
    simp only [opcodesOf, List.mem_cons, List.not_mem_nil,
      or_false] at hOp
  · rcases hOp with hOp | hOp | hOp | hOp
    all_goals
      rw [hOp]
      first
      | exact ⟨_, ⟨rfl, Nat.le_of_ble_eq_true rfl⟩, rfl, rfl⟩
      | exact ⟨_, ⟨if_pos hDest, Nat.le_refl 1⟩, rfl, rfl⟩
  · rcases hOp with hOp | hOp | hOp | hOp | hOp | hOp
    all_goals
      rw [hOp]
      exact ⟨_, ⟨rfl, Nat.le_of_ble_eq_true rfl⟩, rfl, rfl⟩
  · rcases hOp with hOp | hOp | hOp | hOp | hOp | hOp | hOp |
      hOp | hOp | hOp | hOp | hOp | hOp | hOp | hOp | hOp |
      hOp | hOp
    all_goals
      rw [hOp]
      first
      | exact ⟨_, ⟨rfl, Nat.le_of_ble_eq_true rfl⟩, rfl, rfl⟩
      | exact ⟨_, ⟨if_pos hDest, Nat.le_succ 1⟩, rfl, rfl⟩
  · rcases hOp with hOp | hOp | hOp | hOp | hOp | hOp | hOp |
      hOp | hOp | hOp | hOp | hOp
    all_goals
      first
      | exact absurd hOp hShift.1
      | exact absurd hOp hShift.2
      | rw [hOp]
        first
        | exact ⟨_, ⟨rfl, Nat.le_refl 1⟩, rfl, rfl⟩
        | exact ⟨_, ⟨if_pos hDest, Nat.le_refl 1⟩, rfl, rfl⟩

/- A shift has one source and needs two. -/
theorem emittedFor_shift
    (hShift : inst.opcode = .SHL ∨ inst.opcode = .SHR)
    (hCount : inst.srcCount = 1) :
    emittedFor inst gprMap e = [] := by
  rcases hShift with hOp | hOp
  all_goals
    have hPlan :
        ∃ t, planOf inst = some (valuePlan 2 t) := by
      unfold planOf
      rw [hOp]
      exact ⟨_, rfl⟩
    rcases hPlan with ⟨t, hPlan⟩
    apply emittedFor_eq_nil hPlan
    rw [hCount]
    exact Nat.lt_succ_self 1

------
-- When They Agree
------

/- A word whose instruction stores to its destination. -/
theorem emitsFor_storesDest
    (hFmt :
      detectFormat (opcodeIdOf raw0) ∈
        MaxwellFormat.MemoryStore :: gprAluFormats)
    (hShift :
      wordOpcode raw0 ≠ .SHL ∧ wordOpcode raw0 ≠ .SHR) :
    EmitsFor raw0 raw1 StoresDest := by
  intro pc p atEntry e hInst hEntry hNext
  rcases instOfWords_eq raw1 pc hFmt with
    ⟨hOp, hCount, hDest⟩
  have hMem := wordOpcode_mem raw0
  rw [← hOp] at hMem hShift
  rcases active_of_format hFmt hMem hShift hCount hDest with
    ⟨plan, hActive, hGate, hReg⟩
  have hMapped :=
    mapped_of_regular (regular_instOfWords raw0 raw1 pc) hInst
      hEntry
  exact storesDest_of_active hMapped hActive hGate hReg hNext

/- The word alone is a program. -/
def wordProgram (raw0 raw1 : U64) : ShaderProgram :=
  { instructions := [instOfWords raw0 raw1 0] }

theorem EmitsFor.wordProgram
    {holds :
      ShaderInstruction → GprMap → List SpirvInst → Prop}
    (hEmits : EmitsFor raw0 raw1 holds) :
    ∃ gprMap,
      holds (instOfWords raw0 raw1 0) gprMap
        (emittedFor (instOfWords raw0 raw1 0) gprMap
          { nextId := 1 }) := by
  have hHolds :=
    hEmits 0 (SpirvEmitter.wordProgram raw0 raw1)
      { nextId := 1 } { nextId := 1 } List.mem_cons_self
      Nat.one_pos Nat.one_pos
  exact ⟨_, hHolds⟩

/-
  Decoder and emitter agree on a word exactly if it is none of
  the shifts and none of the stores to memory.
-/
theorem operandsAgree_iff (raw0 raw1 : U64) :
    OperandsAgree raw0 raw1 ↔
      wordOpcode raw0 ∉ mismatchedOpcodes := by
  constructor
  · intro hAgree hOp
    rcases format_of_mismatched hOp with
      ⟨hFmt, hShift⟩ | ⟨hFmt, hStore⟩
    · have hIn : .Alu1In ∈ gprAluFormats := by decide
      rcases (hAgree.alu (hFmt ▸ hIn)).wordProgram with
        ⟨gprMap, var, _, value, hMem⟩
      rcases instOfWords_eq raw1 0
          (List.mem_cons_of_mem _ (hFmt ▸ hIn)) with
        ⟨hOpcode, hCount, _⟩
      rw [← hOpcode] at hShift
      rw [hFmt] at hCount
      rw [emittedFor_shift hShift hCount] at hMem
      cases hMem
    · have hNot := hAgree.store hFmt
      have hStores :
          EmitsFor raw0 raw1 StoresDest := by
        apply emitsFor_storesDest
        · rw [hFmt]
          exact List.mem_cons_self
        · constructor
          all_goals
            intro hEq
            rw [hEq] at hStore
            exact absurd hStore (by decide)
      have hBoth :
          EmitsFor raw0 raw1 fun inst gprMap code =>
            StoresDest inst gprMap code ∧
              StoresNoGpr inst gprMap code := by
        intro pc p atEntry e hInst hEntry hNext
        exact
          ⟨hStores pc p atEntry e hInst hEntry hNext,
            hNot pc p atEntry e hInst hEntry hNext⟩
      rcases hBoth.wordProgram with
        ⟨gprMap, ⟨var, hVar, hWrites⟩, hNone⟩
      exact hNone _ var hVar hWrites
  · intro hOp
    constructor
    · intro hFmt
      apply emitsFor_storesDest (List.mem_cons_of_mem _ hFmt)
      constructor
      all_goals
        intro hEq
        rw [hEq] at hOp
        exact absurd hOp (by decide)
    · intro hFmt
      have hMem := wordOpcode_mem raw0
      rw [hFmt] at hMem
      have hAll :
          ∀ op ∈ opcodesOf .MemoryStore,
            op ∈ mismatchedOpcodes := by
        decide
      exact absurd (hAll _ hMem) hOp

/- The word of `SHL R1, R1`. -/
def shlWord : U64 :=
  0x80000023C0

/- Nothing is emitted for it. -/
theorem shlWord_not_agree :
    ¬ OperandsAgree shlWord 0 := by
  intro hAgree
  have hFmt :
      detectFormat (opcodeIdOf shlWord) = .Alu1In := by
    decide
  have hIn : .Alu1In ∈ gprAluFormats := by decide
  rcases (hAgree.alu (hFmt ▸ hIn)).wordProgram with
    ⟨gprMap, var, _, value, hMem⟩
  have hNone :
      emittedFor (instOfWords shlWord 0 0) gprMap
        { nextId := 1 } = [] :=
    emittedFor_shift (Or.inl (by decide)) (by decide)
  rw [hNone] at hMem
  cases hMem

end SpirvEmitter

end M1Switch
