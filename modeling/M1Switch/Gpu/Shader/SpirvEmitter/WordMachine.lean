import M1Switch.Gpu.Shader.SpirvEmitter.Execution
import M1Switch.Gpu.Shader.SpirvEmitter.Operands
import M1Switch.Library.Binary32

/-
  Running what is emitted for one ALU instruction.

  The machine of the integer instructions is extended by the
  float instructions the emitter uses; the numbers are those
  of the standard.  The code of a plan leaves in the variable
  of the destination what the template gives for the contents
  of the registers.

  Key definitions include:
    * `execWordInst`
    * `execWords`

  Main results:
    * `execWords_emittedFor`
    * `execWords_unread`
-/

------
-- Float Instructions
------

namespace M1Switch

/- OpConvertFToS, OpConvertSToF, OpFAdd and OpFMul. -/
def floatEval :
    Nat → List SpirvValue → Option SpirvValue
| 110, [.word a] => some (.word (Binary32.toInt a))
| 111, [.word a] => some (.word (Binary32.ofInt a.toInt))
| 129, [.word a, .word b] => some (.word (Binary32.add a b))
| 133, [.word a, .word b] => some (.word (Binary32.mul a b))
| _, _ => none

/- FMin, FMax and FClamp of the extended instructions. -/
def floatExt :
    Nat → List SpirvValue → Option SpirvValue
| 37, [.word a, .word b] => some (.word (Binary32.min a b))
| 40, [.word a, .word b] => some (.word (Binary32.max a b))
| 43, [.word a, .word low, .word high] =>
    some (.word (Binary32.clamp a low high))
| _, _ => none

/- The float instructions on the machine. -/
def execFloatInst
    (i : SpirvInst)
    (m : Machine) : Option Machine :=
  if i.opcode = SpirvOp.ExtInst then
    match i.operands with
    | _ :: id :: _ :: instruction :: operands =>
        m.compute id operands (floatExt instruction)
    | _ => none
  else
    match i.operands with
    | _ :: id :: operands =>
        m.compute id operands (floatEval i.opcode)
    | _ => none

/- An integer instruction, or else a float one. -/
def execWordInst
    (i : SpirvInst)
    (m : Machine) : Option Machine :=
  match execInst standardReading i m with
  | some m' => some m'
  | none => execFloatInst i m

def execWords :
    List SpirvInst → Machine → Option Machine
| [], m => some m
| i :: rest, m => do
    let m' ← execWordInst i m
    execWords rest m'

variable {m m' : Machine}

theorem execWords_append (a b : List SpirvInst) :
    execWords (a ++ b) m =
      (execWords a m).bind (execWords b) := by
  induction a generalizing m with
  | nil => rfl
  | cons i rest ih =>
      cases hInst : execWordInst i m with
      | none => simp [execWords, hInst]
      | some m' => simp [execWords, hInst, ih]

/- What runs without floats runs with them. -/
theorem execWords_of_execAll
    {code : List SpirvInst}
    (hExec : execAll standardReading code m = some m') :
    execWords code m = some m' := by
  induction code generalizing m with
  | nil => exact hExec
  | cons i rest ih =>
      simp only [execAll, bind, Option.bind_eq_some_iff]
        at hExec
      rcases hExec with ⟨m1, hInst, hRest⟩
      have hWord : execWordInst i m = some m1 := by
        unfold execWordInst
        rw [hInst]
      simp only [execWords, bind, hWord, Option.bind_some]
      exact ih hRest

/- No float instruction has a number of another one. -/
theorem reading_of_floatEval
    {opcode : Nat}
    {xs : List SpirvValue}
    {v : SpirvValue}
    (hFloat : floatEval opcode xs = some v) :
    standardReading opcode = none ∧
      opcode ≠ SpirvOp.ExtInst := by
  unfold floatEval at hFloat
  split at hFloat
  · exact ⟨rfl, by decide⟩
  · exact ⟨rfl, by decide⟩
  · exact ⟨rfl, by decide⟩
  · exact ⟨rfl, by decide⟩
  · cases hFloat

------
-- Templates With Floats
------

namespace SpirvEmitter

open StraightLine

/- A line as an instruction of the extended machine. -/
def wordSem
    (op : LineOp)
    (xs : List SpirvValue) : Option SpirvValue :=
  match lineSem standardReading op xs with
  | some v => some v
  | none =>
      match op.form with
      | .core opcode => floatEval opcode xs
      | .ext instruction => floatExt instruction xs
      | .const _ => none

/- The constants 0.0 and 1.0, and the sources. -/
def wordArgs
    (xs : List (BitVec 32))
    (i : Nat) : Option SpirvValue :=
  if i = 0 then some (.word 0)
  else if i = 1 then some (.word Binary32.one)
  else sourceVals xs i

/- The value a template gives for its sources. -/
def wordValue
    (t : Template)
    (xs : List (BitVec 32)) : Option SpirvValue := do
  let vs ← values wordSem (wordArgs xs) [] t.lines
  t.result.value (wordArgs xs) vs

theorem execWordInst_placedInst
    (e : SpirvEmitter)
    (q : Placed LineOp)
    (m : Machine)
    {env : Env SpirvValue}
    (hLine : execLine wordSem m.env q = some env) :
    execWordInst (placedInst e q) m =
      some { m with env := env } := by
  rcases q with ⟨id, ⟨form, type⟩, operands⟩
  simp only [execLine, bind, pure,
    Option.bind_eq_some_iff] at hLine
  rcases hLine with ⟨xs, hXs, v, hV, hEnv⟩
  cases hEnv
  unfold wordSem at hV
  cases hInt :
      lineSem standardReading ⟨form, type⟩ xs with
  | some w =>
      rw [hInt] at hV
      cases hV
      have hOld :
          execLine (lineSem standardReading) m.env
              ⟨id, ⟨form, type⟩, operands⟩ =
            some (Function.update m.env id (some v)) := by
        simp [execLine, hXs, hInt]
      unfold execWordInst
      rw [execInst_placedInst rfl e _ m _ hOld]
  | none =>
      rw [hInt] at hV
      dsimp only at hV
      cases form with
      | core opcode =>
          rcases reading_of_floatEval hV with ⟨hNone, hNe⟩
          simp [execWordInst, execInst, execFloatInst,
            placedInst, hNone, hNe, Machine.compute, hXs, hV,
            Machine.define]
      | ext instruction =>
          have hExt : extEval instruction xs = none := hInt
          have hRead :
              standardReading SpirvOp.ExtInst = some .ext :=
            rfl
          simp [execWordInst, execInst, execFloatInst,
            placedInst, hRead, Machine.compute, hXs, hV, hExt,
            Machine.define]
      | const value => cases hV

theorem execWords_placedInst
    (e : SpirvEmitter) :
    ∀ (qs : List (Placed LineOp)) (m : Machine)
      (env : Env SpirvValue),
      exec wordSem m.env qs = some env →
        execWords (qs.map (placedInst e)) m =
          some { m with env := env } := by
  intro qs
  induction qs with
  | nil =>
      intro m env hExec
      cases hExec
      rfl
  | cons q qs ih =>
      intro m env hExec
      simp only [exec, bind, Option.bind_eq_some_iff]
        at hExec
      rcases hExec with ⟨env', hLine, hRest⟩
      have hInst := execWordInst_placedInst e q m hLine
      show (execWordInst (placedInst e q) m).bind _ = _
      rw [hInst]
      exact ih { m with env := env' } env hRest

------
-- What A Plan Leaves In Its Register
------

variable {gprMap : GprMap} {regs : Registers}
variable {inst : ShaderInstruction} {plan : Plan}
variable {e : SpirvEmitter}

/- Variables hold the registers, two ids 0.0 and 1.0. -/
structure Provides
    (gprMap : GprMap)
    (regs : Registers)
    (e : SpirvEmitter)
    (m : Machine) : Prop where
  registers : Matches gprMap regs m
  zero :
    e.constF32Zero < e.nextId ∧
      m.env e.constF32Zero = some (.word 0)
  one :
    e.constF32One < e.nextId ∧
      m.env e.constF32One = some (.word Binary32.one)

/- Loads leave the constants. -/
theorem holds_wordArgs
    {rs srcs : List Nat}
    {env : Env SpirvValue}
    (hProvides : Provides gprMap regs e m)
    (hSrcs : srcs = List.range' e.nextId rs.length)
    (hBelow : ∀ x < e.nextId, env x = m.env x)
    (hLoaded :
      ∀ i r, rs[i]? = some r →
        env (e.nextId + i) = some (.word (regs r))) :
    Holds (templateArgs e srcs) (wordArgs (rs.map regs))
      (e.nextId + rs.length) [] env := by
  have hSources :=
    holds_sources (e := e) hSrcs hLoaded
  refine ⟨?_, by simp⟩
  intro i v hV
  unfold wordArgs at hV
  split_ifs at hV with hZero hOne
  · subst hZero
    cases hV
    rcases hProvides.zero with ⟨hId, hEnv⟩
    show e.constF32Zero < _ ∧ env e.constF32Zero = _
    exact ⟨by omega, (hBelow _ hId).trans hEnv⟩
  · subst hOne
    cases hV
    rcases hProvides.one with ⟨hId, hEnv⟩
    show e.constF32One < _ ∧ env e.constF32One = _
    exact ⟨by omega, (hBelow _ hId).trans hEnv⟩
  · exact hSources.arg i v hV

/- The template of the sources runs to its value. -/
theorem execWords_template
    {t : Template}
    {xs : List (BitVec 32)}
    {srcs : List Nat}
    {v : SpirvValue}
    (hValue : wordValue t xs = some v)
    (hHolds :
      Holds (templateArgs e srcs) (wordArgs xs) e.nextId []
        m.env) :
    ∃ env,
      execWords (t.code e srcs) m =
        some { m with env := env } ∧
        env (t.resultId e srcs) = some v := by
  unfold wordValue at hValue
  simp only [bind, Option.bind_eq_some_iff] at hValue
  rcases hValue with ⟨vs, hValues, hResult⟩
  rcases exec_place hHolds rfl hValues with
    ⟨env, hExec, hHolds', _⟩
  exact ⟨env, execWords_placedInst e _ m env hExec,
    hHolds'.ref hResult⟩

/- The store puts it into the variable. -/
theorem execWords_store
    {r value : Nat}
    {v : SpirvValue}
    (hVar : getGpr gprMap r ≠ 0)
    (hValue : m.env value = some v) :
    execWords (storeCode gprMap r value) m =
      some (m.write (getGpr gprMap r) v) := by
  have hRead : standardReading SpirvOp.Store = some .store :=
    rfl
  apply execWords_of_execAll
  unfold storeCode
  rw [if_neg hVar]
  simp [execAll, execInst, hRead, hValue]

/- The code of a plan that is carried out. -/
theorem emittedFor_of_active
    (hMapped : Mapped gprMap inst)
    (hActive : Active inst plan)
    (hGate : plan.gate = .always)
    (hDest : plan.dest = .gpr)
    (hNext : 0 < e.nextId) :
    emittedFor inst gprMap e =
      loadCode gprMap e.types.f32T e.nextId
          (srcRegs inst plan.arity) ++
        (plan.template.code
            (loaded gprMap (srcRegs inst plan.arity) e)
            (loadIds gprMap e.nextId
              (srcRegs inst plan.arity)) ++
          storeCode gprMap inst.dest.regIndex
            (plan.template.resultId
              (loaded gprMap (srcRegs inst plan.arity) e)
              (loadIds gprMap e.nextId
                (srcRegs inst plan.arity)))) := by
  have hForms := planForms_sized hActive.1
  have hOpen : plan.gate.id e ≠ 0 := by
    rw [hGate]
    exact Nat.one_ne_zero
  rw [emittedFor_of_planOf hActive.1]
  apply appended_eq
  · rw [List.forall_mem_append, List.forall_mem_append]
    refine ⟨form_loadCode (fun _ _ _ =>
      frameForms_sized.load _ _ _) _ _ _,
      form_template hForms _, ?_⟩
    unfold storeCode
    split_ifs
    · exact List.forall_mem_nil _
    · rw [List.forall_mem_singleton]
      exact frameForms_sized.store _ _
  · rw [planned_of_active hMapped hActive hNext hOpen, hDest]
    simp only [finished, Template.emitted, loaded,
      words_pushed, encodeInsts_append, List.append_assoc]

/- It leaves the template's value in the variable. -/
theorem execWords_emittedFor
    (hMapped : Mapped gprMap inst)
    (hActive : Active inst plan)
    (hGate : plan.gate = .always)
    (hDest : plan.dest = .gpr)
    (hNext : 0 < e.nextId)
    (hProvides : Provides gprMap regs e m)
    {v : SpirvValue}
    (hValue :
      wordValue plan.template
        ((srcRegs inst plan.arity).map regs) = some v) :
    ∃ m', execWords (emittedFor inst gprMap e) m = some m' ∧
      m'.mem (getGpr gprMap inst.dest.regIndex) = v := by
  have hSources := hMapped.sources plan hActive
  have hVar := hMapped.dest plan hActive hDest
  have hIds := loadIds_of_mapped _ e.nextId hSources
  have hRead : standardReading SpirvOp.Load = some .load :=
    rfl
  rcases execAll_loadCode hRead (srcRegs inst plan.arity)
      e.types.f32T e.nextId m hSources with
    ⟨env, hLoads, hBelow, hLoaded⟩
  have hContents :
      ∀ i r, (srcRegs inst plan.arity)[i]? = some r →
        env (e.nextId + i) = some (.word (regs r)) := by
    intro i r hR
    have hSome :=
      some_of_getGpr (hSources r (List.mem_of_getElem? hR))
    rw [hLoaded i r hR, hProvides.registers r _ hSome]
  have hBehind :
      (loaded gprMap (srcRegs inst plan.arity) e).nextId =
        e.nextId + (srcRegs inst plan.arity).length := by
    unfold loaded
    rw [nextId_pushed, length_loadCode _ _ _ hSources]
  have hHolds :
      Holds
        (templateArgs
          (loaded gprMap (srcRegs inst plan.arity) e)
          (loadIds gprMap e.nextId
            (srcRegs inst plan.arity)))
        (wordArgs ((srcRegs inst plan.arity).map regs))
        (loaded gprMap (srcRegs inst plan.arity) e).nextId []
        env := by
    rw [hBehind]
    exact holds_wordArgs hProvides hIds hBelow hContents
  rcases execWords_template (m := { m with env := env }) hValue
      hHolds with ⟨env', hTemplate, hStored⟩
  rw [emittedFor_of_active hMapped hActive hGate hDest hNext,
    execWords_append, execWords_of_execAll hLoads,
    Option.bind_some, execWords_append, hTemplate,
    Option.bind_some]
  exact ⟨_, execWords_store hVar hStored,
    Function.update_self _ _ _⟩

/- An instruction without a meaning stops every run. -/
theorem execWords_unread
    {code : List SpirvInst}
    {i : SpirvInst}
    (hI : i ∈ code)
    (hUnread : ∀ m, execWordInst i m = none) :
    execWords code m = none := by
  induction code generalizing m with
  | nil => cases hI
  | cons j rest ih =>
      show (execWordInst j m).bind _ = _
      rcases List.mem_cons.mp hI with hHead | hTail
      · subst hHead
        rw [hUnread]
        rfl
      · rw [Option.bind_eq_none_iff]
        intro m' _
        exact ih hTail

end SpirvEmitter

end M1Switch
