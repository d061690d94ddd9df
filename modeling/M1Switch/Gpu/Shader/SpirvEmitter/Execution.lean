import M1Switch.Gpu.Shader.SpirvEmitter.Layout

/-
  Running the emitted function.

  Opcode numbers mean what a reading says.  Under a reading a
  function body runs on ids and variables; under the integer
  semantics an instruction of the program changes one
  register.  Straight-line integer code computes in the
  variables what its instructions compute in the registers,
  if the reading knows the opcodes the emitter uses.

  Key definitions include:
    * `ExecOp`
    * `standardReading`

  Main results:
    * `runs_streamed`
    * `computes_of_named`
    * `emit_computes_iff`
-/

------
-- Values And Instructions
------

namespace M1Switch

/- Floats and integers are bit patterns alike. -/
inductive SpirvValue where
  | word (bits : BitVec 32)
  | bool (b : Bool)
  | vec (bits : List (BitVec 32))
deriving DecidableEq, Repr

/- Instructions that compute a value from words. -/
inductive IntOp where
  | bitcast
  | sNegate
  | iAdd
  | iSub
  | iMul
  | sGreaterThanEqual
  | select
deriving DecidableEq, Repr

/- Integer arithmetic is modulo `2 ^ 32`. -/
def IntOp.eval :
    IntOp → List SpirvValue → Option SpirvValue
| .bitcast, [.word a] => some (.word a)
| .sNegate, [.word a] => some (.word (-a))
| .iAdd, [.word a, .word b] => some (.word (a + b))
| .iSub, [.word a, .word b] => some (.word (a - b))
| .iMul, [.word a, .word b] => some (.word (a * b))
| .sGreaterThanEqual, [.word a, .word b] =>
    some (.bool (b.sle a))
| .select, [.bool c, .word a, .word b] =>
    some (.word (if c then a else b))
| _, _ => none

/- The extended instruction that integer code uses. -/
def extEval
    (instruction : Nat)
    (xs : List SpirvValue) : Option SpirvValue :=
  match xs with
  | [.word a] =>
      if instruction = GlslStd450.SAbs then
        some (.word a.abs)
      else none
  | _ => none

/- What an opcode makes the machine do. -/
inductive ExecOp where
  | skip
  | load
  | store
  | ext
  | int (op : IntOp)
deriving DecidableEq, Repr

/- Meanings of opcode numbers. -/
abbrev Reading : Type := Nat → Option ExecOp

/- The numbers of the SPIR-V standard. -/
def standardReading : Reading
-- OpVariable and OpLabel
| 59 => some .skip
| 248 => some .skip
-- OpLoad, OpStore and OpExtInst
| 61 => some .load
| 62 => some .store
| 12 => some .ext
-- OpBitcast, OpSNegate, OpIAdd, OpISub and OpIMul
| 124 => some (.int .bitcast)
| 126 => some (.int .sNegate)
| 128 => some (.int .iAdd)
| 130 => some (.int .iSub)
| 132 => some (.int .iMul)
-- OpSelect and OpSGreaterThanEqual
| 169 => some (.int .select)
| 175 => some (.int .sGreaterThanEqual)
-- 142 is OpVectorTimesScalar, which takes a vector.
| _ => none

/- A reading of all names the emitter uses but a compare. -/
structure ReadsNames (ops : Reading) : Prop where
  label : ops SpirvOp.Label = some .skip
  variable' : ops SpirvOp.Variable = some .skip
  load : ops SpirvOp.Load = some .load
  store : ops SpirvOp.Store = some .store
  ext : ops SpirvOp.ExtInst = some .ext
  bitcast : ops SpirvOp.Bitcast = some (.int .bitcast)
  sNegate : ops SpirvOp.SNegate = some (.int .sNegate)
  iAdd : ops SpirvOp.IAdd = some (.int .iAdd)
  iSub : ops SpirvOp.ISub = some (.int .iSub)
  iMul : ops SpirvOp.IMul = some (.int .iMul)
  select : ops SpirvOp.Select = some (.int .select)

theorem readsNames_standard : ReadsNames standardReading :=
  ⟨rfl, rfl, rfl, rfl, rfl, rfl, rfl, rfl, rfl, rfl, rfl⟩

/- The header's number of the compare read by its name. -/
def namedReading : Reading :=
  Function.update standardReading SpirvOp.SGreaterThanEqual
    (some (.int .sGreaterThanEqual))

theorem readsNames_named : ReadsNames namedReading :=
  ⟨rfl, rfl, rfl, rfl, rfl, rfl, rfl, rfl, rfl, rfl, rfl⟩

------
-- The Machine
------

open StraightLine

/- Values of ids and contents of variables. -/
structure Machine where
  env : Env SpirvValue
  mem : Nat → SpirvValue

namespace Machine

def define
    (m : Machine)
    (id : Nat)
    (v : SpirvValue) : Machine :=
  { m with env := Function.update m.env id (some v) }

def write
    (m : Machine)
    (var : Nat)
    (v : SpirvValue) : Machine :=
  { m with mem := Function.update m.mem var v }

/- Define an id by a function of operands. -/
def compute
    (m : Machine)
    (id : Nat)
    (operands : List Nat)
    (f : List SpirvValue → Option SpirvValue) :
    Option Machine := do
  let xs ← operands.mapM m.env
  let v ← f xs
  return m.define id v

end Machine

/- A variable has no initializer and keeps its content. -/
def execInst
    (ops : Reading)
    (i : SpirvInst)
    (m : Machine) : Option Machine :=
  match ops i.opcode, i.operands with
  | some .skip, _ => some m
  | some .load, [_, id, var] => some (m.define id (m.mem var))
  | some .store, [var, value] =>
      (m.env value).map (m.write var)
  | some .ext, _ :: id :: _ :: instruction :: operands =>
      m.compute id operands (extEval instruction)
  | some (.int op), _ :: id :: operands =>
      m.compute id operands op.eval
  | _, _ => none

def execAll (ops : Reading) :
    List SpirvInst → Machine → Option Machine
| [], m => some m
| i :: rest, m => do
    let m' ← execInst ops i m
    execAll ops rest m'

/- A function body runs to its return. -/
def runFunction (ops : Reading) :
    List SpirvInst → Machine → Option Machine
| [], _ => none
| i :: rest, m =>
    if i.opcode = SpirvOp.Return then some m
    else do
      let m' ← execInst ops i m
      runFunction ops rest m'

variable {ops : Reading} {m : Machine}

theorem execAll_append (a b : List SpirvInst) :
    execAll ops (a ++ b) m =
      (execAll ops a m).bind (execAll ops b) := by
  induction a generalizing m with
  | nil => rfl
  | cons i rest ih =>
      cases hInst : execInst ops i m with
      | none => simp [execAll, hInst]
      | some m' => simp [execAll, hInst, ih]

/- Code that does nothing. -/
theorem execAll_skip
    {code : List SpirvInst}
    (hSkip : ∀ i ∈ code, ops i.opcode = some .skip) :
    execAll ops code m = some m := by
  induction code with
  | nil => rfl
  | cons i rest ih =>
      rw [List.forall_mem_cons] at hSkip
      have hInst : execInst ops i m = some m := by
        unfold execInst
        rw [hSkip.1]
      show (execInst ops i m).bind _ = _
      rw [hInst]
      exact ih hSkip.2

/- An instruction without a meaning stops every run. -/
theorem execAll_unread
    {code : List SpirvInst}
    {i : SpirvInst}
    (hI : i ∈ code)
    (hUnread : ops i.opcode = none) :
    execAll ops code m = none := by
  induction code generalizing m with
  | nil => cases hI
  | cons j rest ih =>
      rcases List.mem_cons.mp hI with hHead | hTail
      · subst hHead
        have hInst : execInst ops i m = none := by
          unfold execInst
          rw [hUnread]
        show (execInst ops i m).bind _ = _
        rw [hInst]
        rfl
      · show (execInst ops j m).bind _ = _
        rw [Option.bind_eq_none_iff]
        intro m' _
        exact ih hTail

/- Behind code without a return stands the return. -/
theorem runFunction_append
    {code : List SpirvInst}
    (hCode : ∀ i ∈ code, i.opcode ≠ SpirvOp.Return)
    (rest : List SpirvInst) :
    runFunction ops (code ++ ⟨SpirvOp.Return, []⟩ :: rest) m =
      execAll ops code m := by
  induction code generalizing m with
  | nil => rfl
  | cons i code ih =>
      rw [List.forall_mem_cons] at hCode
      rw [List.cons_append, runFunction, if_neg hCode.1]
      show (execInst ops i m).bind _ = _
      congr 1
      funext m'
      exact ih hCode.2

------
-- Integer Instructions Of A Program
------

/- Number of sources of the integer instructions. -/
def intArity : ShaderOpcode → Option Nat
| .IADD | .ISUB | .IMUL | .IMNMX => some 2
| .IMAD | .IADD3 => some 3
| .INEG | .IABS | .I2I => some 1
| _ => none

/- The integer an instruction gives. -/
def irResult : ShaderOpcode → List Int → Option Int
| .IADD, a :: b :: _ => some (a + b)
| .ISUB, a :: b :: _ => some (a - b)
| .IMUL, a :: b :: _ => some (a * b)
| .IMAD, a :: b :: c :: _ => some (a * b + c)
| .IADD3, a :: b :: c :: _ => some (a + b + c)
| .INEG, a :: _ => some (-a)
| .IABS, a :: _ => some (a.natAbs : Int)
| .IMNMX, a :: b :: _ => some (max a b)
| .I2I, a :: _ => some a
| _, _ => none

/- Contents of the registers. -/
abbrev Registers : Type := Nat → BitVec 32

/- The destination gets the low 32 bits of the result. -/
def irStep
    (inst : ShaderInstruction)
    (regs : Registers) : Registers :=
  match irResult inst.opcode
    (inst.usedSrcs.map fun op => (regs op.regIndex).toInt)
  with
  | none => regs
  | some v =>
      Function.update regs inst.dest.regIndex
        (BitVec.ofInt 32 v)

def irRun :
    List ShaderInstruction → Registers → Registers
| [], regs => regs
| inst :: rest, regs => irRun rest (irStep inst regs)

def ShaderOperand.Plain (op : ShaderOperand) : Prop :=
  op.type = .GPR ∧ op.negate = false ∧
    op.absolute = false ∧ op.saturate = false

/-
  An integer instruction on registers without modifiers and
  without a guard.
-/
structure IntInst (inst : ShaderInstruction) : Prop where
  sources :
    ∃ n, intArity inst.opcode = some n ∧ n ≤ inst.srcCount
  dest : inst.dest.Plain
  srcs : ∀ op ∈ inst.usedSrcs, op.Plain
  unguarded : inst.predGuard = false

/- Integer instructions followed by `EXIT`. -/
structure IntProgram
    (p : ShaderProgram)
    (body : List ShaderInstruction)
    (exit : ShaderInstruction) : Prop where
  instructions : p.instructions = body ++ [exit]
  body : ∀ inst ∈ body, IntInst inst
  isExit : exit.opcode = .EXIT
  unguarded : exit.predGuard = false

/- Only the destinations change. -/
theorem irRun_of_not_dest :
    ∀ (insts : List ShaderInstruction) (regs : Registers)
      (r : Nat),
      (∀ inst ∈ insts, inst.dest.regIndex ≠ r) →
        irRun insts regs r = regs r := by
  intro insts
  induction insts with
  | nil =>
      intro regs r _
      rfl
  | cons inst rest ih =>
      intro regs r hDest
      rw [List.forall_mem_cons] at hDest
      rw [irRun, ih _ _ hDest.2]
      unfold irStep
      cases irResult inst.opcode
        (inst.usedSrcs.map fun op =>
          (regs op.regIndex).toInt) with
      | none => rfl
      | some v => exact Function.update_of_ne hDest.1.symm _ _

------
-- Templates Compute The Results
------

namespace SpirvEmitter

open StraightLine

/- A placed line as an instruction of the machine. -/
def lineSem
    (ops : Reading)
    (op : LineOp)
    (xs : List SpirvValue) : Option SpirvValue :=
  match op.form with
  | .core opcode =>
      match ops opcode with
      | some (.int f) => f.eval xs
      | _ => none
  | .ext instruction => extEval instruction xs
  | .const _ => none

theorem execInst_placedInst
    (hExt : ops SpirvOp.ExtInst = some .ext)
    (e : SpirvEmitter)
    (q : Placed LineOp)
    (m : Machine) :
    ∀ env,
      execLine (lineSem ops) m.env q = some env →
        execInst ops (placedInst e q) m =
          some { m with env := env } := by
  rcases q with ⟨id, ⟨form, type⟩, operands⟩
  intro env hLine
  simp only [execLine, bind, pure,
    Option.bind_eq_some_iff] at hLine
  rcases hLine with ⟨xs, hXs, v, hV, hEnv⟩
  cases hEnv
  cases form with
  | core opcode =>
      unfold lineSem at hV
      dsimp only at hV
      split at hV
      · next f hOp =>
          simp [execInst, placedInst, hOp, Machine.compute,
            hXs, hV, Machine.define]
      · cases hV
  | ext instruction =>
      have hExtV : extEval instruction xs = some v := hV
      simp [execInst, placedInst, hExt, Machine.compute, hXs,
        hExtV, Machine.define]
  | const value => cases hV

theorem execAll_placedInst
    (hExt : ops SpirvOp.ExtInst = some .ext)
    (e : SpirvEmitter) :
    ∀ (qs : List (Placed LineOp)) (m : Machine)
      (env : Env SpirvValue),
      exec (lineSem ops) m.env qs = some env →
        execAll ops (qs.map (placedInst e)) m =
          some { m with env := env } := by
  intro qs
  induction qs with
  | nil =>
      intro m env hExec
      cases hExec
      rfl
  | cons q qs ih =>
      intro m env hExec
      simp only [exec, bind, Option.bind_eq_some_iff]
        at hExec
      rcases hExec with ⟨env', hLine, hRest⟩
      have hInst :=
        execInst_placedInst hExt e q m env' hLine
      show (execInst ops (placedInst e q) m).bind _ = _
      rw [hInst]
      exact ih { m with env := env' } env hRest

/- The sources are known, the other arguments are not. -/
def sourceVals
    (xs : List (BitVec 32))
    (i : Nat) : Option SpirvValue :=
  if i < 4 then none else (xs[i - 4]?).map .word

/- The value a template gives for its sources. -/
def Template.value
    (t : Template)
    (ops : Reading)
    (xs : List (BitVec 32)) : Option SpirvValue := do
  let vs ← values (lineSem ops) (sourceVals xs) [] t.lines
  t.result.value (sourceVals xs) vs

------
-- Values Of The Integer Templates
------

variable {inst : ShaderInstruction} {n : Nat}

theorem ofInt_sub_toInt (a b : BitVec 32) :
    BitVec.ofInt 32 (a.toInt - b.toInt) = a - b := by
  rw [Int.sub_eq_add_neg, BitVec.ofInt_add, BitVec.ofInt_neg,
    BitVec.ofInt_toInt, BitVec.ofInt_toInt,
    ← BitVec.sub_eq_add_neg]

/- Of the least integer too the low 32 bits. -/
theorem ofInt_natAbs_toInt (a : BitVec 32) :
    BitVec.ofInt 32 (a.toInt.natAbs : Int) = a.abs := by
  unfold BitVec.abs
  rw [BitVec.msb_eq_toInt]
  by_cases hNeg : a.toInt < 0
  · have hAbs : (a.toInt.natAbs : Int) = -a.toInt := by
      omega
    rw [if_pos (by simpa using hNeg), hAbs,
      BitVec.ofInt_neg, BitVec.ofInt_toInt]
    rfl
  · have hAbs : (a.toInt.natAbs : Int) = a.toInt := by
      omega
    rw [if_neg (by simpa using hNeg), hAbs,
      BitVec.ofInt_toInt]

theorem ofInt_max_toInt (a b : BitVec 32) :
    BitVec.ofInt 32 (max a.toInt b.toInt) =
      if b.sle a then a else b := by
  by_cases hLe : b.toInt ≤ a.toInt
  · rw [if_pos (BitVec.sle_iff_toInt_le.mpr hLe),
      max_eq_left hLe, BitVec.ofInt_toInt]
  · have hNot : ¬ b.sle a = true := by
      intro hSle
      exact hLe (BitVec.sle_iff_toInt_le.mp hSle)
    rw [if_neg hNot, max_eq_right (by omega),
      BitVec.ofInt_toInt]

/- The template of an integer instruction. -/
def intTemplateOf : ShaderOpcode → Template
| .IADD => intTemplate SpirvOp.IAdd
| .ISUB => intTemplate SpirvOp.ISub
| .IMUL => intTemplate SpirvOp.IMul
| .IMAD => imadTemplate
| .IADD3 => iadd3Template
| .INEG => inegTemplate
| .IABS => iabsTemplate
| .IMNMX => imnmxTemplate
| _ => copyTemplate

theorem planOf_int
    (hArity : intArity inst.opcode = some n) :
    planOf inst =
      some (valuePlan n (intTemplateOf inst.opcode)) := by
  unfold intArity at hArity
  split at hArity <;> try cases hArity
  all_goals
    next hOp =>
      unfold planOf intTemplateOf
      rw [hOp]

/- A reading of the compare that the program uses. -/
def ReadsCompare
    (ops : Reading)
    (inst : ShaderInstruction) : Prop :=
  inst.opcode = .IMNMX →
    ops SpirvOp.SGreaterThanEqual =
      some (.int .sGreaterThanEqual)

/- Operations on operands of their types. -/
theorem eval_bitcast (a : BitVec 32) :
    IntOp.bitcast.eval [.word a] = some (.word a) :=
  rfl

theorem eval_sNegate (a : BitVec 32) :
    IntOp.sNegate.eval [.word a] = some (.word (-a)) :=
  rfl

theorem eval_iAdd (a b : BitVec 32) :
    IntOp.iAdd.eval [.word a, .word b] = some (.word (a + b)) :=
  rfl

theorem eval_iMul (a b : BitVec 32) :
    IntOp.iMul.eval [.word a, .word b] = some (.word (a * b)) :=
  rfl

theorem eval_sGreaterThanEqual (a b : BitVec 32) :
    IntOp.sGreaterThanEqual.eval [.word a, .word b] =
      some (.bool (b.sle a)) :=
  rfl

theorem eval_select (c : Bool) (a b : BitVec 32) :
    IntOp.select.eval [.bool c, .word a, .word b] =
      some (.word (if c then a else b)) :=
  rfl

theorem value_intTemplate
    (hReads : ReadsNames ops)
    {opcode : Nat}
    {f : IntOp}
    (hOp : ops opcode = some (.int f))
    {a b c : BitVec 32}
    (hEval : f.eval [.word a, .word b] = some (.word c)) :
    (intTemplate opcode).value ops [a, b] =
      some (.word c) := by
  simp [Template.value, intTemplate, values, Ref.value,
    bitcastLine, coreLine, srcRef, sourceVals, lineSem,
    hReads.bitcast, hOp, eval_bitcast, hEval]

theorem value_imadTemplate
    (hReads : ReadsNames ops)
    (a b c : BitVec 32) :
    imadTemplate.value ops [a, b, c] =
      some (.word (a * b + c)) := by
  simp [Template.value, imadTemplate, values, Ref.value,
    bitcastLine, coreLine, srcRef, sourceVals, lineSem,
    hReads.bitcast, hReads.iMul, hReads.iAdd, eval_bitcast,
    eval_iMul, eval_iAdd]

theorem value_iadd3Template
    (hReads : ReadsNames ops)
    (a b c : BitVec 32) :
    iadd3Template.value ops [a, b, c] =
      some (.word (a + b + c)) := by
  simp [Template.value, iadd3Template, values, Ref.value,
    bitcastLine, coreLine, srcRef, sourceVals, lineSem,
    hReads.bitcast, hReads.iAdd, eval_bitcast, eval_iAdd]

theorem value_inegTemplate
    (hReads : ReadsNames ops)
    (a : BitVec 32) :
    inegTemplate.value ops [a] = some (.word (-a)) := by
  simp [Template.value, inegTemplate, values, Ref.value,
    bitcastLine, coreLine, srcRef, sourceVals, lineSem,
    hReads.bitcast, hReads.sNegate, eval_bitcast,
    eval_sNegate]

theorem value_iabsTemplate
    (hReads : ReadsNames ops)
    (a : BitVec 32) :
    iabsTemplate.value ops [a] = some (.word a.abs) := by
  simp [Template.value, iabsTemplate, values, Ref.value,
    bitcastLine, coreLine, extLine, srcRef, sourceVals,
    lineSem, hReads.bitcast, eval_bitcast, extEval]

theorem value_imnmxTemplate
    (hReads : ReadsNames ops)
    (hCompare :
      ops SpirvOp.SGreaterThanEqual =
        some (.int .sGreaterThanEqual))
    (a b : BitVec 32) :
    imnmxTemplate.value ops [a, b] =
      some (.word (if b.sle a then a else b)) := by
  simp [Template.value, imnmxTemplate, values, Ref.value,
    bitcastLine, coreLine, srcRef, sourceVals, lineSem,
    hReads.bitcast, hReads.select, hCompare, eval_bitcast,
    eval_sGreaterThanEqual, eval_select]

theorem value_copyTemplate (a : BitVec 32) :
    copyTemplate.value ops [a] = some (.word a) :=
  rfl

theorem exists_cons_of_le
    {k : Nat}
    {xs : List (BitVec 32)}
    (hLength : k + 1 ≤ xs.length) :
    ∃ a rest, xs = a :: rest ∧ k ≤ rest.length := by
  cases xs with
  | nil => cases hLength
  | cons a rest =>
      exact ⟨a, rest, rfl, Nat.le_of_succ_le_succ hLength⟩

/-
  The template computes the low 32 bits of the integer that
  the instruction gives.
-/
theorem value_intTemplateOf
    (hReads : ReadsNames ops)
    (hCompare : ReadsCompare ops inst)
    (hArity : intArity inst.opcode = some n)
    (xs : List (BitVec 32))
    (hLength : n ≤ xs.length) :
    ∃ v,
      irResult inst.opcode (xs.map BitVec.toInt) = some v ∧
        (intTemplateOf inst.opcode).value ops (xs.take n) =
          some (.word (BitVec.ofInt 32 v)) := by
  -- Every integer instruction has a first source.
  have hPos : ∃ k, n = k + 1 := by
    unfold intArity at hArity
    split at hArity <;> cases hArity <;> exact ⟨_, rfl⟩
  rcases hPos with ⟨k, hK⟩
  subst hK
  rcases exists_cons_of_le hLength with ⟨a, xs1, hXs, hXs1⟩
  subst hXs
  cases hOp : inst.opcode with
  | IADD =>
      rw [hOp] at hArity
      cases hArity
      rcases exists_cons_of_le hXs1 with ⟨b, xs2, hXs2, _⟩
      subst hXs2
      refine ⟨a.toInt + b.toInt, rfl, ?_⟩
      rw [BitVec.ofInt_add, BitVec.ofInt_toInt,
        BitVec.ofInt_toInt]
      exact value_intTemplate hReads hReads.iAdd rfl
  | ISUB =>
      rw [hOp] at hArity
      cases hArity
      rcases exists_cons_of_le hXs1 with ⟨b, xs2, hXs2, _⟩
      subst hXs2
      refine ⟨a.toInt - b.toInt, rfl, ?_⟩
      rw [ofInt_sub_toInt]
      exact value_intTemplate hReads hReads.iSub rfl
  | IMUL =>
      rw [hOp] at hArity
      cases hArity
      rcases exists_cons_of_le hXs1 with ⟨b, xs2, hXs2, _⟩
      subst hXs2
      refine ⟨a.toInt * b.toInt, rfl, ?_⟩
      rw [BitVec.ofInt_mul, BitVec.ofInt_toInt,
        BitVec.ofInt_toInt]
      exact value_intTemplate hReads hReads.iMul rfl
  | IMNMX =>
      rw [hOp] at hArity
      cases hArity
      rcases exists_cons_of_le hXs1 with ⟨b, xs2, hXs2, _⟩
      subst hXs2
      refine ⟨max a.toInt b.toInt, rfl, ?_⟩
      rw [ofInt_max_toInt]
      exact value_imnmxTemplate hReads (hCompare hOp) a b
  | IMAD =>
      rw [hOp] at hArity
      cases hArity
      rcases exists_cons_of_le hXs1 with ⟨b, xs2, hXs2, hC⟩
      rcases exists_cons_of_le hC with ⟨c, xs3, hXs3, _⟩
      subst hXs2 hXs3
      refine ⟨a.toInt * b.toInt + c.toInt, rfl, ?_⟩
      rw [BitVec.ofInt_add, BitVec.ofInt_mul,
        BitVec.ofInt_toInt, BitVec.ofInt_toInt,
        BitVec.ofInt_toInt]
      exact value_imadTemplate hReads a b c
  | IADD3 =>
      rw [hOp] at hArity
      cases hArity
      rcases exists_cons_of_le hXs1 with ⟨b, xs2, hXs2, hC⟩
      rcases exists_cons_of_le hC with ⟨c, xs3, hXs3, _⟩
      subst hXs2 hXs3
      refine ⟨a.toInt + b.toInt + c.toInt, rfl, ?_⟩
      rw [BitVec.ofInt_add, BitVec.ofInt_add,
        BitVec.ofInt_toInt, BitVec.ofInt_toInt,
        BitVec.ofInt_toInt]
      exact value_iadd3Template hReads a b c
  | INEG =>
      rw [hOp] at hArity
      cases hArity
      refine ⟨-a.toInt, rfl, ?_⟩
      rw [BitVec.ofInt_neg, BitVec.ofInt_toInt]
      exact value_inegTemplate hReads a
  | IABS =>
      rw [hOp] at hArity
      cases hArity
      refine ⟨(a.toInt.natAbs : Int), rfl, ?_⟩
      rw [ofInt_natAbs_toInt]
      exact value_iabsTemplate hReads a
  | I2I =>
      rw [hOp] at hArity
      cases hArity
      refine ⟨a.toInt, rfl, ?_⟩
      rw [BitVec.ofInt_toInt]
      exact value_copyTemplate a
  | _ =>
      rw [hOp] at hArity
      cases hArity

------
-- Emitted Code That Runs
------

variable {P Q R : Machine → Prop} {e e' e'' : SpirvEmitter}

/- Every machine with `P` runs the code to one with `Q`. -/
def Runs
    (ops : Reading)
    (P Q : Machine → Prop)
    (e e' : SpirvEmitter) : Prop :=
  ∃ code : List SpirvInst,
    (∀ i ∈ code, Sized i) ∧
      e'.words = e.words ++ encodeInsts code ∧
        ∀ m, P m → ∃ m', execAll ops code m = some m' ∧ Q m'

theorem Runs.trans
    (hFirst : Runs ops P Q e e')
    (hSecond : Runs ops Q R e' e'') :
    Runs ops P R e e'' := by
  rcases hFirst with ⟨a, hA, hWordsA, hRunA⟩
  rcases hSecond with ⟨b, hB, hWordsB, hRunB⟩
  refine ⟨a ++ b, List.forall_mem_append.mpr ⟨hA, hB⟩, ?_,
    ?_⟩
  · rw [hWordsB, hWordsA, encodeInsts_append,
      List.append_assoc]
  · intro m hM
    rcases hRunA m hM with ⟨m1, hM1, hQ⟩
    rcases hRunB m1 hQ with ⟨m2, hM2, hR⟩
    refine ⟨m2, ?_, hR⟩
    rw [execAll_append, hM1]
    exact hM2

/- Labels and variables do nothing. -/
theorem runs_of_skip
    (hAdds :
      Adds (fun i => Sized i ∧ ops i.opcode = some .skip)
        e e') :
    Runs ops P P e e' := by
  rcases hAdds.words with ⟨code, hCode, hWords⟩
  refine ⟨code, fun i hI => (hCode i hI).1, hWords, ?_⟩
  intro m hM
  refine ⟨m, ?_, hM⟩
  exact execAll_skip fun i hI => (hCode i hI).2

------
-- Variables Of Registers
------

variable {gprMap : GprMap} {regs : Registers}

/- Different registers have different variables. -/
def Separate (gprMap : GprMap) : Prop :=
  ∀ r r' v, gprMap r = some v → gprMap r' = some v → r = r'

/- Every variable holds its register. -/
def Matches
    (gprMap : GprMap)
    (regs : Registers)
    (m : Machine) : Prop :=
  ∀ r v, gprMap r = some v → m.mem v = .word (regs r)

theorem getGpr_of_some
    {r v : Nat}
    (hV : gprMap r = some v) :
    getGpr gprMap r = v := by
  unfold getGpr
  rw [hV]
  rfl

theorem some_of_getGpr
    {r : Nat}
    (hMapped : getGpr gprMap r ≠ 0) :
    gprMap r = some (getGpr gprMap r) := by
  unfold getGpr at hMapped ⊢
  cases hR : gprMap r with
  | none =>
      rw [hR] at hMapped
      exact absurd rfl hMapped
  | some v => rfl

/- A variable for a new register is new. -/
theorem separate_update
    {r n : Nat}
    (hSeparate : Separate gprMap)
    (hBelow : ∀ r v, gprMap r = some v → v < n) :
    Separate (Function.update gprMap r (some n)) := by
  intro r1 r2 v hR1 hR2
  by_cases h1 : r1 = r <;> by_cases h2 : r2 = r
  · rw [h1, h2]
  · rw [h1, Function.update_self] at hR1
    rw [Function.update_of_ne h2] at hR2
    cases hR1
    exact absurd (hBelow r2 _ hR2) (Nat.lt_irrefl _)
  · rw [h2, Function.update_self] at hR2
    rw [Function.update_of_ne h1] at hR1
    cases hR2
    exact absurd (hBelow r1 _ hR1) (Nat.lt_irrefl _)
  · rw [Function.update_of_ne h1] at hR1
    rw [Function.update_of_ne h2] at hR2
    exact hSeparate r1 r2 v hR1 hR2

theorem separate_declared :
    ∀ (os : List ShaderOperand) (gprMap : GprMap)
      (e : SpirvEmitter),
      Separate gprMap →
        (∀ r v, gprMap r = some v → v < e.nextId) →
          Separate (declared os gprMap e).1 := by
  intro os
  induction os with
  | nil =>
      intro gprMap e hSeparate _
      exact hSeparate
  | cons op os ih =>
      intro gprMap e hSeparate hBelow
      unfold declared
      split_ifs
      · apply ih _ _ (separate_update hSeparate hBelow)
        intro r v hV
        show v < e.nextId + 1
        by_cases hR : r = op.regIndex
        · rw [hR, Function.update_self] at hV
          cases hV
          exact Nat.lt_succ_self _
        · rw [Function.update_of_ne hR] at hV
          exact Nat.lt_succ_of_lt (hBelow r v hV)
      · exact ih _ _ hSeparate hBelow

theorem separate_gprMapOf
    (p : ShaderProgram)
    (e : SpirvEmitter) :
    Separate (gprMapOf p e) := by
  apply separate_declared
  · intro r r' v hV
    cases hV
  · intro r v hV
    cases hV

/- A store to a register's variable changes that register. -/
theorem matches_write
    {r : Nat}
    {w : BitVec 32}
    (hSeparate : Separate gprMap)
    (hMapped : getGpr gprMap r ≠ 0)
    (hMatches : Matches gprMap regs m) :
    Matches gprMap (Function.update regs r w)
      (m.write (getGpr gprMap r) (.word w)) := by
  intro r' v hV
  by_cases hR : r' = r
  · subst hR
    rw [getGpr_of_some hV, Function.update_self]
    exact Function.update_self _ _ _
  · have hNe : v ≠ getGpr gprMap r := by
      intro hEq
      rw [hEq] at hV
      exact hR (hSeparate r' r _ hV (some_of_getGpr hMapped))
    rw [Function.update_of_ne hR]
    show Function.update m.mem _ _ v = _
    rw [Function.update_of_ne hNe]
    exact hMatches r' v hV

/- A store elsewhere changes no register. -/
theorem matches_write_other
    {var : Nat}
    {x : SpirvValue}
    (hOther : ∀ r, gprMap r ≠ some var)
    (hMatches : Matches gprMap regs m) :
    Matches gprMap regs (m.write var x) := by
  intro r v hV
  have hNe : v ≠ var := by
    intro hEq
    rw [hEq] at hV
    exact hOther r hV
  show Function.update m.mem _ _ v = _
  rw [Function.update_of_ne hNe]
  exact hMatches r v hV

------
-- One Instruction Of The Program
------

open StraightLine

/- Loads of mapped registers take consecutive ids. -/
theorem loadIds_of_mapped :
    ∀ (rs : List Nat) (k : Nat),
      (∀ r ∈ rs, getGpr gprMap r ≠ 0) →
        loadIds gprMap k rs = List.range' k rs.length := by
  intro rs
  induction rs with
  | nil =>
      intro k _
      rfl
  | cons r rs ih =>
      intro k hMapped
      rw [List.forall_mem_cons] at hMapped
      rw [loadIds, if_neg hMapped.1, ih _ hMapped.2,
        List.length_cons, List.range'_succ]

theorem length_loadCode :
    ∀ (rs : List Nat) (type k : Nat),
      (∀ r ∈ rs, getGpr gprMap r ≠ 0) →
        (loadCode gprMap type k rs).length = rs.length := by
  intro rs
  induction rs with
  | nil =>
      intro type k _
      rfl
  | cons r rs ih =>
      intro type k hMapped
      rw [List.forall_mem_cons] at hMapped
      rw [loadCode, if_neg hMapped.1, List.length_cons,
        ih _ _ hMapped.2, List.length_cons]

/- Loads define their ids and leave the smaller ones. -/
theorem execAll_loadCode
    (hLoad : ops SpirvOp.Load = some .load) :
    ∀ (rs : List Nat) (type k : Nat) (m : Machine),
      (∀ r ∈ rs, getGpr gprMap r ≠ 0) →
        ∃ env,
          execAll ops (loadCode gprMap type k rs) m =
            some { m with env := env } ∧
            (∀ x < k, env x = m.env x) ∧
              ∀ i r, rs[i]? = some r →
                env (k + i) =
                  some (m.mem (getGpr gprMap r)) := by
  intro rs
  induction rs with
  | nil =>
      intro type k m _
      exact ⟨m.env, rfl, fun _ _ => rfl, by simp⟩
  | cons r rs ih =>
      intro type k m hMapped
      rw [List.forall_mem_cons] at hMapped
      rcases ih type (k + 1)
        (m.define k (m.mem (getGpr gprMap r))) hMapped.2 with
        ⟨env, hExec, hBelow, hLoaded⟩
      refine ⟨env, ?_, ?_, ?_⟩
      · rw [loadCode, if_neg hMapped.1, execAll]
        simp only [execInst, hLoad]
        exact hExec
      · intro x hX
        rw [hBelow x (Nat.lt_succ_of_lt hX)]
        exact Function.update_of_ne (Nat.ne_of_lt hX) _ _
      · intro i r' hR'
        cases i with
        | zero =>
            cases hR'
            rw [Nat.add_zero, hBelow k (Nat.lt_succ_self k)]
            exact Function.update_self _ _ _
        | succ i =>
            have hRest := hLoaded i r' hR'
            rw [Nat.add_right_comm] at hRest
            exact hRest

/- Loaded sources are known to the template. -/
theorem holds_sources
    {rs srcs : List Nat}
    {k : Nat}
    {env : Env SpirvValue}
    (hSrcs : srcs = List.range' k rs.length)
    (hLoaded :
      ∀ i r, rs[i]? = some r →
        env (k + i) = some (.word (regs r))) :
    Holds (templateArgs e srcs) (sourceVals (rs.map regs))
      (k + rs.length) [] env := by
  subst hSrcs
  refine ⟨?_, by simp⟩
  intro i v hV
  unfold sourceVals at hV
  split_ifs at hV with hI
  rw [Option.map_eq_some_iff] at hV
  rcases hV with ⟨w, hW, hWord⟩
  subst hWord
  rw [List.getElem?_map, Option.map_eq_some_iff] at hW
  rcases hW with ⟨r, hR, hRegs⟩
  subst hRegs
  have hLength : i - 4 < rs.length :=
    (List.getElem?_eq_some_iff.mp hR).1
  -- The first four arguments are not sources.
  have hArg :
      (templateArgs e (List.range' k rs.length)).getD i 0 =
        k + (i - 4) := by
    rcases Nat.exists_eq_add_of_le (Nat.le_of_not_lt hI) with
      ⟨j, hJ⟩
    subst hJ
    rw [Nat.add_sub_cancel_left] at hLength ⊢
    rw [Nat.add_comm 4 j]
    show (List.range' k rs.length).getD j 0 = k + j
    rw [List.getD_eq_getElem _ _ (by simpa using hLength),
      List.getElem_range', Nat.one_mul]
  rw [hArg]
  exact ⟨by omega, hLoaded _ r hR⟩

/- The template of loaded sources runs to its value. -/
theorem execAll_template
    (hExt : ops SpirvOp.ExtInst = some .ext)
    {t : Template}
    {xs : List (BitVec 32)}
    {srcs : List Nat}
    {v : SpirvValue}
    (hValue : t.value ops xs = some v)
    (hHolds :
      Holds (templateArgs e srcs) (sourceVals xs) e.nextId []
        m.env) :
    ∃ env,
      execAll ops (t.code e srcs) m =
        some { m with env := env } ∧
        env (t.resultId e srcs) = some v := by
  unfold Template.value at hValue
  simp only [bind, Option.bind_eq_some_iff] at hValue
  rcases hValue with ⟨vs, hValues, hResult⟩
  rcases exec_place hHolds rfl hValues with
    ⟨env, hExec, hHolds', _⟩
  exact ⟨env, execAll_placedInst hExt e _ m env hExec,
    hHolds'.ref hResult⟩

/- Registers of the sources that are used. -/
theorem srcRegs_eq
    (hCount : n ≤ inst.srcCount) :
    (srcRegs inst n).map regs =
      (inst.usedSrcs.map fun op => regs op.regIndex).take
        n := by
  unfold srcRegs ShaderInstruction.usedSrcs
  rw [← List.map_take, List.take_take, Nat.min_eq_left hCount,
    List.map_map]
  rfl

------
-- The Loop Runs The Instructions
------

open StraightLine

variable {cfg : CfgAnnotation}
variable {next : Option ShaderInstruction}

theorem intArity_le
    (hArity : intArity inst.opcode = some n) :
    n ≤ 3 := by
  unfold intArity at hArity
  split at hArity <;> cases hArity <;> decide

/- The registers behind an integer instruction. -/
theorem irStep_of_result
    {v : Int}
    (hResult :
      irResult inst.opcode
        ((inst.usedSrcs.map fun op => regs op.regIndex).map
          BitVec.toInt) = some v) :
    irStep inst regs =
      Function.update regs inst.dest.regIndex
        (BitVec.ofInt 32 v) := by
  rw [List.map_map] at hResult
  unfold irStep
  have hSame :
      (inst.usedSrcs.map fun op => (regs op.regIndex).toInt) =
        inst.usedSrcs.map
          (BitVec.toInt ∘ fun op => regs op.regIndex) :=
    rfl
  rw [hSame, hResult]

/- Loaded registers stand under consecutive ids. -/
theorem runs_loaded
    (hLoad : ops SpirvOp.Load = some .load)
    (rs : List Nat)
    (hMapped : ∀ r ∈ rs, getGpr gprMap r ≠ 0) :
    Runs ops (Matches gprMap regs)
      (fun m =>
        Matches gprMap regs m ∧
          ∀ i r, rs[i]? = some r →
            m.env (e.nextId + i) = some (.word (regs r)))
      e (loaded gprMap rs e) := by
  refine ⟨_, form_loadCode ?_ _ _ _, rfl, ?_⟩
  · exact fun _ _ _ => frameForms_sized.load _ _ _
  · intro m hMatches
    rcases execAll_loadCode hLoad rs e.types.f32T e.nextId m
      hMapped with ⟨env, hExec, _, hLoaded⟩
    refine ⟨_, hExec, hMatches, ?_⟩
    intro i r hR
    have hSome :=
      some_of_getGpr (hMapped r (List.mem_of_getElem? hR))
    show env (e.nextId + i) = _
    rw [hLoaded i r hR, hMatches r _ hSome]

/- The template defines the value of the instruction. -/
theorem runs_template
    (hExt : ops SpirvOp.ExtInst = some .ext)
    {t : Template}
    {rs srcs : List Nat}
    {k : Nat}
    {v : SpirvValue}
    (hSized : ∀ i ∈ t.code e srcs, Sized i)
    (hSrcs : srcs = List.range' k rs.length)
    (hNext : e.nextId = k + rs.length)
    (hValue : t.value ops (rs.map regs) = some v) :
    Runs ops
      (fun m =>
        Matches gprMap regs m ∧
          ∀ i r, rs[i]? = some r →
            m.env (k + i) = some (.word (regs r)))
      (fun m =>
        Matches gprMap regs m ∧
          m.env (t.resultId e srcs) = some v)
      e (t.emitted srcs e) := by
  refine ⟨_, hSized, rfl, ?_⟩
  rintro m ⟨hMatches, hLoaded⟩
  have hHolds :
      Holds (templateArgs e srcs) (sourceVals (rs.map regs))
        e.nextId [] m.env := by
    rw [hNext]
    exact holds_sources hSrcs hLoaded
  rcases execAll_template hExt hValue hHolds with
    ⟨env, hExec, hResult⟩
  exact ⟨_, hExec, hMatches, hResult⟩

/- The store puts it into the destination. -/
theorem runs_store
    (hStore : ops SpirvOp.Store = some .store)
    (hSeparate : Separate gprMap)
    {r value : Nat}
    {w : BitVec 32}
    (hMapped : getGpr gprMap r ≠ 0) :
    Runs ops
      (fun m =>
        Matches gprMap regs m ∧
          m.env value = some (.word w))
      (Matches gprMap (Function.update regs r w))
      e (e.pushed 0 (storeCode gprMap r value)) := by
  unfold storeCode
  rw [if_neg hMapped]
  refine ⟨_, ?_, rfl, ?_⟩
  · rw [List.forall_mem_singleton]
    exact frameForms_sized.store _ _
  · rintro m ⟨hMatches, hValue⟩
    refine ⟨m.write (getGpr gprMap r) (.word w), ?_,
      matches_write hSeparate hMapped hMatches⟩
    simp [execAll, execInst, hStore, hValue]

/- Together they do what the instruction does. -/
theorem runs_planned
    (hReads : ReadsNames ops)
    (hCompare : ReadsCompare ops inst)
    (hSeparate : Separate gprMap)
    (hMapped : Mapped gprMap inst)
    (hArity : intArity inst.opcode = some n)
    (hCount : n ≤ inst.srcCount)
    (hNext : 0 < e.nextId) :
    Runs ops (Matches gprMap regs)
      (Matches gprMap (irStep inst regs)) e
      (planned (valuePlan n (intTemplateOf inst.opcode)) inst
        gprMap e) := by
  have hPlan := planOf_int hArity
  have hActive :
      Active inst
        (valuePlan n (intTemplateOf inst.opcode)) :=
    ⟨hPlan, hCount⟩
  have hSources :
      ∀ r ∈ srcRegs inst n, getGpr gprMap r ≠ 0 :=
    hMapped.sources _ hActive
  have hForms := planForms_sized hPlan
  have hLength :
      n ≤ (inst.usedSrcs.map fun op =>
        regs op.regIndex).length := by
    have hThree := intArity_le hArity
    simp [ShaderInstruction.usedSrcs]
    omega
  -- The sources' contents and the result they give.
  rcases value_intTemplateOf hReads hCompare hArity _ hLength
    with ⟨v, hResult, hValue⟩
  rw [← srcRegs_eq hCount] at hValue
  rw [irStep_of_result hResult,
    planned_of_active hMapped hActive hNext Nat.one_ne_zero]
  have hLoaded :
      (loaded gprMap (srcRegs inst n) e).nextId =
        e.nextId + (srcRegs inst n).length := by
    unfold loaded
    rw [nextId_pushed, length_loadCode _ _ _ hSources]
  exact (runs_loaded hReads.load _ hSources).trans
    ((runs_template hReads.ext (form_template hForms _)
      (loadIds_of_mapped _ _ hSources) hLoaded hValue).trans
      (runs_store hReads.store hSeparate
        (hMapped.dest _ hActive rfl)))

theorem runs_stepped
    (hReads : ReadsNames ops)
    (hCompare : ReadsCompare ops inst)
    (hSeparate : Separate gprMap)
    (hMapped : Mapped gprMap inst)
    (hInt : IntInst inst)
    (hNext : 0 < e.nextId) :
    Runs ops (Matches gprMap regs)
      (Matches gprMap (irStep inst regs)) e
      (stepped cfg gprMap inst next e) := by
  rcases hInt.sources with ⟨n, hArity, hCount⟩
  have hLabel :
      Adds (fun i => Sized i ∧ ops i.opcode = some .skip) e
        (blockLabelled cfg inst.pc e) :=
    adds_blockLabelled
      (fun x => ⟨frameForms_sized.label x, hReads.label⟩) _
  have hBreak : inst.opcode ≠ .BREAK := by
    intro hOp
    rw [hOp] at hArity
    cases hArity
  have hCont : inst.opcode ≠ .CONT := by
    intro hOp
    rw [hOp] at hArity
    cases hArity
  unfold stepped
  rw [advanced_of_planOf _ _ _ (planOf_int hArity) hBreak
    hCont]
  exact (runs_of_skip hLabel).trans
    (runs_planned hReads hCompare hSeparate hMapped hArity
      hCount (lt_of_lt_of_le hNext hLabel.nextId))

/- The loop, by induction over the instructions. -/
theorem runs_streamed
    (cfg : CfgAnnotation)
    (hReads : ReadsNames ops)
    (hSeparate : Separate gprMap)
    {exit : ShaderInstruction}
    (hExit : exit.opcode = .EXIT) :
    ∀ (body : List ShaderInstruction) (e : SpirvEmitter)
      (regs : Registers),
      (∀ inst ∈ body, IntInst inst) →
        (∀ inst ∈ body, ReadsCompare ops inst) →
          (∀ inst ∈ body, Mapped gprMap inst) →
            0 < e.nextId →
              Runs ops (Matches gprMap regs)
                (Matches gprMap (irRun body regs)) e
                (streamed cfg gprMap (body ++ [exit]) e) := by
  intro body
  induction body with
  | nil =>
      intro e regs _ _ _ _
      have hLabel :
          Adds (fun i => Sized i ∧ ops i.opcode = some .skip) e
            (blockLabelled cfg exit.pc e) :=
        adds_blockLabelled
          (fun x => ⟨frameForms_sized.label x, hReads.label⟩) _
      have hStep :
          streamed cfg gprMap [exit] e =
            blockLabelled cfg exit.pc e := by
        simp [streamed, stepped, advanced, isPlainBra,
          isPredBra, hExit]
      rw [List.nil_append, hStep]
      exact runs_of_skip hLabel
  | cons inst rest ih =>
      intro e regs hInt hCompare hMapped hNext
      rw [List.forall_mem_cons] at hInt hCompare hMapped
      have hAdds :
          Adds Sized e (stepped cfg gprMap inst
            (rest ++ [exit]).head? e) :=
        adds_stepped controlForms_sized
          fun _ hPlan => planForms_sized hPlan
      exact (runs_stepped hReads hCompare.1 hSeparate
        hMapped.1 hInt.1 hNext).trans
          (ih _ _ hInt.2 hCompare.2 hMapped.2
            (lt_of_lt_of_le hNext hAdds.nextId))

------
-- The Function Runs The Program
------

variable {p : ShaderProgram} {body : List ShaderInstruction}
variable {exit : ShaderInstruction}

/- The outputs the stage's inputs are copied to. -/
def ioOutputs (io : ShaderIo) : List Nat :=
  [io.vertOutPosition, io.vertOutColor, io.fragOutColor]

/- One copy of an input to an output. -/
theorem execAll_copy
    (hReads : ReadsNames ops)
    {type n input output : Nat}
    (hOther : ∀ r, gprMap r ≠ some output)
    (hMatches : Matches gprMap regs m) :
    ∃ m',
      execAll ops
        [⟨SpirvOp.Load, [type, n, input]⟩,
          ⟨SpirvOp.Store, [output, n]⟩] m = some m' ∧
        Matches gprMap regs m' := by
  refine ⟨(m.define n (m.mem input)).write output
    (m.mem input), ?_, matches_write_other hOther hMatches⟩
  simp [execAll, execInst, hReads.load, hReads.store,
    Machine.define]

/- Copies of inputs to outputs leave the registers. -/
theorem runs_ioCopied
    (hReads : ReadsNames ops)
    (stage : ShaderStage)
    (hOther :
      ∀ var ∈ ioOutputs e.io, ∀ r, gprMap r ≠ some var) :
    Runs ops (Matches gprMap regs) (Matches gprMap regs) e
      (ioCopied stage e) := by
  simp only [ioOutputs, List.forall_mem_cons] at hOther
  rcases hOther with ⟨hPosition, hColor, hFragment, _⟩
  refine ⟨ioCode stage e, ?_, rfl, ?_⟩
  · exact form_ioCode frameForms_sized.load
      frameForms_sized.store stage
  · intro m hMatches
    unfold ioCode
    dsimp only
    split_ifs
    · rcases execAll_copy hReads hPosition hMatches with
        ⟨m1, hM1, hMatches1⟩
      rcases execAll_copy hReads hColor hMatches1 with
        ⟨m2, hM2, hMatches2⟩
      refine ⟨m2, ?_, hMatches2⟩
      rw [execAll_append, hM1]
      exact hM2
    · exact execAll_copy hReads hFragment hMatches
    · exact ⟨m, rfl, hMatches⟩

/- The map `BuildGprMap` returns for a program. -/
def registerVars
    (e : SpirvEmitter)
    (p : ShaderProgram) : GprMap :=
  ((buildGprMap p).run
    ((emitEntry p).run (preambled p e)).2).1

theorem registerVars_eq (e : SpirvEmitter) :
    registerVars e p =
      gprMapOf p (entered p (preambled p e)) := by
  unfold registerVars buildGprMap
  rw [run_emitEntry, run_declareGprs]
  rfl

/- Outputs are declared in front of the function. -/
theorem ioOutputs_lt
    (p : ShaderProgram)
    (e : SpirvEmitter) :
    ∀ var ∈ ioOutputs (preambled p e).io,
      var < (preambled p e).nextId := by
  rw [(sameHead_preambled p e).io,
    (sameHead_preambled p e).nextId]
  cases kindOf p.stage <;> cases p.usesTextures <;>
    decide

/- Registers have variables of the function. -/
theorem registerVars_ne_output
    (e : SpirvEmitter) :
    ∀ var ∈ ioOutputs (preambled p e).io,
      ∀ r, registerVars e p r ≠ some var := by
  intro var hVar r hR
  have hLt := ioOutputs_lt p e var hVar
  rw [registerVars_eq] at hR
  rcases declared_ids _ _ _ _ _ hR with hNone | ⟨hLow, _⟩
  · cases hNone
  · have hEntered :
        (entered p (preambled p e)).nextId =
          (preambled p e).nextId + 1 :=
      rfl
    omega

/- Integer instructions have a variable for each operand. -/
theorem mapped_of_int
    (hInst : inst ∈ p.instructions)
    (hInt : IntInst inst)
    (e : SpirvEmitter) :
    Mapped (registerVars e p) inst := by
  rcases hInt.sources with ⟨n, hArity, hCount⟩
  have hPlan := planOf_int hArity
  have hNext : 0 < (entered p (preambled p e)).nextId :=
    Nat.succ_pos _
  rw [registerVars_eq]
  refine ⟨?_, ?_⟩
  · intro plan hActive r hR
    have hSame := hActive.1
    rw [hPlan, Option.some.injEq] at hSame
    subst hSame
    rcases List.mem_map.mp hR with ⟨op, hOp, hIndex⟩
    subst hIndex
    have hUsed : op ∈ inst.usedSrcs := by
      unfold ShaderInstruction.usedSrcs
      exact List.take_subset_take_left _ hCount hOp
    exact getGpr_gprMapOf hNext
      (mem_gprOperands hInst (Or.inr hUsed))
      (hInt.srcs op hUsed).1
  · intro plan _ _
    exact getGpr_gprMapOf hNext
      (mem_gprOperands hInst (Or.inl rfl)) hInt.dest.1

/- Label, variables and copies leave the registers. -/
theorem runs_atLoop
    (hReads : ReadsNames ops)
    (p : ShaderProgram)
    (e : SpirvEmitter) :
    Runs ops (Matches (registerVars e p) regs)
      (Matches (registerVars e p) regs)
      (preambled p e) (atLoop p (preambled p e)) := by
  have hLabel :
      Adds (fun i => Sized i ∧ ops i.opcode = some .skip)
        (preambled p e)
        ((preambled p e).pushed 1
          [labelInst (preambled p e).nextId]) := by
    apply adds_pushed
    rw [List.forall_mem_singleton]
    exact ⟨frameForms_sized.label _, hReads.label⟩
  have hEntered :
      Adds (fun i => Sized i ∧ ops i.opcode = some .skip)
        (preambled p e) (entered p (preambled p e)) :=
    hLabel.trans (adds_of_eq rfl rfl rfl rfl)
  have hDeclared :
      Adds (fun i => Sized i ∧ ops i.opcode = some .skip)
        (entered p (preambled p e))
        (gprsDeclared p (entered p (preambled p e))) :=
    adds_declared (fun x y =>
      ⟨frameForms_sized.declare x y, hReads.variable'⟩) _ _ _
  have hHead := hEntered.trans hDeclared
  have hIo :
      (gprsDeclared p (entered p (preambled p e))).io =
        (preambled p e).io :=
    congrArg HeadIds.io hHead.headIds
  have hOther := registerVars_ne_output (p := p) e
  rw [← hIo] at hOther
  exact (runs_of_skip hHead).trans
    (runs_ioCopied hReads p.stage hOther)

/- The whole function up to its return. -/
theorem runs_behindLoop
    (hReads : ReadsNames ops)
    (hInt : IntProgram p body exit)
    (hCompare : ∀ inst ∈ body, ReadsCompare ops inst)
    (e : SpirvEmitter) :
    Runs ops (Matches (registerVars e p) regs)
      (Matches (registerVars e p) (irRun body regs))
      (preambled p e) (behindLoop p (preambled p e)) := by
  have hFrame :
      Adds Sized (preambled p e) (atLoop p (preambled p e)) :=
    adds_atLoop frameForms_sized p
  have hNext : 0 < (atLoop p (preambled p e)).nextId :=
    lt_of_lt_of_le (nextId_preambled_pos p e) hFrame.nextId
  have hMapped :
      ∀ inst ∈ body, Mapped (registerVars e p) inst := by
    intro inst hInst
    have hMem : inst ∈ p.instructions := by
      rw [hInt.instructions]
      exact List.mem_append_left _ hInst
    exact mapped_of_int hMem (hInt.body inst hInst) e
  have hSeparate : Separate (registerVars e p) := by
    rw [registerVars_eq]
    exact separate_gprMapOf _ _
  have hLoop :=
    runs_streamed (buildCfg p) hReads hSeparate hInt.isExit
      body (atLoop p (preambled p e)) regs hInt.body hCompare
      hMapped hNext
  rw [← hInt.instructions] at hLoop
  refine (runs_atLoop hReads p e).trans ?_
  unfold behindLoop
  rw [← registerVars_eq]
  exact hLoop

------
-- Emitted Functions Compute
------

/-
  From every content of the registers' variables the emitted
  function runs to its return, leaves in them what the
  instructions leave in the registers, and changes no other
  register than their destinations.
-/
def Computes
    (ops : Reading)
    (e : SpirvEmitter)
    (p : ShaderProgram) : Prop :=
  ∃ insts,
    instructionsOf (emit e p) = some insts ∧
      ∀ (m : Machine) (regs : Registers),
        Matches (registerVars e p) regs m →
          ∃ m',
            runFunction ops (functionBody insts) m =
                some m' ∧
              Matches (registerVars e p)
                  (irRun p.instructions regs) m' ∧
                ∀ r v, registerVars e p r = some v →
                  (∀ inst ∈ p.instructions,
                    inst.opcode ≠ .EXIT →
                      inst.dest.regIndex ≠ r) →
                    m'.mem v = m.mem v

/- Code without a return in it. -/
def InlineShape (opcode count : Nat) : Prop :=
  SizedShape opcode count ∧ opcode ≠ SpirvOp.Return

instance (opcode count : Nat) :
    Decidable (InlineShape opcode count) :=
  inferInstanceAs (Decidable (_ ∧ _))

theorem inlineShape_plans :
    ∀ plan ∈ plans, ∀ s ∈ planShapes plan,
      InlineShape s.1 s.2 := by
  decide

theorem adds_loop_inline
    (p : ShaderProgram)
    (e : SpirvEmitter) :
    Adds (Shaped InlineShape) e (behindLoop p e) :=
  adds_behindLoop (frameForms_shaped (by decide))
    (controlForms_shaped (by decide)) p
    fun _ _ _ hPlan =>
      planForms_shaped
        (inlineShape_plans _ (planOf_mem_plans hPlan))

/- The function's code runs up to the return behind it. -/
theorem runFunction_emit
    (hInt : IntProgram p body exit)
    {code : List SpirvInst}
    (hSized : ∀ i ∈ code, Sized i)
    (hWords :
      (behindLoop p (preambled p e)).words =
        (preambled p e).words ++ encodeInsts code)
    (m : Machine) :
    runFunction ops (functionBody (moduleOf p code)) m =
      execAll ops code m := by
  rcases (adds_loop_inline p (preambled p e)).words with
    ⟨code', hInline, hWords'⟩
  have hSame : code = code' := by
    apply encodeInsts_inj hSized (fun i hI => (hInline i hI).1)
    rw [hWords] at hWords'
    exact List.append_cancel_left hWords'
  subst hSame
  have hEnd :
      endCode p =
        [⟨SpirvOp.Return, []⟩, ⟨SpirvOp.FunctionEnd, []⟩] := by
    unfold endCode
    rw [if_neg]
    rw [hInt.instructions, List.any_eq_true]
    rintro ⟨inst, hInst, hKil⟩
    have hOp : inst.opcode = .KIL := by simpa using hKil
    rcases List.mem_append.mp hInst with hBody | hExit
    · rcases (hInt.body inst hBody).sources with ⟨n, hN, _⟩
      rw [hOp] at hN
      cases hN
    · rw [List.mem_singleton] at hExit
      rw [hExit, hInt.isExit] at hOp
      cases hOp
  rw [functionBody_moduleOf, hEnd]
  exact runFunction_append (fun i hI => (hInline i hI).2) _

/- The `EXIT` changes no register. -/
theorem irRun_append_exit
    (hExit : exit.opcode = .EXIT) :
    ∀ (insts : List ShaderInstruction) (regs : Registers),
      irRun (insts ++ [exit]) regs = irRun insts regs := by
  intro insts
  induction insts with
  | nil =>
      intro regs
      show irStep exit regs = regs
      unfold irStep
      rw [hExit]
      rfl
  | cons inst rest ih =>
      intro regs
      exact ih _

theorem opcode_ne_exit
    (hInt : IntInst inst) :
    inst.opcode ≠ .EXIT := by
  rcases hInt.sources with ⟨n, hArity, _⟩
  intro hOp
  rw [hOp] at hArity
  cases hArity

/- The function computes if its opcodes are read by name. -/
theorem computes_of_reads
    (hReads : ReadsNames ops)
    (hInt : IntProgram p body exit)
    (hCompare : ∀ inst ∈ body, ReadsCompare ops inst)
    (e : SpirvEmitter) :
    Computes ops e p := by
  rcases (adds_loop_sized p (preambled p e)).words with
    ⟨code, hSized, hWords⟩
  refine ⟨moduleOf p code, instructionsOf_emit hSized hWords,
    ?_⟩
  intro m regs hMatches
  have hRuns :
      Runs ops (Matches (registerVars e p) regs) _ _ _ :=
    runs_behindLoop hReads hInt hCompare e
  rcases hRuns with ⟨code', hSized', hWords', hRun⟩
  have hSame : code' = code := by
    apply encodeInsts_inj hSized' hSized
    rw [hWords] at hWords'
    exact (List.append_cancel_left hWords').symm
  subst hSame
  rcases hRun m hMatches with ⟨m', hExec, hMatches'⟩
  refine ⟨m', ?_, ?_, ?_⟩
  · rw [runFunction_emit hInt hSized hWords]
    exact hExec
  · rw [hInt.instructions, irRun_append_exit hInt.isExit]
    exact hMatches'
  · intro r v hV hDest
    rw [hMatches' r v hV, hMatches r v hV, irRun_of_not_dest]
    intro inst hInst
    apply hDest inst _ (opcode_ne_exit (hInt.body inst hInst))
    rw [hInt.instructions]
    exact List.mem_append_left _ hInst

/- With the header's number the compare is read as well. -/
theorem computes_of_named
    (hInt : IntProgram p body exit)
    (e : SpirvEmitter) :
    Computes namedReading e p :=
  computes_of_reads readsNames_named hInt
    (fun _ _ _ => rfl) e

/- An `IMNMX` emits the compare. -/
theorem addsSome_compare
    (hInt : IntProgram p body exit)
    (hInst : inst ∈ body)
    (hOp : inst.opcode = .IMNMX)
    (e : SpirvEmitter) :
    AddsSome
      (fun i => i.opcode = SpirvOp.SGreaterThanEqual)
      (preambled p e) (behindLoop p (preambled p e)) := by
  have hMem : inst ∈ p.instructions := by
    rw [hInt.instructions]
    exact List.mem_append_left _ hInst
  have hMapped := mapped_of_int hMem (hInt.body inst hInst) e
  rw [registerVars_eq] at hMapped
  rcases (hInt.body inst hInst).sources with
    ⟨n, hArity, hCount⟩
  have hActive :
      Active inst
        (valuePlan n (intTemplateOf inst.opcode)) :=
    ⟨planOf_int hArity, hCount⟩
  have hFrame :
      Adds Sized (preambled p e) (atLoop p (preambled p e)) :=
    adds_atLoop frameForms_sized p
  have hNext : 0 < (atLoop p (preambled p e)).nextId :=
    lt_of_lt_of_le (nextId_preambled_pos p e) hFrame.nextId
  apply AddsSome.behind hFrame
  apply addsSome_streamed
  refine ⟨inst, hMem, ?_⟩
  intro e1 next hLe _
  apply addsSome_stepped hActive.1 (by rw [hOp]; decide)
    (by rw [hOp]; decide)
  intro e2 hLe2 _ _
  have hNext2 : 0 < e2.nextId := by omega
  apply addsSome_planned hMapped hActive hNext2
    Nat.one_ne_zero
  intro e3 srcs _ _
  left
  apply addsSome_template (planForms_sized hActive.1)
  have hLine :
      coreLine SpirvOp.SGreaterThanEqual .boolT
          [.line 0, .line 1] ∈
        (valuePlan n
          (intTemplateOf inst.opcode)).template.lines := by
    rw [hOp]
    show _ ∈ imnmxTemplate.lines
    decide
  rcases StraightLine.exists_mem_place hLine with
    ⟨q, hQ, hForm⟩
  refine ⟨q, hQ, ?_⟩
  unfold placedInst
  rw [hForm]
  rfl

/- Without a meaning for it no run ends. -/
theorem not_computes_of_compare
    (hUnread : ops SpirvOp.SGreaterThanEqual = none)
    (hInt : IntProgram p body exit)
    (hInst : inst ∈ body)
    (hOp : inst.opcode = .IMNMX)
    (e : SpirvEmitter) :
    ¬ Computes ops e p := by
  rintro ⟨insts, hInsts, hRuns⟩
  rcases addsSome_compare hInt hInst hOp e with
    ⟨code, hSized, ⟨i, hI, hCompare⟩, hWords⟩
  rw [instructionsOf_emit hSized hWords, Option.some.injEq]
    at hInsts
  subst hInsts
  rcases hRuns ⟨fun _ => none, fun _ => .word 0⟩ (fun _ => 0)
    (fun _ _ _ => rfl) with ⟨m', hRun, _⟩
  have hNone : ops i.opcode = none := by
    rw [hCompare]
    exact hUnread
  rw [runFunction_emit hInt hSized hWords,
    execAll_unread hI hNone] at hRun
  cases hRun

/-
  The function emitted for straight-line integer code
  computes under the standard's opcode numbers exactly when
  there is no `IMNMX`: the header gives its compare the
  number 142.
-/
theorem emit_computes_iff
    (e : SpirvEmitter)
    (p : ShaderProgram)
    (body : List ShaderInstruction)
    (exit : ShaderInstruction)
    (hInt : IntProgram p body exit) :
    Computes standardReading e p ↔
      ∀ inst ∈ p.instructions, inst.opcode ≠ .IMNMX := by
  rw [hInt.instructions, List.forall_mem_append,
    List.forall_mem_singleton]
  constructor
  · intro hComputes
    refine ⟨?_, ?_⟩
    · intro inst hInst hOp
      exact not_computes_of_compare rfl hInt hInst hOp e
        hComputes
    · rw [hInt.isExit]
      decide
  · rintro ⟨hNone, _⟩
    exact computes_of_reads readsNames_standard hInt
      (fun inst hInst hOp => absurd hOp (hNone inst hInst)) e

/- One instruction on registers and `EXIT`. -/
def oneThenExit (op : ShaderOpcode) : ShaderProgram :=
  { stage := .VertexB
    instructions :=
      [{ opcode := op
         dest := .gpr 1
         src0 := .gpr 1
         src1 := .gpr 2
         srcCount := 2 },
        { opcode := .EXIT, pc := 8 }] }

theorem intProgram_oneThenExit
    (op : ShaderOpcode)
    (hArity : intArity op = some 2) :
    IntProgram (oneThenExit op)
      ((oneThenExit op).instructions.take 1)
      { opcode := .EXIT, pc := 8 } := by
  refine ⟨rfl, ?_, rfl, rfl⟩
  intro inst hInst
  have hEq : inst = _ := List.mem_singleton.mp hInst
  subst hEq
  refine ⟨⟨2, hArity, le_refl 2⟩, ⟨rfl, rfl, rfl, rfl⟩, ?_,
    rfl⟩
  intro op' hOp'
  rcases List.mem_cons.mp hOp' with hFirst | hRest
  · subst hFirst
    exact ⟨rfl, rfl, rfl, rfl⟩
  · have hSecond : op' = _ := List.mem_singleton.mp hRest
    subst hSecond
    exact ⟨rfl, rfl, rfl, rfl⟩

theorem isubThenExit_computes :
    Computes standardReading {} (oneThenExit .ISUB) := by
  rw [emit_computes_iff {} (oneThenExit .ISUB)
    ((oneThenExit .ISUB).instructions.take 1)
    { opcode := .EXIT, pc := 8 }
    (intProgram_oneThenExit .ISUB rfl)]
  decide

/- The maximum of two registers does not come out. -/
theorem imnmxThenExit_not_computes :
    ¬ Computes standardReading {} (oneThenExit .IMNMX) :=
  not_computes_of_compare rfl
    (intProgram_oneThenExit .IMNMX rfl) List.mem_cons_self rfl
    {}

end SpirvEmitter

end M1Switch
