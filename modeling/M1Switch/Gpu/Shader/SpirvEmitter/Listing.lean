import M1Switch.Gpu.Shader.SpirvEmitter.Stream
import M1Switch.Library.StraightLine

/-
  What an instruction of the program is emitted as.

  An instruction outside the control flow loads its sources,
  computes a value by straight-line code and stores it.  The
  code is a template; a plan names the template of an
  instruction, the number of its sources and where the value
  goes.

  Key definitions include:
    * `pushed`
    * `SpirvEmitter.Template`

  Main results:
    * `emitShaderInst_eq`
-/

------
-- Appended Instructions
------

namespace M1Switch

namespace SpirvEmitter

variable {α β : Type} {e : SpirvEmitter} {opcode : Nat}
variable {op : Nat → Nat → Nat → Emit Nat}

/- The bound behind a number of new ids. -/
def boundAfter (e : SpirvEmitter) (ids : Nat) : Nat :=
  if ids = 0 then e.bound else max e.bound (e.nextId + ids)

/- The emitter behind new ids and appended instructions. -/
def pushed
    (e : SpirvEmitter)
    (ids : Nat)
    (code : List SpirvInst) : SpirvEmitter :=
  { e with
    words := e.words ++ encodeInsts code
    nextId := e.nextId + ids
    bound := boundAfter e ids }

@[simp] theorem words_pushed
    (ids : Nat)
    (code : List SpirvInst) :
    (e.pushed ids code).words =
      e.words ++ encodeInsts code :=
  rfl

@[simp] theorem nextId_pushed
    (ids : Nat)
    (code : List SpirvInst) :
    (e.pushed ids code).nextId = e.nextId + ids :=
  rfl

@[simp] theorem types_pushed
    (ids : Nat)
    (code : List SpirvInst) :
    (e.pushed ids code).types = e.types :=
  rfl

@[simp] theorem cfgState_pushed
    (ids : Nat)
    (code : List SpirvInst) :
    (e.pushed ids code).cfgState = e.cfgState :=
  rfl

@[simp] theorem glslExtId_pushed
    (ids : Nat)
    (code : List SpirvInst) :
    (e.pushed ids code).glslExtId = e.glslExtId := by
  unfold pushed
  rfl

theorem boundAfter_pushed
    (m n : Nat)
    (code : List SpirvInst) :
    boundAfter (e.pushed m code) n =
      boundAfter e (m + n) := by
  unfold boundAfter
  rw [nextId_pushed]
  show (if n = 0 then boundAfter e m
    else max (boundAfter e m) _) = _
  unfold boundAfter
  split_ifs <;> omega

@[simp] theorem pushed_pushed
    (m n : Nat)
    (a b : List SpirvInst) :
    (e.pushed m a).pushed n b = e.pushed (m + n) (a ++ b) := by
  have hBound := boundAfter_pushed (e := e) m n a
  unfold pushed at hBound ⊢
  simp only [encodeInsts_append, List.append_assoc,
    Nat.add_assoc, hBound]

@[simp] theorem pushed_nil : e.pushed 0 [] = e := by
  unfold pushed boundAfter encodeInsts
  rw [if_pos rfl, List.flatMap_nil, List.append_nil]
  rfl

/- Plain instructions neither set nor name a label. -/
theorem quiet_pushed
    {ids : Nat}
    {code : List SpirvInst}
    (hPlain : ∀ i ∈ code, PlainOp i.opcode) :
    Quiet e (e.pushed ids code) :=
  ⟨⟨code, hPlain, rfl⟩, Nat.le_add_right _ _, rfl, rfl, rfl⟩

------
-- Running The Primitive Steps
------

theorem run_bind
    (m : Emit α)
    (f : α → Emit β)
    (e : SpirvEmitter) :
    (m >>= f).run e = (f (m.run e).1).run (m.run e).2 :=
  rfl

@[simp] theorem run_pure (a : α) (e : SpirvEmitter) :
    (pure a : Emit α).run e = (a, e) :=
  rfl

@[simp high] theorem run_get_bind
    (f : SpirvEmitter → Emit β)
    (e : SpirvEmitter) :
    (get >>= f).run e = (f e).run e :=
  rfl

theorem run_emitWords (i : SpirvInst) (e : SpirvEmitter) :
    (emitWords i.encode).run e = ((), e.pushed 0 [i]) := by
  unfold pushed boundAfter encodeInsts
  rw [if_pos rfl, List.flatMap_singleton]
  rfl

theorem run_allocId (e : SpirvEmitter) :
    allocId.run e = (e.nextId, e.pushed 1 []) := by
  unfold pushed boundAfter encodeInsts
  rw [if_neg Nat.one_ne_zero, List.flatMap_nil,
    List.append_nil]
  rfl

@[simp] theorem run_emitInst0 (opcode : Nat) (e : SpirvEmitter) :
    (emitInst0 opcode).run e =
      ((), e.pushed 0 [⟨opcode, []⟩]) :=
  run_emitWords ⟨opcode, []⟩ e

@[simp] theorem run_emitInst1 (opcode a : Nat) (e : SpirvEmitter) :
    (emitInst1 opcode a).run e =
      ((), e.pushed 0 [⟨opcode, [a]⟩]) :=
  run_emitWords ⟨opcode, [a]⟩ e

@[simp] theorem run_emitInst2 (opcode a b : Nat) (e : SpirvEmitter) :
    (emitInst2 opcode a b).run e =
      ((), e.pushed 0 [⟨opcode, [a, b]⟩]) :=
  run_emitWords ⟨opcode, [a, b]⟩ e

@[simp] theorem run_emitInst3
    (opcode a b c : Nat)
    (e : SpirvEmitter) :
    (emitInst3 opcode a b c).run e =
      ((), e.pushed 0 [⟨opcode, [a, b, c]⟩]) :=
  run_emitWords ⟨opcode, [a, b, c]⟩ e

/- A new id and one instruction with it. -/
theorem run_withNewId
    {f : Nat → Emit Unit}
    (inst : Nat → SpirvInst)
    (hF : ∀ id, f id = emitWords (inst id).encode)
    (e : SpirvEmitter) :
    (do
      let id ← allocId
      f id
      return id : Emit Nat).run e =
        (e.nextId, e.pushed 1 [inst e.nextId]) := by
  simp only [run_bind, run_pure, run_allocId, hF,
    run_emitWords, pushed_pushed, List.nil_append,
    Nat.add_zero]

@[simp] theorem run_emitUnary
    (opcode type a : Nat)
    (e : SpirvEmitter) :
    (emitUnary opcode type a).run e =
      (e.nextId,
        e.pushed 1 [⟨opcode, [type, e.nextId, a]⟩]) :=
  run_withNewId
    (fun id => ⟨opcode, [type, id, a]⟩)
    (fun _ => rfl) e

@[simp] theorem run_emitBinary
    (opcode type a b : Nat)
    (e : SpirvEmitter) :
    (emitBinary opcode type a b).run e =
      (e.nextId,
        e.pushed 1 [⟨opcode, [type, e.nextId, a, b]⟩]) :=
  run_withNewId
    (fun id => ⟨opcode, [type, id, a, b]⟩)
    (fun _ => rfl) e

@[simp] theorem run_emitTernary
    (opcode type a b c : Nat)
    (e : SpirvEmitter) :
    (emitTernary opcode type a b c).run e =
      (e.nextId,
        e.pushed 1 [⟨opcode, [type, e.nextId, a, b, c]⟩]) :=
  run_withNewId
    (fun id => ⟨opcode, [type, id, a, b, c]⟩)
    (fun _ => rfl) e

@[simp] theorem run_emitMany
    (opcode type : Nat)
    (operands : List Nat)
    (e : SpirvEmitter) :
    (emitMany opcode type operands).run e =
      (e.nextId,
        e.pushed 1
          [⟨opcode, type :: e.nextId :: operands⟩]) :=
  run_withNewId
    (fun id => ⟨opcode, type :: id :: operands⟩)
    (fun _ => rfl) e

@[simp] theorem run_emitBitFieldInsert
    (type a b c d : Nat)
    (e : SpirvEmitter) :
    (emitBitFieldInsert type a b c d).run e =
      (e.nextId,
        e.pushed 1
          [⟨SpirvOp.BitFieldInsert,
            [type, e.nextId, a, b, c, d]⟩]) :=
  run_withNewId
    (fun id =>
      ⟨SpirvOp.BitFieldInsert, [type, id, a, b, c, d]⟩)
    (fun _ => rfl) e

@[simp] theorem run_emitConstantU32 (value : Nat) (e : SpirvEmitter) :
    (emitConstantU32 value).run e =
      (e.nextId,
        e.pushed 1
          [⟨SpirvOp.Constant,
            [e.types.u32T, e.nextId, value]⟩]) := by
  unfold emitConstantU32
  rw [run_get_bind]
  exact run_withNewId
    (fun id =>
      ⟨SpirvOp.Constant, [e.types.u32T, id, value]⟩)
    (fun _ => rfl) e

@[simp] theorem run_emitTypePointer
    (storageClass pointee : Nat)
    (e : SpirvEmitter) :
    (emitTypePointer storageClass pointee).run e =
      (e.nextId,
        e.pushed 1
          [⟨SpirvOp.TypePointer,
            [e.nextId, storageClass, pointee]⟩]) :=
  run_withNewId
    (fun id =>
      ⟨SpirvOp.TypePointer, [id, storageClass, pointee]⟩)
    (fun _ => rfl) e

@[simp] theorem run_emitVariable
    (type storageClass : Nat)
    (e : SpirvEmitter) :
    (emitVariable type storageClass).run e =
      (e.nextId,
        e.pushed 1
          [⟨SpirvOp.Variable,
            [type, e.nextId, storageClass]⟩]) :=
  run_withNewId
    (fun id =>
      ⟨SpirvOp.Variable, [type, id, storageClass]⟩)
    (fun _ => rfl) e

@[simp] theorem run_emitExtInst
    (type instruction : Nat)
    (operands : List Nat)
    (e : SpirvEmitter) :
    (emitExtInst type instruction operands).run e =
      (e.nextId,
        e.pushed 1
          [⟨SpirvOp.ExtInst,
            type :: e.nextId :: e.glslExtId :: instruction ::
              operands⟩]) := by
  unfold emitExtInst
  rw [run_bind, run_allocId, run_get_bind, run_bind]
  have hWords :=
    run_emitWords
      ⟨SpirvOp.ExtInst,
        type :: e.nextId :: e.glslExtId :: instruction ::
          operands⟩ (e.pushed 1 [])
  rw [pushed_pushed] at hWords
  exact congrArg (fun r => (e.nextId, r.2)) hWords

------
-- Code Templates
------

open StraightLine

/- Types a line of a template can have. -/
inductive LineType where
  | boolT
  | f32T
  | i32T
  | u32T
  | vec2f32T
  | vec4f32T
  | f32UniformPtr
  | f32Image2d
deriving DecidableEq, Repr

/- A core instruction, an extended one or a constant. -/
inductive LineForm where
  | core (opcode : Nat)
  | ext (instruction : Nat)
  | const (value : Nat)
deriving DecidableEq, Repr

structure LineOp where
  form : LineForm
  type : LineType
deriving DecidableEq, Repr

structure Template where
  lines : List (Line LineOp)
  result : Ref
deriving DecidableEq, Repr

/- The arguments of a template, its sources last. -/
def zeroRef : Ref := .arg 0
def oneRef : Ref := .arg 1
def cbufRef : Ref := .arg 2
def texRef : Ref := .arg 3
def srcRef (i : Nat) : Ref := .arg (4 + i)

def templateArgs
    (e : SpirvEmitter)
    (srcs : List Nat) : List Nat :=
  e.constF32Zero :: e.constF32One :: e.cbufVarId ::
    e.texSampledImageVar :: srcs

def typeId (t : TypeIds) : LineType → Nat
| .boolT => t.boolT
| .f32T => t.f32T
| .i32T => t.i32T
| .u32T => t.u32T
| .vec2f32T => t.vec2f32T
| .vec4f32T => t.vec4f32T
| .f32UniformPtr => t.f32UniformPtr
| .f32Image2d => t.f32Image2d

/- The instruction of a placed line. -/
def placedInst
    (e : SpirvEmitter)
    (p : Placed LineOp) : SpirvInst :=
  match p.op.form with
  | .core opcode =>
      ⟨opcode,
        typeId e.types p.op.type :: p.id :: p.operands⟩
  | .ext instruction =>
      ⟨SpirvOp.ExtInst,
        typeId e.types p.op.type :: p.id :: e.glslExtId ::
          instruction :: p.operands⟩
  | .const value =>
      ⟨SpirvOp.Constant,
        [typeId e.types p.op.type, p.id, value]⟩

namespace Template

def code
    (t : Template)
    (e : SpirvEmitter)
    (srcs : List Nat) : List SpirvInst :=
  (place (templateArgs e srcs) e.nextId 0 t.lines).map
    (placedInst e)

def resultId
    (t : Template)
    (e : SpirvEmitter)
    (srcs : List Nat) : Nat :=
  t.result.id (templateArgs e srcs) e.nextId

/- The template's code behind the emitted instructions. -/
def emit (t : Template) (srcs : List Nat) : Emit Nat :=
  fun e =>
    (t.resultId e srcs,
      e.pushed t.lines.length (t.code e srcs))

end Template

def coreLine
    (opcode : Nat)
    (type : LineType)
    (refs : List Ref) : Line LineOp :=
  ⟨⟨.core opcode, type⟩, refs⟩

def extLine
    (instruction : Nat)
    (type : LineType)
    (refs : List Ref) : Line LineOp :=
  ⟨⟨.ext instruction, type⟩, refs⟩

def constLine (value : Nat) : Line LineOp :=
  ⟨⟨.const value, .u32T⟩, []⟩

/- A register as an integer. -/
def bitcastLine (type : LineType) (ref : Ref) : Line LineOp :=
  coreLine SpirvOp.Bitcast type [ref]

------
-- Templates Of The Instruction Bodies
------

def copyTemplate : Template :=
  ⟨[], srcRef 0⟩

def zeroTemplate : Template :=
  ⟨[], zeroRef⟩

def coreTemplate
    (opcode : Nat)
    (refs : List Ref) : Template :=
  ⟨[coreLine opcode .f32T refs], .line 0⟩

def extTemplate
    (instruction : Nat)
    (refs : List Ref) : Template :=
  ⟨[extLine instruction .f32T refs], .line 0⟩

def intTemplate (opcode : Nat) : Template :=
  ⟨[bitcastLine .i32T (srcRef 0),
    bitcastLine .i32T (srcRef 1),
    coreLine opcode .i32T [.line 0, .line 1],
    bitcastLine .f32T (.line 2)], .line 3⟩

def shiftTemplate (opcode : Nat) : Template :=
  ⟨[bitcastLine .i32T (srcRef 0),
    bitcastLine .u32T (srcRef 1),
    coreLine opcode .i32T [.line 0, .line 1],
    bitcastLine .f32T (.line 2)], .line 3⟩

def reciprocalTemplate : Template :=
  coreTemplate SpirvOp.FDiv [oneRef, srcRef 0]

def mufuTemplate (op : MufuOp) : Template :=
  match op with
  | .SIN => extTemplate GlslStd450.Sin [srcRef 0]
  | .COS => extTemplate GlslStd450.Cos [srcRef 0]
  | .EX2 => extTemplate GlslStd450.Exp2 [srcRef 0]
  | .LG2 => extTemplate GlslStd450.Log2 [srcRef 0]
  | .RCP => reciprocalTemplate
  | .RSQ => extTemplate GlslStd450.InverseSqrt [srcRef 0]
  | .SQRT => extTemplate GlslStd450.Sqrt [srcRef 0]
  | .FLOOR => extTemplate GlslStd450.Floor [srcRef 0]
  | .CEIL => extTemplate GlslStd450.Ceil [srcRef 0]
  | .TAN => extTemplate GlslStd450.Tan [srcRef 0]
  | .CBRT | .Unnamed _ => copyTemplate

def fmadTemplate : Template :=
  ⟨[coreLine SpirvOp.FMul .f32T [srcRef 0, srcRef 1],
    coreLine SpirvOp.FAdd .f32T [.line 0, srcRef 2]],
    .line 1⟩

def inegTemplate : Template :=
  ⟨[bitcastLine .i32T (srcRef 0),
    coreLine SpirvOp.SNegate .i32T [.line 0],
    bitcastLine .f32T (.line 1)], .line 2⟩

def imadTemplate : Template :=
  ⟨[bitcastLine .i32T (srcRef 0),
    bitcastLine .i32T (srcRef 1),
    bitcastLine .i32T (srcRef 2),
    coreLine SpirvOp.IMul .i32T [.line 0, .line 1],
    coreLine SpirvOp.IAdd .i32T [.line 3, .line 2],
    bitcastLine .f32T (.line 4)], .line 5⟩

def iadd3Template : Template :=
  ⟨[bitcastLine .i32T (srcRef 0),
    bitcastLine .i32T (srcRef 1),
    bitcastLine .i32T (srcRef 2),
    coreLine SpirvOp.IAdd .i32T [.line 0, .line 1],
    coreLine SpirvOp.IAdd .i32T [.line 3, .line 2],
    bitcastLine .f32T (.line 4)], .line 5⟩

def f2iTemplate : Template :=
  ⟨[coreLine SpirvOp.ConvertFToS .i32T [srcRef 0],
    bitcastLine .f32T (.line 0)], .line 1⟩

def i2fTemplate : Template :=
  ⟨[bitcastLine .i32T (srcRef 0),
    coreLine SpirvOp.ConvertSToF .f32T [.line 0]], .line 1⟩

def iabsTemplate : Template :=
  ⟨[bitcastLine .i32T (srcRef 0),
    extLine GlslStd450.SAbs .i32T [.line 0],
    bitcastLine .f32T (.line 1)], .line 2⟩

def isetpTemplate : Template :=
  ⟨[bitcastLine .i32T (srcRef 0),
    bitcastLine .i32T (srcRef 1),
    coreLine SpirvOp.IEqual .boolT [.line 0, .line 1]],
    .line 2⟩

def fsetpTemplate : Template :=
  ⟨[coreLine SpirvOp.FOrdEqual .boolT
      [srcRef 0, srcRef 1]], .line 0⟩

def bfeTemplate : Template :=
  ⟨[bitcastLine .u32T (srcRef 0),
    bitcastLine .u32T (srcRef 1),
    bitcastLine .u32T (srcRef 2),
    coreLine SpirvOp.BitFieldUExtract .u32T
      [.line 0, .line 1, .line 2],
    bitcastLine .f32T (.line 3)], .line 4⟩

def bfiTemplate : Template :=
  ⟨[bitcastLine .u32T (srcRef 0),
    bitcastLine .u32T (srcRef 1),
    bitcastLine .u32T (srcRef 2),
    constLine 32,
    coreLine SpirvOp.BitFieldInsert .u32T
      [.line 0, .line 1, .line 2, .line 3],
    bitcastLine .f32T (.line 4)], .line 5⟩

def imnmxTemplate : Template :=
  ⟨[bitcastLine .i32T (srcRef 0),
    bitcastLine .i32T (srcRef 1),
    coreLine SpirvOp.SGreaterThanEqual .boolT
      [.line 0, .line 1],
    coreLine SpirvOp.Select .i32T [.line 2, .line 0, .line 1],
    bitcastLine .f32T (.line 3)], .line 4⟩

def fsetTemplate : Template :=
  ⟨[coreLine SpirvOp.FOrdEqual .boolT [srcRef 0, srcRef 1],
    coreLine SpirvOp.Select .f32T
      [.line 0, oneRef, zeroRef]], .line 1⟩

def leaTemplate : Template :=
  ⟨[bitcastLine .u32T (srcRef 0),
    bitcastLine .u32T (srcRef 1),
    constLine 2,
    coreLine SpirvOp.ShiftLeftLogical .u32T
      [.line 1, .line 2],
    coreLine SpirvOp.IAdd .u32T [.line 0, .line 3],
    bitcastLine .f32T (.line 4)], .line 5⟩

def fsatTemplate : Template :=
  extTemplate GlslStd450.FClamp [srcRef 0, zeroRef, oneRef]

def ldcTemplate : Template :=
  ⟨[bitcastLine .u32T (srcRef 0),
    coreLine SpirvOp.AccessChain .f32UniformPtr
      [cbufRef, zeroRef, .line 0],
    coreLine SpirvOp.Load .f32T [.line 1]], .line 2⟩

def texTemplate : Template :=
  ⟨[coreLine SpirvOp.CompositeConstruct .vec2f32T
      [srcRef 0, srcRef 0],
    coreLine SpirvOp.Load .f32Image2d [texRef],
    coreLine SpirvOp.ImageSampleExplicitLod .vec4f32T
      [.line 1, .line 0, zeroRef]], .line 2⟩

------
-- Bodies Emit Their Templates
------

@[simp high] theorem run_emitUnary_bind
    (opcode type a : Nat)
    (f : Nat → Emit β)
    (e : SpirvEmitter) :
    (emitUnary opcode type a >>= f).run e =
      (f e.nextId).run
        (e.pushed 1 [⟨opcode, [type, e.nextId, a]⟩]) := by
  rw [run_bind, run_emitUnary]

@[simp high] theorem run_emitBinary_bind
    (opcode type a b : Nat)
    (f : Nat → Emit β)
    (e : SpirvEmitter) :
    (emitBinary opcode type a b >>= f).run e =
      (f e.nextId).run
        (e.pushed 1 [⟨opcode, [type, e.nextId, a, b]⟩]) := by
  rw [run_bind, run_emitBinary]

@[simp high] theorem run_emitTernary_bind
    (opcode type a b c : Nat)
    (f : Nat → Emit β)
    (e : SpirvEmitter) :
    (emitTernary opcode type a b c >>= f).run e =
      (f e.nextId).run
        (e.pushed 1
          [⟨opcode, [type, e.nextId, a, b, c]⟩]) := by
  rw [run_bind, run_emitTernary]

@[simp high] theorem run_emitMany_bind
    (opcode type : Nat)
    (operands : List Nat)
    (f : Nat → Emit β)
    (e : SpirvEmitter) :
    (emitMany opcode type operands >>= f).run e =
      (f e.nextId).run
        (e.pushed 1
          [⟨opcode, type :: e.nextId :: operands⟩]) := by
  rw [run_bind, run_emitMany]

@[simp high] theorem run_emitExtInst_bind
    (type instruction : Nat)
    (operands : List Nat)
    (f : Nat → Emit β)
    (e : SpirvEmitter) :
    (emitExtInst type instruction operands >>= f).run e =
      (f e.nextId).run
        (e.pushed 1
          [⟨SpirvOp.ExtInst,
            type :: e.nextId :: e.glslExtId :: instruction ::
              operands⟩]) := by
  rw [run_bind, run_emitExtInst]

@[simp high] theorem run_emitConstantU32_bind
    (value : Nat)
    (f : Nat → Emit β)
    (e : SpirvEmitter) :
    (emitConstantU32 value >>= f).run e =
      (f e.nextId).run
        (e.pushed 1
          [⟨SpirvOp.Constant,
            [e.types.u32T, e.nextId, value]⟩]) := by
  rw [run_bind, run_emitConstantU32]

@[simp high] theorem run_emitBitFieldInsert_bind
    (type a b c d : Nat)
    (f : Nat → Emit β)
    (e : SpirvEmitter) :
    (emitBitFieldInsert type a b c d >>= f).run e =
      (f e.nextId).run
        (e.pushed 1
          [⟨SpirvOp.BitFieldInsert,
            [type, e.nextId, a, b, c, d]⟩]) := by
  rw [run_bind, run_emitBitFieldInsert]

/- A body is a template if it runs like one. -/
theorem eq_emit
    {m : Emit Nat}
    {t : Template}
    {srcs : List Nat}
    (hRun :
      ∀ e : SpirvEmitter, m.run e = (t.emit srcs).run e) :
    m = t.emit srcs :=
  funext hRun

theorem copyBody_eq (s0 : Nat) :
    copyBody s0 = copyTemplate.emit [s0] := by
  apply eq_emit
  intro e
  show (s0, e) = (s0, e.pushed 0 [])
  rw [pushed_nil]

/- A float operation that is one core instruction. -/
theorem floatUnary_eq
    {op : Nat → Nat → Emit Nat}
    (hOp : ∀ t a, op t a = emitUnary opcode t a)
    (s0 : Nat) :
    floatUnary op s0 =
      (coreTemplate opcode [srcRef 0]).emit [s0] := by
  apply eq_emit
  intro e
  simp [floatUnary, hOp]
  rfl

theorem floatBinary_eq
    (hOp : ∀ t a b, op t a b = emitBinary opcode t a b)
    (s0 s1 : Nat) :
    floatBinary op s0 s1 =
      (coreTemplate opcode [srcRef 0, srcRef 1]).emit
        [s0, s1] := by
  apply eq_emit
  intro e
  simp [floatBinary, hOp]
  rfl

/- A float operation that is one extended instruction. -/
theorem floatUnary_eq_ext
    {op : Nat → Nat → Emit Nat}
    {instruction : Nat}
    (hOp : ∀ t a, op t a = emitExtInst t instruction [a])
    (s0 : Nat) :
    floatUnary op s0 =
      (extTemplate instruction [srcRef 0]).emit [s0] := by
  apply eq_emit
  intro e
  simp [floatUnary, hOp]
  rfl

theorem floatBinary_eq_ext
    {instruction : Nat}
    (hOp :
      ∀ t a b, op t a b = emitExtInst t instruction [a, b])
    (s0 s1 : Nat) :
    floatBinary op s0 s1 =
      (extTemplate instruction [srcRef 0, srcRef 1]).emit
        [s0, s1] := by
  apply eq_emit
  intro e
  simp [floatBinary, hOp]
  rfl

theorem intBinary_eq
    (hOp : ∀ t a b, op t a b = emitBinary opcode t a b)
    (s0 s1 : Nat) :
    intBinary op s0 s1 =
      (intTemplate opcode).emit [s0, s1] := by
  apply eq_emit
  intro e
  simp [intBinary, emitBitcast, hOp]
  rfl

theorem shiftBody_eq
    (hOp : ∀ t a b, op t a b = emitBinary opcode t a b)
    (s0 s1 : Nat) :
    shiftBody op s0 s1 =
      (shiftTemplate opcode).emit [s0, s1] := by
  apply eq_emit
  intro e
  simp [shiftBody, emitBitcast, hOp]
  rfl

theorem extUnary_eq (instruction s0 : Nat) :
    extUnary instruction s0 =
      (extTemplate instruction [srcRef 0]).emit [s0] := by
  apply eq_emit
  intro e
  simp [extUnary]
  rfl

theorem reciprocal_eq (s0 : Nat) :
    reciprocal s0 = reciprocalTemplate.emit [s0] := by
  apply eq_emit
  intro e
  simp [reciprocal, emitFDiv]
  rfl

theorem mufuBody_eq (op : MufuOp) (s0 : Nat) :
    mufuBody op s0 = (mufuTemplate op).emit [s0] := by
  cases op with
  | RCP => exact reciprocal_eq s0
  | CBRT => exact copyBody_eq s0
  | Unnamed code => exact copyBody_eq s0
  | _ => exact extUnary_eq _ s0

theorem fmadBody_eq (s0 s1 s2 : Nat) :
    fmadBody s0 s1 s2 =
      fmadTemplate.emit [s0, s1, s2] := by
  apply eq_emit
  intro e
  simp [fmadBody, emitFMul, emitFAdd]
  rfl

theorem inegBody_eq (s0 : Nat) :
    inegBody s0 =
      inegTemplate.emit [s0] := by
  apply eq_emit
  intro e
  simp [inegBody, emitBitcast]
  rfl

theorem imadBody_eq (s0 s1 s2 : Nat) :
    imadBody s0 s1 s2 =
      imadTemplate.emit [s0, s1, s2] := by
  apply eq_emit
  intro e
  simp [imadBody, emitBitcast, emitIMul, emitIAdd]
  rfl

theorem iadd3Body_eq (s0 s1 s2 : Nat) :
    iadd3Body s0 s1 s2 =
      iadd3Template.emit [s0, s1, s2] := by
  apply eq_emit
  intro e
  simp [iadd3Body, emitBitcast, emitIAdd]
  rfl

theorem f2iBody_eq (s0 : Nat) :
    f2iBody s0 =
      f2iTemplate.emit [s0] := by
  apply eq_emit
  intro e
  simp [f2iBody, emitConvertFToS, emitBitcast]
  rfl

theorem i2fBody_eq (s0 : Nat) :
    i2fBody s0 =
      i2fTemplate.emit [s0] := by
  apply eq_emit
  intro e
  simp [i2fBody, emitBitcast, emitConvertSToF]
  rfl

theorem iabsBody_eq (s0 : Nat) :
    iabsBody s0 =
      iabsTemplate.emit [s0] := by
  apply eq_emit
  intro e
  unfold iabsBody emitBitcast
  rw [run_get_bind, run_emitUnary_bind, run_emitExtInst_bind,
    run_emitUnary]
  simp only [nextId_pushed, glslExtId_pushed, pushed_pushed]
  rfl

theorem isetpCompare_eq (s0 s1 : Nat) :
    isetpCompare s0 s1 =
      isetpTemplate.emit [s0, s1] := by
  apply eq_emit
  intro e
  simp [isetpCompare, emitBitcast, emitIEqual]
  rfl

theorem fsetpCompare_eq (s0 s1 : Nat) :
    fsetpCompare s0 s1 =
      fsetpTemplate.emit [s0, s1] := by
  apply eq_emit
  intro e
  simp [fsetpCompare, emitFOrdEqual]
  rfl

theorem bfeBody_eq (s0 s1 s2 : Nat) :
    bfeBody s0 s1 s2 =
      bfeTemplate.emit [s0, s1, s2] := by
  apply eq_emit
  intro e
  simp [bfeBody, emitBitcast, emitBitFieldUExtract]
  rfl

theorem bfiBody_eq (s0 s1 s2 : Nat) :
    bfiBody s0 s1 s2 =
      bfiTemplate.emit [s0, s1, s2] := by
  apply eq_emit
  intro e
  simp [bfiBody, emitBitcast]
  rfl

theorem imnmxBody_eq (s0 s1 : Nat) :
    imnmxBody s0 s1 =
      imnmxTemplate.emit [s0, s1] := by
  apply eq_emit
  intro e
  simp [imnmxBody, emitBitcast, emitSGreaterThanEqual, emitSelect]
  rfl

theorem fsetBody_eq (s0 s1 : Nat) :
    fsetBody s0 s1 =
      fsetTemplate.emit [s0, s1] := by
  apply eq_emit
  intro e
  simp [fsetBody, emitFOrdEqual, emitSelect]
  rfl

theorem leaBody_eq (s0 s1 : Nat) :
    leaBody s0 s1 =
      leaTemplate.emit [s0, s1] := by
  apply eq_emit
  intro e
  simp [leaBody, emitBitcast, emitShiftLeftLogical, emitIAdd]
  rfl

theorem fsatBody_eq (s0 : Nat) :
    fsatBody s0 =
      fsatTemplate.emit [s0] := by
  apply eq_emit
  intro e
  simp [fsatBody]
  rfl

------
-- Plans
------

/- A variable that has to exist for code to be emitted. -/
inductive Gate where
  | always
  | cbuf
  | tex
deriving DecidableEq, Repr

def Gate.id (e : SpirvEmitter) : Gate → Nat
| .always => 1
| .cbuf => e.cbufVarId
| .tex => e.texSampledImageVar

/- Where the value of an instruction goes. -/
inductive PlanDest where
  | gpr
  | pred
deriving DecidableEq, Repr

structure Plan where
  minCount : Nat
  arity : Nat
  template : Template
  gate : Gate := .always
  dest : PlanDest := .gpr
deriving DecidableEq, Repr

/- As many sources needed as loaded. -/
def valuePlan (arity : Nat) (t : Template) : Plan :=
  { minCount := arity, arity := arity, template := t }

def comparePlan (t : Template) : Plan :=
  { minCount := 2, arity := 2, template := t, dest := .pred }

/- What is emitted for an instruction, if anything. -/
def planOf (inst : ShaderInstruction) : Option Plan :=
  match inst.opcode with
  | .NOP | .EXIT | .RET | .KIL | .BRA | .CALL | .SSY
  | .SYNC => none
  | .FMAD => some (valuePlan 3 fmadTemplate)
  | .FADD =>
      some (valuePlan 2
        (coreTemplate SpirvOp.FAdd [srcRef 0, srcRef 1]))
  | .FMUL =>
      some (valuePlan 2
        (coreTemplate SpirvOp.FMul [srcRef 0, srcRef 1]))
  | .IADD => some (valuePlan 2 (intTemplate SpirvOp.IAdd))
  | .ISUB => some (valuePlan 2 (intTemplate SpirvOp.ISub))
  | .FNEG =>
      some (valuePlan 1
        (coreTemplate SpirvOp.FNegate [srcRef 0]))
  | .INEG => some (valuePlan 1 inegTemplate)
  | .S2R =>
      some
        { minCount := 0, arity := 0, template := zeroTemplate }
  | .LD | .ST =>
      some
        { minCount := 0, arity := 1, template := copyTemplate }
  | .IMUL => some (valuePlan 2 (intTemplate SpirvOp.IMul))
  | .IMAD => some (valuePlan 3 imadTemplate)
  | .F2I => some (valuePlan 1 f2iTemplate)
  | .I2F => some (valuePlan 1 i2fTemplate)
  | .LDC =>
      some
        { minCount := 1
          arity := 1
          template := ldcTemplate
          gate := .cbuf }
  | .MUFU =>
      some (valuePlan 1 (mufuTemplate inst.src0.mufuOp))
  | .TEX =>
      some
        { minCount := 2
          arity := 1
          template := texTemplate
          gate := .tex }
  | .FMAX =>
      some (valuePlan 2
        (extTemplate GlslStd450.FMax [srcRef 0, srcRef 1]))
  | .FMIN =>
      some (valuePlan 2
        (extTemplate GlslStd450.FMin [srcRef 0, srcRef 1]))
  | .FABS =>
      some (valuePlan 1
        (extTemplate GlslStd450.FAbs [srcRef 0]))
  | .IABS => some (valuePlan 1 iabsTemplate)
  | .IADD3 => some (valuePlan 3 iadd3Template)
  | .ISETP => some (comparePlan isetpTemplate)
  | .FSETP => some (comparePlan fsetpTemplate)
  | .I2I | .F2F | .POPC | .FLO =>
      some (valuePlan 1 copyTemplate)
  | .SHL =>
      some (valuePlan 2
        (shiftTemplate SpirvOp.ShiftLeftLogical))
  | .SHR =>
      some (valuePlan 2
        (shiftTemplate SpirvOp.ShiftRightArithmetic))
  | .BFE => some (valuePlan 3 bfeTemplate)
  | .BFI => some (valuePlan 3 bfiTemplate)
  | .PRMT =>
      some
        { minCount := 2, arity := 1, template := copyTemplate }
  | .IMNMX => some (valuePlan 2 imnmxTemplate)
  | .FSET => some (valuePlan 2 fsetTemplate)
  | .LEA => some (valuePlan 2 leaTemplate)
  | .FSAT => some (valuePlan 1 fsatTemplate)
  | .FRCP => some (valuePlan 1 reciprocalTemplate)
  | .FRSQ =>
      some (valuePlan 1
        (extTemplate GlslStd450.InverseSqrt [srcRef 0]))
  | .FSQRT =>
      some (valuePlan 1
        (extTemplate GlslStd450.Sqrt [srcRef 0]))
  | .FEX2 =>
      some (valuePlan 1
        (extTemplate GlslStd450.Exp2 [srcRef 0]))
  | .FLG2 =>
      some (valuePlan 1
        (extTemplate GlslStd450.Log2 [srcRef 0]))
  -- An opcode without a case copies its first source.
  | _ =>
      if inst.dest.type = .GPR then
        some (valuePlan 1 copyTemplate)
      else none

/- The plans there are. -/
def plans : List Plan :=
  ([copyTemplate, reciprocalTemplate, fsatTemplate,
      inegTemplate, iabsTemplate, f2iTemplate, i2fTemplate,
      coreTemplate SpirvOp.FNegate [srcRef 0]] ++
    [GlslStd450.Sin, GlslStd450.Cos, GlslStd450.Exp2,
      GlslStd450.Log2, GlslStd450.InverseSqrt,
      GlslStd450.Sqrt, GlslStd450.Floor, GlslStd450.Ceil,
      GlslStd450.Tan, GlslStd450.FAbs].map
        (extTemplate · [srcRef 0])).map (valuePlan 1) ++
  ([imnmxTemplate, fsetTemplate, leaTemplate,
      shiftTemplate SpirvOp.ShiftLeftLogical,
      shiftTemplate SpirvOp.ShiftRightArithmetic,
      intTemplate SpirvOp.IAdd, intTemplate SpirvOp.ISub,
      intTemplate SpirvOp.IMul,
      coreTemplate SpirvOp.FAdd [srcRef 0, srcRef 1],
      coreTemplate SpirvOp.FMul [srcRef 0, srcRef 1],
      extTemplate GlslStd450.FMax [srcRef 0, srcRef 1],
      extTemplate GlslStd450.FMin [srcRef 0, srcRef 1]].map
        (valuePlan 2)) ++
  ([fmadTemplate, imadTemplate, iadd3Template, bfeTemplate,
      bfiTemplate].map (valuePlan 3)) ++
  [comparePlan isetpTemplate, comparePlan fsetpTemplate,
    { minCount := 0, arity := 0, template := zeroTemplate },
    { minCount := 0, arity := 1, template := copyTemplate },
    { minCount := 2, arity := 1, template := copyTemplate },
    { minCount := 1
      arity := 1
      template := ldcTemplate
      gate := .cbuf },
    { minCount := 2
      arity := 1
      template := texTemplate
      gate := .tex }]

theorem mufuTemplate_mem_plans (op : MufuOp) :
    valuePlan 1 (mufuTemplate op) ∈ plans := by
  cases op with
  | Unnamed code =>
      show valuePlan 1 copyTemplate ∈ plans
      decide
  | _ => decide

/- An instruction's plan is one of the plans. -/
theorem planOf_mem_plans
    {inst : ShaderInstruction}
    {plan : Plan}
    (hPlan : planOf inst = some plan) :
    plan ∈ plans := by
  unfold planOf at hPlan
  split at hPlan <;> try cases hPlan
  all_goals try exact mufuTemplate_mem_plans _
  all_goals try decide
  -- What is left is the default case.
  split_ifs at hPlan
  cases hPlan
  decide

/- Registers of the first sources. -/
def srcRegs
    (inst : ShaderInstruction)
    (arity : Nat) : List Nat :=
  ([inst.src0, inst.src1, inst.src2].take arity).map
    ShaderOperand.regIndex

def loadGprs (gprMap : GprMap) :
    List Nat → Emit (List Nat)
| [] => return []
| r :: rs => do
    let s ← loadGpr gprMap r
    let ss ← loadGprs gprMap rs
    return s :: ss

/- Store the value of an instruction. -/
def finishPlan
    (dest : PlanDest)
    (inst : ShaderInstruction)
    (gprMap : GprMap)
    (value : Nat) : Emit Nat :=
  match dest with
  | .gpr => finishInst inst gprMap value
  | .pred => do
      let var ← predVar inst.dest.predIndex
      emitStore var value
      return value

/- Load the sources, run the template, store the value. -/
def emitPlan
    (plan : Plan)
    (inst : ShaderInstruction)
    (gprMap : GprMap) : Emit Nat := do
  if plan.minCount ≤ inst.srcCount then
    let srcs ← loadGprs gprMap (srcRegs inst plan.arity)
    let e ← get
    if 0 ∉ srcs ∧ plan.gate.id e ≠ 0 then
      let v ← plan.template.emit srcs
      finishPlan plan.dest inst gprMap v
    else
      return 0
  else
    return 0

------
-- Instructions Follow Their Plans
------

variable {inst : ShaderInstruction} {gprMap : GprMap}
variable {t : Template}

theorem withSrc1_eq
    {minCount : Nat}
    {gate : Gate}
    {dest : PlanDest}
    {body : Nat → Emit Nat}
    (hBody :
      ∀ s0, body s0 = do
        let e ← get
        if gate.id e ≠ 0 then
          let v ← t.emit [s0]
          finishPlan dest inst gprMap v
        else
          return 0) :
    withSrc1 inst gprMap minCount body =
      emitPlan ⟨minCount, 1, t, gate, dest⟩ inst gprMap := by
  unfold withSrc1 emitPlan
  simp only [srcRegs, List.take_succ_cons, List.take_zero,
    List.map_cons, List.map_nil, loadGprs, bind_assoc,
    pure_bind, hBody]
  split_ifs with hCount
  · congr 1
    funext s0
    by_cases hS0 : s0 = 0
    · simp [hS0]
    · simp [hS0, Ne.symm hS0]
  · rfl

theorem withSrc2_eq
    {dest : PlanDest}
    {body : Nat → Nat → Emit Nat}
    (hBody :
      ∀ s0 s1, body s0 s1 = do
        let v ← t.emit [s0, s1]
        finishPlan dest inst gprMap v) :
    withSrc2 inst gprMap body =
      emitPlan ⟨2, 2, t, .always, dest⟩ inst gprMap := by
  unfold withSrc2 emitPlan
  simp only [srcRegs, List.take_succ_cons, List.take_zero,
    List.map_cons, List.map_nil, loadGprs, bind_assoc,
    pure_bind, hBody]
  split_ifs with hCount
  · congr 1
    funext s0
    congr 1
    funext s1
    by_cases hAll : s0 ≠ 0 ∧ s1 ≠ 0
    · simp [hAll.1, hAll.2, hAll.1.symm, hAll.2.symm, Gate.id]
    · have hZero : 0 = s0 ∨ 0 = s1 := by omega
      simp [hAll, hZero]
  · rfl

theorem withSrc3_eq
    {dest : PlanDest}
    {body : Nat → Nat → Nat → Emit Nat}
    (hBody :
      ∀ s0 s1 s2, body s0 s1 s2 = do
        let v ← t.emit [s0, s1, s2]
        finishPlan dest inst gprMap v) :
    withSrc3 inst gprMap body =
      emitPlan ⟨3, 3, t, .always, dest⟩ inst gprMap := by
  unfold withSrc3 emitPlan
  simp only [srcRegs, List.take_succ_cons, List.take_zero,
    List.map_cons, List.map_nil, loadGprs, bind_assoc,
    pure_bind, hBody]
  split_ifs with hCount
  · congr 1
    funext s0
    congr 1
    funext s1
    congr 1
    funext s2
    by_cases hAll : s0 ≠ 0 ∧ s1 ≠ 0 ∧ s2 ≠ 0
    · simp [hAll.1, hAll.2, hAll.1.symm, hAll.2.1.symm,
        hAll.2.2.symm, Gate.id]
    · have hZero : 0 = s0 ∨ 0 = s1 ∨ 0 = s2 := by omega
      simp [hAll, hZero]
  · rfl

theorem unaryInst_eq
    {body : Nat → Emit Nat}
    (hBody : ∀ s0, body s0 = t.emit [s0]) :
    unaryInst inst gprMap body =
      emitPlan (valuePlan 1 t) inst gprMap := by
  apply withSrc1_eq
  intro s0
  rw [hBody]
  rfl

theorem binaryInst_eq
    {body : Nat → Nat → Emit Nat}
    (hBody : ∀ s0 s1, body s0 s1 = t.emit [s0, s1]) :
    binaryInst inst gprMap body =
      emitPlan (valuePlan 2 t) inst gprMap := by
  apply withSrc2_eq
  intro s0 s1
  rw [hBody]
  rfl

theorem ternaryInst_eq
    {body : Nat → Nat → Nat → Emit Nat}
    (hBody :
      ∀ s0 s1 s2, body s0 s1 s2 = t.emit [s0, s1, s2]) :
    ternaryInst inst gprMap body =
      emitPlan (valuePlan 3 t) inst gprMap := by
  apply withSrc3_eq
  intro s0 s1 s2
  rw [hBody]
  rfl

theorem compareInst_eq
    {compare : Nat → Nat → Emit Nat}
    (hCompare : ∀ s0 s1, compare s0 s1 = t.emit [s0, s1]) :
    compareInst inst gprMap compare =
      emitPlan (comparePlan t) inst gprMap := by
  apply withSrc2_eq
  intro s0 s1
  rw [hCompare]
  rfl

/- A copy of the first source, for some source count. -/
theorem copyInst_eq (minCount : Nat) :
    withSrc1 inst gprMap minCount (finishInst inst gprMap) =
      emitPlan
        { minCount := minCount
          arity := 1
          template := copyTemplate } inst gprMap := by
  apply withSrc1_eq
  intro s0
  rw [← copyBody_eq]
  rfl

theorem s2rInst_eq :
    s2rInst inst gprMap =
      emitPlan
        { minCount := 0
          arity := 0
          template := zeroTemplate } inst gprMap := by
  funext e
  show _ = (finishInst inst gprMap e.constF32Zero).run
    (e.pushed 0 [])
  rw [pushed_nil]
  rfl

theorem ldcInst_eq :
    ldcInst inst gprMap =
      emitPlan
        { minCount := 1
          arity := 1
          template := ldcTemplate
          gate := .cbuf } inst gprMap := by
  apply withSrc1_eq
  intro index
  funext e
  show StateT.run _ e = StateT.run _ e
  rw [run_get_bind, run_get_bind]
  by_cases hCbuf : e.cbufVarId = 0
  · simp [hCbuf, Gate.id]
  · have hGate : Gate.id e .cbuf ≠ 0 := hCbuf
    rw [if_pos hCbuf, if_pos hGate]
    simp [emitBitcast, emitAccessChain, emitLoad]
    rfl

theorem texInst_eq :
    texInst inst gprMap =
      emitPlan
        { minCount := 2
          arity := 1
          template := texTemplate
          gate := .tex } inst gprMap := by
  apply withSrc1_eq
  intro coord
  funext e
  show StateT.run _ e = StateT.run _ e
  rw [run_get_bind, run_get_bind]
  by_cases hTex : e.texSampledImageVar = 0
  · simp [hTex, Gate.id]
  · have hGate : Gate.id e .tex ≠ 0 := hTex
    rw [if_pos hTex, if_pos hGate]
    simp [emitCompositeConstruct, emitLoad,
      emitImageSampleExplicitLod]
    rfl

theorem defaultInst_eq :
    defaultInst inst gprMap =
      match (if inst.dest.type = .GPR then
        some (valuePlan 1 copyTemplate) else none) with
      | none => return 0
      | some plan => emitPlan plan inst gprMap := by
  unfold defaultInst
  split_ifs with hDest
  · exact unaryInst_eq copyBody_eq
  · rfl

/- An instruction is emitted as its plan says. -/
theorem emitShaderInst_eq
    (hKil : inst.opcode ≠ .KIL) :
    emitShaderInst inst gprMap =
      match planOf inst with
      | none => return 0
      | some plan => emitPlan plan inst gprMap := by
  unfold emitShaderInst planOf
  cases hOp : inst.opcode with
  | KIL => exact absurd hOp hKil
  | NOP => rfl
  | EXIT => rfl
  | RET => rfl
  | BRA => rfl
  | CALL => rfl
  | SSY => rfl
  | SYNC => rfl
  | FMAD => exact ternaryInst_eq fmadBody_eq
  | FADD =>
      exact binaryInst_eq (floatBinary_eq fun _ _ _ => rfl)
  | FMUL =>
      exact binaryInst_eq (floatBinary_eq fun _ _ _ => rfl)
  | IADD =>
      exact binaryInst_eq (intBinary_eq fun _ _ _ => rfl)
  | ISUB =>
      exact binaryInst_eq (intBinary_eq fun _ _ _ => rfl)
  | IMUL =>
      exact binaryInst_eq (intBinary_eq fun _ _ _ => rfl)
  | FNEG => exact unaryInst_eq (floatUnary_eq fun _ _ => rfl)
  | INEG => exact unaryInst_eq inegBody_eq
  | S2R => exact s2rInst_eq
  | LD => exact copyInst_eq 0
  | ST => exact copyInst_eq 0
  | IMAD => exact ternaryInst_eq imadBody_eq
  | F2I => exact unaryInst_eq f2iBody_eq
  | I2F => exact unaryInst_eq i2fBody_eq
  | LDC => exact ldcInst_eq
  | MUFU => exact unaryInst_eq (mufuBody_eq _)
  | TEX => exact texInst_eq
  | FMAX =>
      exact binaryInst_eq
        (floatBinary_eq_ext fun _ _ _ => rfl)
  | FMIN =>
      exact binaryInst_eq
        (floatBinary_eq_ext fun _ _ _ => rfl)
  | FABS =>
      exact unaryInst_eq (floatUnary_eq_ext fun _ _ => rfl)
  | IABS => exact unaryInst_eq iabsBody_eq
  | IADD3 => exact ternaryInst_eq iadd3Body_eq
  | ISETP => exact compareInst_eq isetpCompare_eq
  | FSETP => exact compareInst_eq fsetpCompare_eq
  | I2I => exact unaryInst_eq copyBody_eq
  | F2F => exact unaryInst_eq copyBody_eq
  | POPC => exact unaryInst_eq copyBody_eq
  | FLO => exact unaryInst_eq copyBody_eq
  | SHL => exact binaryInst_eq (shiftBody_eq fun _ _ _ => rfl)
  | SHR => exact binaryInst_eq (shiftBody_eq fun _ _ _ => rfl)
  | BFE => exact ternaryInst_eq bfeBody_eq
  | BFI => exact ternaryInst_eq bfiBody_eq
  | PRMT => exact copyInst_eq 2
  | IMNMX => exact binaryInst_eq imnmxBody_eq
  | FSET => exact binaryInst_eq fsetBody_eq
  | LEA => exact binaryInst_eq leaBody_eq
  | FSAT => exact unaryInst_eq fsatBody_eq
  | FRCP => exact unaryInst_eq reciprocal_eq
  | FRSQ => exact unaryInst_eq (extUnary_eq _)
  | FSQRT => exact unaryInst_eq (extUnary_eq _)
  | FEX2 => exact unaryInst_eq (extUnary_eq _)
  | FLG2 => exact unaryInst_eq (extUnary_eq _)
  | _ => exact defaultInst_eq

end SpirvEmitter

end M1Switch
