import M1Switch.Gpu.Shader.ShaderIr
import Mathlib.Logic.Function.Basic

/-
  The SPIR-V emitter.

  The emitter is a state machine over the words written so
  far, the next free id and the label bookkeeping.  Words and
  ids are natural numbers.

  Key definitions include:
    * `SpirvEmitter`
    * `emitShaderInst`
-/

------
-- Opcodes And Enumerants
------

namespace M1Switch

namespace SpirvOp

def Capability : Nat := 17
def ExtInstImport : Nat := 11
def MemoryModel : Nat := 14
def EntryPoint : Nat := 15
def ExecutionMode : Nat := 16
def Decorate : Nat := 71
def TypeVoid : Nat := 19
def TypeBool : Nat := 20
def TypeInt : Nat := 21
def TypeFloat : Nat := 22
def TypeVector : Nat := 23
def TypeRuntimeArray : Nat := 29
def TypeStruct : Nat := 30
def TypePointer : Nat := 32
def TypeFunction : Nat := 33
def Constant : Nat := 43
def ConstantTrue : Nat := 41
def ConstantFalse : Nat := 42
def Variable : Nat := 59
def Function : Nat := 54
def FunctionEnd : Nat := 56
def Label : Nat := 248
def Branch : Nat := 249
def BranchConditional : Nat := 250
def Return : Nat := 253
def Kill : Nat := 252
def LoopMerge : Nat := 246
def SelectionMerge : Nat := 247
def Load : Nat := 61
def Store : Nat := 62
def AccessChain : Nat := 65
def FAdd : Nat := 129
def FMul : Nat := 133
def FDiv : Nat := 136
def FNegate : Nat := 127
def FOrdEqual : Nat := 156
def ConvertFToS : Nat := 110
def ConvertSToF : Nat := 111
def Bitcast : Nat := 124
def IAdd : Nat := 128
def ISub : Nat := 130
def IMul : Nat := 132
def SNegate : Nat := 126
def SGreaterThanEqual : Nat := 142
def IEqual : Nat := 143
def ShiftLeftLogical : Nat := 165
def ShiftRightArithmetic : Nat := 167
def BitFieldInsert : Nat := 175
def BitFieldUExtract : Nat := 177
def Select : Nat := 169
def CompositeConstruct : Nat := 80
def ImageSampleExplicitLod : Nat := 88
def ExtInst : Nat := 12
def TypeImage : Nat := 25
def TypeSampledImage : Nat := 27

end SpirvOp

namespace GlslStd450

def FAbs : Nat := 4
def SAbs : Nat := 5
def Floor : Nat := 8
def Ceil : Nat := 9
def Sin : Nat := 13
def Cos : Nat := 14
def Tan : Nat := 15
def Exp2 : Nat := 22
def Log2 : Nat := 24
def Sqrt : Nat := 31
def InverseSqrt : Nat := 32
def FMin : Nat := 37
def FMax : Nat := 40
def FClamp : Nat := 43

end GlslStd450

namespace SpirvStorageClass

def UniformConstant : Nat := 0
def Input : Nat := 1
def Uniform : Nat := 2
def Output : Nat := 3
def Function : Nat := 7

end SpirvStorageClass

namespace SpirvDecoration

def Location : Nat := 30
def DescriptorSet : Nat := 34
def Binding : Nat := 33
def BuiltIn : Nat := 11
def ArrayStride : Nat := 6

end SpirvDecoration

def SPIRV_MAGIC : Nat := 0x07230203
def SPIRV_VERSION : Nat := 0x00010000

/- The built-in number of a vertex position. -/
def SpirvBuiltIn.Position : Nat := 0

/- The capability number of shaders. -/
def CapabilityShader : Nat := 1

/- The capability number of one-dimensional textures. -/
def CapabilitySampled1D : Nat := 33

------
-- Emitter State
------

structure TypeIds where
  voidT : Nat := 0
  boolT : Nat := 0
  f32T : Nat := 0
  i32T : Nat := 0
  u32T : Nat := 0
  vec2f32T : Nat := 0
  vec3f32T : Nat := 0
  vec4f32T : Nat := 0
  vec2i32T : Nat := 0
  vec3i32T : Nat := 0
  vec4i32T : Nat := 0
  vec2u32T : Nat := 0
  vec3u32T : Nat := 0
  vec4u32T : Nat := 0
  f32Fnptr : Nat := 0
  vec4f32InputPtr : Nat := 0
  vec4f32OutputPtr : Nat := 0
  f32UniformPtr : Nat := 0
  f32Image2d : Nat := 0
  sampledImage2d : Nat := 0
  cbufStruct : Nat := 0
  cbufRuntimeArray : Nat := 0
  cbufPtr : Nat := 0
  boolFnptr : Nat := 0

structure ShaderIo where
  vertInPosition : Nat := 0
  vertInColor : Nat := 0
  vertOutPosition : Nat := 0
  vertOutColor : Nat := 0
  fragInColor : Nat := 0
  fragOutColor : Nat := 0

structure SsyStackEntry where
  ssyPc : Nat
  syncPc : Nat
  type : CfgBlockType
  mergeLabel : Nat := 0
  continueLabel : Nat := 0

/- The innermost entry of the stack comes first. -/
structure CfgEmitState where
  pcToLabel : Nat → Option Nat := fun _ => none
  ssyStack : List SsyStackEntry := []
  predVars : Nat → Option Nat := fun _ => none
  labelsEmitted : List Nat := []

structure SpirvEmitter where
  words : List Nat := []
  nextId : Nat := 1
  bound : Nat := 0
  types : TypeIds := {}
  glslExtId : Nat := 0
  cbufVarId : Nat := 0
  texSampledImageVar : Nat := 0
  constF32Zero : Nat := 0
  constF32One : Nat := 0
  constTrue : Nat := 0
  constFalse : Nat := 0
  typesBuilt : Bool := false
  io : ShaderIo := {}
  cfgState : CfgEmitState := {}

/- A step of the emitter. -/
abbrev Emit (α : Type) : Type := StateM SpirvEmitter α

/- Variables of the general registers. -/
abbrev GprMap : Type := Nat → Option Nat

------
-- Words And Ids
------

namespace SpirvEmitter

/- `next_id_` has 32 bits, which the ids of a program do not
pass as long as they are fewer. -/
def allocId : Emit Nat := do
  let e ← get
  let id := e.nextId
  set { e with
    nextId := id + 1
    bound := max e.bound (id + 1) }
  return id

def emitWords (ws : List Nat) : Emit Unit :=
  modify fun e => { e with words := e.words ++ ws }

def emitWord (word : Nat) : Emit Unit :=
  emitWords [word]

/- Updates of the fields that hold ids. -/
def updateTypes (f : TypeIds → TypeIds) : Emit Unit :=
  modify fun e => { e with types := f e.types }

def updateIo (f : ShaderIo → ShaderIo) : Emit Unit :=
  modify fun e => { e with io := f e.io }

def setGlslExtId (id : Nat) : Emit Unit :=
  modify fun e => { e with glslExtId := id }

def setCbufVarId (id : Nat) : Emit Unit :=
  modify fun e => { e with cbufVarId := id }

def setTexSampledImageVar (id : Nat) : Emit Unit :=
  modify fun e => { e with texSampledImageVar := id }

def setConstants
    (f32Zero f32One trueId falseId : Nat) : Emit Unit :=
  modify fun e =>
    { e with
      constF32Zero := f32Zero
      constF32One := f32One
      constTrue := trueId
      constFalse := falseId }

def setTypesBuilt : Emit Unit :=
  modify fun e => { e with typesBuilt := true }

def setPredVar (predIdx var : Nat) : Emit Unit :=
  modify fun e =>
    { e with
      cfgState.predVars :=
        Function.update e.cfgState.predVars predIdx
          (some var) }

/- First word of an instruction. -/
def instHeader (wordCount opcode : Nat) : Nat :=
  (wordCount <<< 16) ||| opcode

def emitInst
    (opcode operandCount : Nat)
    (operands : List Nat) : Emit Unit :=
  emitWords (instHeader (operandCount + 1) opcode :: operands)

def emitInst0 (opcode : Nat) : Emit Unit :=
  emitWord (instHeader 1 opcode)

def emitInst1 (opcode operand : Nat) : Emit Unit :=
  emitWords [instHeader 2 opcode, operand]

def emitInst2 (opcode op1 op2 : Nat) : Emit Unit :=
  emitWords [instHeader 3 opcode, op1, op2]

def emitInst3 (opcode op1 op2 op3 : Nat) : Emit Unit :=
  emitWords [instHeader 4 opcode, op1, op2, op3]

def emitInst4
    (opcode op1 op2 op3 op4 : Nat) : Emit Unit :=
  emitWords [instHeader 5 opcode, op1, op2, op3, op4]

def emitInst5
    (opcode op1 op2 op3 op4 op5 : Nat) : Emit Unit :=
  emitWords [instHeader 6 opcode, op1, op2, op3, op4, op5]

/- Characters of one word, the first in the low byte. -/
def packChars : List Char → Nat
| [] => 0
| c :: cs => c.toNat + 256 * packChars cs

/-
  Words of a string with its terminator, padded to a word
  boundary.
-/
def stringWords (s : String) : List Nat :=
  let chars := s.toList
  (List.range ((chars.length + 4) / 4)).map fun i =>
    packChars ((chars.drop (4 * i)).take 4)

def emitHeader : Emit Unit :=
  emitWords [SPIRV_MAGIC, SPIRV_VERSION, 0, 0, 0]

def emitCapabilities (program : ShaderProgram) :
    Emit Unit := do
  emitInst1 SpirvOp.Capability CapabilityShader
  if program.usesTextures then
    emitInst1 SpirvOp.Capability CapabilitySampled1D

------
-- Instructions With A Result
------

/- A new id, declared with one word behind it. -/
def emitNew1 (opcode op : Nat) : Emit Nat := do
  let id ← allocId
  emitInst2 opcode id op
  return id

/- A new id, declared with two words behind it. -/
def emitNew2 (opcode op1 op2 : Nat) : Emit Nat := do
  let id ← allocId
  emitInst3 opcode id op1 op2
  return id

/- A typed result of one operand. -/
def emitUnary (opcode type op : Nat) : Emit Nat := do
  let id ← allocId
  emitInst3 opcode type id op
  return id

/- A typed result of two operands. -/
def emitBinary (opcode type op1 op2 : Nat) : Emit Nat := do
  let id ← allocId
  emitInst4 opcode type id op1 op2
  return id

/- A typed result of three operands. -/
def emitTernary
    (opcode type op1 op2 op3 : Nat) : Emit Nat := do
  let id ← allocId
  emitInst5 opcode type id op1 op2 op3
  return id

/- A typed result of a list of operands. -/
def emitMany
    (opcode type : Nat)
    (operands : List Nat) : Emit Nat := do
  let id ← allocId
  let ops := type :: id :: operands
  emitInst opcode ops.length ops
  return id

def emitTypeVoid : Emit Nat := do
  let id ← allocId
  emitInst1 SpirvOp.TypeVoid id
  return id

def emitTypeBool : Emit Nat := do
  let id ← allocId
  emitInst1 SpirvOp.TypeBool id
  return id

def emitTypeFloat (width : Nat) : Emit Nat :=
  emitNew1 SpirvOp.TypeFloat width

def emitTypeInt (width : Nat) (isSigned : Bool) : Emit Nat :=
  emitNew2 SpirvOp.TypeInt width (if isSigned then 1 else 0)

def emitTypeVector (componentType count : Nat) : Emit Nat :=
  emitNew2 SpirvOp.TypeVector componentType count

def emitTypePointer
    (storageClass pointeeType : Nat) : Emit Nat :=
  emitNew2 SpirvOp.TypePointer storageClass pointeeType

def emitTypeFunction
    (returnType : Nat)
    (paramTypes : List Nat) : Emit Nat := do
  let id ← allocId
  let operands := id :: returnType :: paramTypes
  emitInst SpirvOp.TypeFunction operands.length operands
  return id

def emitTypeImage
    (sampledType dim depth arrayed ms sampled imageFormat :
      Nat) : Emit Nat := do
  let id ← allocId
  emitInst SpirvOp.TypeImage 8
    [id, sampledType, dim, depth, arrayed, ms, sampled,
      imageFormat]
  return id

def emitTypeSampledImage (imageType : Nat) : Emit Nat :=
  emitNew1 SpirvOp.TypeSampledImage imageType

def emitConstantF32 (bits : Nat) : Emit Nat := do
  let e ← get
  let id ← allocId
  emitInst3 SpirvOp.Constant e.types.f32T id bits
  return id

def emitConstantU32 (value : Nat) : Emit Nat := do
  let e ← get
  let id ← allocId
  emitInst3 SpirvOp.Constant e.types.u32T id value
  return id

def emitConstantBool (value : Bool) : Emit Nat := do
  let e ← get
  let id ← allocId
  emitInst2
    (if value then SpirvOp.ConstantTrue
      else SpirvOp.ConstantFalse)
    e.types.boolT id
  return id

/- A variable without initializer. -/
def emitVariable
    (typePtrId storageClass : Nat) : Emit Nat := do
  let id ← allocId
  emitInst3 SpirvOp.Variable typePtrId id storageClass
  return id

def emitVariablePreallocated
    (id typePtrId storageClass : Nat) : Emit Nat := do
  emitInst3 SpirvOp.Variable typePtrId id storageClass
  return id

def emitDecoration
    (target decoration value : Nat) : Emit Unit :=
  emitInst3 SpirvOp.Decorate target decoration value

def emitDecorationBuiltIn (target builtIn : Nat) : Emit Unit :=
  emitDecoration target SpirvDecoration.BuiltIn builtIn

def emitDecorationLocation
    (target location : Nat) : Emit Unit :=
  emitDecoration target SpirvDecoration.Location location

def emitLoad (resultType pointer : Nat) : Emit Nat :=
  emitUnary SpirvOp.Load resultType pointer

def emitStore (pointer value : Nat) : Emit Unit :=
  emitInst2 SpirvOp.Store pointer value

def emitAccessChain
    (resultType base : Nat)
    (indices : List Nat) : Emit Nat :=
  emitMany SpirvOp.AccessChain resultType (base :: indices)

def emitFAdd (type op1 op2 : Nat) : Emit Nat :=
  emitBinary SpirvOp.FAdd type op1 op2

def emitFMul (type op1 op2 : Nat) : Emit Nat :=
  emitBinary SpirvOp.FMul type op1 op2

def emitFDiv (type op1 op2 : Nat) : Emit Nat :=
  emitBinary SpirvOp.FDiv type op1 op2

def emitIAdd (type op1 op2 : Nat) : Emit Nat :=
  emitBinary SpirvOp.IAdd type op1 op2

def emitISub (type op1 op2 : Nat) : Emit Nat :=
  emitBinary SpirvOp.ISub type op1 op2

def emitIMul (type op1 op2 : Nat) : Emit Nat :=
  emitBinary SpirvOp.IMul type op1 op2

def emitFNegate (type op : Nat) : Emit Nat :=
  emitUnary SpirvOp.FNegate type op

def emitConvertFToS (resultType op : Nat) : Emit Nat :=
  emitUnary SpirvOp.ConvertFToS resultType op

def emitConvertSToF (resultType op : Nat) : Emit Nat :=
  emitUnary SpirvOp.ConvertSToF resultType op

def emitBitcast (resultType op : Nat) : Emit Nat :=
  emitUnary SpirvOp.Bitcast resultType op

def emitFOrdEqual (resultType op1 op2 : Nat) : Emit Nat :=
  emitBinary SpirvOp.FOrdEqual resultType op1 op2

def emitIEqual (resultType op1 op2 : Nat) : Emit Nat :=
  emitBinary SpirvOp.IEqual resultType op1 op2

def emitSGreaterThanEqual
    (resultType op1 op2 : Nat) : Emit Nat :=
  emitBinary SpirvOp.SGreaterThanEqual resultType op1 op2

def emitShiftLeftLogical (type base shift : Nat) : Emit Nat :=
  emitBinary SpirvOp.ShiftLeftLogical type base shift

def emitShiftRightArithmetic
    (type base shift : Nat) : Emit Nat :=
  emitBinary SpirvOp.ShiftRightArithmetic type base shift

def emitBitFieldInsert
    (type base insert offset count : Nat) : Emit Nat := do
  let id ← allocId
  emitInst SpirvOp.BitFieldInsert 6
    [type, id, base, insert, offset, count]
  return id

def emitBitFieldUExtract
    (type base offset count : Nat) : Emit Nat :=
  emitTernary SpirvOp.BitFieldUExtract type base offset count

def emitSelect
    (resultType condition trueVal falseVal : Nat) :
    Emit Nat :=
  emitTernary SpirvOp.Select resultType condition trueVal
    falseVal

def emitCompositeConstruct
    (resultType : Nat)
    (constituents : List Nat) : Emit Nat :=
  emitMany SpirvOp.CompositeConstruct resultType constituents

def emitImageSampleExplicitLod
    (resultType sampledImg coord lod : Nat) : Emit Nat :=
  emitTernary SpirvOp.ImageSampleExplicitLod resultType
    sampledImg coord lod

def emitExtInst
    (resultType instruction : Nat)
    (operands : List Nat) : Emit Nat := do
  let id ← allocId
  let e ← get
  let ops :=
    resultType :: id :: e.glslExtId :: instruction ::
      operands
  emitInst SpirvOp.ExtInst ops.length ops
  return id

def emitFMax (type op1 op2 : Nat) : Emit Nat :=
  emitExtInst type GlslStd450.FMax [op1, op2]

def emitFMin (type op1 op2 : Nat) : Emit Nat :=
  emitExtInst type GlslStd450.FMin [op1, op2]

def emitFAbs (type op : Nat) : Emit Nat :=
  emitExtInst type GlslStd450.FAbs [op]

------
-- Control Flow Instructions
------

def emitLabel : Emit Nat := do
  let id ← allocId
  emitInst1 SpirvOp.Label id
  return id

def emitBranch (targetLabel : Nat) : Emit Unit :=
  emitInst1 SpirvOp.Branch targetLabel

def emitBranchConditional
    (condId trueLabel falseLabel : Nat) : Emit Unit :=
  emitInst3 SpirvOp.BranchConditional condId trueLabel
    falseLabel

def emitReturn : Emit Unit :=
  emitInst0 SpirvOp.Return

def emitKill : Emit Unit :=
  emitInst0 SpirvOp.Kill

------
-- Register Access
------

/- A register without a variable reads as id 0. -/
def getGpr (gprMap : GprMap) (index : Nat) : Nat :=
  (gprMap index).getD 0

def loadGpr (gprMap : GprMap) (index : Nat) : Emit Nat := do
  let var := getGpr gprMap index
  if var = 0 then
    return 0
  else
    let e ← get
    emitLoad e.types.f32T var

def storeGpr
    (gprMap : GprMap)
    (index value : Nat) : Emit Unit := do
  let var := getGpr gprMap index
  if var ≠ 0 then
    emitStore var value

/- Write a result to the destination register. -/
def finishInst
    (inst : ShaderInstruction)
    (gprMap : GprMap)
    (value : Nat) : Emit Nat := do
  storeGpr gprMap inst.dest.regIndex value
  return value

/-
  Instructions that load one source: nothing is emitted
  behind a load that gives id 0.
-/
def withSrc1
    (inst : ShaderInstruction)
    (gprMap : GprMap)
    (minCount : Nat)
    (body : Nat → Emit Nat) : Emit Nat := do
  if minCount ≤ inst.srcCount then
    let s0 ← loadGpr gprMap inst.src0.regIndex
    if s0 ≠ 0 then
      body s0
    else
      return 0
  else
    return 0

/- Instructions that load two sources. -/
def withSrc2
    (inst : ShaderInstruction)
    (gprMap : GprMap)
    (body : Nat → Nat → Emit Nat) : Emit Nat := do
  if 2 ≤ inst.srcCount then
    let s0 ← loadGpr gprMap inst.src0.regIndex
    let s1 ← loadGpr gprMap inst.src1.regIndex
    if s0 ≠ 0 ∧ s1 ≠ 0 then
      body s0 s1
    else
      return 0
  else
    return 0

/- Instructions that load three sources. -/
def withSrc3
    (inst : ShaderInstruction)
    (gprMap : GprMap)
    (body : Nat → Nat → Nat → Emit Nat) : Emit Nat := do
  if 3 ≤ inst.srcCount then
    let s0 ← loadGpr gprMap inst.src0.regIndex
    let s1 ← loadGpr gprMap inst.src1.regIndex
    let s2 ← loadGpr gprMap inst.src2.regIndex
    if s0 ≠ 0 ∧ s1 ≠ 0 ∧ s2 ≠ 0 then
      body s0 s1 s2
    else
      return 0
  else
    return 0

/- One source, one result. -/
def unaryInst
    (inst : ShaderInstruction)
    (gprMap : GprMap)
    (body : Nat → Emit Nat) : Emit Nat :=
  withSrc1 inst gprMap 1 fun s0 => do
    let v ← body s0
    finishInst inst gprMap v

/- Two sources, one result. -/
def binaryInst
    (inst : ShaderInstruction)
    (gprMap : GprMap)
    (body : Nat → Nat → Emit Nat) : Emit Nat :=
  withSrc2 inst gprMap fun s0 s1 => do
    let v ← body s0 s1
    finishInst inst gprMap v

/- Three sources, one result. -/
def ternaryInst
    (inst : ShaderInstruction)
    (gprMap : GprMap)
    (body : Nat → Nat → Nat → Emit Nat) : Emit Nat :=
  withSrc3 inst gprMap fun s0 s1 s2 => do
    let v ← body s0 s1 s2
    finishInst inst gprMap v

/- Variable of a predicate, declared on its first write. -/
def predVar (predIdx : Nat) : Emit Nat := do
  let e ← get
  match e.cfgState.predVars predIdx with
  | some var => return var
  | none =>
      let boolPtr ←
        emitTypePointer SpirvStorageClass.Function
          e.types.boolT
      let var ← emitVariable boolPtr SpirvStorageClass.Function
      setPredVar predIdx var
      return var

/- A compare stores into the predicate of its destination. -/
def compareInst
    (inst : ShaderInstruction)
    (gprMap : GprMap)
    (compare : Nat → Nat → Emit Nat) : Emit Nat :=
  withSrc2 inst gprMap fun s0 s1 => do
    let cmp ← compare s0 s1
    let var ← predVar inst.dest.predIndex
    emitStore var cmp
    return cmp

------
-- Instruction Bodies
------

/- Two registers as signed integers. -/
def intBinary
    (op : Nat → Nat → Nat → Emit Nat)
    (s0 s1 : Nat) : Emit Nat := do
  let t := (← get).types
  let s0i ← emitBitcast t.i32T s0
  let s1i ← emitBitcast t.i32T s1
  let r ← op t.i32T s0i s1i
  emitBitcast t.f32T r

/- A shift by an unsigned amount. -/
def shiftBody
    (op : Nat → Nat → Nat → Emit Nat)
    (s0 s1 : Nat) : Emit Nat := do
  let t := (← get).types
  let s0i ← emitBitcast t.i32T s0
  let s1i ← emitBitcast t.u32T s1
  let shifted ← op t.i32T s0i s1i
  emitBitcast t.f32T shifted

/- One extended instruction on a float. -/
def extUnary (instruction s0 : Nat) : Emit Nat := do
  let t := (← get).types
  emitExtInst t.f32T instruction [s0]

/- Reciprocal of a float. -/
def reciprocal (s0 : Nat) : Emit Nat := do
  let e ← get
  emitFDiv e.types.f32T e.constF32One s0

def mufuBody (op : MufuOp) (s0 : Nat) : Emit Nat :=
  match op with
  | .SIN => extUnary GlslStd450.Sin s0
  | .COS => extUnary GlslStd450.Cos s0
  | .EX2 => extUnary GlslStd450.Exp2 s0
  | .LG2 => extUnary GlslStd450.Log2 s0
  | .RCP => reciprocal s0
  | .RSQ => extUnary GlslStd450.InverseSqrt s0
  | .SQRT => extUnary GlslStd450.Sqrt s0
  | .FLOOR => extUnary GlslStd450.Floor s0
  | .CEIL => extUnary GlslStd450.Ceil s0
  | .TAN => extUnary GlslStd450.Tan s0
  | .CBRT | .Unnamed _ => return s0

def fmadBody (s0 s1 s2 : Nat) : Emit Nat := do
  let t := (← get).types
  let mul ← emitFMul t.f32T s0 s1
  emitFAdd t.f32T mul s2

def inegBody (s0 : Nat) : Emit Nat := do
  let t := (← get).types
  let s0i ← emitBitcast t.i32T s0
  let neg ← emitUnary SpirvOp.SNegate t.i32T s0i
  emitBitcast t.f32T neg

def imadBody (s0 s1 s2 : Nat) : Emit Nat := do
  let t := (← get).types
  let s0i ← emitBitcast t.i32T s0
  let s1i ← emitBitcast t.i32T s1
  let s2i ← emitBitcast t.i32T s2
  let mul ← emitIMul t.i32T s0i s1i
  let add ← emitIAdd t.i32T mul s2i
  emitBitcast t.f32T add

def iadd3Body (s0 s1 s2 : Nat) : Emit Nat := do
  let t := (← get).types
  let s0i ← emitBitcast t.i32T s0
  let s1i ← emitBitcast t.i32T s1
  let s2i ← emitBitcast t.i32T s2
  let add1 ← emitIAdd t.i32T s0i s1i
  let add2 ← emitIAdd t.i32T add1 s2i
  emitBitcast t.f32T add2

def f2iBody (s0 : Nat) : Emit Nat := do
  let t := (← get).types
  let conv ← emitConvertFToS t.i32T s0
  emitBitcast t.f32T conv

def i2fBody (s0 : Nat) : Emit Nat := do
  let t := (← get).types
  let s0i ← emitBitcast t.i32T s0
  emitConvertSToF t.f32T s0i

def iabsBody (s0 : Nat) : Emit Nat := do
  let t := (← get).types
  let s0i ← emitBitcast t.i32T s0
  let absI ← emitExtInst t.i32T GlslStd450.SAbs [s0i]
  emitBitcast t.f32T absI

def isetpCompare (s0 s1 : Nat) : Emit Nat := do
  let t := (← get).types
  let s0i ← emitBitcast t.i32T s0
  let s1i ← emitBitcast t.i32T s1
  emitIEqual t.boolT s0i s1i

def fsetpCompare (s0 s1 : Nat) : Emit Nat := do
  let t := (← get).types
  emitFOrdEqual t.boolT s0 s1

def bfeBody (s0 s1 s2 : Nat) : Emit Nat := do
  let t := (← get).types
  let base ← emitBitcast t.u32T s0
  let offset ← emitBitcast t.u32T s1
  let count ← emitBitcast t.u32T s2
  let extracted ←
    emitBitFieldUExtract t.u32T base offset count
  emitBitcast t.f32T extracted

def bfiBody (s0 s1 s2 : Nat) : Emit Nat := do
  let t := (← get).types
  let base ← emitBitcast t.u32T s0
  let insert ← emitBitcast t.u32T s1
  let offset ← emitBitcast t.u32T s2
  let countConst ← emitConstantU32 32
  let inserted ←
    emitBitFieldInsert t.u32T base insert offset countConst
  emitBitcast t.f32T inserted

def imnmxBody (s0 s1 : Nat) : Emit Nat := do
  let t := (← get).types
  let s0i ← emitBitcast t.i32T s0
  let s1i ← emitBitcast t.i32T s1
  let cmp ← emitSGreaterThanEqual t.boolT s0i s1i
  let sel ← emitSelect t.i32T cmp s0i s1i
  emitBitcast t.f32T sel

def fsetBody (s0 s1 : Nat) : Emit Nat := do
  let e ← get
  let cmp ← emitFOrdEqual e.types.boolT s0 s1
  emitSelect e.types.f32T cmp e.constF32One e.constF32Zero

def leaBody (s0 s1 : Nat) : Emit Nat := do
  let t := (← get).types
  let s0i ← emitBitcast t.u32T s0
  let s1i ← emitBitcast t.u32T s1
  let two ← emitConstantU32 2
  let shifted ← emitShiftLeftLogical t.u32T s1i two
  let add ← emitIAdd t.u32T s0i shifted
  emitBitcast t.f32T add

def fsatBody (s0 : Nat) : Emit Nat := do
  let e ← get
  emitExtInst e.types.f32T GlslStd450.FClamp
    [s0, e.constF32Zero, e.constF32One]

/- Load from the constant buffer. -/
def ldcInst
    (inst : ShaderInstruction)
    (gprMap : GprMap) : Emit Nat :=
  withSrc1 inst gprMap 1 fun index => do
    let e ← get
    if e.cbufVarId ≠ 0 then
      let idxU32 ← emitBitcast e.types.u32T index
      let ptr ←
        emitAccessChain e.types.f32UniformPtr e.cbufVarId
          [e.constF32Zero, idxU32]
      let val ← emitLoad e.types.f32T ptr
      finishInst inst gprMap val
    else
      return 0

/- Texture sample; the one coordinate is used twice. -/
def texInst
    (inst : ShaderInstruction)
    (gprMap : GprMap) : Emit Nat :=
  withSrc1 inst gprMap 2 fun coord => do
    let e ← get
    if e.texSampledImageVar ≠ 0 then
      let coordVec2 ←
        emitCompositeConstruct e.types.vec2f32T [coord, coord]
      let imageId ←
        emitLoad e.types.f32Image2d e.texSampledImageVar
      let sample ←
        emitImageSampleExplicitLod e.types.vec4f32T imageId
          coordVec2 e.constF32Zero
      finishInst inst gprMap sample
    else
      return 0

/- The id emitted for a register copy. -/
def copyBody (s0 : Nat) : Emit Nat :=
  return s0

/- A float operation on two registers. -/
def floatBinary
    (op : Nat → Nat → Nat → Emit Nat)
    (s0 s1 : Nat) : Emit Nat := do
  let t := (← get).types
  op t.f32T s0 s1

/- A float operation on one register. -/
def floatUnary
    (op : Nat → Nat → Emit Nat)
    (s0 : Nat) : Emit Nat := do
  let t := (← get).types
  op t.f32T s0

def s2rInst
    (inst : ShaderInstruction)
    (gprMap : GprMap) : Emit Nat := do
  let e ← get
  finishInst inst gprMap e.constF32Zero

/- An opcode without a case copies its first source. -/
def defaultInst
    (inst : ShaderInstruction)
    (gprMap : GprMap) : Emit Nat :=
  if inst.dest.type = .GPR then
    unaryInst inst gprMap copyBody
  else
    return 0

/- One instruction outside the control flow. -/
def emitShaderInst
    (inst : ShaderInstruction)
    (gprMap : GprMap) : Emit Nat :=
  match inst.opcode with
  | .NOP | .EXIT | .RET => return 0
  | .KIL => do
      emitKill
      return 0
  | .FMAD => ternaryInst inst gprMap fmadBody
  | .FADD => binaryInst inst gprMap (floatBinary emitFAdd)
  | .FMUL => binaryInst inst gprMap (floatBinary emitFMul)
  | .IADD => binaryInst inst gprMap (intBinary emitIAdd)
  | .ISUB => binaryInst inst gprMap (intBinary emitISub)
  | .FNEG => unaryInst inst gprMap (floatUnary emitFNegate)
  | .INEG => unaryInst inst gprMap inegBody
  | .S2R => s2rInst inst gprMap
  -- Loads and stores do not look at the source count.
  | .LD | .ST =>
      withSrc1 inst gprMap 0 (finishInst inst gprMap)
  | .IMUL => binaryInst inst gprMap (intBinary emitIMul)
  | .IMAD => ternaryInst inst gprMap imadBody
  | .F2I => unaryInst inst gprMap f2iBody
  | .I2F => unaryInst inst gprMap i2fBody
  | .LDC => ldcInst inst gprMap
  | .MUFU =>
      unaryInst inst gprMap (mufuBody inst.src0.mufuOp)
  | .TEX => texInst inst gprMap
  | .FMAX => binaryInst inst gprMap (floatBinary emitFMax)
  | .FMIN => binaryInst inst gprMap (floatBinary emitFMin)
  | .FABS => unaryInst inst gprMap (floatUnary emitFAbs)
  | .IABS => unaryInst inst gprMap iabsBody
  | .IADD3 => ternaryInst inst gprMap iadd3Body
  | .BRA | .CALL | .SSY | .SYNC => return 0
  | .ISETP => compareInst inst gprMap isetpCompare
  | .FSETP => compareInst inst gprMap fsetpCompare
  | .I2I | .F2F => unaryInst inst gprMap copyBody
  | .SHL =>
      binaryInst inst gprMap (shiftBody emitShiftLeftLogical)
  | .SHR =>
      binaryInst inst gprMap
        (shiftBody emitShiftRightArithmetic)
  | .BFE => ternaryInst inst gprMap bfeBody
  | .BFI => ternaryInst inst gprMap bfiBody
  -- A permute needs two sources and copies the first.
  | .PRMT =>
      withSrc1 inst gprMap 2 (finishInst inst gprMap)
  | .IMNMX => binaryInst inst gprMap imnmxBody
  | .FSET => binaryInst inst gprMap fsetBody
  | .LEA => binaryInst inst gprMap leaBody
  | .POPC | .FLO => unaryInst inst gprMap copyBody
  | .FSAT => unaryInst inst gprMap fsatBody
  | .FRCP => unaryInst inst gprMap reciprocal
  | .FRSQ =>
      unaryInst inst gprMap (extUnary GlslStd450.InverseSqrt)
  | .FSQRT =>
      unaryInst inst gprMap (extUnary GlslStd450.Sqrt)
  | .FEX2 =>
      unaryInst inst gprMap (extUnary GlslStd450.Exp2)
  | .FLG2 =>
      unaryInst inst gprMap (extUnary GlslStd450.Log2)
  | _ => defaultInst inst gprMap

------
-- Control Flow Analysis
------

/- The next instruction slot, in 32 bits. -/
def nextPc (pc : Nat) : Nat :=
  (pc + 8) % 2 ^ 32

/- The first branch before the matching `SYNC`. -/
def findBra (syncPc : Nat) :
    List ShaderInstruction → Option ShaderInstruction
| [] => none
| next :: rest =>
    if next.opcode = .SYNC ∧ next.pc = syncPc then none
    else if next.opcode = .BRA then some next
    else findBra syncPc rest

/- The annotation of one `SSY`. -/
def ssyPair
    (inst : ShaderInstruction)
    (rest : List ShaderInstruction) : SsySyncPair :=
  let syncPc := inst.targetPc
  match findBra syncPc rest with
  | none => { ssyPc := inst.pc, syncPc := syncPc }
  | some bra =>
      { ssyPc := inst.pc
        syncPc := syncPc
        braPc := bra.pc
        braTargetPc := bra.targetPc
        type :=
          if bra.targetPc < nextPc inst.pc then .Loop
          else .Selection }

/- Annotations of all `SSY` instructions, in order. -/
def ssyPairs :
    List ShaderInstruction → List SsySyncPair
| [] => []
| inst :: rest =>
    if inst.opcode = .SSY then
      ssyPair inst rest :: ssyPairs rest
    else ssyPairs rest

/- Block starts a pair contributes. -/
def pairStarts (pair : SsySyncPair) : List Nat :=
  [pair.syncPc, nextPc pair.ssyPc] ++
    if pair.braTargetPc ≠ 0 then [pair.braTargetPc] else []

def buildCfg (program : ShaderProgram) : CfgAnnotation :=
  let pairs := ssyPairs program.instructions
  { pairs := pairs
    blockStarts :=
      pairs.flatMap pairStarts ++
        (program.instructions.head?.map (·.pc)).toList }

------
-- Labels
------

/- Map an offset to a label id. -/
def setLabel (pc id : Nat) : Emit Unit :=
  modify fun e =>
    { e with
      cfgState.pcToLabel :=
        Function.update e.cfgState.pcToLabel pc (some id) }

def markEmitted (pc : Nat) : Emit Unit :=
  modify fun e =>
    { e with
      cfgState.labelsEmitted :=
        pc :: e.cfgState.labelsEmitted }

def setStack (stack : List SsyStackEntry) : Emit Unit :=
  modify fun e => { e with cfgState.ssyStack := stack }

/- The id of an offset, allocated without a label. -/
def reserveLabel (pc : Nat) : Emit Nat := do
  let e ← get
  match e.cfgState.pcToLabel pc with
  | some id => return id
  | none =>
      let labelId ← allocId
      setLabel pc labelId
      return labelId

/- A block start gets a label under a new id. -/
def emitBlockLabel
    (cfg : CfgAnnotation)
    (pc : Nat) : Emit Unit := do
  let e ← get
  if pc ∈ cfg.blockStarts ∧
      pc ∉ e.cfgState.labelsEmitted then
    let lblId ← allocId
    emitInst1 SpirvOp.Label lblId
    setLabel pc lblId
    markEmitted pc

------
-- Structured Control Flow
------

/- A `SYNC` closes the innermost region it belongs to. -/
def handleSync (pc : Nat) : Emit Unit := do
  let e ← get
  match e.cfgState.ssyStack with
  | [] => return
  | top :: rest =>
      if top.syncPc = pc then
        setStack rest

/- The continue label of a region; loops only. -/
def reserveContinue
    (pair : SsySyncPair)
    (pc : Nat) : Emit Nat :=
  if pair.type = .Loop then
    if pair.braTargetPc ≠ 0 then
      reserveLabel pair.braTargetPc
    else
      reserveLabel (nextPc pc)
  else
    return 0

/- An `SSY` opens a region and reserves its labels. -/
def handleSsy (cfg : CfgAnnotation) (pc : Nat) :
    Emit Unit := do
  match cfg.pairs.find? (·.ssyPc = pc) with
  | none => return
  | some pair =>
      let mergeLabel ← reserveLabel pair.syncPc
      let continueLabel ← reserveContinue pair pc
      let e ← get
      setStack
        ({ ssyPc := pc
           syncPc := pair.syncPc
           type := pair.type
           mergeLabel := mergeLabel
           continueLabel := continueLabel } ::
          e.cfgState.ssyStack)

/- The merge instruction of a region. -/
def emitMerge (top : SsyStackEntry) : Emit Unit := do
  if top.mergeLabel ≠ 0 ∧ top.type = .Selection then
    emitInst2 SpirvOp.SelectionMerge top.mergeLabel 0
  else if top.mergeLabel ≠ 0 ∧ top.type = .Loop then
    emitInst3 SpirvOp.LoopMerge top.mergeLabel
      top.continueLabel 0

/- The merge deferred to the branch of the region. -/
def emitDeferredMerge : Emit Unit := do
  let e ← get
  match e.cfgState.ssyStack with
  | [] => return
  | top :: rest =>
      emitMerge top
      setStack ({ top with mergeLabel := 0 } :: rest)

def handleBra (inst : ShaderInstruction) : Emit Unit := do
  emitDeferredMerge
  let targetLabel ← reserveLabel inst.targetPc
  emitBranch targetLabel

/- The predicate of a branch; true when never written. -/
def emitGuard (inst : ShaderInstruction) : Emit Nat := do
  let e ← get
  match e.cfgState.predVars inst.predGuardIndex with
  | some var => emitLoad e.types.boolT var
  | none => return e.constTrue

/- The offset behind a predicated branch. -/
def falsePc
    (inst : ShaderInstruction)
    (next : Option ShaderInstruction) : Nat :=
  match next with
  | some n => n.pc
  | none => nextPc inst.pc

/- A negated guard swaps the two labels. -/
def emitGuardedBranch
    (inst : ShaderInstruction)
    (cond trueLabel falseLabel : Nat) : Emit Unit :=
  if inst.predGuardNegate then
    emitBranchConditional cond falseLabel trueLabel
  else
    emitBranchConditional cond trueLabel falseLabel

/- The block behind a predicated branch starts here. -/
def emitFalseLabel (falseLabel pc : Nat) : Emit Unit := do
  emitInst1 SpirvOp.Label falseLabel
  markEmitted pc

def handlePredBra
    (inst : ShaderInstruction)
    (next : Option ShaderInstruction) : Emit Unit := do
  emitDeferredMerge
  let trueLabel ← reserveLabel inst.targetPc
  let falseLabel ← reserveLabel (falsePc inst next)
  let cond ← emitGuard inst
  emitGuardedBranch inst cond trueLabel falseLabel
  emitFalseLabel falseLabel (falsePc inst next)

def handleBreak : Emit Unit := do
  let e ← get
  match e.cfgState.ssyStack with
  | [] => return
  | top :: _ =>
      let mergeLabel ← reserveLabel top.syncPc
      emitBranch mergeLabel

def handleCont (cfg : CfgAnnotation) : Emit Unit := do
  let e ← get
  match e.cfgState.ssyStack with
  | [] => return
  | top :: _ =>
      if top.type = .Loop then
        match cfg.pairs.find? (·.ssyPc = top.ssyPc) with
        | none => return
        | some pair =>
            let continueLabel ← reserveLabel pair.braTargetPc
            emitBranch continueLabel

/- One iteration of the emission loop. -/
def emitCfgInst
    (cfg : CfgAnnotation)
    (gprMap : GprMap)
    (inst : ShaderInstruction)
    (next : Option ShaderInstruction) : Emit Unit := do
  emitBlockLabel cfg inst.pc
  if inst.opcode = .SYNC then
    handleSync inst.pc
  else if inst.opcode = .SSY then
    handleSsy cfg inst.pc
  else if inst.opcode = .BRA ∧ !inst.predGuard ∧
      inst.dest.type = .None then
    handleBra inst
  else if inst.opcode = .BRA ∧ inst.predGuard then
    handlePredBra inst next
  else if inst.opcode = .EXIT ∨ inst.opcode = .RET then
    return
  else if inst.opcode = .BREAK then
    handleBreak
  else if inst.opcode = .CONT then
    handleCont cfg
  else if inst.opcode = .KIL then
    emitKill
  else do
    let _ ← emitShaderInst inst gprMap
    return

def emitStructuredCfg
    (cfg : CfgAnnotation)
    (gprMap : GprMap) :
    List ShaderInstruction → Emit Unit
| [] => return
| inst :: rest => do
    emitCfgInst cfg gprMap inst rest.head?
    emitStructuredCfg cfg gprMap rest

------
-- Module Preamble
------

def isVertex (stage : ShaderStage) : Bool :=
  stage = .VertexA ∨ stage = .VertexB

def isFragment (stage : ShaderStage) : Bool :=
  stage = .Fragment

/- The import of the extended instruction set. -/
def emitExtInstImport : Emit Unit := do
  let id ← allocId
  setGlslExtId id
  emitWords
    (instHeader 6 SpirvOp.ExtInstImport :: id ::
      stringWords "GLSL.std.450")

def emitShaderIo (stage : ShaderStage) : Emit Unit := do
  if isVertex stage then
    let inPosition ← allocId
    let inColor ← allocId
    let outPosition ← allocId
    let outColor ← allocId
    updateIo fun io =>
      { io with
        vertInPosition := inPosition
        vertInColor := inColor
        vertOutPosition := outPosition
        vertOutColor := outColor }
  else if isFragment stage then
    let inColor ← allocId
    let outColor ← allocId
    updateIo fun io =>
      { io with
        fragInColor := inColor
        fragOutColor := outColor }

/- Interface variables of a stage. -/
def interfaceIds (stage : ShaderStage) (io : ShaderIo) :
    List Nat :=
  if isVertex stage then
    [io.vertInPosition, io.vertInColor, io.vertOutPosition,
      io.vertOutColor]
  else if isFragment stage then
    [io.fragInColor, io.fragOutColor]
  else []

def emitEntryPoint
    (stage : ShaderStage)
    (funcId : Nat) : Emit Unit := do
  let e ← get
  let ids := interfaceIds stage e.io
  emitWords
    (instHeader (3 + 2 + ids.length) SpirvOp.EntryPoint ::
      (if isFragment stage then 4 else 0) :: funcId ::
        (stringWords "main" ++ ids))

def emitExecutionMode
    (stage : ShaderStage)
    (funcId : Nat) : Emit Unit := do
  if isFragment stage then
    emitInst2 SpirvOp.ExecutionMode funcId 7

def emitIoDecorations (stage : ShaderStage) :
    Emit Unit := do
  let io := (← get).io
  if isVertex stage then
    emitDecorationLocation io.vertInPosition 0
    emitDecorationLocation io.vertInColor 1
    emitDecorationBuiltIn io.vertOutPosition
      SpirvBuiltIn.Position
    emitDecorationLocation io.vertOutColor 0
  else if isFragment stage then
    emitDecorationLocation io.fragInColor 0
    emitDecorationLocation io.fragOutColor 0

/- Ids decorated ahead of their declarations. -/
def emitResourceDecorations (usesTextures : Bool) :
    Emit Unit := do
  let runtimeArray ← allocId
  let struct ← allocId
  let cbuf ← allocId
  updateTypes fun t =>
    { t with
      cbufRuntimeArray := runtimeArray
      cbufStruct := struct }
  setCbufVarId cbuf
  emitDecoration runtimeArray SpirvDecoration.ArrayStride 4
  emitDecoration cbuf SpirvDecoration.DescriptorSet 0
  emitDecoration cbuf SpirvDecoration.Binding 0
  if usesTextures then
    let tex ← allocId
    setTexSampledImageVar tex
    emitDecoration tex SpirvDecoration.DescriptorSet 0
    emitDecoration tex SpirvDecoration.Binding 0

def declareBaseTypes : Emit Unit := do
  let voidT ← emitTypeVoid
  let boolT ← emitTypeBool
  let f32T ← emitTypeFloat 32
  let i32T ← emitTypeInt 32 true
  let u32T ← emitTypeInt 32 false
  let vec2f32T ← emitTypeVector f32T 2
  let vec3f32T ← emitTypeVector f32T 3
  let vec4f32T ← emitTypeVector f32T 4
  let vec2i32T ← emitTypeVector i32T 2
  let vec3i32T ← emitTypeVector i32T 3
  let vec4i32T ← emitTypeVector i32T 4
  let vec2u32T ← emitTypeVector u32T 2
  let vec3u32T ← emitTypeVector u32T 3
  let vec4u32T ← emitTypeVector u32T 4
  let f32Fnptr ←
    emitTypePointer SpirvStorageClass.Function f32T
  let inputPtr ←
    emitTypePointer SpirvStorageClass.Input vec4f32T
  let outputPtr ←
    emitTypePointer SpirvStorageClass.Output vec4f32T
  let uniformPtr ←
    emitTypePointer SpirvStorageClass.Uniform f32T
  let image2d ← emitTypeImage f32T 1 0 0 0 1 0
  let imagePtr ←
    emitTypePointer SpirvStorageClass.UniformConstant image2d
  let sampledImage ← emitTypeSampledImage image2d
  let t := (← get).types
  emitInst2 SpirvOp.TypeRuntimeArray t.cbufRuntimeArray f32T
  emitInst SpirvOp.TypeStruct 2
    [t.cbufStruct, t.cbufRuntimeArray]
  let cbufPtr ←
    emitTypePointer SpirvStorageClass.Uniform t.cbufStruct
  let boolFnptr ←
    emitTypePointer SpirvStorageClass.Function boolT
  updateTypes fun t =>
    { t with
      voidT := voidT
      boolT := boolT
      f32T := f32T
      i32T := i32T
      u32T := u32T
      vec2f32T := vec2f32T
      vec3f32T := vec3f32T
      vec4f32T := vec4f32T
      vec2i32T := vec2i32T
      vec3i32T := vec3i32T
      vec4i32T := vec4i32T
      vec2u32T := vec2u32T
      vec3u32T := vec3u32T
      vec4u32T := vec4u32T
      f32Fnptr := f32Fnptr
      vec4f32InputPtr := inputPtr
      vec4f32OutputPtr := outputPtr
      f32UniformPtr := uniformPtr
      f32Image2d := imagePtr
      sampledImage2d := sampledImage
      cbufPtr := cbufPtr
      boolFnptr := boolFnptr }

def buildBaseTypes : Emit Unit := do
  let e ← get
  if e.typesBuilt then
    return
  else
    setTypesBuilt
    declareBaseTypes

/- The constants 0.0, 1.0, true and false. -/
def emitConstants : Emit Unit := do
  let f32Zero ← emitConstantF32 0
  let f32One ← emitConstantF32 0x3F800000
  let trueId ← emitConstantBool true
  let falseId ← emitConstantBool false
  setConstants f32Zero f32One trueId falseId

def emitIoVariables (stage : ShaderStage) : Emit Unit := do
  let e ← get
  let input := e.types.vec4f32InputPtr
  let output := e.types.vec4f32OutputPtr
  if isVertex stage then
    emitInst3 SpirvOp.Variable input e.io.vertInPosition
      SpirvStorageClass.Input
    emitInst3 SpirvOp.Variable input e.io.vertInColor
      SpirvStorageClass.Input
    emitInst3 SpirvOp.Variable output e.io.vertOutPosition
      SpirvStorageClass.Output
    emitInst3 SpirvOp.Variable output e.io.vertOutColor
      SpirvStorageClass.Output
  else if isFragment stage then
    emitInst3 SpirvOp.Variable input e.io.fragInColor
      SpirvStorageClass.Input
    emitInst3 SpirvOp.Variable output e.io.fragOutColor
      SpirvStorageClass.Output

/- The constant buffer and, when sampled, the texture. -/
def emitResourceVariables (usesTextures : Bool) :
    Emit Unit := do
  let e ← get
  let _ ←
    emitVariablePreallocated e.cbufVarId e.types.cbufPtr
      SpirvStorageClass.Uniform
  if usesTextures then
    let _ ←
      emitVariablePreallocated e.texSampledImageVar
        e.types.f32Image2d SpirvStorageClass.UniformConstant
    return

/- Everything in front of the function's entry label. -/
def emitPreamble (program : ShaderProgram) :
    Emit Unit := do
  emitCapabilities program
  emitExtInstImport
  emitInst2 SpirvOp.MemoryModel 0 1
  let funcId ← allocId
  emitShaderIo program.stage
  emitEntryPoint program.stage funcId
  emitExecutionMode program.stage funcId
  emitIoDecorations program.stage
  emitResourceDecorations program.usesTextures
  buildBaseTypes
  emitConstants
  emitIoVariables program.stage
  emitResourceVariables program.usesTextures
  let e ← get
  let funcType ← emitTypeFunction e.types.voidT []
  emitInst4 SpirvOp.Function e.types.voidT funcId 0 funcType

------
-- Main Emit Function
------

/- A variable for a register that has none yet. -/
def declareGpr
    (gprMap : GprMap)
    (op : ShaderOperand) : Emit GprMap := do
  if op.type = .GPR ∧ gprMap op.regIndex = none then
    let e ← get
    let var ←
      emitVariable e.types.f32Fnptr SpirvStorageClass.Function
    return Function.update gprMap op.regIndex (some var)
  else
    return gprMap

/- Variables for the registers of a list of operands. -/
def declareGprs :
    List ShaderOperand → GprMap → Emit GprMap
| [], gprMap => return gprMap
| op :: ops, gprMap => do
    let gprMap ← declareGpr gprMap op
    declareGprs ops gprMap

def buildGprMap (program : ShaderProgram) : Emit GprMap :=
  declareGprs
    (program.instructions.flatMap fun inst =>
      inst.dest :: inst.usedSrcs)
    fun _ => none

def emitVertexIoBody : Emit Unit := do
  let e ← get
  let pos ← emitLoad e.types.vec4f32T e.io.vertInPosition
  emitStore e.io.vertOutPosition pos
  let col ← emitLoad e.types.vec4f32T e.io.vertInColor
  emitStore e.io.vertOutColor col

def emitFragmentIoBody : Emit Unit := do
  let e ← get
  let col ← emitLoad e.types.vec4f32T e.io.fragInColor
  emitStore e.io.fragOutColor col

def emitIoBody (stage : ShaderStage) : Emit Unit := do
  if isVertex stage then
    emitVertexIoBody
  else if isFragment stage then
    emitFragmentIoBody

/- The end of the function; a `KIL` leaves out the return. -/
def emitFunctionEnd (program : ShaderProgram) :
    Emit Unit := do
  if !program.instructions.any (·.opcode = .KIL) then
    emitReturn
  emitInst0 SpirvOp.FunctionEnd

/- The entry label stands for the first instruction's. -/
def markEntry (program : ShaderProgram) : Emit Unit :=
  match program.instructions with
  | [] => return
  | first :: _ => markEmitted first.pc

def emitEntry (program : ShaderProgram) : Emit Unit := do
  let _ ← emitLabel
  markEntry program

/- The function from its entry label on. -/
def emitFunctionBody (program : ShaderProgram) :
    Emit Unit := do
  emitEntry program
  let gprMap ← buildGprMap program
  emitIoBody program.stage
  emitStructuredCfg (buildCfg program) gprMap
    program.instructions
  emitFunctionEnd program

/- What a call resets; types, bound and texture stay. -/
def beginEmit (e : SpirvEmitter) : SpirvEmitter :=
  { e with
    words := []
    nextId := 1
    typesBuilt := false
    io := {}
    cfgState := {} }

def emitModule (program : ShaderProgram) : Emit Unit := do
  emitHeader
  emitPreamble program
  emitFunctionBody program

/- The words of a program; word 3 holds the bound. -/
def emit
    (e : SpirvEmitter)
    (program : ShaderProgram) : List Nat :=
  let final := ((emitModule program).run (beginEmit e)).2
  final.words.set 3 final.bound

end SpirvEmitter

end M1Switch
