import M1Switch.Common.Types
import Mathlib.Tactic.Common

/-
  The shader intermediate representation.

  An operand's union is kept as its words: `value` is the
  first of them, from which a register index reads the low
  byte and a label the whole word, and `value1` the second.
  Code values a cast can produce outside an enumeration are
  kept in an extra constructor.

  Key definitions include:
    * `ShaderOpcode`
    * `ShaderOperand`
-/

------
-- Enumerations
------

namespace M1Switch

inductive ShaderStage where
  | VertexA
  | VertexB
  | TessControl
  | TessEval
  | Geometry
  | Fragment
  | Compute
  | Unnamed (code : Nat)
deriving DecidableEq, Repr

/- The cast from a byte. -/
def ShaderStage.ofCode : Nat → ShaderStage
| 0 => .VertexA
| 1 => .VertexB
| 2 => .TessControl
| 3 => .TessEval
| 4 => .Geometry
| 5 => .Fragment
| 6 => .Compute
| n => .Unnamed n

inductive ShaderOpcode where
  -- Control flow
  | NOP
  | EXIT
  | BRA
  | SSY
  | SYNC
  | CALL
  | RET
  | KIL
  | CONT
  | BREAK
  -- ALU: float
  | FMAD
  | FADD
  | FMUL
  | FMAX
  | FMIN
  | FSAT
  | FNEG
  | FABS
  | FRCP
  | FRSQ
  | FSQRT
  | FEX2
  | FLG2
  | FSIN
  | FCOS
  | MUFU
  -- ALU: integer
  | IADD
  | IMUL
  | IMAD
  | ISUB
  | IABS
  | INEG
  | ISETP
  | I2F
  | I2I
  | IADD3
  | IMNMX
  | LEA
  | POPC
  | FLO
  | SHL
  | SHR
  -- ALU: type conversion
  | F2F
  | F2I
  | F2F_C
  -- ALU: compare
  | FSETP
  | FSET
  -- Memory: load
  | LD
  | LDC
  | LDS
  | LL
  | LG
  | LEA_LOAD
  -- Memory: store
  | ST
  | STS
  | STG
  | STL
  -- Texture
  | TEX
  | TEXS
  | TLDS
  | TLD4
  | TXQ
  -- Special
  | S2R
  | R2P
  | P2R
  | PRMT
  | BFE
  | BFI
  | ATOM
  | BAR
  | DEPBAR
  | VOTE
  | YIELD
  | MEMBAR
deriving DecidableEq, Repr

inductive OperandType where
  | None
  | GPR
  | Predicate
  | FloatImm
  | IntImm
  | BoolImm
  | Cbuf
  | Attribute
  | Varying
  | SpecialReg
  | Address
  | Index
  | Flag
  | Texture
  | Sampler
  | Label
deriving DecidableEq, Repr

/- The two data types the decoder assigns. -/
inductive DataType where
  | F32
  | U32
deriving DecidableEq, Repr

inductive MufuOp where
  | COS
  | SIN
  | EX2
  | LG2
  | RCP
  | RSQ
  | SQRT
  | CBRT
  | TAN
  | FLOOR
  | CEIL
  | Unnamed (code : Nat)
deriving DecidableEq, Repr

/- The cast from a sub-operation number. -/
def MufuOp.ofCode : Nat → MufuOp
| 0 => .COS
| 1 => .SIN
| 2 => .EX2
| 3 => .LG2
| 4 => .RCP
| 5 => .RSQ
| 6 => .SQRT
| 7 => .CBRT
| 8 => .TAN
| 9 => .FLOOR
| 10 => .CEIL
| n => .Unnamed n

inductive MemorySpace where
  | Generic
  | Global
  | Shared
  | Local
  | Constant
  | Uniform
deriving DecidableEq, Repr

------
-- Instructions
------

structure ShaderOperand where
  type : OperandType := .None
  dataType : DataType := .F32
  value : Nat := 0
  value1 : Nat := 0
  negate : Bool := false
  absolute : Bool := false
  saturate : Bool := false
  mufuOp : MufuOp := .SIN
deriving DecidableEq, Repr

namespace ShaderOperand

def gpr (index : Nat) : ShaderOperand :=
  { type := .GPR, value := index }

def special (reg : Nat) : ShaderOperand :=
  { type := .SpecialReg, value := reg }

def texture (texIdx samplerIdx : Nat) : ShaderOperand :=
  { type := .Texture, value := texIdx, value1 := samplerIdx }

def ofLabel (lbl : Nat) : ShaderOperand :=
  { type := .Label, value := lbl }

/- `gpr.reg_index`, the low byte of the union. -/
def regIndex (op : ShaderOperand) : Nat :=
  op.value % 256

/- `pred.pred_index` shares its byte with `gpr.reg_index`. -/
def predIndex (op : ShaderOperand) : Nat :=
  op.value % 256

/- `label`, the first word of the union. -/
def label (op : ShaderOperand) : Nat :=
  op.value

end ShaderOperand

structure ShaderInstruction where
  opcode : ShaderOpcode := .NOP
  dest : ShaderOperand := {}
  src0 : ShaderOperand := {}
  src1 : ShaderOperand := {}
  src2 : ShaderOperand := {}
  srcCount : Nat := 0
  pc : Nat := 0
  predGuard : Bool := false
  predGuardIndex : Nat := 0
  predGuardNegate : Bool := false
  memSpace : MemorySpace := .Generic
  memOffset : Nat := 0
deriving DecidableEq, Repr

namespace ShaderInstruction

/- The used entries of the source array. -/
def usedSrcs (inst : ShaderInstruction) :
    List ShaderOperand :=
  [inst.src0, inst.src1, inst.src2].take inst.srcCount

/- Byte address of the label operand, in 32 bits. -/
def targetPc (inst : ShaderInstruction) : Nat :=
  inst.src0.label * 8 % 2 ^ 32

end ShaderInstruction

------
-- Programs
------

structure ShaderProgram where
  stage : ShaderStage := .Fragment
  instructions : List ShaderInstruction := []
  programOffset : Nat := 0
  programSize : Nat := 0
  hash : U64 := 0
  usesVaryings : Bool := false
  usesTextures : Bool := false
deriving DecidableEq

inductive CfgBlockType where
  | Normal
  | Selection
  | Loop
  | Merge
deriving DecidableEq, Repr

structure SsySyncPair where
  ssyPc : Nat := 0
  syncPc : Nat := 0
  braPc : Nat := 0
  braTargetPc : Nat := 0
  type : CfgBlockType := .Normal
deriving DecidableEq, Repr

/- What the emitter reads of the annotation. -/
structure CfgAnnotation where
  pairs : List SsySyncPair := []
  blockStarts : List Nat := []
deriving DecidableEq, Repr

/- FNV-1a over the bytes of the binary. -/
def ShaderProgram.calculateHash (data : List U8) : U64 :=
  data.foldl
    (fun hash b =>
      (hash ^^^ b.setWidth 64) * 0x100000001B3#64)
    0xCBF29CE484222325#64

end M1Switch
