import M1Switch.Gpu.Shader.ShaderIr

/-
  The Maxwell instruction decoder.

  A program is a byte string.  The decoder reads eight bytes
  at the current offset, detects the format from bits 12:5
  and moves on by the size of the instruction, until the end
  of the string or an `EXIT`.  Offsets are 32-bit; a read
  outside the string has no result.

  Key definitions include:
    * `detectFormat`
    * `decodeOne`

  Main results:
    * `decode_isSome`
    * `decode_pcs_increasing`
    * `decode_pc_bound`
-/

------
-- Bit Fields
------

namespace M1Switch

namespace MaxwellDecoder

/- The field of bits `hi` down to `lo`. -/
def bits (v : U64) (hi lo : Nat) : Nat :=
  (v.extractLsb hi lo).toNat

def bit (v : U64) (b : Nat) : Bool :=
  v.getLsbD b

/- Two's complement value of a field of `width` bits. -/
def signExtend (val width : Nat) : Int :=
  if val.testBit (width - 1) then
    (val : Int) - 2 ^ width
  else val

/- The little-endian word of eight bytes. -/
def wordOfBytes (bytes : List U8) : U64 :=
  bytes.foldr
    (fun b w => (w <<< 8) ||| b.setWidth 64) 0

/- Eight bytes at `pc`; no value past the end. -/
def readWord (data : List U8) (pc : Nat) : Option U64 :=
  if pc + 8 ≤ data.length then
    some (wordOfBytes ((data.drop pc).take 8))
  else none

end MaxwellDecoder

------
-- Formats And Opcodes
------

inductive MaxwellFormat where
  | Unknown
  | Alu3In
  | Alu2In
  | Alu1In
  | ISetp
  | FSetp
  | MemoryLoad
  | MemoryStore
  | Texture
  | S2R
  | PredicateReg
  | Branch
  | Sync
  | Exit
deriving DecidableEq, Repr

namespace MaxwellDecoder

def detectFormat (opcodeId : Nat) : MaxwellFormat :=
  match opcodeId with
  -- ALU float
  | 0x00 => .Alu3In
  | 0x01 | 0x02 | 0x03 | 0x04 | 0x05 => .Alu2In
  | 0x06 | 0x07 | 0x08 | 0x09 | 0x0A | 0x0B | 0x0C
  | 0x0D => .Alu1In
  -- ALU integer
  | 0x10 | 0x11 => .Alu3In
  | 0x12 | 0x13 | 0x14 | 0x15 | 0x16 => .Alu2In
  | 0x17 => .ISetp
  | 0x18 | 0x19 | 0x1A => .Alu2In
  | 0x1B => .Alu2In
  | 0x1C | 0x1D | 0x1E | 0x1F => .Alu1In
  -- Type conversion
  | 0x20 | 0x21 | 0x22 => .Alu2In
  -- Compare
  | 0x30 => .FSetp
  | 0x31 => .Alu2In
  -- Memory load
  | 0x40 | 0x41 | 0x42 | 0x43 | 0x44 => .MemoryLoad
  -- Memory store
  | 0x50 | 0x51 | 0x52 | 0x53 => .MemoryStore
  -- Texture
  | 0x60 | 0x61 | 0x62 | 0x63 | 0x64 => .Texture
  -- Special
  | 0x70 => .S2R
  | 0x71 | 0x72 => .PredicateReg
  | 0x73 => .Alu3In
  | 0x74 | 0x75 => .Alu3In
  -- Control flow
  | 0x80 => .Exit
  | 0x81 | 0x82 => .Branch
  | 0x83 | 0x84 => .Sync
  | 0x85 => .Exit
  | 0x86 | 0x87 | 0x88 => .Exit
  | _ => .Unknown

def decodeOpcode
    (opcodeId : Nat)
    (fmt : MaxwellFormat) : ShaderOpcode :=
  match fmt with
  | .Alu3In =>
      match opcodeId with
      | 0x00 => .FMAD
      | 0x10 => .IADD3
      | 0x11 => .IMAD
      | 0x73 => .PRMT
      | 0x74 => .BFE
      | 0x75 => .BFI
      | _ => .FMAD
  | .Alu2In =>
      match opcodeId with
      | 0x01 => .FADD
      | 0x02 => .FMUL
      | 0x03 => .FMAX
      | 0x04 => .FMIN
      | 0x05 => .FSAT
      | 0x12 => .IADD
      | 0x13 => .ISUB
      | 0x14 => .IMUL
      | 0x15 => .IABS
      | 0x16 => .INEG
      | 0x18 => .I2F
      | 0x19 => .I2I
      | 0x1A => .IMNMX
      | 0x1B => .LEA
      | 0x20 => .F2F
      | 0x21 => .F2I
      | 0x22 => .F2F_C
      | 0x31 => .FSET
      | _ => .FADD
  | .Alu1In =>
      match opcodeId with
      | 0x06 => .MUFU
      | 0x07 => .FRCP
      | 0x08 => .FRSQ
      | 0x09 => .FSQRT
      | 0x0A => .FEX2
      | 0x0B => .FLG2
      | 0x0C => .FSIN
      | 0x0D => .FCOS
      | 0x1C => .POPC
      | 0x1D => .FLO
      | 0x1E => .SHL
      | 0x1F => .SHR
      | _ => .MUFU
  | .ISetp => .ISETP
  | .FSetp => .FSETP
  | .MemoryLoad =>
      match opcodeId with
      | 0x40 => .LD
      | 0x41 => .LG
      | 0x42 => .LL
      | 0x43 => .LDS
      | 0x44 => .LDC
      | _ => .LD
  | .MemoryStore =>
      match opcodeId with
      | 0x50 => .ST
      | 0x51 => .STG
      | 0x52 => .STL
      | 0x53 => .STS
      | _ => .ST
  | .Texture =>
      match opcodeId with
      | 0x60 => .TEX
      | 0x61 => .TEXS
      | 0x62 => .TLDS
      | 0x63 => .TLD4
      | 0x64 => .TXQ
      | _ => .TEX
  | .S2R => .S2R
  | .PredicateReg =>
      match opcodeId with
      | 0x71 => .R2P
      | 0x72 => .P2R
      | _ => .R2P
  | .Branch =>
      match opcodeId with
      | 0x81 => .BRA
      | 0x82 => .CALL
      | _ => .BRA
  | .Sync =>
      match opcodeId with
      | 0x83 => .SSY
      | 0x84 => .SYNC
      | _ => .SSY
  | .Exit =>
      if opcodeId = 0x85 then .RET
      else if opcodeId = 0x86 then .KIL
      else if opcodeId = 0x87 then .CONT
      else if opcodeId = 0x88 then .BREAK
      else .EXIT
  | .Unknown => .NOP

end MaxwellDecoder

------
-- Decoded Instructions
------

structure DecodedField where
  gprDest : Nat := 0
  gprSrc0 : Nat := 0
  gprSrc1 : Nat := 0
  gprSrc2 : Nat := 0
  predSrc : Nat := 0
  predDest : Nat := 0
  texIndex : Nat := 0
  samplerIdx : Nat := 0
  memOffset : Nat := 0
  branchTarget : Nat := 0
  srcCount : Nat := 0
  negSrc0 : Bool := false
  negSrc1 : Bool := false
  absSrc0 : Bool := false
  absSrc1 : Bool := false
  saturate : Bool := false
  setsCc : Bool := false
  isFloat : Bool := false
  mufuOp : MufuOp := .COS
  memSpace : MemorySpace := .Generic
deriving DecidableEq, Repr

structure DecodedInst where
  pc : Nat := 0
  size : Nat := 8
  fmt : MaxwellFormat := .Unknown
  opcode : ShaderOpcode := .NOP
  field : DecodedField := {}
deriving DecidableEq, Repr

namespace MaxwellDecoder

def opcodeIdOf (raw0 : U64) : Nat :=
  bits raw0 12 5

/- The fields the ALU formats read. -/
def aluField
    (raw0 : U64)
    (fmt : MaxwellFormat)
    (opcode : ShaderOpcode) : DecodedField :=
  match fmt with
  | .Alu3In =>
      { gprSrc0 := bits raw0 19 13
        gprSrc1 := bits raw0 26 20
        gprSrc2 := bits raw0 33 27
        gprDest := bits raw0 44 39
        negSrc0 := bit raw0 45
        negSrc1 := bit raw0 46
        absSrc0 := bit raw0 47
        absSrc1 := bit raw0 48
        saturate := bit raw0 49
        srcCount := 3 }
  | .Alu2In =>
      { gprSrc0 := bits raw0 19 13
        gprSrc1 := bits raw0 26 20
        gprDest := bits raw0 44 39
        negSrc0 := bit raw0 45
        negSrc1 := bit raw0 46
        absSrc0 := bit raw0 47
        saturate := bit raw0 49
        srcCount := 2 }
  | .Alu1In =>
      { gprSrc0 := bits raw0 19 13
        gprDest := bits raw0 44 39
        srcCount := 1
        mufuOp :=
          if opcode = .MUFU then
            MufuOp.ofCode (bits raw0 54 51)
          else .COS }
  | .ISetp | .FSetp =>
      { gprSrc0 := bits raw0 19 13
        gprSrc1 := bits raw0 26 20
        predDest := bits raw0 42 40
        predSrc := bits raw0 35 33
        negSrc0 := bit raw0 45
        negSrc1 := bit raw0 46
        srcCount := 2
        setsCc := true }
  | _ => {}

def decodeAluFormat
    (raw0 : U64)
    (pc : Nat)
    (fmt : MaxwellFormat) : DecodedInst :=
  let opcode := decodeOpcode (opcodeIdOf raw0) fmt
  { pc := pc
    fmt := fmt
    opcode := opcode
    size := 8
    field :=
      { aluField raw0 fmt opcode with
        isFloat :=
          fmt = .Alu2In ∨ fmt = .Alu3In ∨
            fmt = .Alu1In ∨ fmt = .FSetp } }

/- Memory space numbers of the second word. -/
def memSpaceOf : Nat → MemorySpace
| 0 => .Global
| 1 => .Shared
| 2 => .Local
| 3 => .Constant
| _ => .Generic

def decodeMemoryFormat
    (raw0 raw1 : U64)
    (pc : Nat) : DecodedInst :=
  let opcodeId := opcodeIdOf raw0
  let fmt : MaxwellFormat :=
    if 0x50 ≤ opcodeId then .MemoryStore else .MemoryLoad
  { pc := pc
    size := 16
    fmt := fmt
    opcode := decodeOpcode opcodeId fmt
    field :=
      { gprDest := bits raw0 19 13
        memOffset := bits raw0 34 27
        gprSrc0 := bits raw0 44 39
        memSpace := memSpaceOf (bits raw1 47 45)
        srcCount := 1 } }

def decodeTextureFormat
    (raw0 raw1 : U64)
    (pc : Nat) : DecodedInst :=
  { pc := pc
    size := 16
    fmt := .Texture
    opcode := decodeOpcode (opcodeIdOf raw0) .Texture
    field :=
      { gprDest := bits raw0 19 13
        texIndex := bits raw0 44 39
        samplerIdx := bits raw1 49 44
        gprSrc0 := bits raw0 33 27
        srcCount := 1 } }

/- Target of a branch offset, in 32-bit arithmetic. -/
def branchTargetOf (raw0 : U64) (pc : Nat) : Nat :=
  (((pc : Int) + 8 +
    signExtend (bits raw0 26 13) 14 * 8) % 2 ^ 32).toNat

def decodeBranchFormat
    (raw0 : U64)
    (pc : Nat)
    (fmt : MaxwellFormat) : DecodedInst :=
  { pc := pc
    size := 8
    fmt := fmt
    opcode := decodeOpcode (opcodeIdOf raw0) fmt
    field :=
      { branchTarget := branchTargetOf raw0 pc
        predSrc := bits raw0 35 33
        srcCount := 0 } }

def decodeS2RFormat
    (raw0 : U64)
    (pc : Nat) : DecodedInst :=
  { pc := pc
    size := 8
    fmt := .S2R
    opcode := .S2R
    field :=
      { gprDest := bits raw0 19 13
        gprSrc0 := bits raw0 44 39
        srcCount := 0 } }

def decodeExitFormat
    (raw0 : U64)
    (pc : Nat) : DecodedInst :=
  { pc := pc
    size := 8
    fmt := .Exit
    opcode := decodeOpcode (opcodeIdOf raw0) .Exit }

end MaxwellDecoder

------
-- Conversion To The Representation
------

namespace DecodedInst

/- Opcodes whose first source is a branch target. -/
def hasBranchTarget (op : ShaderOpcode) : Bool :=
  op = .BRA ∨ op = .CALL ∨ op = .SSY ∨ op = .SYNC

/- Opcodes that take a texture operand. -/
def isTexture (op : ShaderOpcode) : Bool :=
  op = .TEX ∨ op = .TEXS ∨ op = .TLDS ∨ op = .TLD4

/- Operands as the field counts give them. -/
def toIrOperands (d : DecodedInst) : ShaderInstruction :=
  let f := d.field
  let dataType : DataType := if f.isFloat then .F32 else .U32
  { opcode := d.opcode
    pc := d.pc
    srcCount := f.srcCount
    dest :=
      if d.opcode = .EXIT ∨ 0 < f.srcCount ∨ f.gprDest ≠ 0
      then
        { ShaderOperand.gpr f.gprDest with
          saturate := f.saturate
          dataType := dataType }
      else {}
    src0 :=
      if 1 ≤ f.srcCount then
        { ShaderOperand.gpr f.gprSrc0 with
          negate := f.negSrc0
          absolute := f.absSrc0
          dataType := dataType
          mufuOp :=
            if d.opcode = .MUFU then f.mufuOp else .SIN }
      else {}
    src1 :=
      if 2 ≤ f.srcCount then
        { ShaderOperand.gpr f.gprSrc1 with
          negate := f.negSrc1
          absolute := f.absSrc1
          dataType := dataType }
      else {}
    src2 :=
      if 3 ≤ f.srcCount then
        { ShaderOperand.gpr f.gprSrc2 with
          dataType := dataType }
      else {}
    predGuard := f.predSrc ≠ 0
    predGuardIndex := f.predSrc
    memSpace := f.memSpace }

/- The special cases override the operands. -/
def toIr (d : DecodedInst) : ShaderInstruction :=
  let f := d.field
  let ir := d.toIrOperands
  if hasBranchTarget d.opcode then
    { ir with
      src0 := ShaderOperand.ofLabel (f.branchTarget / 8)
      srcCount := 1 }
  else if isTexture d.opcode then
    { ir with
      dest := ShaderOperand.gpr f.gprDest
      src0 := ShaderOperand.gpr f.gprSrc0
      src1 := ShaderOperand.texture f.texIndex f.samplerIdx
      srcCount := 2 }
  else if d.opcode = .S2R then
    { ir with
      dest := ShaderOperand.gpr f.gprDest
      src0 := ShaderOperand.special f.gprSrc0
      srcCount := 1 }
  else ir

end DecodedInst

------
-- Program Decoding
------

namespace MaxwellDecoder

/- Formats that read a second word. -/
def readsSecondWord (fmt : MaxwellFormat) : Bool :=
  fmt = .MemoryLoad ∨ fmt = .MemoryStore ∨ fmt = .Texture

/- The second word, for the formats that read one. -/
def secondWord
    (data : List U8)
    (pc : Nat)
    (fmt : MaxwellFormat) : Option U64 :=
  if (pc + 16) % 2 ^ 32 ≤ data.length ∧
      readsSecondWord fmt then
    readWord data (pc + 8)
  else some 0

/- The format's decoder; an unknown one decodes nothing. -/
def decodeFormat
    (raw0 raw1 : U64)
    (pc : Nat)
    (fmt : MaxwellFormat) : DecodedInst :=
  match fmt with
  | .Alu3In | .Alu2In | .Alu1In | .ISetp | .FSetp =>
      decodeAluFormat raw0 pc fmt
  | .MemoryLoad | .MemoryStore =>
      decodeMemoryFormat raw0 raw1 pc
  | .Texture => decodeTextureFormat raw0 raw1 pc
  | .Branch | .Sync => decodeBranchFormat raw0 pc fmt
  | .S2R => decodeS2RFormat raw0 pc
  | .Exit => decodeExitFormat raw0 pc
  | .PredicateReg =>
      { decodeS2RFormat raw0 pc with
        fmt := .PredicateReg
        opcode :=
          decodeOpcode (opcodeIdOf raw0) .PredicateReg }
  | .Unknown => { pc := pc }

/-
  The instruction at `pc`.  An unknown or truncated one keeps
  the default format and size.
-/
def decodeOne
    (data : List U8)
    (pc : Nat) : Option DecodedInst :=
  if data.length < (pc + 8) % 2 ^ 32 then
    some { pc := pc }
  else do
    let raw0 ← readWord data pc
    let fmt := detectFormat (opcodeIdOf raw0)
    let raw1 ← secondWord data pc fmt
    return decodeFormat raw0 raw1 pc fmt

/- The decoding loop from an offset. -/
def decodeLoop (data : List U8) :
    Nat → Nat → Option (List ShaderInstruction)
| 0, _ => none
| fuel + 1, offset =>
    if offset < data.length then do
      let di ← decodeOne data offset
      if di.fmt = .Unknown then
        decodeLoop data fuel ((offset + 8) % 2 ^ 32)
      else if di.opcode = .EXIT then
        return [di.toIr]
      else do
        let rest ←
          decodeLoop data fuel ((offset + di.size) % 2 ^ 32)
        return di.toIr :: rest
    else return []

/- Opcodes that mark a program as sampling textures. -/
def marksTextures (op : ShaderOpcode) : Bool :=
  op = .TEX ∨ op = .TEXS ∨ op = .TLDS

/- Opcodes that mark a program as using varyings. -/
def marksVaryings (op : ShaderOpcode) : Bool :=
  op = .LD ∨ op = .LG ∨ op = .LL ∨ op = .LDS ∨
    op = .ST ∨ op = .STG ∨ op = .STL ∨ op = .STS

/-
  The bytes a call passes: the size argument has 32 bits.
-/
def sizedData (data : List U8) : List U8 :=
  data.take (data.length % 2 ^ 32)

/-
  Decode a whole program.  The errors the decoder keeps are
  those of its context, to which nothing is added.
-/
def decode
    (data : List U8)
    (stage : ShaderStage) : Option ShaderProgram := do
  let bytes := sizedData data
  let insts ← decodeLoop bytes (bytes.length + 1) 0
  return {
    stage := stage
    instructions := insts
    programSize := bytes.length
    hash := ShaderProgram.calculateHash bytes
    usesTextures := insts.any fun i => marksTextures i.opcode
    usesVaryings :=
      insts.any fun i => marksVaryings i.opcode }

end MaxwellDecoder

namespace ShaderExtract

/- Bytes from a pointer onwards. -/
def readBytes
    (region : Nat → U8)
    (start count : Nat) : List U8 :=
  (List.range count).map fun i => region (start + i)

/- End of the first `EXIT` at or behind `i`. -/
def findExit
    (region : Nat → U8)
    (shaderOffset available : Nat) : Nat → Nat → Nat
| 0, _ => available
| fuel + 1, i =>
    if i + 8 ≤ available then
      let raw :=
        MaxwellDecoder.wordOfBytes
          (readBytes region (shaderOffset + i) 8)
      if MaxwellDecoder.bits raw 12 5 = 0x80 then i + 8
      else
        findExit region shaderOffset available fuel (i + 8)
    else available

/- The shader binary at an offset of the program region. -/
def extractShader
    (region : Option (Nat → U8))
    (regionSize shaderOffset : Nat)
    (maxSize : Nat) : List U8 :=
  match region with
  | none => []
  | some bytes =>
      if regionSize = 0 ∨ regionSize ≤ shaderOffset then []
      else
        let available :=
          min (regionSize - shaderOffset) maxSize
        readBytes bytes shaderOffset
          (findExit bytes shaderOffset available
            available 0)

end ShaderExtract

------
-- Program Layout
------

namespace MaxwellDecoder

variable {data : List U8} {pc : Nat} {stage : ShaderStage}
variable {p : ShaderProgram}

/- A word is read inside the string only. -/
theorem readWord_eq_some
    {w : U64}
    (hRead : readWord data pc = some w) :
    pc + 8 ≤ data.length := by
  unfold readWord at hRead
  by_contra hEnd
  simp [hEnd] at hRead

theorem readWord_isSome
    (hEnd : pc + 8 ≤ data.length) :
    (readWord data pc).isSome := by
  simp [readWord, hEnd]

/- Conversion keeps the offset. -/
@[simp] theorem pc_toIr (d : DecodedInst) :
    d.toIr.pc = d.pc := by
  unfold DecodedInst.toIr
  split_ifs <;> rfl

/- Conversion keeps the opcode. -/
@[simp] theorem opcode_toIr (d : DecodedInst) :
    d.toIr.opcode = d.opcode := by
  unfold DecodedInst.toIr
  split_ifs <;> rfl

/- A format's decoder keeps the offset. -/
theorem pc_decodeFormat
    (raw0 raw1 : U64)
    (pc : Nat)
    (fmt : MaxwellFormat) :
    (decodeFormat raw0 raw1 pc fmt).pc = pc := by
  cases fmt <;> rfl

theorem fmt_decodeFormat
    (raw0 raw1 : U64)
    (pc : Nat) :
    (decodeFormat raw0 raw1 pc
      (detectFormat (opcodeIdOf raw0))).fmt =
        detectFormat (opcodeIdOf raw0) := by
  generalize hId : opcodeIdOf raw0 = id
  unfold detectFormat
  split <;>
    simp [decodeFormat, decodeAluFormat, decodeMemoryFormat,
      decodeTextureFormat, decodeBranchFormat,
      decodeS2RFormat, decodeExitFormat, hId]

/- The opcodes a format decodes to. -/
def opcodesOf : MaxwellFormat → List ShaderOpcode
| .Alu3In => [.FMAD, .IADD3, .IMAD, .PRMT, .BFE, .BFI]
| .Alu2In =>
    [.FADD, .FMUL, .FMAX, .FMIN, .FSAT, .IADD, .ISUB, .IMUL,
      .IABS, .INEG, .I2F, .I2I, .IMNMX, .LEA, .F2F, .F2I,
      .F2F_C, .FSET]
| .Alu1In =>
    [.MUFU, .FRCP, .FRSQ, .FSQRT, .FEX2, .FLG2, .FSIN, .FCOS,
      .POPC, .FLO, .SHL, .SHR]
| .ISetp => [.ISETP]
| .FSetp => [.FSETP]
| .MemoryLoad => [.LD, .LG, .LL, .LDS, .LDC]
| .MemoryStore => [.ST, .STG, .STL, .STS]
| .Texture => [.TEX, .TEXS, .TLDS, .TLD4, .TXQ]
| .S2R => [.S2R]
| .PredicateReg => [.R2P, .P2R]
| .Branch => [.BRA, .CALL]
| .Sync => [.SSY, .SYNC]
| .Exit => [.RET, .KIL, .CONT, .BREAK, .EXIT]
| .Unknown => [.NOP]

theorem bits_lt (v : U64) (hi lo : Nat) :
    bits v hi lo < 2 ^ (hi - lo + 1) :=
  (v.extractLsb hi lo).isLt

theorem decodeOpcode_mem (id : Nat) (fmt : MaxwellFormat) :
    decodeOpcode id fmt ∈ opcodesOf fmt := by
  cases fmt <;> unfold decodeOpcode <;> dsimp only <;>
    (try split) <;> (try split_ifs) <;> decide

theorem opcode_decodeFormat_eq
    (raw0 raw1 : U64)
    (pc : Nat) :
    (decodeFormat raw0 raw1 pc
      (detectFormat (opcodeIdOf raw0))).opcode =
        decodeOpcode (opcodeIdOf raw0)
          (detectFormat (opcodeIdOf raw0)) := by
  generalize hId : opcodeIdOf raw0 = id
  unfold detectFormat
  split <;>
    simp [decodeFormat, decodeAluFormat, decodeMemoryFormat,
      decodeTextureFormat, decodeBranchFormat,
      decodeS2RFormat, decodeExitFormat, decodeOpcode, hId]

theorem opcode_decodeFormat
    (raw0 raw1 : U64)
    (pc : Nat) :
    (decodeFormat raw0 raw1 pc
      (detectFormat (opcodeIdOf raw0))).opcode ∈
        opcodesOf (detectFormat (opcodeIdOf raw0)) := by
  rw [opcode_decodeFormat_eq]
  exact decodeOpcode_mem _ _

/- Instructions of two words are those that read both. -/
theorem size_decodeFormat
    (raw0 raw1 : U64)
    (pc : Nat)
    (fmt : MaxwellFormat) :
    (decodeFormat raw0 raw1 pc fmt).size =
      if readsSecondWord fmt then 16 else 8 := by
  cases fmt <;> rfl

/- An offset behind a second word does not wrap. -/
theorem secondWord_spec
    {fmt : MaxwellFormat}
    {raw1 : U64}
    (hLength : data.length < 2 ^ 32)
    (hEnd : pc + 8 ≤ data.length)
    (hReads : readsSecondWord fmt)
    (hRaw1 : secondWord data pc fmt = some raw1) :
    pc + 16 < 2 ^ 32 := by
  unfold secondWord at hRaw1
  by_cases hFits : (pc + 16) % 2 ^ 32 ≤ data.length
  · rw [if_pos ⟨hFits, hReads⟩] at hRaw1
    have := readWord_eq_some hRaw1
    omega
  · omega

/-
  A recognised instruction lies inside the string, and the
  offset behind it does not wrap.
-/
theorem decodeOne_spec
    {d : DecodedInst}
    (hLength : data.length < 2 ^ 32)
    (hDecode : decodeOne data pc = some d)
    (hKnown : d.fmt ≠ .Unknown) :
    d.pc = pc ∧ pc + 8 ≤ data.length ∧ 8 ≤ d.size ∧
      pc + d.size < 2 ^ 32 := by
  unfold decodeOne at hDecode
  split_ifs at hDecode with hShort
  · cases hDecode
    exact absurd rfl hKnown
  · simp only [bind, Option.bind_eq_some_iff, pure,
      Option.some.injEq] at hDecode
    rcases hDecode with ⟨raw0, hRaw0, raw1, hRaw1, hD⟩
    have hEnd := readWord_eq_some hRaw0
    rw [← hD, pc_decodeFormat, size_decodeFormat]
    refine ⟨rfl, hEnd, ?_, ?_⟩
    · split_ifs <;> omega
    · split_ifs with hReads
      · exact secondWord_spec hLength hEnd hReads hRaw1
      · omega

/- The offset of the next slot does not wrap. -/
theorem decodeOne_next
    {d : DecodedInst}
    (hLength : data.length < 2 ^ 32)
    (hPc : pc < data.length)
    (hDecode : decodeOne data pc = some d) :
    pc + 8 < 2 ^ 32 := by
  unfold decodeOne at hDecode
  split_ifs at hDecode with hShort
  · omega
  · simp only [bind, Option.bind_eq_some_iff] at hDecode
    rcases hDecode with ⟨raw0, hRaw0, _⟩
    have := readWord_eq_some hRaw0
    omega

/-
  The instructions of a program start at increasing offsets,
  each inside the string.
-/
theorem decodeLoop_layout
    (hLength : data.length < 2 ^ 32) :
    ∀ (fuel offset : Nat) (insts : List ShaderInstruction),
      decodeLoop data fuel offset = some insts →
        insts.Pairwise (fun a b => a.pc < b.pc) ∧
          ∀ inst ∈ insts,
            offset ≤ inst.pc ∧
              inst.pc + 8 ≤ data.length := by
  intro fuel
  induction fuel with
  | zero =>
      intro offset insts hLoop
      simp [decodeLoop] at hLoop
  | succ fuel ih =>
      intro offset insts hLoop
      unfold decodeLoop at hLoop
      split_ifs at hLoop with hOffset
      · simp only [bind, Option.bind_eq_some_iff]
          at hLoop
        rcases hLoop with ⟨d, hOne, hRest⟩
        split_ifs at hRest with hUnknown hExit
        · -- An unknown instruction: the tail starts behind it.
          have hNext := decodeOne_next hLength hOffset hOne
          rw [Nat.mod_eq_of_lt hNext] at hRest
          have hTail := ih _ _ hRest
          refine ⟨hTail.1, ?_⟩
          intro inst hInst
          have hIn := hTail.2 inst hInst
          omega
        · have hSpec := decodeOne_spec hLength hOne hUnknown
          cases hRest
          simp [hSpec]
        · have hSpec := decodeOne_spec hLength hOne hUnknown
          simp only [Option.bind_eq_some_iff, pure,
            Option.some.injEq] at hRest
          rcases hRest with ⟨rest, hRest, hInsts⟩
          rw [Nat.mod_eq_of_lt hSpec.2.2.2] at hRest
          have hTail := ih _ _ hRest
          subst hInsts
          refine ⟨?_, ?_⟩
          · refine List.Pairwise.cons ?_ hTail.1
            intro inst hInst
            have := (hTail.2 inst hInst).1
            simp only [pc_toIr, hSpec.1]
            omega
          · intro inst hInst
            rcases List.mem_cons.mp hInst with hHead | hMem
            · subst hHead
              simp [hSpec]
            · have := hTail.2 inst hMem
              omega
      · cases hLoop
        simp

/- The bytes passed number less than `2 ^ 32`. -/
theorem length_sizedData (data : List U8) :
    (sizedData data).length < 2 ^ 32 := by
  unfold sizedData
  rw [List.length_take]
  have := Nat.mod_lt data.length (show 0 < 2 ^ 32 by decide)
  omega

/- Shorter strings are passed whole. -/
theorem sizedData_of_lt
    (hLength : data.length < 2 ^ 32) :
    sizedData data = data := by
  unfold sizedData
  rw [Nat.mod_eq_of_lt hLength, List.take_length]

/- The loop behind a decoded program. -/
theorem decode_loop
    (hDecode : decode data stage = some p) :
    decodeLoop (sizedData data)
      ((sizedData data).length + 1) 0 =
        some p.instructions := by
  unfold decode at hDecode
  simp only [bind, Option.bind_eq_some_iff, pure,
    Option.some.injEq] at hDecode
  rcases hDecode with ⟨insts, hLoop, hP⟩
  rw [hLoop, ← hP]

/- Offsets increase along a decoded program. -/
theorem decode_pcs_increasing
    (hDecode : decode data stage = some p) :
    p.instructions.Pairwise (fun a b => a.pc < b.pc) :=
  (decodeLoop_layout (length_sizedData data) _ _ _
    (decode_loop hDecode)).1

/- The slot behind a decoded instruction has an offset. -/
theorem decode_pc_bound
    (hDecode : decode data stage = some p) :
    ∀ inst ∈ p.instructions, inst.pc + 8 < 2 ^ 32 := by
  intro inst hInst
  have hLength := length_sizedData data
  have := (decodeLoop_layout hLength _ _ _
    (decode_loop hDecode)).2 inst hInst
  omega

------
-- Totality
------

/- No read leaves a string that ends below the last slot. -/
theorem decodeOne_isSome
    (hLength : data.length < 2 ^ 32 - 8)
    (hPc : pc < data.length) :
    (decodeOne data pc).isSome := by
  unfold decodeOne
  split_ifs with hShort
  · rfl
  · have hEnd : pc + 8 ≤ data.length := by omega
    rcases Option.isSome_iff_exists.mp
      (readWord_isSome hEnd) with ⟨raw0, hRaw0⟩
    have hSecond :
        (secondWord data pc
          (detectFormat (opcodeIdOf raw0))).isSome := by
      unfold secondWord
      split_ifs with hReads
      · apply readWord_isSome
        omega
      · rfl
    rcases Option.isSome_iff_exists.mp hSecond with
      ⟨raw1, hRaw1⟩
    simp [hRaw0, hRaw1]

/- The loop ends within its fuel. -/
theorem decodeLoop_isSome
    (hLength : data.length < 2 ^ 32 - 8) :
    ∀ fuel offset : Nat,
      data.length < fuel + offset →
        (decodeLoop data fuel offset).isSome ∨ fuel = 0 := by
  intro fuel
  induction fuel with
  | zero =>
      intro offset _
      exact Or.inr rfl
  | succ fuel ih =>
      intro offset hFuel
      left
      unfold decodeLoop
      split_ifs with hOffset
      · rcases Option.isSome_iff_exists.mp
          (decodeOne_isSome hLength hOffset) with ⟨d, hOne⟩
        have hWide : data.length < 2 ^ 32 := by omega
        have hNext := decodeOne_next hWide hOffset hOne
        simp only [hOne, bind, Option.bind_some]
        split_ifs with hUnknown hExit
        · rw [Nat.mod_eq_of_lt hNext]
          have hTail := ih (offset + 8) (by omega)
          rcases hTail with hTail | hZero
          · exact hTail
          · omega
        · rfl
        · have hSpec := decodeOne_spec hWide hOne hUnknown
          rw [Nat.mod_eq_of_lt hSpec.2.2.2]
          have hTail := ih (offset + d.size) (by omega)
          rcases hTail with hTail | hZero
          · rcases Option.isSome_iff_exists.mp hTail with
              ⟨rest, hRest⟩
            simp [hRest]
          · omega
      · rfl

/-
  Decoding returns a program on every byte string that ends
  below the last 32-bit slot.
-/
theorem decode_isSome
    (data : List U8)
    (stage : ShaderStage)
    (hLength : data.length < 2 ^ 32 - 8) :
    (decode data stage).isSome := by
  have hSized : sizedData data = data :=
    sizedData_of_lt (by omega)
  have hLoop :=
    decodeLoop_isSome hLength (data.length + 1) 0 (by omega)
  rcases hLoop with hLoop | hZero
  · rcases Option.isSome_iff_exists.mp hLoop with
      ⟨insts, hInsts⟩
    simp [decode, hSized, hInsts]
  · omega

end MaxwellDecoder

end M1Switch
