import M1Switch.Common.Types
import Mathlib.Logic.Function.Basic

/-
  Register state of the Maxwell 3D engine.

  A field of an enumeration type holds whatever 32-bit code
  was last cast to it, so it is kept as that code; the named
  codes follow.  Default field values are the zeroed state
  that a reset starts from.

  Key definitions include:
    * `GpuState3D`
    * `reset`
-/

------
-- Enumeration Codes
------

namespace M1Switch

/- Maximum counts. -/
def MAX_VIEWPORTS : Nat := 16
def MAX_VERTEX_ARRAYS : Nat := 16
def MAX_BLEND_TARGETS : Nat := 8

/- The code held by an enumeration-typed register. -/
abbrev EnumCode := U32

namespace RtFormat

def RGBA8Unorm : EnumCode := 0xD5
def BGRA8Unorm_sRGB : EnumCode := 0xD0
def RGBA16Float : EnumCode := 0xCA
def RGBA32Float : EnumCode := 0xC0
def R32Float : EnumCode := 0xE5
def R16Float : EnumCode := 0xF2
def R8Unorm : EnumCode := 0xF3
def RG8Unorm : EnumCode := 0xEA
def RG16Float : EnumCode := 0xDE
def RG32Float : EnumCode := 0xCB
def RGBA16Unorm : EnumCode := 0xC6

end RtFormat

namespace DepthFormat

def Z32Float : EnumCode := 0x0A
def Z16Unorm : EnumCode := 0x13
def Z24S8Unorm : EnumCode := 0x16
def Z32S8X24Float : EnumCode := 0x19

end DepthFormat

namespace CompareOp

def Never : EnumCode := 1
def Less : EnumCode := 2
def Equal : EnumCode := 3
def Lequal : EnumCode := 4
def Greater : EnumCode := 5
def NotEqual : EnumCode := 6
def Gequal : EnumCode := 7
def Always : EnumCode := 8

end CompareOp

namespace FrontFace

def CW : EnumCode := 0x900
def CCW : EnumCode := 0x901

end FrontFace

namespace CullFace

def Front : EnumCode := 0x404
def Back : EnumCode := 0x405
def FrontAndBack : EnumCode := 0x408

end CullFace

namespace PolygonMode

def Fill : EnumCode := 0x1B02

end PolygonMode

namespace PrimitiveType

def Points : EnumCode := 0
def Lines : EnumCode := 1
def LineStrip : EnumCode := 3
def Triangles : EnumCode := 4
def TriangleStrip : EnumCode := 5
def TriangleFan : EnumCode := 6

end PrimitiveType

namespace IndexFormat

def Uint8 : EnumCode := 0
def Uint16 : EnumCode := 1

end IndexFormat

namespace BlendOp

def Add : EnumCode := 0x8006
def Subtract : EnumCode := 0x800A
def ReverseSubtract : EnumCode := 0x800B
def Min : EnumCode := 0x8007
def Max : EnumCode := 0x8008

end BlendOp

namespace BlendFactor

def Zero : EnumCode := 0
def One : EnumCode := 1
def SrcColor : EnumCode := 0x0300
def OneMinusSrcColor : EnumCode := 0x0301
def SrcAlpha : EnumCode := 0x0302
def OneMinusSrcAlpha : EnumCode := 0x0303
def DstColor : EnumCode := 0x0306
def OneMinusDstColor : EnumCode := 0x0307
def DstAlpha : EnumCode := 0x0304
def OneMinusDstAlpha : EnumCode := 0x0305
def SrcAlphaSaturate : EnumCode := 0x0308
def ConstantColor : EnumCode := 0xC001
def OneMinusConstColor : EnumCode := 0xC002
def ConstantAlpha : EnumCode := 0xC003
def OneMinusConstAlpha : EnumCode := 0xC004

end BlendFactor

namespace StencilOp

def Keep : EnumCode := 1
def Zero : EnumCode := 2
def Replace : EnumCode := 3
def IncrClamp : EnumCode := 4
def DecrClamp : EnumCode := 5
def Invert : EnumCode := 6
def IncrWrap : EnumCode := 7
def DecrWrap : EnumCode := 8

end StencilOp

------
-- Register Groups
------

structure RtState where
  address : U64 := 0
  width : U32 := 0
  height : U32 := 0
  format : EnumCode := 0
  tileMode : U32 := 0
  arrayMode : U32 := 0
  layerStride : U32 := 0
  baseLayer : U32 := 0
deriving DecidableEq

structure ViewportState where
  scaleX : F32Bits := 0
  scaleY : F32Bits := 0
  scaleZ : F32Bits := 0
  translateX : F32Bits := 0
  translateY : F32Bits := 0
  translateZ : F32Bits := 0
  swizzle : U32 := 0
deriving DecidableEq

structure ScissorState where
  enabled : Bool := false
  minX : U32 := 0
  maxX : U32 := 0
  minY : U32 := 0
  maxY : U32 := 0
deriving DecidableEq

structure VertexArrayState where
  address : U64 := 0
  stride : U32 := 0
  divisor : U32 := 0
  enabled : Bool := false
deriving DecidableEq

structure VertexAttribState where
  bufferIndex : U32 := 0
  offset : U32 := 0
  size : U32 := 0
  type : U32 := 0
  isFixed : Bool := false
  isBgra : Bool := false
deriving DecidableEq

structure IndexBufferState where
  address : U64 := 0
  limit : U64 := 0
  count : U32 := 0
  format : EnumCode := 0
deriving DecidableEq

structure DepthTargetState where
  address : U64 := 0
  format : EnumCode := 0
  width : U32 := 0
  height : U32 := 0
  tileMode : U32 := 0
  enabled : Bool := false
deriving DecidableEq

structure BlendState where
  enabled : Bool := false
  colorOp : EnumCode := 0
  srcColor : EnumCode := 0
  dstColor : EnumCode := 0
  alphaOp : EnumCode := 0
  srcAlpha : EnumCode := 0
  dstAlpha : EnumCode := 0
  colorMask : U32 := 0
deriving DecidableEq

structure DepthStencilState where
  depthEnabled : Bool := false
  depthWrite : Bool := false
  depthFunc : EnumCode := 0
  stencilEnable : Bool := false
  stencilFrontFunc : EnumCode := 0
  stencilFrontRef : U32 := 0
  stencilFrontMask : U32 := 0
  stencilFrontWritemask : U32 := 0
  stencilFrontFail : EnumCode := 0
  stencilFrontZfail : EnumCode := 0
  stencilFrontZpass : EnumCode := 0
  stencilTwoSide : Bool := false
  stencilBackFunc : EnumCode := 0
  stencilBackRef : U32 := 0
  stencilBackMask : U32 := 0
  stencilBackWritemask : U32 := 0
  stencilBackFail : EnumCode := 0
  stencilBackZfail : EnumCode := 0
  stencilBackZpass : EnumCode := 0
  depthBoundsEnable : Bool := false
  depthBoundsNear : F32Bits := 0
  depthBoundsFar : F32Bits := 0
deriving DecidableEq

structure ClearState where
  color : Fin 4 → F32Bits := fun _ => 0
  depth : F32Bits := 0
  stencil : U32 := 0
  buffers : U32 := 0

structure ShaderState where
  offset : U64 := 0
  enabled : Bool := false
  stageId : U32 := 0
deriving DecidableEq

structure MultisampleState where
  enable : Bool := false
  sampleMask : U32 := 0
  alphaToCoverage : Bool := false
  alphaToOne : Bool := false
deriving DecidableEq

------
-- The Register File
------

/- All mutable register state of the 3D engine. -/
structure GpuState3D where
  rt : Fin 8 → RtState := fun _ => {}
  rtControl : U32 := 0
  viewports : Fin 16 → ViewportState := fun _ => {}
  viewportTransformEnable : Bool := false
  scissors : Fin 16 → ScissorState := fun _ => {}
  vertexArrays : Fin 16 → VertexArrayState := fun _ => {}
  vertexAttribs : Fin 32 → VertexAttribState := fun _ => {}
  indexBuffer : IndexBufferState := {}
  depthTarget : DepthTargetState := {}
  blend : Fin 8 → BlendState := fun _ => {}
  independentBlend : Bool := false
  blendConst : Fin 4 → F32Bits := fun _ => 0
  depthStencil : DepthStencilState := {}
  clear : ClearState := {}
  shaders : Fin 6 → ShaderState := fun _ => {}
  rasterizerEnable : Bool := false
  primitiveType : EnumCode := 0
  polygonModeFront : EnumCode := 0
  polygonModeBack : EnumCode := 0
  cullFace : EnumCode := 0
  frontFace : EnumCode := 0
  cullEnable : Bool := false
  primitiveRestart : Bool := false
  primitiveRestartIndex : U32 := 0
  depthClamp : Bool := false
  polygonOffsetPoint : Bool := false
  polygonOffsetLine : Bool := false
  polygonOffsetFill : Bool := false
  polygonOffsetFactor : F32Bits := 0
  polygonOffsetUnits : F32Bits := 0
  polygonOffsetClamp : F32Bits := 0
  alphaTestEnable : Bool := false
  alphaTestFunc : EnumCode := 0
  alphaTestRef : F32Bits := 0
  logicOpEnable : Bool := false
  logicOp : EnumCode := 0
  multisample : MultisampleState := {}
  drawArraysFirst : U32 := 0
  drawArraysCount : U32 := 0
  drawElementsFirst : U32 := 0
  drawElementsCount : U32 := 0
  texHeaderPool : U64 := 0
  texHeaderMaxIdx : U32 := 0
  texSamplerPool : U64 := 0
  texSamplerMaxIdx : U32 := 0
  programRegion : U64 := 0

/- `Engine3D::Reset`: zero the state, then set defaults. -/
def GpuState3D.reset : GpuState3D :=
  { rasterizerEnable := true
    polygonModeFront := PolygonMode.Fill
    polygonModeBack := PolygonMode.Fill
    frontFace := FrontFace.CCW
    cullFace := CullFace.Back
    depthStencil :=
      { depthFunc := CompareOp.Less
        depthWrite := true }
    multisample := { sampleMask := 0xFFFFFFFF } }

/- Replace the low word of a 64-bit register. -/
def setLow32 (address : U64) (value : U32) : U64 :=
  (address &&& ~~~0xFFFFFFFF#64) ||| value.setWidth 64

/- Replace the high word of a 64-bit register. -/
def setHigh32 (address : U64) (value : U32) : U64 :=
  (address &&& 0xFFFFFFFF#64) |||
    (value.setWidth 64 <<< 32)

end M1Switch
