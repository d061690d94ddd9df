import M1Switch.Common.Types
import M1Switch.Gpu.Shader.ShaderIr
import Mathlib.Data.Fintype.Basic

/-
  The part of the Metal interface the emulator uses.

  An object of Metal is kept as the descriptor it was made
  from.  What Metal and the shader cross compiler decide on
  their own is a parameter of the model.

  Key definitions include:
    * `MTLRenderPipelineDescriptor`
    * `MTLRenderPassDescriptor`
-/

------
-- Enumerations
------

namespace M1Switch

inductive MTLPrimitiveType where
  | Point
  | Line
  | LineStrip
  | Triangle
  | TriangleStrip
deriving DecidableEq, Repr

inductive MTLIndexType where
  | UInt16
  | UInt32
deriving DecidableEq, Repr

inductive MTLCompareFunction where
  | Never
  | Less
  | Equal
  | LessEqual
  | Greater
  | NotEqual
  | GreaterEqual
  | Always
deriving DecidableEq, Repr

inductive MTLStencilOperation where
  | Keep
  | Zero
  | Replace
  | IncrementClamp
  | DecrementClamp
  | Invert
  | IncrementWrap
  | DecrementWrap
deriving DecidableEq, Repr

inductive MTLBlendFactor where
  | Zero
  | One
  | SourceColor
  | OneMinusSourceColor
  | SourceAlpha
  | OneMinusSourceAlpha
  | DestinationColor
  | OneMinusDestinationColor
  | DestinationAlpha
  | OneMinusDestinationAlpha
  | SourceAlphaSaturated
  | BlendColor
  | OneMinusBlendColor
  | BlendAlpha
  | OneMinusBlendAlpha
deriving DecidableEq, Repr

inductive MTLBlendOperation where
  | Add
  | Subtract
  | ReverseSubtract
  | Min
  | Max
deriving DecidableEq, Repr

inductive MTLCullMode where
  | None
  | Front
  | Back
deriving DecidableEq, Repr

inductive MTLWinding where
  | Clockwise
  | CounterClockwise
deriving DecidableEq, Repr

inductive MTLVertexFormat where
  | Float
  | Float2
  | Float3
  | Float4
  | Int
  | Int2
  | Int3
  | Int4
  | UInt
  | UInt2
  | UInt3
  | UInt4
deriving DecidableEq, Repr

inductive MTLVertexStepFunction where
  | PerVertex
  | PerInstance
deriving DecidableEq, Repr

inductive MTLPixelFormat where
  | Invalid
  | RGBA8Unorm
  | BGRA8Unorm_sRGB
  | RGBA16Float
  | RGBA32Float
  | R32Float
  | R16Float
  | R8Unorm
  | RG8Unorm
  | RG16Float
  | RG32Float
  | RGBA16Unorm
  | Depth16Unorm
  | Depth32Float
  | Depth24Unorm_Stencil8
  | Depth32Float_Stencil8
deriving DecidableEq, Repr

inductive MTLLoadAction where
  | DontCare
  | Load
  | Clear
deriving DecidableEq, Repr

inductive MTLStoreAction where
  | DontCare
  | Store
deriving DecidableEq, Repr

------
-- Pipelines
------

/- A function of a library, by its source and its name. -/
structure MTLFunction where
  source : String
  name : String
deriving DecidableEq, Repr

structure MTLVertexAttribute where
  format : MTLVertexFormat
  offset : U32
  bufferIndex : U32
deriving DecidableEq

structure MTLVertexLayout where
  stride : U32
  stepFunction : MTLVertexStepFunction
deriving DecidableEq

/- Attributes by position; a layout per buffer, if any. -/
structure MTLVertexDescriptor where
  attributes : List MTLVertexAttribute
  layouts : Fin 16 → Option MTLVertexLayout
deriving DecidableEq

/- The blend equation of an attachment. -/
structure MTLBlendDescriptor where
  rgbBlendOperation : MTLBlendOperation
  sourceRGBBlendFactor : MTLBlendFactor
  destinationRGBBlendFactor : MTLBlendFactor
  alphaBlendOperation : MTLBlendOperation
  sourceAlphaBlendFactor : MTLBlendFactor
  destinationAlphaBlendFactor : MTLBlendFactor
deriving DecidableEq, Repr

structure MTLColorWriteMask where
  red : Bool
  green : Bool
  blue : Bool
  alpha : Bool
deriving DecidableEq, Repr

/-
  The first color attachment; `blend` is absent when blending
  is disabled.
-/
structure MTLPipelineColorAttachment where
  pixelFormat : MTLPixelFormat
  blend : Option MTLBlendDescriptor := none
  writeMask : MTLColorWriteMask := ⟨true, true, true, true⟩
deriving DecidableEq, Repr

structure MTLRenderPipelineDescriptor where
  vertexFunction : MTLFunction
  fragmentFunction : MTLFunction
  colorAttachment : MTLPipelineColorAttachment
  depthAttachmentPixelFormat : MTLPixelFormat := .Invalid
  vertexDescriptor : MTLVertexDescriptor
deriving DecidableEq

/- A pipeline state, by the descriptor it was made from. -/
abbrev MTLRenderPipelineState := MTLRenderPipelineDescriptor

------
-- Render Passes And Encoder Arguments
------

/- A wrapper around guest memory. -/
structure MTLBuffer where
  id : Nat
  address : U64
  length : U32
deriving DecidableEq

/- A two-dimensional texture. -/
structure MTLTexture where
  pixelFormat : MTLPixelFormat
  width : U32
  height : U32
deriving DecidableEq

structure MTLAttachment where
  texture : Option MTLTexture := none
  loadAction : MTLLoadAction
  storeAction : MTLStoreAction := .DontCare
deriving DecidableEq

/- Eight color attachments and their clear values. -/
structure MTLRenderPassDescriptor where
  colorAttachments : Fin 8 → MTLAttachment
  clearColor : Fin 4 → F32Bits := fun _ => 0
  depthAttachment : MTLAttachment
  clearDepth : F32Bits := 0x3F800000
  stencilAttachment : MTLAttachment
  clearStencil : U32 := 0

structure MTLViewport where
  originX : Float32
  originY : Float32
  width : Float32
  height : Float32
  znear : Float32
  zfar : Float32

structure MTLScissorRect where
  x : U32
  y : U32
  width : U32
  height : U32
deriving DecidableEq

structure MTLStencilDescriptor where
  stencilCompareFunction : MTLCompareFunction
  stencilFailureOperation : MTLStencilOperation
  depthFailureOperation : MTLStencilOperation
  depthStencilPassOperation : MTLStencilOperation
  readMask : U32
  writeMask : U32
deriving DecidableEq

structure MTLDepthStencilDescriptor where
  depthCompareFunction : MTLCompareFunction
  depthWriteEnabled : Bool
  frontFaceStencil : Option MTLStencilDescriptor := none
  backFaceStencil : Option MTLStencilDescriptor := none
deriving DecidableEq

------
-- The Host
------

/-
  What the emulator asks of its host.  Each field but the last
  two says whether a request succeeds.
-/
structure MetalHost where
  -- a library can be made from the source text
  compilesLibrary : String → Bool
  -- the library of a source text has a function of a name
  hasFunction : String → String → Bool
  createsPipeline : MTLRenderPipelineDescriptor → Bool
  createsTexture : MTLTexture → Bool
  createsDepthStencil : MTLDepthStencilDescriptor → Bool
  -- a newly allocated render pass descriptor
  freshPass : MTLRenderPassDescriptor
  -- SPIR-V to shading language; empty when it fails
  spirvCrossToMSL : List Nat → ShaderStage → String

namespace MetalHost

variable (host : MetalHost)

/- A function of a library made from source text. -/
def newFunction
    (source name : String) : Option MTLFunction :=
  if host.hasFunction source name then some ⟨source, name⟩
  else none

def createRenderPipeline
    (desc : MTLRenderPipelineDescriptor) :
    Option MTLRenderPipelineState :=
  if host.createsPipeline desc then some desc else none

end MetalHost

end M1Switch
