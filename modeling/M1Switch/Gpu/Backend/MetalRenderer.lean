import M1Switch.Gpu.Shader.ShaderManager
import M1Switch.Gpu.StateTracker
import M1Switch.Memory.Memory

/-
  The Metal renderer: one frame of queued draws.

  All draws of a frame are encoded from the registers the
  tracker holds when the frame is rendered.  Draws are grouped
  in batches, each with a render pass and a pipeline of its
  own.

  Key definitions include:
    * `EncoderState`
    * `MetalRenderer`
-/

------
-- Register Codes To Metal
------

namespace M1Switch

namespace MetalRenderer

/- The entry of a code, or a default. -/
def fromTable
    {α : Type}
    (table : List (EnumCode × α))
    (default : α)
    (code : EnumCode) : α :=
  (table.lookup code).getD default

def toMetalPrimitive : EnumCode → MTLPrimitiveType :=
  fromTable
    [(PrimitiveType.Points, .Point),
      (PrimitiveType.Lines, .Line),
      (PrimitiveType.LineStrip, .LineStrip),
      (PrimitiveType.Triangles, .Triangle),
      (PrimitiveType.TriangleStrip, .TriangleStrip),
      (PrimitiveType.TriangleFan, .TriangleStrip)]
    .Triangle

def toMetalCompare : EnumCode → MTLCompareFunction :=
  fromTable
    [(CompareOp.Never, .Never),
      (CompareOp.Less, .Less),
      (CompareOp.Equal, .Equal),
      (CompareOp.Lequal, .LessEqual),
      (CompareOp.Greater, .Greater),
      (CompareOp.NotEqual, .NotEqual),
      (CompareOp.Gequal, .GreaterEqual),
      (CompareOp.Always, .Always)]
    .Always

/- Component counts other than 1 to 4 fall through. -/
def toMetalVertexFormat (size type : U32) : MTLVertexFormat :=
  if type = 0 then
    fromTable [(1, .Float), (2, .Float2), (3, .Float3),
      (4, .Float4)] .Float4 size
  else if type = 1 then
    fromTable [(1, .Int), (2, .Int2), (3, .Int3), (4, .Int4)]
      .Float4 size
  else if type = 2 then
    fromTable [(1, .UInt), (2, .UInt2), (3, .UInt3),
      (4, .UInt4)] .Float4 size
  else .Float4

def toMetalBlendFactor : EnumCode → MTLBlendFactor :=
  fromTable
    [(BlendFactor.Zero, .Zero),
      (BlendFactor.One, .One),
      (BlendFactor.SrcColor, .SourceColor),
      (BlendFactor.OneMinusSrcColor, .OneMinusSourceColor),
      (BlendFactor.SrcAlpha, .SourceAlpha),
      (BlendFactor.OneMinusSrcAlpha, .OneMinusSourceAlpha),
      (BlendFactor.DstColor, .DestinationColor),
      (BlendFactor.OneMinusDstColor,
        .OneMinusDestinationColor),
      (BlendFactor.DstAlpha, .DestinationAlpha),
      (BlendFactor.OneMinusDstAlpha,
        .OneMinusDestinationAlpha),
      (BlendFactor.SrcAlphaSaturate, .SourceAlphaSaturated),
      (BlendFactor.ConstantColor, .BlendColor),
      (BlendFactor.OneMinusConstColor, .OneMinusBlendColor),
      (BlendFactor.ConstantAlpha, .BlendAlpha),
      (BlendFactor.OneMinusConstAlpha, .OneMinusBlendAlpha)]
    .One

def toMetalBlendOp : EnumCode → MTLBlendOperation :=
  fromTable
    [(BlendOp.Add, .Add),
      (BlendOp.Subtract, .Subtract),
      (BlendOp.ReverseSubtract, .ReverseSubtract),
      (BlendOp.Min, .Min),
      (BlendOp.Max, .Max)]
    .Add

def toMetalStencilOp : EnumCode → MTLStencilOperation :=
  fromTable
    [(StencilOp.Keep, .Keep),
      (StencilOp.Zero, .Zero),
      (StencilOp.Replace, .Replace),
      (StencilOp.IncrClamp, .IncrementClamp),
      (StencilOp.DecrClamp, .DecrementClamp),
      (StencilOp.Invert, .Invert),
      (StencilOp.IncrWrap, .IncrementWrap),
      (StencilOp.DecrWrap, .DecrementWrap)]
    .Keep

def rtFormatToMetal : EnumCode → MTLPixelFormat :=
  fromTable
    [(RtFormat.RGBA8Unorm, .RGBA8Unorm),
      (RtFormat.BGRA8Unorm_sRGB, .BGRA8Unorm_sRGB),
      (RtFormat.RGBA16Float, .RGBA16Float),
      (RtFormat.RGBA32Float, .RGBA32Float),
      (RtFormat.R32Float, .R32Float),
      (RtFormat.R16Float, .R16Float),
      (RtFormat.R8Unorm, .R8Unorm),
      (RtFormat.RG8Unorm, .RG8Unorm),
      (RtFormat.RG16Float, .RG16Float),
      (RtFormat.RG32Float, .RG32Float),
      (RtFormat.RGBA16Unorm, .RGBA16Unorm)]
    .BGRA8Unorm_sRGB

def depthFormatToMetal : EnumCode → MTLPixelFormat :=
  fromTable
    [(DepthFormat.Z16Unorm, .Depth16Unorm),
      (DepthFormat.Z24S8Unorm, .Depth24Unorm_Stencil8),
      (DepthFormat.Z32S8X24Float, .Depth32Float_Stencil8)]
    .Depth32Float

def toMetalCullMode : EnumCode → MTLCullMode :=
  fromTable
    [(CullFace.Front, .Front),
      (CullFace.Back, .Back),
      (CullFace.FrontAndBack, .Front)]
    .None

end MetalRenderer

------
-- Encoder State
------

/- What has been set on an encoder since it was made. -/
structure EncoderState where
  pipeline : Option MTLRenderPipelineState := none
  viewport : Option MTLViewport := none
  scissor : Option MTLScissorRect := none
  blendColor : Option (Fin 4 → F32Bits) := none
  depthStencil : Option MTLDepthStencilDescriptor := none
  stencilReference : Option (U32 × U32) := none
  cullMode : Option MTLCullMode := none
  frontFacing : Option MTLWinding := none

namespace MetalRenderer

/- The value of a floating-point register. -/
def f32 (bits : F32Bits) : Float32 :=
  Float32.ofBits (UInt32.ofBitVec bits)

/- At least one unit of length. -/
def atLeastOne (x : Float32) : Float32 :=
  if x < 1 then 1 else x

/- The viewport to set, if any. -/
def viewportOf (s : GpuState3D) : Option MTLViewport :=
  let vp := s.viewports 0
  if s.viewportTransformEnable ∧ f32 vp.scaleX > 0 then
    some
      { originX := f32 vp.translateX - f32 vp.scaleX
        originY := f32 vp.translateY - f32 vp.scaleY
        width := atLeastOne (f32 vp.scaleX * 2)
        height := atLeastOne (f32 vp.scaleY * 2)
        znear := 0
        zfar := 1 }
  else none

/- What is not set keeps its value on the encoder. -/
def applyViewport
    (s : GpuState3D)
    (enc : EncoderState) : EncoderState :=
  { enc with viewport := (viewportOf s).or enc.viewport }

def scissorOf (s : GpuState3D) : Option MTLScissorRect :=
  let sc := s.scissors 0
  if sc.enabled then
    let width := sc.maxX - sc.minX
    let height := sc.maxY - sc.minY
    some
      { x := sc.minX
        y := sc.minY
        width := if width < 1 then 1 else width
        height := if height < 1 then 1 else height }
  else none

def applyScissor
    (s : GpuState3D)
    (enc : EncoderState) : EncoderState :=
  { enc with scissor := (scissorOf s).or enc.scissor }

def blendColorOf (s : GpuState3D) :
    Option (Fin 4 → F32Bits) :=
  if (s.blend 0).enabled then some s.blendConst else none

def applyBlend
    (s : GpuState3D)
    (enc : EncoderState) : EncoderState :=
  { enc with
    blendColor := (blendColorOf s).or enc.blendColor }

def frontStencil
    (ds : DepthStencilState) : MTLStencilDescriptor :=
  { stencilCompareFunction := toMetalCompare ds.stencilFrontFunc
    stencilFailureOperation :=
      toMetalStencilOp ds.stencilFrontFail
    depthFailureOperation :=
      toMetalStencilOp ds.stencilFrontZfail
    depthStencilPassOperation :=
      toMetalStencilOp ds.stencilFrontZpass
    readMask := ds.stencilFrontMask
    writeMask := ds.stencilFrontWritemask }

def backStencil
    (ds : DepthStencilState) : MTLStencilDescriptor :=
  { stencilCompareFunction := toMetalCompare ds.stencilBackFunc
    stencilFailureOperation :=
      toMetalStencilOp ds.stencilBackFail
    depthFailureOperation :=
      toMetalStencilOp ds.stencilBackZfail
    depthStencilPassOperation :=
      toMetalStencilOp ds.stencilBackZpass
    readMask := ds.stencilBackMask
    writeMask := ds.stencilBackWritemask }

/- The depth and stencil state of the registers. -/
def depthStencilDescriptor
    (ds : DepthStencilState) : MTLDepthStencilDescriptor :=
  { depthCompareFunction :=
      if ds.depthEnabled then toMetalCompare ds.depthFunc
      else .Always
    depthWriteEnabled := ds.depthWrite
    frontFaceStencil :=
      if ds.stencilEnable then some (frontStencil ds)
      else none
    backFaceStencil :=
      if ds.stencilEnable then
        some (if ds.stencilTwoSide then backStencil ds
          else frontStencil ds)
      else none }

/- The state made at start-up, for when none can be made. -/
def defaultDepthStencil : MTLDepthStencilDescriptor :=
  { depthCompareFunction := .Less
    depthWriteEnabled := true }

/- The state to set; none if start-up could make none either. -/
def depthStencilOf
    (host : MetalHost)
    (ds : DepthStencilState) :
    Option MTLDepthStencilDescriptor :=
  if host.createsDepthStencil (depthStencilDescriptor ds) then
    some (depthStencilDescriptor ds)
  else if host.createsDepthStencil defaultDepthStencil then
    some defaultDepthStencil
  else none

/- References go with the state made for the registers. -/
def stencilReferenceOf
    (host : MetalHost)
    (ds : DepthStencilState) : Option (U32 × U32) :=
  if host.createsDepthStencil (depthStencilDescriptor ds) ∧
      ds.stencilEnable then
    some (ds.stencilFrontRef,
      if ds.stencilTwoSide then ds.stencilBackRef
      else ds.stencilFrontRef)
  else none

def applyDepthStencil
    (host : MetalHost)
    (s : GpuState3D)
    (enc : EncoderState) : EncoderState :=
  { enc with
    depthStencil :=
      (depthStencilOf host s.depthStencil).or enc.depthStencil
    stencilReference :=
      (stencilReferenceOf host s.depthStencil).or
        enc.stencilReference }

def cullModeOf (s : GpuState3D) : MTLCullMode :=
  if s.cullEnable then toMetalCullMode s.cullFace else .None

def frontFacingOf (s : GpuState3D) : Option MTLWinding :=
  if s.cullEnable then
    some
      (if s.frontFace = FrontFace.CW then .Clockwise
        else .CounterClockwise)
  else none

def applyCulling
    (s : GpuState3D)
    (enc : EncoderState) : EncoderState :=
  { enc with
    cullMode := some (cullModeOf s)
    frontFacing := (frontFacingOf s).or enc.frontFacing }

/- The state set for every draw. -/
def applyState
    (host : MetalHost)
    (s : GpuState3D)
    (enc : EncoderState) : EncoderState :=
  applyCulling s
    (applyDepthStencil host s
      (applyBlend s (applyScissor s (applyViewport s enc))))

end MetalRenderer

------
-- Vertex Input
------

/- A guest buffer bound to a slot. -/
structure VertexBinding where
  slot : Fin 16
  address : U64
  size : U32
deriving DecidableEq

namespace MetalRenderer

/- An array that can be read. -/
def arrayActive (va : VertexArrayState) : Bool :=
  va.enabled && va.stride != 0

/- The attribute of a slot, unless it is skipped. -/
def vertexAttribute
    (s : GpuState3D)
    (attr : VertexAttribState) : Option MTLVertexAttribute :=
  if attr.isFixed ∨ attr.size = 0 then none
  else if hIdx : attr.bufferIndex.toNat < 16 then
    if arrayActive (s.vertexArrays ⟨_, hIdx⟩) then
      some
        { format := toMetalVertexFormat attr.size attr.type
          offset := attr.offset
          bufferIndex := attr.bufferIndex }
    else none
  else none

def vertexLayout (va : VertexArrayState) :
    Option MTLVertexLayout :=
  if arrayActive va then
    some
      { stride := va.stride
        stepFunction :=
          if va.divisor ≠ 0 then .PerInstance
          else .PerVertex }
  else none

/- Without attributes, the minimal layout. -/
def buildVertexDescriptor (s : GpuState3D) :
    MTLVertexDescriptor :=
  let attributes :=
    (List.finRange 32).filterMap fun i =>
      vertexAttribute s (s.vertexAttribs i)
  if attributes = [] then
    ShaderManager.minimalVertexDescriptor
  else
    { attributes := attributes
      layouts := fun i => vertexLayout (s.vertexArrays i) }

/- Sizes are products of 32-bit integers. -/
def bufferSize (stride count : U32) : U32 :=
  let size := stride * count
  if size = 0 then stride * 0x10000 else size

/- The buffers asked for by a draw of `count` vertices. -/
def vertexBindings
    (s : GpuState3D)
    (count : U32) : List VertexBinding :=
  let count := if count = 0 then 3 else count
  (List.finRange 16).filterMap fun i =>
    let va := s.vertexArrays i
    if va.enabled ∧ va.address ≠ 0 ∧ va.stride ≠ 0 then
      some ⟨i, va.address, bufferSize va.stride count⟩
    else none

end MetalRenderer

------
-- The Renderer
------

/- What the renderer keeps between frames. -/
structure MetalRenderer where
  fallbackPipeline : MTLRenderPipelineState
  gamePipeline : Option MTLRenderPipelineState := none
  shadersCompiled : Bool := false
  lastProgramRegion : U64 := 0
  -- offsets of stage 0 and of stage 5
  lastShaderOffsets : U64 × U64 := (0, 0)
  vertResult : ShaderCompileResult := {}
  fragResult : ShaderCompileResult := {}
  rtTextures : Fin 8 → Option MTLTexture := fun _ => none
  depthTexture : Option MTLTexture := none
  rtCount : Nat := 0
  rtActive : Bool := false
  pipelineCache : U64 → Option MTLRenderPipelineState :=
    fun _ => none

/- The tracker, guest memory, shaders and the renderer. -/
structure Gpu where
  tracker : StateTracker
  memory : Memory
  shaderMgr : ShaderManager
  renderer : MetalRenderer

namespace MetalRenderer

/- The texture a render target asks for. -/
def rtTexture (rt : RtState) : Option MTLTexture :=
  if rt.address = 0 ∨ rt.width = 0 ∨ rt.height = 0 then none
  else
    some
      { pixelFormat := rtFormatToMetal rt.format
        width := rt.width
        height := rt.height }

def depthTargetTexture (dt : DepthTargetState) :
    Option MTLTexture :=
  if dt.enabled ∧ dt.address ≠ 0 ∧ dt.width ≠ 0 ∧
      dt.height ≠ 0 then
    some
      { pixelFormat := depthFormatToMetal dt.format
        width := dt.width
        height := dt.height }
  else none

/- Keep a texture that fits; else make one or have none. -/
def resolveTexture
    (host : MetalHost)
    (current wanted : Option MTLTexture) :
    Option MTLTexture :=
  match wanted with
  | none => none
  | some texture =>
      if current = some texture then current
      else if host.createsTexture texture then some texture
      else none

/- One behind the last render target with a texture. -/
def countTextures (textures : Fin 8 → Option MTLTexture) :
    Nat :=
  (List.finRange 8).foldl
    (fun count i =>
      if (textures i).isSome then i.val + 1 else count) 0

def resolveRenderTargets
    (host : MetalHost)
    (r : MetalRenderer)
    (s : GpuState3D) : MetalRenderer :=
  let textures := fun i =>
    resolveTexture host (r.rtTextures i) (rtTexture (s.rt i))
  { r with
    rtTextures := textures
    rtCount := countTextures textures
    rtActive :=
      (List.finRange 8).any fun i => (textures i).isSome
    depthTexture :=
      resolveTexture host r.depthTexture
        (depthTargetTexture s.depthTarget) }

/- Draws go to a render target, not to the screen. -/
def isRtPath (r : MetalRenderer) : Bool :=
  r.rtActive && (r.rtTextures 0).isSome

------
-- Pipelines
------

def blendDescriptor (blend : BlendState) :
    Option MTLBlendDescriptor :=
  if blend.enabled then
    some
      { rgbBlendOperation := toMetalBlendOp blend.colorOp
        sourceRGBBlendFactor :=
          toMetalBlendFactor blend.srcColor
        destinationRGBBlendFactor :=
          toMetalBlendFactor blend.dstColor
        alphaBlendOperation := toMetalBlendOp blend.alphaOp
        sourceAlphaBlendFactor :=
          toMetalBlendFactor blend.srcAlpha
        destinationAlphaBlendFactor :=
          toMetalBlendFactor blend.dstAlpha }
  else none

def colorWriteMask (mask : U32) : MTLColorWriteMask :=
  ⟨mask.getLsbD 0, mask.getLsbD 1, mask.getLsbD 2,
    mask.getLsbD 3⟩

/- The descriptor of a pipeline for the registers. -/
def pipelineDescriptor
    (s : GpuState3D)
    (vertFn fragFn : MTLFunction)
    (colorFormat depthFormat : MTLPixelFormat)
    (blend : BlendState) : MTLRenderPipelineDescriptor :=
  { vertexFunction := vertFn
    fragmentFunction := fragFn
    colorAttachment :=
      { pixelFormat := colorFormat
        blend := blendDescriptor blend
        writeMask := colorWriteMask blend.colorMask }
    depthAttachmentPixelFormat := depthFormat
    vertexDescriptor := buildVertexDescriptor s }

def createPipelineWithBlend
    (host : MetalHost)
    (s : GpuState3D)
    (vertFn fragFn : Option MTLFunction)
    (colorFormat depthFormat : MTLPixelFormat)
    (blend : BlendState) : Option MTLRenderPipelineState :=
  match vertFn, fragFn with
  | some v, some f =>
      host.createRenderPipeline
        (pipelineDescriptor s v f colorFormat depthFormat
          blend)
  | _, _ => none

/- Pixel formats of the first color and the depth target. -/
def colorFormat
    (r : MetalRenderer)
    (s : GpuState3D) : MTLPixelFormat :=
  if r.isRtPath then rtFormatToMetal (s.rt 0).format
  else .BGRA8Unorm_sRGB

def depthFormat (r : MetalRenderer) : MTLPixelFormat :=
  match r.depthTexture with
  | some texture => texture.pixelFormat
  | none => .Invalid

/- A pipeline of the live registers and the last results. -/
def buildPipeline
    (host : MetalHost)
    (r : MetalRenderer)
    (s : GpuState3D) : Option MTLRenderPipelineState :=
  if r.vertResult.success ∧ r.fragResult.success then
    createPipelineWithBlend host s r.vertResult.vertexFunction
      r.fragResult.fragmentFunction (r.colorFormat s)
      r.depthFormat (s.blend 0)
  else none

/- The pipeline when none can be built. -/
def spare (r : MetalRenderer) : MTLRenderPipelineState :=
  r.gamePipeline.getD r.fallbackPipeline

def getOrCreatePipeline
    (r : MetalRenderer)
    (hash : U64) : Option MTLRenderPipelineState :=
  r.pipelineCache hash

/- The pipeline of a batch, looked up or made. -/
def batchPipeline
    (host : MetalHost)
    (r : MetalRenderer)
    (s : GpuState3D)
    (key : U64) : MTLRenderPipelineState × MetalRenderer :=
  match r.getOrCreatePipeline key with
  | some pipeline => (pipeline, r)
  | none =>
      match r.buildPipeline host s with
      | some pipeline =>
          (pipeline,
            { r with
              pipelineCache :=
                Function.update r.pipelineCache key
                  (some pipeline) })
      | none => (r.spare, r)

/- The shaders are those of the last successful compile. -/
def shadersUnchanged
    (r : MetalRenderer)
    (s : GpuState3D) : Bool :=
  r.shadersCompiled ∧
    r.lastProgramRegion = s.programRegion ∧
      r.lastShaderOffsets =
        ((s.shaders 0).offset, (s.shaders 5).offset)

end MetalRenderer

namespace ShaderManager

/- Compile the first shader of a list that compiles. -/
def compileFirst
    (host : MetalHost)
    (region : Option (Nat → U8)) :
    List ShaderState → ShaderCompileResult → ShaderManager →
      ShaderCompileResult × ShaderManager
| [], result, mgr => (result, mgr)
| sh :: rest, result, mgr =>
    if sh.enabled ∧ sh.offset ≠ 0 then
      let r := compileShader host mgr region sh
      if r.1.success then r
      else compileFirst host region rest r.1 r.2
    else compileFirst host region rest result mgr

end ShaderManager

namespace Gpu

/- The shaders a compile asks for: vertex and fragment. -/
def vertexStages (s : GpuState3D) : List ShaderState :=
  [s.shaders 0, s.shaders 1]

def fragmentStages (s : GpuState3D) : List ShaderState :=
  [s.shaders 5]

/- The renderer behind a successful compile. -/
def compiledRenderer
    (r : MetalRenderer)
    (s : GpuState3D)
    (pipeline : Option MTLRenderPipelineState)
    (vert frag : ShaderCompileResult) : MetalRenderer :=
  { r with
    gamePipeline := pipeline
    vertResult := vert
    fragResult := frag
    shadersCompiled := true
    lastProgramRegion := s.programRegion
    lastShaderOffsets :=
      ((s.shaders 0).offset, (s.shaders 5).offset) }

/- Make a pipeline of two results and keep them. -/
def usePipeline
    (host : MetalHost)
    (gpu : Gpu)
    (mgr : ShaderManager)
    (vert frag : ShaderCompileResult) : Bool × Gpu :=
  if vert.success ∧ frag.success then
    let made := mgr.createRenderPipeline host vert frag
    if made.1.success then
      (true,
        { gpu with
          shaderMgr := made.2
          renderer :=
            compiledRenderer gpu.renderer gpu.tracker.state
              made.1.pipelineState vert frag })
    else (false, { gpu with shaderMgr := made.2 })
  else (false, { gpu with shaderMgr := mgr })

/- Compile both stages and make a pipeline of them. -/
def compileStages
    (host : MetalHost)
    (gpu : Gpu)
    (region : Nat → U8) : Bool × Gpu :=
  let s := gpu.tracker.state
  let vert :=
    ShaderManager.compileFirst host (some region)
      (vertexStages s) {} gpu.shaderMgr
  let frag :=
    ShaderManager.compileFirst host (some region)
      (fragmentStages s) {} vert.2
  usePipeline host gpu frag.2 vert.1 frag.1

def compilePipeline
    (host : MetalHost)
    (gpu : Gpu) : Bool × Gpu :=
  let s := gpu.tracker.state
  if s.programRegion = 0 then (false, gpu)
  else if gpu.renderer.shadersUnchanged s then (true, gpu)
  else
    match gpu.memory.pointer s.programRegion with
    | none => (false, gpu)
    | some region => compileStages host gpu region

end Gpu

------
-- One Frame
------

/- A draw command of an encoder. -/
inductive DrawCall where
  | indexed
      (primitive : MTLPrimitiveType)
      (indexCount : U32)
      (indexType : MTLIndexType)
      (indexBuffer : MTLBuffer)
  | arrays
      (primitive : MTLPrimitiveType)
      (vertexStart vertexCount : U32)
deriving DecidableEq

/-
  A draw with everything in force when it is issued.  The call
  depends on the answer to the request for an index buffer.
-/
structure EncodedDraw where
  draw : PendingDraw
  encoder : EncoderState
  bindings : List VertexBinding
  call : Option MTLBuffer → Option DrawCall

structure RenderPass where
  desc : MTLRenderPassDescriptor
  draws : List EncodedDraw

/- The encoder of a batch and the key of its last draw. -/
structure OpenBatch where
  pass : RenderPass
  encoder : EncoderState
  lastPipelineKey : U64

namespace MetalRenderer

/- The type the indices of a format are read with. -/
def indexTypeOf (format : EnumCode) : MTLIndexType :=
  if format = IndexFormat.Uint16 then .UInt16 else .UInt32

/- Bytes of an index, as it is read. -/
def indexSize : MTLIndexType → Nat
| .UInt16 => 2
| .UInt32 => 4

/- The length the index buffer is asked for with. -/
def indexBufferSize (pending : PendingDraw) : U32 :=
  BitVec.ofNat 32
    (pending.indexCount.toNat *
      indexSize (indexTypeOf pending.indexFormat))

/-
  `idxBuf` is what the buffer cache answers for the address and
  the length of the indices; without it nothing is drawn.
-/
def issueDraw
    (idxBuf : Option MTLBuffer)
    (pending : PendingDraw) : Option DrawCall :=
  let prim := toMetalPrimitive pending.primitiveType
  if pending.arraysCount = 0 ∧ pending.indexCount = 0 then
    none
  else if pending.indexCount ≠ 0 ∧ pending.indexAddr ≠ 0 then
    idxBuf.map fun buf =>
      .indexed prim pending.indexCount
        (indexTypeOf pending.indexFormat) buf
  else if pending.arraysCount ≠ 0 then
    some (.arrays prim pending.arraysFirst
      pending.arraysCount)
  else none

/- The load actions of a clear request. -/
def issueClear
    (clear : ClearState)
    (desc : MTLRenderPassDescriptor) :
    MTLRenderPassDescriptor :=
  let color := clear.buffers.getLsbD 0
  let depth := clear.buffers.getLsbD 1
  let stencil := clear.buffers.getLsbD 2
  { colorAttachments :=
      if color then
        Function.update desc.colorAttachments 0
          { desc.colorAttachments 0 with loadAction := .Clear }
      else desc.colorAttachments
    clearColor := if color then clear.color else desc.clearColor
    depthAttachment :=
      if depth then
        { desc.depthAttachment with loadAction := .Clear }
      else desc.depthAttachment
    clearDepth := if depth then clear.depth else desc.clearDepth
    stencilAttachment :=
      if stencil then
        { desc.stencilAttachment with loadAction := .Clear }
      else desc.stencilAttachment
    clearStencil :=
      if stencil then clear.stencil else desc.clearStencil }

/- The attachments of a pass to the render targets. -/
def rtAttachment
    (r : MetalRenderer)
    (desc : MTLRenderPassDescriptor)
    (i : Fin 8) : MTLAttachment :=
  match r.rtTextures i with
  | some texture =>
      if i.val < r.rtCount then
        { desc.colorAttachments i with
          texture := some texture
          storeAction := .Store }
      else desc.colorAttachments i
  | none => desc.colorAttachments i

/- The pass of a batch that draws to render targets. -/
def rtPass
    (host : MetalHost)
    (r : MetalRenderer)
    (s : GpuState3D) : MTLRenderPassDescriptor :=
  let colored :=
    { host.freshPass with
      colorAttachments := r.rtAttachment host.freshPass }
  let cleared := issueClear s.clear colored
  match r.depthTexture with
  | some texture =>
      { cleared with
        depthAttachment :=
          { cleared.depthAttachment with
            texture := some texture
            storeAction := .Store } }
  | none => cleared

/- The pass descriptor of a batch. -/
def batchPass
    (host : MetalHost)
    (passDesc : MTLRenderPassDescriptor)
    (r : MetalRenderer)
    (s : GpuState3D) : MTLRenderPassDescriptor :=
  if r.isRtPath then rtPass host r s
  else issueClear s.clear passDesc

/- A batch starts at the first draw or a new key. -/
def startsBatch
    (rtPath : Bool)
    (batch : Option OpenBatch)
    (draw : PendingDraw) : Bool :=
  match batch with
  | none => true
  | some b => rtPath && draw.pipelineKey != b.lastPipelineKey

/- Vertices of a draw. -/
def vertexCount (draw : PendingDraw) : U32 :=
  if draw.arraysCount < draw.indexCount then draw.indexCount
  else draw.arraysCount

/- Encode one draw from the live registers. -/
def encodeDraw
    (host : MetalHost)
    (s : GpuState3D)
    (draw : PendingDraw)
    (b : OpenBatch) : OpenBatch :=
  let encoder := applyState host s b.encoder
  { pass :=
      { b.pass with
        draws := b.pass.draws ++
          [{ draw := draw
             encoder := encoder
             bindings := vertexBindings s (vertexCount draw)
             call := (issueDraw · draw) }] }
    encoder := encoder
    lastPipelineKey := draw.pipelineKey }

end MetalRenderer

namespace Gpu

open MetalRenderer

/- The encoder of a new batch, with its pipeline set. -/
def beginBatch
    (host : MetalHost)
    (passDesc : MTLRenderPassDescriptor)
    (gpu : Gpu)
    (key : U64) : OpenBatch × Gpu :=
  let s := gpu.tracker.state
  let gpu' := (compilePipeline host gpu).2
  let p := gpu'.renderer.batchPipeline host s key
  ({ pass :=
       { desc := batchPass host passDesc gpu.renderer s
         draws := [] }
     encoder := { pipeline := some p.1 }
     lastPipelineKey := 0 },
    { gpu' with renderer := p.2 })

/- The loop over the draws of a frame. -/
def encodeDraws
    (host : MetalHost)
    (passDesc : MTLRenderPassDescriptor) :
    List PendingDraw → Gpu → Option OpenBatch →
      Gpu × List RenderPass
| [], gpu, batch => (gpu, (batch.map (·.pass)).toList)
| draw :: rest, gpu, batch =>
    if startsBatch gpu.renderer.isRtPath batch draw then
      let started := beginBatch host passDesc gpu
        draw.pipelineKey
      let b := encodeDraw host gpu.tracker.state draw started.1
      let r := encodeDraws host passDesc rest started.2 (some b)
      (r.1, (batch.map (·.pass)).toList ++ r.2)
    else
      encodeDraws host passDesc rest gpu
        (batch.map (encodeDraw host gpu.tracker.state draw))

/- The clear request is dropped behind a frame. -/
def endFrame (t : StateTracker) : StateTracker :=
  { t with state.clear.buffers := 0 }.clearDirty

/- Targets are resolved and the queue is moved out. -/
def prepareFrame (host : MetalHost) (gpu : Gpu) : Gpu :=
  { gpu with
    renderer :=
      gpu.renderer.resolveRenderTargets host
        gpu.tracker.state
    tracker := gpu.tracker.consumeDraws.2 }

/- A frame of queued draws; without any, nothing is kept. -/
def renderFrame
    (host : MetalHost)
    (passDesc : MTLRenderPassDescriptor)
    (gpu : Gpu) : Gpu × List RenderPass :=
  if gpu.tracker.hasPendingDraws then
    let r := encodeDraws host passDesc
      gpu.tracker.consumeDraws.1 (prepareFrame host gpu) none
    ({ r.1 with tracker := endFrame r.1.tracker }, r.2)
  else (gpu, [])

end Gpu

end M1Switch
