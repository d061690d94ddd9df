import M1Switch.Gpu.Backend.MetalRenderer

/-
  What the settings of a draw mean for the registers.

  A setting of Metal is read back as the registers it stands
  for, and shows registers if it is read back as them.  The
  renderer reads codes it does not know as a default, has one
  viewport depth range and no empty scissor, and numbers the
  vertex attributes anew.

  Key definitions include:
    * `MetalRenderer.ScissorShown`
    * `MetalRenderer.DepthStencilShown`

  Main results:
    * `scissorShown_iff`
    * `depthStencilShown_iff`
    * `pipelineShows_iff`
-/

------
-- Codes Of Metal
------

namespace M1Switch

/- The register code of each value. -/
def MTLCompareFunction.code : MTLCompareFunction → EnumCode
| .Never => CompareOp.Never
| .Less => CompareOp.Less
| .Equal => CompareOp.Equal
| .LessEqual => CompareOp.Lequal
| .Greater => CompareOp.Greater
| .NotEqual => CompareOp.NotEqual
| .GreaterEqual => CompareOp.Gequal
| .Always => CompareOp.Always

def MTLStencilOperation.code : MTLStencilOperation → EnumCode
| .Keep => StencilOp.Keep
| .Zero => StencilOp.Zero
| .Replace => StencilOp.Replace
| .IncrementClamp => StencilOp.IncrClamp
| .DecrementClamp => StencilOp.DecrClamp
| .Invert => StencilOp.Invert
| .IncrementWrap => StencilOp.IncrWrap
| .DecrementWrap => StencilOp.DecrWrap

def MTLBlendFactor.code : MTLBlendFactor → EnumCode
| .Zero => BlendFactor.Zero
| .One => BlendFactor.One
| .SourceColor => BlendFactor.SrcColor
| .OneMinusSourceColor => BlendFactor.OneMinusSrcColor
| .SourceAlpha => BlendFactor.SrcAlpha
| .OneMinusSourceAlpha => BlendFactor.OneMinusSrcAlpha
| .DestinationColor => BlendFactor.DstColor
| .OneMinusDestinationColor => BlendFactor.OneMinusDstColor
| .DestinationAlpha => BlendFactor.DstAlpha
| .OneMinusDestinationAlpha => BlendFactor.OneMinusDstAlpha
| .SourceAlphaSaturated => BlendFactor.SrcAlphaSaturate
| .BlendColor => BlendFactor.ConstantColor
| .OneMinusBlendColor => BlendFactor.OneMinusConstColor
| .BlendAlpha => BlendFactor.ConstantAlpha
| .OneMinusBlendAlpha => BlendFactor.OneMinusConstAlpha

def MTLBlendOperation.code : MTLBlendOperation → EnumCode
| .Add => BlendOp.Add
| .Subtract => BlendOp.Subtract
| .ReverseSubtract => BlendOp.ReverseSubtract
| .Min => BlendOp.Min
| .Max => BlendOp.Max

/- The code of the faces that are culled, if any are. -/
def MTLCullMode.code : MTLCullMode → Option EnumCode
| .None => none
| .Front => some CullFace.Front
| .Back => some CullFace.Back

def MTLWinding.code : MTLWinding → EnumCode
| .Clockwise => FrontFace.CW
| .CounterClockwise => FrontFace.CCW

/- The code of a color or of a depth format. -/
def MTLPixelFormat.code : MTLPixelFormat → Option EnumCode
| .Invalid => none
| .RGBA8Unorm => some RtFormat.RGBA8Unorm
| .BGRA8Unorm_sRGB => some RtFormat.BGRA8Unorm_sRGB
| .RGBA16Float => some RtFormat.RGBA16Float
| .RGBA32Float => some RtFormat.RGBA32Float
| .R32Float => some RtFormat.R32Float
| .R16Float => some RtFormat.R16Float
| .R8Unorm => some RtFormat.R8Unorm
| .RG8Unorm => some RtFormat.RG8Unorm
| .RG16Float => some RtFormat.RG16Float
| .RG32Float => some RtFormat.RG32Float
| .RGBA16Unorm => some RtFormat.RGBA16Unorm
| .Depth16Unorm => some DepthFormat.Z16Unorm
| .Depth32Float => some DepthFormat.Z32Float
| .Depth24Unorm_Stencil8 => some DepthFormat.Z24S8Unorm
| .Depth32Float_Stencil8 => some DepthFormat.Z32S8X24Float

/- The component count and the type of a vertex format. -/
def MTLVertexFormat.code : MTLVertexFormat → U32 × U32
| .Float => (1, 0)
| .Float2 => (2, 0)
| .Float3 => (3, 0)
| .Float4 => (4, 0)
| .Int => (1, 1)
| .Int2 => (2, 1)
| .Int3 => (3, 1)
| .Int4 => (4, 1)
| .UInt => (1, 2)
| .UInt2 => (2, 2)
| .UInt3 => (3, 2)
| .UInt4 => (4, 2)

/- Without a step rate an instanced array has divisor 1. -/
def MTLVertexStepFunction.divisor :
    MTLVertexStepFunction → U32
| .PerVertex => 0
| .PerInstance => 1

------
-- Settings Of An Encoder
------

namespace MetalRenderer

/-
  The box of a viewport: its middle is the translation, and
  the scale is half its length along each axis.
-/
def viewportBox (vp : ViewportState) : MTLViewport :=
  { originX := f32 vp.translateX - f32 vp.scaleX
    originY := f32 vp.translateY - f32 vp.scaleY
    width := f32 vp.scaleX * 2
    height := f32 vp.scaleY * 2
    znear := f32 vp.translateZ - f32 vp.scaleZ
    zfar := f32 vp.translateZ + f32 vp.scaleZ }

/- Without a viewport the whole target is drawn to. -/
def ViewportShown
    (view : Option MTLViewport)
    (s : GpuState3D) : Prop :=
  view =
    if s.viewportTransformEnable then
      some (viewportBox (s.viewports 0))
    else none

/- The pixel passes the rectangle, if there is one. -/
def Passes
    (rect : Option MTLScissorRect)
    (x y : Nat) : Prop :=
  ∀ r, rect = some r →
    (r.x.toNat ≤ x ∧ x < r.x.toNat + r.width.toNat) ∧
      r.y.toNat ≤ y ∧ y < r.y.toNat + r.height.toNat

/- The pixel lies between the bounds of a scissor. -/
def Inside (sc : ScissorState) (x y : Nat) : Prop :=
  (sc.minX.toNat ≤ x ∧ x < sc.maxX.toNat) ∧
    sc.minY.toNat ≤ y ∧ y < sc.maxY.toNat

def ScissorShown
    (rect : Option MTLScissorRect)
    (s : GpuState3D) : Prop :=
  ∀ x y,
    Passes rect x y ↔
      ((s.scissors 0).enabled → Inside (s.scissors 0) x y)

/- The constants matter where blending is on. -/
def BlendConstShown
    (color : Option (Fin 4 → F32Bits))
    (s : GpuState3D) : Prop :=
  (s.blend 0).enabled →
    color.getD (fun _ => 0) = s.blendConst

/- The stencil test of one side of a triangle. -/
structure StencilFace where
  func : EnumCode
  fail : EnumCode
  zfail : EnumCode
  zpass : EnumCode
  mask : U32
  writemask : U32
  ref : U32

def frontStencilFace (ds : DepthStencilState) : StencilFace :=
  { func := ds.stencilFrontFunc
    fail := ds.stencilFrontFail
    zfail := ds.stencilFrontZfail
    zpass := ds.stencilFrontZpass
    mask := ds.stencilFrontMask
    writemask := ds.stencilFrontWritemask
    ref := ds.stencilFrontRef }

/- One test serves both sides unless there are two. -/
def backStencilFace (ds : DepthStencilState) : StencilFace :=
  if ds.stencilTwoSide then
    { func := ds.stencilBackFunc
      fail := ds.stencilBackFail
      zfail := ds.stencilBackZfail
      zpass := ds.stencilBackZpass
      mask := ds.stencilBackMask
      writemask := ds.stencilBackWritemask
      ref := ds.stencilBackRef }
  else frontStencilFace ds

/- A test of Metal and its reference, read back. -/
def readStencil
    (d : MTLStencilDescriptor)
    (ref : U32) : StencilFace :=
  { func := d.stencilCompareFunction.code
    fail := d.stencilFailureOperation.code
    zfail := d.depthFailureOperation.code
    zpass := d.depthStencilPassOperation.code
    mask := d.readMask
    writemask := d.writeMask
    ref := ref }

/- The depth test; switched off, it always passes. -/
def depthTest (ds : DepthStencilState) : EnumCode :=
  if ds.depthEnabled then ds.depthFunc else CompareOp.Always

/- What an encoder does on which no state was set. -/
def unsetDepthStencil : MTLDepthStencilDescriptor :=
  { depthCompareFunction := .Always
    depthWriteEnabled := false }

structure DepthStencilShown
    (state : Option MTLDepthStencilDescriptor)
    (refs : Option (U32 × U32))
    (ds : DepthStencilState) : Prop where
  test :
    (state.getD unsetDepthStencil).depthCompareFunction.code =
      depthTest ds
  write :
    (state.getD unsetDepthStencil).depthWriteEnabled =
      ds.depthWrite
  front :
    ((state.getD unsetDepthStencil).frontFaceStencil.map
        (readStencil · (refs.getD (0, 0)).1)) =
      if ds.stencilEnable then some (frontStencilFace ds)
      else none
  back :
    ((state.getD unsetDepthStencil).backFaceStencil.map
        (readStencil · (refs.getD (0, 0)).2)) =
      if ds.stencilEnable then some (backStencilFace ds)
      else none

def CullingShown
    (mode : Option MTLCullMode)
    (s : GpuState3D) : Prop :=
  (mode.getD .None).code =
    if s.cullEnable then some s.cullFace else none

/- Culling or a test of two sides asks which is the front. -/
def asksFront (s : GpuState3D) : Bool :=
  s.cullEnable ||
    (s.depthStencil.stencilEnable &&
      s.depthStencil.stencilTwoSide)

def WindingShown
    (winding : Option MTLWinding)
    (s : GpuState3D) : Prop :=
  asksFront s →
    (winding.getD .Clockwise).code = s.frontFace

/- Every enabled array is bound in its slot, and no other. -/
def ArraysShown
    (bindings : List VertexBinding)
    (s : GpuState3D) : Prop :=
  ∀ i address,
    (∃ b ∈ bindings, b.slot = i ∧ b.address = address) ↔
      (s.vertexArrays i).enabled ∧
        address = (s.vertexArrays i).address

------
-- Settings Of A Pipeline
------

/- The blend equation of a render target. -/
structure BlendEquation where
  colorOp : EnumCode
  srcColor : EnumCode
  dstColor : EnumCode
  alphaOp : EnumCode
  srcAlpha : EnumCode
  dstAlpha : EnumCode

def blendEquation (blend : BlendState) : Option BlendEquation :=
  if blend.enabled then
    some
      { colorOp := blend.colorOp
        srcColor := blend.srcColor
        dstColor := blend.dstColor
        alphaOp := blend.alphaOp
        srcAlpha := blend.srcAlpha
        dstAlpha := blend.dstAlpha }
  else none

def readBlend (d : MTLBlendDescriptor) : BlendEquation :=
  { colorOp := d.rgbBlendOperation.code
    srcColor := d.sourceRGBBlendFactor.code
    dstColor := d.destinationRGBBlendFactor.code
    alphaOp := d.alphaBlendOperation.code
    srcAlpha := d.sourceAlphaBlendFactor.code
    dstAlpha := d.destinationAlphaBlendFactor.code }

/- The components that are written: red, green, blue, alpha. -/
def writes (mask : MTLColorWriteMask) : Fin 4 → Bool
| 0 => mask.red
| 1 => mask.green
| 2 => mask.blue
| 3 => mask.alpha

/- The registers name a render target. -/
def Named (rt : RtState) : Prop :=
  rt.address ≠ 0 ∧ rt.width ≠ 0 ∧ rt.height ≠ 0

instance (rt : RtState) : Decidable (Named rt) := by
  unfold Named
  infer_instance

/- The format of the first target, or else of the screen. -/
def colorFormatCode (s : GpuState3D) : EnumCode :=
  if Named (s.rt 0) then (s.rt 0).format
  else RtFormat.BGRA8Unorm_sRGB

def depthFormatCode (dt : DepthTargetState) :
    Option EnumCode :=
  if dt.enabled ∧ dt.address ≠ 0 ∧ dt.width ≠ 0 ∧
      dt.height ≠ 0 then
    some dt.format
  else none

/- The slot feeds an attribute from a buffer. -/
def Fed (attr : VertexAttribState) : Prop :=
  ¬ attr.isFixed ∧ attr.size ≠ 0

instance (attr : VertexAttribState) : Decidable (Fed attr) := by
  unfold Fed
  infer_instance

/- The attribute that is fed at a location. -/
def attributeAt
    (s : GpuState3D)
    (location : Nat) : Option VertexAttribState :=
  if h : location < 32 then
    if Fed (s.vertexAttribs ⟨location, h⟩) then
      some (s.vertexAttribs ⟨location, h⟩)
    else none
  else none

def readAttribute (a : MTLVertexAttribute) :
    VertexAttribState :=
  { bufferIndex := a.bufferIndex
    offset := a.offset
    size := a.format.code.1
    type := a.format.code.2 }

/- The stride and the divisor of an array. -/
def arrayLayout (va : VertexArrayState) : Option (U32 × U32) :=
  if va.enabled then some (va.stride, va.divisor) else none

def readLayout (l : MTLVertexLayout) : U32 × U32 :=
  (l.stride, l.stepFunction.divisor)

/- What is fed from buffers; without any, nothing is asked. -/
def VertexInputShown
    (vd : MTLVertexDescriptor)
    (s : GpuState3D) : Prop :=
  (∃ j, Fed (s.vertexAttribs j)) →
    (∀ location,
      vd.attributes[location]?.map readAttribute =
        attributeAt s location) ∧
      ∀ i,
        (vd.layouts i).map readLayout =
          arrayLayout (s.vertexArrays i)

/- A pipeline has a format for the first target only. -/
structure PipelineShows
    (p : MTLRenderPipelineState)
    (s : GpuState3D) : Prop where
  blend :
    p.colorAttachment.blend.map readBlend =
      blendEquation (s.blend 0)
  mask :
    ∀ i : Fin 4,
      writes p.colorAttachment.writeMask i =
        (s.blend 0).colorMask.getLsbD i
  colorFormat :
    p.colorAttachment.pixelFormat.code =
      some (colorFormatCode s)
  oneTarget : ∀ i, i ≠ 0 → ¬ Named (s.rt i)
  depthFormat :
    p.depthAttachmentPixelFormat.code =
      depthFormatCode s.depthTarget
  vertexInput : VertexInputShown p.vertexDescriptor s

/- An encoded draw shows the fixed-function registers. -/
structure Shows
    (e : EncodedDraw)
    (s : GpuState3D) : Prop where
  viewport : ViewportShown e.encoder.viewport s
  scissor : ScissorShown e.encoder.scissor s
  blendConst : BlendConstShown e.encoder.blendColor s
  depthStencil :
    DepthStencilShown e.encoder.depthStencil
      e.encoder.stencilReference s.depthStencil
  culling : CullingShown e.encoder.cullMode s
  winding : WindingShown e.encoder.frontFacing s
  arrays : ArraysShown e.bindings s
  pipeline :
    ∃ p, e.encoder.pipeline = some p ∧ PipelineShows p s

------
-- Codes As They Are Taken
------

/- A code that is not known is taken for a default. -/
def readAs
    (known : List EnumCode)
    (default code : EnumCode) : EnumCode :=
  if code ∈ known then code else default

def asCompare : EnumCode → EnumCode :=
  readAs
    [CompareOp.Never, CompareOp.Less, CompareOp.Equal,
      CompareOp.Lequal, CompareOp.Greater, CompareOp.NotEqual,
      CompareOp.Gequal, CompareOp.Always]
    CompareOp.Always

def asStencilOp : EnumCode → EnumCode :=
  readAs
    [StencilOp.Keep, StencilOp.Zero, StencilOp.Replace,
      StencilOp.IncrClamp, StencilOp.DecrClamp,
      StencilOp.Invert, StencilOp.IncrWrap,
      StencilOp.DecrWrap]
    StencilOp.Keep

def asBlendOp : EnumCode → EnumCode :=
  readAs
    [BlendOp.Add, BlendOp.Subtract, BlendOp.ReverseSubtract,
      BlendOp.Min, BlendOp.Max]
    BlendOp.Add

def asBlendFactor : EnumCode → EnumCode :=
  readAs
    [BlendFactor.Zero, BlendFactor.One, BlendFactor.SrcColor,
      BlendFactor.OneMinusSrcColor, BlendFactor.SrcAlpha,
      BlendFactor.OneMinusSrcAlpha, BlendFactor.DstColor,
      BlendFactor.OneMinusDstColor, BlendFactor.DstAlpha,
      BlendFactor.OneMinusDstAlpha,
      BlendFactor.SrcAlphaSaturate, BlendFactor.ConstantColor,
      BlendFactor.OneMinusConstColor,
      BlendFactor.ConstantAlpha,
      BlendFactor.OneMinusConstAlpha]
    BlendFactor.One

def asRtFormat : EnumCode → EnumCode :=
  readAs
    [RtFormat.RGBA8Unorm, RtFormat.BGRA8Unorm_sRGB,
      RtFormat.RGBA16Float, RtFormat.RGBA32Float,
      RtFormat.R32Float, RtFormat.R16Float, RtFormat.R8Unorm,
      RtFormat.RG8Unorm, RtFormat.RG16Float,
      RtFormat.RG32Float, RtFormat.RGBA16Unorm]
    RtFormat.BGRA8Unorm_sRGB

def asDepthFormat : EnumCode → EnumCode :=
  readAs
    [DepthFormat.Z16Unorm, DepthFormat.Z24S8Unorm,
      DepthFormat.Z32S8X24Float]
    DepthFormat.Z32Float

/- Other counts and types are taken for four floats. -/
def asVertexFormat (size type : U32) : U32 × U32 :=
  if size ∈ [1, 2, 3, 4] ∧ type ∈ [0, 1, 2] then (size, type)
  else (4, 0)

/-
  A table whose entries have their keys as codes gives the
  code a register is taken for.
-/
theorem code_fromTable
    {α γ : Type}
    (toCode : α → γ)
    (embed : EnumCode → γ)
    {table : List (EnumCode × α)}
    {default : α}
    {defaultCode : EnumCode}
    (hTable : ∀ row ∈ table, toCode row.2 = embed row.1)
    (hDefault : toCode default = embed defaultCode)
    (code : EnumCode) :
    toCode (fromTable table default code) =
      embed
        (readAs (table.map (·.1)) defaultCode code) := by
  induction table with
  | nil => simp [fromTable, readAs, hDefault]
  | cons row table ih =>
      rcases row with ⟨key, value⟩
      have hRest :=
        ih fun r hR => hTable r (List.mem_cons_of_mem _ hR)
      unfold fromTable readAs at hRest ⊢
      by_cases hCode : code = key
      · subst hCode
        simpa using hTable (code, value) List.mem_cons_self
      · have hBeq : (code == key) = false := by
          simpa using hCode
        simp only [List.lookup_cons, hBeq, List.map_cons,
          List.mem_cons, hCode, false_or]
        exact hRest

theorem code_toMetalCompare (code : EnumCode) :
    (toMetalCompare code).code = asCompare code := by
  refine code_fromTable MTLCompareFunction.code id ?_ rfl code
  decide

theorem code_toMetalStencilOp (code : EnumCode) :
    (toMetalStencilOp code).code = asStencilOp code := by
  refine
    code_fromTable MTLStencilOperation.code id ?_ rfl code
  decide

theorem code_toMetalBlendOp (code : EnumCode) :
    (toMetalBlendOp code).code = asBlendOp code := by
  refine code_fromTable MTLBlendOperation.code id ?_ rfl code
  decide

theorem code_toMetalBlendFactor (code : EnumCode) :
    (toMetalBlendFactor code).code = asBlendFactor code := by
  refine code_fromTable MTLBlendFactor.code id ?_ rfl code
  decide

theorem code_rtFormatToMetal (code : EnumCode) :
    (rtFormatToMetal code).code = some (asRtFormat code) := by
  refine code_fromTable MTLPixelFormat.code some ?_ rfl code
  decide

theorem code_depthFormatToMetal (code : EnumCode) :
    (depthFormatToMetal code).code =
      some (asDepthFormat code) := by
  refine code_fromTable MTLPixelFormat.code some ?_ rfl code
  decide

------
-- Viewport And Scissor
------

variable {live s : GpuState3D}

/- The live box, drawn to at full depth, is a given one. -/
structure SameBox (live vp : ViewportState) : Prop where
  originX :
    f32 live.translateX - f32 live.scaleX =
      f32 vp.translateX - f32 vp.scaleX
  originY :
    f32 live.translateY - f32 live.scaleY =
      f32 vp.translateY - f32 vp.scaleY
  width :
    atLeastOne (f32 live.scaleX * 2) = f32 vp.scaleX * 2
  height :
    atLeastOne (f32 live.scaleY * 2) = f32 vp.scaleY * 2
  znear : 0 = f32 vp.translateZ - f32 vp.scaleZ
  zfar : 1 = f32 vp.translateZ + f32 vp.scaleZ

def ViewportKept (live s : GpuState3D) : Prop :=
  if live.viewportTransformEnable ∧
      f32 (live.viewports 0).scaleX > 0 then
    s.viewportTransformEnable ∧
      SameBox (live.viewports 0) (s.viewports 0)
  else ¬ s.viewportTransformEnable

theorem viewportShown_iff :
    ViewportShown (viewportOf live) s ↔
      ViewportKept live s := by
  unfold ViewportShown viewportOf ViewportKept
  dsimp only
  by_cases hSet :
      live.viewportTransformEnable ∧
        f32 (live.viewports 0).scaleX > 0
  · rw [if_pos hSet, if_pos hSet]
    by_cases hOn : s.viewportTransformEnable
    · rw [if_pos hOn, Option.some_inj]
      unfold viewportBox
      rw [MTLViewport.mk.injEq]
      constructor
      · rintro ⟨hX, hY, hWidth, hHeight, hNear, hFar⟩
        exact ⟨hOn, hX, hY, hWidth, hHeight, hNear, hFar⟩
      · rintro ⟨_, hBox⟩
        exact
          ⟨hBox.originX, hBox.originY, hBox.width,
            hBox.height, hBox.znear, hBox.zfar⟩
    · rw [if_neg hOn]
      constructor
      · intro hSome
        cases hSome
      · exact fun hBoth => absurd hBoth.1 hOn
  · rw [if_neg hSet, if_neg hSet]
    by_cases hOn : s.viewportTransformEnable
    · simp [hOn]
    · simp [hOn]

/-
  Bounds along one axis: the scissor is at least a pixel long,
  so that none is ever empty.
-/
def BoundsKept (liveMin liveMax min max : U32) : Prop :=
  liveMin = min ∧ min < max ∧
    (liveMax = max ∨
      liveMax = liveMin ∧ max.toNat = min.toNat + 1)

def ScissorKept (live s : ScissorState) : Prop :=
  live.enabled = s.enabled ∧
    (s.enabled →
      BoundsKept live.minX live.maxX s.minX s.maxX ∧
        BoundsKept live.minY live.maxY s.minY s.maxY)

/- The length set for a pair of bounds. -/
def scissorLength (min max : U32) : U32 :=
  if max - min < 1 then 1 else max - min

theorem scissorLength_pos (min max : U32) :
    0 < (scissorLength min max).toNat := by
  unfold scissorLength
  split_ifs with hSmall
  · decide
  · rw [BitVec.lt_def] at hSmall
    exact Nat.lt_of_lt_of_le Nat.one_pos (Nat.le_of_not_lt hSmall)

theorem boundsKept_iff (liveMin liveMax min max : U32) :
    BoundsKept liveMin liveMax min max ↔
      liveMin.toNat = min.toNat ∧
        liveMin.toNat + (scissorLength liveMin liveMax).toNat =
          max.toNat := by
  unfold BoundsKept scissorLength
  split_ifs with hSmall
  · bv_omega
  · bv_omega

/- Two rectangles of pixels, the first with one inside. -/
theorem rectangles_eq_iff
    {a b c d a' b' c' d' : Nat}
    (hX : a < b)
    (hY : c < d) :
    (∀ x y,
        ((a ≤ x ∧ x < b) ∧ c ≤ y ∧ y < d) ↔
          (a' ≤ x ∧ x < b') ∧ c' ≤ y ∧ y < d') ↔
      (a = a' ∧ b = b') ∧ c = c' ∧ d = d' := by
  constructor
  · intro hAll
    have hFirst := (hAll a c).mp ⟨⟨le_refl a, hX⟩, le_refl c, hY⟩
    have hLast := (hAll (b - 1) (d - 1)).mp (by omega)
    have hFirst' := (hAll a' c').mpr (by omega)
    have hLast' := (hAll (b' - 1) (d' - 1)).mpr (by omega)
    omega
  · rintro ⟨⟨rfl, rfl⟩, rfl, rfl⟩ x y
    exact Iff.rfl

/- Every pixel passes, but a scissor has an end. -/
theorem not_inside_all (sc : ScissorState) :
    ¬ ∀ x y, Inside sc x y := by
  intro hAll
  have hEnd := (hAll sc.maxX.toNat 0).1.2
  omega

theorem scissorShown_iff :
    ScissorShown (scissorOf live) s ↔
      ScissorKept (live.scissors 0) (s.scissors 0) := by
  unfold ScissorShown scissorOf ScissorKept
  dsimp only
  by_cases hSet : (live.scissors 0).enabled
  · have hX :=
      scissorLength_pos (live.scissors 0).minX
        (live.scissors 0).maxX
    have hY :=
      scissorLength_pos (live.scissors 0).minY
        (live.scissors 0).maxY
    rw [if_pos hSet]
    unfold Passes
    simp only [Option.some.injEq, forall_eq']
    by_cases hOn : (s.scissors 0).enabled
    · simp only [hSet, hOn, forall_const, true_and,
        boundsKept_iff]
      unfold Inside
      refine (rectangles_eq_iff ?_ ?_).trans ?_
      · exact Nat.lt_add_of_pos_right hX
      · exact Nat.lt_add_of_pos_right hY
      · exact Iff.rfl
    · constructor
      · intro hAll
        have hEnd :=
          (hAll
            ((live.scissors 0).minX.toNat +
              (scissorLength (live.scissors 0).minX
                (live.scissors 0).maxX).toNat) 0).mpr
            (fun hTrue => absurd hTrue hOn)
        exact absurd hEnd.1.2 (Nat.lt_irrefl _)
      · rintro ⟨hSame, _⟩
        rw [← hSame] at hOn
        exact absurd hSet hOn
  · rw [if_neg hSet]
    have hPasses : ∀ x y, Passes none x y :=
      fun _ _ _ hNone => nomatch hNone
    by_cases hOn : (s.scissors 0).enabled
    · constructor
      · intro hAll
        exact
          absurd (fun x y => (hAll x y).mp (hPasses x y) hOn)
            (not_inside_all _)
      · rintro ⟨hSame, _⟩
        rw [← hSame] at hOn
        exact absurd hOn hSet
    · constructor
      · intro _
        refine ⟨?_, fun hTrue => absurd hTrue hOn⟩
        rw [Bool.eq_false_iff.mpr hSet,
          Bool.eq_false_iff.mpr hOn]
      · intro _ x y
        exact
          ⟨fun _ hTrue => absurd hTrue hOn,
            fun _ => hPasses x y⟩

------
-- Blend Constants, Depth And Stencil
------

def BlendConstKept (live s : GpuState3D) : Prop :=
  (s.blend 0).enabled →
    (if (live.blend 0).enabled then live.blendConst
      else fun _ => 0) = s.blendConst

theorem blendConstShown_iff :
    BlendConstShown (blendColorOf live) s ↔
      BlendConstKept live s := by
  unfold BlendConstShown blendColorOf BlendConstKept
  split_ifs <;> exact Iff.rfl

/- A test with its codes as they are taken. -/
def StencilFace.taken (face : StencilFace) : StencilFace :=
  { face with
    func := asCompare face.func
    fail := asStencilOp face.fail
    zfail := asStencilOp face.zfail
    zpass := asStencilOp face.zpass }

structure DepthStencilKept
    (live ds : DepthStencilState) : Prop where
  test : asCompare (depthTest live) = depthTest ds
  write : live.depthWrite = ds.depthWrite
  enable : live.stencilEnable = ds.stencilEnable
  front :
    ds.stencilEnable →
      (frontStencilFace live).taken = frontStencilFace ds
  back :
    ds.stencilEnable →
      (backStencilFace live).taken = backStencilFace ds

/-
  If the device makes no state of the live registers, the one
  of the start is set; without that one either, none is.
-/
def DepthStencilReplayed
    (host : MetalHost)
    (live ds : DepthStencilState) : Prop :=
  if host.createsDepthStencil (depthStencilDescriptor live) then
    DepthStencilKept live ds
  else
    ¬ ds.stencilEnable ∧
      if host.createsDepthStencil defaultDepthStencil then
        depthTest ds = CompareOp.Less ∧ ds.depthWrite
      else depthTest ds = CompareOp.Always ∧ ¬ ds.depthWrite

theorem code_depthTest (ds : DepthStencilState) :
    (depthStencilDescriptor ds).depthCompareFunction.code =
      asCompare (depthTest ds) := by
  unfold depthStencilDescriptor depthTest
  dsimp only
  split_ifs
  · exact code_toMetalCompare ds.depthFunc
  · rfl

theorem readStencil_front (ds : DepthStencilState) :
    readStencil (frontStencil ds) ds.stencilFrontRef =
      (frontStencilFace ds).taken := by
  unfold readStencil frontStencil StencilFace.taken
    frontStencilFace
  simp only [code_toMetalCompare, code_toMetalStencilOp]

theorem readStencil_back (ds : DepthStencilState) :
    readStencil
        (if ds.stencilTwoSide then backStencil ds
          else frontStencil ds)
        (if ds.stencilTwoSide then ds.stencilBackRef
          else ds.stencilFrontRef) =
      (backStencilFace ds).taken := by
  unfold backStencilFace
  split_ifs
  · unfold readStencil backStencil StencilFace.taken
    simp only [code_toMetalCompare, code_toMetalStencilOp]
  · exact readStencil_front ds

/- The references set along with a state. -/
def setReferences (ds : DepthStencilState) :
    Option (U32 × U32) :=
  if ds.stencilEnable then
    some (ds.stencilFrontRef,
      if ds.stencilTwoSide then ds.stencilBackRef
      else ds.stencilFrontRef)
  else none

theorem readFront_descriptor (ds : DepthStencilState) :
    (depthStencilDescriptor ds).frontFaceStencil.map
        (readStencil · ((setReferences ds).getD (0, 0)).1) =
      if ds.stencilEnable then
        some (frontStencilFace ds).taken
      else none := by
  unfold depthStencilDescriptor setReferences
  dsimp only
  by_cases hOn : ds.stencilEnable
  · rw [if_pos hOn, if_pos hOn, if_pos hOn, Option.map_some,
      Option.getD_some, readStencil_front]
  · rw [if_neg hOn, if_neg hOn, if_neg hOn]
    rfl

theorem readBack_descriptor (ds : DepthStencilState) :
    (depthStencilDescriptor ds).backFaceStencil.map
        (readStencil · ((setReferences ds).getD (0, 0)).2) =
      if ds.stencilEnable then
        some (backStencilFace ds).taken
      else none := by
  unfold depthStencilDescriptor setReferences
  dsimp only
  by_cases hOn : ds.stencilEnable
  · rw [if_pos hOn, if_pos hOn, if_pos hOn, Option.map_some,
      Option.getD_some, readStencil_back]
  · rw [if_neg hOn, if_neg hOn, if_neg hOn]
    rfl

/- Two tests are the same, or both are off. -/
theorem ite_some_eq_iff
    {α : Type}
    {on on' : Bool}
    {x y : α} :
    ((if on then some x else none) =
        if on' then some y else none) ↔
      on = on' ∧ (on' → x = y) := by
  cases on <;> cases on' <;> simp

theorem depthStencilShown_made
    {live ds : DepthStencilState} :
    DepthStencilShown (some (depthStencilDescriptor live))
        (setReferences live) ds ↔
      DepthStencilKept live ds := by
  constructor
  · rintro ⟨hTest, hWrite, hFront, hBack⟩
    rw [Option.getD_some, code_depthTest] at hTest
    rw [Option.getD_some, readFront_descriptor,
      ite_some_eq_iff] at hFront
    rw [Option.getD_some, readBack_descriptor,
      ite_some_eq_iff] at hBack
    exact ⟨hTest, hWrite, hFront.1, hFront.2, hBack.2⟩
  · rintro ⟨hTest, hWrite, hOn, hFront, hBack⟩
    constructor
    · rw [Option.getD_some, code_depthTest]
      exact hTest
    · exact hWrite
    · rw [Option.getD_some, readFront_descriptor,
        ite_some_eq_iff]
      exact ⟨hOn, hFront⟩
    · rw [Option.getD_some, readBack_descriptor,
        ite_some_eq_iff]
      exact ⟨hOn, hBack⟩

/- A state without stencil tests. -/
theorem depthStencilShown_plain
    {state : Option MTLDepthStencilDescriptor}
    {ds : DepthStencilState}
    (hFront :
      (state.getD unsetDepthStencil).frontFaceStencil = none)
    (hBack :
      (state.getD unsetDepthStencil).backFaceStencil = none) :
    DepthStencilShown state none ds ↔
      ¬ ds.stencilEnable ∧
        (state.getD unsetDepthStencil).depthCompareFunction.code
            = depthTest ds ∧
          (state.getD unsetDepthStencil).depthWriteEnabled =
            ds.depthWrite := by
  constructor
  · rintro ⟨hTest, hWrite, hShown, _⟩
    refine ⟨?_, hTest, hWrite⟩
    intro hOn
    rw [hFront, if_pos hOn] at hShown
    cases hShown
  · rintro ⟨hOff, hTest, hWrite⟩
    refine ⟨hTest, hWrite, ?_, ?_⟩
    · rw [hFront, if_neg hOff]
      rfl
    · rw [hBack, if_neg hOff]
      rfl

theorem depthStencilShown_iff
    {host : MetalHost}
    {live ds : DepthStencilState} :
    DepthStencilShown (depthStencilOf host live)
        (stencilReferenceOf host live) ds ↔
      DepthStencilReplayed host live ds := by
  unfold DepthStencilReplayed depthStencilOf
  by_cases hMade :
      host.createsDepthStencil (depthStencilDescriptor live)
  · have hRefs :
        stencilReferenceOf host live = setReferences live := by
      unfold stencilReferenceOf setReferences
      simp only [hMade, true_and]
    rw [if_pos hMade, if_pos hMade, hRefs]
    exact depthStencilShown_made
  · have hRefs : stencilReferenceOf host live = none :=
      if_neg fun hBoth => hMade hBoth.1
    rw [if_neg hMade, if_neg hMade, hRefs]
    split_ifs
    · rw [depthStencilShown_plain rfl rfl]
      refine and_congr_right fun _ => and_congr ?_ ?_
      · exact eq_comm
      · exact eq_comm
    · rw [depthStencilShown_plain rfl rfl]
      refine and_congr_right fun _ => and_congr ?_ ?_
      · exact eq_comm
      · exact eq_comm.trans Bool.eq_false_iff

------
-- Culling And Vertex Arrays
------

/- Both faces are taken for the front; others for neither. -/
def culledFace (s : GpuState3D) : Option EnumCode :=
  if s.cullEnable then
    if s.cullFace = CullFace.Front ∨
        s.cullFace = CullFace.FrontAndBack then
      some CullFace.Front
    else if s.cullFace = CullFace.Back then some CullFace.Back
    else none
  else none

def CullingKept (live s : GpuState3D) : Prop :=
  culledFace live =
    if s.cullEnable then some s.cullFace else none

theorem code_cullModeOf (s : GpuState3D) :
    (cullModeOf s).code = culledFace s := by
  unfold cullModeOf culledFace toMetalCullMode fromTable
  by_cases hOn : s.cullEnable
  · rw [if_pos hOn, if_pos hOn]
    by_cases hFront : s.cullFace = CullFace.Front
    · rw [hFront]
      rfl
    by_cases hBack : s.cullFace = CullFace.Back
    · rw [hBack]
      rfl
    by_cases hBoth : s.cullFace = CullFace.FrontAndBack
    · rw [hBoth]
      rfl
    · simp only [List.lookup_cons,
        beq_eq_false_iff_ne.mpr hFront,
        beq_eq_false_iff_ne.mpr hBack,
        beq_eq_false_iff_ne.mpr hBoth, hFront, hBack, hBoth]
      rfl
  · rw [if_neg hOn, if_neg hOn]
    rfl

theorem cullingShown_iff :
    CullingShown (some (cullModeOf live)) s ↔
      CullingKept live s := by
  unfold CullingShown CullingKept
  rw [Option.getD_some, code_cullModeOf]

/- The winding is set along with culling only. -/
def WindingKept (live s : GpuState3D) : Prop :=
  asksFront s →
    (if live.cullEnable ∧ live.frontFace ≠ FrontFace.CW then
      FrontFace.CCW
    else FrontFace.CW) = s.frontFace

theorem windingShown_iff :
    WindingShown (frontFacingOf live) s ↔
      WindingKept live s := by
  have hCode :
      ((frontFacingOf live).getD .Clockwise).code =
        if live.cullEnable ∧ live.frontFace ≠ FrontFace.CW then
          FrontFace.CCW
        else FrontFace.CW := by
    unfold frontFacingOf
    by_cases hOn : live.cullEnable
    · by_cases hFace : live.frontFace = FrontFace.CW
      · simp [hOn, hFace, MTLWinding.code]
      · simp [hOn, hFace, MTLWinding.code]
    · simp [hOn, MTLWinding.code]
  unfold WindingShown WindingKept
  rw [hCode]

/- Arrays that are bound, each in its slot. -/
def arrayBound (va : VertexArrayState) : Prop :=
  va.enabled ∧ va.address ≠ 0 ∧ va.stride ≠ 0

def ArraysKept (live s : GpuState3D) : Prop :=
  ∀ i,
    (arrayBound (live.vertexArrays i) ↔
      (s.vertexArrays i).enabled) ∧
      ((s.vertexArrays i).enabled →
        (live.vertexArrays i).address =
          (s.vertexArrays i).address)

theorem exists_binding_iff
    (s : GpuState3D)
    (count : U32)
    (i : Fin 16)
    (address : U64) :
    (∃ b ∈ vertexBindings s count,
        b.slot = i ∧ b.address = address) ↔
      arrayBound (s.vertexArrays i) ∧
        address = (s.vertexArrays i).address := by
  unfold vertexBindings arrayBound
  simp only [List.mem_filterMap, List.mem_finRange, true_and,
    Option.ite_none_right_eq_some, Option.some.injEq]
  constructor
  · rintro ⟨b, ⟨j, hBound, rfl⟩, rfl, rfl⟩
    exact ⟨hBound, rfl⟩
  · rintro ⟨hBound, rfl⟩
    exact ⟨_, ⟨i, hBound, rfl⟩, rfl, rfl⟩

theorem arraysShown_iff (count : U32) :
    ArraysShown (vertexBindings live count) s ↔
      ArraysKept live s := by
  unfold ArraysShown ArraysKept
  simp only [exists_binding_iff]
  refine forall_congr' fun i => ?_
  constructor
  · intro hAll
    have hOwn := hAll (live.vertexArrays i).address
    have hAsked := hAll (s.vertexArrays i).address
    refine ⟨⟨fun hBound => ?_, fun hOn => ?_⟩, fun hOn => ?_⟩
    · exact (hOwn.mp ⟨hBound, rfl⟩).1
    · exact (hAsked.mpr ⟨hOn, rfl⟩).1
    · exact (hAsked.mpr ⟨hOn, rfl⟩).2.symm
  · rintro ⟨hIff, hSame⟩ address
    constructor
    · rintro ⟨hBound, hAddress⟩
      have hOn := hIff.mp hBound
      exact ⟨hOn, hAddress.trans (hSame hOn)⟩
    · rintro ⟨hOn, hAddress⟩
      exact ⟨hIff.mpr hOn, hAddress.trans (hSame hOn).symm⟩

------
-- Pipelines
------

/- An equation with its codes as they are taken. -/
def BlendEquation.taken (eq : BlendEquation) : BlendEquation :=
  { colorOp := asBlendOp eq.colorOp
    srcColor := asBlendFactor eq.srcColor
    dstColor := asBlendFactor eq.dstColor
    alphaOp := asBlendOp eq.alphaOp
    srcAlpha := asBlendFactor eq.srcAlpha
    dstAlpha := asBlendFactor eq.dstAlpha }

theorem readBlend_blendDescriptor (blend : BlendState) :
    (blendDescriptor blend).map readBlend =
      (blendEquation blend).map BlendEquation.taken := by
  unfold blendDescriptor blendEquation
  split_ifs
  · unfold readBlend BlendEquation.taken
    simp only [Option.map_some, code_toMetalBlendOp,
      code_toMetalBlendFactor]
  · rfl

theorem writes_colorWriteMask (mask : U32) :
    ∀ i : Fin 4,
      writes (colorWriteMask mask) i = mask.getLsbD i
| 0 => rfl
| 1 => rfl
| 2 => rfl
| 3 => rfl

/- A texture is kept or can be made. -/
def obtained
    (host : MetalHost)
    (current : Option MTLTexture) :
    Option MTLTexture → Bool
| none => false
| some texture =>
    current = some texture || host.createsTexture texture

theorem resolveTexture_eq
    (host : MetalHost)
    (current wanted : Option MTLTexture) :
    resolveTexture host current wanted =
      if obtained host current wanted then wanted else none := by
  cases wanted with
  | none => rfl
  | some texture =>
      unfold resolveTexture obtained
      by_cases hKept : current = some texture
      · simp [hKept]
      · simp [hKept]

/- The frame draws to the first target. -/
def targetObtained
    (host : MetalHost)
    (r : MetalRenderer)
    (s : GpuState3D) : Bool :=
  obtained host (r.rtTextures 0) (rtTexture (s.rt 0))

def depthObtained
    (host : MetalHost)
    (r : MetalRenderer)
    (s : GpuState3D) : Bool :=
  obtained host r.depthTexture (depthTargetTexture s.depthTarget)

theorem isSome_of_obtained
    {host : MetalHost}
    {current wanted : Option MTLTexture}
    (hObtained : obtained host current wanted) :
    wanted.isSome := by
  cases wanted with
  | none => cases hObtained
  | some texture => rfl

theorem isRtPath_resolveRenderTargets
    (host : MetalHost)
    (r : MetalRenderer)
    (s : GpuState3D) :
    (r.resolveRenderTargets host s).isRtPath =
      targetObtained host r s := by
  have hTexture :
      ((r.resolveRenderTargets host s).rtTextures 0).isSome =
        targetObtained host r s := by
    change (resolveTexture _ _ _).isSome = _
    rw [resolveTexture_eq]
    unfold targetObtained
    split_ifs with hObtained
    · rw [hObtained]
      exact isSome_of_obtained hObtained
    · rw [Bool.eq_false_iff.mpr hObtained]
      rfl
  unfold isRtPath
  rw [hTexture]
  by_cases hObtained : targetObtained host r s = true
  · rw [hObtained, Bool.and_true]
    exact
      List.any_eq_true.mpr
        ⟨0, List.mem_finRange 0, hTexture.trans hObtained⟩
  · rw [Bool.eq_false_iff.mpr hObtained, Bool.and_false]

/- The code of the format a pipeline is built with. -/
theorem code_colorFormat
    (host : MetalHost)
    (r : MetalRenderer)
    (s : GpuState3D) :
    ((r.resolveRenderTargets host s).colorFormat s).code =
      some
        (if targetObtained host r s then
          asRtFormat (s.rt 0).format
        else RtFormat.BGRA8Unorm_sRGB) := by
  unfold colorFormat
  rw [isRtPath_resolveRenderTargets]
  split_ifs
  · exact code_rtFormatToMetal _
  · rfl

theorem code_depthFormat
    (host : MetalHost)
    (r : MetalRenderer)
    (s : GpuState3D) :
    (r.resolveRenderTargets host s).depthFormat.code =
      if depthObtained host r s then
        some (asDepthFormat s.depthTarget.format)
      else none := by
  have hTexture :
      (r.resolveRenderTargets host s).depthTexture =
        if depthObtained host r s then
          depthTargetTexture s.depthTarget
        else none :=
    resolveTexture_eq _ _ _
  unfold depthFormat
  rw [hTexture]
  by_cases hObtained : depthObtained host r s = true
  · rw [if_pos hObtained, if_pos hObtained]
    have hSome := isSome_of_obtained hObtained
    unfold depthTargetTexture at hSome ⊢
    split_ifs at hSome ⊢
    · exact code_depthFormatToMetal _
    · cases hSome
  · rw [if_neg hObtained, if_neg hObtained]
    rfl

------
-- Vertex Input
------

/- The attribute as the vertex fetch takes it. -/
def takenAttribute (attr : VertexAttribState) :
    VertexAttribState :=
  { bufferIndex := attr.bufferIndex
    offset := attr.offset
    size := (asVertexFormat attr.size attr.type).1
    type := (asVertexFormat attr.size attr.type).2 }

/- The attribute is fed from an array that can be read. -/
def readable
    (s : GpuState3D)
    (attr : VertexAttribState) : Bool :=
  decide (Fed attr) &&
    if h : attr.bufferIndex.toNat < 16 then
      arrayActive (s.vertexArrays ⟨_, h⟩)
    else false

/- The readable attributes, in the order of their slots. -/
def readAttributes (s : GpuState3D) : List VertexAttribState :=
  ((List.finRange 32).map s.vertexAttribs).filter (readable s)

/- Without any, a position and a color of 24 bytes are fed. -/
def fedAttributes (s : GpuState3D) : List VertexAttribState :=
  if readAttributes s = [] then
    [{ size := 2 }, { offset := 8, size := 4 }]
  else (readAttributes s).map takenAttribute

/- Any divisor is taken for 1. -/
def fedLayout
    (s : GpuState3D)
    (i : Fin 16) : Option (U32 × U32) :=
  if readAttributes s = [] then
    if i = 0 then some (24, 0) else none
  else if arrayActive (s.vertexArrays i) then
    some ((s.vertexArrays i).stride,
      if (s.vertexArrays i).divisor = 0 then 0 else 1)
  else none

/- A table for one to four components of a type. -/
theorem code_ofCounts
    {table : List (EnumCode × MTLVertexFormat)}
    {type : U32}
    (hCounts : table.map (·.1) = [1, 2, 3, 4])
    (hTable : ∀ row ∈ table, row.2.code = (row.1, type))
    (size : U32) :
    (fromTable table .Float4 size).code =
      if size ∈ [1, 2, 3, 4] then (size, type) else (4, 0) := by
  let embed : U32 → U32 × U32 := fun c =>
    if c ∈ [1, 2, 3, 4] then (c, type) else (4, 0)
  have hEntries :
      ∀ row ∈ table, row.2.code = embed row.1 := by
    intro row hRow
    have hKey := List.mem_map_of_mem (f := (·.1)) hRow
    rw [hCounts] at hKey
    exact (hTable row hRow).trans (if_pos hKey).symm
  have hDefault : MTLVertexFormat.Float4.code = embed 0 := rfl
  rw [code_fromTable MTLVertexFormat.code embed hEntries
    hDefault, hCounts]
  unfold readAs
  by_cases hSize : size ∈ [1, 2, 3, 4]
  · simp only [if_pos hSize, embed]
  · simp only [if_neg hSize]
    rfl

theorem code_toMetalVertexFormat (size type : U32) :
    (toMetalVertexFormat size type).code =
      asVertexFormat size type := by
  have hSplit :
      type ∈ [0, 1, 2] →
        asVertexFormat size type =
          if size ∈ [1, 2, 3, 4] then (size, type)
          else (4, 0) := by
    intro hType
    unfold asVertexFormat
    simp only [hType, and_true]
  unfold toMetalVertexFormat
  by_cases hFloat : type = 0
  · subst hFloat
    rw [if_pos rfl, hSplit (by decide)]
    exact code_ofCounts rfl (by decide) size
  by_cases hInt : type = 1
  · subst hInt
    rw [if_neg hFloat, if_pos rfl, hSplit (by decide)]
    exact code_ofCounts rfl (by decide) size
  by_cases hUInt : type = 2
  · subst hUInt
    rw [if_neg hFloat, if_neg hInt, if_pos rfl,
      hSplit (by decide)]
    exact code_ofCounts rfl (by decide) size
  · rw [if_neg hFloat, if_neg hInt, if_neg hUInt]
    refine (if_neg ?_).symm
    rintro ⟨_, hType⟩
    simp only [List.mem_cons, hFloat, hInt, hUInt,
      List.not_mem_nil, or_self] at hType

theorem readAttribute_vertexAttribute
    (s : GpuState3D)
    (attr : VertexAttribState) :
    (vertexAttribute s attr).map readAttribute =
      if readable s attr then some (takenAttribute attr) else none := by
  unfold vertexAttribute readable Fed
  by_cases hSkipped : attr.isFixed ∨ attr.size = 0
  · have hNot : ¬ (¬ attr.isFixed ∧ attr.size ≠ 0) := by tauto
    rw [if_pos hSkipped]
    rw [decide_eq_false hNot, Bool.false_and]
    rfl
  · have hFed : ¬ attr.isFixed ∧ attr.size ≠ 0 :=
      not_or.mp hSkipped
    rw [if_neg hSkipped, decide_eq_true hFed, Bool.true_and]
    by_cases hIdx : attr.bufferIndex.toNat < 16
    · rw [dif_pos hIdx, dif_pos hIdx]
      by_cases hActive :
          arrayActive (s.vertexArrays ⟨_, hIdx⟩)
      · rw [if_pos hActive, if_pos hActive, Option.map_some]
        unfold readAttribute takenAttribute
        rw [code_toMetalVertexFormat]
      · rw [if_neg hActive, if_neg hActive]
        rfl
    · rw [dif_neg hIdx, dif_neg hIdx]
      rfl

theorem filterMap_vertexAttribute (s : GpuState3D) :
    ((List.finRange 32).filterMap fun i =>
        vertexAttribute s (s.vertexAttribs i)).map
          readAttribute =
      (readAttributes s).map takenAttribute := by
  unfold readAttributes
  induction List.finRange 32 with
  | nil => rfl
  | cons i rest ih =>
      have hRead :=
        readAttribute_vertexAttribute s (s.vertexAttribs i)
      rw [List.map_cons, List.filterMap_cons]
      by_cases hReadable : readable s (s.vertexAttribs i)
      · rw [if_pos hReadable] at hRead
        rcases Option.map_eq_some_iff.mp hRead with
          ⟨a, hSome, hTaken⟩
        rw [hSome, List.filter_cons_of_pos hReadable,
          List.map_cons, List.map_cons, ih, hTaken]
      · rw [if_neg hReadable] at hRead
        have hNone := Option.map_eq_none_iff.mp hRead
        rw [hNone, List.filter_cons_of_neg hReadable]
        exact ih

theorem readLayout_vertexLayout (va : VertexArrayState) :
    (vertexLayout va).map readLayout =
      if arrayActive va then
        some (va.stride, if va.divisor = 0 then 0 else 1)
      else none := by
  unfold vertexLayout
  by_cases hActive : arrayActive va
  · rw [if_pos hActive, if_pos hActive]
    by_cases hDivisor : va.divisor = 0
    · rw [if_neg (not_not_intro hDivisor), if_pos hDivisor]
      rfl
    · rw [if_pos hDivisor, if_neg hDivisor]
      rfl
  · rw [if_neg hActive, if_neg hActive]
    rfl

theorem filterMap_eq_nil_iff (s : GpuState3D) :
    ((List.finRange 32).filterMap fun i =>
        vertexAttribute s (s.vertexAttribs i)) = [] ↔
      readAttributes s = [] := by
  rw [← List.map_eq_nil_iff (f := readAttribute),
    filterMap_vertexAttribute, List.map_eq_nil_iff]

/- What the descriptor of the live registers feeds. -/
theorem readAttribute_descriptor (s : GpuState3D) :
    (buildVertexDescriptor s).attributes.map readAttribute =
      fedAttributes s := by
  unfold buildVertexDescriptor fedAttributes
  dsimp only
  simp only [filterMap_eq_nil_iff]
  by_cases hNone : readAttributes s = []
  · rw [if_pos hNone, if_pos hNone]
    rfl
  · rw [if_neg hNone, if_neg hNone]
    exact filterMap_vertexAttribute s

theorem readLayout_descriptor (s : GpuState3D) (i : Fin 16) :
    ((buildVertexDescriptor s).layouts i).map readLayout =
      fedLayout s i := by
  unfold buildVertexDescriptor fedLayout
  dsimp only
  simp only [filterMap_eq_nil_iff]
  by_cases hNone : readAttributes s = []
  · rw [if_pos hNone, if_pos hNone]
    by_cases hFirst : i = 0
    · subst hFirst
      rfl
    · rw [if_neg hFirst]
      unfold ShaderManager.minimalVertexDescriptor
      dsimp only
      rw [Function.update_of_ne hFirst]
      rfl
  · rw [if_neg hNone, if_neg hNone]
    exact readLayout_vertexLayout _

/- The fed attributes and arrays are those of the slots. -/
def VertexInputKept (live s : GpuState3D) : Prop :=
  (∃ j, Fed (s.vertexAttribs j)) →
    (∀ location,
      (fedAttributes live)[location]? =
        attributeAt s location) ∧
      ∀ i, fedLayout live i = arrayLayout (s.vertexArrays i)

theorem vertexInputShown_iff :
    VertexInputShown (buildVertexDescriptor live) s ↔
      VertexInputKept live s := by
  unfold VertexInputShown VertexInputKept
  simp only [← List.getElem?_map, readAttribute_descriptor,
    readLayout_descriptor]

/- A pipeline built in the frame shows given registers. -/
structure PipelineKept
    (host : MetalHost)
    (r : MetalRenderer)
    (live s : GpuState3D) : Prop where
  blend :
    (blendEquation (live.blend 0)).map BlendEquation.taken =
      blendEquation (s.blend 0)
  mask :
    ∀ i : Fin 4,
      (live.blend 0).colorMask.getLsbD i =
        (s.blend 0).colorMask.getLsbD i
  colorFormat :
    (if targetObtained host r live then
      asRtFormat (live.rt 0).format
    else RtFormat.BGRA8Unorm_sRGB) = colorFormatCode s
  oneTarget : ∀ i, i ≠ 0 → ¬ Named (s.rt i)
  depthFormat :
    (if depthObtained host r live then
      some (asDepthFormat live.depthTarget.format)
    else none) = depthFormatCode s.depthTarget
  vertexInput : VertexInputKept live s

theorem pipelineShows_iff
    {host : MetalHost}
    {r : MetalRenderer}
    {vertFn fragFn : MTLFunction} :
    PipelineShows
        (pipelineDescriptor live vertFn fragFn
          ((r.resolveRenderTargets host live).colorFormat live)
          (r.resolveRenderTargets host live).depthFormat
          (live.blend 0)) s ↔
      PipelineKept host r live s := by
  constructor
  · rintro ⟨hBlend, hMask, hColor, hOne, hDepth, hInput⟩
    refine ⟨?_, ?_, ?_, hOne, ?_, ?_⟩
    · rw [← readBlend_blendDescriptor]
      exact hBlend
    · intro i
      rw [← writes_colorWriteMask]
      exact hMask i
    · exact Option.some_inj.mp
        ((code_colorFormat host r live).symm.trans hColor)
    · exact (code_depthFormat host r live).symm.trans hDepth
    · exact vertexInputShown_iff.mp hInput
  · rintro ⟨hBlend, hMask, hColor, hOne, hDepth, hInput⟩
    refine ⟨?_, ?_, ?_, hOne, ?_, ?_⟩
    · exact (readBlend_blendDescriptor _).trans hBlend
    · intro i
      exact (writes_colorWriteMask _ i).trans (hMask i)
    · exact (code_colorFormat host r live).trans
        (congrArg some hColor)
    · exact (code_depthFormat host r live).trans hDepth
    · exact vertexInputShown_iff.mpr hInput

end MetalRenderer

end M1Switch
