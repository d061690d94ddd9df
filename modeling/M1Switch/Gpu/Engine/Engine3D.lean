import M1Switch.Gpu.Maxwell.GpuState
import M1Switch.Gpu.Maxwell.MethodDefs

/-
  Method writes of the 3D engine.

  A write is first routed by range to the array registers;
  a method outside every range reaches the `switch`.

  Key definitions include:
    * `routeArray`
    * `switchMethod`

  Main results:
    * `handleMethod_isDraw_iff`
    * `counts_handleMethod`
-/

------
-- Method Group Handlers
------

namespace M1Switch

namespace Engine3D

/- Test one bit of a register value. -/
def bit (value : U32) (i : Nat) : Bool :=
  (value >>> i) &&& 1#32 != 0

/- Extract a masked field of a register value. -/
def field (value : U32) (shift : Nat) (mask : U32) : U32 :=
  (value >>> shift) &&& mask

def handleRenderTarget
    (s : GpuState3D)
    (index : Nat)
    (value : U32) : GpuState3D :=
  let i : Fin 8 := ⟨index % 8, Nat.mod_lt _ (by decide)⟩
  let rt := s.rt i
  let put (r : RtState) : GpuState3D :=
    { s with rt := Function.update s.rt i r }
  match index / 8 with
  | 0 => put { rt with address := setLow32 rt.address value }
  | 1 => put { rt with width := value }
  | 2 => put { rt with height := value }
  | 3 => put { rt with format := value }
  | 4 => put { rt with tileMode := value }
  | 5 => put { rt with arrayMode := value }
  | 6 => put { rt with layerStride := value }
  | 7 => put { rt with baseLayer := value }
  | _ => s

def handleViewport
    (s : GpuState3D)
    (index : Nat)
    (value : U32) : GpuState3D :=
  if hIndex : index / 8 < MAX_VIEWPORTS then
    let i : Fin 16 := ⟨index / 8, hIndex⟩
    let vp := s.viewports i
    let put (v : ViewportState) : GpuState3D :=
      { s with viewports := Function.update s.viewports i v }
    match index % 8 with
    | 0 => put { vp with scaleX := value }
    | 1 => put { vp with scaleY := value }
    | 2 => put { vp with scaleZ := value }
    | 3 => put { vp with translateX := value }
    | 4 => put { vp with translateY := value }
    | 5 => put { vp with translateZ := value }
    | 6 => put { vp with swizzle := value }
    | _ => s
  else s

def handleScissor
    (s : GpuState3D)
    (index : Nat)
    (value : U32) : GpuState3D :=
  let i : Fin 16 := ⟨index % 16, Nat.mod_lt _ (by decide)⟩
  if index / 16 = 0 then
    { s with
      scissors :=
        Function.update s.scissors i
          { s.scissors i with enabled := bit value 0 } }
  else s

def handleVertexArray
    (s : GpuState3D)
    (index : Nat)
    (value : U32) : GpuState3D :=
  let i : Fin 16 :=
    ⟨index / 4 % 16, Nat.mod_lt _ (by decide)⟩
  let va := s.vertexArrays i
  let put (v : VertexArrayState) : GpuState3D :=
    { s with
      vertexArrays := Function.update s.vertexArrays i v }
  match index % 4 with
  | 0 =>
      put { va with
        stride := value &&& 0xFFF#32
        enabled := bit value 12 }
  | 1 => put { va with address := setLow32 va.address value }
  | 3 => put { va with divisor := value }
  | _ => s

def handleVertexAttrib
    (s : GpuState3D)
    (index : Nat)
    (value : U32) : GpuState3D :=
  let i : Fin 32 := ⟨index % 32, Nat.mod_lt _ (by decide)⟩
  { s with
    vertexAttribs :=
      Function.update s.vertexAttribs i
        { bufferIndex := value &&& 0x1F#32
          isFixed := bit value 6
          offset := field value 7 0x3FFF#32
          size := field value 21 0x3F#32
          type := field value 27 0x7#32
          isBgra := bit value 31 } }

def handleBlend
    (s : GpuState3D)
    (index : Nat)
    (value : U32) : GpuState3D :=
  let i : Fin 8 := ⟨index % 8, Nat.mod_lt _ (by decide)⟩
  let b := s.blend i
  let put (b : BlendState) : GpuState3D :=
    { s with blend := Function.update s.blend i b }
  match index / 8 with
  | 0 => put { b with enabled := bit value 0 }
  | 1 => put { b with colorOp := value }
  | 2 => put { b with srcColor := value }
  | 3 => put { b with dstColor := value }
  | 4 => put { b with alphaOp := value }
  | 5 => put { b with srcAlpha := value }
  | 6 => put { b with dstAlpha := value }
  | _ => s

def handleShader
    (s : GpuState3D)
    (index : Nat)
    (value : U32) : GpuState3D :=
  let i : Fin 6 := ⟨index % 6, Nat.mod_lt _ (by decide)⟩
  let sh := s.shaders i
  let put (sh : ShaderState) : GpuState3D :=
    { s with shaders := Function.update s.shaders i sh }
  match index / 6 with
  | 0 =>
      put { sh with
        enabled := bit value 0
        stageId := field value 4 0x7#32 }
  | 1 => put { sh with offset := setLow32 sh.offset value }
  | _ => s

------
-- Array Routing
------

/- The method lies in an array of `count` registers. -/
def inRange (method base count : Nat) : Bool :=
  base ≤ method ∧ method < base + count

/- Update one blend target. -/
def putBlend
    (s : GpuState3D)
    (i : Nat)
    (f : BlendState → BlendState) : GpuState3D :=
  if hIndex : i < MAX_BLEND_TARGETS then
    { s with
      blend := Function.update s.blend ⟨i, hIndex⟩
        (f (s.blend ⟨i, hIndex⟩)) }
  else s

/- Update one vertex array. -/
def putVertexArray
    (s : GpuState3D)
    (i : Nat)
    (f : VertexArrayState → VertexArrayState) :
    GpuState3D :=
  if hIndex : i < MAX_VERTEX_ARRAYS then
    { s with
      vertexArrays :=
        Function.update s.vertexArrays ⟨i, hIndex⟩
          (f (s.vertexArrays ⟨i, hIndex⟩)) }
  else s

/-
  Range checks made before the `switch`; `none` when the
  method lies in no range.
-/
def routeArray
    (s : GpuState3D)
    (method : Nat)
    (value : U32) : Option GpuState3D :=
  if inRange method Method3D.RenderTarget (8 * 8) then
    some (handleRenderTarget s
      ((method - Method3D.RenderTarget) / 8) value)
  else if
      inRange method Method3D.ViewportTransform (16 * 6) then
    some (handleViewport s
      (method - Method3D.ViewportTransform) value)
  else if inRange method Method3D.Scissor 16 then
    some (handleScissor s
      (method - Method3D.Scissor) value)
  else if inRange method Method3D.VertexAttribState 32 then
    some (handleVertexAttrib s
      (method - Method3D.VertexAttribState) value)
  else if inRange method Method3D.ColorBlendEnable 8 then
    some (putBlend s (method - Method3D.ColorBlendEnable)
      fun b => { b with enabled := value != 0 })
  else if method = Method3D.StencilFrontFuncRef then
    some { s with depthStencil.stencilFrontRef :=
      value &&& 0xFF#32 }
  else if method = Method3D.StencilFrontFuncMask then
    some { s with depthStencil.stencilFrontMask :=
      value &&& 0xFF#32 }
  else if method = Method3D.StencilFrontMask then
    some { s with depthStencil.stencilFrontWritemask :=
      value &&& 0xFF#32 }
  else if inRange method Method3D.ColorWriteMask 8 then
    some (putBlend s (method - Method3D.ColorWriteMask)
      fun b => { b with colorMask := value &&& 0xF#32 })
  else if inRange method Method3D.VertexArray (16 * 4) then
    some (handleVertexArray s
      (method - Method3D.VertexArray) value)
  else if
      inRange method Method3D.IndependentBlend (8 * 7) then
    some (handleBlend s
      (method - Method3D.IndependentBlend) value)
  else if inRange method Method3D.VertexArrayLimit 16 then
    some s
  else if inRange method Method3D.SetProgram.code (6 * 2) then
    some (handleShader s
      (method - Method3D.SetProgram.code) value)
  else if
      inRange method Method3D.IsVertexArrayPerInstance 16 then
    some (putVertexArray s
      (method - Method3D.IsVertexArrayPerInstance)
      fun va =>
        { va with divisor := if value != 0 then 1 else 0 })
  else none

------
-- The Switch
------

/- The methods that trigger a draw. -/
def isDrawMethod (m : Method3D) : Bool :=
  m = .DrawArraysCount ∨ m = .DrawElementsCount

/- The state update of each case of the `switch`. -/
def switchMethod
    (s : GpuState3D)
    (m : Method3D)
    (value : U32) : GpuState3D :=
  match m with
  | .RenderTargetControl => { s with rtControl := value }
  -- Draw commands
  | .DrawArraysFirst => { s with drawArraysFirst := value }
  | .DrawArraysCount => { s with drawArraysCount := value }
  | .DrawElementsFirst =>
      { s with drawElementsFirst := value }
  | .DrawElementsCount =>
      { s with drawElementsCount := value }
  | .ScreenScissorHorizontal => s
  | .ScreenScissorVertical => s
  -- Index buffer
  | .IndexArrayStartIova =>
      { s with indexBuffer.address :=
        setLow32 s.indexBuffer.address value }
  | .IndexArrayStartIovaHigh =>
      { s with indexBuffer.address :=
        setHigh32 s.indexBuffer.address value }
  | .IndexArrayLimitIova =>
      { s with indexBuffer.limit :=
        setLow32 s.indexBuffer.limit value }
  | .IndexArrayLimitIovaHigh =>
      { s with indexBuffer.limit :=
        setHigh32 s.indexBuffer.limit value }
  | .IndexArrayFormat =>
      { s with indexBuffer.format := value }
  -- Shaders
  | .SetProgram => handleShader s 0 value
  | .SetProgramRegion =>
      { s with programRegion :=
        setLow32 s.programRegion value }
  | .SetProgramRegionHigh =>
      { s with programRegion :=
        setHigh32 s.programRegion value }
  | .SetTexHeaderPool =>
      { s with texHeaderPool :=
        setLow32 s.texHeaderPool value }
  | .SetTexHeaderPoolMaximumIndex =>
      { s with texHeaderMaxIdx := value }
  | .SetTexSamplerPool =>
      { s with texSamplerPool :=
        setLow32 s.texSamplerPool value }
  | .SetTexSamplerPoolMaximumIndex =>
      { s with texSamplerMaxIdx := value }
  -- Depth/Stencil
  | .DepthTargetAddr =>
      { s with depthTarget.address :=
        setLow32 s.depthTarget.address value }
  | .DepthTargetFormat =>
      { s with depthTarget.format := value }
  | .DepthTargetHorizontal =>
      { s with depthTarget.width := value }
  | .DepthTargetVertical =>
      { s with depthTarget.height := value }
  | .DepthTargetArrayMode =>
      { s with depthTarget.tileMode := value }
  | .DepthTargetEnable =>
      { s with depthTarget.enabled := value != 0 }
  | .DepthTestEnable =>
      { s with depthStencil.depthEnabled := value != 0 }
  | .DepthWriteEnable =>
      { s with depthStencil.depthWrite := value != 0 }
  | .DepthTestFunc =>
      { s with depthStencil.depthFunc := value }
  | .StencilEnable =>
      { s with depthStencil.stencilEnable := value != 0 }
  | .StencilFrontFunc =>
      { s with
        depthStencil :=
          { s.depthStencil with
            stencilFrontFunc := value &&& 0xF#32
            stencilFrontRef := field value 16 0xFF#32 } }
  | .StencilFrontOpFail =>
      { s with depthStencil.stencilFrontFail :=
        value &&& 0xF#32 }
  | .StencilFrontOpZFail =>
      { s with depthStencil.stencilFrontZfail :=
        value &&& 0xF#32 }
  | .StencilFrontOpZPass =>
      { s with depthStencil.stencilFrontZpass :=
        value &&& 0xF#32 }
  | .StencilTwoSideEnable =>
      { s with depthStencil.stencilTwoSide := value != 0 }
  | .StencilBackFunc =>
      { s with depthStencil.stencilBackFunc :=
        value &&& 0xF#32 }
  | .StencilBackFuncRef =>
      { s with depthStencil.stencilBackRef :=
        value &&& 0xFF#32 }
  | .StencilBackMask =>
      { s with depthStencil.stencilBackMask :=
        value &&& 0xFF#32 }
  | .StencilBackOpFail =>
      { s with depthStencil.stencilBackFail :=
        value &&& 0xF#32 }
  | .StencilBackOpZFail =>
      { s with depthStencil.stencilBackZfail :=
        value &&& 0xF#32 }
  | .StencilBackOpZPass =>
      { s with depthStencil.stencilBackZpass :=
        value &&& 0xF#32 }
  | .DepthBoundsEnable =>
      { s with
        depthStencil.depthBoundsEnable := value != 0 }
  | .DepthBoundsNear =>
      { s with depthStencil.depthBoundsNear := value }
  | .DepthBoundsFar =>
      { s with depthStencil.depthBoundsFar := value }
  -- Blend
  | .IndependentBlendEnable =>
      { s with independentBlend := value != 0 }
  | .BlendConstant =>
      { s with
        blendConst := Function.update s.blendConst 0 value }
  -- Rasterization
  | .RasterizerEnable =>
      { s with rasterizerEnable := value != 0 }
  | .SetFrontFace => { s with frontFace := value }
  | .SetCullFace => { s with cullFace := value }
  | .CullFaceEnable => { s with cullEnable := value != 0 }
  | .SetPolygonModeFront =>
      { s with polygonModeFront := value }
  | .SetPolygonModeBack =>
      { s with polygonModeBack := value }
  | .PolygonOffsetPointEnable =>
      { s with polygonOffsetPoint := value != 0 }
  | .PolygonOffsetLineEnable =>
      { s with polygonOffsetLine := value != 0 }
  | .PolygonOffsetFillEnable =>
      { s with polygonOffsetFill := value != 0 }
  | .PolygonOffsetFactor =>
      { s with polygonOffsetFactor := value }
  | .PolygonOffsetUnits =>
      { s with polygonOffsetUnits := value }
  | .PolygonOffsetClamp =>
      { s with polygonOffsetClamp := value }
  | .AlphaTestEnable =>
      { s with alphaTestEnable := value != 0 }
  | .AlphaTestRef => { s with alphaTestRef := value }
  | .AlphaTestFunc => { s with alphaTestFunc := value }
  | .ColorLogicOpEnable =>
      { s with logicOpEnable := value != 0 }
  | .ColorLogicOpType => { s with logicOp := value }
  | .VertexBeginGl =>
      { s with primitiveType := value &&& 0xF#32 }
  -- Clear
  | .ClearColor =>
      { s with
        clear.color := Function.update s.clear.color 0 value }
  | .ClearDepth => { s with clear.depth := value }
  | .ClearStencil => { s with clear.stencil := value }
  | .ClearBuffers => { s with clear.buffers := value }
  -- Misc
  | .MultisampleEnable =>
      { s with multisample.enable := value != 0 }
  | .MultisampleControl =>
      { s with
        multisample :=
          { s.multisample with
            alphaToCoverage := bit value 0
            alphaToOne := bit value 4 } }
  | .ViewportTransformEnable =>
      { s with viewportTransformEnable := value != 0 }
  | .ViewVolumeClipControl =>
      { s with depthClamp := bit value 3 }
  | .PrimitiveRestartEnable =>
      { s with primitiveRestart := value != 0 }
  | .PrimitiveRestartIndex =>
      { s with primitiveRestartIndex := value }
  -- No state change
  | .NoOperation => s
  | .PipeNop => s
  | .WaitForIdle => s
  | .InvalidateShaderCaches => s
  | .InvalidateTextureDataCache => s
  | .InvalidateTextureDataCacheNoWfi => s
  | .FragmentBarrier => s

/- One method write, and whether it triggers a draw. -/
def handleMethod
    (s : GpuState3D)
    (method : Nat)
    (value : U32) : GpuState3D × Bool :=
  match routeArray s method value with
  | some s' => (s', false)
  | none =>
      match Method3D.ofCode? method with
      | some m => (switchMethod s m value, isDrawMethod m)
      | none => (s, false)

/- The registers after a sequence of method writes. -/
def runWrites (writes : List (Nat × U32)) : GpuState3D :=
  writes.foldl (fun s w => (handleMethod s w.1 w.2).1)
    GpuState3D.reset

------
-- Draw Counts
------

/- The live draw counts of a register state. -/
def counts (s : GpuState3D) : U32 × U32 :=
  (s.drawArraysCount, s.drawElementsCount)

/- What no array register but a shader's touches. -/
def plain (s : GpuState3D) :
    (U32 × U32) × (Fin 6 → ShaderState) :=
  (counts s, s.shaders)

@[simp] theorem plain_handleRenderTarget
    (s : GpuState3D) (index : Nat) (value : U32) :
    plain (handleRenderTarget s index value) =
      plain s := by
  unfold handleRenderTarget
  dsimp only
  split <;> rfl

@[simp] theorem plain_handleViewport
    (s : GpuState3D) (index : Nat) (value : U32) :
    plain (handleViewport s index value) = plain s := by
  unfold handleViewport
  split
  · dsimp only
    split <;> rfl
  · rfl

@[simp] theorem plain_handleScissor
    (s : GpuState3D) (index : Nat) (value : U32) :
    plain (handleScissor s index value) = plain s := by
  unfold handleScissor
  dsimp only
  split <;> rfl

@[simp] theorem plain_handleVertexArray
    (s : GpuState3D) (index : Nat) (value : U32) :
    plain (handleVertexArray s index value) =
      plain s := by
  unfold handleVertexArray
  dsimp only
  split <;> rfl

@[simp] theorem plain_handleBlend
    (s : GpuState3D) (index : Nat) (value : U32) :
    plain (handleBlend s index value) = plain s := by
  unfold handleBlend
  dsimp only
  split <;> rfl

@[simp] theorem plain_putBlend
    (s : GpuState3D) (i : Nat)
    (f : BlendState → BlendState) :
    plain (putBlend s i f) = plain s := by
  unfold putBlend
  split <;> rfl

@[simp] theorem plain_putVertexArray
    (s : GpuState3D) (i : Nat)
    (f : VertexArrayState → VertexArrayState) :
    plain (putVertexArray s i f) = plain s := by
  unfold putVertexArray
  split <;> rfl

theorem counts_handleShader
    (s : GpuState3D) (index : Nat) (value : U32) :
    counts (handleShader s index value) = counts s := by
  unfold handleShader
  dsimp only
  split <;> rfl

/-
  An array register: no draw count, and the shaders only as a
  shader register does.
-/
structure Routed
    (s : GpuState3D)
    (value : U32)
    (s' : GpuState3D) : Prop where
  counts : counts s' = counts s
  shaders :
    s'.shaders = s.shaders ∨
      ∃ index, s' = handleShader s index value

theorem routed_of_plain
    {s s' : GpuState3D}
    {value : U32}
    (hPlain : plain s' = plain s) :
    Routed s value s' :=
  ⟨congrArg Prod.fst hPlain,
    Or.inl (congrArg Prod.snd hPlain)⟩

theorem routed_handleShader
    (s : GpuState3D)
    (index : Nat)
    (value : U32) :
    Routed s value (handleShader s index value) :=
  ⟨counts_handleShader s index value, Or.inr ⟨index, rfl⟩⟩

/- A property of every branch is a property of the result. -/
theorem of_ite_eq_some
    {P : GpuState3D → Prop} {c : Prop} [Decidable c]
    {a : GpuState3D} {rest : Option GpuState3D}
    (hThen : P a)
    (hElse : ∀ s', rest = some s' → P s') :
    ∀ s', (if c then some a else rest) = some s' →
      P s' := by
  intro s' hEq
  by_cases hc : c
  · rw [if_pos hc] at hEq
    cases hEq
    exact hThen
  · rw [if_neg hc] at hEq
    exact hElse s' hEq

theorem routed_of_routeArray
    (s : GpuState3D)
    (method : Nat)
    (value : U32) :
    ∀ s', routeArray s method value = some s' →
      Routed s value s' := by
  unfold routeArray
  iterate 14
    refine of_ite_eq_some
      (by
        first
        | with_reducible exact routed_handleShader _ _ _
        | apply routed_of_plain; simp; done
        | apply routed_of_plain; rfl) ?_
  intro s' hNone
  cases hNone

/- Only the two draw methods write a draw count. -/
theorem counts_switchMethod
    (s : GpuState3D)
    (m : Method3D)
    (value : U32)
    (hDraw : isDrawMethod m = false) :
    counts (switchMethod s m value) = counts s := by
  cases m <;>
    first
    | rfl
    | exact absurd hDraw (by decide)

/- The draw methods, by number. -/
theorem handleMethod_isDraw_iff
    (s : GpuState3D)
    (method : Nat)
    (value : U32) :
    (handleMethod s method value).2 = true ↔
      method = Method3D.DrawArraysCount.code ∨
        method = Method3D.DrawElementsCount.code := by
  constructor
  · intro hDraw
    unfold handleMethod at hDraw
    split at hDraw
    · simp at hDraw
    · split at hDraw
      · rename_i m hFound
        have hCode := Method3D.code_of_ofCode? hFound
        simp only [isDrawMethod, decide_eq_true_eq] at hDraw
        rcases hDraw with rfl | rfl
        · exact Or.inl hCode.symm
        · exact Or.inr hCode.symm
      · simp at hDraw
  · intro hMethod
    rcases hMethod with rfl | rfl <;> rfl

/- A write that is no draw keeps the draw counts. -/
theorem counts_handleMethod
    (s : GpuState3D)
    (method : Nat)
    (value : U32)
    (hDraw : (handleMethod s method value).2 = false) :
    counts (handleMethod s method value).1 = counts s := by
  unfold handleMethod at hDraw ⊢
  cases hRoute : routeArray s method value with
  | some s' =>
      exact
        (routed_of_routeArray s method value s' hRoute).counts
  | none =>
      cases hFound : Method3D.ofCode? method with
      | none => rfl
      | some m =>
          simp only [hRoute, hFound] at hDraw ⊢
          exact counts_switchMethod s m value hDraw

------
-- Shader Offsets
------

/- Shader offsets are 32-bit values. -/
def OffsetsBounded (s : GpuState3D) : Prop :=
  ∀ i, (s.shaders i).offset.toNat < 2 ^ 32

theorem setLow32_bound
    {address : U64}
    (value : U32)
    (hBound : address.toNat < 2 ^ 32) :
    (setLow32 address value).toNat < 2 ^ 32 := by
  unfold setLow32
  rw [BitVec.toNat_or, BitVec.toNat_and]
  apply Nat.or_lt_two_pow
  · exact Nat.lt_of_le_of_lt Nat.and_le_left hBound
  · rw [BitVec.toNat_setWidth_of_le (by omega)]
    exact value.isLt

theorem OffsetsBounded.update
    {s : GpuState3D}
    {sh : ShaderState}
    (hBound : OffsetsBounded s)
    (i : Fin 6)
    (hSh : sh.offset.toNat < 2 ^ 32) :
    OffsetsBounded
      { s with shaders := Function.update s.shaders i sh } := by
  intro j
  dsimp only
  by_cases hJ : j = i
  · rw [hJ, Function.update_self]
    exact hSh
  · rw [Function.update_of_ne hJ]
    exact hBound j

theorem offsetsBounded_handleShader
    {s : GpuState3D}
    (index : Nat)
    (value : U32)
    (hBound : OffsetsBounded s) :
    OffsetsBounded (handleShader s index value) := by
  unfold handleShader
  dsimp only
  split
  · exact hBound.update _ (hBound _)
  · exact hBound.update _ (setLow32_bound value (hBound _))
  · exact hBound

/- No method write leads past the 32-bit offsets. -/
theorem offsetsBounded_handleMethod
    {s : GpuState3D}
    (method : Nat)
    (value : U32)
    (hBound : OffsetsBounded s) :
    OffsetsBounded (handleMethod s method value).1 := by
  unfold handleMethod
  cases hRoute : routeArray s method value with
  | some s' =>
      rcases
          (routed_of_routeArray s method value s'
            hRoute).shaders with hSame | ⟨index, hShader⟩
      · intro i
        rw [hSame]
        exact hBound i
      · rw [hShader]
        exact offsetsBounded_handleShader index value hBound
  | none =>
      cases Method3D.ofCode? method with
      | none => exact hBound
      | some m =>
          cases m <;>
            first
            | exact hBound
            | exact offsetsBounded_handleShader 0 value hBound

end Engine3D

end M1Switch
