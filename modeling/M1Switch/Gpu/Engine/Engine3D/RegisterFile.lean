import M1Switch.Gpu.Engine.Engine3D.Registers

/-
  The 3D engine as a file of registers.

  Outside the block of the render targets, what the engine holds
  is what was last written to each register.  Three kinds of
  registers share a field with another one; of these two only
  one may be written for the order not to matter.

  Key definitions include:
    * `Engine3D.RegisterFile`
    * `decode`

  Main results:
    * `effect_decode`
    * `write_comm_and_idem`
-/

------
-- The File
------

namespace M1Switch

namespace Engine3D

/- What was last written to each register of an array, and to
each method of the `switch`. -/
structure RegisterFile where
  arrays : Register → Option U32
  of : Method3D → Option U32

/- A field made of what was last written, or as it was. -/
def held {α : Type}
    (last : Option U32)
    (make : U32 → α)
    (old : α) : α :=
  match last with
  | some value => make value
  | none => old

@[simp] theorem held_some {α : Type}
    (value : U32)
    (make : U32 → α)
    (old : α) :
    held (some value) make old = make value :=
  rfl

@[simp] theorem held_none {α : Type}
    (make : U32 → α)
    (old : α) :
    held none make old = old :=
  rfl

/- Two words of an address. -/
def heldAddress (lo hi : Option U32) (old : U64) : U64 :=
  held hi (setHigh32 (held lo (setLow32 old) old))
    (held lo (setLow32 old) old)

/- What the registers of a viewport hold; the range holds twelve
viewports. -/
def RegisterFile.viewport
    (regs : RegisterFile)
    (i : Fin 16)
    (old : ViewportState) : ViewportState :=
  if hI : i.val < 12 then
    let last (sub : Fin 8) := regs.arrays (.viewport ⟨i, hI⟩ sub)
    { scaleX := held (last 0) id old.scaleX
      scaleY := held (last 1) id old.scaleY
      scaleZ := held (last 2) id old.scaleZ
      translateX := held (last 3) id old.translateX
      translateY := held (last 4) id old.translateY
      translateZ := held (last 5) id old.translateZ
      swizzle := held (last 6) id old.swizzle }
  else old

def RegisterFile.vertexArray
    (regs : RegisterFile)
    (i : Fin 16)
    (old : VertexArrayState) : VertexArrayState :=
  { address :=
      held (regs.arrays (.vertexArray i 1)) (setLow32 old.address)
        old.address
    stride :=
      held (regs.arrays (.vertexArray i 0)) (· &&& 0xFFF#32) old.stride
    divisor :=
      held (regs.arrays (.vertexArray i 3)) id
        (held (regs.arrays (.isVertexArrayPerInstance i))
          (fun value => if value != 0 then 1 else 0) old.divisor)
    enabled :=
      held (regs.arrays (.vertexArray i 0)) (bit · 12) old.enabled }

def RegisterFile.vertexAttrib
    (regs : RegisterFile)
    (i : Fin 32)
    (old : VertexAttribState) : VertexAttribState :=
  held (regs.arrays (.vertexAttrib i))
    (fun value =>
      { bufferIndex := value &&& 0x1F#32
        isFixed := bit value 6
        offset := field value 7 0x3FFF#32
        size := field value 21 0x3F#32
        type := field value 27 0x7#32
        isBgra := bit value 31 })
    old

def RegisterFile.blend
    (regs : RegisterFile)
    (i : Fin 8)
    (old : BlendState) : BlendState :=
  let last (sub : Fin 7) := regs.arrays (.independentBlend sub i)
  { enabled :=
      held (last 0) (bit · 0)
        (held (regs.arrays (.colorBlendEnable i)) (· != 0) old.enabled)
    colorOp := held (last 1) id old.colorOp
    srcColor := held (last 2) id old.srcColor
    dstColor := held (last 3) id old.dstColor
    alphaOp := held (last 4) id old.alphaOp
    srcAlpha := held (last 5) id old.srcAlpha
    dstAlpha := held (last 6) id old.dstAlpha
    colorMask :=
      held (regs.arrays (.colorWriteMask i)) (· &&& 0xF#32)
        old.colorMask }

def RegisterFile.shader
    (regs : RegisterFile)
    (i : Fin 6)
    (old : ShaderState) : ShaderState :=
  { offset :=
      held (regs.arrays (.program 1 i)) (setLow32 old.offset) old.offset
    enabled := held (regs.arrays (.program 0 i)) (bit · 0) old.enabled
    stageId :=
      held (regs.arrays (.program 0 i)) (field · 4 0x7#32) old.stageId }

def RegisterFile.depthStencil
    (regs : RegisterFile)
    (old : DepthStencilState) : DepthStencilState :=
  { depthEnabled :=
      held (regs.of .DepthTestEnable) (· != 0) old.depthEnabled
    depthWrite :=
      held (regs.of .DepthWriteEnable) (· != 0) old.depthWrite
    depthFunc := held (regs.of .DepthTestFunc) id old.depthFunc
    stencilEnable :=
      held (regs.of .StencilEnable) (· != 0) old.stencilEnable
    stencilFrontFunc :=
      held (regs.of .StencilFrontFunc) (· &&& 0xF#32)
        old.stencilFrontFunc
    stencilFrontRef :=
      held (regs.arrays .stencilFrontFuncRef) (· &&& 0xFF#32)
        (held (regs.of .StencilFrontFunc) (field · 16 0xFF#32)
          old.stencilFrontRef)
    stencilFrontMask :=
      held (regs.arrays .stencilFrontFuncMask) (· &&& 0xFF#32)
        old.stencilFrontMask
    stencilFrontWritemask :=
      held (regs.arrays .stencilFrontMask) (· &&& 0xFF#32)
        old.stencilFrontWritemask
    stencilFrontFail :=
      held (regs.of .StencilFrontOpFail) (· &&& 0xF#32)
        old.stencilFrontFail
    stencilFrontZfail :=
      held (regs.of .StencilFrontOpZFail) (· &&& 0xF#32)
        old.stencilFrontZfail
    stencilFrontZpass :=
      held (regs.of .StencilFrontOpZPass) (· &&& 0xF#32)
        old.stencilFrontZpass
    stencilTwoSide :=
      held (regs.of .StencilTwoSideEnable) (· != 0)
        old.stencilTwoSide
    stencilBackFunc :=
      held (regs.of .StencilBackFunc) (· &&& 0xF#32)
        old.stencilBackFunc
    stencilBackRef :=
      held (regs.of .StencilBackFuncRef) (· &&& 0xFF#32)
        old.stencilBackRef
    stencilBackMask :=
      held (regs.of .StencilBackMask) (· &&& 0xFF#32)
        old.stencilBackMask
    stencilBackWritemask := old.stencilBackWritemask
    stencilBackFail :=
      held (regs.of .StencilBackOpFail) (· &&& 0xF#32)
        old.stencilBackFail
    stencilBackZfail :=
      held (regs.of .StencilBackOpZFail) (· &&& 0xF#32)
        old.stencilBackZfail
    stencilBackZpass :=
      held (regs.of .StencilBackOpZPass) (· &&& 0xF#32)
        old.stencilBackZpass
    depthBoundsEnable :=
      held (regs.of .DepthBoundsEnable) (· != 0)
        old.depthBoundsEnable
    depthBoundsNear :=
      held (regs.of .DepthBoundsNear) id old.depthBoundsNear
    depthBoundsFar :=
      held (regs.of .DepthBoundsFar) id old.depthBoundsFar }

/- The engine's state: a field whose registers were not written
is as it was. -/
def decode
    (s : GpuState3D)
    (regs : RegisterFile) : GpuState3D :=
  { rt := s.rt
    rtControl := held (regs.of .RenderTargetControl) id s.rtControl
    viewports := fun i => regs.viewport i (s.viewports i)
    viewportTransformEnable :=
      held (regs.of .ViewportTransformEnable) (· != 0)
        s.viewportTransformEnable
    scissors := fun i =>
      { s.scissors i with
        enabled :=
          held (regs.arrays (.scissor i)) (bit · 0)
            (s.scissors i).enabled }
    vertexArrays := fun i => regs.vertexArray i (s.vertexArrays i)
    vertexAttribs := fun i =>
      regs.vertexAttrib i (s.vertexAttribs i)
    indexBuffer :=
      { address :=
          heldAddress (regs.of .IndexArrayStartIova)
            (regs.of .IndexArrayStartIovaHigh)
            s.indexBuffer.address
        limit :=
          heldAddress (regs.of .IndexArrayLimitIova)
            (regs.of .IndexArrayLimitIovaHigh) s.indexBuffer.limit
        count := s.indexBuffer.count
        format :=
          held (regs.of .IndexArrayFormat) id
            s.indexBuffer.format }
    depthTarget :=
      { address :=
          held (regs.of .DepthTargetAddr)
            (setLow32 s.depthTarget.address) s.depthTarget.address
        format :=
          held (regs.of .DepthTargetFormat) id
            s.depthTarget.format
        width :=
          held (regs.of .DepthTargetHorizontal) id
            s.depthTarget.width
        height :=
          held (regs.of .DepthTargetVertical) id
            s.depthTarget.height
        tileMode :=
          held (regs.of .DepthTargetArrayMode) id
            s.depthTarget.tileMode
        enabled :=
          held (regs.of .DepthTargetEnable) (· != 0)
            s.depthTarget.enabled }
    blend := fun i => regs.blend i (s.blend i)
    independentBlend :=
      held (regs.of .IndependentBlendEnable) (· != 0)
        s.independentBlend
    blendConst :=
      held (regs.of .BlendConstant)
        (Function.update s.blendConst 0) s.blendConst
    depthStencil := regs.depthStencil s.depthStencil
    clear :=
      { color :=
          held (regs.of .ClearColor)
            (Function.update s.clear.color 0) s.clear.color
        depth := held (regs.of .ClearDepth) id s.clear.depth
        stencil := held (regs.of .ClearStencil) id s.clear.stencil
        buffers :=
          held (regs.of .ClearBuffers) id s.clear.buffers }
    shaders := fun i => regs.shader i (s.shaders i)
    rasterizerEnable :=
      held (regs.of .RasterizerEnable) (· != 0) s.rasterizerEnable
    primitiveType :=
      held (regs.of .VertexBeginGl) (· &&& 0xF#32) s.primitiveType
    polygonModeFront :=
      held (regs.of .SetPolygonModeFront) id s.polygonModeFront
    polygonModeBack :=
      held (regs.of .SetPolygonModeBack) id s.polygonModeBack
    cullFace := held (regs.of .SetCullFace) id s.cullFace
    frontFace := held (regs.of .SetFrontFace) id s.frontFace
    cullEnable :=
      held (regs.of .CullFaceEnable) (· != 0) s.cullEnable
    primitiveRestart :=
      held (regs.of .PrimitiveRestartEnable) (· != 0)
        s.primitiveRestart
    primitiveRestartIndex :=
      held (regs.of .PrimitiveRestartIndex) id
        s.primitiveRestartIndex
    depthClamp :=
      held (regs.of .ViewVolumeClipControl) (bit · 3) s.depthClamp
    polygonOffsetPoint :=
      held (regs.of .PolygonOffsetPointEnable) (· != 0)
        s.polygonOffsetPoint
    polygonOffsetLine :=
      held (regs.of .PolygonOffsetLineEnable) (· != 0)
        s.polygonOffsetLine
    polygonOffsetFill :=
      held (regs.of .PolygonOffsetFillEnable) (· != 0)
        s.polygonOffsetFill
    polygonOffsetFactor :=
      held (regs.of .PolygonOffsetFactor) id s.polygonOffsetFactor
    polygonOffsetUnits :=
      held (regs.of .PolygonOffsetUnits) id s.polygonOffsetUnits
    polygonOffsetClamp :=
      held (regs.of .PolygonOffsetClamp) id s.polygonOffsetClamp
    alphaTestEnable :=
      held (regs.of .AlphaTestEnable) (· != 0) s.alphaTestEnable
    alphaTestFunc :=
      held (regs.of .AlphaTestFunc) id s.alphaTestFunc
    alphaTestRef := held (regs.of .AlphaTestRef) id s.alphaTestRef
    logicOpEnable :=
      held (regs.of .ColorLogicOpEnable) (· != 0) s.logicOpEnable
    logicOp := held (regs.of .ColorLogicOpType) id s.logicOp
    multisample :=
      { enable :=
          held (regs.of .MultisampleEnable) (· != 0)
            s.multisample.enable
        sampleMask := s.multisample.sampleMask
        alphaToCoverage :=
          held (regs.of .MultisampleControl) (bit · 0)
            s.multisample.alphaToCoverage
        alphaToOne :=
          held (regs.of .MultisampleControl) (bit · 4)
            s.multisample.alphaToOne }
    drawArraysFirst :=
      held (regs.of .DrawArraysFirst) id s.drawArraysFirst
    drawArraysCount :=
      held (regs.of .DrawArraysCount) id s.drawArraysCount
    drawElementsFirst :=
      held (regs.of .DrawElementsFirst) id s.drawElementsFirst
    drawElementsCount :=
      held (regs.of .DrawElementsCount) id s.drawElementsCount
    texHeaderPool :=
      held (regs.of .SetTexHeaderPool) (setLow32 s.texHeaderPool)
        s.texHeaderPool
    texHeaderMaxIdx :=
      held (regs.of .SetTexHeaderPoolMaximumIndex) id
        s.texHeaderMaxIdx
    texSamplerPool :=
      held (regs.of .SetTexSamplerPool)
        (setLow32 s.texSamplerPool) s.texSamplerPool
    texSamplerMaxIdx :=
      held (regs.of .SetTexSamplerPoolMaximumIndex) id
        s.texSamplerMaxIdx
    programRegion :=
      heldAddress (regs.of .SetProgramRegion)
        (regs.of .SetProgramRegionHigh) s.programRegion }

/- The file in which nothing was written. -/
def RegisterFile.fresh : RegisterFile :=
  { arrays := fun _ => none
    of := fun _ => none }

------
-- Writes
------

variable {s : GpuState3D} {regs : RegisterFile}
variable {value : U32} {r r' : Register}

/- Nothing written, nothing changed. -/
@[simp] theorem decode_fresh :
    decode s RegisterFile.fresh = s := by
  have hViewports :
      (fun i => RegisterFile.fresh.viewport i (s.viewports i)) =
        s.viewports := by
    funext i
    unfold RegisterFile.viewport
    split <;> rfl
  unfold decode
  rw [hViewports]
  rfl

/- The file once a value is written. -/
def RegisterFile.put
    (regs : RegisterFile)
    (r : Register)
    (value : U32) : RegisterFile :=
  match r with
  | .single m _ =>
      { regs with of := Function.update regs.of m (some value) }
  | r =>
      { regs with
        arrays := Function.update regs.arrays r (some value) }

/- Registers that share a field with another one. -/
def Register.Alias (r r' : Register) : Prop :=
  match r with
  | .colorBlendEnable i => r' = .independentBlend 0 i
  | .independentBlend sub i =>
      sub = 0 ∧ r' = .colorBlendEnable i
  | .stencilFrontFuncRef =>
      r' = .single .StencilFrontFunc (by decide)
  | .single m _ =>
      m = .StencilFrontFunc ∧ r' = .stencilFrontFuncRef
  | .vertexArray i sub =>
      sub = 3 ∧ r' = .isVertexArrayPerInstance i
  | .isVertexArrayPerInstance i => r' = .vertexArray i 3
  | _ => False

/- A word written over the words of an address. -/
theorem setLow32_held
    (last : Option U32)
    (old : U64)
    (value : U32) :
    setLow32 (held last (setLow32 old) old) value =
      setLow32 old value := by
  cases last <;> simp

theorem setLow32_heldAddress
    (lo hi : Option U32)
    (old : U64)
    (value : U32) :
    setLow32 (heldAddress lo hi old) value =
      heldAddress (some value) hi old := by
  cases hi with
  | none => exact setLow32_held lo old value
  | some hi =>
      show setLow32 (setHigh32 _ hi) value = setHigh32 _ hi
      rw [setLow32_setHigh32, setLow32_held]
      rfl

theorem setHigh32_heldAddress
    (lo hi : Option U32)
    (old : U64)
    (value : U32) :
    setHigh32 (heldAddress lo hi old) value =
      heldAddress lo (some value) old := by
  cases hi with
  | none => rfl
  | some hi =>
      show setHigh32 (setHigh32 _ hi) value = setHigh32 _ value
      rw [setHigh32_setHigh32]

theorem update_held
    (last : Option U32)
    (old : Fin 4 → U32)
    (value : U32) :
    Function.update (held last (Function.update old 0) old) 0
        value =
      Function.update old 0 value := by
  cases last <;> simp

theorem effect_single
    {m : Method3D}
    (hOther : m ≠ .SetProgram)
    (hAlias :
      m = .StencilFrontFunc →
        regs.arrays .stencilFrontFuncRef = none) :
    switchMethod (decode s regs) m value =
      decode s (regs.put (.single m hOther) value) := by
  let t := decode s regs
  cases m
  case SetProgram => exact absurd rfl hOther
  case IndexArrayStartIova =>
    exact congrArg
      (fun a => { t with indexBuffer.address := a })
      (setLow32_heldAddress _ _ _ _)
  case IndexArrayStartIovaHigh =>
    exact congrArg
      (fun a => { t with indexBuffer.address := a })
      (setHigh32_heldAddress _ _ _ _)
  case IndexArrayLimitIova =>
    exact congrArg (fun a => { t with indexBuffer.limit := a })
      (setLow32_heldAddress _ _ _ _)
  case IndexArrayLimitIovaHigh =>
    exact congrArg (fun a => { t with indexBuffer.limit := a })
      (setHigh32_heldAddress _ _ _ _)
  case SetProgramRegion =>
    exact congrArg (fun a => { t with programRegion := a })
      (setLow32_heldAddress _ _ _ _)
  case SetProgramRegionHigh =>
    exact congrArg (fun a => { t with programRegion := a })
      (setHigh32_heldAddress _ _ _ _)
  case SetTexHeaderPool =>
    exact congrArg (fun a => { t with texHeaderPool := a })
      (setLow32_held _ _ _)
  case SetTexSamplerPool =>
    exact congrArg (fun a => { t with texSamplerPool := a })
      (setLow32_held _ _ _)
  case DepthTargetAddr =>
    exact congrArg
      (fun a => { t with depthTarget.address := a })
      (setLow32_held _ _ _)
  case BlendConstant =>
    exact congrArg (fun c => { t with blendConst := c })
      (update_held _ _ _)
  case ClearColor =>
    exact congrArg (fun c => { t with clear.color := c })
      (update_held _ _ _)
  case StencilFrontFunc =>
    have hRef :
        field value 16 0xFF#32 =
          held (regs.arrays .stencilFrontFuncRef) (· &&& 0xFF#32)
            (field value 16 0xFF#32) := by
      rw [hAlias rfl]
      rfl
    exact congrArg
      (fun ref =>
        { t with
          depthStencil :=
            { t.depthStencil with
              stencilFrontFunc := value &&& 0xF#32
              stencilFrontRef := ref } })
      hRef
  all_goals rfl

/- A viewport's registers hold what is written to them. -/
theorem viewport_put
    (i : Fin 12)
    (sub : Fin 8)
    (j : Fin 16)
    (old : ViewportState) :
    (regs.put (.viewport i sub) value).viewport j old =
      if j.val = i.val then
        (regs.viewport j old).put sub value
      else regs.viewport j old := by
  unfold RegisterFile.viewport
  by_cases hJ : j.val < 12
  · simp only [dif_pos hJ]
    by_cases hSame : j.val = i.val
    · have hI : (⟨j.val, hJ⟩ : Fin 12) = i := Fin.ext hSame
      rw [if_pos hSame, hI]
      fin_cases sub <;>
        simp [RegisterFile.put, Function.update,
          ViewportState.put]
    · have hNe : (⟨j.val, hJ⟩ : Fin 12) ≠ i :=
        fun hEq => hSame (congrArg Fin.val hEq)
      rw [if_neg hSame]
      simp [RegisterFile.put, Function.update, hNe]
  · have hNe : j.val ≠ i.val := by omega
    simp only [dif_neg hJ, if_neg hNe]

theorem vertexArray_put
    (i : Fin 16)
    (sub : Fin 4)
    (j : Fin 16)
    (old : VertexArrayState) :
    (regs.put (.vertexArray i sub) value).vertexArray j old =
      if j = i then (regs.vertexArray j old).put sub value
      else regs.vertexArray j old := by
  unfold RegisterFile.vertexArray
  by_cases hSame : j = i
  · subst hSame
    rw [if_pos rfl]
    fin_cases sub
    · simp [RegisterFile.put, Function.update,
        VertexArrayState.put]
    · simp [RegisterFile.put, Function.update,
        VertexArrayState.put, setLow32_held]
    · simp [RegisterFile.put, Function.update,
        VertexArrayState.put]
    · simp [RegisterFile.put, Function.update,
        VertexArrayState.put]
  · rw [if_neg hSame]
    simp [RegisterFile.put, Function.update, hSame]

theorem perInstance_put
    (i : Fin 16)
    (hAlias : regs.arrays (.vertexArray i 3) = none)
    (j : Fin 16)
    (old : VertexArrayState) :
    (regs.put (.isVertexArrayPerInstance i) value).vertexArray j
        old =
      if j = i then
        { regs.vertexArray j old with
          divisor := if value != 0 then 1 else 0 }
      else regs.vertexArray j old := by
  unfold RegisterFile.vertexArray
  by_cases hSame : j = i
  · subst hSame
    simp [RegisterFile.put, Function.update, hAlias]
  · simp [RegisterFile.put, Function.update, hSame]

theorem blend_put
    (sub : Fin 7)
    (i : Fin 8)
    (j : Fin 8)
    (old : BlendState) :
    (regs.put (.independentBlend sub i) value).blend j old =
      if j = i then (regs.blend j old).put sub value
      else regs.blend j old := by
  unfold RegisterFile.blend
  by_cases hSame : j = i
  · subst hSame
    fin_cases sub <;>
      simp [RegisterFile.put, Function.update, BlendState.put]
  · simp [RegisterFile.put, Function.update, hSame]

theorem blendEnable_put
    (i : Fin 8)
    (hAlias : regs.arrays (.independentBlend 0 i) = none)
    (j : Fin 8)
    (old : BlendState) :
    (regs.put (.colorBlendEnable i) value).blend j old =
      if j = i then
        { regs.blend j old with enabled := value != 0 }
      else regs.blend j old := by
  unfold RegisterFile.blend
  by_cases hSame : j = i
  · subst hSame
    simp [RegisterFile.put, Function.update, hAlias]
  · simp [RegisterFile.put, Function.update, hSame]

theorem colorMask_put
    (i : Fin 8)
    (j : Fin 8)
    (old : BlendState) :
    (regs.put (.colorWriteMask i) value).blend j old =
      if j = i then
        { regs.blend j old with colorMask := value &&& 0xF#32 }
      else regs.blend j old := by
  unfold RegisterFile.blend
  by_cases hSame : j = i
  · subst hSame
    simp [RegisterFile.put, Function.update]
  · simp [RegisterFile.put, Function.update, hSame]

theorem shader_put
    (sub : Fin 2)
    (i : Fin 6)
    (j : Fin 6)
    (old : ShaderState) :
    (regs.put (.program sub i) value).shader j old =
      if j = i then (regs.shader j old).put sub value
      else regs.shader j old := by
  unfold RegisterFile.shader
  by_cases hSame : j = i
  · subst hSame
    fin_cases sub
    · simp [RegisterFile.put, Function.update, ShaderState.put]
    · simp [RegisterFile.put, Function.update, ShaderState.put,
        setLow32_held]
  · simp [RegisterFile.put, Function.update, hSame]

/- An element of an array is changed as its registers say. -/
theorem update_eq_of_put
    {n : Nat}
    {α : Type}
    {i : Fin n}
    {f g F : Fin n → α}
    (hPut : ∀ j, g j = if j = i then F j else f j) :
    Function.update f i (F i) = g := by
  funext j
  rw [hPut j]
  by_cases hSame : j = i
  · rw [if_pos hSame, hSame, Function.update_self]
  · rw [if_neg hSame, Function.update_of_ne hSame]

theorem effect_viewport
    (i : Fin 12)
    (sub : Fin 8) :
    (Register.viewport i sub).effect (decode s regs) value =
      decode s (regs.put (.viewport i sub) value) := by
  let t := decode s regs
  refine (handleViewport_put (by omega) sub).trans ?_
  refine congrArg (fun a => { t with viewports := a }) ?_
  refine
    update_eq_of_put
      (F := fun j => (t.viewports j).put sub value) ?_
  intro j
  rw [viewport_put]
  by_cases hSame : j.val = i.val
  · have hJ : j = ⟨i.val, by omega⟩ := Fin.ext hSame
    rw [if_pos hSame, if_pos hJ]
    rfl
  · have hJ : j ≠ ⟨i.val, by omega⟩ :=
      fun hEq => hSame (congrArg Fin.val hEq)
    rw [if_neg hSame, if_neg hJ]
    rfl

theorem effect_scissor (i : Fin 16) :
    (Register.scissor i).effect (decode s regs) value =
      decode s (regs.put (.scissor i) value) := by
  let t := decode s regs
  have hIndex : i.val % 16 = i.val :=
    Nat.mod_eq_of_lt i.isLt
  have hDiv : i.val / 16 = 0 := Nat.div_eq_of_lt i.isLt
  simp only [Register.effect, handleScissor, hIndex, hDiv,
    if_true]
  refine congrArg (fun a => { t with scissors := a }) ?_
  funext j
  by_cases hSame : j = i
  · subst hSame
    simp [RegisterFile.put, decode]
  · simp [RegisterFile.put, decode, hSame]

theorem effect_vertexAttrib (i : Fin 32) :
    (Register.vertexAttrib i).effect (decode s regs) value =
      decode s (regs.put (.vertexAttrib i) value) := by
  let t := decode s regs
  have hIndex : i.val % 32 = i.val :=
    Nat.mod_eq_of_lt i.isLt
  simp only [Register.effect, handleVertexAttrib, hIndex]
  refine congrArg (fun a => { t with vertexAttribs := a }) ?_
  funext j
  by_cases hSame : j = i
  · subst hSame
    simp [RegisterFile.put, RegisterFile.vertexAttrib]
  · simp [RegisterFile.put, RegisterFile.vertexAttrib, decode,
      hSame]

/- What was last written to a register. -/
def RegisterFile.last
    (regs : RegisterFile)
    (r : Register) : Option U32 :=
  match r with
  | .single m _ => regs.of m
  | r => regs.arrays r

/-
  The engine keeps to the file: a write to a register changes
  the state as writing the register of the file does, unless a
  register that shares a field was written.
-/
theorem effect_decode
    (r : Register)
    (hAlias : ∀ r', r.Alias r' → regs.last r' = none)
    (value : U32) :
    r.effect (decode s regs) value =
      decode s (regs.put r value) := by
  let t := decode s regs
  cases r with
  | viewport i sub => exact effect_viewport i sub
  | scissor i => exact effect_scissor i
  | vertexAttrib i => exact effect_vertexAttrib i
  | colorBlendEnable i =>
      have hOther : regs.arrays (.independentBlend 0 i) = none :=
        hAlias _ rfl
      simp only [Register.effect, putBlend]
      rw [dif_pos (show i.val < MAX_BLEND_TARGETS from i.isLt)]
      exact congrArg (fun a => { t with blend := a })
        (update_eq_of_put fun j =>
          blendEnable_put i hOther j (s.blend j))
  | stencilFrontFuncRef => rfl
  | stencilFrontFuncMask => rfl
  | stencilFrontMask => rfl
  | colorWriteMask i =>
      simp only [Register.effect, putBlend]
      rw [dif_pos (show i.val < MAX_BLEND_TARGETS from i.isLt)]
      exact congrArg (fun a => { t with blend := a })
        (update_eq_of_put fun j =>
          colorMask_put i j (s.blend j))
  | vertexArray i sub =>
      refine (handleVertexArray_put i sub).trans ?_
      exact congrArg (fun a => { t with vertexArrays := a })
        (update_eq_of_put fun j =>
          vertexArray_put i sub j (s.vertexArrays j))
  | independentBlend sub i =>
      refine (handleBlend_put i sub).trans ?_
      exact congrArg (fun a => { t with blend := a })
        (update_eq_of_put fun j =>
          blend_put sub i j (s.blend j))
  | program sub i =>
      refine (handleShader_put i sub).trans ?_
      exact congrArg (fun a => { t with shaders := a })
        (update_eq_of_put fun j =>
          shader_put sub i j (s.shaders j))
  | isVertexArrayPerInstance i =>
      have hOther : regs.arrays (.vertexArray i 3) = none :=
        hAlias _ rfl
      simp only [Register.effect, putVertexArray]
      rw [dif_pos (show i.val < MAX_VERTEX_ARRAYS from i.isLt)]
      exact congrArg (fun a => { t with vertexArrays := a })
        (update_eq_of_put fun j =>
          perInstance_put i hOther j (s.vertexArrays j))
  | single m hOther =>
      exact
        effect_single hOther fun hFunc => hAlias _ ⟨hFunc, rfl⟩

------
-- Runs of Writes
------

/- The two parts of the file. -/
def Register.IsSingle : Register → Prop
  | .single _ _ => True
  | _ => False

theorem put_of_array
    {r : Register}
    (hArray : ¬ r.IsSingle)
    (value : U32) :
    regs.put r value =
      { regs with
        arrays := Function.update regs.arrays r (some value) } := by
  cases r with
  | single m hOther => exact absurd trivial hArray
  | _ => rfl

theorem last_of_array
    {r : Register}
    (hArray : ¬ r.IsSingle) :
    regs.last r = regs.arrays r := by
  cases r with
  | single m hOther => exact absurd trivial hArray
  | _ => rfl

theorem exists_of_single
    {r : Register}
    (hSingle : r.IsSingle) :
    ∃ m hOther, r = .single m hOther := by
  cases r with
  | single m hOther => exact ⟨m, hOther, rfl⟩
  | _ => exact absurd hSingle id

/- What is written is what was last written. -/
theorem last_put_of_ne
    (hNe : r' ≠ r)
    (value : U32) :
    (regs.put r value).last r' = regs.last r' := by
  by_cases hSingle : r.IsSingle
  · rcases exists_of_single hSingle with ⟨m, hOther, rfl⟩
    by_cases hSingle' : r'.IsSingle
    · rcases exists_of_single hSingle' with ⟨m', hOther', rfl⟩
      have hM : m' ≠ m := by
        rintro rfl
        exact hNe rfl
      exact Function.update_of_ne hM _ _
    · rw [last_of_array hSingle', last_of_array hSingle']
      rfl
  · rw [put_of_array hSingle]
    by_cases hSingle' : r'.IsSingle
    · rcases exists_of_single hSingle' with ⟨m', hOther', rfl⟩
      rfl
    · rw [last_of_array hSingle', last_of_array hSingle']
      exact Function.update_of_ne hNe _ _

/- Different registers may be written in either order. -/
theorem put_comm
    (hNe : r ≠ r')
    (value value' : U32) :
    (regs.put r value).put r' value' =
      (regs.put r' value').put r value := by
  by_cases hSingle : r.IsSingle
  · rcases exists_of_single hSingle with ⟨m, hOther, rfl⟩
    by_cases hSingle' : r'.IsSingle
    · rcases exists_of_single hSingle' with ⟨m', hOther', rfl⟩
      have hM : m ≠ m' := by
        rintro rfl
        exact hNe rfl
      exact
        congrArg (fun of => { regs with of := of })
          (Function.update_comm hM _ _ _)
    · rw [put_of_array hSingle', put_of_array hSingle']
      rfl
  · by_cases hSingle' : r'.IsSingle
    · rcases exists_of_single hSingle' with ⟨m', hOther', rfl⟩
      rw [put_of_array hSingle, put_of_array hSingle]
      rfl
    · rw [put_of_array hSingle, put_of_array hSingle,
        put_of_array hSingle', put_of_array hSingle']
      exact
        congrArg (fun arrays => { regs with arrays := arrays })
          (Function.update_comm hNe _ _ _)

/- The last value counts. -/
theorem put_put
    (r : Register)
    (value value' : U32) :
    (regs.put r value).put r value' = regs.put r value' := by
  by_cases hSingle : r.IsSingle
  · rcases exists_of_single hSingle with ⟨m, hOther, rfl⟩
    exact
      congrArg (fun of => { regs with of := of })
        (Function.update_idem _ _ _)
  · rw [put_of_array hSingle, put_of_array hSingle,
      put_of_array hSingle]
    exact
      congrArg (fun arrays => { regs with arrays := arrays })
        (Function.update_idem _ _ _)

/- No two registers that are written share a field. -/
def Apart (writes : List (Register × U32)) : Prop :=
  ∀ w ∈ writes, ∀ w' ∈ writes, ¬ w.1.Alias w'.1

/- A run of writes to registers of which no two share a field
leaves what was last written to each. -/
theorem run_decode_from
    (writes : List (Register × U32))
    (hApart : Apart writes)
    (hFile :
      ∀ w ∈ writes, ∀ r', w.1.Alias r' → regs.last r' = none) :
    writes.foldl (fun s w => w.1.effect s w.2) (decode s regs) =
      decode s
        (writes.foldl (fun regs w => regs.put w.1 w.2) regs) := by
  induction writes generalizing regs with
  | nil => rfl
  | cons w writes ih =>
      rw [List.foldl_cons, List.foldl_cons,
        effect_decode w.1 (hFile w List.mem_cons_self) w.2]
      apply ih
      · intro w₁ h₁ w₂ h₂
        exact
          hApart w₁ (List.mem_cons_of_mem w h₁) w₂
            (List.mem_cons_of_mem w h₂)
      · intro w' hW' r' hAlias
        have hNe : r' ≠ w.1 := by
          rintro rfl
          exact
            hApart w' (List.mem_cons_of_mem w hW') w
              List.mem_cons_self hAlias
        rw [last_put_of_ne hNe]
        exact hFile w' (List.mem_cons_of_mem w hW') r' hAlias

theorem run_decode
    (s : GpuState3D)
    (writes : List (Register × U32))
    (hApart : Apart writes) :
    writes.foldl (fun s w => w.1.effect s w.2) s =
      decode s
        (writes.foldl (fun regs w => regs.put w.1 w.2)
          RegisterFile.fresh) := by
  have hRun :
      writes.foldl (fun s w => w.1.effect s w.2)
          (decode s RegisterFile.fresh) = _ :=
    run_decode_from writes hApart fun w _ r' _ => by
      cases r' <;> rfl
  rwa [decode_fresh] at hRun

------
-- Independence
------

/- The pairs of numbers that set the same field. -/
def Aliases (method method' : Nat) : Prop :=
  (∃ i < 8,
    method = Method3D.ColorBlendEnable + i ∧
      method' = Method3D.IndependentBlend + i) ∨
  (method = Method3D.StencilFrontFunc.code ∧
    method' = Method3D.StencilFrontFuncRef) ∨
  ∃ i < 16,
    method = Method3D.VertexArray + (4 * i + 3) ∧
      method' = Method3D.IsVertexArrayPerInstance + i

/- Registers that share a field have such numbers. -/
theorem aliases_of_alias
    (hAlias : r.Alias r') :
    Aliases r.code r'.code ∨ Aliases r'.code r.code := by
  cases r with
  | colorBlendEnable i =>
      cases hAlias
      exact .inl (.inl ⟨i, i.isLt, rfl, by simp [Register.code]⟩)
  | independentBlend sub i =>
      rcases hAlias with ⟨rfl, rfl⟩
      exact .inr (.inl ⟨i, i.isLt, rfl, by simp [Register.code]⟩)
  | stencilFrontFuncRef =>
      cases hAlias
      exact .inr (.inr (.inl ⟨rfl, rfl⟩))
  | single m hOther =>
      rcases hAlias with ⟨rfl, rfl⟩
      exact .inl (.inr (.inl ⟨rfl, rfl⟩))
  | vertexArray i sub =>
      rcases hAlias with ⟨rfl, rfl⟩
      exact .inl (.inr (.inr ⟨i, i.isLt, rfl, rfl⟩))
  | isVertexArrayPerInstance i =>
      cases hAlias
      exact .inr (.inr (.inr ⟨i, i.isLt, rfl, rfl⟩))
  | viewport i sub => exact absurd hAlias id
  | scissor i => exact absurd hAlias id
  | vertexAttrib i => exact absurd hAlias id
  | stencilFrontFuncMask => exact absurd hAlias id
  | stencilFrontMask => exact absurd hAlias id
  | colorWriteMask i => exact absurd hAlias id
  | program sub i => exact absurd hAlias id

/- No register is its own other one. -/
theorem not_alias_self (r : Register) : ¬ r.Alias r := by
  cases r <;> simp [Register.Alias]

theorem alias_symm
    (hAlias : r.Alias r') :
    r'.Alias r := by
  cases r with
  | colorBlendEnable i =>
      cases hAlias
      exact ⟨rfl, rfl⟩
  | independentBlend sub i =>
      rcases hAlias with ⟨rfl, rfl⟩
      exact rfl
  | stencilFrontFuncRef =>
      cases hAlias
      exact ⟨rfl, rfl⟩
  | single m hOther =>
      rcases hAlias with ⟨rfl, rfl⟩
      exact rfl
  | vertexArray i sub =>
      rcases hAlias with ⟨rfl, rfl⟩
      exact rfl
  | isVertexArrayPerInstance i =>
      cases hAlias
      exact ⟨rfl, rfl⟩
  | _ => exact absurd hAlias id

theorem effect_comm
    (s : GpuState3D)
    (hNe : r ≠ r')
    (hAlias : ¬ r.Alias r')
    (value value' : U32) :
    r'.effect (r.effect s value) value' =
      r.effect (r'.effect s value') value := by
  have hSelf := not_alias_self
  have hBack : ¬ r'.Alias r := fun h => hAlias (alias_symm h)
  have hFirst :=
    run_decode s [(r, value), (r', value')]
      (by simp [Apart, hSelf, hAlias, hBack])
  have hSecond :=
    run_decode s [(r', value'), (r, value)]
      (by simp [Apart, hSelf, hAlias, hBack])
  simp only [List.foldl_cons, List.foldl_nil] at hFirst hSecond
  rw [hFirst, hSecond, put_comm hNe]

theorem effect_idem
    (s : GpuState3D)
    (r : Register)
    (value : U32) :
    r.effect (r.effect s value) value = r.effect s value := by
  have hSelf := not_alias_self
  have hTwice :=
    run_decode s [(r, value), (r, value)]
      (by simp [Apart, hSelf])
  have hOnce :=
    run_decode s [(r, value)] (by simp [Apart, hSelf])
  simp only [List.foldl_cons, List.foldl_nil] at hTwice hOnce
  rw [hTwice, hOnce, put_put]

/- Writes to different numbers that set no field in common
commute, and a write may be repeated. -/
theorem write_comm_and_idem
    (s : GpuState3D)
    {method : Nat}
    (hOutside : ¬ InRtBlock method)
    (value : U32) :
    (∀ method' value', ¬ InRtBlock method' → method ≠ method' →
      ¬ Aliases method method' → ¬ Aliases method' method →
        write (write s method value) method' value' =
          write (write s method' value') method value) ∧
      write (write s method value) method value =
        write s method value := by
  rcases register_cases hOutside with ⟨r, hR⟩ | hNone
  · subst hR
    constructor
    · intro method' value' hOutside' hNe hNot hNot'
      rcases register_cases hOutside' with ⟨r', hR'⟩ | hNone'
      · subst hR'
        have hRegs : r ≠ r' := fun hEq => hNe (congrArg _ hEq)
        have hAlias : ¬ r.Alias r' := by
          intro hYes
          rcases aliases_of_alias hYes with hSome | hSome
          · exact hNot hSome
          · exact hNot' hSome
        simp only [write_code]
        exact effect_comm s hRegs hAlias value value'
      · rw [hNone', hNone']
    · simp only [write_code]
      exact effect_idem s r value
  · constructor
    · intro method' value' _ _ _ _
      rw [hNone, hNone]
    · rw [hNone, hNone]

/- The first component of the clear colour and the depth. -/
theorem write_comm_clear :
    write (write GpuState3D.reset 0x360 7) 0x364 8 =
      write (write GpuState3D.reset 0x364 8) 0x360 7 := by
  have hColor : ¬ InRtBlock 0x360 := not_inRange (by decide)
  have hDepth : ¬ InRtBlock 0x364 := not_inRange (by decide)
  have hNot : ¬ Aliases 0x360 0x364 := by
    unfold Aliases
    decide
  have hNot' : ¬ Aliases 0x364 0x360 := by
    unfold Aliases
    decide
  exact
    (write_comm_and_idem GpuState3D.reset hColor 7).1 0x364 8
      hDepth (by decide) hNot hNot'

end Engine3D

end M1Switch
