import Mathlib.Tactic.Common

/-
  Method numbers of the Maxwell 3D engine.

  `Method3D` lists the methods the engine's `switch` has a
  case for, under the names of the method table; the three
  high-word registers the `switch` names by number follow
  their low words.  Array methods are routed by range before
  the `switch` and are given by their base.

  Key definitions include:
    * `Method3D`
    * `code`
-/

------
-- Array Method Bases
------

namespace M1Switch

namespace Method3D

def RenderTarget : Nat := 0x200
def ViewportTransform : Nat := 0x280
def Scissor : Nat := 0x380
def VertexAttribState : Nat := 0x458
def ColorBlendEnable : Nat := 0x4D8
def StencilFrontFuncRef : Nat := 0x4E5
def StencilFrontFuncMask : Nat := 0x4E6
def StencilFrontMask : Nat := 0x4E7
def IsVertexArrayPerInstance : Nat := 0x620
def ColorWriteMask : Nat := 0x680
def VertexArray : Nat := 0x700
def IndependentBlend : Nat := 0x780
def VertexArrayLimit : Nat := 0x7C0

end Method3D

------
-- Methods Of The Switch
------

inductive Method3D where
  | RenderTargetControl
  | DrawArraysFirst
  | DrawArraysCount
  | DrawElementsFirst
  | DrawElementsCount
  | ScreenScissorHorizontal
  | ScreenScissorVertical
  | IndexArrayStartIova
  | IndexArrayStartIovaHigh
  | IndexArrayLimitIova
  | IndexArrayLimitIovaHigh
  | IndexArrayFormat
  | SetProgram
  | SetProgramRegion
  | SetProgramRegionHigh
  | SetTexHeaderPool
  | SetTexHeaderPoolMaximumIndex
  | SetTexSamplerPool
  | SetTexSamplerPoolMaximumIndex
  | DepthTargetAddr
  | DepthTargetFormat
  | DepthTargetHorizontal
  | DepthTargetVertical
  | DepthTargetArrayMode
  | DepthTargetEnable
  | DepthTestEnable
  | DepthWriteEnable
  | DepthTestFunc
  | StencilEnable
  | StencilFrontFunc
  | StencilFrontOpFail
  | StencilFrontOpZFail
  | StencilFrontOpZPass
  | StencilTwoSideEnable
  | StencilBackFunc
  | StencilBackFuncRef
  | StencilBackMask
  | StencilBackOpFail
  | StencilBackOpZFail
  | StencilBackOpZPass
  | DepthBoundsEnable
  | DepthBoundsNear
  | DepthBoundsFar
  | IndependentBlendEnable
  | BlendConstant
  | RasterizerEnable
  | SetFrontFace
  | SetCullFace
  | CullFaceEnable
  | SetPolygonModeFront
  | SetPolygonModeBack
  | PolygonOffsetPointEnable
  | PolygonOffsetLineEnable
  | PolygonOffsetFillEnable
  | PolygonOffsetFactor
  | PolygonOffsetUnits
  | PolygonOffsetClamp
  | AlphaTestEnable
  | AlphaTestRef
  | AlphaTestFunc
  | ColorLogicOpEnable
  | ColorLogicOpType
  | VertexBeginGl
  | ClearColor
  | ClearDepth
  | ClearStencil
  | ClearBuffers
  | MultisampleEnable
  | MultisampleControl
  | ViewportTransformEnable
  | ViewVolumeClipControl
  | PrimitiveRestartEnable
  | PrimitiveRestartIndex
  | NoOperation
  | PipeNop
  | WaitForIdle
  | InvalidateShaderCaches
  | InvalidateTextureDataCache
  | InvalidateTextureDataCacheNoWfi
  | FragmentBarrier
deriving DecidableEq, Repr

namespace Method3D

/- The method number. -/
def code : Method3D → Nat
| .RenderTargetControl => 0x487
| .DrawArraysFirst => 0x35D
| .DrawArraysCount => 0x35E
| .DrawElementsFirst => 0x5F7
| .DrawElementsCount => 0x5F8
| .ScreenScissorHorizontal => 0x3FD
| .ScreenScissorVertical => 0x3FE
| .IndexArrayStartIova => 0x5F2
| .IndexArrayStartIovaHigh => 0x5F3
| .IndexArrayLimitIova => 0x5F4
| .IndexArrayLimitIovaHigh => 0x5F5
| .IndexArrayFormat => 0x5F6
| .SetProgram => 0x800
| .SetProgramRegion => 0x582
| .SetProgramRegionHigh => 0x583
| .SetTexHeaderPool => 0x55D
| .SetTexHeaderPoolMaximumIndex => 0x55F
| .SetTexSamplerPool => 0x557
| .SetTexSamplerPoolMaximumIndex => 0x559
| .DepthTargetAddr => 0x3F8
| .DepthTargetFormat => 0x3FA
| .DepthTargetHorizontal => 0x48A
| .DepthTargetVertical => 0x48B
| .DepthTargetArrayMode => 0x48C
| .DepthTargetEnable => 0x54E
| .DepthTestEnable => 0x4B3
| .DepthWriteEnable => 0x4BA
| .DepthTestFunc => 0x4C3
| .StencilEnable => 0x4E0
| .StencilFrontFunc => 0x4E4
| .StencilFrontOpFail => 0x4E1
| .StencilFrontOpZFail => 0x4E2
| .StencilFrontOpZPass => 0x4E3
| .StencilTwoSideEnable => 0x565
| .StencilBackFunc => 0x569
| .StencilBackFuncRef => 0x3D5
| .StencilBackMask => 0x3D6
| .StencilBackOpFail => 0x566
| .StencilBackOpZFail => 0x567
| .StencilBackOpZPass => 0x568
| .DepthBoundsEnable => 0x66F
| .DepthBoundsNear => 0x3E7
| .DepthBoundsFar => 0x3E8
| .IndependentBlendEnable => 0x4B9
| .BlendConstant => 0x4C7
| .RasterizerEnable => 0x0DF
| .SetFrontFace => 0x647
| .SetCullFace => 0x648
| .CullFaceEnable => 0x646
| .SetPolygonModeFront => 0x36B
| .SetPolygonModeBack => 0x36C
| .PolygonOffsetPointEnable => 0x370
| .PolygonOffsetLineEnable => 0x371
| .PolygonOffsetFillEnable => 0x372
| .PolygonOffsetFactor => 0x55B
| .PolygonOffsetUnits => 0x56F
| .PolygonOffsetClamp => 0x61F
| .AlphaTestEnable => 0x4BB
| .AlphaTestRef => 0x4C4
| .AlphaTestFunc => 0x4C5
| .ColorLogicOpEnable => 0x671
| .ColorLogicOpType => 0x672
| .VertexBeginGl => 0x586
| .ClearColor => 0x360
| .ClearDepth => 0x364
| .ClearStencil => 0x368
| .ClearBuffers => 0x674
| .MultisampleEnable => 0x54D
| .MultisampleControl => 0x54F
| .ViewportTransformEnable => 0x64B
| .ViewVolumeClipControl => 0x64F
| .PrimitiveRestartEnable => 0x591
| .PrimitiveRestartIndex => 0x592
| .NoOperation => 0x040
| .PipeNop => 0x68B
| .WaitForIdle => 0x044
| .InvalidateShaderCaches => 0x369
| .InvalidateTextureDataCache => 0x3DD
| .InvalidateTextureDataCacheNoWfi => 0x4A2
| .FragmentBarrier => 0x378

/- The methods in the order of the `switch`. -/
def all : List Method3D :=
  [.RenderTargetControl, .DrawArraysFirst,
    .DrawArraysCount, .DrawElementsFirst,
    .DrawElementsCount, .ScreenScissorHorizontal,
    .ScreenScissorVertical, .IndexArrayStartIova,
    .IndexArrayStartIovaHigh, .IndexArrayLimitIova,
    .IndexArrayLimitIovaHigh, .IndexArrayFormat,
    .SetProgram, .SetProgramRegion, .SetProgramRegionHigh,
    .SetTexHeaderPool, .SetTexHeaderPoolMaximumIndex,
    .SetTexSamplerPool, .SetTexSamplerPoolMaximumIndex,
    .DepthTargetAddr, .DepthTargetFormat,
    .DepthTargetHorizontal, .DepthTargetVertical,
    .DepthTargetArrayMode, .DepthTargetEnable,
    .DepthTestEnable, .DepthWriteEnable, .DepthTestFunc,
    .StencilEnable, .StencilFrontFunc, .StencilFrontOpFail,
    .StencilFrontOpZFail, .StencilFrontOpZPass,
    .StencilTwoSideEnable, .StencilBackFunc,
    .StencilBackFuncRef, .StencilBackMask,
    .StencilBackOpFail, .StencilBackOpZFail,
    .StencilBackOpZPass, .DepthBoundsEnable,
    .DepthBoundsNear, .DepthBoundsFar,
    .IndependentBlendEnable, .BlendConstant,
    .RasterizerEnable, .SetFrontFace, .SetCullFace,
    .CullFaceEnable, .SetPolygonModeFront,
    .SetPolygonModeBack, .PolygonOffsetPointEnable,
    .PolygonOffsetLineEnable, .PolygonOffsetFillEnable,
    .PolygonOffsetFactor, .PolygonOffsetUnits,
    .PolygonOffsetClamp, .AlphaTestEnable, .AlphaTestRef,
    .AlphaTestFunc, .ColorLogicOpEnable, .ColorLogicOpType,
    .VertexBeginGl, .ClearColor, .ClearDepth, .ClearStencil,
    .ClearBuffers, .MultisampleEnable, .MultisampleControl,
    .ViewportTransformEnable, .ViewVolumeClipControl,
    .PrimitiveRestartEnable, .PrimitiveRestartIndex,
    .NoOperation, .PipeNop, .WaitForIdle,
    .InvalidateShaderCaches, .InvalidateTextureDataCache,
    .InvalidateTextureDataCacheNoWfi, .FragmentBarrier]

/- The method a number is cast to, if it has a case. -/
def ofCode? (n : Nat) : Option Method3D :=
  all.find? fun m => m.code == n

/- Every method of the `switch` is found by its number. -/
@[simp] theorem ofCode?_code (m : Method3D) :
    ofCode? m.code = some m := by
  cases m <;> rfl

/- A number that is found is the method's number. -/
theorem code_of_ofCode?
    {n : Nat} {m : Method3D}
    (hFound : ofCode? n = some m) :
    m.code = n := by
  simpa using List.find?_some hFound

end Method3D

end M1Switch
