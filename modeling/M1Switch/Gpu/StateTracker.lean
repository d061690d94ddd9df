import M1Switch.Gpu.Engine.GPFifo
import M1Switch.Gpu.Engine.Engine3D

/-
  The GPU state tracker.

  The tracker feeds pushbuffers to the parser, routes each
  decoded method write to the engine of its subchannel and
  queues a snapshot for every write that triggers a draw.

  Key definitions include:
    * `StateTracker`
    * `computePipelineKey`
-/

------
-- Tracker State
------

namespace M1Switch

/- Engine types of the subchannel mapping. -/
inductive EngineType where
  | Engine3D
  | Engine2D
  | EngineDma
  | EngineInline
  | EngineCompute
deriving DecidableEq, Repr

/- Draw parameters captured when a draw is triggered. -/
structure PendingDraw where
  primitiveType : EnumCode
  arraysFirst : U32
  arraysCount : U32
  elementsFirst : U32
  elementsCount : U32
  indexAddr : U64
  indexFormat : EnumCode
  indexCount : U32
  pipelineKey : U64
deriving DecidableEq

structure StateTracker where
  subchEngines : Fin 8 → EngineType
  state : GpuState3D
  dirtyFlags : U64
  drawQueue : List PendingDraw

namespace StateTracker

/- The mapping a tracker starts with. -/
def defaultEngines : Fin 8 → EngineType
| 0 => .Engine3D
| 1 => .Engine2D
| 2 => .EngineDma
| 3 => .EngineInline
| 4 => .EngineCompute
| _ => .Engine3D

/- A fresh tracker over a subchannel mapping. -/
def new (engines : Fin 8 → EngineType) : StateTracker :=
  { subchEngines := engines
    state := GpuState3D.reset
    dirtyFlags := 0
    drawQueue := [] }

def getEngine
    (engines : Fin 8 → EngineType)
    (subch : Nat) : EngineType :=
  if hSubch : subch < 8 then engines ⟨subch, hSubch⟩
  else .Engine3D

------
-- Pipeline Key
------

/-
  A 64-bit left shift as the target machine performs it, with
  the amount taken modulo 64.  Render targets 6 and 7 shift by
  64 and 68.
-/
def shl64 (x : U64) (amount : Nat) : U64 :=
  x <<< (amount % 64)

/- The render target takes part in the key. -/
def rtActive (rt : RtState) : Bool :=
  rt.address != 0 && 0 < rt.width.toNat

/- Contribution of one render target. -/
def rtKey (rt : RtState) (i : Nat) : U64 :=
  if rtActive rt then
    shl64 (rt.format.setWidth 64) (i * 4 + 40)
  else 0

/- Contribution of all render targets. -/
def rtKeys (rt : Fin 8 → RtState) : U64 :=
  (List.finRange 8).foldl
    (fun key i => key ^^^ rtKey (rt i) i) 0

/- Contribution of the depth target. -/
def depthTargetKey (dt : DepthTargetState) : U64 :=
  if dt.enabled then dt.format.setWidth 64 <<< 56 else 0

/- Contribution of the blend equation of target 0. -/
def blendKey (b : BlendState) : U64 :=
  if b.enabled then
    (b.colorOp.setWidth 64 <<< 16) ^^^
      (b.srcColor.setWidth 64 <<< 20) ^^^
      (b.dstColor.setWidth 64 <<< 24) ^^^
      (b.alphaOp.setWidth 64 <<< 28) ^^^
      (b.srcAlpha.setWidth 64 <<< 32) ^^^
      (b.dstAlpha.setWidth 64 <<< 36)
  else 0

/- Contribution of the depth test. -/
def depthTestKey (ds : DepthStencilState) : U64 :=
  if ds.depthEnabled then
    (ds.depthFunc.setWidth 64 <<< 38) ^^^
      ((if ds.depthWrite then 1#64 else 0#64) <<< 42)
  else 0

/- The key under which a draw's pipeline is cached. -/
def computePipelineKey (s : GpuState3D) : U64 :=
  s.programRegion ^^^
    ((s.shaders 0).offset <<< 12) ^^^
    ((s.shaders 5).offset <<< 24) ^^^
    (s.primitiveType.setWidth 64 <<< 8) ^^^
    rtKeys s.rt ^^^
    depthTargetKey s.depthTarget ^^^
    blendKey (s.blend 0) ^^^
    ((s.blend 0).colorMask.setWidth 64 <<< 48) ^^^
    depthTestKey s.depthStencil

------
-- Method Dispatch
------

/- The snapshot of a triggered draw. -/
def snapshot (s : GpuState3D) : PendingDraw :=
  { primitiveType := s.primitiveType
    arraysFirst := s.drawArraysFirst
    arraysCount := s.drawArraysCount
    elementsFirst := s.drawElementsFirst
    elementsCount := s.drawElementsCount
    indexAddr := s.indexBuffer.address
    indexFormat := s.indexBuffer.format
    indexCount := s.drawElementsCount
    pipelineKey := computePipelineKey s }

/- Reset of the live counts behind a draw. -/
def resetCounts (s : GpuState3D) : GpuState3D :=
  { s with
    drawArraysCount := 0
    drawElementsCount := 0
    indexBuffer.count := 0 }

/- The callback of the parser. -/
def onMethod
    (t : StateTracker)
    (w : GPFifo.MethodWrite) : StateTracker :=
  match getEngine t.subchEngines w.subch with
  | .Engine3D =>
      let r := Engine3D.handleMethod t.state w.method w.value
      if r.2 then
        { t with
          state := resetCounts r.1
          dirtyFlags := 1
          drawQueue := t.drawQueue ++ [snapshot r.1] }
      else
        { t with state := r.1, dirtyFlags := 1 }
  | .Engine2D => t
  | .EngineDma => t
  | .EngineInline => t
  | .EngineCompute => t

/- The callbacks of one pushbuffer, in order. -/
def onMethods
    (t : StateTracker)
    (writes : List GPFifo.MethodWrite) : StateTracker :=
  writes.foldl onMethod t

/- Process a pushbuffer; the words consumed are returned. -/
def pushBuffer
    (t : StateTracker)
    (words : List U32) : StateTracker × Nat :=
  let r := GPFifo.process words
  (t.onMethods r.writes, r.consumed)

def hasPendingDraws (t : StateTracker) : Bool :=
  !t.drawQueue.isEmpty

/- Moving the queue out leaves it empty. -/
def consumeDraws
    (t : StateTracker) : List PendingDraw × StateTracker :=
  (t.drawQueue, { t with drawQueue := [] })

def clearDirty (t : StateTracker) : StateTracker :=
  { t with dirtyFlags := 0, drawQueue := [] }

end StateTracker

end M1Switch
