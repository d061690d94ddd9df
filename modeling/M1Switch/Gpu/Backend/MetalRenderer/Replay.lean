import M1Switch.Gpu.Backend.MetalRenderer.Frame
import M1Switch.Gpu.Backend.MetalRenderer.Settings
import M1Switch.Gpu.StateTracker.DrawTrace

/-
  Draws that are replayed from the live registers.

  A draw is triggered by one write of a pushbuffer and encoded
  when its frame starts.  It shows the registers of its trigger
  exactly when the live ones, as they are taken, and the
  pipeline of its batch do.

  Key definitions include:
    * `MetalRenderer.DrawnAsTriggered`
    * `MetalRenderer.SettingsKept`

  Main results:
    * `shows_encoded_iff`
    * `pipelineShows_pipelineFor_iff`
    * `drawnAsTriggered_iff`
-/

------
-- One Encoded Draw
------

namespace M1Switch

namespace MetalRenderer

variable {host : MetalHost} {live s : GpuState3D}

/- The draws of a frame show the registers they came from. -/
def DrawnAsTriggered
    (draws : List EncodedDraw)
    (triggers : List GpuState3D) : Prop :=
  List.Forall₂ Shows draws triggers

/- What is set of the live registers shows given ones. -/
structure SettingsKept
    (host : MetalHost)
    (live s : GpuState3D) : Prop where
  viewport : ViewportKept live s
  scissor : ScissorKept (live.scissors 0) (s.scissors 0)
  blendConst : BlendConstKept live s
  depthStencil :
    DepthStencilReplayed host live.depthStencil s.depthStencil
  culling : CullingKept live s
  winding : WindingKept live s
  arrays : ArraysKept live s

/- What is in force on an encoder behind the first draw. -/
theorem applyState_fresh (p : MTLRenderPipelineState) :
    applyState host live { pipeline := some p } =
      { pipeline := some p
        viewport := viewportOf live
        scissor := scissorOf live
        blendColor := blendColorOf live
        depthStencil := depthStencilOf host live.depthStencil
        stencilReference :=
          stencilReferenceOf host live.depthStencil
        cullMode := some (cullModeOf live)
        frontFacing := frontFacingOf live } := by
  simp only [applyState, applyCulling, applyDepthStencil,
    applyBlend, applyScissor, applyViewport, Option.or_none]

theorem shows_encoded_iff
    {p : MTLRenderPipelineState}
    {d : PendingDraw} :
    Shows (encoded host live p d) s ↔
      SettingsKept host live s ∧ PipelineShows p s := by
  unfold encoded
  rw [applyState_fresh]
  constructor
  · rintro ⟨hView, hScissor, hBlend, hDepth, hCulling,
      hWinding, hArrays, q, hSome, hPipeline⟩
    cases hSome
    refine ⟨⟨?_, ?_, ?_, ?_, ?_, ?_, ?_⟩, hPipeline⟩
    · exact viewportShown_iff.mp hView
    · exact scissorShown_iff.mp hScissor
    · exact blendConstShown_iff.mp hBlend
    · exact depthStencilShown_iff.mp hDepth
    · exact cullingShown_iff.mp hCulling
    · exact windingShown_iff.mp hWinding
    · exact (arraysShown_iff _).mp hArrays
  · rintro ⟨hKept, hPipeline⟩
    refine ⟨?_, ?_, ?_, ?_, ?_, ?_, ?_, p, rfl, hPipeline⟩
    · exact viewportShown_iff.mpr hKept.viewport
    · exact scissorShown_iff.mpr hKept.scissor
    · exact blendConstShown_iff.mpr hKept.blendConst
    · exact depthStencilShown_iff.mpr hKept.depthStencil
    · exact cullingShown_iff.mpr hKept.culling
    · exact windingShown_iff.mpr hKept.winding
    · exact (arraysShown_iff _).mpr hKept.arrays

end MetalRenderer

------
-- The Pipeline Of A Batch
------

namespace Gpu

open MetalRenderer ShaderManager

variable {host : MetalHost} {gpu : Gpu} {s : GpuState3D}

/-
  The pipeline of a batch shows registers.  It is the cached
  one of its key, or one built of the live registers, or the
  spare one if none can be built.
-/
def BatchShows
    (host : MetalHost)
    (gpu : Gpu)
    (key : U64)
    (s : GpuState3D) : Prop :=
  let compiled :=
    (compilePipeline host (prepareFrame host gpu)).2.renderer
  match gpu.renderer.pipelineCache key with
  | some p => PipelineShows p s
  | none =>
      match compiled.buildPipeline host gpu.tracker.state with
      | some _ =>
          PipelineKept host gpu.renderer gpu.tracker.state s
      | none => PipelineShows compiled.spare s

/- A pipeline built in a frame is one of its live registers. -/
theorem pipelineShows_built_iff
    {p : MTLRenderPipelineState}
    (hBuilt :
      (compilePipeline host
        (prepareFrame host gpu)).2.renderer.buildPipeline host
          gpu.tracker.state = some p) :
    PipelineShows p s ↔
      PipelineKept host gpu.renderer gpu.tracker.state s := by
  have hTargets :=
    (sameFrame_compilePipeline host
      (prepareFrame host gpu)).targets
  rcases eq_of_buildPipeline hBuilt with
    ⟨vertFn, fragFn, _, _, rfl⟩
  rw [← @pipelineShows_iff _ _ _ _ vertFn fragFn]
  unfold colorFormat depthFormat
  rw [hTargets.isRtPath, hTargets.depthTexture]
  exact Iff.rfl

theorem pipelineShows_pipelineFor_iff
    (host : MetalHost)
    (gpu : Gpu)
    (key : U64) :
    PipelineShows
        (pipelineFor host (prepareFrame host gpu) key) s ↔
      BatchShows host gpu key s := by
  have hCache :
      (compilePipeline host
          (prepareFrame host gpu)).2.renderer.pipelineCache =
        gpu.renderer.pipelineCache :=
    pipelineCache_compilePipeline host (prepareFrame host gpu)
  have hState :
      (prepareFrame host gpu).tracker.state =
        gpu.tracker.state :=
    rfl
  unfold pipelineFor BatchShows
  rw [batchPipeline_fst, hCache, hState]
  dsimp only
  cases gpu.renderer.pipelineCache key with
  | some p => exact Iff.rfl
  | none =>
      cases hBuilt :
          (compilePipeline host
            (prepareFrame host gpu)).2.renderer.buildPipeline
              host gpu.tracker.state with
      | none => exact Iff.rfl
      | some p => exact pipelineShows_built_iff hBuilt

------
-- Draws As They Were Triggered
------

open MetalRenderer ShaderManager

/-
  The tracker when a frame starts whose draws came with one
  pushbuffer, behind any calls and an emptied queue.
-/
def trackerBefore
    (engines : Fin 8 → EngineType)
    (ops : List StateTracker.Op) : StateTracker :=
  ((StateTracker.Run.start engines).steps
    ops).tracker.consumeDraws.2

def pushedFrame
    (t : StateTracker)
    (words : List U32)
    (memory : Memory)
    (shaderMgr : ShaderManager)
    (renderer : MetalRenderer) : Gpu :=
  { tracker := (t.pushBuffer words).1
    memory := memory
    shaderMgr := shaderMgr
    renderer := renderer }

/-
  Where a draw was triggered with registers `s`, what is set of
  the live registers and the pipeline of its batch show `s`.
-/
structure ReplayedAlike
    (host : MetalHost)
    (gpu : Gpu)
    (s : GpuState3D) : Prop where
  settings : SettingsKept host gpu.tracker.state s
  pipeline :
    BatchShows host gpu
      (leaderKey (prepareFrame host gpu).renderer.isRtPath
        (firstKey gpu.tracker.drawQueue)
        (StateTracker.snapshot s)) s

/- The draws of a queue made of snapshots. -/
theorem drawnAsTriggered_snapshots
    {triggers : List GpuState3D}
    (passDesc : MTLRenderPassDescriptor)
    (gpu : Gpu)
    (hSep : KeysSeparate (stages gpu.tracker.state))
    (hQueue : gpu.tracker.drawQueue =
      triggers.map StateTracker.snapshot) :
    DrawnAsTriggered
        ((renderFrame host passDesc gpu).2.flatMap (·.draws))
        triggers ↔
      ∀ s ∈ triggers, ReplayedAlike host gpu s := by
  unfold DrawnAsTriggered
  rw [renderFrame_draws host passDesc gpu hSep]
  nth_rewrite 2 [hQueue]
  rw [List.map_map, List.forall₂_map_left_iff,
    List.forall₂_same]
  refine forall₂_congr fun s _ => ?_
  refine shows_encoded_iff.trans ?_
  rw [pipelineShows_pipelineFor_iff]
  constructor
  · rintro ⟨hSettings, hPipeline⟩
    exact ⟨hSettings, hPipeline⟩
  · intro hAlike
    exact ⟨hAlike.settings, hAlike.pipeline⟩

theorem keysSeparate_pushedFrame
    (engines : Fin 8 → EngineType)
    (ops : List StateTracker.Op)
    (words : List U32) :
    KeysSeparate
      (stages
        ((trackerBefore engines ops).pushBuffer
          words).1.state) := by
  have hStart : Engine3D.OffsetsBounded
      (trackerBefore engines ops).state :=
    StateTracker.offsetsBounded_steps ops
      StateTracker.offsetsBounded_reset
  exact keysSeparate_stages
    (StateTracker.offsetsBounded_onMethods
      (GPFifo.process words).writes hStart)

/- A renderer with a pipeline of the registers at the start. -/
def cachedRenderer : MetalRenderer :=
  { fallbackPipeline := startPipeline
    pipelineCache := fun _ =>
      some
        { startPipeline with
          colorAttachment :=
            { pixelFormat := .BGRA8Unorm_sRGB
              writeMask := ⟨false, false, false, false⟩ } } }

/- The tracker behind a draw of three vertices. -/
def oneDraw : StateTracker :=
  (trackerBefore StateTracker.defaultEngines []).onMethods
    [⟨0, 0x35E, 3⟩]

/- A draw behind which nothing is written is as triggered. -/
example :
    DrawnAsTriggered
      ((renderFrame plainHost plainHost.freshPass
        { tracker := oneDraw
          memory := ⟨fun _ => 0⟩
          shaderMgr := {}
          renderer := cachedRenderer }).2.flatMap (·.draws))
      [{ GpuState3D.reset with drawArraysCount := 3 }] := by
  have hSep : KeysSeparate (stages oneDraw.state) :=
    keysSeparate_stages
      (StateTracker.offsetsBounded_onMethods _
        StateTracker.offsetsBounded_reset)
  refine (drawnAsTriggered_snapshots _ _ hSep rfl).mpr ?_
  intro s hS
  rw [List.mem_singleton] at hS
  subst hS
  refine ⟨⟨?_, ?_, ?_, ?_, ?_, ?_, ?_⟩, ?_⟩
  · exact (if_neg (fun hOn => nomatch hOn.1)).mpr nofun
  · exact ⟨rfl, nofun⟩
  · exact nofun
  · exact (if_pos rfl).mpr ⟨rfl, rfl, rfl, nofun, nofun⟩
  · rfl
  · exact nofun
  · exact fun i => ⟨⟨fun hBound => hBound.1, nofun⟩, nofun⟩
  · refine ⟨rfl, by decide, rfl, ?_, rfl, ?_⟩
    · intro i _ hNamed
      exact hNamed.1 rfl
    · rintro ⟨j, _, hSize⟩
      exact absurd rfl hSize

/- A draw of three vertices, then culling is switched on. -/
def drawThenCull : List U32 :=
  [GPFifo.makeHeader .Inline 0x35E 3 0,
    GPFifo.makeHeader .Inline 0x646 1 0]

theorem triggers_drawThenCull :
    StateTracker.triggers
        (trackerBefore StateTracker.defaultEngines [])
        (GPFifo.process drawThenCull).writes =
      [{ GpuState3D.reset with drawArraysCount := 3 }] := by
  have hWrites :
      (GPFifo.process drawThenCull).writes =
        [⟨0, 0x35E, 3⟩, ⟨0, 0x646, 1⟩] := by
    decide
  rw [hWrites]
  rfl

theorem culledFace_drawThenCull :
    culledFace
        ((trackerBefore StateTracker.defaultEngines
          []).pushBuffer drawThenCull).1.state =
      some CullFace.Back := by
  decide

end Gpu

end M1Switch
