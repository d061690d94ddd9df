import M1Switch.Gpu.Backend.MetalRenderer.Compile

/-
  The state in force at each draw of a frame.

  Every draw of a frame is encoded from the live registers and
  with the pipeline found for its batch: one that was cached,
  one built of the live registers, or a spare one.

  Key definitions include:
    * `pipelineFor`
    * `encoded`

  Main results:
    * `renderFrame_draws`
    * `fixedOf_compiled`
-/

------
-- The Pipeline Of A Key
------

namespace M1Switch

namespace Gpu

open MetalRenderer ShaderManager

variable {host : MetalHost} {gpu gpu' : Gpu}

/- The pipeline a batch of a key gets. -/
def pipelineFor
    (host : MetalHost)
    (gpu : Gpu)
    (key : U64) : MTLRenderPipelineState :=
  ((compilePipeline host gpu).2.renderer.batchPipeline host
    gpu.tracker.state key).1

/- A lookup changes no later lookup. -/
theorem batchPipeline_again
    (r : MetalRenderer)
    (s : GpuState3D)
    (key key' : U64) :
    ((r.batchPipeline host s key).2.batchPipeline host s
        key').1 =
      (r.batchPipeline host s key').1 := by
  rw [batchPipeline_snd, batchPipeline_fst, batchPipeline_fst]
  -- what is built and the spare do not depend on the cache
  change ((Function.update r.pipelineCache key _ key').or
    (r.buildPipeline host s)).getD r.spare = _
  by_cases hKey : key' = key
  · subst hKey
    rw [Function.update_self, Option.or_assoc, Option.or_self]
  · rw [Function.update_of_ne hKey]

/- The compile state does not depend on the pipeline cache. -/
theorem Settled.batchPipeline
    (hSettled : Settled host gpu)
    (s : GpuState3D)
    (key : U64) :
    Settled host
      { gpu with
        renderer :=
          (gpu.renderer.batchPipeline host s key).2 } := by
  rw [batchPipeline_snd]
  exact hSettled

/- Another batch finds the same pipelines. -/
theorem pipelineFor_beginBatch
    (passDesc : MTLRenderPassDescriptor)
    (hSep : KeysSeparate (stages gpu.tracker.state))
    (key key' : U64) :
    pipelineFor host (beginBatch host passDesc gpu key).2 key' =
      pipelineFor host gpu key' := by
  have hFrame := sameFrame_beginBatch host passDesc gpu key
  have hSettled : Settled host
      (beginBatch host passDesc gpu key).2 :=
    (settled_compilePipeline hSep).batchPipeline
      gpu.tracker.state key
  have hAgain :
      (compilePipeline host
          (beginBatch host passDesc gpu key).2).2.renderer =
        (beginBatch host passDesc gpu key).2.renderer := by
    apply hSettled.again
    rw [hFrame.tracker]
    exact hSep
  unfold pipelineFor
  rw [hAgain, hFrame.tracker]
  exact batchPipeline_again _ _ key key'

end Gpu

------
-- The Draws Of A Frame
------

namespace MetalRenderer

variable {host : MetalHost} {s : GpuState3D}

/- Setting the state twice is setting it once. -/
theorem applyState_again
    (enc : EncoderState) :
    applyState host s (applyState host s enc) =
      applyState host s enc := by
  simp only [applyState, applyCulling, applyDepthStencil,
    applyBlend, applyScissor, applyViewport,
    ← Option.or_assoc, Option.or_self]

/- A draw from registers and with a pipeline. -/
def encoded
    (host : MetalHost)
    (s : GpuState3D)
    (pipeline : MTLRenderPipelineState)
    (d : PendingDraw) : EncodedDraw :=
  { draw := d
    encoder := applyState host s { pipeline := some pipeline }
    bindings := vertexBindings s (vertexCount d)
    call := (issueDraw · d) }

/- The key whose pipeline a draw gets. -/
def leaderKey
    (rtPath : Bool)
    (first : U64)
    (d : PendingDraw) : U64 :=
  if rtPath then d.pipelineKey else first

end MetalRenderer

namespace Gpu

open MetalRenderer ShaderManager

variable {host : MetalHost}
variable {passDesc : MTLRenderPassDescriptor} {start : Gpu}
variable {first : U64}

/- The loop goes on as it started. -/
structure InFrame
    (host : MetalHost)
    (start gpu : Gpu) : Prop where
  same : SameFrame start gpu
  pipelines :
    ∀ key, pipelineFor host gpu key = pipelineFor host start key

theorem inFrame_refl : InFrame host start start :=
  ⟨⟨rfl, rfl, SameTargets.refl⟩, fun _ => rfl⟩

theorem InFrame.beginBatch
    {gpu : Gpu}
    (hSep : KeysSeparate (stages start.tracker.state))
    (hFrame : InFrame host start gpu)
    (passDesc : MTLRenderPassDescriptor)
    (key : U64) :
    InFrame host start
      (Gpu.beginBatch host passDesc gpu key).2 := by
  refine ⟨hFrame.same.trans
    (sameFrame_beginBatch host passDesc gpu key), ?_⟩
  intro key'
  rw [pipelineFor_beginBatch passDesc _ key key',
    hFrame.pipelines]
  rw [hFrame.same.tracker]
  exact hSep

/- The encoder of a batch in progress. -/
structure BatchEncoder
    (host : MetalHost)
    (start : Gpu)
    (first : U64)
    (b : OpenBatch) : Prop where
  encoder :
    ∃ pipeline, applyState host start.tracker.state b.encoder =
      applyState host start.tracker.state
        { pipeline := some pipeline } ∧
      (start.renderer.isRtPath = true →
        pipeline = pipelineFor host start b.lastPipelineKey) ∧
      (start.renderer.isRtPath = false →
        pipeline = pipelineFor host start first)

/- What a draw adds to its batch. -/
theorem BatchEncoder.encodeDraw
    {b : OpenBatch}
    {d : PendingDraw}
    (hBatch : BatchEncoder host start first b)
    (hKey : start.renderer.isRtPath = true →
      d.pipelineKey = b.lastPipelineKey) :
    (MetalRenderer.encodeDraw host start.tracker.state d
        b).pass.draws =
        b.pass.draws ++
          [encoded host start.tracker.state
            (pipelineFor host start
              (leaderKey start.renderer.isRtPath first d))
            d] ∧
      BatchEncoder host start first
        (MetalRenderer.encodeDraw host start.tracker.state d
          b) := by
  rcases hBatch.encoder with ⟨pipeline, hEnc, hRt, hDirect⟩
  have hPipeline :
      pipeline = pipelineFor host start
        (leaderKey start.renderer.isRtPath first d) := by
    unfold leaderKey
    split_ifs with hPath
    · rw [hRt hPath, hKey hPath]
    · exact hDirect (Bool.eq_false_iff.mpr hPath)
  refine ⟨?_, ⟨pipeline, ?_, ?_, hDirect⟩⟩
  · simp only [MetalRenderer.encodeDraw, encoded, hEnc,
      ← hPipeline]
  · simp only [MetalRenderer.encodeDraw, applyState_again, hEnc]
  · intro hPath
    rw [hPipeline, leaderKey, if_pos hPath]
    rfl

/- The first draw of a batch. -/
theorem InFrame.firstDraw
    {gpu : Gpu}
    {d : PendingDraw}
    (hFrame : InFrame host start gpu)
    (passDesc : MTLRenderPassDescriptor)
    (hFirst : start.renderer.isRtPath = false →
      first = d.pipelineKey) :
    (MetalRenderer.encodeDraw host start.tracker.state d
        (Gpu.beginBatch host passDesc gpu
          d.pipelineKey).1).pass.draws =
        [encoded host start.tracker.state
          (pipelineFor host start
            (leaderKey start.renderer.isRtPath first d)) d] ∧
      BatchEncoder host start first
        (MetalRenderer.encodeDraw host start.tracker.state d
          (Gpu.beginBatch host passDesc gpu
            d.pipelineKey).1) := by
  have hLeader :
      leaderKey start.renderer.isRtPath first d =
        d.pipelineKey := by
    unfold leaderKey
    split_ifs with hPath
    · rfl
    · exact hFirst (Bool.eq_false_iff.mpr hPath)
  have hEncoder :
      (Gpu.beginBatch host passDesc gpu
          d.pipelineKey).1.encoder =
        { pipeline := some
            (pipelineFor host start d.pipelineKey) } := by
    rw [← hFrame.pipelines]
    rfl
  rw [hLeader]
  refine ⟨?_, ⟨_, ?_, fun _ => rfl, ?_⟩⟩
  · simp only [MetalRenderer.encodeDraw, hEncoder, encoded]
    rfl
  · simp only [MetalRenderer.encodeDraw, hEncoder,
      applyState_again]
  · intro hPath
    rw [hFirst hPath]
    rfl

/- The draws encoded by the loop. -/
theorem encodeDraws_draws
    (hSep : KeysSeparate (stages start.tracker.state)) :
    ∀ (rest : List PendingDraw) (gpu : Gpu) (b : OpenBatch),
      InFrame host start gpu →
        BatchEncoder host start first b →
          (encodeDraws host passDesc rest gpu
              (some b)).2.flatMap (·.draws) =
            b.pass.draws ++
              rest.map fun d =>
                encoded host start.tracker.state
                  (pipelineFor host start
                    (leaderKey start.renderer.isRtPath first
                      d)) d := by
  intro rest
  induction rest with
  | nil =>
      intro gpu b _ _
      simp [encodeDraws]
  | cons d rest ih =>
      intro gpu b hFrame hBatch
      unfold encodeDraws
      rw [hFrame.same.targets.isRtPath, hFrame.same.tracker]
      split_ifs with hStarts
      · have hPath : start.renderer.isRtPath = true := by
          unfold startsBatch at hStarts
          rw [Bool.and_eq_true] at hStarts
          exact hStarts.1
        have hDirect : start.renderer.isRtPath = false →
            first = d.pipelineKey := by
          intro hFalse
          rw [hPath] at hFalse
          cases hFalse
        rcases hFrame.firstDraw passDesc hDirect with
          ⟨hDraws, hNext⟩
        dsimp only
        rw [List.flatMap_append,
          ih _ _ (hFrame.beginBatch hSep passDesc _) hNext,
          hDraws]
        simp
      · have hKey : start.renderer.isRtPath = true →
            d.pipelineKey = b.lastPipelineKey := by
          intro hPath
          simpa [startsBatch, hPath] using hStarts
        rcases hBatch.encodeDraw hKey with ⟨hDraws, hNext⟩
        rw [Option.map_some, ih gpu _ hFrame hNext, hDraws,
          List.map_cons, List.append_assoc,
          List.singleton_append]

/- The key of the first draw in a queue. -/
def firstKey (queue : List PendingDraw) : U64 :=
  (queue.head?.map (·.pipelineKey)).getD 0

/- The draws encoded by the whole loop. -/
theorem encodeDraws_none
    (host : MetalHost)
    (passDesc : MTLRenderPassDescriptor)
    (start : Gpu)
    (hSep : KeysSeparate (stages start.tracker.state))
    (queue : List PendingDraw) :
    (encodeDraws host passDesc queue start none).2.flatMap
        (·.draws) =
      queue.map fun d =>
        encoded host start.tracker.state
          (pipelineFor host start
            (leaderKey start.renderer.isRtPath
              (firstKey queue) d)) d := by
  cases queue with
  | nil => rfl
  | cons d rest =>
      have hFrame : InFrame host start start := inFrame_refl
      have hDirect : start.renderer.isRtPath = false →
          firstKey (d :: rest) = d.pipelineKey :=
        fun _ => rfl
      rcases hFrame.firstDraw passDesc hDirect with
        ⟨hDraws, hNext⟩
      unfold encodeDraws
      rw [if_pos (startsBatch_none _ d)]
      dsimp only
      rw [Option.map_none, Option.toList_none,
        List.nil_append,
        encodeDraws_draws hSep rest _ _
          (hFrame.beginBatch hSep passDesc _) hNext,
        hDraws]
      rfl

/-
  Every queued draw is encoded once, in order, from the live
  registers and with the pipeline of its batch.
-/
theorem renderFrame_draws
    (host : MetalHost)
    (passDesc : MTLRenderPassDescriptor)
    (gpu : Gpu)
    (hSep : KeysSeparate (stages gpu.tracker.state)) :
    (renderFrame host passDesc gpu).2.flatMap (·.draws) =
      gpu.tracker.drawQueue.map fun d =>
        encoded host gpu.tracker.state
          (pipelineFor host (prepareFrame host gpu)
            (leaderKey
              (prepareFrame host gpu).renderer.isRtPath
              (firstKey gpu.tracker.drawQueue) d)) d := by
  unfold renderFrame
  split_ifs with hPending
  · exact encodeDraws_none host passDesc
      (prepareFrame host gpu) hSep gpu.tracker.drawQueue
  · have hEmpty : gpu.tracker.drawQueue = [] := by
      simpa [StateTracker.hasPendingDraws] using hPending
    rw [hEmpty]
    rfl

end Gpu

------
-- Fixed-Function Parts Of Pipelines
------

/- The fixed-function part of a pipeline. -/
structure PipelineFixed where
  color : MTLPipelineColorAttachment
  depthFormat : MTLPixelFormat
  vertexDescriptor : MTLVertexDescriptor
deriving DecidableEq

namespace MetalRenderer

def fixedOf (p : MTLRenderPipelineState) : PipelineFixed :=
  { color := p.colorAttachment
    depthFormat := p.depthAttachmentPixelFormat
    vertexDescriptor := p.vertexDescriptor }

/- The pipeline part that registers ask for. -/
def askedPipeline
    (host : MetalHost)
    (r : MetalRenderer)
    (s : GpuState3D) : PipelineFixed :=
  let resolved := r.resolveRenderTargets host s
  { color :=
      { pixelFormat := resolved.colorFormat s
        blend := blendDescriptor (s.blend 0)
        writeMask := colorWriteMask (s.blend 0).colorMask }
    depthFormat := resolved.depthFormat
    vertexDescriptor := buildVertexDescriptor s }

end MetalRenderer

namespace Gpu

open MetalRenderer ShaderManager

variable {host : MetalHost} {gpu : Gpu}
variable {p : MTLRenderPipelineState}

/- Compiling leaves the pipeline cache alone. -/
theorem pipelineCache_compilePipeline
    (host : MetalHost)
    (gpu : Gpu) :
    (compilePipeline host gpu).2.renderer.pipelineCache =
      gpu.renderer.pipelineCache := by
  unfold compilePipeline
  dsimp only
  split_ifs
  · rfl
  · rfl
  cases gpu.memory.pointer gpu.tracker.state.programRegion with
  | none => rfl
  | some region =>
      dsimp only [compileStages, usePipeline]
      split_ifs <;> rfl

/- What is built of registers and results. -/
theorem eq_of_buildPipeline
    {r : MetalRenderer}
    {s : GpuState3D}
    (hBuilt : r.buildPipeline host s = some p) :
    ∃ v f,
      r.vertResult.vertexFunction = some v ∧
        r.fragResult.fragmentFunction = some f ∧
          p = pipelineDescriptor s v f (r.colorFormat s)
            r.depthFormat (s.blend 0) := by
  unfold buildPipeline createPipelineWithBlend
    MetalHost.createRenderPipeline at hBuilt
  split_ifs at hBuilt
  split at hBuilt
  · rename_i v f hVert hFrag
    split_ifs at hBuilt
    cases hBuilt
    exact ⟨v, f, hVert, hFrag, rfl⟩
  · cases hBuilt

/- A pipeline built from the live registers asks as they do. -/
theorem fixedOf_buildPipeline
    {r : MetalRenderer}
    {s : GpuState3D}
    (hBuilt : r.buildPipeline host s = some p) :
    fixedOf p =
      { color :=
          { pixelFormat := r.colorFormat s
            blend := blendDescriptor (s.blend 0)
            writeMask := colorWriteMask (s.blend 0).colorMask }
        depthFormat := r.depthFormat
        vertexDescriptor := buildVertexDescriptor s } := by
  rcases eq_of_buildPipeline hBuilt with ⟨v, f, _, _, rfl⟩
  rfl

/- What a frame builds is what its registers ask for. -/
theorem fixedOf_compiled
    (hBuilt :
      (compilePipeline host
        (prepareFrame host gpu)).2.renderer.buildPipeline host
          gpu.tracker.state = some p) :
    fixedOf p =
      askedPipeline host gpu.renderer gpu.tracker.state := by
  have hTargets :=
    (sameFrame_compilePipeline host
      (prepareFrame host gpu)).targets
  rw [fixedOf_buildPipeline hBuilt]
  unfold askedPipeline colorFormat depthFormat
  rw [hTargets.isRtPath, hTargets.depthTexture]
  rfl

end Gpu

end M1Switch
