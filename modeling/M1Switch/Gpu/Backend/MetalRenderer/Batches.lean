import M1Switch.Gpu.Backend.MetalRenderer
import Mathlib.Data.List.SplitBy

/-
  The render passes of a frame.

  The passes of a frame are the runs of queued draws that share
  a batch, and all are made from the same registers and the
  same textures.  So a clear request goes to every pass.

  Key definitions include:
    * `MetalRenderer.SameTargets`
    * `sameBatch`

  Main results:
    * `renderFrame_batches`
    * `renderFrame_descs`
    * `clearsOnce_iff`
-/

------
-- What A Batch Leaves Alone
------

namespace M1Switch

namespace MetalRenderer

/- Textures and formats of the targets agree. -/
structure SameTargets (r r' : MetalRenderer) : Prop where
  rtTextures : r'.rtTextures = r.rtTextures
  rtCount : r'.rtCount = r.rtCount
  rtActive : r'.rtActive = r.rtActive
  depthTexture : r'.depthTexture = r.depthTexture

variable {r r' r'' : MetalRenderer}

theorem SameTargets.refl : SameTargets r r :=
  ⟨rfl, rfl, rfl, rfl⟩

theorem SameTargets.trans
    (h : SameTargets r r')
    (h' : SameTargets r' r'') :
    SameTargets r r'' :=
  ⟨h'.rtTextures.trans h.rtTextures,
    h'.rtCount.trans h.rtCount,
    h'.rtActive.trans h.rtActive,
    h'.depthTexture.trans h.depthTexture⟩

theorem SameTargets.isRtPath
    (h : SameTargets r r') :
    r'.isRtPath = r.isRtPath := by
  unfold MetalRenderer.isRtPath
  rw [h.rtTextures, h.rtActive]

theorem SameTargets.symm
    (h : SameTargets r r') :
    SameTargets r' r :=
  ⟨h.rtTextures.symm, h.rtCount.symm, h.rtActive.symm,
    h.depthTexture.symm⟩

/- Passes depend on the targets only. -/
theorem SameTargets.batchPass
    (h : SameTargets r r')
    (host : MetalHost)
    (passDesc : MTLRenderPassDescriptor)
    (s : GpuState3D) :
    batchPass host passDesc r' s =
      batchPass host passDesc r s := by
  unfold MetalRenderer.batchPass rtPass
  have hAttachment :
      r'.rtAttachment host.freshPass =
        r.rtAttachment host.freshPass := by
    funext i
    unfold rtAttachment
    rw [h.rtTextures, h.rtCount]
  rw [h.isRtPath, h.depthTexture, hAttachment]

/- The pipeline of a batch: cached, built or spare. -/
theorem batchPipeline_fst
    (host : MetalHost)
    (r : MetalRenderer)
    (s : GpuState3D)
    (key : U64) :
    (r.batchPipeline host s key).1 =
      ((r.pipelineCache key).or
        (r.buildPipeline host s)).getD r.spare := by
  unfold batchPipeline getOrCreatePipeline
  cases r.pipelineCache key with
  | some p => rfl
  | none => cases r.buildPipeline host s <;> rfl

/- A lookup keeps what it found or built, and nothing else. -/
theorem batchPipeline_snd
    (host : MetalHost)
    (r : MetalRenderer)
    (s : GpuState3D)
    (key : U64) :
    (r.batchPipeline host s key).2 =
      { r with
        pipelineCache :=
          Function.update r.pipelineCache key
            ((r.pipelineCache key).or
              (r.buildPipeline host s)) } := by
  have hSame :
      r.pipelineCache key =
          (r.pipelineCache key).or (r.buildPipeline host s) →
        r =
          { r with
            pipelineCache :=
              Function.update r.pipelineCache key
                ((r.pipelineCache key).or
                  (r.buildPipeline host s)) } := by
    intro hKey
    rw [← hKey, Function.update_eq_self]
  unfold batchPipeline getOrCreatePipeline
  cases hFound : r.pipelineCache key with
  | some p =>
      rw [hFound] at hSame
      exact hSame rfl
  | none =>
      rw [hFound] at hSame
      cases hBuilt : r.buildPipeline host s with
      | some p => rfl
      | none =>
          rw [hBuilt] at hSame
          exact hSame rfl

end MetalRenderer

namespace Gpu

open MetalRenderer

variable {host : MetalHost} {gpu gpu' gpu'' : Gpu}

/- Registers, memory and targets agree within a frame. -/
structure SameFrame (gpu gpu' : Gpu) : Prop where
  tracker : gpu'.tracker = gpu.tracker
  memory : gpu'.memory = gpu.memory
  targets : SameTargets gpu.renderer gpu'.renderer

theorem SameFrame.trans
    (h : SameFrame gpu gpu')
    (h' : SameFrame gpu' gpu'') :
    SameFrame gpu gpu'' :=
  ⟨h'.tracker.trans h.tracker, h'.memory.trans h.memory,
    h.targets.trans h'.targets⟩

theorem sameFrame_compilePipeline
    (host : MetalHost)
    (gpu : Gpu) :
    SameFrame gpu (compilePipeline host gpu).2 := by
  have hRefl : SameFrame gpu gpu :=
    ⟨rfl, rfl, SameTargets.refl⟩
  unfold compilePipeline
  dsimp only
  split_ifs
  · exact hRefl
  · exact hRefl
  cases gpu.memory.pointer gpu.tracker.state.programRegion with
  | none => exact hRefl
  | some region =>
      dsimp only [compileStages, usePipeline]
      split_ifs
      · exact ⟨rfl, rfl, rfl, rfl, rfl, rfl⟩
      · exact ⟨rfl, rfl, SameTargets.refl⟩
      · exact ⟨rfl, rfl, SameTargets.refl⟩

theorem sameFrame_beginBatch
    (host : MetalHost)
    (passDesc : MTLRenderPassDescriptor)
    (gpu : Gpu)
    (key : U64) :
    SameFrame gpu (beginBatch host passDesc gpu key).2 := by
  have hCompile := sameFrame_compilePipeline host gpu
  refine ⟨hCompile.tracker, hCompile.memory,
    hCompile.targets.trans ?_⟩
  dsimp only [beginBatch]
  rw [batchPipeline_snd]
  exact ⟨rfl, rfl, rfl, rfl⟩

end Gpu

------
-- The Passes Of A Frame
------

namespace MetalRenderer

/- The second draw goes on in the batch of the first. -/
def sameBatch
    (rtPath : Bool)
    (a b : PendingDraw) : Bool :=
  !(rtPath && b.pipelineKey != a.pipelineKey)

/- The draws of a pass. -/
def drawsOf (pass : RenderPass) : List PendingDraw :=
  pass.draws.map (·.draw)

/- A batch in progress: its draws and their last key. -/
structure BatchOf
    (rtPath : Bool)
    (draws : List PendingDraw)
    (b : OpenBatch) : Prop where
  draws_eq : drawsOf b.pass = draws
  chain : draws.IsChain fun x y => sameBatch rtPath x y
  last :
    ∃ d ∈ draws.getLast?, d.pipelineKey = b.lastPipelineKey

variable {host : MetalHost} {rtPath : Bool}
variable {draws : List PendingDraw} {b : OpenBatch}
variable {s : GpuState3D} {d : PendingDraw}

theorem drawsOf_encodeDraw :
    drawsOf (encodeDraw host s d b).pass =
      drawsOf b.pass ++ [d] := by
  simp [drawsOf, encodeDraw]

/- The first draw of a frame starts a batch. -/
theorem startsBatch_none
    (rtPath : Bool)
    (d : PendingDraw) :
    startsBatch rtPath none d = true :=
  rfl

theorem sameBatch_last
    (hBatch : BatchOf rtPath draws b) :
    ∀ x ∈ draws.getLast?,
      sameBatch rtPath x d = !startsBatch rtPath (some b) d := by
  intro x hX
  rcases hBatch.last with ⟨y, hY, hKey⟩
  have hEq : x = y := Option.mem_unique hX hY
  rw [hEq, sameBatch, startsBatch, hKey]

/- A draw that starts no batch joins the one in progress. -/
theorem BatchOf.encodeDraw
    (hBatch : BatchOf rtPath draws b)
    (hStays : startsBatch rtPath (some b) d = false) :
    BatchOf rtPath (draws ++ [d]) (encodeDraw host s d b) := by
  refine ⟨?_, ?_, ?_⟩
  · rw [drawsOf_encodeDraw, hBatch.draws_eq]
  · rw [List.isChain_append]
    refine ⟨hBatch.chain, List.isChain_singleton d, ?_⟩
    intro x hX y hY
    cases hY
    rw [sameBatch_last hBatch x hX, hStays]
    rfl
  · exact ⟨d, by simp, rfl⟩

/- The first draw of a batch. -/
theorem batchOf_first
    (hEmpty : b.pass.draws = []) :
    BatchOf rtPath [d] (MetalRenderer.encodeDraw host s d b) := by
  refine ⟨?_, List.isChain_singleton d, ⟨d, by simp, rfl⟩⟩
  rw [drawsOf_encodeDraw, drawsOf, hEmpty]
  rfl

end MetalRenderer

namespace Gpu

open MetalRenderer

variable {host : MetalHost}
variable {passDesc : MTLRenderPassDescriptor}
variable {rtPath : Bool}

/- The loop splits its draws by batches. -/
theorem encodeDraws_some :
    ∀ (rest : List PendingDraw) (gpu : Gpu) (b : OpenBatch)
      (draws : List PendingDraw),
      gpu.renderer.isRtPath = rtPath →
        BatchOf rtPath draws b → draws ≠ [] →
          (encodeDraws host passDesc rest gpu
            (some b)).2.map drawsOf =
              (draws ++ rest).splitBy (sameBatch rtPath) := by
  intro rest
  induction rest with
  | nil =>
      intro gpu b draws _ hBatch hNe
      rw [List.append_nil,
        List.splitBy_of_isChain hNe hBatch.chain]
      simp [encodeDraws, hBatch.draws_eq]
  | cons d rest ih =>
      intro gpu b draws hPath hBatch hNe
      unfold encodeDraws
      rw [hPath]
      by_cases hStarts : startsBatch rtPath (some b) d = true
      · have hFirst := ih
          (beginBatch host passDesc gpu d.pipelineKey).2
          (MetalRenderer.encodeDraw host gpu.tracker.state d
            (beginBatch host passDesc gpu d.pipelineKey).1)
          [d]
          ((sameFrame_beginBatch host passDesc gpu
            d.pipelineKey).targets.isRtPath.trans hPath)
          (batchOf_first rfl) (List.cons_ne_nil _ _)
        have hSplit : ∀ x ∈ draws.getLast?,
            sameBatch rtPath x d = false := by
          intro x hX
          rw [sameBatch_last hBatch x hX, hStarts]
          rfl
        rw [if_pos hStarts, List.splitBy_append_cons _ hSplit,
          List.splitBy_of_isChain hNe hBatch.chain]
        simp only [Option.map_some, Option.toList_some,
          List.map_cons, hBatch.draws_eq, hFirst,
          List.singleton_append]
      · have hStays : startsBatch rtPath (some b) d = false :=
          Bool.eq_false_iff.mpr hStarts
        rw [if_neg hStarts, Option.map_some,
          ih gpu _ (draws ++ [d]) hPath
            (hBatch.encodeDraw hStays) (by simp),
          List.append_assoc, List.singleton_append]

/- The passes of a frame are its runs of draws. -/
theorem renderFrame_batches
    (host : MetalHost)
    (passDesc : MTLRenderPassDescriptor)
    (gpu : Gpu) :
    (renderFrame host passDesc gpu).2.map drawsOf =
      gpu.tracker.drawQueue.splitBy
        (sameBatch
          (prepareFrame host gpu).renderer.isRtPath) := by
  unfold renderFrame StateTracker.hasPendingDraws
    StateTracker.consumeDraws
  cases hQueue : gpu.tracker.drawQueue with
  | nil => rfl
  | cons d rest =>
      simp only [List.isEmpty_cons, Bool.not_false, if_true]
      unfold encodeDraws
      rw [if_pos (startsBatch_none _ d)]
      exact encodeDraws_some rest _ _ [d]
        (sameFrame_beginBatch host passDesc _ _).targets.isRtPath
        (batchOf_first rfl) (List.cons_ne_nil _ _)

/- All passes of a frame have one descriptor. -/
theorem encodeDraws_descs :
    ∀ (rest : List PendingDraw) (gpu : Gpu)
      (batch : Option OpenBatch),
      (∀ b ∈ batch, b.pass.desc =
        batchPass host passDesc gpu.renderer
          gpu.tracker.state) →
        ∀ pass ∈ (encodeDraws host passDesc rest gpu batch).2,
          pass.desc = batchPass host passDesc gpu.renderer
            gpu.tracker.state := by
  intro rest
  induction rest with
  | nil =>
      intro gpu batch hBatch pass hPass
      cases batch with
      | none => cases hPass
      | some b =>
          simp only [encodeDraws, Option.map_some,
            Option.toList_some, List.mem_singleton] at hPass
          rw [hPass]
          exact hBatch b rfl
  | cons d rest ih =>
      intro gpu batch hBatch pass hPass
      unfold encodeDraws at hPass
      split_ifs at hPass with hStarts
      · have hSame := sameFrame_beginBatch host passDesc gpu
          d.pipelineKey
        have hPassEq :
            batchPass host passDesc
                (beginBatch host passDesc gpu
                  d.pipelineKey).2.renderer
                (beginBatch host passDesc gpu
                  d.pipelineKey).2.tracker.state =
              batchPass host passDesc gpu.renderer
                gpu.tracker.state := by
          rw [hSame.tracker, hSame.targets.batchPass]
        rcases List.mem_append.mp hPass with hOld | hNew
        · cases batch with
          | none => cases hOld
          | some b =>
              simp only [Option.map_some, Option.toList_some,
                List.mem_singleton] at hOld
              rw [hOld]
              exact hBatch b rfl
        · rw [← hPassEq]
          apply ih _ _ _ pass hNew
          intro b hB
          cases hB
          exact hPassEq.symm
      · apply ih gpu _ _ pass hPass
        intro b hB
        rcases Option.map_eq_some_iff.mp hB with
          ⟨b', hB', hEq⟩
        rw [← hEq]
        exact hBatch b' hB'

theorem renderFrame_descs
    (host : MetalHost)
    (passDesc : MTLRenderPassDescriptor)
    (gpu : Gpu) :
    ∀ pass ∈ (renderFrame host passDesc gpu).2,
      pass.desc = batchPass host passDesc
        (prepareFrame host gpu).renderer
        gpu.tracker.state := by
  intro pass hPass
  unfold renderFrame at hPass
  split_ifs at hPass
  · refine encodeDraws_descs _ (prepareFrame host gpu) none
      ?_ pass hPass
    intro b hB
    cases hB
  · cases hPass

end Gpu

------
-- Clear Requests
------

namespace MetalRenderer

/- A pass that clears nothing and loads its attachments. -/
structure KeepsContents (desc : MTLRenderPassDescriptor) :
    Prop where
  noClear :
    ∀ i, (desc.colorAttachments i).loadAction ≠ .Clear
  color :
    ∀ i, (desc.colorAttachments i).texture.isSome →
      (desc.colorAttachments i).loadAction = .Load
  depth :
    desc.depthAttachment.texture.isSome →
      desc.depthAttachment.loadAction = .Load

/- Only the first pass may clear; later ones keep contents. -/
def ClearsOnce (passes : List RenderPass) : Prop :=
  ∀ pass ∈ passes.tail, KeepsContents pass.desc

theorem countTextures_pos
    {textures : Fin 8 → Option MTLTexture}
    (hFirst : (textures 0).isSome) :
    0 < countTextures textures := by
  have hKeep :
      ∀ (l : List (Fin 8)) (count : Nat), 0 < count →
        0 < l.foldl
          (fun count i =>
            if (textures i).isSome then i.val + 1
            else count) count := by
    intro l
    induction l with
    | nil => exact fun _ hCount => hCount
    | cons i l ih =>
        intro count hCount
        apply ih
        dsimp only
        split_ifs
        · exact Nat.succ_pos _
        · exact hCount
  unfold countTextures
  rw [List.finRange_succ, List.foldl_cons, if_pos hFirst]
  exact hKeep _ _ Nat.one_pos

/-
  The first color attachment of a pass to render targets is
  not loaded: nothing sets its load action but a clear.
-/
theorem rtPass_not_keepsContents
    {host : MetalHost}
    {r : MetalRenderer}
    {s : GpuState3D}
    (hFresh :
      (host.freshPass.colorAttachments 0).loadAction =
        .DontCare)
    (hTexture : (r.rtTextures 0).isSome)
    (hCount : 0 < r.rtCount) :
    ¬ KeepsContents (rtPass host r s) := by
  intro hKeeps
  rcases Option.isSome_iff_exists.mp hTexture with
    ⟨texture, hSome⟩
  have hAttachment :
      r.rtAttachment host.freshPass 0 =
        { host.freshPass.colorAttachments 0 with
          texture := some texture
          storeAction := .Store } := by
    unfold rtAttachment
    rw [hSome]
    exact if_pos hCount
  have hColors :
      (rtPass host r s).colorAttachments 0 =
        if s.clear.buffers.getLsbD 0 then
          { r.rtAttachment host.freshPass 0 with
            loadAction := .Clear }
        else r.rtAttachment host.freshPass 0 := by
    unfold rtPass issueClear
    cases r.depthTexture <;> dsimp only <;> split_ifs <;> simp
  have hLoad := hKeeps.color 0
  rw [hColors, hAttachment] at hLoad
  split_ifs at hLoad
  · cases hLoad rfl
  · cases (hFresh.symm.trans (hLoad rfl))

def SameKey (a b : PendingDraw) : Prop :=
  b.pipelineKey = a.pipelineKey

instance : Trans SameKey SameKey SameKey :=
  ⟨fun hAB hBC => hBC.trans hAB⟩

instance : Std.Symm SameKey :=
  ⟨fun _ _ hAB => hAB.symm⟩

/- One batch exactly when all draws share a key. -/
theorem tail_splitBy_eq_nil_iff
    (draws : List PendingDraw) :
    (draws.splitBy (sameBatch true)).tail = [] ↔
      ∀ d ∈ draws, ∀ d' ∈ draws,
        d.pipelineKey = d'.pipelineKey := by
  have hRel :
      ∀ x y, sameBatch true x y = true ↔ SameKey x y := by
    simp [sameBatch, SameKey]
  by_cases hNil : draws = []
  · subst hNil
    simp
  constructor
  · intro hTail
    have hChain :
        draws.IsChain SameKey := by
      cases hSplit : draws.splitBy (sameBatch true) with
      | nil => exact absurd (List.splitBy_eq_nil.mp hSplit) hNil
      | cons m rest =>
          rw [hSplit, List.tail_cons] at hTail
          have hFlat :=
            List.flatten_splitBy (sameBatch true) draws
          rw [hSplit, hTail, List.flatten_singleton] at hFlat
          have hMem : m ∈ draws.splitBy (sameBatch true) := by
            rw [hSplit]
            exact List.mem_cons_self
          rw [← hFlat]
          exact (List.isChain_of_mem_splitBy hMem).imp
            fun x y => (hRel x y).mp
    have hSelf : ∀ d ∈ draws, SameKey d d :=
      fun _ _ => rfl
    intro d hD d' hD'
    exact (hChain.pairwise.forall_of_forall hSelf hD
      hD').symm
  · intro hAll
    have hPairwise :
        draws.Pairwise fun x y => sameBatch true x y :=
      List.pairwise_of_forall_mem_list fun x hX y hY =>
        (hRel x y).mpr (hAll y hY x hX)
    rw [List.splitBy_of_isChain hNil hPairwise.isChain]
    rfl

end MetalRenderer

namespace Gpu

open MetalRenderer

variable {host : MetalHost}
variable {passDesc : MTLRenderPassDescriptor} {gpu : Gpu}

/- A frame to render targets with more than one batch. -/
theorem not_clearsOnce
    (hFresh :
      (host.freshPass.colorAttachments 0).loadAction =
        .DontCare)
    (hPath : (prepareFrame host gpu).renderer.isRtPath = true)
    (hTail : (renderFrame host passDesc gpu).2.tail ≠ []) :
    ¬ ClearsOnce (renderFrame host passDesc gpu).2 := by
  intro hOnce
  rcases List.exists_mem_of_ne_nil _ hTail with ⟨pass, hPass⟩
  have hDesc := renderFrame_descs host passDesc gpu pass
    (List.mem_of_mem_tail hPass)
  have hKeeps := hOnce pass hPass
  unfold MetalRenderer.isRtPath at hPath
  rw [Bool.and_eq_true] at hPath
  rw [hDesc, batchPass,
    if_pos (by simp [MetalRenderer.isRtPath, hPath])] at hKeeps
  exact rtPass_not_keepsContents hFresh hPath.2
    (countTextures_pos hPath.2) hKeeps

/-
  On the render target path a clear request is applied once,
  and no later pass clears or drops what an earlier one drew,
  exactly when all queued draws share a pipeline key.
-/
theorem clearsOnce_iff
    (host : MetalHost)
    (passDesc : MTLRenderPassDescriptor)
    (gpu : Gpu)
    (hFresh :
      ∀ i, (host.freshPass.colorAttachments i).loadAction =
        .DontCare)
    (hPath :
      (prepareFrame host gpu).renderer.isRtPath = true) :
    ClearsOnce (renderFrame host passDesc gpu).2 ↔
      ∀ d ∈ gpu.tracker.drawQueue,
        ∀ d' ∈ gpu.tracker.drawQueue,
          d.pipelineKey = d'.pipelineKey := by
  have hBatches := renderFrame_batches host passDesc gpu
  rw [hPath] at hBatches
  rw [← tail_splitBy_eq_nil_iff, ← hBatches, ← List.map_tail,
    List.map_eq_nil_iff]
  constructor
  · intro hOnce
    by_contra hTail
    exact not_clearsOnce (hFresh 0) hPath hTail hOnce
  · intro hTail pass hPass
    rw [hTail] at hPass
    cases hPass

/- A host that makes what it is asked for. -/
def plainHost : MetalHost :=
  { compilesLibrary := fun _ => true
    hasFunction := fun _ _ => true
    createsPipeline := fun _ => true
    createsTexture := fun _ => true
    createsDepthStencil := fun _ => true
    freshPass :=
      { colorAttachments := fun _ => { loadAction := .DontCare }
        depthAttachment := { loadAction := .Clear }
        stencilAttachment := { loadAction := .Clear } }
    spirvCrossToMSL := fun _ stage =>
      if stage = .Fragment then "fragment main0"
      else "vertex main0" }

/- The pipeline made at start-up. -/
def startPipeline : MTLRenderPipelineState :=
  ShaderManager.minimalPipeline ⟨"shaders", "vertex_main"⟩
    ⟨"shaders", "fragment_main"⟩

/- Registers with a render target of 64 by 64 pixels. -/
def targetRegisters : GpuState3D :=
  { GpuState3D.reset with
    rt := Function.update GpuState3D.reset.rt 0
      { address := 0x1000
        width := 64
        height := 64
        format := RtFormat.RGBA8Unorm } }

/- A clear and two draws, with writes between the draws. -/
def clearAndDraw (between : List GPFifo.MethodWrite) :
    List GPFifo.MethodWrite :=
  ⟨0, 0x674, 1⟩ :: ⟨0, 0x35E, 3⟩ :: between ++
    [⟨0, 0x35E, 3⟩]

def clearedFrame (between : List GPFifo.MethodWrite) : Gpu :=
  { tracker :=
      StateTracker.onMethods
        { StateTracker.new StateTracker.defaultEngines with
          state := targetRegisters }
        (clearAndDraw between)
    memory := ⟨fun _ => 0⟩
    shaderMgr := {}
    renderer := { fallbackPipeline := startPipeline } }

/- Nothing between the draws: one pass, which clears. -/
theorem clearsOnce_sameKey :
    (prepareFrame plainHost
        (clearedFrame [])).renderer.isRtPath = true ∧
      (clearedFrame []).tracker.drawQueue.length = 2 ∧
      ClearsOnce
        (renderFrame plainHost plainHost.freshPass
          (clearedFrame [])).2 := by
  have hPath :
      (prepareFrame plainHost
        (clearedFrame [])).renderer.isRtPath = true := by
    decide
  refine ⟨hPath, by decide, ?_⟩
  rw [clearsOnce_iff plainHost plainHost.freshPass
    (clearedFrame []) (fun _ => rfl) hPath]
  decide

/-
  A color mask written between the draws: the second pass
  clears the target again, under the first draw.
-/
theorem not_clearsOnce_maskChanged :
    (prepareFrame plainHost
        (clearedFrame [⟨0, 0x680, 1⟩])).renderer.isRtPath =
          true ∧
      ¬ ClearsOnce
        (renderFrame plainHost plainHost.freshPass
          (clearedFrame [⟨0, 0x680, 1⟩])).2 := by
  have hPath :
      (prepareFrame plainHost
        (clearedFrame [⟨0, 0x680, 1⟩])).renderer.isRtPath =
          true := by
    decide
  have hBatches :=
    renderFrame_batches plainHost plainHost.freshPass
      (clearedFrame [⟨0, 0x680, 1⟩])
  refine ⟨hPath, not_clearsOnce rfl hPath ?_⟩
  intro hTail
  have hMap := congrArg (List.map drawsOf) hTail
  rw [List.map_tail, hBatches, hPath] at hMap
  revert hMap
  decide

end Gpu

end M1Switch
