import M1Switch.Gpu.Backend.MetalRenderer.History

/-
  The pipeline cache along a run.

  A frame looks its batches up under the keys their draws were
  queued with, and builds what is missing from the live
  registers.  The cache stays sound in runs where a pipeline
  is only built under the key of the registers it is built
  from.

  Key definitions include:
    * `Gpu.BuiltFrom`
    * `Gpu.CacheSound`

  Main results:
    * `pipelineCache_renderFrame`
    * `cacheSound_of_keyed`
-/

------
-- The Cache Behind A Frame
------

namespace M1Switch

namespace MetalRenderer

variable {host : MetalHost} {r r' : MetalRenderer}
variable {s : GpuState3D}

/- Results and targets decide what is built. -/
theorem buildPipeline_congr
    (hResults : SameResults r r')
    (hTargets : SameTargets r r') :
    r'.buildPipeline host s = r.buildPipeline host s := by
  unfold buildPipeline colorFormat depthFormat
  rw [hResults.vertResult, hResults.fragResult,
    hTargets.isRtPath, hTargets.depthTexture]

end MetalRenderer

namespace Gpu

open MetalRenderer ShaderManager

variable {host : MetalHost}
variable {passDesc : MTLRenderPassDescriptor}
variable {first gpu : Gpu}

/- What a frame that starts here can build. -/
def frameBuilds
    (host : MetalHost)
    (first : Gpu) : Option MTLRenderPipelineState :=
  (compilePipeline host first).2.renderer.buildPipeline host
    first.tracker.state

/- A batch looks up its key and keeps what is built. -/
theorem pipelineCache_beginBatch
    (hSep : KeysSeparate (stages first.tracker.state))
    (hCall : gpu = first ∨ AfterCompile host first gpu)
    (key : U64) :
    (beginBatch host passDesc gpu
        key).2.renderer.pipelineCache =
      Function.update gpu.renderer.pipelineCache key
        ((gpu.renderer.pipelineCache key).or
          (frameBuilds host first)) := by
  have hBuild :
      (compilePipeline host gpu).2.renderer.buildPipeline host
          gpu.tracker.state =
        frameBuilds host first := by
    rcases hCall with rfl | hAfter
    · rfl
    · rw [hAfter.renderer hSep, hAfter.frame.tracker]
      have hTargets :=
        (sameFrame_compilePipeline host first).targets
      exact buildPipeline_congr hAfter.results
        (hTargets.symm.trans hAfter.frame.targets)
  dsimp only [beginBatch]
  rw [batchPipeline_snd, hBuild, pipelineCache_compilePipeline]

/- The entries of keys that are looked up. -/
def lookedUp
    (cache : U64 → Option MTLRenderPipelineState)
    (built : Option MTLRenderPipelineState)
    (keys : List U64)
    (key : U64) : Option MTLRenderPipelineState :=
  if key ∈ keys then (cache key).or built else cache key

/- Looking up one key and then others. -/
theorem lookedUp_cons
    (cache : U64 → Option MTLRenderPipelineState)
    (built : Option MTLRenderPipelineState)
    (k : U64)
    (keys : List U64) :
    lookedUp
        (Function.update cache k ((cache k).or built)) built
        keys =
      lookedUp cache built (k :: keys) := by
  funext key
  unfold lookedUp
  by_cases hKey : key = k
  · subst hKey
    rw [Function.update_self, if_pos List.mem_cons_self,
      Option.or_assoc, Option.or_self, ite_self]
  · simp only [Function.update_of_ne hKey, List.mem_cons,
      hKey, false_or]

/- A key that was looked up already. -/
theorem lookedUp_again
    {cache : U64 → Option MTLRenderPipelineState}
    {built : Option MTLRenderPipelineState}
    {k : U64}
    (hLooked : cache k = (cache k).or built)
    (keys : List U64) :
    lookedUp cache built (k :: keys) =
      lookedUp cache built keys := by
  rw [← lookedUp_cons, ← hLooked, Function.update_eq_self]

/- On the path to render targets every key is looked up. -/
theorem pipelineCache_encodeDraws_rt
    (hSep : KeysSeparate (stages first.tracker.state))
    (hPath : first.renderer.isRtPath = true) :
    ∀ (rest : List PendingDraw) (gpu : Gpu) (b : OpenBatch),
      AfterCompile host first gpu →
        gpu.renderer.pipelineCache b.lastPipelineKey =
            (gpu.renderer.pipelineCache
              b.lastPipelineKey).or (frameBuilds host first) →
          (encodeDraws host passDesc rest gpu
              (some b)).1.renderer.pipelineCache =
            lookedUp gpu.renderer.pipelineCache
              (frameBuilds host first)
              (rest.map (·.pipelineKey)) := by
  intro rest
  induction rest with
  | nil =>
      intro gpu b _ _
      rfl
  | cons draw rest ih =>
      intro gpu b hAfter hLooked
      have hStored :
          (beginBatch host passDesc gpu
              draw.pipelineKey).2.renderer.pipelineCache =
            Function.update gpu.renderer.pipelineCache
              draw.pipelineKey
              ((gpu.renderer.pipelineCache
                draw.pipelineKey).or
                  (frameBuilds host first)) :=
        pipelineCache_beginBatch hSep (Or.inr hAfter) _
      unfold encodeDraws
      rw [hAfter.frame.targets.isRtPath, hPath, List.map_cons]
      split_ifs with hStarts
      · dsimp only
        rw [ih _ _ (hAfter.beginBatch hSep passDesc _),
          hStored, lookedUp_cons]
        rw [hStored]
        simp only [encodeDraw, Function.update_self,
          Option.or_assoc, Option.or_self]
      · have hKey : draw.pipelineKey = b.lastPipelineKey := by
          simpa [startsBatch] using hStarts
        rw [Option.map_some, hKey, lookedUp_again hLooked]
        apply ih gpu _ hAfter
        simp only [encodeDraw, hKey]
        exact hLooked

/- On the path to the screen a batch never ends. -/
theorem encodeDraws_direct :
    ∀ (rest : List PendingDraw) (gpu : Gpu) (b : OpenBatch),
      gpu.renderer.isRtPath = false →
        (encodeDraws host passDesc rest gpu (some b)).1 =
          gpu := by
  intro rest
  induction rest with
  | nil => exact fun _ _ _ => rfl
  | cons draw rest ih =>
      intro gpu b hPath
      unfold encodeDraws
      rw [if_neg (by simp [startsBatch, hPath])]
      exact ih gpu _ hPath

/- A frame looks up the keys of its batches. -/
theorem pipelineCache_encodeDraws
    (hSep : KeysSeparate (stages first.tracker.state))
    (queue : List PendingDraw) :
    (encodeDraws host passDesc queue first
        none).1.renderer.pipelineCache =
      lookedUp first.renderer.pipelineCache
        (frameBuilds host first)
        (queue.map
          (leaderKey first.renderer.isRtPath
            (firstKey queue))) := by
  cases queue with
  | nil => rfl
  | cons draw rest =>
      have hFirst : firstKey (draw :: rest) =
          draw.pipelineKey := rfl
      have hStored :
          (beginBatch host passDesc first
              draw.pipelineKey).2.renderer.pipelineCache =
            Function.update first.renderer.pipelineCache
              draw.pipelineKey
              ((first.renderer.pipelineCache
                draw.pipelineKey).or
                  (frameBuilds host first)) :=
        pipelineCache_beginBatch hSep (Or.inl rfl) _
      have hAfter : AfterCompile host first
          (beginBatch host passDesc first
            draw.pipelineKey).2 :=
        afterCompile_beginBatch passDesc hSep draw.pipelineKey
      unfold encodeDraws
      rw [if_pos (startsBatch_none _ draw), hFirst]
      dsimp only
      cases hPath : first.renderer.isRtPath with
      | true =>
          have hKeys :
              (draw :: rest).map
                  (leaderKey true draw.pipelineKey) =
                draw.pipelineKey ::
                  rest.map (·.pipelineKey) := rfl
          rw [hKeys, pipelineCache_encodeDraws_rt hSep hPath
            rest _ _ hAfter, hStored, lookedUp_cons]
          rw [hStored]
          simp only [encodeDraw, Function.update_self,
            Option.or_assoc, Option.or_self]
      | false =>
          rw [encodeDraws_direct rest _ _
            (hAfter.frame.targets.isRtPath.trans hPath),
            hStored]
          funext key
          by_cases hKey : key = draw.pipelineKey
          · subst hKey
            simp [lookedUp, leaderKey]
          · have hNot : key ∉ (draw :: rest).map
                (leaderKey false draw.pipelineKey) := by
              simp [leaderKey, hKey, Ne.symm hKey]
            rw [Function.update_of_ne hKey, lookedUp,
              if_neg hNot]

------
-- Pipelines And Their Keys
------

open MetalRenderer ShaderManager StateTracker

variable {h : History}

/-
  The pipeline asks for the formats, blending and vertices of
  the registers and has the functions their stages compile to.
-/
structure BuiltFrom
    (host : MetalHost)
    (gpu : Gpu)
    (p : MTLRenderPipelineState) : Prop where
  fixed :
    fixedOf p =
      askedPipeline host gpu.renderer gpu.tracker.state
  functions :
    ∃ region vert frag,
      programPointer gpu = some region ∧
        Compiled host {} region gpu.tracker.state vert frag ∧
          vert.vertexFunction = some p.vertexFunction ∧
            frag.fragmentFunction = some p.fragmentFunction

/- A frame of the run was rendered from registers of the key. -/
def BuiltInRun
    (host : MetalHost)
    (gpu : Gpu)
    (events : List Event)
    (key : U64)
    (p : MTLRenderPipelineState) : Prop :=
  ∃ before passDesc,
    before ++ [.renderFrame passDesc] <+: events ∧
      computePipelineKey
          (runFrom host gpu before).tracker.state = key ∧
        BuiltFrom host (runFrom host gpu before) p

/-
  Every cached pipeline was built from registers of its key,
  and every draw has one that was built from registers of its
  own key, unless it has the spare one.
-/
structure CacheSound
    (host : MetalHost)
    (gpu : Gpu)
    (events : List Event) : Prop where
  entries :
    ∀ key p,
      (runFrom host gpu events).renderer.pipelineCache key =
          some p →
        BuiltInRun host gpu events key p
  draws :
    ∀ before passDesc,
      before ++ [.renderFrame passDesc] <+: events →
        ∀ e ∈ (Gpu.renderFrame host passDesc
            (runFrom host gpu before)).2.flatMap (·.draws),
          ∃ p, e.encoder.pipeline = some p ∧
            (BuiltInRun host gpu events e.draw.pipelineKey p ∨
              p = (Gpu.renderFrame host passDesc
                (runFrom host gpu before)).1.renderer.spare)

/- The key under which a frame looks up a draw. -/
def frameKey
    (host : MetalHost)
    (gpu : Gpu)
    (d : PendingDraw) : U64 :=
  leaderKey (prepareFrame host gpu).renderer.isRtPath
    (firstKey gpu.tracker.drawQueue) d

/- The frame makes a pipeline for the key. -/
def makesPipeline
    (host : MetalHost)
    (gpu : Gpu)
    (key : U64) : Bool :=
  (gpu.renderer.pipelineCache key).isNone &&
    (frameBuilds host (prepareFrame host gpu)).isSome

/- The frame finds or makes a pipeline for the key. -/
def hasPipeline
    (host : MetalHost)
    (gpu : Gpu)
    (key : U64) : Bool :=
  (gpu.renderer.pipelineCache key).isSome ||
    (frameBuilds host (prepareFrame host gpu)).isSome

/-
  A pipeline that is made is made from registers of its key
  and of shaders compiled for them, and no draw shares one
  that is kept under another key.
-/
structure PipelinesKeyed (host : MetalHost) (h : History) :
    Prop where
  live :
    ∀ d ∈ h.gpu.tracker.drawQueue,
      makesPipeline host h.gpu (frameKey host h.gpu d) = true →
        frameKey host h.gpu d =
          computePipelineKey h.gpu.tracker.state
  fresh :
    ∀ d ∈ h.gpu.tracker.drawQueue,
      makesPipeline host h.gpu (frameKey host h.gpu d) = true →
        StagesFresh host h ∧
          (compilePipeline host
            (prepareFrame host h.gpu)).1 = true
  own :
    ∀ d ∈ h.gpu.tracker.drawQueue,
      hasPipeline host h.gpu (frameKey host h.gpu d) = true →
        frameKey host h.gpu d = d.pipelineKey

def KeyedAtFrames
    (host : MetalHost)
    (h : History) : Event → Prop
| .renderFrame _ => PipelinesKeyed host h
| _ => True

/- What a frame with fresh stages builds. -/
theorem builtFrom_frameBuilds
    {p : MTLRenderPipelineState}
    (hCons : Consistent host h)
    (hFresh : StagesFresh host h)
    (hReturn :
      (compilePipeline host
        (prepareFrame host h.gpu)).1 = true)
    (hBuilt :
      frameBuilds host (prepareFrame host h.gpu) = some p) :
    BuiltFrom host h.gpu p := by
  have hCurrent :
      ResultsCurrent host
        (compilePipeline host (prepareFrame host h.gpu)).2 :=
    hFresh.resultsCurrent hCons (Or.inl rfl) hReturn
  have hFrame :=
    sameFrame_compilePipeline host (prepareFrame host h.gpu)
  unfold ResultsCurrent at hCurrent
  rw [hFrame.tracker, hFrame.memory] at hCurrent
  rcases hCurrent with ⟨region, hRegion, hCompiled⟩
  refine ⟨fixedOf_compiled hBuilt, region, _, _, hRegion,
    hCompiled, ?_⟩
  rcases eq_of_buildPipeline hBuilt with
    ⟨v, f, hVert, hFrag, rfl⟩
  exact ⟨hVert, hFrag⟩

/- The cache a frame leaves. -/
theorem pipelineCache_renderFrame
    (host : MetalHost)
    (passDesc : MTLRenderPassDescriptor)
    (hBound : Engine3D.OffsetsBounded gpu.tracker.state) :
    (Gpu.renderFrame host passDesc
        gpu).1.renderer.pipelineCache =
      lookedUp gpu.renderer.pipelineCache
        (frameBuilds host (prepareFrame host gpu))
        (gpu.tracker.drawQueue.map (frameKey host gpu)) := by
  have hSep :=
    keysSeparate_prepareFrame host hBound
  unfold Gpu.renderFrame
  split_ifs with hPending
  · exact pipelineCache_encodeDraws hSep gpu.tracker.drawQueue
  · have hEmpty : gpu.tracker.drawQueue = [] := by
      simpa [hasPendingDraws] using hPending
    rw [hEmpty]
    rfl

/- An entry behind a frame was there or is built by it. -/
theorem entry_of_renderFrame
    {key : U64}
    {p : MTLRenderPipelineState}
    (passDesc : MTLRenderPassDescriptor)
    (hBound : Engine3D.OffsetsBounded gpu.tracker.state)
    (hEntry :
      (Gpu.renderFrame host passDesc
        gpu).1.renderer.pipelineCache key = some p) :
    gpu.renderer.pipelineCache key = some p ∨
      frameBuilds host (prepareFrame host gpu) = some p ∧
        ∃ d ∈ gpu.tracker.drawQueue,
          frameKey host gpu d = key ∧
            makesPipeline host gpu key = true := by
  rw [pipelineCache_renderFrame host passDesc hBound,
    lookedUp] at hEntry
  split_ifs at hEntry with hLooked
  · cases hFound : gpu.renderer.pipelineCache key with
    | some q =>
        rw [hFound, Option.some_or] at hEntry
        exact Or.inl hEntry
    | none =>
        rw [hFound, Option.none_or] at hEntry
        rcases List.mem_map.mp hLooked with ⟨d, hD, hKey⟩
        refine Or.inr ⟨hEntry, d, hD, hKey, ?_⟩
        simp [makesPipeline, hFound, hEntry]
  · exact Or.inl hEntry

/- The pipeline of a draw is cached, or it is the spare. -/
theorem pipelineFor_cases
    {d : PendingDraw}
    (passDesc : MTLRenderPassDescriptor)
    (hBound : Engine3D.OffsetsBounded gpu.tracker.state)
    (hD : d ∈ gpu.tracker.drawQueue) :
    (hasPipeline host gpu (frameKey host gpu d) = true ∧
      (Gpu.renderFrame host passDesc
          gpu).1.renderer.pipelineCache
            (frameKey host gpu d) =
        some (pipelineFor host (prepareFrame host gpu)
          (frameKey host gpu d))) ∨
    pipelineFor host (prepareFrame host gpu)
        (frameKey host gpu d) =
      (Gpu.renderFrame host passDesc gpu).1.renderer.spare := by
  have hPending : gpu.tracker.hasPendingDraws = true := by
    have hNe := List.ne_nil_of_mem hD
    simpa [hasPendingDraws] using hNe
  have hEnd : FrameEnd host gpu
      (Gpu.renderFrame host passDesc gpu).1 :=
    frameEnd_renderFrame passDesc hBound hPending
  have hFor :
      pipelineFor host (prepareFrame host gpu)
          (frameKey host gpu d) =
        ((gpu.renderer.pipelineCache
            (frameKey host gpu d)).or
          (frameBuilds host (prepareFrame host gpu))).getD
            (compilePipeline host
              (prepareFrame host gpu)).2.renderer.spare := by
    unfold pipelineFor
    rw [batchPipeline_fst, pipelineCache_compilePipeline]
    rfl
  rw [hFor, pipelineCache_renderFrame host passDesc hBound,
    lookedUp, if_pos (List.mem_map_of_mem hD), hasPipeline,
    ← Option.isSome_or]
  cases (gpu.renderer.pipelineCache (frameKey host gpu d)).or
      (frameBuilds host (prepareFrame host gpu)) with
  | some p => exact Or.inl ⟨rfl, rfl⟩
  | none =>
      refine Or.inr ?_
      unfold spare
      rw [hEnd.results.gamePipeline,
        hEnd.results.fallbackPipeline]
      rfl

------
-- Sound Runs
------

variable {events events' : List Event} {key : U64}
variable {p : MTLRenderPipelineState}

theorem BuiltInRun.mono
    (hLonger : events <+: events')
    (hBuilt : BuiltInRun host gpu events key p) :
    BuiltInRun host gpu events' key p := by
  rcases hBuilt with ⟨before, passDesc, hBefore, hFrom⟩
  exact ⟨before, passDesc, hBefore.trans hLonger, hFrom⟩

/- Behind a keyed run every entry has a frame it came from. -/
theorem builtInRun_of_keyed
    {engines : Fin 8 → EngineType}
    {memory : Memory}
    {fallback : MTLRenderPipelineState}
    (hKeyed :
      EventRun.Guarded (History.step host)
        (KeyedAtFrames host)
        (History.start (start engines memory fallback))
        events) :
    ∀ key p,
      (historyFrom host (start engines memory fallback)
          events).gpu.renderer.pipelineCache key = some p →
        BuiltInRun host (start engines memory fallback) events
          key p := by
  refine EventRun.Guarded.invariant
    (I := fun before h =>
      ∀ key p, h.gpu.renderer.pipelineCache key = some p →
        BuiltInRun host (start engines memory fallback) before
          key p) ?_ ?_ hKeyed
  · intro key p hNone
    cases hNone
  · intro before e hBefore hGuard key p hEntry
    have hLonger : before <+: before ++ [e] :=
      List.prefix_append before [e]
    cases e with
    | pushBuffer words =>
        exact (hBefore key p hEntry).mono hLonger
    | writeMemory memory =>
        exact (hBefore key p hEntry).mono hLonger
    | invalidateCache =>
        exact (hBefore key p hEntry).mono hLonger
    | renderFrame passDesc =>
        have hCons : Consistent host
            (historyFrom host (start engines memory fallback)
              before) :=
          history_consistent host engines memory fallback before
        have hFrame : PipelinesKeyed host
            (historyFrom host (start engines memory fallback)
              before) := hGuard
        rcases entry_of_renderFrame passDesc hCons.bounded
            hEntry with hOld | ⟨hBuilt, d, hD, rfl, hMakes⟩
        · exact (hBefore key p hOld).mono hLonger
        · rcases hFrame.fresh d hD hMakes with
            ⟨hFresh, hReturn⟩
          have hKey := hFrame.live d hD hMakes
          have hFrom :=
            builtFrom_frameBuilds hCons hFresh hReturn hBuilt
          rw [gpu_historyFrom] at hKey hFrom
          refine ⟨before, passDesc, List.prefix_refl _, ?_,
            hFrom⟩
          rw [← hKey, gpu_historyFrom]

/-
  In a run whose frames make pipelines only under the key of
  the registers they are made from, every cached pipeline was
  built from registers of its key, and no draw has one built
  for another key.
-/
theorem cacheSound_of_keyed
    (host : MetalHost)
    (engines : Fin 8 → EngineType)
    (memory : Memory)
    (fallback : MTLRenderPipelineState)
    (events : List Event)
    (hKeyed :
      EventRun.Guarded (History.step host)
        (KeyedAtFrames host)
        (History.start (start engines memory fallback))
        events) :
    CacheSound host (start engines memory fallback)
      events := by
  refine ⟨?_, ?_⟩
  · rw [← gpu_historyFrom]
    exact builtInRun_of_keyed hKeyed
  · intro before passDesc hBefore e hE
    have hCons := history_consistent host engines memory
      fallback before
    have hFrame : PipelinesKeyed host
        (historyFrom host (start engines memory fallback)
          before) :=
      hKeyed before (.renderFrame passDesc) hBefore
    have hEntries :=
      builtInRun_of_keyed (hKeyed.of_isPrefix hBefore)
    rw [historyFrom, EventRun.stateAfter_concat] at hEntries
    change ∀ key p,
      (Gpu.renderFrame host passDesc
        (historyFrom host (start engines memory fallback)
          before).gpu).1.renderer.pipelineCache key =
            some p → _ at hEntries
    rw [← gpu_historyFrom] at hE ⊢
    generalize historyFrom host (start engines memory fallback)
      before = h at hCons hFrame hEntries hE
    rw [renderFrame_draws host passDesc h.gpu
      (keysSeparate_stages hCons.bounded)] at hE
    rcases List.mem_map.mp hE with ⟨d, hD, rfl⟩
    refine ⟨_, rfl, ?_⟩
    rcases pipelineFor_cases passDesc hCons.bounded hD with
      ⟨hHas, hEntry⟩ | hSpare
    · have hBuilt := (hEntries _ _ hEntry).mono hBefore
      nth_rewrite 1 [hFrame.own d hD hHas] at hBuilt
      exact Or.inl hBuilt
    · exact Or.inr hSpare

/- A draw with shaders set, some words, and a frame. -/
def drawFrame (words : List U32) : List Event :=
  [.pushBuffer (setShaders ++ words),
    .renderFrame plainHost.freshPass]

/- No words behind the draw: its pipeline is cached. -/
theorem cacheSound_drawFrame :
    ((runFrom plainHost exitStart
        (drawFrame [])).tracker.state.programRegion = 0x1000 ∧
      ((runFrom plainHost exitStart
        (drawFrame [])).renderer.pipelineCache
          (computePipelineKey
            (runFrom plainHost exitStart
              (drawFrame [])).tracker.state)).isSome) ∧
      CacheSound plainHost exitStart (drawFrame []) := by
  refine ⟨by decide +kernel, ?_⟩
  apply cacheSound_of_keyed
  unfold drawFrame
  simp only [EventRun.guarded_cons, EventRun.guarded_nil,
    KeyedAtFrames, true_and, and_true]
  refine ⟨by decide, fun _ _ _ => ⟨⟨?_, ?_⟩, ?_⟩,
    by decide⟩
  · decide
  · decide
  · decide

/- The only frame of the run comes behind the words. -/
theorem eq_of_drawFrame
    {words : List U32}
    {before : List Event}
    (hBefore :
      before ++ [.renderFrame passDesc] <+: drawFrame words) :
    before = [.pushBuffer (setShaders ++ words)] := by
  cases before with
  | nil =>
      have hEq := (List.cons_prefix_cons.mp hBefore).1
      cases hEq
  | cons e rest =>
      rcases List.cons_prefix_cons.mp hBefore with
        ⟨hEq, hRest⟩
      cases rest with
      | nil => rw [hEq]
      | cons e' rest =>
          have hNil := (List.cons_prefix_cons.mp hRest).2
          simp at hNil

/-
  A color mask written behind the draw: the pipeline cached
  under the key of the draw is built with the new mask.
-/
theorem not_cacheSound_maskChanged :
    ¬ CacheSound plainHost exitStart
      (drawFrame [inlineWrite 0x680 1]) := by
  intro hSound
  have hCached :
      ((runFrom plainHost exitStart
          (drawFrame
            [inlineWrite 0x680 1])).renderer.pipelineCache
        (firstKey
          (runFrom plainHost exitStart
            [.pushBuffer (setShaders ++
              [inlineWrite 0x680 1])]).tracker.drawQueue)
        ).isSome = true := by
    decide
  rcases Option.isSome_iff_exists.mp hCached with ⟨p, hP⟩
  rcases hSound.entries _ p hP with
    ⟨before, passDesc, hBefore, hKey, _⟩
  rw [eq_of_drawFrame hBefore] at hKey
  revert hKey
  decide

end Gpu

end M1Switch
