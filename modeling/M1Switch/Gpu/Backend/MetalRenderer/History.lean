import M1Switch.Gpu.Backend.MetalRenderer.Frame
import M1Switch.Gpu.StateTracker.DrawTrace
import M1Switch.Library.EventRun

/-
  The shaders in use along a run.

  A run mixes pushbuffers, writes to guest memory and cache
  invalidations with frames.  Beside the machine a history
  keeps what the last successful compile read.  A frame whose
  stages are still those, or which compiles its stages past no
  foreign cache entry, uses the shaders of its registers.

  Key definitions include:
    * `Gpu.Event`
    * `compileCalls`

  Main results:
    * `history_consistent`
    * `compilesCurrent_of_fresh`
-/

------
-- Runs Of The Machine
------

namespace M1Switch

namespace Gpu

/- What happens to the machine. -/
inductive Event where
  | pushBuffer (words : List U32)
  | writeMemory (memory : Memory)
  | invalidateCache
  | renderFrame (passDesc : MTLRenderPassDescriptor)

def step
    (host : MetalHost)
    (gpu : Gpu) : Event → Gpu
| .pushBuffer words =>
    { gpu with tracker := (gpu.tracker.pushBuffer words).1 }
| .writeMemory memory => { gpu with memory := memory }
| .invalidateCache =>
    { gpu with shaderMgr := ShaderManager.invalidateCache }
| .renderFrame passDesc => (renderFrame host passDesc gpu).1

/- The machine when nothing has happened. -/
def start
    (engines : Fin 8 → EngineType)
    (memory : Memory)
    (fallback : MTLRenderPipelineState) : Gpu :=
  { tracker := StateTracker.new engines
    memory := memory
    shaderMgr := {}
    renderer := { fallbackPipeline := fallback } }

/- The machine behind a list of events. -/
def runFrom
    (host : MetalHost)
    (gpu : Gpu)
    (events : List Event) : Gpu :=
  EventRun.stateAfter (step host) gpu events

/- The machines on which a frame compiles its pipeline. -/
def compileCalls
    (host : MetalHost)
    (passDesc : MTLRenderPassDescriptor) :
    List PendingDraw → Gpu → Option OpenBatch → List Gpu
| [], _, _ => []
| draw :: rest, gpu, batch =>
    if MetalRenderer.startsBatch gpu.renderer.isRtPath batch
        draw then
      let started := beginBatch host passDesc gpu
        draw.pipelineKey
      gpu :: compileCalls host passDesc rest started.2
        (some (MetalRenderer.encodeDraw host gpu.tracker.state
          draw started.1))
    else
      compileCalls host passDesc rest gpu
        (batch.map (MetalRenderer.encodeDraw host
          gpu.tracker.state draw))

def frameCalls
    (host : MetalHost)
    (passDesc : MTLRenderPassDescriptor)
    (gpu : Gpu) : List Gpu :=
  compileCalls host passDesc gpu.tracker.drawQueue
    (prepareFrame host gpu) none

/-
  The results are compilations of the stages enabled in the
  registers, from the bytes in guest memory and no cache: of
  the first vertex stage that compiles, and of the fragment
  stage.
-/
def ResultsCurrent (host : MetalHost) (gpu : Gpu) : Prop :=
  ∃ region,
    gpu.memory.pointer gpu.tracker.state.programRegion =
        some region ∧
      Compiled host {} region gpu.tracker.state
        gpu.renderer.vertResult gpu.renderer.fragResult

/- Compiles that return true leave current results. -/
def CompilesCurrent
    (host : MetalHost)
    (gpu : Gpu)
    (events : List Event) : Prop :=
  ∀ before passDesc,
    before ++ [.renderFrame passDesc] <+: events →
      ∀ g ∈ frameCalls host passDesc (runFrom host gpu before),
        (compilePipeline host g).1 = true →
          ResultsCurrent host (compilePipeline host g).2

end Gpu

------
-- The Compiles Of A Frame
------

/- The renderers hold the same compiled shaders. -/
structure SameResults (r r' : MetalRenderer) : Prop where
  fallbackPipeline : r'.fallbackPipeline = r.fallbackPipeline
  gamePipeline : r'.gamePipeline = r.gamePipeline
  shadersCompiled : r'.shadersCompiled = r.shadersCompiled
  lastProgramRegion :
    r'.lastProgramRegion = r.lastProgramRegion
  lastShaderOffsets :
    r'.lastShaderOffsets = r.lastShaderOffsets
  vertResult : r'.vertResult = r.vertResult
  fragResult : r'.fragResult = r.fragResult

namespace SameResults

variable {r r' r'' : MetalRenderer}

theorem trans
    (h : SameResults r r')
    (h' : SameResults r' r'') :
    SameResults r r'' :=
  ⟨h'.fallbackPipeline.trans h.fallbackPipeline,
    h'.gamePipeline.trans h.gamePipeline,
    h'.shadersCompiled.trans h.shadersCompiled,
    h'.lastProgramRegion.trans h.lastProgramRegion,
    h'.lastShaderOffsets.trans h.lastShaderOffsets,
    h'.vertResult.trans h.vertResult,
    h'.fragResult.trans h.fragResult⟩

theorem shadersUnchanged
    (h : SameResults r r')
    (s : GpuState3D) :
    r'.shadersUnchanged s = r.shadersUnchanged s := by
  unfold MetalRenderer.shadersUnchanged
  rw [h.shadersCompiled, h.lastProgramRegion,
    h.lastShaderOffsets]

/- Looking up a pipeline compiles nothing. -/
theorem batchPipeline
    (host : MetalHost)
    (r : MetalRenderer)
    (s : GpuState3D)
    (key : U64) :
    SameResults r (r.batchPipeline host s key).2 := by
  rw [MetalRenderer.batchPipeline_snd]
  exact ⟨rfl, rfl, rfl, rfl, rfl, rfl, rfl⟩

end SameResults

namespace Gpu

open ShaderManager

variable {host : MetalHost}
variable {passDesc : MTLRenderPassDescriptor}
variable {first gpu : Gpu}

/- The stages of a frame have keys of their own. -/
theorem keysSeparate_prepareFrame
    (host : MetalHost)
    (hBound : Engine3D.OffsetsBounded gpu.tracker.state) :
    KeysSeparate
      (stages (prepareFrame host gpu).tracker.state) :=
  keysSeparate_stages hBound

/- The machine behind the first compile of a frame. -/
structure AfterCompile
    (host : MetalHost)
    (first gpu : Gpu) : Prop where
  frame : SameFrame first gpu
  settled : Settled host gpu
  results :
    SameResults (compilePipeline host first).2.renderer
      gpu.renderer

theorem afterCompile_beginBatch
    (passDesc : MTLRenderPassDescriptor)
    (hSep : KeysSeparate (stages first.tracker.state))
    (key : U64) :
    AfterCompile host first
      (beginBatch host passDesc first key).2 :=
  { frame := sameFrame_beginBatch host passDesc first key
    settled :=
      (settled_compilePipeline hSep).batchPipeline
        first.tracker.state key
    results := SameResults.batchPipeline host _ _ key }

/- A later compile of the frame changes nothing. -/
theorem AfterCompile.renderer
    (hSep : KeysSeparate (stages first.tracker.state))
    (hAfter : AfterCompile host first gpu) :
    (compilePipeline host gpu).2.renderer = gpu.renderer := by
  apply hAfter.settled.again
  rw [hAfter.frame.tracker]
  exact hSep

theorem AfterCompile.beginBatch
    (hSep : KeysSeparate (stages first.tracker.state))
    (passDesc : MTLRenderPassDescriptor)
    (hAfter : AfterCompile host first gpu)
    (key : U64) :
    AfterCompile host first
      (Gpu.beginBatch host passDesc gpu key).2 := by
  have hOwn : AfterCompile host gpu
      (Gpu.beginBatch host passDesc gpu key).2 := by
    apply afterCompile_beginBatch
    rw [hAfter.frame.tracker]
    exact hSep
  refine ⟨hAfter.frame.trans hOwn.frame, hOwn.settled, ?_⟩
  refine hAfter.results.trans ?_
  rw [← hAfter.renderer hSep]
  exact hOwn.results

/- A later compile returns what the first one returned. -/
theorem AfterCompile.returns
    (hSep : KeysSeparate (stages first.tracker.state))
    (hAfter : AfterCompile host first gpu) :
    (compilePipeline host gpu).1 =
      (compilePipeline host first).1 := by
  have hOwn : KeysSeparate (stages gpu.tracker.state) := by
    rw [hAfter.frame.tracker]
    exact hSep
  rw [Bool.eq_iff_iff, compilePipeline_returns hOwn,
    compilePipeline_returns hSep, hAfter.renderer hSep,
    hAfter.frame.tracker, hAfter.results.shadersUnchanged]

/- What each batch keeps holds at the later compiles. -/
theorem encodeDraws_keeps
    {P : Gpu → Prop}
    (hBegin :
      ∀ gpu key, P gpu →
        P (Gpu.beginBatch host passDesc gpu key).2) :
    ∀ (rest : List PendingDraw) (gpu : Gpu)
      (batch : Option OpenBatch),
      P gpu →
        P (encodeDraws host passDesc rest gpu batch).1 ∧
          ∀ g ∈ compileCalls host passDesc rest gpu batch,
            P g := by
  intro rest
  induction rest with
  | nil =>
      intro gpu batch hP
      refine ⟨hP, ?_⟩
      intro g hG
      cases hG
  | cons draw rest ih =>
      intro gpu batch hP
      unfold encodeDraws compileCalls
      split_ifs
      · rcases ih _ (some (MetalRenderer.encodeDraw host
            gpu.tracker.state draw
            (Gpu.beginBatch host passDesc gpu
              draw.pipelineKey).1))
            (hBegin gpu draw.pipelineKey hP) with
          ⟨hEnd, hCalls⟩
        refine ⟨hEnd, ?_⟩
        intro g hG
        rcases List.mem_cons.mp hG with rfl | hG
        · exact hP
        · exact hCalls g hG
      · exact ih gpu _ hP

/- The first compile of a frame, the later ones, its end. -/
theorem frame_compiles
    (passDesc : MTLRenderPassDescriptor)
    (hSep : KeysSeparate (stages first.tracker.state))
    {queue : List PendingDraw}
    (hQueue : queue ≠ []) :
    AfterCompile host first
        (encodeDraws host passDesc queue first none).1 ∧
      ∀ g ∈ compileCalls host passDesc queue first none,
        g = first ∨ AfterCompile host first g := by
  cases queue with
  | nil => exact absurd rfl hQueue
  | cons draw rest =>
      unfold encodeDraws compileCalls
      rw [if_pos (MetalRenderer.startsBatch_none _ draw),
        if_pos (MetalRenderer.startsBatch_none _ draw)]
      dsimp only
      have hBegin :
          ∀ gpu key, AfterCompile host first gpu →
            AfterCompile host first
              (Gpu.beginBatch host passDesc gpu key).2 :=
        fun gpu key hAfter =>
          hAfter.beginBatch hSep passDesc key
      rcases encodeDraws_keeps hBegin rest _
          (some (MetalRenderer.encodeDraw host
            first.tracker.state draw
            (Gpu.beginBatch host passDesc first
              draw.pipelineKey).1))
          (afterCompile_beginBatch passDesc hSep
            draw.pipelineKey) with
        ⟨hEnd, hCalls⟩
      refine ⟨hEnd, ?_⟩
      intro g hG
      rcases List.mem_cons.mp hG with rfl | hG
      · exact Or.inl rfl
      · exact Or.inr (hCalls g hG)

end Gpu

------
-- What A Compile Reads
------

namespace ShaderManager

variable {host : MetalHost} {mgr : ShaderManager}
variable {region : Option (Nat → U8)}

/-
  The shaders the compile loop tries, with their bytes: those
  asked for, up to the first that compiles.
-/
def tried
    (host : MetalHost)
    (region : Option (Nat → U8)) :
    List ShaderState → List (ShaderState × List U8)
| [] => []
| sh :: rest =>
    if Requested sh then
      (sh, rawShader region sh) ::
        (if (compiledText host (rawShader region sh)
            sh).isSome then []
        else tried host region rest)
    else tried host region rest

/- The text of a shader that was tried. -/
def textOf
    (host : MetalHost)
    (attempt : ShaderState × List U8) :
    Option (ShaderState × String) :=
  (compiledText host attempt.2 attempt.1).map (attempt.1, ·)

/- Coherent caches give the texts the tried bytes compile to. -/
theorem firstText_of_coherent
    (hDerived : Derived host mgr) :
    ∀ shs : List ShaderState,
      (∀ attempt ∈ tried host region shs,
        Coherent mgr region attempt.1) →
        firstText host mgr region shs =
          (tried host region shs).findSome? (textOf host) := by
  intro shs
  induction shs with
  | nil => exact fun _ => rfl
  | cons sh rest ih =>
      unfold firstText tried
      by_cases hReq : Requested sh
      · rw [if_pos hReq, if_pos hReq]
        intro hCoherent
        have hText : storedText host mgr region sh =
            compiledText host (rawShader region sh) sh :=
          storedText_of_coherent hDerived
            (hCoherent _ List.mem_cons_self)
        rw [hText, List.findSome?_cons, textOf]
        cases hCompiled :
            compiledText host (rawShader region sh) sh with
        | some msl => rfl
        | none =>
            rw [hCompiled] at hCoherent
            exact ih fun attempt hAttempt =>
              hCoherent attempt
                (List.mem_cons_of_mem _ hAttempt)
      · rw [if_neg hReq, if_neg hReq]
        exact ih

/- Without caches the texts are those of the bytes. -/
theorem firstText_empty
    (region : Option (Nat → U8))
    (shs : List ShaderState) :
    firstText host {} region shs =
      (tried host region shs).findSome? (textOf host) := by
  apply firstText_of_coherent derived_empty
  intro attempt _ prog hProg
  cases hProg

/- The text found is that of a shader asked for. -/
theorem mem_of_firstText
    {sh : ShaderState}
    {msl : String} :
    ∀ {shs : List ShaderState},
      firstText host mgr region shs = some (sh, msl) →
        sh ∈ shs ∧ Requested sh := by
  intro shs
  induction shs with
  | nil => exact fun hNone => nomatch hNone
  | cons first rest ih =>
      unfold firstText
      intro hText
      split_ifs at hText with hReq
      · cases hStored : storedText host mgr region first with
        | some text =>
            rw [hStored] at hText
            cases hText
            exact ⟨List.mem_cons_self, hReq⟩
        | none =>
            rw [hStored] at hText
            exact ⟨List.mem_cons_of_mem _ (ih hText).1,
              (ih hText).2⟩
      · exact ⟨List.mem_cons_of_mem _ (ih hText).1,
          (ih hText).2⟩

/- Coherence can be checked. -/
instance
    (mgr : ShaderManager)
    (region : Option (Nat → U8))
    (sh : ShaderState) :
    Decidable (Coherent mgr region sh) :=
  decidable_of_iff
    (mgr.cache.decoded (hashKey sh) = none ∨
      rawShader region sh ≠ [] ∧
        decodeShader (rawShader region sh) sh =
          mgr.cache.decoded (hashKey sh)) (by
    unfold Coherent
    cases mgr.cache.decoded (hashKey sh) with
    | none => simp
    | some prog => simp)

end ShaderManager

namespace Gpu

open ShaderManager

variable {host : MetalHost} {gpu : Gpu}
variable {vert frag : ShaderCompileResult}

/- The shaders a compile tries for both stages. -/
structure CompileInputs where
  vertex : List (ShaderState × List U8)
  fragment : List (ShaderState × List U8)
deriving DecidableEq

def programPointer (gpu : Gpu) : Option (Nat → U8) :=
  gpu.memory.pointer gpu.tracker.state.programRegion

def compileInputs
    (host : MetalHost)
    (gpu : Gpu) : CompileInputs :=
  { vertex :=
      tried host (programPointer gpu)
        (vertexStages gpu.tracker.state)
    fragment :=
      tried host (programPointer gpu)
        (fragmentStages gpu.tracker.state) }

/- The results are compilations of what was tried. -/
structure CompiledFrom
    (host : MetalHost)
    (inputs : CompileInputs)
    (vert frag : ShaderCompileResult) : Prop where
  vertex :
    ∃ sh msl,
      inputs.vertex.findSome? (textOf host) =
        some (sh, msl) ∧ IsCompilation host sh msl vert
  fragment :
    ∃ sh msl,
      inputs.fragment.findSome? (textOf host) =
        some (sh, msl) ∧ IsCompilation host sh msl frag

/- No foreign program is cached for a shader to be tried. -/
def TriedCoherent (host : MetalHost) (gpu : Gpu) : Prop :=
  ∀ attempt ∈ (compileInputs host gpu).vertex ++
      (compileInputs host gpu).fragment,
    Coherent gpu.shaderMgr (programPointer gpu) attempt.1

instance (host : MetalHost) (gpu : Gpu) :
    Decidable (TriedCoherent host gpu) :=
  inferInstanceAs (Decidable (∀ attempt ∈ _ ++ _, _))

/- Nothing is read without a program region. -/
theorem tried_none
    (shs : List ShaderState) :
    (tried host none shs).findSome? (textOf host) = none := by
  induction shs with
  | nil => rfl
  | cons sh rest ih =>
      unfold tried
      split_ifs with hReq hSome
      · cases hSome
      · rw [List.findSome?_cons]
        exact ih
      · exact ih

/- Results compiled from the present inputs are current. -/
theorem resultsCurrent_of_compiledFrom
    (hFrom : CompiledFrom host (compileInputs host gpu)
      gpu.renderer.vertResult gpu.renderer.fragResult) :
    ResultsCurrent host gpu := by
  rcases hFrom with ⟨⟨sh, msl, hVert, hVertComp⟩,
    ⟨sh', msl', hFrag, hFragComp⟩⟩
  cases hRegion : programPointer gpu with
  | none =>
      simp only [compileInputs, hRegion, tried_none] at hVert
      cases hVert
  | some region =>
      simp only [compileInputs, hRegion] at hVert hFrag
      refine ⟨region, hRegion, ?_, ?_⟩
      · refine ⟨sh, msl, ?_, hVertComp⟩
        rw [firstText_empty, hVert]
      · refine ⟨sh', msl', ?_, hFragComp⟩
        rw [firstText_empty, hFrag]

/- A compile past coherent caches compiles the inputs. -/
theorem Compiled.compiledFrom
    {region : Nat → U8}
    (hRegion : programPointer gpu = some region)
    (hDerived : Derived host gpu.shaderMgr)
    (hCoherent : TriedCoherent host gpu)
    (hCompiled : Compiled host gpu.shaderMgr region
      gpu.tracker.state vert frag) :
    CompiledFrom host (compileInputs host gpu) vert frag := by
  rcases hCompiled with ⟨⟨sh, msl, hVert, hVertComp⟩,
    ⟨sh', msl', hFrag, hFragComp⟩⟩
  unfold TriedCoherent compileInputs at hCoherent
  rw [hRegion] at hCoherent
  dsimp only at hCoherent
  rw [firstText_of_coherent hDerived _ fun attempt hAttempt =>
    hCoherent attempt
      (List.mem_append_left _ hAttempt)] at hVert
  rw [firstText_of_coherent hDerived _ fun attempt hAttempt =>
    hCoherent attempt
      (List.mem_append_right _ hAttempt)] at hFrag
  unfold compileInputs
  rw [hRegion]
  exact ⟨⟨sh, msl, hVert, hVertComp⟩,
    ⟨sh', msl', hFrag, hFragComp⟩⟩

end Gpu

------
-- Histories
------

namespace ShaderManager

variable {host : MetalHost} {mgr mgr' : ShaderManager}
variable {region : Option (Nat → U8)}

theorem Derived.congr
    (hSame : ∀ key, SameEntries mgr mgr' key)
    (hDerived : Derived host mgr) :
    Derived host mgr' := by
  intro key c hC
  rw [(hSame key).2] at hC
  rw [(hSame key).1]
  exact hDerived key c hC

theorem Derived.compileFirst
    (region : Option (Nat → U8)) :
    ∀ (shs : List ShaderState) (result : ShaderCompileResult)
      (mgr : ShaderManager),
      Derived host mgr →
        Derived host
          (compileFirst host region shs result mgr).2 := by
  intro shs
  induction shs with
  | nil => exact fun _ _ hDerived => hDerived
  | cons sh rest ih =>
      intro result mgr hDerived
      have hCall : Derived host
          (compileShader host mgr region sh).2 :=
        derived_compileShader hDerived
      unfold ShaderManager.compileFirst
      dsimp only
      split_ifs
      · exact hCall
      · exact ih _ _ hCall
      · exact ih _ _ hDerived

/- Making a pipeline leaves the shaders' caches alone. -/
theorem sameEntries_createRenderPipeline
    (vert frag : ShaderCompileResult)
    (key : U64) :
    SameEntries mgr
      (createRenderPipeline host mgr vert frag).2 key := by
  unfold createRenderPipeline
  dsimp only
  split_ifs
  · exact ⟨rfl, rfl⟩
  · exact ⟨rfl, rfl⟩
  · split <;> exact ⟨rfl, rfl⟩

end ShaderManager

namespace Gpu

open ShaderManager

variable {host : MetalHost} {gpu : Gpu}

/- Compiling keeps the texts with their programs. -/
theorem derived_compilePipeline
    (hDerived : Derived host gpu.shaderMgr) :
    Derived host (compilePipeline host gpu).2.shaderMgr := by
  cases compilePipeline_cases host gpu with
  | skipped _ hOut =>
      rw [hOut]
      exact hDerived
  | unchanged _ _ hOut =>
      rw [hOut]
      exact hDerived
  | stages region _ _ _ hOut =>
      have hVert := Derived.compileFirst (some region)
        (vertexStages gpu.tracker.state) {} gpu.shaderMgr
        hDerived
      have hFrag := Derived.compileFirst (some region)
        (fragmentStages gpu.tracker.state) {} _ hVert
      rw [hOut]
      unfold compileStages usePipeline
      dsimp only
      split_ifs
      · exact hFrag.congr
          (sameEntries_createRenderPipeline _ _)
      · exact hFrag.congr
          (sameEntries_createRenderPipeline _ _)
      · exact hFrag

/- What the results of a compile are. -/
theorem compilePipeline_results
    (host : MetalHost)
    (hSep : KeysSeparate (stages gpu.tracker.state)) :
    ((compilePipeline host gpu).1 = true ∧
      gpu.renderer.shadersUnchanged gpu.tracker.state =
        false ∧
      ∃ region, programPointer gpu = some region ∧
        Compiled host gpu.shaderMgr region gpu.tracker.state
          (compilePipeline host gpu).2.renderer.vertResult
          (compilePipeline host gpu).2.renderer.fragResult) ∨
    ((compilePipeline host gpu).2.renderer = gpu.renderer ∧
      ((compilePipeline host gpu).1 = true →
        gpu.renderer.shadersUnchanged gpu.tracker.state =
          true)) := by
  cases compilePipeline_cases host gpu with
  | skipped _ hOut =>
      rw [hOut]
      exact Or.inr ⟨rfl, fun hFalse => nomatch hFalse⟩
  | unchanged _ hSame hOut =>
      rw [hOut]
      exact Or.inr ⟨rfl, fun _ => hSame⟩
  | stages region _ hRegion hChanged hOut =>
      rw [hOut]
      rcases compileStages_cases host region hSep with
          ⟨_, hCases⟩
      cases hCases with
      | failed _ hReturn hKept =>
          refine Or.inr ⟨hKept, ?_⟩
          rw [hReturn]
          exact fun hFalse => nomatch hFalse
      | compiled vert frag _ hCompiled hReturn hRenderer =>
          refine Or.inl ⟨hReturn, hChanged, region, hRegion, ?_⟩
          rw [hRenderer]
          exact hCompiled

/- The machine with what its last compile read. -/
structure History where
  gpu : Gpu
  compiledFrom : Option CompileInputs

/- The frame compiles its stages, and succeeds. -/
def recompiles (host : MetalHost) (gpu : Gpu) : Bool :=
  gpu.tracker.hasPendingDraws &&
    !gpu.renderer.shadersUnchanged gpu.tracker.state &&
    (compilePipeline host (prepareFrame host gpu)).1

/-
  What the last successful compile read, unless it took a
  foreign program from a cache.
-/
def History.step
    (host : MetalHost)
    (h : History)
    (e : Event) : History :=
  { gpu := h.gpu.step host e
    compiledFrom :=
      match e with
      | .renderFrame _ =>
          if recompiles host h.gpu then
            if TriedCoherent host h.gpu then
              some (compileInputs host h.gpu)
            else none
          else h.compiledFrom
      | _ => h.compiledFrom }

def History.start (gpu : Gpu) : History :=
  { gpu := gpu, compiledFrom := none }

def historyFrom
    (host : MetalHost)
    (gpu : Gpu)
    (events : List Event) : History :=
  EventRun.stateAfter (History.step host) (History.start gpu)
    events

theorem gpu_historyFrom
    (host : MetalHost)
    (gpu : Gpu)
    (events : List Event) :
    (historyFrom host gpu events).gpu =
      runFrom host gpu events :=
  EventRun.stateAfter_map (f := History.gpu)
    (fun _ _ => rfl) events

/- What holds of every history. -/
structure Consistent (host : MetalHost) (h : History) :
    Prop where
  bounded : Engine3D.OffsetsBounded h.gpu.tracker.state
  derived : Derived host h.gpu.shaderMgr
  results :
    ∀ inputs, h.compiledFrom = some inputs →
      CompiledFrom host inputs h.gpu.renderer.vertResult
        h.gpu.renderer.fragResult

/- The machine a frame leaves. -/
structure FrameEnd
    (host : MetalHost)
    (gpu gpu' : Gpu) : Prop where
  shaders :
    gpu'.tracker.state.shaders = gpu.tracker.state.shaders
  derived :
    Derived host gpu.shaderMgr → Derived host gpu'.shaderMgr
  results :
    SameResults
      (compilePipeline host
        (prepareFrame host gpu)).2.renderer
      gpu'.renderer

theorem frameEnd_renderFrame
    (passDesc : MTLRenderPassDescriptor)
    (hBound : Engine3D.OffsetsBounded gpu.tracker.state)
    (hPending : gpu.tracker.hasPendingDraws = true) :
    FrameEnd host gpu (renderFrame host passDesc gpu).1 := by
  have hSep :=
    keysSeparate_prepareFrame host hBound
  have hQueue : gpu.tracker.drawQueue ≠ [] := by
    simpa [StateTracker.hasPendingDraws] using hPending
  have hAfter :
      AfterCompile host (prepareFrame host gpu)
        (encodeDraws host passDesc gpu.tracker.drawQueue
          (prepareFrame host gpu) none).1 :=
    (frame_compiles passDesc hSep hQueue).1
  have hDerived :
      Derived host gpu.shaderMgr →
        Derived host
          (encodeDraws host passDesc gpu.tracker.drawQueue
            (prepareFrame host gpu) none).1.shaderMgr := by
    intro hStart
    have hBegin :
        ∀ g key, Derived host (shaderMgr g) →
          Derived host
            (beginBatch host passDesc g key).2.shaderMgr :=
      fun g key hG => derived_compilePipeline hG
    exact (encodeDraws_keeps hBegin gpu.tracker.drawQueue
      (prepareFrame host gpu) none hStart).1
  unfold renderFrame
  rw [if_pos hPending]
  refine ⟨?_, hDerived, hAfter.results⟩
  change (encodeDraws host passDesc gpu.tracker.drawQueue
    (prepareFrame host gpu) none).1.tracker.state.shaders = _
  rw [hAfter.frame.tracker]
  rfl

/- A frame keeps histories consistent. -/
theorem Consistent.renderFrame
    {h : History}
    (hCons : Consistent host h)
    (passDesc : MTLRenderPassDescriptor) :
    Consistent host (h.step host (.renderFrame passDesc)) := by
  cases hPending : h.gpu.tracker.hasPendingDraws with
  | false =>
      have hStep :
          h.step host (.renderFrame passDesc) = h := by
        simp [History.step, Gpu.step, Gpu.renderFrame,
          recompiles, hPending]
      rw [hStep]
      exact hCons
  | true =>
      have hEnd : FrameEnd host h.gpu
          (Gpu.renderFrame host passDesc h.gpu).1 :=
        frameEnd_renderFrame passDesc hCons.bounded hPending
      have hSep :=
        keysSeparate_prepareFrame host hCons.bounded
      refine ⟨?_, hEnd.derived hCons.derived, ?_⟩
      · intro i
        change ((Gpu.renderFrame host passDesc
          h.gpu).1.tracker.state.shaders i).offset.toNat < _
        rw [hEnd.shaders]
        exact hCons.bounded i
      · intro inputs hFrom
        change CompiledFrom host inputs
          (Gpu.renderFrame host passDesc
            h.gpu).1.renderer.vertResult
          (Gpu.renderFrame host passDesc
            h.gpu).1.renderer.fragResult
        rw [hEnd.results.vertResult, hEnd.results.fragResult]
        rcases compilePipeline_results host hSep with
          ⟨hReturn, hChanged, region, hRegion, hCompiled⟩ |
            ⟨hKept, hUnchanged⟩
        · have hRe : recompiles host h.gpu = true := by
            have hNot : h.gpu.renderer.shadersUnchanged
                h.gpu.tracker.state = false := hChanged
            simp [recompiles, hPending, hReturn, hNot]
          simp only [History.step, hRe, if_true] at hFrom
          split_ifs at hFrom with hCoherent
          cases hFrom
          exact hCompiled.compiledFrom hRegion hCons.derived
            hCoherent
        · have hRe : recompiles host h.gpu = false := by
            cases hOut : (compilePipeline host
                (prepareFrame host h.gpu)).1 with
            | false => simp [recompiles, hOut]
            | true =>
                have hSame : h.gpu.renderer.shadersUnchanged
                    h.gpu.tracker.state = true :=
                  hUnchanged hOut
                simp [recompiles, hSame]
          simp only [History.step, hRe] at hFrom
          rw [hKept]
          exact hCons.results inputs hFrom

/- Every history of a fresh machine is consistent. -/
theorem history_consistent
    (host : MetalHost)
    (engines : Fin 8 → EngineType)
    (memory : Memory)
    (fallback : MTLRenderPipelineState)
    (events : List Event) :
    Consistent host
      (historyFrom host (start engines memory fallback)
        events) := by
  refine EventRun.invariant
    (I := fun _ h => Consistent host h) ?_ ?_ events
  · refine ⟨StateTracker.offsetsBounded_reset, derived_empty,
      ?_⟩
    intro inputs hNone
    cases hNone
  · intro before e hCons
    cases e with
    | pushBuffer words =>
        exact ⟨StateTracker.offsetsBounded_onMethods _
          hCons.bounded, hCons.derived, hCons.results⟩
    | writeMemory memory =>
        exact ⟨hCons.bounded, hCons.derived, hCons.results⟩
    | invalidateCache =>
        exact ⟨hCons.bounded, derived_invalidateCache,
          hCons.results⟩
    | renderFrame passDesc =>
        exact hCons.renderFrame passDesc

------
-- Frames With Fresh Stages
------

open MetalRenderer ShaderManager

variable {h : History}

/-
  Where the compile is skipped, what it would try is what the
  last one tried, byte by byte.  Where it is not, and there
  is a program, the caches hold no foreign one for a shader to
  be tried.
-/
structure StagesFresh (host : MetalHost) (h : History) :
    Prop where
  kept :
    h.gpu.renderer.shadersUnchanged h.gpu.tracker.state =
        true →
      h.compiledFrom = some (compileInputs host h.gpu)
  compiled :
    h.gpu.renderer.shadersUnchanged h.gpu.tracker.state =
        false →
      programPointer h.gpu ≠ none →
        TriedCoherent host h.gpu

/- Frames with draws and a program have fresh stages. -/
def FreshAtFrames
    (host : MetalHost)
    (h : History) : Event → Prop
| .renderFrame _ =>
    h.gpu.tracker.hasPendingDraws = true →
      h.gpu.tracker.state.programRegion ≠ 0 →
        StagesFresh host h
| _ => True

/- A compile of fresh stages leaves their compilations. -/
theorem StagesFresh.compiledFrom
    (hCons : Consistent host h)
    (hFresh : StagesFresh host h)
    (hReturn :
      (compilePipeline host
        (prepareFrame host h.gpu)).1 = true) :
    CompiledFrom host (compileInputs host h.gpu)
      (compilePipeline host
        (prepareFrame host h.gpu)).2.renderer.vertResult
      (compilePipeline host
        (prepareFrame host h.gpu)).2.renderer.fragResult := by
  have hSep :=
    keysSeparate_prepareFrame host hCons.bounded
  rcases compilePipeline_results host hSep with
    ⟨_, hChanged, region, hRegion, hCompiled⟩ |
      ⟨hKept, hUnchanged⟩
  · have hSome : programPointer h.gpu ≠ none := by
      change programPointer (prepareFrame host h.gpu) ≠ none
      rw [hRegion]
      exact nofun
    exact hCompiled.compiledFrom hRegion hCons.derived
      (hFresh.compiled hChanged hSome)
  · rw [hKept]
    exact hCons.results _ (hFresh.kept (hUnchanged hReturn))

/- Every compile of such a frame leaves current results. -/
theorem StagesFresh.resultsCurrent
    {g : Gpu}
    (hCons : Consistent host h)
    (hFresh : StagesFresh host h)
    (hCall : g = prepareFrame host h.gpu ∨
      AfterCompile host (prepareFrame host h.gpu) g)
    (hReturn : (compilePipeline host g).1 = true) :
    ResultsCurrent host (compilePipeline host g).2 := by
  have hSep :=
    keysSeparate_prepareFrame host hCons.bounded
  have hFrame := sameFrame_compilePipeline host g
  apply resultsCurrent_of_compiledFrom
  unfold compileInputs programPointer
  rw [hFrame.tracker, hFrame.memory]
  rcases hCall with rfl | hAfter
  · exact hFresh.compiledFrom hCons hReturn
  · rw [hAfter.frame.tracker, hAfter.frame.memory,
      hAfter.renderer hSep, hAfter.results.vertResult,
      hAfter.results.fragResult]
    rw [hAfter.returns hSep] at hReturn
    exact hFresh.compiledFrom hCons hReturn

/-
  In a run whose frames have fresh stages, whenever a compile
  returns true the results are compilations of the stages
  enabled in the registers.
-/
theorem compilesCurrent_of_fresh
    (host : MetalHost)
    (engines : Fin 8 → EngineType)
    (memory : Memory)
    (fallback : MTLRenderPipelineState)
    (events : List Event)
    (hFresh :
      EventRun.Guarded (History.step host)
        (FreshAtFrames host)
        (History.start (start engines memory fallback))
        events) :
    CompilesCurrent host (start engines memory fallback)
      events := by
  intro before passDesc hBefore g hG hReturn
  have hCons := history_consistent host engines memory fallback
    before
  have hGuard :
      FreshAtFrames host
        (historyFrom host (start engines memory fallback)
          before) (.renderFrame passDesc) :=
    hFresh before (.renderFrame passDesc) hBefore
  rw [← gpu_historyFrom] at hG
  generalize historyFrom host (start engines memory fallback)
    before = h at hCons hGuard hG
  have hQueue : h.gpu.tracker.drawQueue ≠ [] := by
    intro hEmpty
    rw [frameCalls, hEmpty] at hG
    cases hG
  have hSep :=
    keysSeparate_prepareFrame host hCons.bounded
  have hCall := (frame_compiles passDesc hSep hQueue).2 g hG
  have hNonzero :
      g.tracker.state.programRegion ≠ 0 := by
    intro hZero
    simp [compilePipeline, hZero] at hReturn
  refine StagesFresh.resultsCurrent hCons ?_ hCall hReturn
  refine hGuard ?_ ?_
  · simpa [StateTracker.hasPendingDraws] using hQueue
  · rcases hCall with rfl | hAfter
    · exact hNonzero
    · rw [hAfter.frame.tracker] at hNonzero
      exact hNonzero

/- `EXIT` at every slot of guest memory. -/
def exitMemory : Memory :=
  { bytes := fun i => if i % 8 = 1 then 16 else 0 }

def exitStart : Gpu :=
  start StateTracker.defaultEngines exitMemory startPipeline

def inlineWrite (method arg : U32) : U32 :=
  GPFifo.makeHeader .Inline method arg 0

/-
  A program region, the second vertex stage and the fragment
  stage, and a draw.
-/
def setShaders : List U32 :=
  [inlineWrite 0x582 0x1000, inlineWrite 0x801 0x11,
    inlineWrite 0x807 0x100, inlineWrite 0x805 0x51,
    inlineWrite 0x80B 0x200, inlineWrite 0x35E 3]

/- A frame, then some words, then another frame. -/
def twoFrames (words : List U32) : List Event :=
  [.pushBuffer setShaders, .renderFrame plainHost.freshPass,
    .pushBuffer words, .renderFrame plainHost.freshPass]

/- Another draw only: the second frame keeps the shaders. -/
theorem compilesCurrent_twoFrames :
    (frameCalls plainHost plainHost.freshPass
        (runFrom plainHost exitStart
          ((twoFrames [inlineWrite 0x35E 3]).take 3))).map
        (fun g => (compilePipeline plainHost g).1) = [true] ∧
      CompilesCurrent plainHost exitStart
        (twoFrames [inlineWrite 0x35E 3]) := by
  refine ⟨by decide, ?_⟩
  apply compilesCurrent_of_fresh
  unfold twoFrames
  simp only [EventRun.guarded_cons, EventRun.guarded_nil,
    FreshAtFrames, true_and, and_true]
  refine ⟨fun _ _ => ⟨?_, ?_⟩, fun _ _ => ⟨?_, ?_⟩⟩
  · decide
  · decide
  · decide +kernel
  · decide

/- Current results name an enabled stage. -/
theorem ResultsCurrent.hash
    (hCurrent : ResultsCurrent host gpu) :
    ∃ sh ∈ vertexStages gpu.tracker.state,
      Requested sh ∧
        gpu.renderer.vertResult.hash = hashKey sh := by
  rcases hCurrent with ⟨region, _, hCompiled⟩
  rcases hCompiled.vertex with ⟨sh, msl, hText, hComp⟩
  rcases mem_of_firstText hText with ⟨hMem, hReq⟩
  exact ⟨sh, hMem, hReq, hComp.hash⟩

/-
  The vertex stage moved to another offset: the second frame
  still has the shader at the old one.
-/
theorem not_compilesCurrent_stageMoved :
    ¬ CompilesCurrent plainHost exitStart
      (twoFrames
        [inlineWrite 0x807 0x300, inlineWrite 0x35E 3]) := by
  intro hCurrent
  have hHash :=
    (hCurrent
      ((twoFrames
        [inlineWrite 0x807 0x300,
          inlineWrite 0x35E 3]).take 3)
      plainHost.freshPass (List.prefix_refl _)
      (prepareFrame plainHost
        (runFrom plainHost exitStart
          ((twoFrames
            [inlineWrite 0x807 0x300,
              inlineWrite 0x35E 3]).take 3)))
      List.mem_cons_self (by decide)).hash
  revert hHash
  decide

end Gpu

end M1Switch
