import M1Switch.Gpu.Backend.MetalRenderer.Batches
import M1Switch.Gpu.Shader.ShaderManager.Caches

/-
  Compiling the shader stages of the registers.

  A compile is described by the texts the shader manager holds
  or makes for the stages.  These texts stay the same, so that
  a second compile of the same registers does what the first
  one did.

  Key definitions include:
    * `firstText`
    * `pairPipeline`

  Main results:
    * `compileStages_cases`
    * `settled_compilePipeline`
    * `again`
-/

------
-- Keys Of The Shader Caches
------

namespace M1Switch

namespace ShaderManager

variable {sh sh' : ShaderState}

/- Shaders that are asked for have keys of their own. -/
def KeysSeparate (shs : List ShaderState) : Prop :=
  ∀ sh ∈ shs, ∀ sh' ∈ shs, Requested sh → Requested sh' →
    hashKey sh' = hashKey sh → sh' = sh

theorem getLsbD_hashKey
    (hBound : sh.offset.toNat < 2 ^ 32)
    (i : Nat) :
    (hashKey sh).getLsbD i =
      if i < 32 then sh.offset.getLsbD i
      else decide (i < 64) && sh.stageId.getLsbD (i - 32) := by
  unfold hashKey
  rw [BitVec.getLsbD_xor, BitVec.getLsbD_shiftLeft,
    BitVec.getLsbD_setWidth]
  by_cases hLow : i < 32
  · simp [hLow]
  · have hHigh : sh.offset.getLsbD i = false := by
      rw [BitVec.getLsbD]
      apply Nat.testBit_lt_two_pow
      exact lt_of_lt_of_le hBound
        (Nat.pow_le_pow_right (by omega) (by omega))
    rw [if_neg hLow, hHigh, Bool.false_xor]
    by_cases hEnd : i < 64
    · have hShift : i - 32 < 64 := by omega
      simp [hLow, hEnd, hShift]
    · simp [hEnd]

/- With 32-bit offsets a key gives offset and stage. -/
theorem eq_of_hashKey
    (hBound : sh.offset.toNat < 2 ^ 32)
    (hBound' : sh'.offset.toNat < 2 ^ 32)
    (hReq : Requested sh)
    (hReq' : Requested sh')
    (hKey : hashKey sh' = hashKey sh) :
    sh' = sh := by
  have hBits :
      ∀ i, (hashKey sh').getLsbD i =
        (hashKey sh).getLsbD i := by
    intro i
    rw [hKey]
  have hOffset : sh'.offset = sh.offset := by
    apply BitVec.eq_of_getLsbD_eq
    intro i _
    by_cases hLow : i < 32
    · have hBit := hBits i
      rw [getLsbD_hashKey hBound', getLsbD_hashKey hBound,
        if_pos hLow, if_pos hLow] at hBit
      exact hBit
    · have hZero :
          ∀ v : U64, v.toNat < 2 ^ 32 →
            v.getLsbD i = false := by
        intro v hV
        apply Nat.testBit_lt_two_pow
        exact lt_of_lt_of_le hV
          (Nat.pow_le_pow_right (by omega) (by omega))
      rw [hZero _ hBound, hZero _ hBound']
  have hStage : sh'.stageId = sh.stageId := by
    apply BitVec.eq_of_getLsbD_eq
    intro i hI
    have hBit := hBits (i + 32)
    have hLow : ¬ i + 32 < 32 := by omega
    have hEnd : i + 32 < 64 := by omega
    rw [getLsbD_hashKey hBound', getLsbD_hashKey hBound,
      if_neg hLow, if_neg hLow] at hBit
    simpa [hEnd] using hBit
  cases sh
  cases sh'
  simp only [ShaderState.mk.injEq]
  exact ⟨hOffset, hReq'.1.trans hReq.1.symm, hStage⟩

theorem keysSeparate_of_bounded
    {shs : List ShaderState}
    (hBound : ∀ sh ∈ shs, sh.offset.toNat < 2 ^ 32) :
    KeysSeparate shs := by
  intro sh hSh sh' hSh' hReq hReq' hKey
  exact eq_of_hashKey (hBound sh hSh) (hBound sh' hSh') hReq
    hReq' hKey

------
-- The First Shader That Compiles
------

variable {host : MetalHost} {mgr mgr' : ShaderManager}
variable {region : Option (Nat → U8)}
variable {all : List ShaderState}

/- The first shader that has a text, and the text. -/
def firstText
    (host : MetalHost)
    (mgr : ShaderManager)
    (region : Option (Nat → U8)) :
    List ShaderState → Option (ShaderState × String)
| [] => none
| sh :: rest =>
    if Requested sh then
      match storedText host mgr region sh with
      | some msl => some (sh, msl)
      | none => firstText host mgr region rest
    else firstText host mgr region rest

/- The manager gives the same texts for these shaders. -/
def SameTexts
    (host : MetalHost)
    (region : Option (Nat → U8))
    (all : List ShaderState)
    (mgr mgr' : ShaderManager) : Prop :=
  ∀ sh ∈ all, Requested sh →
    storedText host mgr' region sh =
      storedText host mgr region sh

theorem SameTexts.refl : SameTexts host region all mgr mgr :=
  fun _ _ _ => rfl

theorem SameTexts.trans
    {mgr'' : ShaderManager}
    (h : SameTexts host region all mgr mgr')
    (h' : SameTexts host region all mgr' mgr'') :
    SameTexts host region all mgr mgr'' := by
  intro sh hSh hReq
  rw [h' sh hSh hReq, h sh hSh hReq]

theorem firstText_congr
    (hSame : SameTexts host region all mgr mgr') :
    ∀ shs : List ShaderState, (∀ sh ∈ shs, sh ∈ all) →
      firstText host mgr' region shs =
        firstText host mgr region shs := by
  intro shs
  induction shs with
  | nil => exact fun _ => rfl
  | cons sh rest ih =>
      intro hSub
      have hRest := ih fun sh' hSh' =>
        hSub sh' (List.mem_cons_of_mem _ hSh')
      unfold firstText
      rw [hRest]
      by_cases hReq : Requested sh
      · rw [hSame sh (hSub sh List.mem_cons_self) hReq]
      · rw [if_neg hReq, if_neg hReq]

/- A call keeps the texts of separate shaders. -/
theorem sameTexts_compileShader
    (hSep : KeysSeparate all)
    (hSh : sh ∈ all)
    (hReq : Requested sh) :
    SameTexts host region all mgr
      (compileShader host mgr region sh).2 := by
  intro sh' hSh' hReq'
  apply storedText_compileShader hReq
  intro hKey
  exact hSep sh hSh sh' hSh' hReq hReq' hKey

/- The loop returns a compilation of the first text. -/
structure FirstSpec
    (host : MetalHost)
    (region : Option (Nat → U8))
    (all : List ShaderState)
    (first : Option (ShaderState × String))
    (mgr : ShaderManager)
    (out : ShaderCompileResult × ShaderManager) : Prop where
  compiled :
    ∀ sh msl, first = some (sh, msl) →
      IsCompilation host sh msl out.1
  failed : first = none → out.1.success = false
  texts : SameTexts host region all mgr out.2

theorem compileFirst_spec
    (hSep : KeysSeparate all) :
    ∀ (shs : List ShaderState) (result : ShaderCompileResult)
      (mgr : ShaderManager),
      (∀ sh ∈ shs, sh ∈ all) → result.success = false →
        FirstSpec host region all
          (firstText host mgr region shs) mgr
          (compileFirst host region shs result mgr) := by
  intro shs
  induction shs with
  | nil =>
      intro result mgr _ hFail
      refine ⟨?_, fun _ => hFail, SameTexts.refl⟩
      intro sh msl hNone
      cases hNone
  | cons sh rest ih =>
      intro result mgr hSub hFail
      have hRest : ∀ sh ∈ rest, sh ∈ all :=
        fun sh' hSh' => hSub sh' (List.mem_cons_of_mem _ hSh')
      unfold firstText compileFirst
      by_cases hReq : Requested sh
      · have hSpec : CallSpec host mgr region sh regionSize
            (compileShader host mgr region sh).1
            (compileShader host mgr region sh).2 :=
          callSpec_compileShader hReq
        have hTexts : SameTexts host region all mgr
            (compileShader host mgr region sh).2 :=
          sameTexts_compileShader hSep
            (hSub sh List.mem_cons_self) hReq
        rw [if_pos hReq, if_pos (show _ ∧ _ from hReq)]
        dsimp only
        cases hText : storedText host mgr region sh with
        | some msl =>
            have hComp := hSpec.compiled msl hText
            rw [if_pos hComp.success]
            refine ⟨?_, ?_, hTexts⟩
            · intro sh' msl' hEq
              cases hEq
              exact hComp
            · intro hNone
              cases hNone
        | none =>
            have hFailed := hSpec.failed hText
            rw [if_neg (by simp [hFailed])]
            have hLater := ih
              (compileShader host mgr region sh).1
              (compileShader host mgr region sh).2 hRest hFailed
            rw [firstText_congr hTexts rest hRest] at hLater
            exact ⟨hLater.compiled, hLater.failed,
              hTexts.trans hLater.texts⟩
      · rw [if_neg hReq, if_neg (show ¬ (_ ∧ _) from hReq)]
        exact ih result mgr hRest hFail

------
-- The Pipeline Of Two Texts
------

variable {vertSh fragSh : ShaderState}
variable {vertMsl fragMsl : String}
variable {vert frag : ShaderCompileResult}

/- The pipeline made of two texts, if any. -/
def pairPipeline
    (host : MetalHost)
    (vertMsl fragMsl : String) :
    Option MTLRenderPipelineState :=
  match compileMSL host vertMsl, compileMSL host fragMsl with
  | .ok v, .ok f =>
      host.createRenderPipeline (minimalPipeline v f)
  | _, _ => none

/- A compilation gives the function of its text. -/
theorem functionOr_eq
    {func : Option MTLFunction}
    {msl : String}
    (hFunc :
      ∀ f, func = some f → compileMSL host msl = .ok f) :
    functionOr host func msl =
      (compileMSL host msl).toOption := by
  cases func with
  | none => rfl
  | some f =>
      rw [hFunc f rfl]
      rfl

/- The pipeline of two compilations is that of the texts. -/
theorem createRenderPipeline_spec
    (mgr : ShaderManager)
    (hVert : IsCompilation host vertSh vertMsl vert)
    (hFrag : IsCompilation host fragSh fragMsl frag) :
    (createRenderPipeline host mgr vert frag).1.success =
        (pairPipeline host vertMsl fragMsl).isSome ∧
      (createRenderPipeline host mgr vert frag).1.pipelineState =
        pairPipeline host vertMsl fragMsl ∧
      ∀ key, SameEntries mgr
        (createRenderPipeline host mgr vert frag).2 key := by
  have hSuccess : ¬ (!vert.success ∨ !frag.success) := by
    simp [hVert.success, hFrag.success]
  have hVertFn :
      functionOr host vert.vertexFunction vert.mslSource =
        (compileMSL host vertMsl).toOption := by
    rw [hVert.mslSource]
    exact functionOr_eq hVert.vertexFunction
  have hFragFn :
      functionOr host frag.fragmentFunction frag.mslSource =
        (compileMSL host fragMsl).toOption := by
    rw [hFrag.mslSource]
    exact functionOr_eq hFrag.fragmentFunction
  unfold createRenderPipeline pairPipeline
  dsimp only
  rw [if_neg hSuccess, hVertFn, hFragFn]
  cases compileMSL host vertMsl with
  | error msg =>
      exact ⟨rfl, rfl, fun _ => ⟨rfl, rfl⟩⟩
  | ok v =>
      cases compileMSL host fragMsl with
      | error msg =>
          exact ⟨rfl, rfl, fun _ => ⟨rfl, rfl⟩⟩
      | ok f =>
          have hBoth :
              ¬ ((Except.ok v : Except String _).toOption =
                  none ∨
                (Except.ok f : Except String _).toOption =
                  none) := by
            intro hNone
            rcases hNone with hNone | hNone <;> cases hNone
          rw [if_neg hBoth]
          unfold createPipeline
          dsimp only [Except.toOption]
          cases host.createRenderPipeline
              (minimalPipeline v f) with
          | none => exact ⟨rfl, rfl, fun _ => ⟨rfl, rfl⟩⟩
          | some p => exact ⟨rfl, rfl, fun _ => ⟨rfl, rfl⟩⟩

end ShaderManager

------
-- Compiling The Stages
------

namespace Gpu

open ShaderManager

variable {host : MetalHost} {gpu gpu' : Gpu}
variable {region : Nat → U8}

/- All shaders a compile may ask for. -/
def stages (s : GpuState3D) : List ShaderState :=
  vertexStages s ++ fragmentStages s

/- Stages with 32-bit offsets have keys of their own. -/
theorem keysSeparate_stages
    {s : GpuState3D}
    (hBound : Engine3D.OffsetsBounded s) :
    KeysSeparate (stages s) := by
  apply keysSeparate_of_bounded
  intro sh hSh
  simp only [stages, vertexStages, fragmentStages,
    List.cons_append, List.nil_append, List.mem_cons,
    List.not_mem_nil, or_false] at hSh
  rcases hSh with rfl | rfl | rfl
  · exact hBound 0
  · exact hBound 1
  · exact hBound 5

/- The pipeline a compile of the stages ends with. -/
def stagesPipeline
    (host : MetalHost)
    (mgr : ShaderManager)
    (region : Nat → U8)
    (s : GpuState3D) : Option MTLRenderPipelineState :=
  match firstText host mgr (some region) (vertexStages s),
      firstText host mgr (some region) (fragmentStages s) with
  | some v, some f => pairPipeline host v.2 f.2
  | _, _ => none

/- Both results are compilations of the texts. -/
structure Compiled
    (host : MetalHost)
    (mgr : ShaderManager)
    (region : Nat → U8)
    (s : GpuState3D)
    (vert frag : ShaderCompileResult) : Prop where
  vertex :
    ∃ sh msl,
      firstText host mgr (some region) (vertexStages s) =
        some (sh, msl) ∧ IsCompilation host sh msl vert
  fragment :
    ∃ sh msl,
      firstText host mgr (some region) (fragmentStages s) =
        some (sh, msl) ∧ IsCompilation host sh msl frag

/- What is kept of two results. -/
theorem usePipeline_cases
    (gpu : Gpu)
    {mgr : ShaderManager}
    {vertSh fragSh : ShaderState}
    {vertMsl fragMsl : String}
    {vert frag : ShaderCompileResult}
    (hVert : IsCompilation host vertSh vertMsl vert)
    (hFrag : IsCompilation host fragSh fragMsl frag) :
    (∀ key, SameEntries mgr
        (usePipeline host gpu mgr vert frag).2.shaderMgr
          key) ∧
      (usePipeline host gpu mgr vert frag).1 =
        (pairPipeline host vertMsl fragMsl).isSome ∧
      (usePipeline host gpu mgr vert frag).2.renderer =
        if (pairPipeline host vertMsl fragMsl).isSome then
          compiledRenderer gpu.renderer gpu.tracker.state
            (pairPipeline host vertMsl fragMsl) vert frag
        else gpu.renderer := by
  rcases createRenderPipeline_spec mgr hVert hFrag with
    ⟨hSuccess, hState, hEntries⟩
  unfold usePipeline
  rw [if_pos ⟨hVert.success, hFrag.success⟩]
  dsimp only
  rw [hSuccess, hState]
  split_ifs with hSome
  · exact ⟨hEntries, hSome.symm, rfl⟩
  · exact ⟨hEntries, (Bool.eq_false_iff.mpr hSome).symm, rfl⟩

/- A failed stage leaves everything but the caches. -/
theorem usePipeline_failed
    {mgr : ShaderManager}
    {vert frag : ShaderCompileResult}
    (hFail : vert.success = false ∨ frag.success = false) :
    usePipeline host gpu mgr vert frag =
      (false, { gpu with shaderMgr := mgr }) := by
  unfold usePipeline
  apply if_neg
  intro hBoth
  rcases hFail with hFail | hFail
  · rw [hFail] at hBoth
    exact Bool.false_ne_true hBoth.1
  · rw [hFail] at hBoth
    exact Bool.false_ne_true hBoth.2

/- What a compile of the stages can do. -/
inductive StagesOutcome
    (host : MetalHost)
    (gpu : Gpu)
    (region : Nat → U8)
    (out : Bool × Gpu) : Prop where
  | failed
      (hNone : stagesPipeline host gpu.shaderMgr region
        gpu.tracker.state = none)
      (hReturn : out.1 = false)
      (hKept : out.2.renderer = gpu.renderer)
  | compiled
      (vert frag : ShaderCompileResult)
      (hSome : (stagesPipeline host gpu.shaderMgr region
        gpu.tracker.state).isSome)
      (hCompiled : Compiled host gpu.shaderMgr region
        gpu.tracker.state vert frag)
      (hReturn : out.1 = true)
      (hRenderer : out.2.renderer =
        compiledRenderer gpu.renderer gpu.tracker.state
          (stagesPipeline host gpu.shaderMgr region
            gpu.tracker.state) vert frag)

theorem compileStages_cases
    (host : MetalHost)
    (region : Nat → U8)
    (hSep : KeysSeparate (stages gpu.tracker.state)) :
    SameTexts host (some region) (stages gpu.tracker.state)
        gpu.shaderMgr
        (compileStages host gpu region).2.shaderMgr ∧
      StagesOutcome host gpu region
        (compileStages host gpu region) := by
  have hVertSub : ∀ sh ∈ vertexStages gpu.tracker.state,
      sh ∈ stages gpu.tracker.state :=
    fun sh hSh => List.mem_append_left _ hSh
  have hFragSub : ∀ sh ∈ fragmentStages gpu.tracker.state,
      sh ∈ stages gpu.tracker.state :=
    fun sh hSh => List.mem_append_right _ hSh
  have hVert : FirstSpec host (some region) _ _ _ _ :=
    compileFirst_spec hSep (vertexStages gpu.tracker.state)
      {} gpu.shaderMgr hVertSub rfl
  have hFrag : FirstSpec host (some region) _ _ _ _ :=
    compileFirst_spec hSep (fragmentStages gpu.tracker.state)
      {} (compileFirst host (some region)
        (vertexStages gpu.tracker.state) {}
        gpu.shaderMgr).2 hFragSub rfl
  rw [firstText_congr hVert.texts _ hFragSub] at hFrag
  have hTexts := hVert.texts.trans hFrag.texts
  unfold compileStages
  dsimp only
  cases hVertText : firstText host gpu.shaderMgr (some region)
      (vertexStages gpu.tracker.state) with
  | none =>
      rw [usePipeline_failed (Or.inl (hVert.failed hVertText))]
      refine ⟨hTexts, .failed ?_ rfl rfl⟩
      simp only [stagesPipeline, hVertText]
  | some v =>
      cases hFragText : firstText host gpu.shaderMgr
          (some region) (fragmentStages gpu.tracker.state) with
      | none =>
          rw [usePipeline_failed
            (Or.inr (hFrag.failed hFragText))]
          refine ⟨hTexts, .failed ?_ rfl rfl⟩
          simp only [stagesPipeline, hVertText, hFragText]
      | some f =>
          have hVertComp := hVert.compiled v.1 v.2 hVertText
          have hFragComp := hFrag.compiled f.1 f.2 hFragText
          have hPipeline :
              stagesPipeline host gpu.shaderMgr region
                  gpu.tracker.state =
                pairPipeline host v.2 f.2 := by
            simp only [stagesPipeline, hVertText, hFragText]
          rcases usePipeline_cases gpu hVertComp hFragComp with
            ⟨hEntries, hReturn, hRenderer⟩
          rw [← hPipeline] at hReturn hRenderer
          refine ⟨hTexts.trans ?_, ?_⟩
          · intro sh _ _
            exact storedText_congr (hEntries _)
          · split_ifs at hRenderer with hSome
            · exact .compiled _ _ hSome
                ⟨⟨v.1, v.2, hVertText, hVertComp⟩,
                  ⟨f.1, f.2, hFragText, hFragComp⟩⟩
                (hReturn.trans hSome) hRenderer
            · refine .failed ?_ ?_ hRenderer
              · exact Option.not_isSome_iff_eq_none.mp hSome
              · rw [hReturn]
                exact Bool.eq_false_iff.mpr hSome

/- What a compile of the registers can do. -/
inductive CompileOutcome
    (host : MetalHost)
    (gpu : Gpu)
    (out : Bool × Gpu) : Prop where
  | skipped
      (hSkip : gpu.tracker.state.programRegion = 0 ∨
        gpu.renderer.shadersUnchanged gpu.tracker.state =
            false ∧
          gpu.memory.pointer gpu.tracker.state.programRegion =
            none)
      (hOut : out = (false, gpu))
  | unchanged
      (hNonzero : gpu.tracker.state.programRegion ≠ 0)
      (hSame : gpu.renderer.shadersUnchanged
        gpu.tracker.state = true)
      (hOut : out = (true, gpu))
  | stages
      (region : Nat → U8)
      (hNonzero : gpu.tracker.state.programRegion ≠ 0)
      (hRegion : gpu.memory.pointer
        gpu.tracker.state.programRegion = some region)
      (hChanged : gpu.renderer.shadersUnchanged
        gpu.tracker.state = false)
      (hOut : out = compileStages host gpu region)

theorem compilePipeline_cases
    (host : MetalHost)
    (gpu : Gpu) :
    CompileOutcome host gpu (compilePipeline host gpu) := by
  unfold compilePipeline
  dsimp only
  split_ifs with hZero hSame
  · exact .skipped (Or.inl hZero) rfl
  · exact .unchanged hZero hSame rfl
  · cases hRegion :
        gpu.memory.pointer gpu.tracker.state.programRegion with
    | none =>
        exact .skipped
          (Or.inr ⟨Bool.eq_false_iff.mpr hSame, hRegion⟩) rfl
    | some region =>
        exact .stages region hZero hRegion
          (Bool.eq_false_iff.mpr hSame) rfl

------
-- Compiling Again
------

open ShaderManager

/- A compile would leave the renderer as it is. -/
def Settled (host : MetalHost) (gpu : Gpu) : Prop :=
  gpu.tracker.state.programRegion = 0 ∨
    gpu.memory.pointer gpu.tracker.state.programRegion =
      none ∨
    gpu.renderer.shadersUnchanged gpu.tracker.state = true ∨
    ∃ region,
      gpu.memory.pointer gpu.tracker.state.programRegion =
          some region ∧
        stagesPipeline host gpu.shaderMgr region
          gpu.tracker.state = none

theorem stagesPipeline_congr
    {mgr mgr' : ShaderManager}
    {s : GpuState3D}
    (hSame : SameTexts host (some region) (stages s) mgr mgr') :
    stagesPipeline host mgr' region s =
      stagesPipeline host mgr region s := by
  unfold stagesPipeline
  rw [firstText_congr hSame (vertexStages s)
      (fun sh hSh => List.mem_append_left _ hSh),
    firstText_congr hSame (fragmentStages s)
      (fun sh hSh => List.mem_append_right _ hSh)]

/- A compile returns true when it leaves current shaders. -/
theorem compilePipeline_returns
    (hSep : KeysSeparate (stages gpu.tracker.state)) :
    (compilePipeline host gpu).1 = true ↔
      gpu.tracker.state.programRegion ≠ 0 ∧
        (compilePipeline host
          gpu).2.renderer.shadersUnchanged
            gpu.tracker.state = true := by
  cases compilePipeline_cases host gpu with
  | skipped hSkip hOut =>
      rw [hOut]
      refine ⟨fun hFalse => absurd hFalse Bool.false_ne_true, ?_⟩
      rintro ⟨hNonzero, hSame⟩
      rcases hSkip with hZero | ⟨hChanged, _⟩
      · exact absurd hZero hNonzero
      · rw [hChanged] at hSame
        cases hSame
  | unchanged hNonzero hSame hOut =>
      rw [hOut]
      exact ⟨fun _ => ⟨hNonzero, hSame⟩, fun _ => rfl⟩
  | stages region hNonzero _ hChanged hOut =>
      rw [hOut]
      rcases compileStages_cases host region hSep with
          ⟨_, hCases⟩
      cases hCases with
      | failed _ hReturn hKept =>
          rw [hReturn, hKept, hChanged]
          simp
      | compiled vert frag _ _ hReturn hRenderer =>
          rw [hReturn, hRenderer]
          refine ⟨fun _ => ⟨hNonzero, ?_⟩, fun _ => rfl⟩
          simp [MetalRenderer.shadersUnchanged,
            compiledRenderer]

/- Behind a compile there is nothing left to compile. -/
theorem settled_compilePipeline
    (hSep : KeysSeparate (stages gpu.tracker.state)) :
    Settled host (compilePipeline host gpu).2 := by
  cases compilePipeline_cases host gpu with
  | skipped hSkip hOut =>
      rw [hOut]
      rcases hSkip with hZero | ⟨_, hNone⟩
      · exact Or.inl hZero
      · exact Or.inr (Or.inl hNone)
  | unchanged _ hSame hOut =>
      rw [hOut]
      exact Or.inr (Or.inr (Or.inl hSame))
  | stages region _ hRegion _ hOut =>
      have hFrame := sameFrame_compilePipeline host gpu
      rw [hOut] at hFrame ⊢
      unfold Settled
      rw [hFrame.tracker, hFrame.memory]
      rcases compileStages_cases host region hSep with
          ⟨hTexts, hCases⟩
      cases hCases with
      | failed hNone _ _ =>
          refine Or.inr (Or.inr (Or.inr ⟨region, hRegion, ?_⟩))
          rw [stagesPipeline_congr hTexts, hNone]
      | compiled vert frag _ _ _ hRenderer =>
          refine Or.inr (Or.inr (Or.inl ?_))
          rw [hRenderer]
          simp [MetalRenderer.shadersUnchanged,
            compiledRenderer]

theorem Settled.again
    (hSep : KeysSeparate (stages gpu.tracker.state))
    (hSettled : Settled host gpu) :
    (compilePipeline host gpu).2.renderer = gpu.renderer := by
  cases compilePipeline_cases host gpu with
  | skipped _ hOut => rw [hOut]
  | unchanged _ _ hOut => rw [hOut]
  | stages region hNonzero hRegion hChanged hOut =>
      rw [hOut]
      rcases compileStages_cases host region hSep with
          ⟨_, hCases⟩
      cases hCases with
      | failed _ _ hKept => exact hKept
      | compiled _ _ hSome _ _ _ =>
          rcases hSettled with hZero | hNone | hSame | hFail
          · exact absurd hZero hNonzero
          · rw [hNone] at hRegion
            cases hRegion
          · rw [hSame] at hChanged
            cases hChanged
          · rcases hFail with ⟨region', hRegion', hFail⟩
            rw [hRegion] at hRegion'
            cases hRegion'
            rw [hFail] at hSome
            cases hSome

end Gpu

end M1Switch
