import M1Switch.Gpu.Shader.ShaderManager.Caches
import M1Switch.Library.EventRun

/-
  Shader compilation while the guest rewrites its programs.

  Both caches are keyed by offset and stage.  The guest may
  rewrite the program region and move it, which the caches do
  not see: a call returns the text of the bytes its program
  was decoded from, not of those in the region now.

  Key definitions include:
    * `ShaderManager.World`
    * `step`

  Main results:
    * `decoded_compileShader`
    * `recorded_run`
    * `compileShader_current`
-/

------
-- What A Call Decodes
------

namespace M1Switch

namespace ShaderManager

variable {host : MetalHost} {mgr : ShaderManager}
variable {region : Option (Nat → U8)} {size : Nat}
variable {sh : ShaderState}

theorem decoded_compileProgram
    (prog : ShaderProgram) :
    (compileProgram host mgr sh prog).2.cache.decoded =
      mgr.cache.decoded := by
  rcases compileProgram_cases host mgr sh prog with
    ⟨_, _, _, _, hCache⟩ | ⟨_, _, hSame⟩
  · rw [hCache]
    rfl
  · rw [hSame]

/-
  A call keeps the cached programs, or adds the one that the
  region's bytes decode to where there was none.
-/
theorem decoded_compileShader
    (host : MetalHost)
    (mgr : ShaderManager)
    (region : Option (Nat → U8))
    (sh : ShaderState)
    (size : Nat) :
    (compileShader host mgr region sh size).2.cache.decoded =
        mgr.cache.decoded ∨
      (∃ prog,
        mgr.cache.decoded (hashKey sh) = none ∧
          rawShader region sh size ≠ [] ∧
            decodeShader (rawShader region sh size) sh =
                some prog ∧
              (compileShader host mgr region sh
                  size).2.cache.decoded =
                Function.update mgr.cache.decoded (hashKey sh)
                  (some prog)) := by
  unfold compileShader
  dsimp only
  split_ifs with hGuard
  · exact Or.inl rfl
  cases hFound : mgr.cache.findCompiled (hashKey sh) with
  | some cached => exact Or.inl rfl
  | none =>
      unfold findOrDecode
      cases hProg : mgr.cache.decoded (hashKey sh) with
      | some prog =>
          simp only [ShaderCache.findDecoded, hProg]
          exact Or.inl (decoded_compileProgram prog)
      | none =>
          simp only [ShaderCache.findDecoded, hProg]
          by_cases hRaw : rawShader region sh size = []
          · simp only [if_pos hRaw]
            exact Or.inl trivial
          · simp only [if_neg hRaw]
            cases hDecoded :
                decodeShader (rawShader region sh size) sh with
            | none => exact Or.inl rfl
            | some prog =>
                refine Or.inr ⟨prog, trivial, hRaw, rfl, ?_⟩
                simp only [decoded_compileProgram,
                  ShaderCache.storeDecoded,
                  hash_decodeShader hDecoded]

/- Only requested shaders are compiled. -/
theorem requested_of_success
    (hSuccess :
      (compileShader host mgr region sh size).1.success =
        true) :
    Requested sh := by
  by_contra hReq
  have hGuard : !sh.enabled ∨ sh.offset = 0 := by
    by_contra hOr
    rcases not_or.mp hOr with ⟨hOn, hZero⟩
    exact hReq ⟨by simpa using hOn, hZero⟩
  unfold compileShader at hSuccess
  simp only [if_pos hGuard] at hSuccess
  cases hSuccess

/- What is decoded depends on the offset and the stage. -/
theorem decodeShader_congr
    {sh' : ShaderState}
    (hOffset : sh'.offset = sh.offset)
    (hStage : sh'.stageId = sh.stageId)
    (raw : List U8) :
    decodeShader raw sh' = decodeShader raw sh := by
  unfold decodeShader hashKey stageOf
  rw [hOffset, hStage]

end ShaderManager

------
-- Calls And Rewrites
------

namespace ShaderManager

/-
  The manager and the memory it reads.  `origin` records what
  the cached program of a key was decoded from; no step of the
  code reads it.
-/
structure World where
  mgr : ShaderManager
  memory : Nat → U8
  -- the pointer `program_region`
  programRegion : Option Nat
  origin : U64 → Option (List U8 × ShaderState)

inductive WorldEvent where
  | compileShader (size : Nat) (sh : ShaderState)
  | rewrite (memory : Nat → U8)
  | setProgramRegion (programRegion : Option Nat)

namespace World

variable {host : MetalHost} {w : World}

/- The bytes behind the pointer. -/
def region (w : World) : Option (Nat → U8) :=
  w.programRegion.map fun base i => w.memory (base + i)

/- What a call returns, and the manager it leaves. -/
def call
    (host : MetalHost)
    (w : World)
    (size : Nat)
    (sh : ShaderState) :
    ShaderCompileResult × ShaderManager :=
  w.mgr.compileShader host w.region sh size

def step (host : MetalHost) (w : World) : WorldEvent → World
| .compileShader size sh =>
    let mgr := (call host w size sh).2
    { w with
      mgr := mgr
      origin :=
        if (w.mgr.cache.decoded (hashKey sh)).isNone ∧
            (mgr.cache.decoded (hashKey sh)).isSome then
          Function.update w.origin (hashKey sh)
            (some (rawShader w.region sh size, sh))
        else w.origin }
| .rewrite memory => { w with memory := memory }
| .setProgramRegion programRegion =>
    { w with programRegion := programRegion }

def start
    (memory : Nat → U8)
    (programRegion : Option Nat) : World :=
  { mgr := {}
    memory := memory
    programRegion := programRegion
    origin := fun _ => none }

/- Every cached program is decoded from what is recorded. -/
def Recorded (w : World) : Prop :=
  ∀ key prog, w.mgr.cache.decoded key = some prog →
    ∃ raw sh,
      w.origin key = some (raw, sh) ∧ raw ≠ [] ∧
        decodeShader raw sh = some prog

/-
  Where a program is cached for the key of a call that is not
  rejected, it was decoded for this offset and stage from the
  bytes that are there now.
-/
def Unstale (w : World) : WorldEvent → Prop
| .compileShader size sh =>
    Requested sh →
      ∀ raw sh', w.origin (hashKey sh) = some (raw, sh') →
        raw = rawShader w.region sh size ∧
          sh'.offset = sh.offset ∧ sh'.stageId = sh.stageId
| _ => True

/- The call returns the compilation of the present bytes. -/
def Current
    (host : MetalHost)
    (w : World)
    (size : Nat)
    (sh : ShaderState) : Prop :=
  (call host w size sh).1.success = true →
    ∃ msl,
      compiledText host (rawShader w.region sh size) sh =
          some msl ∧
        IsCompilation host sh msl (call host w size sh).1

theorem recorded_step
    (hRecorded : Recorded w)
    (e : WorldEvent) :
    Recorded (w.step host e) := by
  cases e with
  | rewrite memory => exact hRecorded
  | setProgramRegion base => exact hRecorded
  | compileShader size sh =>
      intro key prog hProg
      simp only [step] at hProg ⊢
      rcases decoded_compileShader host w.mgr w.region sh size
        with hSame | ⟨new, hNone, hRaw, hDecoded, hNew⟩
      · have hOld : w.mgr.cache.decoded key = some prog := by
          rw [← hSame]
          exact hProg
        rw [call, hSame, if_neg]
        · exact hRecorded key prog hOld
        · rintro ⟨hIsNone, hIsSome⟩
          rw [Option.isNone_iff_eq_none.mp hIsNone] at hIsSome
          cases hIsSome
      · -- The new program is recorded with its bytes.
        rw [call, hNew] at hProg ⊢
        rw [hNone, Function.update_self, if_pos ⟨rfl, rfl⟩]
        by_cases hKey : key = hashKey sh
        · subst hKey
          rw [Function.update_self] at hProg ⊢
          cases hProg
          exact ⟨_, sh, rfl, hRaw, hDecoded⟩
        · rw [Function.update_of_ne hKey] at hProg ⊢
          exact hRecorded key prog hProg

theorem derived_step
    (hDerived : Derived host w.mgr)
    (e : WorldEvent) :
    Derived host (w.step host e).mgr := by
  cases e with
  | rewrite memory => exact hDerived
  | setProgramRegion base => exact hDerived
  | compileShader size sh =>
      exact derived_compileShader hDerived

/- What holds behind every run, whatever the guest does. -/
theorem recorded_run
    (host : MetalHost)
    (memory : Nat → U8)
    (programRegion : Option Nat)
    (events : List WorldEvent) :
    Recorded
        (EventRun.stateAfter (step host)
          (start memory programRegion) events) ∧
      Derived host
        (EventRun.stateAfter (step host)
          (start memory programRegion) events).mgr := by
  refine EventRun.invariant
    (I := fun _ w => Recorded w ∧ Derived host w.mgr) ?_ ?_
    events
  · refine ⟨?_, derived_empty⟩
    intro key prog hProg
    cases hProg
  · rintro before e ⟨hRecorded, hDerived⟩
    exact ⟨recorded_step hRecorded e, derived_step hDerived e⟩

/- A call that is not stale finds coherent caches. -/
theorem Recorded.coherent
    {size : Nat}
    {sh : ShaderState}
    (hRecorded : Recorded w)
    (hUnstale : w.Unstale (.compileShader size sh))
    (hReq : Requested sh) :
    Coherent w.mgr w.region sh size := by
  intro prog hProg
  rcases hRecorded _ prog hProg with
    ⟨raw, sh', hOrigin, hRaw, hDecoded⟩
  rcases hUnstale hReq raw sh' hOrigin with
    ⟨hEq, hOffset, hStage⟩
  rw [← hEq, ← decodeShader_congr hOffset hStage]
  exact ⟨hRaw, hDecoded⟩

theorem Recorded.current
    {size : Nat}
    {sh : ShaderState}
    (hRecorded : Recorded w)
    (hDerived : Derived host w.mgr)
    (hUnstale : w.Unstale (.compileShader size sh)) :
    Current host w size sh := by
  intro hSuccess
  have hReq := requested_of_success hSuccess
  have hSpec :
      CallSpec host w.mgr w.region sh size
        (call host w size sh).1 (call host w size sh).2 :=
    callSpec_compileShader hReq
  have hText :=
    storedText_of_coherent hDerived
      (hRecorded.coherent hUnstale hReq)
  cases hCompiled :
      compiledText host (rawShader w.region sh size) sh with
  | none =>
      rw [hSpec.failed (hText.trans hCompiled)] at hSuccess
      cases hSuccess
  | some msl =>
      exact ⟨msl, rfl, hSpec.compiled msl
        (hText.trans hCompiled)⟩

/-
  In every run without a stale call, every successful call
  returns the compilation of the bytes it finds.
-/
theorem compileShader_current
    (host : MetalHost)
    (memory : Nat → U8)
    (programRegion : Option Nat)
    (events : List WorldEvent)
    (hUnstale :
      EventRun.Guarded (step host) Unstale
        (start memory programRegion) events) :
    ∀ before size sh,
      before ++ [.compileShader size sh] <+: events →
        Current host
          (EventRun.stateAfter (step host)
            (start memory programRegion) before)
          size sh := by
  intro before size sh hBefore
  rcases recorded_run host memory programRegion before with
    ⟨hRecorded, hDerived⟩
  exact hRecorded.current hDerived
    (hUnstale before _ hBefore)

/- A host whose texts grow with the binaries. -/
def lengthHost : MetalHost :=
  { compilesLibrary := fun _ => true
    hasFunction := fun _ _ => true
    createsPipeline := fun _ => true
    createsTexture := fun _ => true
    createsDepthStencil := fun _ => true
    freshPass :=
      { colorAttachments := fun _ => { loadAction := .DontCare }
        depthAttachment := { loadAction := .Clear }
        stencilAttachment := { loadAction := .Clear } }
    spirvCrossToMSL := fun spirv _ =>
      "vertex main0 " ++
        String.ofList (List.replicate spirv.length '.') }

def someShader : ShaderState :=
  { offset := 8, enabled := true, stageId := 1 }

/- `EXIT` words, with another instruction at 8 or not. -/
def exitMemory (i : Nat) : U8 :=
  if i % 8 = 1 then 0x10 else 0

def faddMemory (i : Nat) : U8 :=
  if i = 8 then 0x20
  else if i = 9 then 0
  else exitMemory i

/- The region moves to equal bytes. -/
def movedRun : List WorldEvent :=
  [.compileShader 64 someShader,
    .setProgramRegion (some 16),
    .compileShader 64 someShader]

theorem movedRun_current :
    EventRun.Guarded (step lengthHost) Unstale
        (start exitMemory (some 0)) movedRun ∧
      Current lengthHost
        (EventRun.stateAfter (step lengthHost)
          (start exitMemory (some 0))
          [.compileShader 64 someShader,
            .setProgramRegion (some 16)])
        64 someShader := by
  have hOrigin :
      (EventRun.stateAfter (step lengthHost)
          (start exitMemory (some 0))
          [.compileShader 64 someShader,
            .setProgramRegion (some 16)]).origin
        (hashKey someShader) =
      some
        (rawShader
          (EventRun.stateAfter (step lengthHost)
            (start exitMemory (some 0))
            [.compileShader 64 someShader,
              .setProgramRegion (some 16)]).region
          someShader 64, someShader) := by
    decide +kernel
  have hGuarded :
      EventRun.Guarded (step lengthHost) Unstale
        (start exitMemory (some 0)) movedRun := by
    unfold movedRun
    rw [EventRun.guarded_cons, EventRun.guarded_cons,
      EventRun.guarded_cons]
    refine ⟨?_, trivial, ?_, EventRun.guarded_nil⟩
    · intro _ raw sh' hNone
      cases hNone
    · intro _ raw sh' hSome
      cases hOrigin.symm.trans hSome
      exact ⟨rfl, rfl, rfl⟩
  refine ⟨hGuarded, ?_⟩
  exact compileShader_current lengthHost exitMemory (some 0)
    movedRun hGuarded _ 64 someShader (List.prefix_refl _)

/- The guest rewrites a shader that is cached. -/
theorem rewrittenShader_not_current :
    ¬ Current lengthHost
      (EventRun.stateAfter (step lengthHost)
        (start exitMemory (some 0))
        [.compileShader 64 someShader, .rewrite faddMemory])
      64 someShader := by
  intro hCurrent
  rcases hCurrent (by decide +kernel) with ⟨msl, hText, hComp⟩
  rw [← hComp.mslSource] at hText
  revert hText
  decide +kernel

end World

end ShaderManager

end M1Switch
