import M1Switch.Gpu.Shader.ShaderManager

/-
  What the shader manager's caches hold.

  A call returns the text stored for the shader, or makes one
  from its bytes.  Where the cached programs are those of the
  region, this is the text the region's bytes compile to.

  Key definitions include:
    * `compiledText`
    * `storedText`

  Main results:
    * `storedText_compileShader`
    * `storedText_of_coherent`
    * `derived_compileShader`
-/

------
-- What A Shader Compiles To
------

namespace M1Switch

namespace ShaderManager

/- The text of a program, if it compiles. -/
def programText
    (host : MetalHost)
    (prog : ShaderProgram) : Option String :=
  let msl := (crossCompile host prog).mslSource
  if msl = "" ∨ (compileMSL host msl).toOption.isSome then
    some msl
  else none

/- The text of a shader, from its bytes and no cache. -/
def compiledText
    (host : MetalHost)
    (raw : List U8)
    (sh : ShaderState) : Option String :=
  if raw = [] then none
  else (decodeShader raw sh).bind (programText host)

/- The text the manager has or makes for a shader. -/
def storedText
    (host : MetalHost)
    (mgr : ShaderManager)
    (region : Option (Nat → U8))
    (sh : ShaderState)
    (size : Nat := regionSize) : Option String :=
  match mgr.cache.findCompiled (hashKey sh) with
  | some c => some c.mslSource
  | none =>
      match mgr.cache.findDecoded (hashKey sh) with
      | some prog => programText host prog
      | none =>
          compiledText host (rawShader region sh size) sh

/- A result holding a text and no function of another. -/
structure IsCompilation
    (host : MetalHost)
    (sh : ShaderState)
    (msl : String)
    (r : ShaderCompileResult) : Prop where
  success : r.success = true
  stage : r.stage = stageOf sh
  hash : r.hash = hashKey sh
  mslSource : r.mslSource = msl
  vertexFunction :
    ∀ f, r.vertexFunction = some f →
      compileMSL host msl = .ok f
  fragmentFunction :
    ∀ f, r.fragmentFunction = some f →
      compileMSL host msl = .ok f

variable {host : MetalHost} {mgr : ShaderManager}
variable {region : Option (Nat → U8)} {size : Nat}
variable {sh sh' : ShaderState} {msl : String}
variable {r : ShaderCompileResult} {prog : ShaderProgram}

theorem ok_of_toOption
    {x : Except String MTLFunction}
    {f : MTLFunction}
    (hX : x.toOption = some f) :
    x = .ok f := by
  cases x with
  | error msg => cases hX
  | ok g =>
      cases hX
      rfl

/- Setting the function of the text keeps a compilation. -/
theorem IsCompilation.setFunction
    {func : Option MTLFunction}
    (hR : IsCompilation host sh msl r)
    (hFunc :
      ∀ f, func = some f → compileMSL host msl = .ok f) :
    IsCompilation host sh msl (setFunction r func) := by
  unfold ShaderManager.setFunction
  split_ifs
  · exact { hR with fragmentFunction := hFunc }
  · exact { hR with vertexFunction := hFunc }

/- A cache hit is a compilation of the cached text. -/
theorem isCompilation_cachedResult
    (cached : CompiledShader) :
    IsCompilation host sh cached.mslSource
      (cachedResult host sh cached) := by
  have hBase :
      IsCompilation host sh cached.mslSource
        { success := true
          hash := hashKey sh
          stage := stageOf sh
          mslSource := cached.mslSource
          spirvWordCount := cached.spirvBinary.length } := by
    refine ⟨rfl, rfl, rfl, rfl, ?_, ?_⟩
    · intro f hF
      cases hF
    · intro f hF
      cases hF
  unfold cachedResult
  dsimp only
  split_ifs
  · exact hBase.setFunction fun f => ok_of_toOption
  · exact hBase

/- Compiling a program gives its text, or fails. -/
theorem compileProgram_cases
    (host : MetalHost)
    (mgr : ShaderManager)
    (sh : ShaderState)
    (prog : ShaderProgram) :
    (∃ msl, programText host prog = some msl ∧
      msl = (crossCompile host prog).mslSource ∧
      IsCompilation host sh msl
        (compileProgram host mgr sh prog).1 ∧
      (compileProgram host mgr sh prog).2.cache =
        mgr.cache.storeCompiled (hashKey sh)
          (crossCompile host prog)) ∨
    (programText host prog = none ∧
      (compileProgram host mgr sh prog).1.success = false ∧
      (compileProgram host mgr sh prog).2 = mgr) := by
  unfold compileProgram programText
  dsimp only
  cases hMsl :
      compileMSL host (crossCompile host prog).mslSource with
  | error msg =>
      by_cases hEmpty :
          (crossCompile host prog).mslSource = ""
      · refine Or.inl ⟨_, if_pos (Or.inl hEmpty), rfl, ?_, ?_⟩
        · simp only [if_pos hEmpty]
          refine ⟨rfl, rfl, rfl, hEmpty.symm, ?_, ?_⟩
          · intro f hF
            cases hF
          · intro f hF
            cases hF
        · simp only [if_pos hEmpty]
      · refine Or.inr ⟨?_, ?_, ?_⟩
        · rw [if_neg]
          intro hOr
          rcases hOr with hOr | hOr
          · exact hEmpty hOr
          · cases hOr
        · simp only [if_neg hEmpty]
        · simp only [if_neg hEmpty]
  | ok func =>
      refine Or.inl ⟨_, if_pos (Or.inr rfl), rfl, ?_, rfl⟩
      apply IsCompilation.setFunction
      · refine ⟨rfl, rfl, rfl, rfl, ?_, ?_⟩
        · intro f hF
          cases hF
        · intro f hF
          cases hF
      · intro f hF
        cases hF
        exact hMsl

/- A shader the compile loop asks for. -/
def Requested (sh : ShaderState) : Prop :=
  sh.enabled = true ∧ sh.offset ≠ 0

instance (sh : ShaderState) : Decidable (Requested sh) :=
  inferInstanceAs (Decidable (_ ∧ _))

------
-- One Call And Its Caches
------

/- The entries of a key agree. -/
def SameEntries
    (mgr mgr' : ShaderManager)
    (key : U64) : Prop :=
  mgr'.cache.decoded key = mgr.cache.decoded key ∧
    mgr'.cache.compiled key = mgr.cache.compiled key

theorem storedText_congr
    {mgr' : ShaderManager}
    (hSame : SameEntries mgr mgr' (hashKey sh)) :
    storedText host mgr' region sh size =
      storedText host mgr region sh size := by
  unfold storedText ShaderCache.findCompiled
    ShaderCache.findDecoded
  rw [hSame.1, hSame.2]

/- A stored compilation is found again. -/
theorem storedText_of_storeCompiled
    {mgr' : ShaderManager}
    (hCache :
      mgr'.cache = mgr.cache.storeCompiled (hashKey sh)
        (crossCompile host prog)) :
    storedText host mgr' region sh size =
      some (crossCompile host prog).mslSource := by
  unfold storedText ShaderCache.findCompiled
  rw [hCache]
  simp [ShaderCache.storeCompiled, crossCompile]

/- The text of a shader known to be decoded only. -/
theorem storedText_of_decoded
    (hNone : mgr.cache.findCompiled (hashKey sh) = none)
    (hProg : mgr.cache.decoded (hashKey sh) = some prog) :
    storedText host mgr region sh size =
      programText host prog := by
  unfold storedText
  rw [hNone]
  simp only [ShaderCache.findDecoded, hProg]

theorem storedText_of_unknown
    (hNone : mgr.cache.findCompiled (hashKey sh) = none)
    (hProg : mgr.cache.decoded (hashKey sh) = none) :
    storedText host mgr region sh size =
      compiledText host (rawShader region sh size) sh := by
  unfold storedText
  rw [hNone]
  simp only [ShaderCache.findDecoded, hProg]

/-
  What one call returns and stores: the stored text, which
  stays the stored text of the shader, and nothing under
  another key.
-/
structure CallSpec
    (host : MetalHost)
    (mgr : ShaderManager)
    (region : Option (Nat → U8))
    (sh : ShaderState)
    (size : Nat)
    (r : ShaderCompileResult)
    (mgr' : ShaderManager) : Prop where
  compiled :
    ∀ msl, storedText host mgr region sh size = some msl →
      IsCompilation host sh msl r
  failed :
    storedText host mgr region sh size = none →
      r.success = false
  again :
    storedText host mgr' region sh size =
      storedText host mgr region sh size
  others :
    ∀ key, key ≠ hashKey sh → SameEntries mgr mgr' key

/- A decoded program without a compiled text. -/
theorem callSpec_compileProgram
    (hNone : mgr.cache.findCompiled (hashKey sh) = none)
    (hProg : mgr.cache.decoded (hashKey sh) = some prog) :
    CallSpec host mgr region sh size
      (compileProgram host mgr sh prog).1
      (compileProgram host mgr sh prog).2 := by
  have hText : storedText host mgr region sh size =
      programText host prog :=
    storedText_of_decoded hNone hProg
  rcases compileProgram_cases host mgr sh prog with
    ⟨m, hM, hMsl, hComp, hCache⟩ | ⟨hM, hFail, hSame⟩
  · refine ⟨?_, ?_, ?_, ?_⟩
    · intro msl hStored
      rw [hText, hM] at hStored
      cases hStored
      exact hComp
    · intro hStored
      rw [hText, hM] at hStored
      cases hStored
    · rw [storedText_of_storeCompiled hCache, hText, hM, hMsl]
    · intro key hKey
      rw [SameEntries, hCache]
      exact ⟨rfl, Function.update_of_ne hKey _ _⟩
  · rw [hSame]
    refine ⟨?_, fun _ => hFail, rfl, fun _ _ => ⟨rfl, rfl⟩⟩
    intro msl hStored
    rw [hText, hM] at hStored
    cases hStored

/- A call that finds no text and stores nothing. -/
theorem callSpec_failed
    (hText : storedText host mgr region sh size = none)
    (hFail : r.success = false) :
    CallSpec host mgr region sh size r mgr := by
  refine ⟨?_, fun _ => hFail, rfl, fun _ _ => ⟨rfl, rfl⟩⟩
  intro msl hStored
  rw [hText] at hStored
  cases hStored

/- A program is stored under its shader's key. -/
theorem hash_decodeShader
    {raw : List U8}
    (hDecoded : decodeShader raw sh = some prog) :
    prog.hash = hashKey sh := by
  unfold decodeShader at hDecoded
  rcases Option.map_eq_some_iff.mp hDecoded with
    ⟨decoded, _, hProg⟩
  rw [← hProg]

/- Compilation right behind decoding. -/
theorem callSpec_storeDecoded
    (host : MetalHost)
    (hNone : mgr.cache.findCompiled (hashKey sh) = none)
    (hHash : prog.hash = hashKey sh)
    (region : Option (Nat → U8))
    (size : Nat)
    (hText :
      storedText host mgr region sh size =
        programText host prog) :
    CallSpec host mgr region sh size
      (compileProgram host
        { mgr with cache := mgr.cache.storeDecoded prog }
        sh prog).1
      (compileProgram host
        { mgr with cache := mgr.cache.storeDecoded prog }
        sh prog).2 := by
  have hProg :
      (mgr.cache.storeDecoded prog).decoded (hashKey sh) =
        some prog := by
    simp [ShaderCache.storeDecoded, hHash]
  have hFirst :
      storedText host
          { mgr with cache := mgr.cache.storeDecoded prog }
          region sh size =
        storedText host mgr region sh size := by
    rw [hText]
    exact storedText_of_decoded hNone hProg
  have hSpec : CallSpec host
      { mgr with cache := mgr.cache.storeDecoded prog }
      region sh size _ _ :=
    callSpec_compileProgram hNone hProg
  refine ⟨?_, ?_, ?_, ?_⟩
  · intro msl hStored
    exact hSpec.compiled msl (hFirst.trans hStored)
  · intro hStored
    exact hSpec.failed (hFirst.trans hStored)
  · exact hSpec.again.trans hFirst
  · intro key hKey
    rcases hSpec.others key hKey with ⟨hDec, hComp⟩
    refine ⟨hDec.trans ?_, hComp⟩
    have hNe : key ≠ prog.hash := by
      rw [hHash]
      exact hKey
    exact Function.update_of_ne hNe _ _

/- A call for a requested shader. -/
theorem callSpec_compileShader
    (hReq : Requested sh) :
    CallSpec host mgr region sh size
      (compileShader host mgr region sh size).1
      (compileShader host mgr region sh size).2 := by
  have hGuard : ¬ (!sh.enabled ∨ sh.offset = 0) := by
    intro hOr
    rcases hOr with hOff | hZero
    · rw [hReq.1] at hOff
      cases hOff
    · exact hReq.2 hZero
  unfold compileShader
  simp only [if_neg hGuard]
  cases hFound : mgr.cache.findCompiled (hashKey sh) with
  | some cached =>
      have hText : storedText host mgr region sh size =
          some cached.mslSource := by
        simp only [storedText, hFound]
      refine ⟨?_, ?_, rfl, fun _ _ => ⟨rfl, rfl⟩⟩
      · intro msl hStored
        rw [hText] at hStored
        cases hStored
        exact isCompilation_cachedResult cached
      · intro hStored
        rw [hText] at hStored
        cases hStored
  | none =>
      unfold findOrDecode
      cases hProg : mgr.cache.decoded (hashKey sh) with
      | some prog =>
          simp only [ShaderCache.findDecoded, hProg]
          exact callSpec_compileProgram hFound hProg
      | none =>
          have hText : storedText host mgr region sh size =
              compiledText host (rawShader region sh size) sh :=
            storedText_of_unknown hFound hProg
          simp only [ShaderCache.findDecoded, hProg]
          by_cases hRaw : rawShader region sh size = []
          · simp only [if_pos hRaw]
            refine callSpec_failed ?_ rfl
            rw [hText, compiledText, if_pos hRaw]
          · simp only [if_neg hRaw]
            cases hDecoded :
                decodeShader (rawShader region sh size) sh with
            | none =>
                refine callSpec_failed ?_ rfl
                rw [hText, compiledText, if_neg hRaw,
                  hDecoded]
                rfl
            | some prog =>
                have hSpec :=
                  callSpec_storeDecoded host hFound
                    (hash_decodeShader hDecoded)
                refine hSpec region size ?_
                rw [hText, compiledText, if_neg hRaw,
                  hDecoded]
                rfl

/- The next text of any shader is what it was before. -/
theorem storedText_compileShader
    (hReq : Requested sh)
    (hKey : hashKey sh' = hashKey sh → sh' = sh) :
    storedText host (compileShader host mgr region sh size).2
        region sh' size =
      storedText host mgr region sh' size := by
  have hSpec : CallSpec host mgr region sh size
      (compileShader host mgr region sh size).1
      (compileShader host mgr region sh size).2 :=
    callSpec_compileShader hReq
  by_cases hEq : hashKey sh' = hashKey sh
  · rw [hKey hEq]
    exact hSpec.again
  · exact storedText_congr (hSpec.others _ hEq)

------
-- Coherent Caches
------

variable {mgr mgr' : ShaderManager}

/- Compiled texts come from the programs cached with them. -/
def Derived (host : MetalHost) (mgr : ShaderManager) : Prop :=
  ∀ key c, mgr.cache.compiled key = some c →
    ∃ prog, mgr.cache.decoded key = some prog ∧
      programText host prog = some c.mslSource

/- A program cached for the shader is in the region now. -/
def Coherent
    (mgr : ShaderManager)
    (region : Option (Nat → U8))
    (sh : ShaderState)
    (size : Nat := regionSize) : Prop :=
  ∀ prog, mgr.cache.decoded (hashKey sh) = some prog →
    rawShader region sh size ≠ [] ∧
      decodeShader (rawShader region sh size) sh = some prog

theorem derived_empty : Derived host {} := by
  intro key c hC
  cases hC

theorem derived_invalidateCache :
    Derived host invalidateCache :=
  derived_empty

/- Coherent caches hold what the region compiles to. -/
theorem storedText_of_coherent
    (hDerived : Derived host mgr)
    (hCoherent : Coherent mgr region sh size) :
    storedText host mgr region sh size =
      compiledText host (rawShader region sh size) sh := by
  have hDecoded :
      ∀ prog, mgr.cache.decoded (hashKey sh) = some prog →
        compiledText host (rawShader region sh size) sh =
          programText host prog := by
    intro prog hProg
    rcases hCoherent prog hProg with ⟨hRaw, hDecode⟩
    rw [compiledText, if_neg hRaw, hDecode]
    rfl
  cases hFound : mgr.cache.findCompiled (hashKey sh) with
  | some cached =>
      have hCached :
          mgr.cache.compiled (hashKey sh) = some cached := by
        unfold ShaderCache.findCompiled at hFound
        cases hC : mgr.cache.compiled (hashKey sh) with
        | none => simp [hC] at hFound
        | some c =>
            simp only [hC] at hFound
            split_ifs at hFound
            exact hFound
      rcases hDerived _ _ hCached with ⟨prog, hProg, hText⟩
      rw [hDecoded prog hProg, hText]
      simp only [storedText, hFound]
  | none =>
      cases hProg : mgr.cache.decoded (hashKey sh) with
      | some prog =>
          rw [hDecoded prog hProg]
          exact storedText_of_decoded hFound hProg
      | none => exact storedText_of_unknown hFound hProg

/- A text stored with its program. -/
theorem derived_storeCompiled
    {key : U64}
    (hDerived : Derived host mgr)
    (hProg : mgr.cache.decoded key = some prog)
    (hText :
      programText host prog =
        some (crossCompile host prog).mslSource)
    (hCache :
      mgr'.cache =
        mgr.cache.storeCompiled key
          (crossCompile host prog)) :
    Derived host mgr' := by
  intro k c hC
  rw [hCache] at hC ⊢
  by_cases hK : k = key
  · subst hK
    simp only [ShaderCache.storeCompiled,
      Function.update_self] at hC
    cases hC
    exact ⟨prog, hProg, hText⟩
  · simp only [ShaderCache.storeCompiled,
      Function.update_of_ne hK] at hC
    exact hDerived k c hC

/- Compiling a cached program adds its text only. -/
theorem derived_compileProgram
    (hDerived : Derived host mgr)
    (hProg : mgr.cache.decoded (hashKey sh) = some prog) :
    Derived host (compileProgram host mgr sh prog).2 := by
  rcases compileProgram_cases host mgr sh prog with
    ⟨m, hM, hMsl, _, hCache⟩ | ⟨_, _, hSame⟩
  · rw [hMsl] at hM
    exact derived_storeCompiled hDerived hProg hM hCache
  · rw [hSame]
    exact hDerived

/- A program just decoded has no text yet. -/
theorem derived_storeDecoded
    (hDerived : Derived host mgr)
    (hNone : mgr.cache.decoded prog.hash = none) :
    Derived host
      { mgr with cache := mgr.cache.storeDecoded prog } := by
  intro key c hC
  rcases hDerived key c hC with ⟨p, hP, hText⟩
  refine ⟨p, ?_, hText⟩
  have hNe : key ≠ prog.hash := by
    intro hEq
    rw [hEq, hNone] at hP
    cases hP
  exact (Function.update_of_ne hNe _ _).trans hP

theorem derived_compileShader
    (hDerived : Derived host mgr) :
    Derived host
      (compileShader host mgr region sh size).2 := by
  unfold compileShader
  dsimp only
  split_ifs with hGuard
  · exact hDerived
  cases hFound : mgr.cache.findCompiled (hashKey sh) with
  | some cached => exact hDerived
  | none =>
      unfold findOrDecode
      cases hProg : mgr.cache.decoded (hashKey sh) with
      | some prog =>
          simp only [ShaderCache.findDecoded, hProg]
          exact derived_compileProgram hDerived hProg
      | none =>
          simp only [ShaderCache.findDecoded, hProg]
          by_cases hRaw : rawShader region sh size = []
          · simp only [if_pos hRaw]
            exact hDerived
          · simp only [if_neg hRaw]
            cases hDecoded :
                decodeShader (rawShader region sh size) sh with
            | none => exact hDerived
            | some prog =>
                have hHash := hash_decodeShader hDecoded
                apply derived_compileProgram
                · apply derived_storeDecoded hDerived
                  rw [hHash]
                  exact hProg
                · simp [ShaderCache.storeDecoded, hHash]

end ShaderManager

end M1Switch
