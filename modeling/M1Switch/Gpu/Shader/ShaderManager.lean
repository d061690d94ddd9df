import M1Switch.Gpu.Backend.Metal
import M1Switch.Gpu.Maxwell.GpuState
import M1Switch.Gpu.Shader.MaxwellDecoder
import M1Switch.Gpu.Shader.SpirvEmitter

/-
  The shader manager: extraction, decoding, emission and
  compilation of one shader, with its caches.

  Programs and compiled shaders are cached under a key made of
  the shader's offset and stage number alone.

  Key definitions include:
    * `ShaderCache`
    * `compileShader`
-/

------
-- Shader Cache
------

namespace M1Switch

structure CompiledShader where
  hash : U64 := 0
  stage : ShaderStage := .Fragment
  valid : Bool := false
  mslSource : String := ""
  spirvBinary : List Nat := []

structure ShaderCache where
  decoded : U64 → Option ShaderProgram := fun _ => none
  compiled : U64 → Option CompiledShader := fun _ => none
  pipelines : U64 → Option MTLRenderPipelineState :=
    fun _ => none

namespace ShaderCache

variable (cache : ShaderCache)

def findDecoded (hash : U64) : Option ShaderProgram :=
  cache.decoded hash

/- Only valid entries are found. -/
def findCompiled (hash : U64) : Option CompiledShader :=
  match cache.compiled hash with
  | some c => if c.valid then some c else none
  | none => none

def storeDecoded (program : ShaderProgram) : ShaderCache :=
  { cache with
    decoded :=
      Function.update cache.decoded program.hash
        (some program) }

def storeCompiled
    (hash : U64)
    (compiled : CompiledShader) : ShaderCache :=
  { cache with
    compiled :=
      Function.update cache.compiled hash (some compiled) }

def storePipeline
    (hash : U64)
    (pipeline : MTLRenderPipelineState) : ShaderCache :=
  { cache with
    pipelines :=
      Function.update cache.pipelines hash (some pipeline) }

def clear : ShaderCache :=
  {}

end ShaderCache

------
-- Compilation Steps
------

structure ShaderCompileResult where
  success : Bool := false
  errorMsg : String := ""
  hash : U64 := 0
  stage : ShaderStage := .Fragment
  vertexFunction : Option MTLFunction := none
  fragmentFunction : Option MTLFunction := none
  pipelineState : Option MTLRenderPipelineState := none
  mslSource : String := ""
  spirvWordCount : Nat := 0
  irInstructionCount : Nat := 0

structure ShaderManager where
  cache : ShaderCache := {}

namespace ShaderManager

/- Emission on a fresh emitter, then the cross compiler. -/
def crossCompile
    (host : MetalHost)
    (program : ShaderProgram) : CompiledShader :=
  let spirv := SpirvEmitter.emit {} program
  { hash := program.hash
    stage := program.stage
    valid := true
    mslSource := host.spirvCrossToMSL spirv program.stage
    spirvBinary := spirv }

/- The entry point of a source text, whatever the stage. -/
def compileMSL
    (host : MetalHost)
    (mslSource : String) : Except String MTLFunction :=
  if mslSource = "" then
    .error "Empty MSL source"
  else if !host.compilesLibrary mslSource then
    .error "Failed to compile MSL library"
  else
    match host.newFunction mslSource "main0" with
    | none =>
        .error "Entry point 'main0' not found in MSL library"
    | some func => .ok func

/- A position and a color, 24 bytes a vertex. -/
def minimalVertexDescriptor : MTLVertexDescriptor :=
  { attributes := [⟨.Float2, 0, 0⟩, ⟨.Float4, 8, 0⟩]
    layouts :=
      Function.update (fun _ => none) 0
        (some ⟨24, .PerVertex⟩) }

/- The pipeline of two functions and nothing else. -/
def minimalPipeline
    (vertFn fragFn : MTLFunction) :
    MTLRenderPipelineDescriptor :=
  { vertexFunction := vertFn
    fragmentFunction := fragFn
    colorAttachment := { pixelFormat := .BGRA8Unorm_sRGB }
    vertexDescriptor := minimalVertexDescriptor }

def createPipeline
    (host : MetalHost)
    (vertFn fragFn : Option MTLFunction) :
    Except String MTLRenderPipelineState :=
  match vertFn, fragFn with
  | some v, some f =>
      match host.createRenderPipeline (minimalPipeline v f) with
      | some pipeline => .ok pipeline
      | none => .error "Failed to create render pipeline state"
  | _, _ => .error "Missing vertex or fragment function"

------
-- Compiling One Shader
------

/- Size of the region and of a shader in it, at most. -/
def regionSize : Nat := 16 * 1024 * 1024
def maxShaderSize : Nat := 4096

/- The key of a shader in both caches. -/
def hashKey (sh : ShaderState) : U64 :=
  sh.offset ^^^ (sh.stageId.setWidth 64 <<< 32)

/- The cast keeps the low byte of a stage number. -/
def stageOf (sh : ShaderState) : ShaderStage :=
  ShaderStage.ofCode (sh.stageId.setWidth 8).toNat

/-
  The bytes of a shader in its program region.  The renderer
  passes the same region size at every call.
-/
def rawShader
    (region : Option (Nat → U8))
    (sh : ShaderState)
    (size : Nat := regionSize) : List U8 :=
  ShaderExtract.extractShader region size
    sh.offset.toNat maxShaderSize

/- The decoded program, as it is cached. -/
def decodeShader
    (raw : List U8)
    (sh : ShaderState) : Option ShaderProgram :=
  (MaxwellDecoder.decode raw (stageOf sh)).map fun decoded =>
    { decoded with
      hash := hashKey sh
      programOffset := sh.offset.toNat % 2 ^ 32 }

/- The function goes to the slot of the stage. -/
def setFunction
    (result : ShaderCompileResult)
    (func : Option MTLFunction) : ShaderCompileResult :=
  if result.stage = .Fragment then
    { result with fragmentFunction := func }
  else
    { result with vertexFunction := func }

/- A cache hit compiles the cached text again. -/
def cachedResult
    (host : MetalHost)
    (sh : ShaderState)
    (cached : CompiledShader) : ShaderCompileResult :=
  let stage := stageOf sh
  let result : ShaderCompileResult :=
    { success := true
      hash := hashKey sh
      stage := stage
      mslSource := cached.mslSource
      spirvWordCount := cached.spirvBinary.length }
  if stage = .Fragment ∨ stage = .VertexA ∨
      stage = .VertexB then
    setFunction result (compileMSL host cached.mslSource).toOption
  else result

/- The cached program, or the one decoded now. -/
def findOrDecode
    (mgr : ShaderManager)
    (region : Option (Nat → U8))
    (sh : ShaderState)
    (size : Nat := regionSize) :
    Except String (ShaderProgram × ShaderManager) :=
  match mgr.cache.findDecoded (hashKey sh) with
  | some prog => .ok (prog, mgr)
  | none =>
      let raw := rawShader region sh size
      if raw = [] then
        .error "Failed to extract shader from guest memory"
      else
        match decodeShader raw sh with
        | none => .error "Failed to decode shader"
        | some prog =>
            .ok (prog,
              { mgr with cache := mgr.cache.storeDecoded prog })

/- Emission and compilation of a decoded program. -/
def compileProgram
    (host : MetalHost)
    (mgr : ShaderManager)
    (sh : ShaderState)
    (prog : ShaderProgram) :
    ShaderCompileResult × ShaderManager :=
  let result : ShaderCompileResult :=
    { hash := hashKey sh
      stage := stageOf sh
      irInstructionCount := prog.instructions.length }
  let compiled := crossCompile host prog
  let stored : ShaderManager :=
    { mgr with
      cache := mgr.cache.storeCompiled (hashKey sh) compiled }
  match compileMSL host compiled.mslSource with
  | .error msg =>
      if compiled.mslSource = "" then
        ({ result with success := true }, stored)
      else
        ({ result with
            errorMsg := "MSL compilation failed: " ++ msg },
          mgr)
  | .ok func =>
      (setFunction
          { result with
            success := true
            mslSource := compiled.mslSource
            spirvWordCount := compiled.spirvBinary.length }
          (some func),
        stored)

def compileShader
    (host : MetalHost)
    (mgr : ShaderManager)
    (region : Option (Nat → U8))
    (sh : ShaderState)
    (size : Nat := regionSize) :
    ShaderCompileResult × ShaderManager :=
  let result : ShaderCompileResult := { stage := stageOf sh }
  if !sh.enabled ∨ sh.offset = 0 then
    ({ result with
        errorMsg := "Shader not enabled or zero offset" },
      mgr)
  else
    match mgr.cache.findCompiled (hashKey sh) with
    | some cached => (cachedResult host sh cached, mgr)
    | none =>
        match mgr.findOrDecode region sh size with
        | .error msg => ({ result with errorMsg := msg }, mgr)
        | .ok (prog, mgr) => compileProgram host mgr sh prog

/- A function, compiled from the text when it is missing. -/
def functionOr
    (host : MetalHost)
    (func : Option MTLFunction)
    (mslSource : String) : Option MTLFunction :=
  match func with
  | some f => some f
  | none => (compileMSL host mslSource).toOption

def createRenderPipeline
    (host : MetalHost)
    (mgr : ShaderManager)
    (vertex fragment : ShaderCompileResult) :
    ShaderCompileResult × ShaderManager :=
  let failed (msg : String) :
      ShaderCompileResult × ShaderManager :=
    ({ errorMsg := msg }, mgr)
  if !vertex.success ∨ !fragment.success then
    failed "Both vertex and fragment shaders required"
  else
    let vertFn :=
      functionOr host vertex.vertexFunction vertex.mslSource
    let fragFn :=
      functionOr host fragment.fragmentFunction
        fragment.mslSource
    if vertFn = none ∨ fragFn = none then
      failed "Missing vertex or fragment Metal function"
    else
      match createPipeline host vertFn fragFn with
      | .error msg =>
          failed ("Pipeline creation failed: " ++ msg)
      | .ok pipeline =>
          let hash := vertex.hash ^^^ (fragment.hash <<< 1)
          ({ success := true
             hash := hash
             pipelineState := some pipeline
             mslSource :=
               vertex.mslSource ++ "\n" ++ fragment.mslSource },
            { mgr with
              cache := mgr.cache.storePipeline hash pipeline })

def invalidateCache : ShaderManager :=
  { cache := ShaderCache.clear }

end ShaderManager

end M1Switch
