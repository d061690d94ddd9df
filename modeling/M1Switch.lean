import M1Switch.Audio.Adpcm
import M1Switch.Audio.RingBuffer
import M1Switch.Cpu.ExceptionHandler
import M1Switch.Debug.DebugServer
import M1Switch.Debug.DebugServer.Commands
import M1Switch.Debug.DebugServer.HandleClient
import M1Switch.Debug.SnapshotManager.RoundTrip
import M1Switch.Debug.TraceEngine.Queries
import M1Switch.Debug.TraceEngine.Window
import M1Switch.Gpu.Backend.MetalRenderer.Buffers
import M1Switch.Gpu.Backend.MetalRenderer.Fetches
import M1Switch.Gpu.Backend.MetalRenderer.PipelineCache
import M1Switch.Gpu.Backend.MetalRenderer.Replay
import M1Switch.Gpu.Engine.Engine3D.RegisterFile
import M1Switch.Gpu.Engine.GPFifo.Correctness
import M1Switch.Gpu.Shader.MaxwellDecoder.Branches
import M1Switch.Gpu.Shader.MaxwellDecoder.Encoding
import M1Switch.Gpu.Shader.MaxwellDecoder.Errors
import M1Switch.Gpu.Shader.MaxwellDecoder.Extraction
import M1Switch.Gpu.Shader.ShaderManager.History
import M1Switch.Gpu.Shader.SpirvEmitter.Binary
import M1Switch.Gpu.Shader.SpirvEmitter.Blocks
import M1Switch.Gpu.Shader.SpirvEmitter.Correctness
import M1Switch.Gpu.Shader.SpirvEmitter.Execution
import M1Switch.Gpu.Shader.SpirvEmitter.History
import M1Switch.Gpu.Shader.SpirvEmitter.Modifiers
import M1Switch.Gpu.Shader.SpirvEmitter.Nesting
import M1Switch.Gpu.Shader.SpirvEmitter.Predicates
import M1Switch.Gpu.Shader.SpirvEmitter.Typing
import M1Switch.Gpu.StateTracker.PipelineKey
import M1Switch.Gpu.Texture.TextureCache.BlockDecoders
import M1Switch.Gpu.Texture.TextureCache.Budget
import M1Switch.Gpu.Texture.TextureCache.Eviction
import M1Switch.Gpu.Texture.TextureCache.Keys
import M1Switch.Gpu.Texture.TextureCache.SamplerPool
import M1Switch.Gpu.Texture.TextureCache.StagingBuffers
import M1Switch.Gpu.Texture.TextureCache.Threads
import M1Switch.Kernel.HandleTable
import M1Switch.Kernel.Lifetime
import M1Switch.Kernel.SendSyncRequest
import M1Switch.Kernel.Threads
import M1Switch.Kernel.Waiting
import M1Switch.Library.BlockMap
import M1Switch.Library.CounterMode
import M1Switch.Library.Lz4Block.Encoding
import M1Switch.Library.Text
import M1Switch.Loader.AesCrypto
import M1Switch.Loader.AesCrypto.Xts
import M1Switch.Loader.KeyManager
import M1Switch.Loader.Nro.Bounds
import M1Switch.Loader.Nso.Accesses
import M1Switch.Loader.Nso.Correctness
import M1Switch.Loader.Nso.Decompression
import M1Switch.Loader.Package.Extraction
import M1Switch.Loader.Package.RoundTrip
import M1Switch.Loader.RomFs.RoundTrip
import M1Switch.Loader.RomFs.Safety
import M1Switch.Memory.Heap
import M1Switch.Memory.Isolation
import M1Switch.Memory.Regions
import M1Switch.Services.Fs.Paths
import M1Switch.Services.Fs.Replacement
import M1Switch.Services.Hid
import M1Switch.Services.Ipc.AnnouncedHandles
import M1Switch.Services.Ipc.Domains
import M1Switch.Services.Ipc.Lifetime
import M1Switch.Services.Nv.Carveout
import M1Switch.Services.Nv.Handles
import M1Switch.Services.Nv.Submission
import M1Switch.Services.Nv.Syncpoints
import M1Switch.Services.Vi.Presentation
