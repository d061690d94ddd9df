import Mathlib.Data.BitVec
import M1Switch.Common.Types
import M1Switch.Library.MapTotals

/-
  The texture cache: Metal textures made from guest memory,
  kept under a key of their descriptor.

  The entries, an index of their addresses and a byte count
  are updated side by side.  The order in which a hash table
  is iterated and in which equal elements are sorted is left
  to the standard library, so operations that iterate take the
  order they find as an argument.

  Key definitions include:
    * `TextureInfo`
    * `TextureCache`
-/

------
-- Texture Descriptors
------

namespace M1Switch

/- Any code can occur; the named ones are below. -/
structure MaxwellPixelFormat where
  code : U32
deriving DecidableEq

namespace MaxwellPixelFormat

def RGBA8Unorm : MaxwellPixelFormat := ⟨0x37⟩
def BGRA8Unorm : MaxwellPixelFormat := ⟨0x38⟩
def RGBA16Float : MaxwellPixelFormat := ⟨0x3A⟩
def RGBA32Float : MaxwellPixelFormat := ⟨0x3B⟩
def R8Unorm : MaxwellPixelFormat := ⟨0x1A⟩
def R16Float : MaxwellPixelFormat := ⟨0x1D⟩
def R32Float : MaxwellPixelFormat := ⟨0x1F⟩
def RG8Unorm : MaxwellPixelFormat := ⟨0x27⟩
def RG16Float : MaxwellPixelFormat := ⟨0x2E⟩
def RG32Float : MaxwellPixelFormat := ⟨0x30⟩
def RGBA16Unorm : MaxwellPixelFormat := ⟨0x39⟩
def RGB10A2Unorm : MaxwellPixelFormat := ⟨0x3D⟩
def R11G11B10Float : MaxwellPixelFormat := ⟨0x3E⟩
def RGBA8Snorm : MaxwellPixelFormat := ⟨0x44⟩
def RG8Snorm : MaxwellPixelFormat := ⟨0x28⟩
def R8Snorm : MaxwellPixelFormat := ⟨0x1B⟩
def BC1RGBAUnorm : MaxwellPixelFormat := ⟨0x59⟩
def BC2RGBAUnorm : MaxwellPixelFormat := ⟨0x5A⟩
def BC3RGBAUnorm : MaxwellPixelFormat := ⟨0x5B⟩
def BC4RUnorm : MaxwellPixelFormat := ⟨0x5C⟩
def BC5RGUnorm : MaxwellPixelFormat := ⟨0x5D⟩
def BC7RGBAUnorm : MaxwellPixelFormat := ⟨0x5F⟩
def ASTC4x4 : MaxwellPixelFormat := ⟨0x64⟩
def ASTC6x6 : MaxwellPixelFormat := ⟨0x67⟩
def ASTC8x8 : MaxwellPixelFormat := ⟨0x69⟩
def Unknown : MaxwellPixelFormat := ⟨0xFF⟩

end MaxwellPixelFormat

structure TextureInfo where
  gpuAddress : U64 := 0
  width : U32 := 0
  height : U32 := 0
  depth : U32 := 1
  mipLevels : U32 := 1
  format : MaxwellPixelFormat := .Unknown
  tileMode : U32 := 0
  arrayMode : U32 := 0
  pitch : U32 := 0
  isLinear : Bool := false
deriving DecidableEq

namespace TextureCache

/- The key of a texture: no pitch, and nothing of linearity. -/
def makeKey (info : TextureInfo) : U64 :=
  info.gpuAddress ^^^
    (info.width.setWidth 64 <<< 40) ^^^
    (info.height.setWidth 64 <<< 32) ^^^
    (info.format.code.setWidth 64 <<< 24) ^^^
    (info.mipLevels.setWidth 64 <<< 16) ^^^
    (info.tileMode.setWidth 64 <<< 8) ^^^
    (info.depth.setWidth 64 <<< 48)

/- Bytes of a pixel; none for block-compressed formats. -/
def bytesPerPixel (fmt : MaxwellPixelFormat) : U32 :=
  if fmt = .R8Unorm ∨ fmt = .R8Snorm then 1
  else if fmt = .RG8Unorm ∨ fmt = .RG8Snorm ∨
      fmt = .R16Float then 2
  else if fmt = .RGBA8Unorm ∨ fmt = .BGRA8Unorm ∨
      fmt = .RGBA8Snorm ∨ fmt = .R32Float ∨
      fmt = .RGB10A2Unorm ∨ fmt = .R11G11B10Float ∨
      fmt = .RG16Float then 4
  else if fmt = .RGBA16Unorm ∨ fmt = .RGBA16Float ∨
      fmt = .RG32Float then 8
  else if fmt = .RGBA32Float then 16
  else if fmt = .BC1RGBAUnorm ∨ fmt = .BC2RGBAUnorm ∨
      fmt = .BC3RGBAUnorm ∨ fmt = .BC4RUnorm ∨
      fmt = .BC5RGUnorm ∨ fmt = .BC7RGBAUnorm ∨
      fmt = .ASTC4x4 ∨ fmt = .ASTC6x6 ∨
      fmt = .ASTC8x8 then 0
  else 4

def GOB_SIZE_BYTES : U32 := 64
def BLOCK_HEIGHT_LUT : List U32 := [1, 2, 4, 8, 16, 32]

/- Bytes of one mip level in guest memory. -/
def computeSurfaceSize
    (width height bpp tileMode : U32) : U32 :=
  if bpp = 0 then
    let blocksW := (width + 3) / 4
    let blocksH := (height + 3) / 4
    blocksW * blocksH * 16
  else if tileMode = 0 then
    width * height * bpp
  else
    let bh :=
      BLOCK_HEIGHT_LUT.getD (min tileMode.toNat 5) 1
    let samplesPerGobRow := GOB_SIZE_BYTES / bpp
    let gobsX :=
      (width + samplesPerGobRow - 1) / samplesPerGobRow
    let gobsY := (height + bh - 1) / bh
    gobsX * gobsY * GOB_SIZE_BYTES

/- A side of a mip level, at least 1. -/
def mipExtent (extent : U32) (mip : Nat) : U32 :=
  if extent >>> mip = 0 then 1 else extent >>> mip

/- The footprint that is accounted for a texture. -/
def actualSize (info : TextureInfo) : U64 :=
  let bpp := bytesPerPixel info.format
  let size : U64 :=
    (List.range info.mipLevels.toNat).foldl
      (fun size mip =>
        size +
          (computeSurfaceSize (mipExtent info.width mip)
            (mipExtent info.height mip) bpp
            info.tileMode).setWidth 64)
      0
  if size = 0 then
    (info.width * info.height *
      (if bpp = 0 then 1 else bpp)).setWidth 64
  else size

/- A little-endian number of some bytes of an entry. -/
def ticBytes (entry : Nat → U8) (first : Nat) : Nat → U64
| 0 => 0
| count + 1 =>
    (entry first).setWidth 64 |||
      (ticBytes entry (first + 1) count <<< 8)

/- A texture header of the pool, 64 bytes an entry. -/
def parseTIC
    (texturePool : Option (Nat → U8))
    (offset : U64) : TextureInfo :=
  match texturePool with
  | none => {}
  | some pool =>
      let entry := fun i => pool (offset.toNat + i)
      let depth := (ticBytes entry 16 2).setWidth 32
      let mipLevels := (entry 20 &&& 0xF).setWidth 32
      { gpuAddress :=
          ticBytes entry 0 6 |||
            ((entry 8).setWidth 64 <<< 48)
        width := (ticBytes entry 12 2).setWidth 32
        height := (ticBytes entry 14 2).setWidth 32
        depth := if depth = 0 then 1 else depth
        mipLevels := if mipLevels = 0 then 1 else mipLevels
        format := ⟨(entry 9).setWidth 32⟩
        tileMode := (entry 10 &&& 0x7).setWidth 32
        arrayMode := (entry 20 >>> 4).setWidth 32
        pitch := (ticBytes entry 24 4).setWidth 32
        isLinear := (entry 11 &&& 1) != 0 }

end TextureCache

------
-- Cache State
------

/- A Metal texture object: its identity, and its origin. -/
structure TextureObject where
  serial : Nat
  info : TextureInfo
deriving DecidableEq

/- Which textures the device is able to make. -/
structure MTLDevice where
  newTexture : TextureInfo → Bool

structure CachedTexture where
  cacheKey : U64 := 0
  info : TextureInfo := {}
  texture : Option TextureObject := none
  frameUsed : U64 := 0
  sizeBytes : U64 := 0
deriving DecidableEq

/-
  The members of the cache that its textures need, with the
  objects made so far and those that were sent `release`.
-/
structure TextureCache where
  entries : Finmap fun _ : U64 => CachedTexture := ∅
  addrIndex : Multiset (U64 × U64) := 0
  frameCount : U64 := 0
  totalMemory : U64 := 0
  created : Nat := 0
  released : Multiset TextureObject := 0

namespace TextureCache

def MAX_CACHE_MEMORY : U64 := 512 * 1024 * 1024
def EVICTION_THRESHOLD : U64 := 60
def MAX_CACHE_ENTRIES : Nat := 4096
def EVICT_BATCH_SIZE : Nat := 128

def size (cache : TextureCache) : Nat :=
  cache.entries.keys.card

/- Objects that `release` reaches; nil gets no message. -/
def releases : Option TextureObject → Multiset TextureObject
| none => 0
| some tex => {tex}

------
-- Address Index
------

def indexAdd
    (index : Multiset (U64 × U64))
    (gpuAddress cacheKey : U64) : Multiset (U64 × U64) :=
  if gpuAddress ≠ 0 then (gpuAddress, cacheKey) ::ₘ index
  else index

/- One pair of the address and the key goes. -/
def indexRemove
    (index : Multiset (U64 × U64))
    (gpuAddress cacheKey : U64) : Multiset (U64 × U64) :=
  if gpuAddress = 0 then index
  else index.erase (gpuAddress, cacheKey)

------
-- Invalidation
------

variable (cache : TextureCache)

/- An entry goes; the index is not looked at. -/
def dropEntry (key : U64) : TextureCache :=
  match cache.entries.lookup key with
  | none => cache
  | some entry =>
      { cache with
        totalMemory := cache.totalMemory - entry.sizeBytes
        released := releases entry.texture + cache.released
        entries := cache.entries.erase key }

/- An entry goes, with its pair in the index. -/
def removeEntry (key : U64) : TextureCache :=
  match cache.entries.lookup key with
  | none => cache
  | some entry =>
      { cache with
        addrIndex :=
          indexRemove cache.addrIndex entry.info.gpuAddress key
        totalMemory := cache.totalMemory - entry.sizeBytes
        released := releases entry.texture + cache.released
        entries := cache.entries.erase key }

/- The pairs of one address. -/
def equalRange (gpuAddress : U64) : Multiset (U64 × U64) :=
  cache.addrIndex.filter (·.1 = gpuAddress)

/- `order` lists the keys of the address as they come. -/
def invalidate
    (gpuAddress : U64)
    (order : List U64) : TextureCache :=
  if gpuAddress = 0 then cache
  else if cache.equalRange gpuAddress = 0 then cache
  else
    order.foldl dropEntry
      { cache with
        addrIndex :=
          cache.addrIndex.filter (·.1 ≠ gpuAddress) }

/- The ranges of an entry and of a region meet. -/
def overlaps
    (entry : CachedTexture)
    (address size : U64) : Bool :=
  let regionEnd := address + size
  let texAddr := entry.info.gpuAddress
  let texEnd := texAddr + entry.sizeBytes
  texAddr < regionEnd && texEnd > address

def overlapsAt (address size key : U64) : Bool :=
  match cache.entries.lookup key with
  | none => false
  | some entry => overlaps entry address size

/- `order` lists the keys of the entries as they come. -/
def invalidateRegion
    (address size : U64)
    (order : List U64) : TextureCache :=
  if address = 0 ∨ size = 0 then cache
  else
    (order.filter (cache.overlapsAt address size)).foldl
      removeEntry cache

/- What a guest write does to the cache. -/
def writeCallback
    (address size : U64)
    (indexOrder entryOrder : List U64) : TextureCache :=
  let cache := cache.invalidate address indexOrder
  if size > 8 then
    cache.invalidateRegion address size entryOrder
  else cache

------
-- Eviction
------

/- The number of entries to evict, in 32 bits. -/
def toEvict : Nat :=
  min EVICT_BATCH_SIZE
    ((cache.size % 4294967296 + 4294967295) % 4294967296)

/- `sorted i` is the key that `sorted[i]` reads. -/
def evictLRU (sorted : Nat → U64) : TextureCache :=
  ((List.range cache.toEvict).map sorted).foldl removeEntry
    cache

/- The entries that a frame may evict. -/
def evictStale
    (oldestAllowed : U64)
    (cache : TextureCache)
    (key : U64) : TextureCache :=
  match cache.entries.lookup key with
  | none => cache
  | some entry =>
      if entry.frameUsed < oldestAllowed then
        cache.removeEntry key
      else cache

def endFrame (order : List U64) : TextureCache :=
  let cache := { cache with frameCount := cache.frameCount + 1 }
  if cache.totalMemory > MAX_CACHE_MEMORY * 3 / 4 ∨
      cache.size > MAX_CACHE_ENTRIES * 3 / 4 then
    order.foldl
      (evictStale (cache.frameCount - EVICTION_THRESHOLD))
      cache
  else cache

def flush : TextureCache :=
  { cache with
    released :=
      MapTotals.total (fun _ entry => releases entry.texture)
          cache.entries +
        cache.released
    entries := ∅
    addrIndex := 0
    totalMemory := 0 }

------
-- Lookup And Creation
------

/- The first critical section: a hit is marked as used. -/
def findCached
    (key : U64) : Option TextureObject × TextureCache :=
  match cache.entries.lookup key with
  | none => (none, cache)
  | some entry =>
      match entry.texture with
      | none => (none, cache)
      | some tex =>
          (some tex,
            { cache with
              entries := cache.entries.insert key
                { entry with
                  frameUsed := cache.frameCount } })

/- Between the sections: no lock is held here. -/
def createTexture
    (device : MTLDevice)
    (info : TextureInfo)
    (guestMemory : Option (Nat → U8)) :
    Option TextureObject × TextureCache :=
  if guestMemory.isNone ∨ info.width = 0 ∨
      info.height = 0 then (none, cache)
  else if device.newTexture info then
    (some ⟨cache.created, info⟩,
      { cache with created := cache.created + 1 })
  else (none, cache)

/- The entry is stored under its key, whatever was there. -/
def insertEntry
    (info : TextureInfo)
    (tex : TextureObject) : TextureCache :=
  let key := makeKey info
  let entry : CachedTexture :=
    { cacheKey := key
      info := info
      texture := some tex
      frameUsed := cache.frameCount
      sizeBytes := actualSize info }
  { cache with
    totalMemory := cache.totalMemory + entry.sizeBytes
    entries := cache.entries.insert key entry
    addrIndex :=
      indexAdd cache.addrIndex info.gpuAddress key }

/- The second critical section. -/
def storeTexture
    (info : TextureInfo)
    (tex : TextureObject)
    (sorted : Nat → U64) : TextureCache :=
  let cache := cache.insertEntry info tex
  if cache.totalMemory > MAX_CACHE_MEMORY ∨
      cache.size > MAX_CACHE_ENTRIES then
    cache.evictLRU sorted
  else cache

def getOrCreate
    (device : MTLDevice)
    (info : TextureInfo)
    (guestMemory : Option (Nat → U8))
    (sorted : Nat → U64) :
    Option TextureObject × TextureCache :=
  match cache.findCached (makeKey info) with
  | (some tex, cache) => (some tex, cache)
  | (none, cache) =>
      match cache.createTexture device info guestMemory with
      | (none, cache) => (none, cache)
      | (some tex, cache) =>
          (some tex, cache.storeTexture info tex sorted)

end TextureCache

end M1Switch
