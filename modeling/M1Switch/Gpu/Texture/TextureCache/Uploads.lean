import M1Switch.Gpu.Texture.TextureCache.Keys
import M1Switch.Gpu.Texture.TextureCache.Representation
import M1Switch.Gpu.Texture.TextureCache.Untile

/-
  What is uploaded to a texture that is made.

  Each mip level is uploaded as it is in guest memory or, if
  it is tiled, through a buffer that it is untiled into.  Some
  compressed levels are untiled as if a block were a pixel of
  four times its size.

  Key definitions include:
    * `TextureCache.Upload`
    * `uploads`

  Main results:
    * `untile_eq_none_iff`
    * `dividesByZero_iff`
-/

------
-- Mip Levels
------

namespace M1Switch

namespace TextureCache

/- Formats that Metal takes as blocks. -/
def isCompressed (fmt : MaxwellPixelFormat) : Prop :=
  fmt = .BC1RGBAUnorm ∨ fmt = .BC2RGBAUnorm ∨
    fmt = .BC3RGBAUnorm ∨ fmt = .BC7RGBAUnorm ∨
      fmt.code ≥ MaxwellPixelFormat.ASTC4x4.code

instance (fmt : MaxwellPixelFormat) :
    Decidable (isCompressed fmt) :=
  inferInstanceAs (Decidable (_ ∨ _))

def blockSize (fmt : MaxwellPixelFormat) : U32 :=
  if fmt = .BC1RGBAUnorm then 8 else 16

/- Blocks of four by four along a side. -/
def blocks (extent : U32) : U32 :=
  (extent + 3) / 4

/- Where a mip level starts in guest memory. -/
def computeMipOffset (info : TextureInfo) (mip : Nat) : U64 :=
  if mip = 0 then 0
  else if bytesPerPixel info.format = 0 then
    (List.range mip).foldl
      (fun offset m =>
        offset +
          (blocks (mipExtent info.width m)).setWidth 64 *
              (blocks (mipExtent info.height m)).setWidth 64 *
            (blockSize info.format).setWidth 64)
      0
  else
    (List.range mip).foldl
      (fun offset m =>
        offset +
          (computeSurfaceSize (mipExtent info.width m)
            (mipExtent info.height m)
            (bytesPerPixel info.format)
            info.tileMode).setWidth 64)
      0

end TextureCache

------
-- Uploads
------

/- The size of `linear_buf`, and how it is filled. -/
structure LinearBuffer where
  size : U32
  args : UntileArgs
deriving DecidableEq

/-
  A `replaceRegion` of a mip level: its bytes are in guest
  memory at `offset`, or untiled from there into a buffer.
-/
structure Upload where
  mip : Nat
  width : U32
  height : U32
  offset : U64
  buffer : Option LinearBuffer
  bytesPerRow : U32
deriving DecidableEq

namespace TextureCache

variable (info : TextureInfo)

/- The buffer of a compressed level. -/
def compressedBuffer (width height : U32) : LinearBuffer :=
  let blocksW := blocks width
  let blocksH := blocks height
  let blockSize := blockSize info.format
  { size := blocksW * blocksH * blockSize
    args :=
      { width := blocksW * 4
        height := blocksH * 4
        bpp := blockSize * 4
        tileMode := info.tileMode
        pitch := blocksW * blockSize } }

/- The buffer of any other level. -/
def plainBuffer (width height pitch : U32) : LinearBuffer :=
  { size := width * bytesPerPixel info.format * height
    args :=
      { width := width
        height := height
        bpp := bytesPerPixel info.format
        tileMode := info.tileMode
        pitch := pitch } }

/- The pitch of the texture, or that of its pixels. -/
def basePitch : U32 :=
  if info.pitch > 0 then info.pitch
  else info.width * bytesPerPixel info.format

/- The first level; linear compressed ones are untiled too. -/
def uploadBase : Upload :=
  if isCompressed info.format then
    { mip := 0
      width := info.width
      height := info.height
      offset := 0
      buffer :=
        if info.isLinear ∨ info.tileMode ≠ 0 then
          some (compressedBuffer info info.width info.height)
        else none
      bytesPerRow := blocks info.width * blockSize info.format }
  else if info.isLinear ∨ info.tileMode = 0 then
    { mip := 0
      width := info.width
      height := info.height
      offset := 0
      buffer := none
      bytesPerRow := basePitch info }
  else
    { mip := 0
      width := info.width
      height := info.height
      offset := 0
      buffer :=
        some
          (plainBuffer info info.width info.height
            (basePitch info))
      bytesPerRow :=
        info.width * bytesPerPixel info.format }

/- A level behind the first. -/
def uploadMip (mip : Nat) : Upload :=
  let mw := mipExtent info.width mip
  let mh := mipExtent info.height mip
  if isCompressed info.format then
    { mip := mip
      width := mw
      height := mh
      offset := computeMipOffset info mip
      buffer :=
        if info.isLinear ∨ info.tileMode = 0 then none
        else some (compressedBuffer info mw mh)
      bytesPerRow := blocks mw * blockSize info.format }
  else
    let mpitch := mw * bytesPerPixel info.format
    { mip := mip
      width := mw
      height := mh
      offset := computeMipOffset info mip
      buffer :=
        if info.isLinear ∨ info.tileMode = 0 then none
        else some (plainBuffer info mw mh mpitch)
      bytesPerRow := mpitch }

/- All levels, in the order they are uploaded. -/
def uploads : List Upload :=
  uploadBase info ::
    (List.range (info.mipLevels.toNat - 1)).map fun i =>
      uploadMip info (i + 1)

/- What `CreateTexture` uploads, if it gets that far. -/
def createUploads
    (device : MTLDevice)
    (info : TextureInfo)
    (guestMemory : Option (Nat → U8)) : List Upload :=
  if guestMemory.isNone ∨ info.width = 0 ∨
      info.height = 0 then []
  else if device.newTexture info then uploads info
  else []

variable {info} {device : MTLDevice}
variable {guestMemory : Option (Nat → U8)}

theorem createUploads_of_creates
    (hCreates : Creates device info guestMemory) :
    createUploads device info guestMemory = uploads info := by
  rcases hCreates with ⟨hMemory, hWidth, hHeight, hDevice⟩
  unfold createUploads
  rw [if_neg, if_pos hDevice]
  rintro (hNone | hZero | hZero)
  · cases guestMemory with
    | none => cases hMemory
    | some bytes => cases hNone
  · exact hWidth hZero
  · exact hHeight hZero

theorem createUploads_of_not_creates
    (hNot : ¬ Creates device info guestMemory) :
    createUploads device info guestMemory = [] := by
  unfold createUploads
  split_ifs with hBad hDevice
  · rfl
  · refine absurd ?_ hNot
    rcases not_or.mp hBad with ⟨hMemory, hBoth⟩
    rcases not_or.mp hBoth with ⟨hWidth, hHeight⟩
    refine ⟨?_, hWidth, hHeight, hDevice⟩
    cases guestMemory with
    | none => exact absurd rfl hMemory
    | some bytes => rfl
  · rfl

------
-- The Buffers Of The Levels
------

variable {mip : Nat}

def uploadAt (info : TextureInfo) (mip : Nat) : Upload :=
  if mip = 0 then uploadBase info else uploadMip info mip

theorem mem_uploads_iff
    {upload : Upload} :
    upload ∈ uploads info ↔
      ∃ mip, mip < max 1 info.mipLevels.toNat ∧
        upload = uploadAt info mip := by
  unfold uploads uploadAt
  rw [List.mem_cons, List.mem_map]
  constructor
  · rintro (hBase | ⟨i, hI, hMip⟩)
    · exact ⟨0, by omega, hBase⟩
    · have hI := List.mem_range.mp hI
      refine ⟨i + 1, by omega, ?_⟩
      rw [if_neg (Nat.succ_ne_zero i)]
      exact hMip.symm
  · rintro ⟨mip, hMip, hUpload⟩
    split_ifs at hUpload with hBase
    · exact Or.inl hUpload
    · right
      refine ⟨mip - 1, List.mem_range.mpr (by omega), ?_⟩
      rw [hUpload, Nat.sub_add_cancel (by omega)]

/- What a level counts as a pixel where it is untiled. -/
def untileBpp (info : TextureInfo) : U32 :=
  if isCompressed info.format then blockSize info.format * 4
  else bytesPerPixel info.format

/- The first level of a linear texture may be untiled. -/
def baseIsUntiled (info : TextureInfo) : Prop :=
  if isCompressed info.format then
    info.isLinear ∨ info.tileMode ≠ 0
  else ¬ (info.isLinear ∨ info.tileMode = 0)

/- The buffer of a level, if it has one. -/
def levelBuffer
    (info : TextureInfo)
    (width height pitch : U32) : LinearBuffer :=
  if isCompressed info.format then
    compressedBuffer info width height
  else plainBuffer info width height pitch

theorem bpp_levelBuffer
    (width height pitch : U32) :
    (levelBuffer info width height pitch).args.bpp =
      untileBpp info := by
  unfold levelBuffer untileBpp
  split_ifs <;> rfl

theorem tileMode_levelBuffer
    (width height pitch : U32) :
    (levelBuffer info width height pitch).args.tileMode =
      info.tileMode := by
  unfold levelBuffer
  split_ifs <;> rfl

theorem buffer_uploadBase
    {buffer : LinearBuffer} :
    (uploadBase info).buffer = some buffer ↔
      baseIsUntiled info ∧
        buffer =
          levelBuffer info info.width info.height
            (basePitch info) := by
  unfold uploadBase baseIsUntiled levelBuffer
  by_cases hCompressed : isCompressed info.format
  · simp only [if_pos hCompressed]
    by_cases hTiled : info.isLinear ∨ info.tileMode ≠ 0
    · rw [if_pos hTiled, Option.some_inj]
      exact ⟨fun hSame => ⟨hTiled, hSame.symm⟩,
        fun hBoth => hBoth.2.symm⟩
    · rw [if_neg hTiled]
      exact ⟨nofun, fun hBoth => absurd hBoth.1 hTiled⟩
  · simp only [if_neg hCompressed]
    by_cases hLinear : info.isLinear ∨ info.tileMode = 0
    · rw [if_pos hLinear]
      exact ⟨nofun, fun hBoth => absurd hLinear hBoth.1⟩
    · rw [if_neg hLinear]
      exact ⟨fun hSame =>
          ⟨hLinear, (Option.some_inj.mp hSame).symm⟩,
        fun hBoth => congrArg some hBoth.2.symm⟩

theorem buffer_uploadMip
    {buffer : LinearBuffer} :
    (uploadMip info mip).buffer = some buffer ↔
      ¬ (info.isLinear ∨ info.tileMode = 0) ∧
        buffer =
          levelBuffer info (mipExtent info.width mip)
            (mipExtent info.height mip)
            (mipExtent info.width mip *
              bytesPerPixel info.format) := by
  unfold uploadMip levelBuffer
  by_cases hCompressed : isCompressed info.format
  · simp only [if_pos hCompressed]
    by_cases hLinear : info.isLinear ∨ info.tileMode = 0
    · rw [if_pos hLinear]
      exact ⟨nofun, fun hBoth => absurd hLinear hBoth.1⟩
    · rw [if_neg hLinear, Option.some_inj]
      exact ⟨fun hSame => ⟨hLinear, hSame.symm⟩,
        fun hBoth => hBoth.2.symm⟩
  · simp only [if_neg hCompressed]
    by_cases hLinear : info.isLinear ∨ info.tileMode = 0
    · rw [if_pos hLinear]
      exact ⟨nofun, fun hBoth => absurd hLinear hBoth.1⟩
    · rw [if_neg hLinear, Option.some_inj]
      exact ⟨fun hSame => ⟨hLinear, hSame.symm⟩,
        fun hBoth => hBoth.2.symm⟩

/- A level that is untiled, with what it is untiled as. -/
theorem buffer_uploadAt_cases
    {buffer : LinearBuffer}
    (hBuffer : (uploadAt info mip).buffer = some buffer) :
    baseIsUntiled info ∧
      ∃ width height pitch,
        buffer = levelBuffer info width height pitch := by
  unfold uploadAt at hBuffer
  split_ifs at hBuffer
  · rcases buffer_uploadBase.mp hBuffer with ⟨hBase, hSame⟩
    exact ⟨hBase, _, _, _, hSame⟩
  · rcases buffer_uploadMip.mp hBuffer with ⟨hTiled, hSame⟩
    refine ⟨?_, _, _, _, hSame⟩
    unfold baseIsUntiled
    split_ifs
    · exact Or.inr fun hZero => hTiled (Or.inr hZero)
    · exact hTiled

end TextureCache

------
-- Divisions
------

open TextureCache

namespace UntileArgs

variable {a : UntileArgs}

theorem untile_eq_none_iff :
    a.untile = none ↔
      a.tileMode ≠ 0 ∧ a.width ≠ 0 ∧ a.height ≠ 0 ∧
        a.bpp ≠ 0 ∧ a.samplesPerGobRow = 0 := by
  unfold untile
  split_ifs with hLinear hZero
  · constructor
    · exact nofun
    · rintro ⟨hTiled, hWidth, hHeight, hBpp, _⟩
      rcases hLinear with h | h | h | h
      · exact absurd h hTiled
      · exact absurd h hWidth
      · exact absurd h hHeight
      · exact absurd h hBpp
  · rcases not_or.mp hLinear with ⟨hTiled, hRest⟩
    rcases not_or.mp hRest with ⟨hWidth, hRest⟩
    rcases not_or.mp hRest with ⟨hHeight, hBpp⟩
    exact ⟨fun _ => ⟨hTiled, hWidth, hHeight, hBpp, hZero⟩,
      fun _ => rfl⟩
  · exact ⟨nofun, fun hAll => absurd hAll.2.2.2.2 hZero⟩

/- No sample fits into a row that is shorter than it. -/
theorem samplesPerGobRow_eq_zero_iff
    (hBpp : a.bpp ≠ 0) :
    a.samplesPerGobRow = 0 ↔ ¬ a.bpp ≤ a.bytesPerGobRow := by
  have hPos := pos_of_ne_zero hBpp
  have hSamples :
      a.samplesPerGobRow.toNat =
        a.bytesPerGobRow.toNat / a.bpp.toNat :=
    toNat_samplesPerGobRow
  rw [BitVec.le_def]
  constructor
  · intro hZero
    rw [hZero] at hSamples
    have hNone := (Nat.div_eq_zero_iff_lt hPos).mp hSamples.symm
    omega
  · intro hShort
    apply BitVec.eq_of_toNat_eq
    rw [hSamples]
    exact Nat.div_eq_of_lt (by omega)

end UntileArgs

namespace TextureCache

variable {info : TextureInfo} {device : MTLDevice}
variable {guestMemory : Option (Nat → U8)}

/- `ComputeSurfaceSize` divides by one of these. -/
def SurfaceDividesByZero (bpp tileMode : U32) : Prop :=
  bpp ≠ 0 ∧ tileMode ≠ 0 ∧
    (GOB_SIZE_BYTES / bpp = 0 ∨ blockHeight tileMode = 0)

/- A level is untiled, or measured, with a divisor of zero. -/
def DividesByZero
    (device : MTLDevice)
    (info : TextureInfo)
    (guestMemory : Option (Nat → U8)) : Prop :=
  (∃ upload ∈ createUploads device info guestMemory,
    ∃ buffer,
      upload.buffer = some buffer ∧
        buffer.args.untile = none) ∨
    SurfaceDividesByZero (bytesPerPixel info.format)
      info.tileMode

/-
  Nothing is untiled, or what counts as a pixel fits into a
  row of a GOB.
-/
def Divisible (info : TextureInfo) : Prop :=
  info.tileMode = 0 ∨
    (¬ isCompressed info.format ∧ info.isLinear) ∨
      untileBpp info ≤
        GOB_SIZE_BYTES / blockHeight info.tileMode

/- A pixel is never larger than 64 bytes. -/
theorem not_surfaceDividesByZero :
    ¬ SurfaceDividesByZero (bytesPerPixel info.format)
      info.tileMode := by
  rintro ⟨hBpp, hTiled, hZero | hZero⟩
  · unfold bytesPerPixel at hBpp hZero
    split_ifs at hBpp hZero <;>
      first
      | exact absurd rfl hBpp
      | exact absurd hZero (by decide)
  · rcases UntileArgs.blockHeight_cases hTiled with
      h | h | h | h | h <;>
      rw [h] at hZero <;>
      exact absurd hZero (by decide)

theorem blocks_mul_four_ne_zero
    {extent : U32}
    (hSome : extent ≠ 0)
    (hSmall : extent.toNat < 2 ^ 16) :
    blocks extent * 4 ≠ 0 := by
  have hPos := pos_of_ne_zero hSome
  intro hZero
  have hNat := congrArg BitVec.toNat hZero
  have hFour : (4 : U32).toNat = 4 := rfl
  have hThree : (3 : U32).toNat = 3 := rfl
  have hNone : (0 : U32).toNat = 0 := rfl
  unfold blocks at hNat
  rw [BitVec.toNat_mul, BitVec.toNat_udiv, BitVec.toNat_add,
    hFour, hThree, hNone] at hNat
  omega

/- The first level of a texture has pixels to untile. -/
theorem levelBuffer_ne_zero
    (pitch : U32)
    (hRange : InTicRange info)
    (hWidth : info.width ≠ 0)
    (hHeight : info.height ≠ 0) :
    (levelBuffer info info.width info.height
        pitch).args.width ≠ 0 ∧
      (levelBuffer info info.width info.height
        pitch).args.height ≠ 0 := by
  unfold levelBuffer
  split_ifs
  · exact ⟨blocks_mul_four_ne_zero hWidth hRange.width,
      blocks_mul_four_ne_zero hHeight hRange.height⟩
  · exact ⟨hWidth, hHeight⟩

/-
  For the textures of a pool, nothing is divided by zero
  exactly if no texture is made, or one that is divisible.
-/
theorem dividesByZero_iff
    (device : MTLDevice)
    (guestMemory texturePool : Option (Nat → U8))
    (offset : U64) :
    ¬ DividesByZero device (parseTIC texturePool offset)
        guestMemory ↔
      (Creates device (parseTIC texturePool offset)
          guestMemory →
        Divisible (parseTIC texturePool offset)) := by
  have hRange := inTicRange_parseTIC texturePool offset
  generalize parseTIC texturePool offset = info at hRange ⊢
  unfold DividesByZero
  rw [or_iff_left not_surfaceDividesByZero]
  constructor
  · intro hNever hCreates
    by_contra hNot
    rcases not_or.mp hNot with ⟨hTiled, hRest⟩
    rcases not_or.mp hRest with ⟨hUntiled, hLarge⟩
    apply hNever
    rw [createUploads_of_creates hCreates]
    have hBase : baseIsUntiled info := by
      unfold baseIsUntiled
      split_ifs with hCompressed
      · exact Or.inr hTiled
      · rintro (hLinear | hZero)
        · exact hUntiled ⟨hCompressed, hLinear⟩
        · exact hTiled hZero
    have hSides :=
      levelBuffer_ne_zero (basePitch info) hRange
        hCreates.2.1 hCreates.2.2.1
    refine ⟨uploadBase info, List.mem_cons_self, _,
      buffer_uploadBase.mpr ⟨hBase, rfl⟩, ?_⟩
    have hBpp :
        (levelBuffer info info.width info.height
          (basePitch info)).args.bpp ≠ 0 := by
      rw [bpp_levelBuffer]
      intro hZero
      rw [hZero] at hLarge
      exact hLarge (BitVec.le_def.mpr (Nat.zero_le _))
    rw [UntileArgs.untile_eq_none_iff,
      UntileArgs.samplesPerGobRow_eq_zero_iff hBpp]
    unfold UntileArgs.bytesPerGobRow
    rw [tileMode_levelBuffer]
    refine ⟨hTiled, hSides.1, hSides.2, hBpp, ?_⟩
    rw [bpp_levelBuffer]
    exact hLarge
  · rintro hDivisible ⟨upload, hUpload, buffer, hBuffer, hNone⟩
    have hCreates : Creates device info guestMemory := by
      by_contra hNot
      rw [createUploads_of_not_creates hNot] at hUpload
      cases hUpload
    rw [createUploads_of_creates hCreates,
      mem_uploads_iff] at hUpload
    rcases hUpload with ⟨mip, _, rfl⟩
    rcases buffer_uploadAt_cases hBuffer with
      ⟨hBase, width, height, pitch, rfl⟩
    rw [UntileArgs.untile_eq_none_iff] at hNone
    rcases hNone with ⟨hTiled, _, _, hBpp, hSamples⟩
    rw [UntileArgs.samplesPerGobRow_eq_zero_iff hBpp]
      at hSamples
    unfold UntileArgs.bytesPerGobRow at hSamples
    rw [bpp_levelBuffer, tileMode_levelBuffer] at hSamples
    rw [tileMode_levelBuffer] at hTiled
    rcases hDivisible hCreates with hZero | hLinear | hFits
    · exact hTiled hZero
    · unfold baseIsUntiled at hBase
      rw [if_neg hLinear.1] at hBase
      exact hBase (Or.inl hLinear.2)
    · exact hSamples hFits

/- A header of four by four RGBA8 pixels. -/
def rgba8Pool (tileMode : U8) : Nat → U8
| 9 => 0x37
| 10 => tileMode
| 12 => 4
| 14 => 4
| _ => 0

/- Two pixels fit into the rows of GOBs of eight lines. -/
theorem rgba8_divisible :
    ¬ DividesByZero anyDevice
      (parseTIC (some (rgba8Pool 3)) 0) (some fun _ => 0) :=
  (dividesByZero_iff anyDevice _ _ _).mpr fun _ =>
    Or.inr (Or.inr (by decide))

/- None fits into the rows of GOBs of 32 lines. -/
theorem rgba8_dividesByZero :
    DividesByZero anyDevice
      (parseTIC (some (rgba8Pool 5)) 0) (some fun _ => 0) := by
  left
  refine ⟨uploadBase (parseTIC (some (rgba8Pool 5)) 0), ?_,
    ⟨64, ⟨4, 4, 4, 5, 16⟩⟩, ?_, ?_⟩
  · decide
  · decide
  · decide

end TextureCache

end M1Switch
