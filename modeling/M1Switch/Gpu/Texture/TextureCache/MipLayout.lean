import M1Switch.Gpu.Texture.TextureCache.Footprint

/-
  The mip levels of a texture in guest memory.

  Each level starts where those before it end, as their sizes
  are accounted.  What is read for a level, by untiling or by
  Metal itself, may be more, and then it is read for the next
  level as well, or is not part of the texture.

  Key definitions include:
    * `levelSurface`
    * `TextureCache.ReadsByte`

  Main results:
    * `apart_of_steps`
    * `mipLayout_of_fits`
    * `footprint_iff`
-/

------
-- Levels
------

namespace M1Switch

open TextureCache

namespace TextureCache

variable {info : TextureInfo} {mip : Nat}
variable {buffer : LinearBuffer}

/- The bytes that are accounted for a level. -/
def levelSurface (info : TextureInfo) (mip : Nat) : Nat :=
  (computeSurfaceSize (mipExtent info.width mip)
    (mipExtent info.height mip) (bytesPerPixel info.format)
    info.tileMode).toNat

/- The blocks of a compressed level. -/
def levelBlocks (info : TextureInfo) (mip : Nat) : Nat :=
  (blocks (mipExtent info.width mip)).toNat *
    (blocks (mipExtent info.height mip)).toNat

/- The pixels of a block of a Metal format, and its bytes. -/
structure MTLBlock where
  width : Nat
  height : Nat
  size : Nat

def metalBlock (fmt : MaxwellPixelFormat) : MTLBlock :=
  if fmt = .BC1RGBAUnorm ∨ fmt = .BC4RUnorm then ⟨4, 4, 8⟩
  else if fmt = .BC2RGBAUnorm ∨ fmt = .BC3RGBAUnorm ∨
      fmt = .BC5RGUnorm ∨ fmt = .BC7RGBAUnorm ∨
      fmt = .ASTC4x4 then ⟨4, 4, 16⟩
  else if fmt = .ASTC6x6 then ⟨6, 6, 16⟩
  else if fmt = .ASTC8x8 then ⟨8, 8, 16⟩
  else ⟨1, 1, (bytesPerPixel fmt).toNat⟩

/- The rows of blocks of a region that is replaced. -/
def regionRows (info : TextureInfo) (mip : Nat) : Nat :=
  ((uploadAt info mip).height.toNat +
      (metalBlock info.format).height - 1) /
    (metalBlock info.format).height

/- The bytes of the blocks of a row. -/
def regionRowBytes (info : TextureInfo) (mip : Nat) : Nat :=
  ((uploadAt info mip).width.toNat +
        (metalBlock info.format).width - 1) /
      (metalBlock info.format).width *
    (metalBlock info.format).size

/-
  A byte that is read for a level, counted from its start:
  for a copy into its buffer, or for a row of its region.
-/
def ReadsByte (info : TextureInfo) (mip s : Nat) : Prop :=
  match (uploadAt info mip).buffer with
  | some buffer =>
      ∃ copies c,
        buffer.args.untile = some copies ∧ c ∈ copies ∧
          c.src ≤ s ∧ s < c.src + c.length
  | none =>
      ∃ row,
        row < regionRows info mip ∧
          row * (uploadAt info mip).bytesPerRow.toNat ≤ s ∧
            s <
              row * (uploadAt info mip).bytesPerRow.toNat +
                regionRowBytes info mip

/- No byte is read for two levels, or behind the texture. -/
structure Apart (info : TextureInfo) : Prop where
  disjoint :
    ∀ mip mip' s s',
      mip < mip' → mip' < info.mipLevels.toNat →
        ReadsByte info mip s → ReadsByte info mip' s' →
          (uploadAt info mip).offset.toNat + s ≠
            (uploadAt info mip').offset.toNat + s'
  inside :
    ∀ mip s,
      mip < info.mipLevels.toNat → ReadsByte info mip s →
        (uploadAt info mip).offset.toNat + s <
          (actualSize info).toNat

/-
  Nothing is divided by zero, and every level is read below
  what is accounted for it, and apart from the others.
-/
structure MipLayout (info : TextureInfo) : Prop where
  defined :
    ∀ mip buffer,
      mip < info.mipLevels.toNat →
        (uploadAt info mip).buffer = some buffer →
          buffer.args.untile ≠ none
  below :
    ∀ mip s,
      mip < info.mipLevels.toNat →
        ReadsByte info mip s → s < levelSurface info mip
  apart : Apart info

/- Where the last row of a region ends. -/
def regionEnd (info : TextureInfo) (mip : Nat) : Nat :=
  if regionRows info mip = 0 ∨ regionRowBytes info mip = 0 then
    0
  else
    (regionRows info mip - 1) *
        (uploadAt info mip).bytesPerRow.toNat +
      regionRowBytes info mip

/-
  A level that goes through a buffer is copied as it is and
  has enough bytes, or is not compressed and has a surface
  that fits.
-/
def SourceFits
    (info : TextureInfo)
    (mip : Nat)
    (a : UntileArgs) : Prop :=
  (a.Whole ∧ a.total ≤ levelSurface info mip) ∨
    (¬ isCompressed info.format ∧
      ∃ hDefined : a.Defined, a.SurfaceFits hDefined)

/- Any other level has the bytes of its region. -/
def LevelFits (info : TextureInfo) (mip : Nat) : Prop :=
  match (uploadAt info mip).buffer with
  | some buffer => SourceFits info mip buffer.args
  | none => regionEnd info mip ≤ levelSurface info mip

/- Every level fits, and no size of its blocks wraps. -/
structure LayoutFits (info : TextureInfo) : Prop where
  levels :
    ∀ mip, mip < info.mipLevels.toNat → LevelFits info mip
  blocks :
    bytesPerPixel info.format = 0 →
      ∀ mip,
        mip < info.mipLevels.toNat →
          levelBlocks info mip < 2 ^ 28

/- The sizes of all levels are numbers of 32 bits. -/
structure LayoutInRange (info : TextureInfo) : Prop where
  levels :
    ∀ mip buffer,
      mip < info.mipLevels.toNat →
        (uploadAt info mip).buffer = some buffer →
          ¬ isCompressed info.format →
            ∀ hDefined : buffer.args.Defined,
              buffer.args.InRange hDefined
  blocks :
    bytesPerPixel info.format = 0 →
      ∀ mip,
        mip < info.mipLevels.toNat →
          levelBlocks info mip < 2 ^ 27

theorem readsByte_of_buffer
    (hBuffer : (uploadAt info mip).buffer = some buffer)
    {s : Nat} :
    ReadsByte info mip s ↔
      ∃ copies c,
        buffer.args.untile = some copies ∧ c ∈ copies ∧
          c.src ≤ s ∧ s < c.src + c.length := by
  unfold ReadsByte
  rw [hBuffer]

theorem readsByte_of_region
    (hRegion : (uploadAt info mip).buffer = none)
    {s : Nat} :
    ReadsByte info mip s ↔
      ∃ row,
        row < regionRows info mip ∧
          row * (uploadAt info mip).bytesPerRow.toNat ≤ s ∧
            s <
              row * (uploadAt info mip).bytesPerRow.toNat +
                regionRowBytes info mip := by
  unfold ReadsByte
  rw [hRegion]

theorem readsByte_below_iff
    (hBuffer : (uploadAt info mip).buffer = some buffer)
    (limit : Nat) :
    (∀ s, ReadsByte info mip s → s < limit) ↔
      buffer.args.ReadsBelow limit := by
  simp only [readsByte_of_buffer hBuffer]
  constructor
  · intro hAll copies hCopies c hC
    by_cases hLength : c.length = 0
    · rcases UntileArgs.untile_cases hCopies with
        ⟨_, hSame⟩ | hDefined
      · rw [hSame, List.mem_singleton] at hC
        rw [hLength, hC]
        exact Nat.zero_le _
      · rcases (UntileArgs.mem_untile_iff hDefined
          hCopies).mp hC with ⟨x, y, _, _, _, hCopy⟩
        have hBpp := pos_of_ne_zero hDefined.bpp
        rw [hCopy] at hLength
        change buffer.args.bpp.toNat = 0 at hLength
        omega
    · have hLast :=
        hAll (c.src + c.length - 1)
          ⟨copies, c, hCopies, hC, by omega, by omega⟩
      omega
  · rintro hBelow s ⟨copies, c, hCopies, hC, _, hEnd⟩
    exact Nat.lt_of_lt_of_le hEnd (hBelow copies hCopies c hC)

/- The rows of a region end with its last one. -/
theorem region_below_iff
    (hRegion : (uploadAt info mip).buffer = none)
    (limit : Nat) :
    (∀ s, ReadsByte info mip s → s < limit) ↔
      regionEnd info mip ≤ limit := by
  simp only [readsByte_of_region hRegion]
  unfold regionEnd
  split_ifs with hEmpty
  · constructor
    · intro _
      exact Nat.zero_le limit
    · rintro _ s ⟨row, hRow, hStart, hEnd⟩
      omega
  · rcases not_or.mp hEmpty with ⟨hRows, hBytes⟩
    constructor
    · intro hAll
      have hLast :=
        hAll
          ((regionRows info mip - 1) *
              (uploadAt info mip).bytesPerRow.toNat +
            regionRowBytes info mip - 1)
          ⟨regionRows info mip - 1, by omega, by omega,
            by omega⟩
      omega
    · rintro hLimit s ⟨row, hRow, _, hEnd⟩
      have hBefore :=
        Nat.mul_le_mul_right
          (uploadAt info mip).bytesPerRow.toNat
          (show row ≤ regionRows info mip - 1 by omega)
      omega

theorem mipExtent_zero
    {extent : U32}
    (hSome : extent ≠ 0) :
    mipExtent extent 0 = extent := by
  unfold mipExtent
  rw [BitVec.ushiftRight_zero, if_neg hSome]

/- A first level that is untiled has pixels. -/
theorem ne_zero_of_defined
    {pitch : U32}
    (hDefined :
      (levelBuffer info info.width info.height
        pitch).args.Defined) :
    info.width ≠ 0 ∧ info.height ≠ 0 := by
  have hWidth := hDefined.width
  have hHeight := hDefined.height
  have hNone : blocks 0 * 4 = 0 := by decide
  unfold levelBuffer at hWidth hHeight
  constructor
  · intro hZero
    rw [hZero] at hWidth
    split_ifs at hWidth
    · exact hWidth hNone
    · exact hWidth rfl
  · intro hZero
    rw [hZero] at hHeight
    split_ifs at hHeight
    · exact hHeight hNone
    · exact hHeight rfl

/- The sides of a buffer are those of its level. -/
theorem levelBuffer_of_defined
    (hBuffer : (uploadAt info mip).buffer = some buffer)
    (hDefined : buffer.args.Defined) :
    ∃ pitch,
      buffer =
        levelBuffer info (mipExtent info.width mip)
          (mipExtent info.height mip) pitch := by
  unfold uploadAt at hBuffer
  split_ifs at hBuffer with hBase
  · rcases buffer_uploadBase.mp hBuffer with ⟨_, hSame⟩
    rw [hSame] at hDefined
    rcases ne_zero_of_defined hDefined with ⟨hWidth, hHeight⟩
    refine ⟨basePitch info, ?_⟩
    rw [hBase, mipExtent_zero hWidth, mipExtent_zero hHeight]
    exact hSame
  · exact ⟨_, (buffer_uploadMip.mp hBuffer).2⟩

/- Four times as many blocks do not wrap. -/
theorem toNat_blocks_mul_four (extent : U32) :
    (blocks extent * 4).toNat = (blocks extent).toNat * 4 := by
  have hFour : (4 : U32).toNat = 4 := rfl
  unfold blocks
  rw [BitVec.toNat_mul, BitVec.toNat_udiv, hFour]
  omega

theorem blocks_eq_zero
    {extent : U32}
    (hZero : blocks extent * 4 = 0) :
    blocks extent = 0 := by
  have hNat := congrArg BitVec.toNat hZero
  have hNone : (0 : U32).toNat = 0 := rfl
  rw [toNat_blocks_mul_four, hNone] at hNat
  apply BitVec.eq_of_toNat_eq
  rw [hNone]
  omega

/- A level behind the first that is copied has no bytes. -/
theorem total_uploadMip_of_whole
    (hBuffer : (uploadMip info mip).buffer = some buffer)
    (hWhole : buffer.args.Whole) :
    buffer.args.total = 0 := by
  rcases buffer_uploadMip.mp hBuffer with ⟨hTiled, hSame⟩
  have hMode : info.tileMode ≠ 0 :=
    fun hZero => hTiled (Or.inr hZero)
  have hNoLine :
      ∀ args : UntileArgs, args.pitch = 0 → args.total = 0 := by
    intro args hZero
    unfold UntileArgs.total
    rw [hZero]
    exact Nat.zero_mul _
  have hNoHeight :
      ∀ args : UntileArgs,
        args.height = 0 → args.total = 0 := by
    intro args hZero
    unfold UntileArgs.total
    rw [hZero]
    exact Nat.mul_zero _
  unfold levelBuffer at hSame
  rw [hSame] at hWhole ⊢
  split_ifs at hWhole ⊢ with hCompressed
  · rcases hWhole with hZero | hZero | hZero | hZero
    · exact absurd hZero hMode
    · apply hNoLine
      change blocks _ * blockSize info.format = 0
      rw [blocks_eq_zero hZero]
      exact BitVec.zero_mul
    · exact hNoHeight _ hZero
    · change blockSize info.format * 4 = 0 at hZero
      unfold blockSize at hZero
      split_ifs at hZero
      · exact absurd hZero (by decide)
      · exact absurd hZero (by decide)
  · rcases hWhole with hZero | hZero | hZero | hZero
    · exact absurd hZero hMode
    · apply hNoLine
      change mipExtent _ mip = 0 at hZero
      change mipExtent _ mip * _ = 0
      rw [hZero]
      exact BitVec.zero_mul
    · exact hNoHeight _ hZero
    · apply hNoLine
      change bytesPerPixel info.format = 0 at hZero
      change _ * bytesPerPixel info.format = 0
      rw [hZero]
      exact BitVec.mul_zero

end TextureCache

------
-- Compressed Levels
------

open TextureCache

namespace TextureCache

variable {info : TextureInfo} {width height : U32}

/- Only blocks of eight bytes fit, in GOBs of two lines. -/
structure CompressedShape
    (info : TextureInfo)
    (g : BlockLinear.Gob) : Prop where
  format : info.format = .BC1RGBAUnorm
  rowBytes : g.rowBytes = 32
  rows : g.rows = 2
  perRow : g.perRow = 1
  sample : g.sample = 32

theorem compressedShape
    (hDefined :
      (compressedBuffer info width height).args.Defined) :
    CompressedShape info
      ((compressedBuffer info width height).args.gob
        hDefined) := by
  have hFits := hDefined.samples
  rw [ne_eq, UntileArgs.samplesPerGobRow_eq_zero_iff
    hDefined.bpp, not_not, BitVec.le_def] at hFits
  have hBytes := UntileArgs.gob_bytes hDefined.tiled
  have hSamples :=
    UntileArgs.toNat_samplesPerGobRow
      (a := (compressedBuffer info width height).args)
  have hBpp :
      (compressedBuffer info width height).args.bpp =
        blockSize info.format * 4 :=
    rfl
  have hHalf :=
    Nat.mul_le_mul_right
      (compressedBuffer info width
        height).args.bytesPerGobRow.toNat hBytes.1
  by_cases hFormat : info.format = .BC1RGBAUnorm
  · have hSize : blockSize info.format * 4 = 32 := by
      unfold blockSize
      rw [if_pos hFormat]
      rfl
    have hNat : (32 : U32).toNat = 32 := rfl
    rw [hSize] at hBpp
    rw [hBpp, hNat] at hFits hSamples
    have hRow :
        (compressedBuffer info width
          height).args.bytesPerGobRow.toNat = 32 := by
      omega
    rw [hRow] at hBytes hSamples
    refine ⟨hFormat, hRow, ?_, ?_, ?_⟩
    · change
        (blockHeight
          (compressedBuffer info width
            height).args.tileMode).toNat = 2
      omega
    · exact hSamples
    · change
        (compressedBuffer info width height).args.bpp.toNat = 32
      rw [hBpp]
      rfl
  · have hSize : blockSize info.format * 4 = 64 := by
      unfold blockSize
      rw [if_neg hFormat]
      rfl
    have hNat : (64 : U32).toNat = 64 := rfl
    rw [hBpp, hSize, hNat] at hFits
    omega

/- Lines of 32 bytes, in the order they are stored. -/
theorem CompressedShape.offset_eq
    {g : BlockLinear.Gob}
    (hShape : CompressedShape info g)
    (width u : Nat) :
    g.offset width (u / 2 % width) (u / 2 / width * 2 + u % 2) =
      32 * u := by
  have hDiv := Nat.div_add_mod (u / 2) width
  have hBand :
      (u / 2 / width * 2 + u % 2) / 2 = u / 2 / width := by
    omega
  have hLine : (u / 2 / width * 2 + u % 2) % 2 = u % 2 := by
    omega
  unfold BlockLinear.Gob.offset BlockLinear.Gob.inner
    BlockLinear.Gob.across BlockLinear.Gob.size
  rw [hShape.rows, hShape.perRow, hShape.rowBytes,
    hShape.sample, hBand, hLine, Nat.div_one, Nat.div_one,
    Nat.mod_one, Nat.add_sub_cancel, Nat.mul_comm (_ / width),
    hDiv]
  omega

/- Blocks are untiled as if they were their pixels. -/
theorem compressedBuffer_sides
    (info : TextureInfo)
    (width height : U32) :
    (compressedBuffer info width height).args.width.toNat =
        (blocks width).toNat * 4 ∧
      (compressedBuffer info width height).args.height.toNat =
        (blocks height).toNat * 4 :=
  ⟨toNat_blocks_mul_four width, toNat_blocks_mul_four height⟩

/- The linear image has four times the bytes of its blocks. -/
theorem total_compressedBuffer
    (hFormat : info.format = .BC1RGBAUnorm)
    (hHeight : 0 < (blocks height).toNat)
    (hFew :
      (blocks width).toNat * (blocks height).toNat < 2 ^ 28) :
    (compressedBuffer info width height).args.pitch.toNat =
        (blocks width).toNat * 8 ∧
      (compressedBuffer info width height).args.total =
        32 * ((blocks width).toNat *
          (blocks height).toNat) := by
  have hEight : (8 : U32).toNat = 8 := rfl
  have hSize : blockSize info.format = 8 := if_pos hFormat
  have hLine :=
    Nat.le_mul_of_pos_right (blocks width).toNat hHeight
  have hPitch :
      (compressedBuffer info width height).args.pitch.toNat =
        (blocks width).toNat * 8 := by
    change (blocks width * blockSize info.format).toNat = _
    rw [hSize, BitVec.toNat_mul, hEight,
      Nat.mod_eq_of_lt (by omega)]
  refine ⟨hPitch, ?_⟩
  unfold UntileArgs.total
  rw [hPitch, (compressedBuffer_sides info width height).2]
  ring

/- A level that is untiled has blocks. -/
theorem blocks_pos
    (hDefined :
      (compressedBuffer info width height).args.Defined) :
    0 < (blocks width).toNat ∧ 0 < (blocks height).toNat := by
  rcases compressedBuffer_sides info width height with
    ⟨hWide, hTall⟩
  have hWidth := pos_of_ne_zero hDefined.width
  have hHeight := pos_of_ne_zero hDefined.height
  omega

/-
  The last 32 bytes of the linear image, where they are in
  the blocks, and where they are put.
-/
theorem compressed_place
    {bw bh u : Nat}
    (hU : u + 1 = bw * bh) :
    u / 2 % (bw * 4) < bw * 4 ∧
      u / 2 / (bw * 4) * 2 + u % 2 < bh * 4 ∧
        (u / 2 / (bw * 4) * 2 + u % 2) * (bw * 8) +
            u / 2 % (bw * 4) * 32 + 32 ≤
          32 * (bw * bh) := by
  have hPos : 0 < bw * bh := by omega
  have hBw : 0 < bw := Nat.pos_of_mul_pos_right hPos
  have hBh : 0 < bh := Nat.pos_of_mul_pos_left hPos
  have hDiv := Nat.div_add_mod (u / 2) (bw * 4)
  have hMod := Nat.mod_lt (u / 2) (show 0 < bw * 4 by omega)
  have hLe := Nat.le_mul_of_pos_right bw hBh
  generalize hX : u / 2 % (bw * 4) = x at hDiv hMod
  generalize hJ : u / 2 / (bw * 4) = j at hDiv
  have hBand : j < bh := by
    rw [← hJ, Nat.div_lt_iff_lt_mul (by omega)]
    have hMore : bh * (bw * 4) = bw * bh * 4 := by ring
    omega
  have hPart : bw * 4 * j = bw * j * 4 := by ring
  refine ⟨hMod, by omega, ?_⟩
  rcases Nat.mod_two_eq_zero_or_one u with hEven | hOdd
  · have hSum :
        (j * 2 + 0) * (bw * 8) = bw * j * 16 := by ring
    rw [hEven, hSum]
    omega
  · have hSum :
        (j * 2 + 1) * (bw * 8) = bw * j * 16 + bw * 8 := by
      ring
    rw [hOdd, hSum]
    omega

/- A compressed level is read behind its surface. -/
theorem not_readsBelow_compressed
    (hDefined :
      (compressedBuffer info width height).args.Defined)
    (hFew :
      (blocks width).toNat * (blocks height).toNat < 2 ^ 27) :
    ¬ (compressedBuffer info width height).args.ReadsBelow
      ((blocks width).toNat * (blocks height).toNat * 16) := by
  have hShape := compressedShape hDefined
  rcases blocks_pos hDefined with ⟨hWidth, hHeight⟩
  have hLine :=
    Nat.le_mul_of_pos_right (blocks width).toNat hHeight
  have hPos := Nat.mul_pos hWidth hHeight
  rcases total_compressedBuffer hShape.format hHeight
    (Nat.lt_trans hFew (by decide)) with ⟨hPitch, hTotal⟩
  rcases Nat.exists_eq_add_of_lt hPos with ⟨u, hU⟩
  rw [Nat.zero_add] at hU
  rcases compressed_place hU.symm with ⟨hX, hY, hPlace⟩
  have hOffset :=
    hShape.offset_eq ((blocks width).toNat * 4) u
  generalize hColumn :
    u / 2 % ((blocks width).toNat * 4) = x
      at hX hPlace hOffset
  generalize hBand :
    u / 2 / ((blocks width).toNat * 4) * 2 + u % 2 = y
      at hY hPlace hOffset
  rcases compressedBuffer_sides info width height with
    ⟨hWide, hTall⟩
  have hX' :
      x <
        (compressedBuffer info width
          height).args.width.toNat := by
    rw [hWide]
    exact hX
  have hY' :
      y <
        (compressedBuffer info width
          height).args.height.toNat := by
    rw [hTall]
    exact hY
  have hXNat := toNat_ofNat_of_lt hX'
  have hYNat := toNat_ofNat_of_lt hY'
  have hSample :
      (compressedBuffer info width height).args.bpp.toNat =
        32 :=
    hShape.sample
  have hSrc :
      ((compressedBuffer info width height).args.srcOffset
        (.ofNat 32 x) (.ofNat 32 y)).toNat = 32 * u := by
    rw [UntileArgs.toNat_srcOffset hDefined]
    · rw [hXNat, hYNat, hWide, hOffset]
    · rw [hWide]
      omega
    · rw [hXNat, hYNat, hWide, hOffset]
      omega
  have hTotalNat :
      ((compressedBuffer info width height).args.pitch *
          (compressedBuffer info width
            height).args.height).toNat =
        (compressedBuffer info width height).args.total := by
    rw [BitVec.toNat_mul]
    apply Nat.mod_eq_of_lt
    change (compressedBuffer info width height).args.total < _
    omega
  intro hBelow
  rw [UntileArgs.readsBelow_iff_noneBeyond hDefined] at hBelow
  have hEnd :=
    hBelow (.ofNat 32 x) (.ofNat 32 y)
      (by rw [BitVec.lt_def, hXNat]; exact hX')
      (by rw [BitVec.lt_def, hYNat]; exact hY') ?_
  · rw [hSrc, hSample] at hEnd
    omega
  · constructor
    · rw [UntileArgs.toNat_add_le_iff, hTotalNat, hSrc,
        hSample, hTotal, Nat.mod_eq_of_lt (by omega)]
      omega
    · apply (UntileArgs.dst_guard_of_le hTotalNat
        (by omega) ?_).2
      rw [hXNat, hYNat, hPitch, hSample, hTotal]
      exact hPlace

end TextureCache

------
-- Mip Chains
------

open TextureCache

namespace TextureCache

variable {info : TextureInfo} {mip : Nat}

/- The bytes of the first levels, by the size of each. -/
def sizesBefore (size : Nat → Nat) (n : Nat) : Nat :=
  ((List.range n).map size).sum

theorem sizesBefore_succ
    (size : Nat → Nat)
    (n : Nat) :
    sizesBefore size (n + 1) = sizesBefore size n + size n := by
  unfold sizesBefore
  rw [List.range_succ, List.map_append, List.sum_append]
  simp

theorem sizesBefore_mono
    (size : Nat → Nat)
    {m n : Nat}
    (hLe : m ≤ n) :
    sizesBefore size m ≤ sizesBefore size n := by
  induction hLe with
  | refl => exact Nat.le_refl _
  | step _ ih =>
      rw [sizesBefore_succ]
      exact Nat.le_trans ih (Nat.le_add_right _ _)

/- Smaller levels take less. -/
theorem sizesBefore_le
    {step size : Nat → Nat}
    {n : Nat}
    (hStep : ∀ m, m < n → step m ≤ size m) :
    sizesBefore step n ≤ sizesBefore size n := by
  induction n with
  | zero => exact Nat.le_refl _
  | succ n ih =>
      rw [sizesBefore_succ, sizesBefore_succ]
      have hBefore := ih fun m hM => hStep m (by omega)
      have hLast := hStep n (Nat.lt_succ_self n)
      omega

/- Sizes of 32 bits, added up in 64. -/
theorem toNat_foldl_sizes
    {term : Nat → U64}
    {size : Nat → Nat}
    {n : Nat}
    (hTerm : ∀ m, m < n → (term m).toNat = size m)
    (hSmall : ∀ m, m < n → size m < 2 ^ 32)
    (hN : n ≤ 2 ^ 32) :
    ((List.range n).foldl (fun sum m => sum + term m)
        0).toNat = sizesBefore size n ∧
      sizesBefore size n ≤ n * (2 ^ 32 - 1) := by
  induction n with
  | zero => exact ⟨rfl, Nat.zero_le _⟩
  | succ n ih =>
      rcases ih (fun m hM => hTerm m (by omega))
        (fun m hM => hSmall m (by omega)) (by omega) with
        ⟨hFold, hBound⟩
      have hNext := hSmall n (Nat.lt_succ_self n)
      rw [sizesBefore_succ, List.range_succ,
        List.foldl_append, List.foldl_cons, List.foldl_nil,
        BitVec.toNat_add, hFold,
        hTerm n (Nat.lt_succ_self n)]
      omega

/- A surface is added as it is. -/
theorem toNat_surface_term
    (info : TextureInfo)
    (m : Nat) :
    ((computeSurfaceSize (mipExtent info.width m)
        (mipExtent info.height m) (bytesPerPixel info.format)
        info.tileMode).setWidth 64).toNat =
      levelSurface info m := by
  have hSmall :=
    (computeSurfaceSize (mipExtent info.width m)
      (mipExtent info.height m) (bytesPerPixel info.format)
      info.tileMode).isLt
  rw [BitVec.toNat_setWidth]
  exact Nat.mod_eq_of_lt (by omega)

theorem levelSurface_lt
    (info : TextureInfo)
    (m : Nat) :
    levelSurface info m < 2 ^ 32 :=
  (computeSurfaceSize (mipExtent info.width m)
    (mipExtent info.height m) (bytesPerPixel info.format)
    info.tileMode).isLt

/- What is accounted for a texture that has any bytes. -/
theorem toNat_actualSize
    (hSome :
      sizesBefore (levelSurface info) info.mipLevels.toNat ≠
        0) :
    (actualSize info).toNat =
      sizesBefore (levelSurface info) info.mipLevels.toNat := by
  have hFold :=
    (toNat_foldl_sizes
      (fun m _ => toNat_surface_term info m)
      (fun m _ => levelSurface_lt info m)
      (Nat.le_of_lt info.mipLevels.isLt)).1
  unfold actualSize
  dsimp only
  rw [if_neg]
  · exact hFold
  · intro hZero
    rw [hZero] at hFold
    exact hSome hFold.symm

theorem offset_uploadAt
    (info : TextureInfo)
    (mip : Nat) :
    (uploadAt info mip).offset = computeMipOffset info mip := by
  unfold uploadAt uploadBase uploadMip computeMipOffset
  split_ifs <;> rfl

/- Levels of pixels start where those before them end. -/
theorem toNat_offset
    (hBpp : bytesPerPixel info.format ≠ 0)
    (hMip : mip < info.mipLevels.toNat) :
    (uploadAt info mip).offset.toNat =
      sizesBefore (levelSurface info) mip := by
  have hLevels := info.mipLevels.isLt
  rw [offset_uploadAt]
  unfold computeMipOffset
  rw [if_neg hBpp]
  split_ifs with hBase
  · rw [hBase]
    rfl
  · exact
      (toNat_foldl_sizes
        (fun m _ => toNat_surface_term info m)
        (fun m _ => levelSurface_lt info m) (by omega)).1

/- The bytes of the blocks of a level. -/
def blockBytes (info : TextureInfo) (mip : Nat) : Nat :=
  levelBlocks info mip * (blockSize info.format).toNat

theorem blockSize_cases (info : TextureInfo) :
    (info.format = .BC1RGBAUnorm ∧
        (blockSize info.format).toNat = 8) ∨
      (info.format ≠ .BC1RGBAUnorm ∧
        (blockSize info.format).toNat = 16) := by
  unfold blockSize
  by_cases hFormat : info.format = .BC1RGBAUnorm
  · rw [if_pos hFormat]
    exact Or.inl ⟨hFormat, rfl⟩
  · rw [if_neg hFormat]
    exact Or.inr ⟨hFormat, rfl⟩

/- Levels of blocks start where theirs end. -/
theorem toNat_offset_blocks
    (hBpp : bytesPerPixel info.format = 0)
    (hFew :
      ∀ m,
        m < info.mipLevels.toNat →
          levelBlocks info m < 2 ^ 28)
    (hMip : mip < info.mipLevels.toNat) :
    (uploadAt info mip).offset.toNat =
      sizesBefore (blockBytes info) mip := by
  have hLevels := info.mipLevels.isLt
  have hSize := blockSize_cases info
  -- The bytes of the blocks of a level do not wrap.
  have hSmall :
      ∀ m, m < mip → blockBytes info m < 2 ^ 32 := by
    intro m hM
    have hBlocks := hFew m (by omega)
    unfold blockBytes
    rcases hSize with ⟨_, hEight⟩ | ⟨_, hSixteen⟩
    · rw [hEight]
      omega
    · rw [hSixteen]
      omega
  rw [offset_uploadAt]
  unfold computeMipOffset
  rw [if_pos hBpp]
  split_ifs with hBase
  · rw [hBase]
    rfl
  · refine (toNat_foldl_sizes ?_ hSmall (by omega)).1
    intro m hM
    have hBytes := hSmall m hM
    have hWide := (blocks (mipExtent info.width m)).isLt
    have hTall := (blocks (mipExtent info.height m)).isLt
    unfold blockBytes levelBlocks at hBytes ⊢
    rw [BitVec.toNat_mul, BitVec.toNat_mul,
      BitVec.toNat_setWidth, BitVec.toNat_setWidth,
      BitVec.toNat_setWidth, Nat.mod_mul_mod,
      Nat.mod_eq_of_lt (a := (blocks _).toNat) (by omega),
      Nat.mod_eq_of_lt (a := (blocks _).toNat) (by omega),
      Nat.mod_eq_of_lt (a := (blockSize _).toNat) (by omega),
      Nat.mod_eq_of_lt (by omega)]

/-
  Levels that are stored one after the other, and read no
  further than the next one, are apart; they are part of the
  texture if no more is stored than is accounted.
-/
theorem apart_of_steps
    (step : Nat → Nat)
    (hOffset :
      ∀ mip,
        mip < info.mipLevels.toNat →
          (uploadAt info mip).offset.toNat =
            sizesBefore step mip)
    (hStep :
      ∀ mip,
        mip < info.mipLevels.toNat →
          step mip ≤ levelSurface info mip)
    (hRead :
      ∀ mip s,
        mip < info.mipLevels.toNat →
          ReadsByte info mip s → s < step mip) :
    Apart info := by
  constructor
  · intro mip mip' s s' hLater hMip' hByte _
    have hMip := Nat.lt_trans hLater hMip'
    rw [hOffset mip hMip, hOffset mip' hMip']
    have hEnd := hRead mip s hMip hByte
    have hNext := sizesBefore_succ step mip
    have hMono :=
      sizesBefore_mono step (show mip + 1 ≤ mip' from hLater)
    omega
  · intro mip s hMip hByte
    rw [hOffset mip hMip]
    have hEnd := hRead mip s hMip hByte
    have hNext := sizesBefore_succ step mip
    have hLess :=
      sizesBefore_le (n := mip + 1) fun m hM =>
        hStep m (by omega)
    have hMono :=
      sizesBefore_mono (levelSurface info)
        (show mip + 1 ≤ info.mipLevels.toNat from hMip)
    rw [toNat_actualSize (by omega)]
    omega

/- What a compressed level is accounted for. -/
theorem levelSurface_compressed
    (hBpp : bytesPerPixel info.format = 0)
    (hFew : levelBlocks info mip < 2 ^ 28) :
    levelSurface info mip = levelBlocks info mip * 16 := by
  have hSixteen : (16 : U32).toNat = 16 := rfl
  unfold levelSurface computeSurfaceSize
  rw [if_pos hBpp]
  change
    (blocks (mipExtent info.width mip) *
      blocks (mipExtent info.height mip) * 16).toNat = _
  rw [BitVec.toNat_mul, BitVec.toNat_mul, hSixteen,
    Nat.mod_mul_mod]
  apply Nat.mod_eq_of_lt
  change levelBlocks info mip * 16 < _
  omega

end TextureCache

------
-- Levels That Fit
------

open TextureCache

namespace TextureCache

variable {info : TextureInfo} {mip : Nat}
variable {buffer : LinearBuffer}

theorem levelFits_of_buffer
    (hBuffer : (uploadAt info mip).buffer = some buffer) :
    LevelFits info mip ↔ SourceFits info mip buffer.args := by
  unfold LevelFits
  rw [hBuffer]

theorem levelFits_of_region
    (hRegion : (uploadAt info mip).buffer = none) :
    LevelFits info mip ↔
      regionEnd info mip ≤ levelSurface info mip := by
  unfold LevelFits
  rw [hRegion]

/- A plain level is accounted as its surface. -/
theorem levelSurface_plain
    (hBuffer : (uploadAt info mip).buffer = some buffer)
    (hPlain : ¬ isCompressed info.format)
    (hDefined : buffer.args.Defined) :
    levelSurface info mip = buffer.args.surfaceSize := by
  rcases levelBuffer_of_defined hBuffer hDefined with
    ⟨pitch, hSame⟩
  rw [hSame]
  unfold levelBuffer
  rw [if_neg hPlain]
  rfl

/- A level that fits is read below its surface. -/
theorem lt_levelSurface
    {s : Nat}
    (hFits : LevelFits info mip)
    (hByte : ReadsByte info mip s) :
    s < levelSurface info mip := by
  cases hBuffer : (uploadAt info mip).buffer with
  | none =>
      rw [levelFits_of_region hBuffer] at hFits
      exact (region_below_iff hBuffer _).mpr hFits s hByte
  | some buffer =>
      refine (readsByte_below_iff hBuffer _).mpr ?_ s hByte
      rw [levelFits_of_buffer hBuffer] at hFits
      rcases hFits with
        ⟨hWhole, hTotal⟩ | ⟨hPlain, hDefined, hSurface⟩
      · exact (hWhole.readsBelow_iff _).mpr hTotal
      · rw [levelSurface_plain hBuffer hPlain hDefined]
        exact UntileArgs.readsBelow_of_fits hSurface

/- And nothing is divided by zero for it. -/
theorem untile_ne_none
    (hBuffer : (uploadAt info mip).buffer = some buffer)
    (hFits : LevelFits info mip) :
    buffer.args.untile ≠ none := by
  rw [levelFits_of_buffer hBuffer] at hFits
  rcases hFits with ⟨hWhole, _⟩ | ⟨_, hDefined, _⟩
  · rw [UntileArgs.untile_of_whole hWhole]
    exact nofun
  · rw [UntileArgs.untile_of_defined hDefined]
    exact nofun

/- A compressed level that is untiled is read behind it. -/
theorem not_below_of_compressed
    (hBuffer : (uploadAt info mip).buffer = some buffer)
    (hCompressed : isCompressed info.format)
    (hDefined : buffer.args.Defined)
    (hFew :
      bytesPerPixel info.format = 0 →
        levelBlocks info mip < 2 ^ 27) :
    ¬ buffer.args.ReadsBelow (levelSurface info mip) := by
  rcases levelBuffer_of_defined hBuffer hDefined with
    ⟨pitch, hSame⟩
  have hShape :
      buffer =
        compressedBuffer info (mipExtent info.width mip)
          (mipExtent info.height mip) := by
    rw [hSame]
    exact if_pos hCompressed
  subst hShape
  have hBpp : bytesPerPixel info.format = 0 := by
    rw [(compressedShape hDefined).format]
    decide
  have hBlocks := hFew hBpp
  rw [levelSurface_compressed hBpp
    (Nat.lt_trans hBlocks (by decide))]
  exact not_readsBelow_compressed hDefined hBlocks

/- Inside 32 bits, no other level is read below it. -/
theorem levelFits_of_below
    (hRange : LayoutInRange info)
    (hMip : mip < info.mipLevels.toNat)
    (hSome :
      ∀ buffer,
        (uploadAt info mip).buffer = some buffer →
          buffer.args.untile ≠ none)
    (hBelow :
      ∀ s, ReadsByte info mip s → s < levelSurface info mip) :
    LevelFits info mip := by
  cases hBuffer : (uploadAt info mip).buffer with
  | none =>
      rw [levelFits_of_region hBuffer]
      exact (region_below_iff hBuffer _).mp hBelow
  | some buffer =>
      have hReads := (readsByte_below_iff hBuffer _).mp hBelow
      rw [levelFits_of_buffer hBuffer]
      rcases UntileArgs.defined_or_whole_or_none buffer.args
        with hDefined | hWhole | ⟨_, _, hNone⟩
      · right
        by_cases hCompressed : isCompressed info.format
        · refine absurd hReads ?_
          exact not_below_of_compressed hBuffer hCompressed
            hDefined fun hBpp => hRange.blocks hBpp mip hMip
        · refine ⟨hCompressed, hDefined, ?_⟩
          have hInRange :=
            hRange.levels mip buffer hMip hBuffer hCompressed
              hDefined
          rw [levelSurface_plain hBuffer hCompressed
            hDefined] at hReads
          exact hInRange.readsBelow_iff_fits.mp hReads
      · exact Or.inl ⟨hWhole, (hWhole.readsBelow_iff _).mp hReads⟩
      · exact absurd hNone (hSome buffer hBuffer)

end TextureCache

------
-- Levels Of Blocks
------

open TextureCache

namespace TextureCache

variable {info : TextureInfo} {mip : Nat}

/- The sides of a level, if it has any pixels. -/
theorem width_uploadAt
    (hSome : (uploadAt info mip).width.toNat ≠ 0) :
    (uploadAt info mip).width = mipExtent info.width mip := by
  have hWidth :
      (uploadAt info mip).width =
        if mip = 0 then info.width
        else mipExtent info.width mip := by
    unfold uploadAt uploadBase uploadMip
    split_ifs <;> rfl
  rw [hWidth] at hSome ⊢
  split_ifs at hSome ⊢ with hBase
  · rw [hBase, mipExtent_zero]
    intro hZero
    rw [hZero] at hSome
    exact hSome rfl
  · rfl

theorem height_uploadAt
    (hSome : (uploadAt info mip).height.toNat ≠ 0) :
    (uploadAt info mip).height =
      mipExtent info.height mip := by
  have hHeight :
      (uploadAt info mip).height =
        if mip = 0 then info.height
        else mipExtent info.height mip := by
    unfold uploadAt uploadBase uploadMip
    split_ifs <;> rfl
  rw [hHeight] at hSome ⊢
  split_ifs at hSome ⊢ with hBase
  · rw [hBase, mipExtent_zero]
    intro hZero
    rw [hZero] at hSome
    exact hSome rfl
  · rfl

theorem bytesPerRow_compressed
    (hCompressed : isCompressed info.format) :
    (uploadAt info mip).bytesPerRow =
      blocks (uploadAt info mip).width *
        blockSize info.format := by
  unfold uploadAt uploadBase uploadMip
  simp only [if_pos hCompressed]
  split_ifs <;> rfl

/- The blocks of a side, unless it is so long that it wraps. -/
theorem toNat_blocks (extent : U32) :
    (blocks extent).toNat = (extent.toNat + 4 - 1) / 4 ∨
      (blocks extent).toNat = 0 := by
  have hExtent := extent.isLt
  have hThree : (3 : U32).toNat = 3 := rfl
  have hFour : (4 : U32).toNat = 4 := rfl
  unfold blocks
  rw [BitVec.toNat_udiv, BitVec.toNat_add, hThree, hFour]
  omega

/- A region of small blocks has the bytes that are skipped. -/
theorem region_lt_blockBytes
    {s : Nat}
    (hFormat : info.format = .BC1RGBAUnorm)
    (hRegion : (uploadAt info mip).buffer = none)
    (hFew : levelBlocks info mip < 2 ^ 28)
    (hBelow : s < levelSurface info mip)
    (hByte : ReadsByte info mip s) :
    s < blockBytes info mip := by
  have hBpp : bytesPerPixel info.format = 0 := by
    rw [hFormat]
    decide
  have hEight : (8 : U32).toNat = 8 := rfl
  have hSize : blockSize info.format = 8 := if_pos hFormat
  have hBlock : metalBlock info.format = ⟨4, 4, 8⟩ :=
    if_pos (Or.inl hFormat)
  rw [levelSurface_compressed hBpp hFew] at hBelow
  rcases (readsByte_of_region hRegion).mp hByte with
    ⟨row, hRow, hStart, hEnd⟩
  rw [bytesPerRow_compressed (Or.inl hFormat), hSize,
    BitVec.toNat_mul, hEight] at hStart hEnd
  unfold regionRows at hRow
  unfold regionRowBytes at hEnd
  rw [hBlock] at hRow hEnd
  dsimp only at hRow hEnd
  have hWidth :
      (uploadAt info mip).width = mipExtent info.width mip := by
    apply width_uploadAt
    omega
  have hHeight :
      (uploadAt info mip).height =
        mipExtent info.height mip := by
    apply height_uploadAt
    omega
  rw [hWidth] at hStart hEnd
  rw [hHeight] at hRow
  have hWide := toNat_blocks (mipExtent info.width mip)
  have hTall := toNat_blocks (mipExtent info.height mip)
  unfold blockBytes
  rw [hSize, hEight]
  unfold levelBlocks at hBelow hFew ⊢
  generalize (blocks (mipExtent info.width mip)).toNat = bw
    at *
  generalize (blocks (mipExtent info.height mip)).toNat = bh
    at *
  have hPos : 0 < bw * bh := by omega
  have hBw : 0 < bw := Nat.pos_of_mul_pos_right hPos
  have hBh : 0 < bh := Nat.pos_of_mul_pos_left hPos
  have hLe := Nat.le_mul_of_pos_right bw hBh
  rw [Nat.mod_eq_of_lt (by omega)] at hStart hEnd
  have hRows : (row + 1) * bw ≤ bh * bw :=
    Nat.mul_le_mul_right bw (by omega)
  have hLines : row * (bw * 8) = row * bw * 8 := by ring
  rw [Nat.succ_mul, Nat.mul_comm bh bw] at hRows
  omega

/- A level that is copied is read as far as its image. -/
theorem lt_total
    {buffer : LinearBuffer}
    {s : Nat}
    (hBuffer : (uploadAt info mip).buffer = some buffer)
    (hWhole : buffer.args.Whole)
    (hByte : ReadsByte info mip s) :
    s < buffer.args.total := by
  refine (readsByte_below_iff hBuffer _).mpr ?_ s hByte
  exact (hWhole.readsBelow_iff _).mpr (Nat.le_refl _)

/- An image of small blocks is four times what is accounted. -/
theorem total_eq_zero
    (hFormat : info.format = .BC1RGBAUnorm)
    (hFew : levelBlocks info 0 < 2 ^ 28)
    (hTotal :
      (compressedBuffer info info.width
          info.height).args.total ≤
        levelBlocks info 0 * 16) :
    (compressedBuffer info info.width
      info.height).args.total = 0 := by
  have hEight : (8 : U32).toNat = 8 := rfl
  have hSize : blockSize info.format = 8 := if_pos hFormat
  have hSides :=
    compressedBuffer_sides info info.width info.height
  have hPitch :
      (compressedBuffer info info.width
          info.height).args.pitch.toNat =
        (blocks info.width).toNat * 8 % 2 ^ 32 := by
    change (blocks info.width * blockSize info.format).toNat = _
    rw [hSize, BitVec.toNat_mul, hEight]
  by_cases hTall : (blocks info.height).toNat = 0
  · unfold UntileArgs.total
    rw [hSides.2, hTall, Nat.zero_mul, Nat.mul_zero]
  · by_cases hWide : (blocks info.width).toNat = 0
    · unfold UntileArgs.total
      rw [hPitch, hWide, Nat.zero_mul, Nat.zero_mod,
        Nat.zero_mul]
    · have hWidth : info.width ≠ 0 := by
        intro hZero
        rw [hZero] at hWide
        exact hWide rfl
      have hHeight : info.height ≠ 0 := by
        intro hZero
        rw [hZero] at hTall
        exact hTall rfl
      unfold levelBlocks at hFew hTotal
      rw [mipExtent_zero hWidth, mipExtent_zero hHeight]
        at hFew hTotal
      have hBytes :
          (compressedBuffer info info.width
              info.height).args.total =
            32 * ((blocks info.width).toNat *
              (blocks info.height).toNat) :=
        (total_compressedBuffer hFormat
          (Nat.pos_of_ne_zero hTall) hFew).2
      omega

/- A first level of small blocks that is copied has none. -/
theorem not_readsByte_of_copied
    {buffer : LinearBuffer}
    {s : Nat}
    (hFormat : info.format = .BC1RGBAUnorm)
    (hBuffer : (uploadAt info mip).buffer = some buffer)
    (hWhole : buffer.args.Whole)
    (hFew : levelBlocks info mip < 2 ^ 28)
    (hTotal : buffer.args.total ≤ levelSurface info mip) :
    ¬ ReadsByte info mip s := by
  have hBpp : bytesPerPixel info.format = 0 := by
    rw [hFormat]
    decide
  have hNone : buffer.args.total = 0 := by
    rw [levelSurface_compressed hBpp hFew] at hTotal
    unfold uploadAt at hBuffer
    split_ifs at hBuffer with hBase
    · rcases buffer_uploadBase.mp hBuffer with ⟨_, hSame⟩
      have hShape :
          buffer =
            compressedBuffer info info.width info.height := by
        rw [hSame]
        exact if_pos (Or.inl hFormat)
      subst hShape hBase
      exact total_eq_zero hFormat hFew hTotal
    · exact total_uploadMip_of_whole hBuffer hWhole
  intro hByte
  have hLast := lt_total hBuffer hWhole hByte
  omega

/- A level of blocks that fits is read as far as they go. -/
theorem lt_blockBytes
    {s : Nat}
    (hBpp : bytesPerPixel info.format = 0)
    (hFew : levelBlocks info mip < 2 ^ 28)
    (hFits : LevelFits info mip)
    (hByte : ReadsByte info mip s) :
    s < blockBytes info mip := by
  have hBelow := lt_levelSurface hFits hByte
  rcases blockSize_cases info with
    ⟨hFormat, _⟩ | ⟨_, hSixteen⟩
  · cases hBuffer : (uploadAt info mip).buffer with
    | none =>
        exact region_lt_blockBytes hFormat hBuffer hFew hBelow
          hByte
    | some buffer =>
        rw [levelFits_of_buffer hBuffer] at hFits
        rcases hFits with ⟨hWhole, hTotal⟩ | ⟨hPlain, _⟩
        · exact absurd hByte
            (not_readsByte_of_copied hFormat hBuffer hWhole
              hFew hTotal)
        · exact absurd (Or.inl hFormat) hPlain
  · unfold blockBytes
    rw [hSixteen, ← levelSurface_compressed hBpp hFew]
    exact hBelow

/- No more is stored for blocks than is accounted. -/
theorem blockBytes_le
    (hBpp : bytesPerPixel info.format = 0)
    (hFew : levelBlocks info mip < 2 ^ 28) :
    blockBytes info mip ≤ levelSurface info mip := by
  rw [levelSurface_compressed hBpp hFew]
  unfold blockBytes
  rcases blockSize_cases info with
    ⟨_, hEight⟩ | ⟨_, hSixteen⟩
  · rw [hEight]
    omega
  · rw [hSixteen]

end TextureCache

------
-- Whole Textures
------

open TextureCache

namespace TextureCache

variable {info : TextureInfo}

/- A texture whose levels fit is laid out as it should be. -/
theorem mipLayout_of_fits
    (hFits : LayoutFits info) :
    MipLayout info := by
  refine ⟨?_, ?_, ?_⟩
  · intro mip buffer hMip hBuffer
    exact untile_ne_none hBuffer (hFits.levels mip hMip)
  · intro mip s hMip hByte
    exact lt_levelSurface (hFits.levels mip hMip) hByte
  · by_cases hBpp : bytesPerPixel info.format = 0
    · have hFew := hFits.blocks hBpp
      apply apart_of_steps (blockBytes info)
      · intro mip hMip
        exact toNat_offset_blocks hBpp hFew hMip
      · intro mip hMip
        exact blockBytes_le hBpp (hFew mip hMip)
      · intro mip s hMip hByte
        exact lt_blockBytes hBpp (hFew mip hMip)
          (hFits.levels mip hMip) hByte
    · apply apart_of_steps (levelSurface info)
      · intro mip hMip
        exact toNat_offset hBpp hMip
      · intro mip _
        exact Nat.le_refl _
      · intro mip s hMip hByte
        exact lt_levelSurface (hFits.levels mip hMip) hByte

/- Inside 32 bits, no other texture is. -/
theorem mipLayout_iff
    (hRange : LayoutInRange info) :
    MipLayout info ↔ LayoutFits info := by
  constructor
  · intro hLayout
    refine ⟨?_, ?_⟩
    · intro mip hMip
      exact levelFits_of_below hRange hMip
        (fun buffer => hLayout.defined mip buffer hMip)
        (fun s => hLayout.below mip s hMip)
    · intro hBpp mip hMip
      exact Nat.lt_trans (hRange.blocks hBpp mip hMip)
        (by decide)
  · exact mipLayout_of_fits

/-
  A surface is read below its size, and the levels of a
  texture apart from each other, if they fit; inside 32 bits,
  exactly if they do.
-/
theorem footprint_iff
    (a : UntileArgs)
    (hDefined : a.Defined)
    (info : TextureInfo) :
    (a.SurfaceFits hDefined → a.ReadsBelow a.surfaceSize) ∧
      (a.InRange hDefined →
        (a.ReadsBelow a.surfaceSize ↔
          a.SurfaceFits hDefined)) ∧
        (LayoutFits info → MipLayout info) ∧
          (LayoutInRange info →
            (MipLayout info ↔ LayoutFits info)) :=
  ⟨UntileArgs.readsBelow_of_fits,
    UntileArgs.InRange.readsBelow_iff_fits,
    mipLayout_of_fits, mipLayout_iff⟩

/- A surface of one byte a pixel, in GOBs of two lines. -/
def r8Args (width : U32) : UntileArgs :=
  { width := width, height := 2, bpp := 1, tileMode := 1
    pitch := width }

/- A texture of such pixels, and one of half its sides. -/
def r8Chain (width : U32) (linear : Bool) : TextureInfo :=
  { gpuAddress := 0x1000
    width := width
    height := 2
    mipLevels := 2
    format := .R8Unorm
    tileMode := 1
    isLinear := linear }

theorem r8Args_defined : (r8Args 32).Defined := by
  constructor <;> decide

theorem r8Args_fits :
    (r8Args 32).SurfaceFits r8Args_defined :=
  Or.inl ⟨show _ < _ by decide, by decide⟩

/- Lines of one GOB are read as far as they are accounted. -/
theorem r8_layout :
    (r8Args 32).ReadsBelow (r8Args 32).surfaceSize ∧
      MipLayout (r8Chain 32 false) := by
  have hBoth :=
    footprint_iff (r8Args 32) r8Args_defined
      (r8Chain 32 false)
  refine ⟨hBoth.1 r8Args_fits, hBoth.2.2.1 ⟨?_, ?_⟩⟩
  · intro mip hMip
    have hTwo : mip < 2 := hMip
    have hCases : mip = 0 ∨ mip = 1 := by omega
    rcases hCases with rfl | rfl
    · exact Or.inr ⟨by decide, r8Args_defined, r8Args_fits⟩
    · refine Or.inr ⟨by decide, ?_, ?_⟩
      · constructor <;> decide
      · exact Or.inl ⟨show _ < _ by decide, by decide⟩
  · intro hNot
    exact absurd hNot (by decide)

/-
  A line of two GOBs is accounted for one; the second line of
  a linear chain is the first one of the next level.
-/
theorem r8_overlaps :
    (r8Args 64).Defined ∧
      ¬ (r8Args 64).ReadsBelow (r8Args 64).surfaceSize ∧
        ¬ MipLayout (r8Chain 64 false) ∧
          ¬ MipLayout (r8Chain 64 true) := by
  have hDefined : (r8Args 64).Defined := by
    constructor <;> decide
  have hCopies := UntileArgs.untile_of_defined hDefined
  have hCopied :=
    (UntileArgs.mem_untile_iff hDefined hCopies).mpr
      ⟨32, 0, by decide, by decide, by decide, rfl⟩
  refine ⟨hDefined, ?_, ?_, ?_⟩
  · intro hBelow
    have hEnd := hBelow _ hCopies _ hCopied
    exact absurd hEnd (by decide)
  · intro hLayout
    have hByte : ReadsByte (r8Chain 64 false) 0 64 :=
      ⟨_, _, hCopies, hCopied, by decide, by decide⟩
    have hEnd := hLayout.below 0 64 (by decide) hByte
    exact absurd hEnd (by decide)
  · intro hLayout
    have hSecond : ReadsByte (r8Chain 64 true) 0 64 :=
      ⟨1, by decide, by decide, by decide⟩
    have hNext : ReadsByte (r8Chain 64 true) 1 0 :=
      ⟨0, by decide, by decide, by decide⟩
    exact hLayout.apart.disjoint 0 1 64 0 (by decide)
      (by decide) hSecond hNext (by decide)

end TextureCache

end M1Switch
