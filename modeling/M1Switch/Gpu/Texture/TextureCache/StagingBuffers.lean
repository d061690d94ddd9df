import M1Switch.Gpu.Texture.TextureCache.MipLayout

/-
  The buffers that textures are untiled into.

  A buffer has the bytes of the pixels of its level.  What is
  written to it is guarded by the pitch of the texture, which
  may be larger, and for compressed levels by a height that is
  counted in pixels and not in blocks.

  Key definitions include:
    * `LinearBuffer.HoldsCopies`
    * `TextureCache.BuffersHold`

  Main results:
    * `noneOutside_iff_gapsSkipped`
    * `noneOutside_compressed_iff`
    * `buffersHold_iff`
-/

------
-- What Is Written
------

namespace M1Switch

open TextureCache

namespace LinearBuffer

variable {b : LinearBuffer}

/-
  Nothing is divided by zero, and every byte that is written
  lies inside the buffer.
-/
def HoldsCopies (b : LinearBuffer) : Prop :=
  ∃ copies,
    b.args.untile = some copies ∧
      ∀ c ∈ copies, c.dst + c.length ≤ b.size.toNat

/- No sample that is copied, wrapped or not, ends outside. -/
def NoneOutside (b : LinearBuffer) : Prop :=
  ∀ x y, x < b.args.width → y < b.args.height →
    b.args.inBounds x y →
      (b.args.dstOffset x y).toNat + b.args.bpp.toNat ≤
        b.size.toNat

theorem holdsCopies_iff_noneOutside
    (hDefined : b.args.Defined) :
    b.HoldsCopies ↔ b.NoneOutside := by
  have hCopies := UntileArgs.untile_of_defined hDefined
  constructor
  · rintro ⟨copies, hSame, hHolds⟩ x y hX hY hBounds
    exact hHolds _
      ((UntileArgs.mem_untile_iff hDefined hSame).mpr
        ⟨x, y, hX, hY, hBounds, rfl⟩)
  · intro hNone
    refine ⟨_, hCopies, ?_⟩
    intro c hC
    rcases (UntileArgs.mem_untile_iff hDefined hCopies).mp hC
      with ⟨x, y, hX, hY, hBounds, rfl⟩
    exact hNone x y hX hY hBounds

theorem holdsCopies_of_whole
    (hWhole : b.args.Whole) :
    b.HoldsCopies ↔ b.args.total ≤ b.size.toNat := by
  unfold HoldsCopies
  simp [UntileArgs.untile_of_whole hWhole]

/- A place in the linear image that does not wrap. -/
theorem toNat_dstOffset
    {a : UntileArgs}
    {x y : U32}
    (hPlace :
      y.toNat * a.pitch.toNat + x.toNat * a.bpp.toNat <
        2 ^ 32) :
    (a.dstOffset x y).toNat =
      y.toNat * a.pitch.toNat + x.toNat * a.bpp.toNat := by
  unfold UntileArgs.dstOffset
  rw [BitVec.toNat_add, BitVec.toNat_mul, BitVec.toNat_mul,
    Nat.mod_add_mod, Nat.add_mod_mod, Nat.mod_eq_of_lt hPlace]

/- Places that are all inside need no guard. -/
theorem noneOutside_of_places
    (hInside :
      ∀ x y,
        x < b.args.width.toNat →
          y < b.args.height.toNat →
            y * b.args.pitch.toNat + x * b.args.bpp.toNat +
                b.args.bpp.toNat ≤ b.size.toNat) :
    b.NoneOutside := by
  intro x y hX hY _
  have hEnd := hInside x.toNat y.toNat hX hY
  have hSize := b.size.isLt
  rw [toNat_dstOffset (by omega)]
  exact hEnd

/- The samples that are copied, where no offset wraps. -/
theorem noneOutside_iff_of_inRange
    {hDefined : b.args.Defined}
    (hRange : b.args.InRange hDefined)
    (hPlace :
      ∀ x y,
        x < b.args.width.toNat →
          y < b.args.height.toNat →
            y * b.args.pitch.toNat + x * b.args.bpp.toNat +
              b.args.bpp.toNat < 2 ^ 32) :
    b.NoneOutside ↔
      ¬ ∃ x y,
        x < b.args.width.toNat ∧ y < b.args.height.toNat ∧
          (b.args.gob hDefined).offset b.args.width.toNat x y +
              b.args.bpp.toNat ≤ b.args.total ∧
            y * b.args.pitch.toNat + x * b.args.bpp.toNat +
                b.args.bpp.toNat ≤ b.args.total ∧
              b.size.toNat <
                y * b.args.pitch.toNat +
                  x * b.args.bpp.toNat + b.args.bpp.toNat := by
  -- A sample passes its guard in natural numbers.
  have hBounds :
      ∀ x y : U32, x < b.args.width → y < b.args.height →
        (b.args.dstOffset x y).toNat =
            y.toNat * b.args.pitch.toNat +
              x.toNat * b.args.bpp.toNat ∧
          (b.args.inBounds x y ↔
            (b.args.gob hDefined).offset b.args.width.toNat
                  x.toNat y.toNat +
                b.args.bpp.toNat ≤ b.args.total ∧
              y.toNat * b.args.pitch.toNat +
                  x.toNat * b.args.bpp.toNat +
                b.args.bpp.toNat ≤ b.args.total) := by
    intro x y hX hY
    have hSmall := hPlace x.toNat y.toNat hX hY
    have hDst :=
      toNat_dstOffset (a := b.args) (x := x) (y := y)
        (by omega)
    refine ⟨hDst, ?_⟩
    unfold UntileArgs.inBounds
    rw [hRange.src_guard_iff hX hY,
      UntileArgs.toNat_add_le_iff, hRange.toNat_total, hDst,
      Nat.mod_eq_of_lt hSmall]
  constructor
  · rintro hNone ⟨x, y, hX, hY, hSrc, hDst, hBehind⟩
    have hX' := toNat_ofNat_of_lt hX
    have hY' := toNat_ofNat_of_lt hY
    have hIn : BitVec.ofNat 32 x < b.args.width := by
      rw [BitVec.lt_def, hX']
      exact hX
    have hIn' : BitVec.ofNat 32 y < b.args.height := by
      rw [BitVec.lt_def, hY']
      exact hY
    rcases hBounds _ _ hIn hIn' with ⟨hPlaced, hGuard⟩
    rw [hX', hY'] at hPlaced hGuard
    have hEnd := hNone _ _ hIn hIn' (hGuard.mpr ⟨hSrc, hDst⟩)
    rw [hPlaced] at hEnd
    omega
  · intro hNone x y hX hY hGuard
    rcases hBounds x y hX hY with ⟨hPlaced, hIff⟩
    rcases hIff.mp hGuard with ⟨hSrc, hDst⟩
    rw [hPlaced]
    by_contra hBehind
    exact hNone ⟨x.toNat, y.toNat, hX, hY, hSrc, hDst,
      Nat.lt_of_not_le hBehind⟩

end LinearBuffer

------
-- Plain Levels
------

open TextureCache

namespace LinearBuffer

variable {b : LinearBuffer} {hDefined : b.args.Defined}

/-
  The first sample of the two lines around the end of the
  buffer that is not inside is not copied.
-/
def GapsSkipped
    (b : LinearBuffer)
    (hDefined : b.args.Defined) : Prop :=
  let g := b.args.gob hDefined
  let line := g.endLine b.args.pitch.toNat b.size.toNat
  let sample := g.endSample b.args.pitch.toNat b.size.toNat
  (line + 1 < b.args.height.toNat →
    b.args.total <
      g.offset b.args.width.toNat 0 (line + 1) +
        b.args.bpp.toNat) ∧
    (sample < b.args.width.toNat →
      b.args.total <
        g.offset b.args.width.toNat sample line +
          b.args.bpp.toNat)

/-
  Lines are no longer than their pixels, or there is one, or
  no offset wraps and what ends behind the buffer is skipped.
-/
def LinesFit
    (b : LinearBuffer)
    (hDefined : b.args.Defined) : Prop :=
  b.args.pitch.toNat ≤
      b.args.width.toNat * b.args.bpp.toNat ∨
    b.args.height.toNat = 1 ∨
      (b.args.InRange hDefined ∧ b.GapsSkipped hDefined)

/- The pixels of a level have a size of 32 bits. -/
def PixelsInRange (b : LinearBuffer) : Prop :=
  b.args.width.toNat * b.args.bpp.toNat *
    b.args.height.toNat < 2 ^ 32

/- A buffer of the pixels of a level, where nothing wraps. -/
structure PlainRange
    (b : LinearBuffer)
    (hDefined : b.args.Defined) : Prop where
  args : b.args.InRange hDefined
  pixels : b.PixelsInRange

theorem toNat_size
    (hSize :
      b.size = b.args.width * b.args.bpp * b.args.height)
    (hPixels : b.PixelsInRange) :
    b.size.toNat =
      b.args.width.toNat * b.args.bpp.toNat *
        b.args.height.toNat := by
  rw [hSize, BitVec.toNat_mul, BitVec.toNat_mul,
    Nat.mod_mul_mod, Nat.mod_eq_of_lt hPixels]

/- A sample ends inside the pixels of its line. -/
theorem sample_end_le
    {a : UntileArgs}
    {x : Nat}
    (hX : x < a.width.toNat) :
    x * a.bpp.toNat + a.bpp.toNat ≤
      a.width.toNat * a.bpp.toNat := by
  have hRow := Nat.mul_le_mul_right a.bpp.toNat hX
  rw [Nat.succ_mul] at hRow
  exact hRow

/- A line ends inside the lines of the image. -/
theorem line_end_le
    {a : UntileArgs}
    {y : Nat}
    (line : Nat)
    (hY : y < a.height.toNat) :
    y * line + line ≤ line * a.height.toNat := by
  have hLines := Nat.mul_le_mul_right line hY
  rw [Nat.succ_mul, Nat.mul_comm a.height.toNat] at hLines
  exact hLines

/- Every sample ends where it would without gaps. -/
theorem noneOutside_of_short
    (hSize :
      b.size = b.args.width * b.args.bpp * b.args.height)
    (hPixels : b.PixelsInRange)
    (hShort :
      b.args.pitch.toNat ≤
        b.args.width.toNat * b.args.bpp.toNat) :
    b.NoneOutside := by
  apply noneOutside_of_places
  intro x y hX hY
  have hRow := sample_end_le hX
  have hLast :=
    line_end_le (b.args.width.toNat * b.args.bpp.toNat) hY
  have hGap := Nat.mul_le_mul_left y hShort
  rw [toNat_size hSize hPixels]
  omega

/- The pitch does not matter to a single line. -/
theorem noneOutside_of_line
    (hSize :
      b.size = b.args.width * b.args.bpp * b.args.height)
    (hPixels : b.PixelsInRange)
    (hLine : b.args.height.toNat = 1) :
    b.NoneOutside := by
  apply noneOutside_of_places
  intro x y hX hY
  have hRow := sample_end_le hX
  have hFirst : y = 0 := by omega
  rw [toNat_size hSize hPixels, hLine, hFirst, Nat.zero_mul,
    Nat.mul_one, Nat.zero_add]
  exact hRow

/- Between longer lines, the two samples decide. -/
theorem noneOutside_iff_gapsSkipped
    (hSize :
      b.size = b.args.width * b.args.bpp * b.args.height)
    (hRange : b.PlainRange hDefined)
    (hLong :
      b.args.width.toNat * b.args.bpp.toNat <
        b.args.pitch.toNat) :
    b.NoneOutside ↔ b.GapsSkipped hDefined := by
  have hWidth := pos_of_ne_zero hDefined.width
  have hHeight := pos_of_ne_zero hDefined.height
  have hBytes := toNat_size hSize hRange.pixels
  have hTotal := hRange.args.total
  -- The second guard holds of every sample.
  have hGuard :
      ∀ x y,
        x < b.args.width.toNat →
          y < b.args.height.toNat →
            y * b.args.pitch.toNat + x * b.args.bpp.toNat +
                b.args.bpp.toNat ≤ b.args.total := by
    intro x y hX hY
    have hRow := sample_end_le hX
    have hLast := line_end_le b.args.pitch.toNat hY
    unfold UntileArgs.total
    omega
  have hBelow :
      b.size.toNat ≤
        b.args.pitch.toNat * b.args.height.toNat := by
    rw [hBytes]
    exact Nat.mul_le_mul_right _ (Nat.le_of_lt hLong)
  have hSample : b.args.bpp.toNat ≤ b.size.toNat := by
    rw [hBytes, Nat.mul_right_comm]
    exact Nat.le_mul_of_pos_left _ (Nat.mul_pos hWidth hHeight)
  have hCandidates :=
    BlockLinear.Gob.exists_behind_iff
      (g := b.args.gob hDefined) b.args.total hWidth
      (Nat.le_of_lt hLong) hSample hBelow
  rw [noneOutside_iff_of_inRange hRange.args]
  · constructor
    · intro hNone
      refine ⟨fun hNext => ?_, fun hNext => ?_⟩
      · by_contra hCopied
        rcases hCandidates.mpr
          (Or.inl ⟨hNext, Nat.le_of_not_lt hCopied⟩) with
          ⟨x, y, hX, hY, hSrc, hBehind⟩
        exact hNone
          ⟨x, y, hX, hY, hSrc, hGuard x y hX hY, hBehind⟩
      · by_contra hCopied
        rcases hCandidates.mpr
          (Or.inr ⟨hNext, Nat.le_of_not_lt hCopied⟩) with
          ⟨x, y, hX, hY, hSrc, hBehind⟩
        exact hNone
          ⟨x, y, hX, hY, hSrc, hGuard x y hX hY, hBehind⟩
    · rintro ⟨hFirst, hSecond⟩ ⟨x, y, hX, hY, hSrc, _, hBehind⟩
      rcases hCandidates.mp ⟨x, y, hX, hY, hSrc, hBehind⟩ with
        ⟨hNext, hCopied⟩ | ⟨hNext, hCopied⟩
      · have hLate := hFirst hNext
        exact absurd hCopied (Nat.not_le_of_lt hLate)
      · have hLate := hSecond hNext
        exact absurd hCopied (Nat.not_le_of_lt hLate)
  · intro x y hX hY
    have hEnd := hGuard x y hX hY
    omega

/- A plain level whose lines fit holds what is copied. -/
theorem noneOutside_of_linesFit
    (hSize :
      b.size = b.args.width * b.args.bpp * b.args.height)
    (hPixels : b.PixelsInRange)
    (hFits : b.LinesFit hDefined) :
    b.NoneOutside := by
  rcases hFits with hShort | hLine | ⟨hRange, hSkipped⟩
  · exact noneOutside_of_short hSize hPixels hShort
  · exact noneOutside_of_line hSize hPixels hLine
  · rcases Nat.lt_or_ge
      (b.args.width.toNat * b.args.bpp.toNat)
      b.args.pitch.toNat with hLong | hShort
    · exact
        (noneOutside_iff_gapsSkipped hSize
          ⟨hRange, hPixels⟩ hLong).mpr hSkipped
    · exact noneOutside_of_short hSize hPixels hShort

/- Inside 32 bits, no other plain level does. -/
theorem linesFit_of_noneOutside
    (hSize :
      b.size = b.args.width * b.args.bpp * b.args.height)
    (hRange : b.PlainRange hDefined)
    (hNone : b.NoneOutside) :
    b.LinesFit hDefined := by
  rcases Nat.lt_or_ge
    (b.args.width.toNat * b.args.bpp.toNat)
    b.args.pitch.toNat with hLong | hShort
  · exact Or.inr (Or.inr ⟨hRange.args,
      (noneOutside_iff_gapsSkipped hSize hRange hLong).mp
        hNone⟩)
  · exact Or.inl hShort

end LinearBuffer

------
-- Compressed Levels
------

open TextureCache

namespace TextureCache

variable {info : TextureInfo}

/-
  The lines of a GOB of two lines, where 32 bytes are copied
  to 8 for each block: from 19 rows of blocks on, the guard of
  the source stops the copies before the end of the buffer.
-/
theorem compressed_outside_iff
    {bw bh : Nat}
    (hWidth : 0 < bw)
    (hHeight : 0 < bh) :
    (∃ x y,
      x < bw * 4 ∧ y < bh * 4 ∧
        (y / 2 * (bw * 4) + x) * 64 + y % 2 * 32 + 32 ≤
            32 * (bw * bh) ∧
          y * (bw * 8) + x * 32 + 32 ≤ 32 * (bw * bh) ∧
            bw * bh * 8 < y * (bw * 8) + x * 32 + 32) ↔
      bh < 19 := by
  constructor
  · rintro ⟨x, y, hX, _, hSrc, _, hBehind⟩
    by_contra hTall
    have hMany : bw * 19 ≤ bw * bh :=
      Nat.mul_le_mul_left bw (Nat.le_of_not_lt hTall)
    have hLine := Nat.mod_lt y (show 0 < 2 by decide)
    have hDiv := Nat.div_add_mod y 2
    generalize y / 2 = j at *
    generalize y % 2 = r at *
    have hSrcEq :
        (j * (bw * 4) + x) * 64 = bw * j * 256 + x * 64 := by
      ring
    have hDstEq :
        (2 * j + r) * (bw * 8) = bw * j * 16 + bw * r * 8 := by
      ring
    rw [← hDiv, hDstEq] at hBehind
    rw [hSrcEq] at hSrc
    have hRow : bw * r ≤ bw := by
      calc
        bw * r ≤ bw * 1 := Nat.mul_le_mul_left bw (by omega)
        _ = bw := Nat.mul_one bw
    -- How many pairs of lines are above.
    rcases Nat.lt_or_ge j 2 with hFew | hMore
    · have hBand : bw * j ≤ bw * 1 :=
        Nat.mul_le_mul_left bw (by omega)
      omega
    · rcases Nat.eq_or_lt_of_le hMore with hTwo | hThree
      · rw [← hTwo] at hBehind hSrc
        omega
      · have hBand : bw * 3 ≤ bw * j :=
          Nat.mul_le_mul_left bw hThree
        omega
  · intro hShort
    have hLe := Nat.le_mul_of_pos_right bw hHeight
    rcases Nat.lt_or_ge 8 bh with hEight | hFlat
    · rcases Nat.lt_or_ge bh 16 with hMiddle | hSixteen
      · -- The last sample of the first line.
        have hLow : bw * 9 ≤ bw * bh :=
          Nat.mul_le_mul_left bw hEight
        have hHigh : bw * bh ≤ bw * 15 :=
          Nat.mul_le_mul_left bw (by omega)
        refine ⟨bw * 4 - 1, 0, ?_, ?_, ?_, ?_, ?_⟩ <;> omega
      · -- The last sample of the fourth line.
        have hLow : bw * 16 ≤ bw * bh :=
          Nat.mul_le_mul_left bw hSixteen
        have hHigh : bw * bh ≤ bw * 18 :=
          Nat.mul_le_mul_left bw (by omega)
        refine ⟨bw * 4 - 1, 3, ?_, ?_, ?_, ?_, ?_⟩ <;> omega
    · -- A sample in the middle of the blocks.
      have hHigh : bw * bh ≤ bw * 8 :=
        Nat.mul_le_mul_left bw hFlat
      refine ⟨(bw * bh - 1) / 2, 0, ?_, ?_, ?_, ?_, ?_⟩ <;>
        omega

theorem CompressedShape.offset_of
    {g : BlockLinear.Gob}
    (hShape : CompressedShape info g)
    (width x y : Nat) :
    g.offset width x y =
      (y / 2 * width + x) * 64 + y % 2 * 32 := by
  unfold BlockLinear.Gob.offset BlockLinear.Gob.inner
    BlockLinear.Gob.across BlockLinear.Gob.size
  rw [hShape.rows, hShape.perRow, hShape.rowBytes,
    hShape.sample, Nat.div_one, Nat.div_one, Nat.mod_one,
    Nat.add_sub_cancel, Nat.zero_mul, Nat.add_zero]

/- The blocks of a level that does not wrap are few. -/
theorem few_blocks
    {width height : U32}
    (hDefined :
      (compressedBuffer info width height).args.Defined)
    (hRange :
      (compressedBuffer info width height).args.InRange
        hDefined) :
    (blocks width).toNat * (blocks height).toNat < 2 ^ 23 := by
  have hShape := compressedShape hDefined
  have hSurface := hRange.surface
  rcases compressedBuffer_sides info width height with
    ⟨hWide, hTall⟩
  have hLines :
      ((blocks height).toNat * 4 + 2 - 1) / 2 =
        (blocks height).toNat * 2 := by
    omega
  unfold UntileArgs.SurfaceInRange BlockLinear.Gob.surface
    BlockLinear.Gob.across BlockLinear.Gob.down at hSurface
  rw [UntileArgs.size_gob, hShape.perRow, hShape.rows, hWide,
    hTall, Nat.div_one, Nat.add_sub_cancel, hLines] at hSurface
  have hBlocks :
      (blocks width).toNat * 4 * ((blocks height).toNat * 2) *
          64 =
        (blocks width).toNat * (blocks height).toNat * 512 := by
    ring
  omega

/- Only tall compressed levels stay inside their buffer. -/
theorem noneOutside_compressed_iff
    {width height : U32}
    (hDefined :
      (compressedBuffer info width height).args.Defined)
    (hRange :
      (compressedBuffer info width height).args.InRange
        hDefined) :
    (compressedBuffer info width height).NoneOutside ↔
      19 ≤ (blocks height).toNat := by
  have hShape := compressedShape hDefined
  rcases blocks_pos hDefined with ⟨hWidth, hHeight⟩
  have hFew := few_blocks hDefined hRange
  have hFewer :
      (blocks width).toNat * (blocks height).toNat <
        2 ^ 28 := by
    omega
  rcases total_compressedBuffer hShape.format hHeight hFewer
    with ⟨hPitch, hTotal⟩
  have hSample :
      (compressedBuffer info width height).args.bpp.toNat =
        32 :=
    hShape.sample
  rcases compressedBuffer_sides info width height with
    ⟨hWide, hTall⟩
  have hSize :
      (compressedBuffer info width height).size.toNat =
        (blocks width).toNat * (blocks height).toNat * 8 := by
    have hEight : (8 : U32).toNat = 8 := rfl
    have hBlock : blockSize info.format = 8 :=
      if_pos hShape.format
    change
      (blocks width * blocks height *
        blockSize info.format).toNat = _
    rw [hBlock, BitVec.toNat_mul, BitVec.toNat_mul, hEight,
      Nat.mod_mul_mod, Nat.mod_eq_of_lt (by omega)]
  -- The last line starts before the end of the blocks.
  have hPlace :
      ∀ x y,
        x < (blocks width).toNat * 4 →
          y < (blocks height).toNat * 4 →
            y * ((blocks width).toNat * 8) + x * 32 + 32 <
              2 ^ 32 := by
    intro x y hX hY
    have hLines :
        y * ((blocks width).toNat * 8) ≤
          (blocks height).toNat * 4 *
            ((blocks width).toNat * 8) :=
      Nat.mul_le_mul_right _ (Nat.le_of_lt hY)
    have hBlocks :
        (blocks height).toNat * 4 * ((blocks width).toNat * 8) =
          (blocks width).toNat * (blocks height).toNat *
            32 := by
      ring
    have hLine :=
      Nat.le_mul_of_pos_right (blocks width).toNat hHeight
    omega
  rw [LinearBuffer.noneOutside_iff_of_inRange hRange]
  · simp only [hShape.offset_of, hSample, hWide, hTall, hPitch,
      hTotal, hSize]
    rw [compressed_outside_iff hWidth hHeight]
    omega
  · intro x y hX hY
    rw [hWide] at hX
    rw [hTall] at hY
    rw [hPitch, hSample]
    exact hPlace x y hX hY

end TextureCache

------
-- All Levels
------

open TextureCache

namespace TextureCache

variable {info : TextureInfo} {mip : Nat}
variable {buffer : LinearBuffer}

/- Nothing is written outside the buffer of its level. -/
def BuffersHold
    (device : MTLDevice)
    (info : TextureInfo)
    (guestMemory : Option (Nat → U8)) : Prop :=
  ∀ upload ∈ createUploads device info guestMemory,
    ∀ buffer, upload.buffer = some buffer → buffer.HoldsCopies

/-
  A level that is copied as it is has no more bytes than its
  buffer, the lines of a plain one fit, and a compressed one
  has 19 rows of blocks.
-/
def BufferFits
    (info : TextureInfo)
    (b : LinearBuffer) : Prop :=
  (b.args.Whole ∧ b.args.total ≤ b.size.toNat) ∨
    (¬ isCompressed info.format ∧ b.PixelsInRange ∧
      ∃ hDefined : b.args.Defined, b.LinesFit hDefined) ∨
      (isCompressed info.format ∧
        19 * 4 ≤ b.args.height.toNat ∧
          ∃ hDefined : b.args.Defined, b.args.InRange hDefined)

/- What is untiled into a buffer has sizes of 32 bits. -/
structure BufferInRange
    (info : TextureInfo)
    (b : LinearBuffer) : Prop where
  plain :
    ¬ isCompressed info.format →
      ∀ hDefined : b.args.Defined, b.PlainRange hDefined
  compressed :
    isCompressed info.format →
      ∀ hDefined : b.args.Defined, b.args.InRange hDefined

/- A level of blocks that is untiled has their buffer. -/
theorem eq_compressedBuffer
    (hBuffer : (uploadAt info mip).buffer = some buffer)
    (hCompressed : isCompressed info.format)
    (hDefined : buffer.args.Defined) :
    buffer =
      compressedBuffer info (mipExtent info.width mip)
        (mipExtent info.height mip) := by
  rcases levelBuffer_of_defined hBuffer hDefined with
    ⟨pitch, hSame⟩
  rw [hSame]
  exact if_pos hCompressed

/- And any other one that of its pixels. -/
theorem size_plain
    (hBuffer : (uploadAt info mip).buffer = some buffer)
    (hPlain : ¬ isCompressed info.format)
    (hDefined : buffer.args.Defined) :
    buffer.size =
      buffer.args.width * buffer.args.bpp *
        buffer.args.height := by
  rcases levelBuffer_of_defined hBuffer hDefined with
    ⟨pitch, hSame⟩
  rw [hSame]
  unfold levelBuffer
  rw [if_neg hPlain]
  rfl

/- One level is written inside its buffer if that fits. -/
theorem holdsCopies_of_fits
    (hBuffer : (uploadAt info mip).buffer = some buffer)
    (hFits : BufferFits info buffer) :
    buffer.HoldsCopies := by
  rcases hFits with ⟨hWhole, hTotal⟩ |
    ⟨hPlain, hPixels, hDefined, hLines⟩ |
    ⟨hCompressed, hRows, hDefined, hRange⟩
  · exact (LinearBuffer.holdsCopies_of_whole hWhole).mpr hTotal
  · rw [LinearBuffer.holdsCopies_iff_noneOutside hDefined]
    exact LinearBuffer.noneOutside_of_linesFit
      (size_plain hBuffer hPlain hDefined) hPixels hLines
  · rw [LinearBuffer.holdsCopies_iff_noneOutside hDefined]
    have hShape :=
      eq_compressedBuffer hBuffer hCompressed hDefined
    subst hShape
    rw [noneOutside_compressed_iff hDefined hRange]
    rw [(compressedBuffer_sides info _ _).2] at hRows
    omega

/- Inside 32 bits, no other level is. -/
theorem bufferFits_of_holds
    (hBuffer : (uploadAt info mip).buffer = some buffer)
    (hRange : BufferInRange info buffer)
    (hHolds : buffer.HoldsCopies) :
    BufferFits info buffer := by
  rcases UntileArgs.defined_or_whole_or_none buffer.args with
    hDefined | hWhole | ⟨_, _, hNone⟩
  · right
    rw [LinearBuffer.holdsCopies_iff_noneOutside hDefined]
      at hHolds
    by_cases hCompressed : isCompressed info.format
    · have hInRange := hRange.compressed hCompressed hDefined
      have hShape :=
        eq_compressedBuffer hBuffer hCompressed hDefined
      subst hShape
      have hRows :=
        (noneOutside_compressed_iff hDefined hInRange).mp
          hHolds
      refine Or.inr ⟨hCompressed, ?_, hDefined, hInRange⟩
      rw [(compressedBuffer_sides info _ _).2]
      omega
    · have hInRange := hRange.plain hCompressed hDefined
      exact Or.inl ⟨hCompressed, hInRange.pixels, hDefined,
        LinearBuffer.linesFit_of_noneOutside
          (size_plain hBuffer hCompressed hDefined) hInRange
          hHolds⟩
  · exact Or.inl
      ⟨hWhole,
        (LinearBuffer.holdsCopies_of_whole hWhole).mp hHolds⟩
  · rcases hHolds with ⟨copies, hCopies, _⟩
    cases hNone.symm.trans hCopies

/- Every level that goes through a buffer has one that fits. -/
def LevelsFit (info : TextureInfo) : Prop :=
  ∀ mip buffer,
    mip < max 1 info.mipLevels.toNat →
      (uploadAt info mip).buffer = some buffer →
        BufferFits info buffer

def LevelsInRange (info : TextureInfo) : Prop :=
  ∀ mip buffer,
    mip < max 1 info.mipLevels.toNat →
      (uploadAt info mip).buffer = some buffer →
        BufferInRange info buffer

theorem buffersHold_of_fit
    {device : MTLDevice}
    {guestMemory : Option (Nat → U8)}
    (hFit :
      Creates device info guestMemory → LevelsFit info) :
    BuffersHold device info guestMemory := by
  intro upload hUpload buffer hBuffer
  have hCreates : Creates device info guestMemory := by
    by_contra hNot
    rw [createUploads_of_not_creates hNot] at hUpload
    cases hUpload
  rw [createUploads_of_creates hCreates,
    mem_uploads_iff] at hUpload
  rcases hUpload with ⟨mip, hMip, rfl⟩
  exact holdsCopies_of_fits hBuffer
    (hFit hCreates mip buffer hMip hBuffer)

/-
  Untiling stays inside the buffers if no texture is made, or
  the buffers of all its levels fit; inside 32 bits, exactly
  then.
-/
theorem buffersHold_iff
    (device : MTLDevice)
    (info : TextureInfo)
    (guestMemory : Option (Nat → U8)) :
    ((Creates device info guestMemory → LevelsFit info) →
        BuffersHold device info guestMemory) ∧
      (LevelsInRange info →
        (BuffersHold device info guestMemory ↔
          (Creates device info guestMemory →
            LevelsFit info))) := by
  refine ⟨buffersHold_of_fit, ?_⟩
  intro hRange
  constructor
  · intro hHold hCreates mip buffer hMip hBuffer
    apply bufferFits_of_holds hBuffer
      (hRange mip buffer hMip hBuffer)
    refine hHold (uploadAt info mip) ?_ buffer hBuffer
    rw [createUploads_of_creates hCreates, mem_uploads_iff]
    exact ⟨mip, hMip, rfl⟩
  · exact buffersHold_of_fit

/- Four by four RGBA8 pixels, in lines of `pitch` bytes. -/
def pitchedInfo (pitch : U32) : TextureInfo :=
  { gpuAddress := 0x1000
    width := 4
    height := 4
    format := .RGBA8Unorm
    tileMode := 1
    pitch := pitch }

/- The second line of a pitch of 64 bytes is written behind. -/
theorem pitched_overflows :
    ¬ BuffersHold anyDevice (pitchedInfo 64)
      (some fun _ => 0) := by
  intro hHold
  have hDefined : (⟨4, 4, 4, 1, 64⟩ : UntileArgs).Defined := by
    constructor <;> decide
  have hCopies := UntileArgs.untile_of_defined hDefined
  have hCopied :=
    (UntileArgs.mem_untile_iff hDefined hCopies).mpr
      ⟨0, 1, by decide, by decide, by decide, rfl⟩
  rcases
    hHold (uploadBase (pitchedInfo 64)) (by decide)
      ⟨64, ⟨4, 4, 4, 1, 64⟩⟩ (by decide) with
    ⟨copies, hSame, hInside⟩
  cases hSame.symm.trans hCopies
  exact absurd (hInside _ hCopied) (by decide)

/- A pitch of the bytes of its pixels is kept to. -/
theorem pitched_holds :
    BuffersHold anyDevice (pitchedInfo 16)
      (some fun _ => 0) := by
  apply
    (buffersHold_iff anyDevice (pitchedInfo 16)
      (some fun _ => 0)).1
  intro _ mip buffer hMip hBuffer
  have hZero : mip = 0 := Nat.lt_one_iff.mp hMip
  subst hZero
  cases hBuffer
  refine Or.inr (Or.inl ⟨by decide, show _ < _ by decide, ?_, ?_⟩)
  · constructor <;> decide
  · exact Or.inl (by decide)

end TextureCache

end M1Switch
