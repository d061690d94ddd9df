import M1Switch.Gpu.Texture.TextureCache.Uploads

/-
  What untiling reads, beside what a surface is said to have.

  A surface is measured with the samples of a whole GOB along
  a line, but untiled with those of one line of it.  The two
  agree only for surfaces that are one GOB wide.

  Key definitions include:
    * `UntileArgs.InRange`
    * `UntileArgs.ReadsBelow`

  Main results:
    * `readsBelow_of_fits`
    * `readsBelow_iff_fits`
    * `untile_cases`
-/

------
-- Offsets That Do Not Wrap
------

namespace M1Switch

open TextureCache

namespace UntileArgs

variable {a : UntileArgs} {hDefined : Defined a} {x y : U32}

/- The bytes of the linear image. -/
def total (a : UntileArgs) : Nat :=
  a.pitch.toNat * a.height.toNat

/- The blocks are not too large for offsets of 32 bits. -/
def SurfaceInRange
    (a : UntileArgs)
    (hDefined : Defined a) : Prop :=
  (a.gob hDefined).surface a.width.toNat a.height.toNat <
    2 ^ 32

/- And neither is the linear image. -/
structure InRange
    (a : UntileArgs)
    (hDefined : Defined a) : Prop where
  surface : SurfaceInRange a hDefined
  total : a.total < 2 ^ 32

theorem InRange.toNat_total
    (hRange : InRange a hDefined) :
    (a.pitch * a.height).toNat = a.total := by
  rw [BitVec.toNat_mul]
  exact Nat.mod_eq_of_lt hRange.total

theorem down_pos
    (hDefined : Defined a) :
    0 < (a.gob hDefined).down a.height.toNat := by
  have hHeight := pos_of_ne_zero hDefined.height
  exact Nat.zero_lt_of_lt
    (BlockLinear.Gob.div_lt_down (g := a.gob hDefined) hHeight)

theorem SurfaceInRange.across
    (hSurface : SurfaceInRange a hDefined) :
    (a.gob hDefined).across a.width.toNat * 64 < 2 ^ 32 := by
  have hDown := down_pos hDefined
  unfold SurfaceInRange BlockLinear.Gob.surface at hSurface
  rw [size_gob] at hSurface
  have hLe :=
    Nat.mul_le_mul_right 64
      (Nat.le_mul_of_pos_right
        ((a.gob hDefined).across a.width.toNat) hDown)
  omega

theorem SurfaceInRange.width
    (hSurface : SurfaceInRange a hDefined) :
    a.width.toNat ≤ 2 ^ 31 := by
  have hAcross := hSurface.across
  have hSamples : (a.gob hDefined).perRow ≤ 32 :=
    samplesPerGobRow_le hDefined
  have hWidth :
      a.width.toNat ≤
        (a.gob hDefined).across a.width.toNat *
          (a.gob hDefined).perRow :=
    BlockLinear.Gob.le_across_mul
  have hMul :=
    Nat.mul_le_mul_left
      ((a.gob hDefined).across a.width.toNat) hSamples
  omega

theorem SurfaceInRange.height
    (hSurface : SurfaceInRange a hDefined) :
    a.height.toNat ≤ 2 ^ 31 := by
  have hAcross :
      0 < (a.gob hDefined).across a.width.toNat :=
    Nat.zero_lt_of_lt
      (BlockLinear.Gob.div_lt_across (g := a.gob hDefined)
        (pos_of_ne_zero hDefined.width))
  have hRows : (a.gob hDefined).rows ≤ 32 :=
    blockHeight_le hDefined.tiled
  have hHeight :
      a.height.toNat ≤
        (a.gob hDefined).down a.height.toNat *
          (a.gob hDefined).rows :=
    BlockLinear.Gob.le_down_mul
  have hMul :=
    Nat.mul_le_mul_left
      ((a.gob hDefined).down a.height.toNat) hRows
  unfold SurfaceInRange BlockLinear.Gob.surface at hSurface
  rw [size_gob] at hSurface
  have hLe :=
    Nat.mul_le_mul_right 64
      (Nat.le_mul_of_pos_left
        ((a.gob hDefined).down a.height.toNat) hAcross)
  omega

theorem offset_le
    (hDefined : Defined a)
    (hX : x < a.width)
    (hY : y < a.height) :
    (a.gob hDefined).offset a.width.toNat x.toNat y.toNat +
        a.bpp.toNat ≤
      (a.gob hDefined).surface a.width.toNat
        a.height.toNat :=
  BlockLinear.Gob.offset_le_surface (BitVec.lt_def.mp hX)
    (BitVec.lt_def.mp hY)

theorem SurfaceInRange.toNat_srcOffset
    (hSurface : SurfaceInRange a hDefined)
    (hX : x < a.width)
    (hY : y < a.height) :
    (a.srcOffset x y).toNat =
      (a.gob hDefined).offset a.width.toNat x.toNat
        y.toNat := by
  have hWidth := hSurface.width
  have hOffset := offset_le hDefined hX hY
  unfold SurfaceInRange at hSurface
  exact UntileArgs.toNat_srcOffset hDefined (by omega)
    (by omega)

/- The first guard, without wrapping. -/
theorem InRange.src_guard_iff
    (hRange : InRange a hDefined)
    (hX : x < a.width)
    (hY : y < a.height) :
    a.srcOffset x y + a.bpp ≤ a.pitch * a.height ↔
      (a.gob hDefined).offset a.width.toNat x.toNat y.toNat +
        a.bpp.toNat ≤ a.total := by
  have hSurface := hRange.surface
  have hOffset := offset_le hDefined hX hY
  unfold SurfaceInRange at hSurface
  rw [toNat_add_le_iff, hRange.toNat_total,
    hRange.surface.toNat_srcOffset hX hY,
    Nat.mod_eq_of_lt (by omega)]

/- The place of a sample in the linear image, likewise. -/
theorem dst_guard_of_le
    (hTotal : (a.pitch * a.height).toNat = a.total)
    (hRange : a.total < 2 ^ 32)
    (hPlace :
      y.toNat * a.pitch.toNat + x.toNat * a.bpp.toNat +
        a.bpp.toNat ≤ a.total) :
    (a.dstOffset x y).toNat =
        y.toNat * a.pitch.toNat + x.toNat * a.bpp.toNat ∧
      a.dstOffset x y + a.bpp ≤ a.pitch * a.height := by
  have hFits := Nat.lt_of_le_of_lt hPlace hRange
  have hDst :
      (a.dstOffset x y).toNat =
        y.toNat * a.pitch.toNat + x.toNat * a.bpp.toNat := by
    unfold dstOffset
    rw [BitVec.toNat_add, BitVec.toNat_mul, BitVec.toNat_mul,
      Nat.mod_add_mod, Nat.add_mod_mod,
      Nat.mod_eq_of_lt (by omega)]
  refine ⟨hDst, ?_⟩
  rw [toNat_add_le_iff, hTotal, hDst,
    Nat.mod_eq_of_lt (by omega)]
  exact hPlace

end UntileArgs

------
-- One Surface
------

open TextureCache

namespace UntileArgs

variable {a : UntileArgs} {hDefined : Defined a}

/- No byte is read at the limit or behind it. -/
def ReadsBelow (a : UntileArgs) (limit : Nat) : Prop :=
  ∀ copies, a.untile = some copies →
    ∀ c ∈ copies, c.src + c.length ≤ limit

/- What is accounted for a surface of these samples. -/
def surfaceSize (a : UntileArgs) : Nat :=
  (computeSurfaceSize a.width a.height a.bpp
    a.tileMode).toNat

/- No sample that is copied, wrapped or not, ends behind. -/
def NoneBeyond (a : UntileArgs) (limit : Nat) : Prop :=
  ∀ x y, x < a.width → y < a.height → a.inBounds x y →
    (a.srcOffset x y).toNat + a.bpp.toNat ≤ limit

/-
  The surface is one GOB wide, or the linear image ends with
  the first sample behind it at the latest.  No offset wraps
  in the blocks, or at the end of a sample.
-/
def SurfaceFits
    (a : UntileArgs)
    (hDefined : Defined a) : Prop :=
  (SurfaceInRange a hDefined ∧
      a.width.toNat ≤ a.samplesPerGobRow.toNat) ∨
    ((a.pitch * a.height).toNat <
        a.surfaceSize + a.bpp.toNat ∧
      (SurfaceInRange a hDefined ∨
        a.samplesPerGobRow.toNat * a.bpp.toNat ≠
          a.bytesPerGobRow.toNat))

theorem readsBelow_iff_noneBeyond
    (hDefined : Defined a)
    (limit : Nat) :
    a.ReadsBelow limit ↔ a.NoneBeyond limit := by
  have hCopies := untile_of_defined hDefined
  constructor
  · intro hBelow x y hX hY hBounds
    exact hBelow _ hCopies _
      ((mem_untile_iff hDefined hCopies).mpr
        ⟨x, y, hX, hY, hBounds, rfl⟩)
  · intro hNone copies hCopies c hC
    rcases (mem_untile_iff hDefined hCopies).mp hC with
      ⟨x, y, hX, hY, hBounds, rfl⟩
    exact hNone x y hX hY hBounds

/- Below the end of a block, if there are enough bytes. -/
theorem InRange.readsBelow_iff
    (hRange : InRange a hDefined)
    (k : Nat) :
    a.ReadsBelow (k * 64) ↔
      (a.gob hDefined).surface a.width.toNat
          a.height.toNat ≤ k * 64 ∨
        a.total < k * 64 + a.bpp.toNat := by
  rw [readsBelow_iff_noneBeyond hDefined]
  constructor
  · intro hNone
    by_contra hBoth
    rcases not_or.mp hBoth with ⟨hShort, hLong⟩
    have hExists :
        ∃ x y,
          x < a.width.toNat ∧ y < a.height.toNat ∧
            (a.gob hDefined).offset a.width.toNat x y =
                k * 64 ∧
              y * a.pitch.toNat + x * a.bpp.toNat +
                  a.bpp.toNat ≤ a.total := by
      rw [← size_gob hDefined]
      apply BlockLinear.Gob.exists_at_block
      · rw [size_gob]
        omega
      · rw [size_gob]
        exact Nat.le_of_not_lt hLong
    rcases hExists with ⟨x, y, hX, hY, hOffset, hPlace⟩
    have hX' := toNat_ofNat_of_lt hX
    have hY' := toNat_ofNat_of_lt hY
    have hIn : BitVec.ofNat 32 x < a.width := by
      rw [BitVec.lt_def, hX']
      exact hX
    have hIn' : BitVec.ofNat 32 y < a.height := by
      rw [BitVec.lt_def, hY']
      exact hY
    have hSrc := hRange.surface.toNat_srcOffset hIn hIn'
    rw [hX', hY', hOffset] at hSrc
    have hBounds :
        a.inBounds (BitVec.ofNat 32 x)
          (BitVec.ofNat 32 y) := by
      constructor
      · rw [hRange.src_guard_iff hIn hIn', hX', hY', hOffset]
        exact Nat.le_of_not_lt hLong
      · refine (dst_guard_of_le hRange.toNat_total
          hRange.total ?_).2
        rw [hX', hY']
        exact hPlace
    have hEnd := hNone _ _ hIn hIn' hBounds
    have hBpp := pos_of_ne_zero hDefined.bpp
    omega
  · rintro hFits x y hX hY ⟨hSrc, _⟩
    rw [hRange.src_guard_iff hX hY] at hSrc
    rw [hRange.surface.toNat_srcOffset hX hY]
    by_contra hBehind
    have hStart :
        k * 64 ≤
          (a.gob hDefined).offset a.width.toNat x.toNat
            y.toNat := by
      rw [← size_gob hDefined]
      apply BlockLinear.Gob.le_offset_of_lt
      rw [size_gob]
      exact Nat.lt_of_not_le hBehind
    have hEnd := offset_le hDefined hX hY
    rcases hFits with hShort | hFew
    · omega
    · omega

/- The GOBs along a line, as surfaces are measured. -/
theorem SurfaceInRange.surfaceSize_eq
    (hSurface : SurfaceInRange a hDefined) :
    ∃ columns,
      a.surfaceSize =
          columns * (a.gob hDefined).down a.height.toNat *
            64 ∧
        ((a.gob hDefined).across a.width.toNat ≤ columns ↔
          a.width.toNat ≤ a.samplesPerGobRow.toNat) := by
  have hWidth := hSurface.width
  have hWidthPos := pos_of_ne_zero hDefined.width
  have hBpp := pos_of_ne_zero hDefined.bpp
  have hPerRow := (a.gob hDefined).perRow_pos
  change 0 < a.samplesPerGobRow.toNat at hPerRow
  have hBytes := gob_bytes hDefined.tiled
  have hSize : GOB_SIZE_BYTES.toNat = 64 := rfl
  -- A whole GOB has the samples of two of its lines.
  have hTwice :
      a.samplesPerGobRow.toNat * 2 ≤ 64 / a.bpp.toNat := by
    rw [Nat.le_div_iff_mul_le hBpp]
    have hFits := (a.gob hDefined).fits
    change a.samplesPerGobRow.toNat * a.bpp.toNat ≤
      a.bytesPerGobRow.toNat at hFits
    have hHalf :=
      Nat.mul_le_mul_right a.bytesPerGobRow.toNat hBytes.1
    calc
      a.samplesPerGobRow.toNat * 2 * a.bpp.toNat =
          2 * (a.samplesPerGobRow.toNat * a.bpp.toNat) := by
        ring
      _ ≤ 2 * a.bytesPerGobRow.toNat :=
        Nat.mul_le_mul_left _ hFits
      _ ≤ 64 := by omega
  have hMost : 64 / a.bpp.toNat ≤ 64 := Nat.div_le_self _ _
  rcases BlockLinear.Gob.across_le_iff (g := a.gob hDefined)
    hTwice hWidthPos with ⟨hFewer, hIff⟩
  refine ⟨_, ?_, hIff⟩
  have hSamples :
      (GOB_SIZE_BYTES / a.bpp).toNat = 64 / a.bpp.toNat := by
    rw [BitVec.toNat_udiv, hSize]
  have hColumns :
      ((a.width + GOB_SIZE_BYTES / a.bpp - 1) /
          (GOB_SIZE_BYTES / a.bpp)).toNat =
        (a.width.toNat + 64 / a.bpp.toNat - 1) /
          (64 / a.bpp.toNat) := by
    rw [BitVec.toNat_udiv,
      toNat_add_sub_one (by omega) (by omega), hSamples]
  have hDown :
      ((a.height + blockHeight a.tileMode - 1) /
          blockHeight a.tileMode).toNat =
        (a.gob hDefined).down a.height.toNat := by
    have hHeight := hSurface.height
    have hFew := blockHeight_le hDefined.tiled
    rw [BitVec.toNat_udiv,
      toNat_add_sub_one (by omega) (by omega)]
    rfl
  unfold SurfaceInRange BlockLinear.Gob.surface at hSurface
  rw [size_gob] at hSurface
  have hBelow :=
    Nat.mul_le_mul_right 64
      (Nat.mul_le_mul_right
        ((a.gob hDefined).down a.height.toNat) hFewer)
  unfold surfaceSize computeSurfaceSize
  rw [if_neg hDefined.bpp, if_neg hDefined.tiled]
  change
    ((a.width + GOB_SIZE_BYTES / a.bpp - 1) /
          (GOB_SIZE_BYTES / a.bpp) *
        ((a.height + blockHeight a.tileMode - 1) /
          blockHeight a.tileMode) * GOB_SIZE_BYTES).toNat = _
  rw [BitVec.toNat_mul, BitVec.toNat_mul, hColumns, hDown,
    hSize, Nat.mod_mul_mod, Nat.mod_eq_of_lt (by omega)]

/- A surface that is one GOB wide is accounted as it is. -/
theorem SurfaceInRange.surface_le_iff
    (hSurface : SurfaceInRange a hDefined) :
    (a.gob hDefined).surface a.width.toNat
        a.height.toNat ≤ a.surfaceSize ↔
      a.width.toNat ≤ a.samplesPerGobRow.toNat := by
  rcases hSurface.surfaceSize_eq with ⟨columns, hSize, hIff⟩
  rw [← hIff, hSize]
  unfold BlockLinear.Gob.surface
  rw [size_gob]
  constructor
  · intro hLe
    exact Nat.le_of_mul_le_mul_right
      (Nat.le_of_mul_le_mul_right hLe (by decide))
      (down_pos hDefined)
  · intro hLe
    exact Nat.mul_le_mul_right _ (Nat.mul_le_mul_right _ hLe)

theorem InRange.readsBelow_surface_iff
    (hRange : InRange a hDefined) :
    a.ReadsBelow a.surfaceSize ↔
      a.width.toNat ≤ a.samplesPerGobRow.toNat ∨
        a.total < a.surfaceSize + a.bpp.toNat := by
  rcases hRange.surface.surfaceSize_eq with
    ⟨columns, hSize, _⟩
  have hReads := hRange.readsBelow_iff
    (columns * (a.gob hDefined).down a.height.toNat)
  rw [← hSize, hRange.surface.surface_le_iff] at hReads
  exact hReads

/- Whole GOBs are accounted, wrapped or not. -/
theorem dvd_surfaceSize
    (hDefined : Defined a) :
    64 ∣ a.surfaceSize := by
  have hSize : GOB_SIZE_BYTES.toNat = 64 := rfl
  unfold surfaceSize computeSurfaceSize
  rw [if_neg hDefined.bpp, if_neg hDefined.tiled,
    BitVec.toNat_mul, hSize]
  omega

/- Where a sample is in its GOB, wrapped or not. -/
theorem srcOffset_mod
    (hDefined : Defined a)
    (x y : U32) :
    (a.srcOffset x y).toNat % 64 =
      (a.gob hDefined).inner x.toNat y.toNat := by
  have hSize : GOB_SIZE_BYTES.toNat = 64 := rfl
  have hInner :
      (a.gob hDefined).inner x.toNat y.toNat + a.bpp.toNat ≤
        (a.gob hDefined).size :=
    BlockLinear.Gob.inner_add_le
  have hBpp := pos_of_ne_zero hDefined.bpp
  rw [size_gob] at hInner
  change
    y.toNat % (blockHeight a.tileMode).toNat *
        a.bytesPerGobRow.toNat +
      x.toNat % a.samplesPerGobRow.toNat * a.bpp.toNat +
        a.bpp.toNat ≤ 64 at hInner
  change _ =
    y.toNat % (blockHeight a.tileMode).toNat *
        a.bytesPerGobRow.toNat +
      x.toNat % a.samplesPerGobRow.toNat * a.bpp.toNat
  unfold srcOffset
  dsimp only
  generalize hIndex :
    (y / blockHeight a.tileMode) *
        ((a.width + a.samplesPerGobRow - 1) /
          a.samplesPerGobRow) +
      x / a.samplesPerGobRow = index
  simp only [BitVec.toNat_add, BitVec.toNat_mul,
    BitVec.toNat_umod, hSize]
  omega

/- No sample of a row with room ends where offsets wrap. -/
theorem src_add_lt
    (hDefined : Defined a)
    (hRoom :
      a.samplesPerGobRow.toNat * a.bpp.toNat ≠
        a.bytesPerGobRow.toNat)
    (x y : U32) :
    (a.srcOffset x y).toNat + a.bpp.toNat < 2 ^ 32 := by
  have hMod := srcOffset_mod hDefined x y
  have hFits := (a.gob hDefined).fits
  have hInner :
      (a.gob hDefined).inner x.toNat y.toNat + a.bpp.toNat <
        (a.gob hDefined).size :=
    BlockLinear.Gob.inner_add_lt
      (Nat.lt_of_le_of_ne hFits hRoom)
  have hSrc := (a.srcOffset x y).isLt
  rw [size_gob] at hInner
  omega

/-
  Where the guard is exact, samples of blocks that start
  below the surface are all that pass it.
-/
theorem src_add_le_of_guard
    (hDefined : Defined a)
    {x y : U32}
    (hSum : (a.srcOffset x y).toNat + a.bpp.toNat < 2 ^ 32)
    (hTotal :
      (a.pitch * a.height).toNat <
        a.surfaceSize + a.bpp.toNat)
    (hGuard : a.srcOffset x y + a.bpp ≤ a.pitch * a.height) :
    (a.srcOffset x y).toNat + a.bpp.toNat ≤
      a.surfaceSize := by
  have hMod := srcOffset_mod hDefined x y
  have hInner :
      (a.gob hDefined).inner x.toNat y.toNat + a.bpp.toNat ≤
        (a.gob hDefined).size :=
    BlockLinear.Gob.inner_add_le
  rcases dvd_surfaceSize hDefined with ⟨gobs, hSurface⟩
  rw [size_gob] at hInner
  rw [toNat_add_le_iff, Nat.mod_eq_of_lt hSum] at hGuard
  omega

/- A surface that fits is read below its end. -/
theorem readsBelow_of_fits
    (hFits : SurfaceFits a hDefined) :
    a.ReadsBelow a.surfaceSize := by
  intro copies hCopies c hC
  rcases (mem_untile_iff hDefined hCopies).mp hC with
    ⟨x, y, hX, hY, hBounds, rfl⟩
  have hEnd := offset_le hDefined hX hY
  rcases hFits with ⟨hSurface, hNarrow⟩ | ⟨hTotal, hExact⟩
  · have hWhole := hSurface.surface_le_iff.mpr hNarrow
    have hSrc := hSurface.toNat_srcOffset hX hY
    change
      (a.srcOffset x y).toNat + a.bpp.toNat ≤ a.surfaceSize
    omega
  · refine src_add_le_of_guard hDefined ?_ hTotal hBounds.1
    rcases hExact with hSurface | hRoom
    · rw [hSurface.toNat_srcOffset hX hY]
      exact Nat.lt_of_le_of_lt hEnd hSurface
    · exact src_add_lt hDefined hRoom x y

/- Inside 32 bits, no other surface is. -/
theorem InRange.readsBelow_iff_fits
    (hRange : InRange a hDefined) :
    a.ReadsBelow a.surfaceSize ↔ SurfaceFits a hDefined := by
  constructor
  · intro hBelow
    rcases hRange.readsBelow_surface_iff.mp hBelow with
      hNarrow | hFew
    · exact Or.inl ⟨hRange.surface, hNarrow⟩
    · rw [← hRange.toNat_total] at hFew
      exact Or.inr ⟨hFew, Or.inl hRange.surface⟩
  · exact readsBelow_of_fits

end UntileArgs

------
-- Whole Images
------

open TextureCache

namespace UntileArgs

variable {a : UntileArgs}

/- Nothing is untiled: the image is copied as it is. -/
def Whole (a : UntileArgs) : Prop :=
  a.tileMode = 0 ∨ a.width = 0 ∨ a.height = 0 ∨ a.bpp = 0

theorem untile_of_whole
    (hWhole : Whole a) :
    a.untile = some [⟨0, 0, a.total⟩] :=
  if_pos hWhole

theorem untile_cases
    {copies : List Copy}
    (hCopies : a.untile = some copies) :
    (Whole a ∧ copies = [⟨0, 0, a.total⟩]) ∨ Defined a := by
  by_cases hWhole : Whole a
  · left
    rw [untile_of_whole hWhole, Option.some_inj] at hCopies
    exact ⟨hWhole, hCopies.symm⟩
  · right
    rcases not_or.mp hWhole with ⟨hTiled, hRest⟩
    rcases not_or.mp hRest with ⟨hWidth, hRest⟩
    rcases not_or.mp hRest with ⟨hHeight, hBpp⟩
    refine ⟨hTiled, hWidth, hHeight, hBpp, ?_⟩
    intro hZero
    have hNone : a.untile = none :=
      untile_eq_none_iff.mpr
        ⟨hTiled, hWidth, hHeight, hBpp, hZero⟩
    rw [hNone] at hCopies
    cases hCopies

/- Samples are copied, or the image, or zero is divided by. -/
theorem defined_or_whole_or_none (a : UntileArgs) :
    Defined a ∨ Whole a ∨
      (¬ Defined a ∧ ¬ Whole a ∧ a.untile = none) := by
  by_cases hWhole : Whole a
  · exact Or.inr (Or.inl hWhole)
  · cases hUntile : a.untile with
    | some copies =>
        rcases untile_cases hUntile with ⟨hNot, _⟩ | hDefined
        · exact absurd hNot hWhole
        · exact Or.inl hDefined
    | none =>
        refine Or.inr (Or.inr ⟨?_, hWhole, rfl⟩)
        intro hDefined
        rw [untile_of_defined hDefined] at hUntile
        cases hUntile

theorem Whole.readsBelow_iff
    (hWhole : Whole a)
    (limit : Nat) :
    a.ReadsBelow limit ↔ a.total ≤ limit := by
  unfold ReadsBelow
  simp [untile_of_whole hWhole]

end UntileArgs

end M1Switch
