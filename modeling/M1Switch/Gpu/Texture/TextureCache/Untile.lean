import M1Switch.Gpu.Texture.TextureCache
import M1Switch.Library.BlockLinear

/-
  Block-linear textures, copied into linear buffers.

  The samples of a texture are stored in GOBs of 64 bytes.
  Each is copied by itself, if neither place is behind the end
  of the linear image.  Offsets are numbers of 32 bits.

  Key definitions include:
    * `UntileArgs`
    * `untile`

  Main results:
    * `toNat_srcOffset`
    * `writesEverySample_iff`
    * `untile_perm`
-/

------
-- Copies
------

namespace M1Switch

/- A `memcpy`, by the offsets of its bytes. -/
structure Copy where
  dst : Nat
  src : Nat
  length : Nat
deriving DecidableEq

namespace Copy

/- Each byte of a copy, with where it comes from. -/
def bytes (c : Copy) : List (Nat × Nat) :=
  (List.range c.length).map fun i => (c.dst + i, c.src + i)

end Copy

namespace TextureCache

/- The lines of a GOB. -/
def blockHeight (tileMode : U32) : U32 :=
  BLOCK_HEIGHT_LUT.getD (min tileMode.toNat 5) 1

end TextureCache

open TextureCache

/- The arguments of `Untile` other than its pointers. -/
structure UntileArgs where
  width : U32
  height : U32
  bpp : U32
  tileMode : U32
  pitch : U32
deriving DecidableEq

namespace UntileArgs

variable (a : UntileArgs)

def bytesPerGobRow : U32 :=
  GOB_SIZE_BYTES / blockHeight a.tileMode

def samplesPerGobRow : U32 :=
  a.bytesPerGobRow / a.bpp

def srcOffset (x y : U32) : U32 :=
  let bh := blockHeight a.tileMode
  let gobX := x / a.samplesPerGobRow
  let gobY := y / bh
  let gobWidth :=
    (a.width + a.samplesPerGobRow - 1) / a.samplesPerGobRow
  let inGobX := x % a.samplesPerGobRow
  let inGobY := y % bh
  let gobIndex := gobY * gobWidth + gobX
  gobIndex * GOB_SIZE_BYTES + inGobY * a.bytesPerGobRow +
    inGobX * a.bpp

def dstOffset (x y : U32) : U32 :=
  y * a.pitch + x * a.bpp

/- Both ends are inside the linear image. -/
def inBounds (x y : U32) : Prop :=
  a.srcOffset x y + a.bpp ≤ a.pitch * a.height ∧
    a.dstOffset x y + a.bpp ≤ a.pitch * a.height

instance (x y : U32) : Decidable (a.inBounds x y) :=
  inferInstanceAs (Decidable (_ ∧ _))

def copySample (x y : U32) : Copy :=
  { dst := (a.dstOffset x y).toNat
    src := (a.srcOffset x y).toNat
    length := a.bpp.toNat }

/-
  The copies that are made, none if the number of samples in
  a row, which is divided by, is zero.  Where nothing is tiled
  the whole image is copied, or stays where it is.
-/
def untile : Option (List Copy) :=
  if a.tileMode = 0 ∨ a.width = 0 ∨ a.height = 0 ∨
      a.bpp = 0 then
    some [⟨0, 0, a.pitch.toNat * a.height.toNat⟩]
  else if a.samplesPerGobRow = 0 then none
  else
    some <|
      (List.range a.height.toNat).flatMap fun y =>
        (List.range a.width.toNat).filterMap fun x =>
          let x := BitVec.ofNat 32 x
          let y := BitVec.ofNat 32 y
          if a.inBounds x y then some (a.copySample x y)
          else none

/- The loop over the samples is reached, and divides. -/
structure Defined (a : UntileArgs) : Prop where
  tiled : a.tileMode ≠ 0
  width : a.width ≠ 0
  height : a.height ≠ 0
  bpp : a.bpp ≠ 0
  samples : a.samplesPerGobRow ≠ 0

end UntileArgs

------
-- The Shape Of A GOB
------

open TextureCache

theorem pos_of_ne_zero
    {n : Nat}
    {v : BitVec n}
    (hNe : v ≠ 0) :
    0 < v.toNat := by
  apply Nat.pos_of_ne_zero
  intro hZero
  exact hNe (BitVec.eq_of_toNat_eq hZero)

/- A loop counter below a bound does not wrap. -/
theorem toNat_ofNat_of_lt
    {w n : Nat}
    {v : BitVec w}
    (hN : n < v.toNat) :
    (BitVec.ofNat w n).toNat = n := by
  rw [BitVec.toNat_ofNat]
  exact Nat.mod_eq_of_lt (Nat.lt_trans hN v.isLt)

/- The sum of a quotient that is rounded up. -/
theorem toNat_add_sub_one
    {m n : U32}
    (hPos : 0 < n.toNat)
    (hSum : m.toNat + n.toNat ≤ 2 ^ 32) :
    (m + n - 1).toNat = m.toNat + n.toNat - 1 := by
  have hOne : (1 : U32).toNat = 1 := rfl
  rw [BitVec.toNat_sub, BitVec.toNat_add, hOne]
  omega

namespace UntileArgs

variable {a : UntileArgs}

/- The table has a row for each tile mode. -/
theorem blockHeight_cases
    {tileMode : U32}
    (hTiled : tileMode ≠ 0) :
    blockHeight tileMode = 2 ∨ blockHeight tileMode = 4 ∨
      blockHeight tileMode = 8 ∨ blockHeight tileMode = 16 ∨
        blockHeight tileMode = 32 := by
  have hPos : 0 < tileMode.toNat := pos_of_ne_zero hTiled
  have hCases :
      min tileMode.toNat 5 = 1 ∨ min tileMode.toNat 5 = 2 ∨
        min tileMode.toNat 5 = 3 ∨ min tileMode.toNat 5 = 4 ∨
          min tileMode.toNat 5 = 5 := by
    omega
  unfold blockHeight
  rcases hCases with h | h | h | h | h <;> rw [h] <;> decide

theorem blockHeight_le
    (hTiled : a.tileMode ≠ 0) :
    (blockHeight a.tileMode).toNat ≤ 32 := by
  rcases blockHeight_cases hTiled with h | h | h | h | h <;>
    rw [h] <;> decide

/- The rows of a GOB make up its 64 bytes. -/
theorem gob_bytes
    (hTiled : a.tileMode ≠ 0) :
    2 ≤ (blockHeight a.tileMode).toNat ∧
      (blockHeight a.tileMode).toNat *
        a.bytesPerGobRow.toNat = 64 := by
  unfold bytesPerGobRow
  rcases blockHeight_cases hTiled with h | h | h | h | h <;>
    rw [h] <;> decide

theorem toNat_samplesPerGobRow :
    a.samplesPerGobRow.toNat =
      a.bytesPerGobRow.toNat / a.bpp.toNat :=
  BitVec.toNat_udiv

/- The blocks of a tiled image. -/
def gob
    (a : UntileArgs)
    (hDefined : Defined a) : BlockLinear.Gob :=
  { rowBytes := a.bytesPerGobRow.toNat
    rows := (blockHeight a.tileMode).toNat
    perRow := a.samplesPerGobRow.toNat
    sample := a.bpp.toNat
    rows_pos := by
      have hBytes := gob_bytes hDefined.tiled
      omega
    perRow_pos := pos_of_ne_zero hDefined.samples
    sample_pos := pos_of_ne_zero hDefined.bpp
    fits := by
      rw [toNat_samplesPerGobRow]
      exact Nat.div_mul_le_self _ _ }

@[simp] theorem size_gob
    (hDefined : Defined a) :
    (a.gob hDefined).size = 64 :=
  (gob_bytes hDefined.tiled).2

/- A row of a GOB has at most half of its bytes. -/
theorem samplesPerGobRow_le
    (hDefined : Defined a) :
    a.samplesPerGobRow.toNat ≤ 32 := by
  have hBytes := gob_bytes hDefined.tiled
  have hRow : a.bytesPerGobRow.toNat ≤ 32 := by
    by_contra hMore
    have hMul :=
      Nat.mul_le_mul hBytes.1
        (Nat.le_of_lt (Nat.lt_of_not_le hMore))
    have hMul' :=
      Nat.mul_le_mul hBytes.1 (Nat.lt_of_not_le hMore)
    omega
  rw [toNat_samplesPerGobRow]
  exact le_trans (Nat.div_le_self _ _) hRow

/- The offset of a sample, if no width is too large. -/
theorem srcOffset_eq
    (hDefined : Defined a)
    (hWidth : a.width.toNat + 32 ≤ 2 ^ 32)
    (x y : U32) :
    a.srcOffset x y =
      BitVec.ofNat 32
        ((a.gob hDefined).offset a.width.toNat x.toNat
          y.toNat) := by
  have hSamples := samplesPerGobRow_le hDefined
  have hPos := (a.gob hDefined).perRow_pos
  have hPos : 0 < a.samplesPerGobRow.toNat := hPos
  have hAcross :
      ((a.width + a.samplesPerGobRow - 1) /
          a.samplesPerGobRow).toNat =
        (a.gob hDefined).across a.width.toNat := by
    rw [BitVec.toNat_udiv, toNat_add_sub_one hPos (by omega)]
    rfl
  apply BitVec.eq_of_toNat_eq
  unfold BlockLinear.Gob.offset
  rw [size_gob, ← hAcross]
  unfold srcOffset BlockLinear.Gob.inner gob
  simp only [BitVec.toNat_add, BitVec.toNat_mul,
    BitVec.toNat_udiv, BitVec.toNat_umod, BitVec.toNat_ofNat,
    Nat.mod_add_mod, Nat.add_mod_mod, Nat.mod_mul_mod]
  have hSize : GOB_SIZE_BYTES.toNat = 64 := rfl
  rw [hSize, Nat.add_assoc]

/- Where nothing wraps, a sample is where it should be. -/
theorem toNat_srcOffset
    (hDefined : Defined a)
    {x y : U32}
    (hWidth : a.width.toNat + 32 ≤ 2 ^ 32)
    (hFits :
      (a.gob hDefined).offset a.width.toNat x.toNat y.toNat <
        2 ^ 32) :
    (a.srcOffset x y).toNat =
      (a.gob hDefined).offset a.width.toNat x.toNat
        y.toNat := by
  rw [srcOffset_eq hDefined hWidth, BitVec.toNat_ofNat,
    Nat.mod_eq_of_lt hFits]

end UntileArgs

------
-- The Copies Of A Loop
------

open TextureCache

namespace UntileArgs

variable {a : UntileArgs}

theorem untile_of_defined
    (hDefined : Defined a) :
    a.untile =
      some
        ((List.range a.height.toNat).flatMap fun y =>
          (List.range a.width.toNat).filterMap fun x =>
            if a.inBounds (.ofNat 32 x) (.ofNat 32 y) then
              some (a.copySample (.ofNat 32 x) (.ofNat 32 y))
            else none) := by
  have hTiled :
      ¬ (a.tileMode = 0 ∨ a.width = 0 ∨ a.height = 0 ∨
        a.bpp = 0) := by
    rintro (hZero | hZero | hZero | hZero)
    · exact hDefined.tiled hZero
    · exact hDefined.width hZero
    · exact hDefined.height hZero
    · exact hDefined.bpp hZero
  unfold untile
  rw [if_neg hTiled, if_neg hDefined.samples]

/- The samples within bounds are copied, and nothing else. -/
theorem mem_untile_iff
    (hDefined : Defined a)
    {copies : List Copy}
    (hCopies : a.untile = some copies)
    {c : Copy} :
    c ∈ copies ↔
      ∃ x y : U32, x < a.width ∧ y < a.height ∧
        a.inBounds x y ∧ c = a.copySample x y := by
  rw [untile_of_defined hDefined, Option.some_inj] at hCopies
  rw [← hCopies]
  simp only [List.mem_flatMap, List.mem_filterMap,
    List.mem_range]
  constructor
  · rintro ⟨y, hY, x, hX, hSome⟩
    split_ifs at hSome with hBounds
    refine ⟨_, _, ?_, ?_, hBounds,
      (Option.some_inj.mp hSome).symm⟩
    · rw [BitVec.lt_def, BitVec.toNat_ofNat]
      exact Nat.lt_of_le_of_lt (Nat.mod_le _ _) hX
    · rw [BitVec.lt_def, BitVec.toNat_ofNat]
      exact Nat.lt_of_le_of_lt (Nat.mod_le _ _) hY
  · rintro ⟨x, y, hX, hY, hBounds, rfl⟩
    refine ⟨y.toNat, hY, x.toNat, hX, ?_⟩
    rw [BitVec.ofNat_toNat, BitVec.setWidth_eq,
      BitVec.ofNat_toNat, BitVec.setWidth_eq, if_pos hBounds]

/- A sum of 32 bits below a bound, in terms of what it adds. -/
theorem toNat_add_le_iff
    {m n bound : U32} :
    m + n ≤ bound ↔
      (m.toNat + n.toNat) % 2 ^ 32 ≤ bound.toNat := by
  rw [BitVec.le_def, BitVec.toNat_add]

end UntileArgs

------
-- Every Sample
------

open TextureCache

namespace UntileArgs

variable {a : UntileArgs}

/-
  Every sample of the linear image is copied from its place
  in the blocks.
-/
def WritesEverySample
    (a : UntileArgs)
    (hDefined : Defined a) : Prop :=
  ∃ copies,
    a.untile = some copies ∧
      ∀ x y,
        x < a.width.toNat →
          y < a.height.toNat →
            (⟨(y * a.width.toNat + x) * a.bpp.toNat,
                (a.gob hDefined).offset a.width.toNat x y,
                a.bpp.toNat⟩ : Copy) ∈ copies

/- The guard, as it is about the place and its length. -/
theorem le_of_mem_untile
    (hDefined : Defined a)
    {copies : List Copy}
    (hCopies : a.untile = some copies)
    {c : Copy}
    (hC : c ∈ copies) :
    c.src < 2 ^ 32 ∧ c.dst < 2 ^ 32 ∧
      (c.src + a.bpp.toNat) % 2 ^ 32 ≤
          (a.pitch * a.height).toNat ∧
        (c.dst + a.bpp.toNat) % 2 ^ 32 ≤
          (a.pitch * a.height).toNat := by
  rcases (mem_untile_iff hDefined hCopies).mp hC with
    ⟨x, y, _, _, hBounds, rfl⟩
  exact ⟨(a.srcOffset x y).isLt, (a.dstOffset x y).isLt,
    toNat_add_le_iff.mp hBounds.1,
    toNat_add_le_iff.mp hBounds.2⟩

/- The bytes of the linear image fit into 32 bits. -/
theorem image_lt_of_writes
    (hDefined : Defined a)
    (hPitch : a.pitch = a.width * a.bpp)
    (hWrites : WritesEverySample a hDefined) :
    a.width.toNat * a.height.toNat * a.bpp.toNat < 2 ^ 32 := by
  rcases hWrites with ⟨copies, hCopies, hAll⟩
  have hWidth := pos_of_ne_zero hDefined.width
  have hHeight := pos_of_ne_zero hDefined.height
  have hBpp := a.bpp.isLt
  have hFirst :=
    le_of_mem_untile hDefined hCopies (hAll 0 0 hWidth hHeight)
  have hLast :=
    le_of_mem_untile hDefined hCopies
      (hAll (a.width.toNat - 1) (a.height.toNat - 1)
        (by omega) (by omega))
  have hTotal :
      (a.pitch * a.height).toNat =
        a.width.toNat * a.height.toNat * a.bpp.toNat %
          2 ^ 32 := by
    rw [hPitch, BitVec.toNat_mul, BitVec.toNat_mul,
      Nat.mod_mul_mod, Nat.mul_right_comm]
  have hEnd :
      ((a.height.toNat - 1) * a.width.toNat +
              (a.width.toNat - 1)) * a.bpp.toNat +
          a.bpp.toNat =
        a.width.toNat * a.height.toNat * a.bpp.toNat := by
    rcases Nat.exists_eq_add_of_le hWidth with ⟨w, hW⟩
    rcases Nat.exists_eq_add_of_le hHeight with ⟨h, hH⟩
    have hW' : a.width.toNat - 1 = w := by omega
    have hH' : a.height.toNat - 1 = h := by omega
    rw [hW', hH', hW, hH]
    ring
  dsimp only at hFirst hLast
  rw [hTotal] at hFirst
  by_contra hLarge
  have hWrapped := hFirst.2.2.2
  rw [Nat.zero_mul, Nat.zero_add, Nat.zero_mul, Nat.zero_add,
    Nat.mod_eq_of_lt hBpp] at hWrapped
  omega

/- The image, with its own pitch, in natural numbers. -/
theorem toNat_pitch_mul_height
    (hPitch : a.pitch = a.width * a.bpp)
    (hImage :
      a.width.toNat * a.height.toNat * a.bpp.toNat < 2 ^ 32) :
    (a.pitch * a.height).toNat =
      a.width.toNat * a.height.toNat * a.bpp.toNat := by
  rw [hPitch, BitVec.toNat_mul, BitVec.toNat_mul,
    Nat.mod_mul_mod, Nat.mul_right_comm,
    Nat.mod_eq_of_lt hImage]

theorem unpadded_of_writes
    (hDefined : Defined a)
    (hPitch : a.pitch = a.width * a.bpp)
    (hWrites : WritesEverySample a hDefined) :
    (a.gob hDefined).Unpadded a.width.toNat
      a.height.toNat := by
  have hImage := image_lt_of_writes hDefined hPitch hWrites
  rcases hWrites with ⟨copies, hCopies, hAll⟩
  have hWidth := pos_of_ne_zero hDefined.width
  have hHeight := pos_of_ne_zero hDefined.height
  have hLast :=
    le_of_mem_untile hDefined hCopies
      (hAll (a.width.toNat - 1) (a.height.toNat - 1)
        (by omega) (by omega))
  rw [toNat_pitch_mul_height hPitch hImage] at hLast
  dsimp only at hLast
  have hInner :
      (a.gob hDefined).inner (a.width.toNat - 1)
          (a.height.toNat - 1) + a.bpp.toNat ≤ 64 := by
    have hLe :=
      BlockLinear.Gob.inner_add_le (g := a.gob hDefined)
        (x := a.width.toNat - 1) (y := a.height.toNat - 1)
    rw [size_gob] at hLe
    exact hLe
  by_cases hWraps :
      (a.gob hDefined).offset a.width.toNat
          (a.width.toNat - 1) (a.height.toNat - 1) +
        a.bpp.toNat < 2 ^ 32
  · rw [Nat.mod_eq_of_lt hWraps] at hLast
    exact (BlockLinear.Gob.last_le_iff
      (gob_bytes hDefined.tiled).1 hWidth hHeight).mp
      hLast.2.2.1
  · -- The sum wraps only at the end of a block.
    apply BlockLinear.Gob.unpadded_of_full hWidth hHeight
    rw [size_gob]
    have hBelow := hLast.1
    unfold BlockLinear.Gob.offset at hBelow hWraps
    rw [size_gob] at hBelow hWraps
    change _ + a.bpp.toNat = 64
    omega

/- Where nothing is padded, the width is far from wrapping. -/
theorem width_le_of_unpadded
    (hDefined : Defined a)
    (hImage :
      a.width.toNat * a.height.toNat * a.bpp.toNat < 2 ^ 32)
    (hUnpadded :
      (a.gob hDefined).Unpadded a.width.toNat
        a.height.toNat) :
    a.width.toNat + 32 ≤ 2 ^ 32 := by
  have hSamples : (a.gob hDefined).perRow ≤ 32 :=
    samplesPerGobRow_le hDefined
  have hBpp := pos_of_ne_zero hDefined.bpp
  have hHeight := pos_of_ne_zero hDefined.height
  have hRows := (gob_bytes hDefined.tiled).1
  rcases hUnpadded with ⟨_, _, hNarrow | hWhole⟩ | ⟨_, hNarrow⟩
  · omega
  · have hTwo : 2 ≤ a.height.toNat :=
      le_trans hRows (Nat.le_of_dvd hHeight hWhole)
    have hArea :
        a.width.toNat * 2 ≤
          a.width.toNat * a.height.toNat * a.bpp.toNat :=
      le_trans (Nat.mul_le_mul_left _ hTwo)
        (Nat.le_mul_of_pos_right _ hBpp)
    omega
  · omega

/- The sample of a column and a line, in 32 bits. -/
theorem copySample_of_unpadded
    (hDefined : Defined a)
    (hPitch : a.pitch = a.width * a.bpp)
    (hImage :
      a.width.toNat * a.height.toNat * a.bpp.toNat < 2 ^ 32)
    (hUnpadded :
      (a.gob hDefined).Unpadded a.width.toNat a.height.toNat)
    {x y : U32}
    (hX : x < a.width)
    (hY : y < a.height) :
    a.inBounds x y ∧
      a.copySample x y =
        ⟨(y.toNat * a.width.toNat + x.toNat) * a.bpp.toNat,
          (a.gob hDefined).offset a.width.toNat x.toNat
            y.toNat,
          a.bpp.toNat⟩ := by
  rw [BitVec.lt_def] at hX hY
  have hHeight := pos_of_ne_zero hDefined.height
  have hBpp := pos_of_ne_zero hDefined.bpp
  have hLast :=
    (BlockLinear.Gob.last_le_iff
      (gob_bytes hDefined.tiled).1
      (pos_of_ne_zero hDefined.width) hHeight).mpr hUnpadded
  have hMono :
      (a.gob hDefined).offset a.width.toNat x.toNat y.toNat ≤
        (a.gob hDefined).offset a.width.toNat
          (a.width.toNat - 1) (a.height.toNat - 1) :=
    BlockLinear.Gob.offset_mono (by omega) (by omega)
      (by omega)
  change
    (a.gob hDefined).offset a.width.toNat
        (a.width.toNat - 1) (a.height.toNat - 1) +
      a.bpp.toNat ≤
        a.width.toNat * a.height.toNat * a.bpp.toNat at hLast
  have hSrc :
      (a.srcOffset x y).toNat =
        (a.gob hDefined).offset a.width.toNat x.toNat
          y.toNat :=
    toNat_srcOffset hDefined
      (width_le_of_unpadded hDefined hImage hUnpadded)
      (by omega)
  have hPlace :
      (y.toNat * a.width.toNat + x.toNat) * a.bpp.toNat +
          a.bpp.toNat ≤
        a.width.toNat * a.height.toNat * a.bpp.toNat := by
    have hNext :
        y.toNat * a.width.toNat + x.toNat + 1 ≤
          a.width.toNat * a.height.toNat := by
      calc
        y.toNat * a.width.toNat + x.toNat + 1 ≤
            y.toNat * a.width.toNat + a.width.toNat := by
          omega
        _ = a.width.toNat * (y.toNat + 1) := by ring
        _ ≤ a.width.toNat * a.height.toNat :=
          Nat.mul_le_mul_left _ hY
    have hBytes := Nat.mul_le_mul_right a.bpp.toNat hNext
    rw [Nat.add_mul _ 1, Nat.one_mul] at hBytes
    exact hBytes
  have hDst :
      (a.dstOffset x y).toNat =
        (y.toNat * a.width.toNat + x.toNat) *
          a.bpp.toNat := by
    unfold dstOffset
    rw [hPitch, BitVec.toNat_add, BitVec.toNat_mul,
      BitVec.toNat_mul, BitVec.toNat_mul, Nat.mul_mod_mod,
      Nat.mod_add_mod, Nat.add_mod_mod, ← Nat.mul_assoc,
      ← Nat.add_mul, Nat.mod_eq_of_lt (by omega)]
  have hTotal := toNat_pitch_mul_height hPitch hImage
  constructor
  · unfold inBounds
    rw [toNat_add_le_iff, toNat_add_le_iff, hSrc, hDst, hTotal,
      Nat.mod_eq_of_lt (by omega), Nat.mod_eq_of_lt (by omega)]
    exact ⟨by omega, hPlace⟩
  · unfold copySample
    rw [hSrc, hDst]

/-
  All samples are copied exactly if the image fits into 32
  bits and its blocks are not padded.
-/
theorem writesEverySample_iff
    (hDefined : Defined a)
    (hPitch : a.pitch = a.width * a.bpp) :
    WritesEverySample a hDefined ↔
      a.width.toNat * a.height.toNat * a.bpp.toNat < 2 ^ 32 ∧
        (a.gob hDefined).Unpadded a.width.toNat
          a.height.toNat := by
  constructor
  · intro hWrites
    exact ⟨image_lt_of_writes hDefined hPitch hWrites,
      unpadded_of_writes hDefined hPitch hWrites⟩
  · rintro ⟨hImage, hUnpadded⟩
    have hCopies := untile_of_defined hDefined
    refine ⟨_, hCopies, ?_⟩
    intro x y hX hY
    have hX' := toNat_ofNat_of_lt hX
    have hY' := toNat_ofNat_of_lt hY
    have hIn : BitVec.ofNat 32 x < a.width := by
      rw [BitVec.lt_def, hX']
      exact hX
    have hIn' : BitVec.ofNat 32 y < a.height := by
      rw [BitVec.lt_def, hY']
      exact hY
    rcases copySample_of_unpadded hDefined hPitch hImage
      hUnpadded hIn hIn' with ⟨hBounds, hCopy⟩
    rw [hX', hY'] at hCopy
    rw [mem_untile_iff hDefined hCopies]
    exact ⟨_, _, hIn, hIn', hBounds, hCopy.symm⟩

/- Four lines that fill two rows of two GOBs. -/
def fourGobs : UntileArgs :=
  { width := 64, height := 4, bpp := 1, tileMode := 1
    pitch := 64 }

theorem fourGobs_defined : Defined fourGobs := by
  constructor <;> decide

theorem fourGobs_writesEverySample :
    WritesEverySample fourGobs fourGobs_defined := by
  refine (writesEverySample_iff fourGobs_defined rfl).mpr ?_
  refine ⟨by decide, Or.inl ⟨rfl, ?_, Or.inr ?_⟩⟩
  · exact ⟨2, rfl⟩
  · exact ⟨2, rfl⟩

/- Three lines need two rows of GOBs, the last half empty. -/
def threeLines : UntileArgs :=
  { width := 64, height := 3, bpp := 1, tileMode := 1
    pitch := 64 }

theorem threeLines_defined : Defined threeLines := by
  constructor <;> decide

theorem threeLines_not_writesEverySample :
    threeLines.pitch = threeLines.width * threeLines.bpp ∧
      ¬ WritesEverySample threeLines threeLines_defined := by
  refine ⟨rfl, ?_⟩
  intro hWrites
  rcases unpadded_of_writes threeLines_defined rfl hWrites with
    ⟨_, _, hNarrow | hWhole⟩ | ⟨hSingle, _⟩
  · exact absurd hNarrow (by decide)
  · exact absurd hWhole (by decide)
  · exact absurd hSingle (by decide)

end UntileArgs

------
-- Every Byte Once
------

open TextureCache

namespace UntileArgs

variable {a : UntileArgs}

/- The copies of an image without padding, in their order. -/
theorem untile_of_unpadded
    (hDefined : Defined a)
    (hPitch : a.pitch = a.width * a.bpp)
    (hImage :
      a.width.toNat * a.height.toNat * a.bpp.toNat < 2 ^ 32)
    (hUnpadded :
      (a.gob hDefined).Unpadded a.width.toNat
        a.height.toNat) :
    a.untile =
      some
        ((List.range a.height.toNat).flatMap fun y =>
          (List.range a.width.toNat).map fun x =>
            ⟨(y * a.width.toNat + x) * a.bpp.toNat,
              (a.gob hDefined).offset a.width.toNat x y,
              a.bpp.toNat⟩) := by
  rw [untile_of_defined hDefined, Option.some_inj]
  apply List.flatMap_congr
  intro y hY
  rw [← List.filterMap_eq_map]
  apply List.filterMap_congr
  intro x hX
  rw [List.mem_range] at hX hY
  have hX' := toNat_ofNat_of_lt hX
  have hY' := toNat_ofNat_of_lt hY
  rcases copySample_of_unpadded hDefined hPitch hImage
    hUnpadded (x := .ofNat 32 x) (y := .ofNat 32 y)
    (by rw [BitVec.lt_def, hX']; exact hX)
    (by rw [BitVec.lt_def, hY']; exact hY) with
    ⟨hBounds, hCopy⟩
  rw [if_pos hBounds, hCopy, hX', hY']
  rfl

/- Byte by byte, they are the bytes of the linear image. -/
theorem bytes_of_unpadded
    (hDefined : Defined a) :
    ((List.range a.height.toNat).flatMap fun y =>
        (List.range a.width.toNat).map fun x =>
          (⟨(y * a.width.toNat + x) * a.bpp.toNat,
            (a.gob hDefined).offset a.width.toNat x y,
            a.bpp.toNat⟩ : Copy)).flatMap Copy.bytes =
      (BlockLinear.bytes a.width.toNat a.height.toNat
          a.bpp.toNat).map fun byte =>
        (BlockLinear.linear a.width.toNat a.bpp.toNat byte,
          (a.gob hDefined).offset a.width.toNat byte.1
              byte.2.1 +
            byte.2.2) := by
  unfold BlockLinear.bytes Copy.bytes BlockLinear.linear
  simp only [List.map_flatMap, List.flatMap_assoc,
    List.flatMap_map, List.map_map]
  rfl

/- Samples of a size that a row of a GOB can be divided by. -/
theorem defined_of_dvd
    (hTiled : 1 ≤ a.tileMode.toNat)
    (hBpp : a.bpp.toNat ∣ 64 / (blockHeight a.tileMode).toNat)
    (hWidth : a.width ≠ 0)
    (hHeight : a.height ≠ 0) :
    Defined a ∧
      a.bytesPerGobRow.toNat =
          64 / (blockHeight a.tileMode).toNat ∧
        a.samplesPerGobRow.toNat =
          64 / (blockHeight a.tileMode).toNat /
            a.bpp.toNat := by
  have hMode : a.tileMode ≠ 0 := by
    intro hZero
    rw [hZero] at hTiled
    exact absurd hTiled (by decide)
  have hBytes := gob_bytes hMode
  have hRow :
      a.bytesPerGobRow.toNat =
        64 / (blockHeight a.tileMode).toNat :=
    BitVec.toNat_udiv
  have hSamples :
      a.samplesPerGobRow.toNat =
        64 / (blockHeight a.tileMode).toNat /
          a.bpp.toNat := by
    rw [toNat_samplesPerGobRow, hRow]
  have hRowPos : 0 < 64 / (blockHeight a.tileMode).toNat := by
    rw [← hRow]
    by_contra hNone
    have hZero : a.bytesPerGobRow.toNat = 0 := by omega
    rw [hZero, Nat.mul_zero] at hBytes
    omega
  have hBppPos := Nat.pos_of_dvd_of_pos hBpp hRowPos
  have hPerRow :=
    Nat.div_pos (Nat.le_of_dvd hRowPos hBpp) hBppPos
  refine ⟨⟨hMode, hWidth, hHeight, ?_, ?_⟩, hRow, hSamples⟩
  · intro hZero
    rw [hZero] at hBppPos
    exact absurd hBppPos (by decide)
  · intro hZero
    rw [hZero] at hSamples
    have hNone : (0 : U32).toNat = 0 := rfl
    omega

/-
  An image whose GOBs are full is permuted: every byte of the
  linear image is written once, and every byte of the blocks
  is read once.
-/
theorem untile_perm
    (hTiled : 1 ≤ a.tileMode.toNat)
    (hBpp : a.bpp.toNat ∣ 64 / (blockHeight a.tileMode).toNat)
    (hWidth :
      64 / (blockHeight a.tileMode).toNat / a.bpp.toNat ∣
        a.width.toNat)
    (hHeight :
      (blockHeight a.tileMode).toNat ∣ a.height.toNat)
    (hImage :
      a.width.toNat * a.height.toNat * a.bpp.toNat < 2 ^ 32)
    (hPitch : a.pitch = a.width * a.bpp) :
    ∃ copies,
      a.untile = some copies ∧
        ((copies.flatMap Copy.bytes).map (·.1)).Perm
            (List.range (a.pitch.toNat * a.height.toNat)) ∧
          ((copies.flatMap Copy.bytes).map (·.2)).Perm
            (List.range (a.pitch.toNat * a.height.toNat)) := by
  by_cases hEmpty : a.width = 0 ∨ a.height = 0
  · -- An image without samples has no bytes.
    have hNone : a.pitch.toNat * a.height.toNat = 0 := by
      rcases hEmpty with hZero | hZero
      · have hPitch : a.pitch = 0 := by
          rw [hPitch, hZero]
          exact BitVec.zero_mul
        rw [hPitch]
        exact Nat.zero_mul _
      · rw [hZero]
        exact Nat.mul_zero _
    refine ⟨[⟨0, 0, a.pitch.toNat * a.height.toNat⟩], ?_, ?_⟩
    · unfold untile
      rw [if_pos]
      rcases hEmpty with hZero | hZero
      · exact Or.inr (Or.inl hZero)
      · exact Or.inr (Or.inr (Or.inl hZero))
    · rw [hNone]
      exact ⟨List.Perm.nil, List.Perm.nil⟩
  · rcases not_or.mp hEmpty with ⟨hSomeWidth, hSomeHeight⟩
    rcases defined_of_dvd hTiled hBpp hSomeWidth hSomeHeight
      with ⟨hDefined, hRow, hSamples⟩
    have hUnpadded :
        (a.gob hDefined).Unpadded a.width.toNat
          a.height.toNat := by
      refine Or.inl ⟨?_, ?_, Or.inr hHeight⟩
      · change
          a.samplesPerGobRow.toNat * a.bpp.toNat =
            a.bytesPerGobRow.toNat
        rw [hSamples, hRow]
        exact Nat.div_mul_cancel hBpp
      · change a.samplesPerGobRow.toNat ∣ a.width.toNat
        rw [hSamples]
        exact hWidth
    have hTotal :
        a.pitch.toNat * a.height.toNat =
          a.height.toNat * a.width.toNat * a.bpp.toNat := by
      have hLine :
          a.width.toNat * a.bpp.toNat ≤
            a.width.toNat * a.height.toNat * a.bpp.toNat :=
        Nat.mul_le_mul_right _
          (Nat.le_mul_of_pos_right _
            (pos_of_ne_zero hSomeHeight))
      rw [hPitch, BitVec.toNat_mul,
        Nat.mod_eq_of_lt (Nat.lt_of_le_of_lt hLine hImage)]
      ring
    refine ⟨_,
      untile_of_unpadded hDefined hPitch hImage hUnpadded, ?_⟩
    rw [bytes_of_unpadded hDefined, List.map_map, List.map_map,
      hTotal]
    constructor
    · apply List.Perm.of_eq
      exact BlockLinear.map_linear
    · exact BlockLinear.Gob.perm_range
        (gob_bytes hDefined.tiled).1 hUnpadded

theorem fourGobs_perm :
    ∃ copies,
      fourGobs.untile = some copies ∧
        ((copies.flatMap Copy.bytes).map (·.1)).Perm
            (List.range 256) ∧
          ((copies.flatMap Copy.bytes).map (·.2)).Perm
            (List.range 256) :=
  untile_perm (by decide) (by decide) (by decide) (by decide)
    (by decide) rfl

end UntileArgs

end M1Switch
