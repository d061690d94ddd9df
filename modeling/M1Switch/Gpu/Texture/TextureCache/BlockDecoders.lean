import M1Switch.Gpu.Texture.TextureCache.MipLayout
import M1Switch.Library.WriteList

/-
  Decoders for compressed blocks.

  Four decoders draw blocks of four by four pixels, with loops
  of their own.  Two of them have a channel that the others
  decode by itself: where the blocks are the same, so are
  these channels.  Blocks at the edges are cut off.

  Key definitions include:
    * `decodeBC1`
    * `decodeBC3`

  Main results:
    * `draws_decodeBC1`
    * `draws_decodeBC5`
    * `decoders_agree`
-/

------
-- Blocks
------

namespace M1Switch

/- A pixel, by the order of its bytes in the image. -/
structure Texel where
  first : U8
  second : U8
  third : U8
  fourth : U8
deriving DecidableEq

/- A colour of a block. -/
structure Rgb where
  r : U8
  g : U8
  b : U8
deriving DecidableEq

namespace Texel

def channel (texel : Texel) : Nat → U8
| 0 => texel.first
| 1 => texel.second
| 2 => texel.third
| _ => texel.fourth

end Texel

namespace TextureCache

/- The bytes of a block. -/
def blockAt (src : Nat → U8) (start : U32) : Nat → U8 :=
  fun i => src (start.toNat + i)

/- Two bytes of a block as a number. -/
def blockHalf (block : Nat → U8) (i : Nat) : BitVec 16 :=
  (block i).setWidth 16 ||| ((block (i + 1)).setWidth 16 <<< 8)

/- The two-bit indices of the pixels. -/
def colorIndices (block : Nat → U8) (i : Nat) : U32 :=
  (block i).setWidth 32 |||
    ((block (i + 1)).setWidth 32 <<< 8) |||
    ((block (i + 2)).setWidth 32 <<< 16) |||
    ((block (i + 3)).setWidth 32 <<< 24)

/- The three-bit indices of the pixels. -/
def valueIndices (block : Nat → U8) : U64 :=
  (block 2).setWidth 64 |||
    ((block 3).setWidth 64 <<< 8) |||
    ((block 4).setWidth 64 <<< 16) |||
    ((block 5).setWidth 64 <<< 24) |||
    ((block 6).setWidth 64 <<< 32) |||
    ((block 7).setWidth 64 <<< 40)

def expand5 (v : U8) : U8 :=
  (v <<< 3) ||| (v >>> 2)

def expand6 (v : U8) : U8 :=
  (v <<< 2) ||| (v >>> 4)

def decode565 (c : BitVec 16) : Rgb :=
  { r := expand5 (((c >>> 11) &&& 0x1F).setWidth 8)
    g := expand6 (((c >>> 5) &&& 0x3F).setWidth 8)
    b := expand5 ((c &&& 0x1F).setWidth 8) }

/- `(u8)((m * a + n * b) / d)`. -/
def mix (m n d : Nat) (a b : U8) : U8 :=
  .ofNat 8 ((m * a.toNat + n * b.toNat) / d)

def mixRgb (m n d : Nat) (a b : Rgb) : Rgb :=
  { r := mix m n d a.r b.r
    g := mix m n d a.g b.g
    b := mix m n d a.b b.b }

/- The pixels of a block along a side that the image has. -/
def inside (extent block : U32) : List U32 :=
  ((List.range 4).map (BitVec.ofNat 32)).takeWhile fun p =>
    block * 4 + p < extent

/- The loop over the blocks, row by row. -/
def forBlocks
    (width height : U32)
    (f : U32 → U32 → List (Nat × U8)) : List (Nat × U8) :=
  (List.range (blocks height).toNat).flatMap fun blockY =>
    (List.range (blocks width).toNat).flatMap fun blockX =>
      f (.ofNat 32 blockY) (.ofNat 32 blockX)

/- The loop over the pixels of a block. -/
def forPixels
    (width height blockY blockX : U32)
    (f : U32 → U32 → List (Nat × U8)) : List (Nat × U8) :=
  (inside height blockY).flatMap fun py =>
    (inside width blockX).flatMap fun px => f py px

def blockIndex (width blockY blockX : U32) : U32 :=
  blockY * blocks width + blockX

def pixelOffset
    (width blockY blockX py px : U32) : U32 :=
  ((blockY * 4 + py) * width + (blockX * 4 + px)) * 4

/- All four bytes of a pixel, one after the other. -/
def putTexel (doff : U32) (texel : Texel) : List (Nat × U8) :=
  [((doff + 0).toNat, texel.first),
    ((doff + 1).toNat, texel.second),
    ((doff + 2).toNat, texel.third),
    ((doff + 3).toNat, texel.fourth)]

------
-- Decoders
------

/- A pixel of a BC1 block; the last colour may be none. -/
def bc1Texel (block : Nat → U8) (pi : U32) : Texel :=
  let c0 := blockHalf block 0
  let c1 := blockHalf block 2
  let indices := colorIndices block 4
  let e0 := decode565 c0
  let e1 := decode565 c1
  let e2 :=
    if c0 ≤ c1 then mixRgb 1 1 2 e0 e1 else mixRgb 2 1 3 e0 e1
  let e3 := if c0 ≤ c1 then ⟨0, 0, 0⟩ else mixRgb 1 2 3 e0 e1
  let idx := (indices >>> (2 * pi)) &&& 3
  if idx = 0 then ⟨e0.b, e0.g, e0.r, 255⟩
  else if idx = 1 then ⟨e1.b, e1.g, e1.r, 255⟩
  else if idx = 2 then ⟨e2.b, e2.g, e2.r, 255⟩
  else if c0 ≤ c1 then ⟨0, 0, 0, 0⟩
  else ⟨e3.b, e3.g, e3.r, 255⟩

def decodeBC1
    (src : Nat → U8)
    (width height : U32) : List (Nat × U8) :=
  forBlocks width height fun blockY blockX =>
    let block :=
      blockAt src (blockIndex width blockY blockX * 8)
    forPixels width height blockY blockX fun py px =>
      putTexel (pixelOffset width blockY blockX py px)
        (bc1Texel block (py * 4 + px))

/- The values of the alpha part of a BC3 block. -/
def bc3Alpha (a0 a1 : U8) : List U8 :=
  if a0 > a1 then
    a0 :: a1 ::
      (List.range 6).map fun j =>
        let i := j + 2
        mix (8 - i) (i - 1) 7 a0 a1
  else
    a0 :: a1 ::
      ((List.range 4).map fun j =>
        let i := j + 2
        mix (6 - i) (i - 1) 5 a0 a1) ++ [0, 255]

/- The colours of a BC3 block. -/
def bc3Colors (c0 c1 : BitVec 16) : List Rgb :=
  let e0 := decode565 c0
  let e1 := decode565 c1
  if c0 > c1 then
    [e0, e1, mixRgb 2 1 3 e0 e1, mixRgb 1 2 3 e0 e1]
  else [e0, e1, mixRgb 1 1 2 e0 e1, ⟨0, 0, 0⟩]

def bc3Texel (block : Nat → U8) (pi : U32) : Texel :=
  let alpha := bc3Alpha (block 0) (block 1)
  let aBits := valueIndices block
  let c0 := blockHalf block 8
  let c1 := blockHalf block 10
  let colors := bc3Colors c0 c1
  let indices := colorIndices block 12
  let cIdx := (indices >>> (2 * pi)) &&& 3
  let aIdx := (aBits >>> (3 * pi)) &&& 7
  let color := colors.getD cIdx.toNat ⟨0, 0, 0⟩
  { first := color.b
    second := color.g
    third := color.r
    fourth := alpha.getD aIdx.toNat 0 }

def decodeBC3
    (src : Nat → U8)
    (width height : U32) : List (Nat × U8) :=
  forBlocks width height fun blockY blockX =>
    let block :=
      blockAt src (blockIndex width blockY blockX * 16)
    forPixels width height blockY blockX fun py px =>
      putTexel (pixelOffset width blockY blockX py px)
        (bc3Texel block (py * 4 + px))

/- The values of a BC4 block. -/
def bc4Values (r0 r1 : U8) : List U8 :=
  if r0 > r1 then
    r0 :: r1 ::
      (List.range 6).map fun j =>
        let i := j + 2
        mix (8 - i) (i - 1) 7 r0 r1
  else
    r0 :: r1 ::
      ((List.range 4).map fun j =>
        let i := j + 2
        mix (6 - i) (i - 1) 5 r0 r1) ++ [0, 255]

def bc4Texel (block : Nat → U8) (pi : U32) : Texel :=
  let values := bc4Values (block 0) (block 1)
  let bits := valueIndices block
  let idx := (bits >>> (3 * pi)) &&& 7
  { first := values.getD idx.toNat 0
    second := values.getD idx.toNat 0
    third := values.getD idx.toNat 0
    fourth := 255 }

def decodeBC4
    (src : Nat → U8)
    (width height : U32) : List (Nat × U8) :=
  forBlocks width height fun blockY blockX =>
    let block :=
      blockAt src (blockIndex width blockY blockX * 8)
    forPixels width height blockY blockX fun py px =>
      putTexel (pixelOffset width blockY blockX py px)
        (bc4Texel block (py * 4 + px))

/- The values of either channel of a BC5 block. -/
def bc5Values (r0 r1 : U8) : List U8 :=
  if r0 > r1 then
    r0 :: r1 ::
      (List.range 6).map fun j =>
        let i := j + 2
        mix (8 - i) (i - 1) 7 r0 r1
  else
    r0 :: r1 ::
      ((List.range 4).map fun j =>
        let i := j + 2
        mix (6 - i) (i - 1) 5 r0 r1) ++ [0, 255]

def bc5Value (bc4 : Nat → U8) (pi : U32) : U8 :=
  let values := bc5Values (bc4 0) (bc4 1)
  let bits := valueIndices bc4
  let idx := (bits >>> (3 * pi)) &&& 7
  values.getD idx.toNat 0

/- The pixels are drawn twice, for one channel each. -/
def decodeBC5
    (src : Nat → U8)
    (width height : U32) : List (Nat × U8) :=
  forBlocks width height fun blockY blockX =>
    let block :=
      blockAt src (blockIndex width blockY blockX * 16)
    (List.range 2).flatMap fun ch =>
      let bc4 := fun i => block (ch * 8 + i)
      forPixels width height blockY blockX fun py px =>
        let doff := pixelOffset width blockY blockX py px
        ((doff + .ofNat 32 ch).toNat,
            bc5Value bc4 (py * 4 + px)) ::
          ((if ch = 0 then [((doff + 2).toNat, 0)] else []) ++
            if ch = 1 then [((doff + 3).toNat, 255)] else [])

------
-- Pixels Of Blocks
------

variable {width height : U32} {x y : Nat}

/- A loop that stops goes through all that pass its test. -/
theorem mem_takeWhile_iff
    {α : Type}
    {p : α → Bool}
    {a : α}
    {xs : List α}
    (hDown : xs.Pairwise fun b c => p c = true → p b = true) :
    a ∈ xs.takeWhile p ↔ a ∈ xs ∧ p a = true := by
  induction xs with
  | nil => simp
  | cons b xs ih =>
      rcases List.pairwise_cons.mp hDown with ⟨hHead, hTail⟩
      rw [List.takeWhile_cons, List.mem_cons]
      split_ifs with hTest
      · rw [List.mem_cons, ih hTail]
        constructor
        · rintro (hSame | ⟨hMem, hPasses⟩)
          · exact ⟨Or.inl hSame, by rw [hSame]; exact hTest⟩
          · exact ⟨Or.inr hMem, hPasses⟩
        · rintro ⟨hSame | hMem, hPasses⟩
          · exact Or.inl hSame
          · exact Or.inr ⟨hMem, hPasses⟩
      · constructor
        · intro hNone
          cases hNone
        · rintro ⟨hSame | hMem, hPasses⟩
          · rw [hSame] at hPasses
            exact absurd hPasses hTest
          · exact absurd (hHead a hMem hPasses) hTest

theorem mem_inside_iff
    {extent p : U32}
    {block : Nat}
    (hBlock : block * 4 + 3 < 2 ^ 32) :
    p ∈ inside extent (.ofNat 32 block) ↔
      ∃ q < 4, block * 4 + q < extent.toNat ∧
        p = .ofNat 32 q := by
  have hTest :
      ∀ q < 4,
        (decide ((.ofNat 32 block : U32) * 4 + .ofNat 32 q <
            extent) = true ↔
          block * 4 + q < extent.toNat) := by
    intro q hQ
    have hFour : (4 : U32).toNat = 4 := rfl
    rw [decide_eq_true_iff, BitVec.lt_def, BitVec.toNat_add,
      BitVec.toNat_mul, BitVec.toNat_ofNat, BitVec.toNat_ofNat,
      hFour]
    omega
  unfold inside
  rw [mem_takeWhile_iff]
  · constructor
    · rintro ⟨hMem, hPasses⟩
      rcases List.mem_map.mp hMem with ⟨q, hQ, rfl⟩
      have hQ := List.mem_range.mp hQ
      exact ⟨q, hQ, (hTest q hQ).mp hPasses, rfl⟩
    · rintro ⟨q, hQ, hInside, rfl⟩
      exact ⟨List.mem_map.mpr ⟨q, List.mem_range.mpr hQ, rfl⟩,
        (hTest q hQ).mpr hInside⟩
  · rw [List.pairwise_map]
    have hOrder : (List.range 4).Pairwise (· < ·) :=
      List.pairwise_lt_range
    refine List.Pairwise.imp_of_mem ?_ hOrder
    intro q q' hQ hQ' hLess hPasses
    have hLater := (hTest q' (List.mem_range.mp hQ')).mp hPasses
    exact (hTest q (List.mem_range.mp hQ)).mpr (by omega)

/- Neither side of an image with pixels is too long. -/
theorem sides_of_small
    (hSmall : width.toNat * height.toNat * 4 < 2 ^ 32)
    (hX : x < width.toNat)
    (hY : y < height.toNat) :
    width.toNat < 2 ^ 30 ∧ height.toNat < 2 ^ 30 ∧
      (blocks width).toNat = (width.toNat + 3) / 4 ∧
        (blocks height).toNat = (height.toNat + 3) / 4 := by
  have hWide :
      width.toNat ≤ width.toNat * height.toNat :=
    Nat.le_mul_of_pos_right _ (Nat.zero_lt_of_lt hY)
  have hHigh :
      height.toNat ≤ width.toNat * height.toNat :=
    Nat.le_mul_of_pos_left _ (Nat.zero_lt_of_lt hX)
  have hBlocks :
      ∀ extent : U32, extent.toNat < 2 ^ 30 →
        (blocks extent).toNat = (extent.toNat + 3) / 4 := by
    intro extent hExtent
    have hThree : (3 : U32).toNat = 3 := rfl
    have hFour : (4 : U32).toNat = 4 := rfl
    unfold blocks
    rw [BitVec.toNat_udiv, BitVec.toNat_add, hThree, hFour,
      Nat.mod_eq_of_lt (by omega)]
  exact ⟨by omega, by omega, hBlocks width (by omega),
    hBlocks height (by omega)⟩

theorem block_bound
    {extent : U32}
    {block : Nat}
    (hBlock : block < (blocks extent).toNat) :
    block * 4 + 3 < 2 ^ 32 := by
  have hFour : (4 : U32).toNat = 4 := rfl
  have hSum := (extent + 3).isLt
  unfold blocks at hBlock
  rw [BitVec.toNat_udiv, hFour] at hBlock
  omega

/-
  The pixels of the blocks, those cut off left out, are the
  pixels of the image.
-/
theorem exists_pixel_iff
    (hSmall : width.toNat * height.toNat * 4 < 2 ^ 32)
    {P : U32 → U32 → U32 → U32 → Prop} :
    (∃ blockY < (blocks height).toNat,
      ∃ blockX < (blocks width).toNat,
        ∃ py ∈ inside height (.ofNat 32 blockY),
          ∃ px ∈ inside width (.ofNat 32 blockX),
            P (.ofNat 32 blockY) (.ofNat 32 blockX) py px) ↔
      ∃ x y,
        x < width.toNat ∧ y < height.toNat ∧
          P (.ofNat 32 (y / 4)) (.ofNat 32 (x / 4))
            (.ofNat 32 (y % 4)) (.ofNat 32 (x % 4)) := by
  constructor
  · rintro ⟨blockY, hBlockY, blockX, hBlockX, py, hPy, px, hPx,
      hP⟩
    rw [mem_inside_iff (block_bound hBlockY)] at hPy
    rw [mem_inside_iff (block_bound hBlockX)] at hPx
    rcases hPy with ⟨q, hQ, hY, rfl⟩
    rcases hPx with ⟨p, hP', hX, rfl⟩
    refine ⟨blockX * 4 + p, blockY * 4 + q, hX, hY, ?_⟩
    have hDiv :
        ∀ b r, r < 4 →
          (b * 4 + r) / 4 = b ∧ (b * 4 + r) % 4 = r := by
      intro b r hR
      omega
    rw [(hDiv blockX p hP').1, (hDiv blockX p hP').2,
      (hDiv blockY q hQ).1, (hDiv blockY q hQ).2]
    exact hP
  · rintro ⟨x, y, hX, hY, hP⟩
    rcases sides_of_small hSmall hX hY with
      ⟨hWide, hHigh, hAcross, hDown⟩
    have hBlockX : x / 4 < (blocks width).toNat := by omega
    have hBlockY : y / 4 < (blocks height).toNat := by omega
    refine ⟨y / 4, hBlockY, x / 4, hBlockX, _, ?_, _, ?_, hP⟩
    · rw [mem_inside_iff (block_bound hBlockY)]
      exact ⟨y % 4, Nat.mod_lt y (by decide), by omega, rfl⟩
    · rw [mem_inside_iff (block_bound hBlockX)]
      exact ⟨x % 4, Nat.mod_lt x (by decide), by omega, rfl⟩

theorem ofNat_div_mod (n : Nat) :
    (.ofNat 32 (n / 4) : U32) * 4 + .ofNat 32 (n % 4) =
      .ofNat 32 n := by
  have hFour : (4 : U32).toNat = 4 := rfl
  apply BitVec.eq_of_toNat_eq
  rw [BitVec.toNat_add, BitVec.toNat_mul, BitVec.toNat_ofNat,
    BitVec.toNat_ofNat, BitVec.toNat_ofNat, hFour]
  omega

/- The number of a pixel, from its block and its place in it. -/
theorem toNat_pixelOffset
    (hSmall : width.toNat * height.toNat * 4 < 2 ^ 32)
    (hX : x < width.toNat)
    (hY : y < height.toNat) :
    (pixelOffset width (.ofNat 32 (y / 4)) (.ofNat 32 (x / 4))
        (.ofNat 32 (y % 4)) (.ofNat 32 (x % 4))).toNat =
      (y * width.toNat + x) * 4 := by
  have hFour : (4 : U32).toNat = 4 := rfl
  have hPlace :=
    WriteList.place_lt hX hY (show 0 < 4 by decide)
  have hYNat := toNat_ofNat_of_lt hY
  have hXNat := toNat_ofNat_of_lt hX
  unfold WriteList.place at hPlace
  unfold pixelOffset
  rw [ofNat_div_mod, ofNat_div_mod, BitVec.toNat_mul,
    BitVec.toNat_add, BitVec.toNat_mul, hYNat, hXNat, hFour]
  rw [Nat.mod_add_mod, Nat.mod_mul_mod,
    Nat.mod_eq_of_lt (by omega)]

/- Where a block is, in blocks of 8 or 16 bytes. -/
theorem toNat_blockIndex
    (hSmall : width.toNat * height.toNat * 4 < 2 ^ 32)
    (hX : x < width.toNat)
    (hY : y < height.toNat)
    {size : U32}
    (hSize : size.toNat ≤ 16) :
    (blockIndex width (.ofNat 32 (y / 4)) (.ofNat 32 (x / 4)) *
        size).toNat =
      (y / 4 * (blocks width).toNat + x / 4) * size.toNat := by
  rcases sides_of_small hSmall hX hY with
    ⟨hWide, hHigh, hAcross, hDown⟩
  have hWidePos := Nat.zero_lt_of_lt hX
  have hHighPos := Nat.zero_lt_of_lt hY
  have hBlockX : x / 4 + 1 ≤ (blocks width).toNat := by omega
  have hBlockY : y / 4 + 1 ≤ (blocks height).toNat := by omega
  -- A sixteenth of the pixels, with both sides rounded up.
  have hCount :
      (blocks width).toNat * (blocks height).toNat ≤
        2 ^ 28 := by
    have hSides :
        (blocks width).toNat * 4 * ((blocks height).toNat * 4) ≤
          (width.toNat + 3) * (height.toNat + 3) :=
      Nat.mul_le_mul (by omega) (by omega)
    have hSum :
        width.toNat + height.toNat ≤
          width.toNat * height.toNat + 1 := by
      rcases Nat.exists_eq_add_of_lt hWidePos with ⟨w, hW⟩
      rcases Nat.exists_eq_add_of_lt hHighPos with ⟨h, hH⟩
      rw [hW, hH]
      have hProduct :
          (0 + w + 1) * (0 + h + 1) = w * h + w + h + 1 := by
        ring
      omega
    have hLeft :
        (blocks width).toNat * 4 * ((blocks height).toNat * 4) =
          (blocks width).toNat * (blocks height).toNat *
            16 := by
      ring
    have hRight :
        (width.toNat + 3) * (height.toNat + 3) =
          width.toNat * height.toNat +
            3 * (width.toNat + height.toNat) + 9 := by
      ring
    omega
  have hIndex :
      y / 4 * (blocks width).toNat + x / 4 + 1 ≤
        (blocks width).toNat * (blocks height).toNat := by
    have hRow :=
      Nat.mul_le_mul_right (blocks width).toNat hBlockY
    rw [Nat.add_one_mul, Nat.mul_comm (blocks height).toNat]
      at hRow
    omega
  have hBytes :
      (y / 4 * (blocks width).toNat + x / 4) * size.toNat ≤
        (y / 4 * (blocks width).toNat + x / 4) * 16 :=
    Nat.mul_le_mul_left _ hSize
  unfold blockIndex
  rw [BitVec.toNat_mul, BitVec.toNat_add, BitVec.toNat_mul,
    BitVec.toNat_ofNat, BitVec.toNat_ofNat,
    Nat.mod_eq_of_lt (show y / 4 < 2 ^ 32 by omega),
    Nat.mod_eq_of_lt (show x / 4 < 2 ^ 32 by omega),
    Nat.mod_add_mod, Nat.mod_mul_mod,
    Nat.mod_eq_of_lt (by omega)]

------
-- Images That Are Drawn
------

open WriteList

variable {src : Nat → U8}

theorem toNat_add_channel
    {doff : U32}
    {c : Nat}
    (hDoff : doff.toNat + c < 2 ^ 32) :
    (doff + .ofNat 32 c).toNat = doff.toNat + c := by
  rw [BitVec.toNat_add, BitVec.toNat_ofNat]
  omega

theorem mem_putTexel_iff
    {doff : U32}
    {texel : Texel}
    (hDoff : doff.toNat + 3 < 2 ^ 32)
    (w : Nat × U8) :
    w ∈ putTexel doff texel ↔
      ∃ c < 4, w = (doff.toNat + c, texel.channel c) := by
  have hPlace :
      ∀ c < 4, (doff + .ofNat 32 c).toNat = doff.toNat + c :=
    fun c hC => toNat_add_channel (by omega)
  have hList :
      putTexel doff texel =
        (List.range 4).map fun c =>
          ((doff + .ofNat 32 c).toNat, texel.channel c) :=
    rfl
  rw [hList, List.mem_map]
  constructor
  · rintro ⟨c, hC, rfl⟩
    have hC := List.mem_range.mp hC
    exact ⟨c, hC, by rw [hPlace c hC]⟩
  · rintro ⟨c, hC, rfl⟩
    exact ⟨c, List.mem_range.mpr hC, by rw [hPlace c hC]⟩

theorem mem_forBlocks_iff
    {f : U32 → U32 → List (Nat × U8)}
    {w : Nat × U8} :
    w ∈ forBlocks width height f ↔
      ∃ blockY < (blocks height).toNat,
        ∃ blockX < (blocks width).toNat,
          w ∈ f (.ofNat 32 blockY) (.ofNat 32 blockX) := by
  unfold forBlocks
  simp only [List.mem_flatMap, List.mem_range]

theorem mem_forPixels_iff
    {blockY blockX : U32}
    {f : U32 → U32 → List (Nat × U8)}
    {w : Nat × U8} :
    w ∈ forPixels width height blockY blockX f ↔
      ∃ py ∈ inside height blockY,
        ∃ px ∈ inside width blockX, w ∈ f py px := by
  unfold forPixels
  simp only [List.mem_flatMap]

/- Decoders that draw each pixel once, with all its bytes. -/
theorem draws_of_texels
    (hSmall : width.toNat * height.toNat * 4 < 2 ^ 32)
    (texel : U32 → U32 → U32 → U32 → Texel) :
    Draws
      (forBlocks width height fun blockY blockX =>
        forPixels width height blockY blockX fun py px =>
          putTexel (pixelOffset width blockY blockX py px)
            (texel blockY blockX py px))
      4 width.toNat height.toNat
      fun x y c =>
        (texel (.ofNat 32 (y / 4)) (.ofNat 32 (x / 4))
          (.ofNat 32 (y % 4))
          (.ofNat 32 (x % 4))).channel c := by
  intro w
  simp only [mem_forBlocks_iff, mem_forPixels_iff]
  rw [exists_pixel_iff hSmall
    (P := fun blockY blockX py px =>
      w ∈ putTexel (pixelOffset width blockY blockX py px)
        (texel blockY blockX py px))]
  have hDrawn :
      ∀ x y, x < width.toNat → y < height.toNat →
        ∀ t : Texel,
          (w ∈ putTexel
              (pixelOffset width (.ofNat 32 (y / 4))
                (.ofNat 32 (x / 4)) (.ofNat 32 (y % 4))
                (.ofNat 32 (x % 4))) t ↔
            ∃ c < 4,
              w =
                (place 4 width.toNat x y c,
                  t.channel c)) := by
    intro x y hX hY t
    have hDoff := toNat_pixelOffset hSmall hX hY
    have hPlace := place_lt hX hY (show 3 < 4 by decide)
    unfold place at hPlace ⊢
    rw [mem_putTexel_iff (by omega), hDoff]
  constructor
  · rintro ⟨x, y, hX, hY, hW⟩
    rcases (hDrawn x y hX hY _).mp hW with ⟨c, hC, hW⟩
    exact ⟨x, y, c, hX, hY, hC, hW⟩
  · rintro ⟨x, y, c, hX, hY, hC, hW⟩
    exact ⟨x, y, hX, hY, (hDrawn x y hX hY _).mpr ⟨c, hC, hW⟩⟩

/- The block of a pixel, from blocks of `size` bytes. -/
def pixelBlock
    (src : Nat → U8)
    (size width x y : Nat) : Nat → U8 :=
  fun i => src ((y / 4 * ((width + 3) / 4) + x / 4) * size + i)

/- The number of a pixel in its block. -/
def pixelNumber (x y : Nat) : U32 :=
  .ofNat 32 (y % 4) * 4 + .ofNat 32 (x % 4)

theorem blockAt_eq
    (hSmall : width.toNat * height.toNat * 4 < 2 ^ 32)
    (hX : x < width.toNat)
    (hY : y < height.toNat)
    {size : U32}
    (hSize : size.toNat ≤ 16) :
    blockAt src
        (blockIndex width (.ofNat 32 (y / 4))
            (.ofNat 32 (x / 4)) * size) =
      pixelBlock src size.toNat width.toNat x y := by
  funext i
  unfold blockAt pixelBlock
  rw [toNat_blockIndex hSmall hX hY hSize,
    (sides_of_small hSmall hX hY).2.2.1]

/- Pixels of the image only count for what is drawn. -/
theorem draws_congr
    {writes : List (Nat × U8)}
    {channels w h : Nat}
    {pixel pixel' : Nat → Nat → Nat → U8}
    (hDraws : Draws writes channels w h pixel)
    (hSame :
      ∀ x y, x < w → y < h → pixel x y = pixel' x y) :
    Draws writes channels w h pixel' := by
  intro v
  rw [hDraws v]
  constructor
  · rintro ⟨x, y, c, hX, hY, hC, hV⟩
    rw [hSame x y hX hY] at hV
    exact ⟨x, y, c, hX, hY, hC, hV⟩
  · rintro ⟨x, y, c, hX, hY, hC, hV⟩
    rw [← hSame x y hX hY] at hV
    exact ⟨x, y, c, hX, hY, hC, hV⟩

/- Decoders with a pixel for each number in a block. -/
theorem draws_of_blocks
    (hSmall : width.toNat * height.toNat * 4 < 2 ^ 32)
    {size : U32}
    (hSize : size.toNat ≤ 16)
    (texel : (Nat → U8) → U32 → Texel) :
    Draws
      (forBlocks width height fun blockY blockX =>
        forPixels width height blockY blockX fun py px =>
          putTexel (pixelOffset width blockY blockX py px)
            (texel
              (blockAt src
                (blockIndex width blockY blockX * size))
              (py * 4 + px)))
      4 width.toNat height.toNat
      fun x y c =>
        (texel (pixelBlock src size.toNat width.toNat x y)
          (pixelNumber x y)).channel c := by
  apply draws_congr
  · exact draws_of_texels hSmall fun blockY blockX py px =>
      texel
        (blockAt src (blockIndex width blockY blockX * size))
        (py * 4 + px)
  · intro x y hX hY
    rw [blockAt_eq hSmall hX hY hSize]
    rfl

theorem draws_decodeBC1
    (hSmall : width.toNat * height.toNat * 4 < 2 ^ 32) :
    Draws (decodeBC1 src width height) 4 width.toNat
      height.toNat fun x y c =>
        (bc1Texel (pixelBlock src 8 width.toNat x y)
          (pixelNumber x y)).channel c :=
  draws_of_blocks hSmall (by decide) bc1Texel

theorem draws_decodeBC3
    (hSmall : width.toNat * height.toNat * 4 < 2 ^ 32) :
    Draws (decodeBC3 src width height) 4 width.toNat
      height.toNat fun x y c =>
        (bc3Texel (pixelBlock src 16 width.toNat x y)
          (pixelNumber x y)).channel c :=
  draws_of_blocks hSmall (by decide) bc3Texel

theorem draws_decodeBC4
    (hSmall : width.toNat * height.toNat * 4 < 2 ^ 32) :
    Draws (decodeBC4 src width height) 4 width.toNat
      height.toNat fun x y c =>
        (bc4Texel (pixelBlock src 8 width.toNat x y)
          (pixelNumber x y)).channel c :=
  draws_of_blocks hSmall (by decide) bc4Texel

/- Both channels of a BC5 pixel, and what fills it up. -/
def bc5Texel (block : Nat → U8) (pi : U32) : Texel :=
  { first := bc5Value (fun i => block (0 * 8 + i)) pi
    second := bc5Value (fun i => block (1 * 8 + i)) pi
    third := 0
    fourth := 255 }

/- The writes for a pixel, in both rounds. -/
def putChannel
    (block : Nat → U8)
    (pi doff : U32)
    (ch : Nat) : List (Nat × U8) :=
  ((doff + .ofNat 32 ch).toNat,
      bc5Value (fun i => block (ch * 8 + i)) pi) ::
    ((if ch = 0 then [((doff + 2).toNat, 0)] else []) ++
      if ch = 1 then [((doff + 3).toNat, 255)] else [])

/- The two rounds make up what others write at once. -/
theorem mem_putChannel_iff
    {block : Nat → U8}
    {pi doff : U32}
    {w : Nat × U8} :
    (∃ ch < 2, w ∈ putChannel block pi doff ch) ↔
      w ∈ putTexel doff (bc5Texel block pi) := by
  have hFirst :
      putChannel block pi doff 0 =
        [((doff + 0).toNat, (bc5Texel block pi).first),
          ((doff + 2).toNat, 0)] :=
    rfl
  have hSecond :
      putChannel block pi doff 1 =
        [((doff + 1).toNat, (bc5Texel block pi).second),
          ((doff + 3).toNat, 255)] :=
    rfl
  have hRounds :
      (∃ ch < 2, w ∈ putChannel block pi doff ch) ↔
        w ∈ putChannel block pi doff 0 ∨
          w ∈ putChannel block pi doff 1 := by
    constructor
    · rintro ⟨ch, hCh, hW⟩
      have hCases : ch = 0 ∨ ch = 1 := by omega
      rcases hCases with rfl | rfl
      · exact Or.inl hW
      · exact Or.inr hW
    · rintro (hW | hW)
      · exact ⟨0, by decide, hW⟩
      · exact ⟨1, by decide, hW⟩
  rw [hRounds, hFirst, hSecond]
  unfold putTexel
  simp only [List.mem_cons, List.not_mem_nil, or_false]
  constructor
  · rintro ((hW | hW) | (hW | hW))
    · exact Or.inl hW
    · exact Or.inr (Or.inr (Or.inl hW))
    · exact Or.inr (Or.inl hW)
    · exact Or.inr (Or.inr (Or.inr hW))
  · rintro (hW | hW | hW | hW)
    · exact Or.inl (Or.inl hW)
    · exact Or.inr (Or.inl hW)
    · exact Or.inl (Or.inr hW)
    · exact Or.inr (Or.inr hW)

theorem mem_decodeBC5_iff
    {w : Nat × U8} :
    w ∈ decodeBC5 src width height ↔
      w ∈ forBlocks width height fun blockY blockX =>
        forPixels width height blockY blockX fun py px =>
          putTexel (pixelOffset width blockY blockX py px)
            (bc5Texel
              (blockAt src
                (blockIndex width blockY blockX * 16))
              (py * 4 + px)) := by
  unfold decodeBC5
  rw [mem_forBlocks_iff, mem_forBlocks_iff]
  constructor
  · rintro ⟨blockY, hBlockY, blockX, hBlockX, hW⟩
    rcases List.mem_flatMap.mp hW with ⟨ch, hCh, hW⟩
    rcases mem_forPixels_iff.mp hW with
      ⟨py, hPy, px, hPx, hW⟩
    exact ⟨blockY, hBlockY, blockX, hBlockX,
      mem_forPixels_iff.mpr ⟨py, hPy, px, hPx,
        mem_putChannel_iff.mp
          ⟨ch, List.mem_range.mp hCh, hW⟩⟩⟩
  · rintro ⟨blockY, hBlockY, blockX, hBlockX, hW⟩
    rcases mem_forPixels_iff.mp hW with
      ⟨py, hPy, px, hPx, hW⟩
    rcases mem_putChannel_iff.mpr hW with ⟨ch, hCh, hW⟩
    exact ⟨blockY, hBlockY, blockX, hBlockX,
      List.mem_flatMap.mpr ⟨ch, List.mem_range.mpr hCh,
        mem_forPixels_iff.mpr ⟨py, hPy, px, hPx, hW⟩⟩⟩

theorem draws_decodeBC5
    (hSmall : width.toNat * height.toNat * 4 < 2 ^ 32) :
    Draws (decodeBC5 src width height) 4 width.toNat
      height.toNat fun x y c =>
        (bc5Texel (pixelBlock src 16 width.toNat x y)
          (pixelNumber x y)).channel c := by
  intro w
  rw [mem_decodeBC5_iff]
  exact draws_of_blocks hSmall (by decide) bc5Texel w

------
-- Agreement
------

variable {block block' : Nat → U8}

/- The first eight bytes of each block of sixteen. -/
def firstHalves (src : Nat → U8) : Nat → U8 :=
  fun i => src (i / 8 * 16 + i % 8)

/- The last eight bytes of each block of sixteen. -/
def secondHalves (src : Nat → U8) : Nat → U8 :=
  fun i => src (i / 8 * 16 + 8 + i % 8)

theorem pixelBlock_firstHalves
    (src : Nat → U8)
    (w x y : Nat)
    {i : Nat}
    (hI : i < 8) :
    pixelBlock (firstHalves src) 8 w x y i =
      pixelBlock src 16 w x y i := by
  unfold pixelBlock firstHalves
  congr 1
  omega

theorem pixelBlock_secondHalves
    (src : Nat → U8)
    (w x y : Nat)
    {i : Nat}
    (hI : i < 8) :
    pixelBlock (secondHalves src) 8 w x y i =
      pixelBlock src 16 w x y (8 + i) := by
  unfold pixelBlock secondHalves
  congr 1
  omega

theorem valueIndices_congr
    (hSame : ∀ i < 8, block i = block' i) :
    valueIndices block = valueIndices block' := by
  unfold valueIndices
  rw [hSame 2 (by decide), hSame 3 (by decide),
    hSame 4 (by decide), hSame 5 (by decide),
    hSame 6 (by decide), hSame 7 (by decide)]

/- The alpha part of a block is decoded like a BC4 block. -/
theorem bc3Texel_alpha
    (hSame : ∀ i < 8, block i = block' i)
    (pi : U32) :
    (bc3Texel block' pi).fourth =
      (bc4Texel block pi).first := by
  unfold bc3Texel bc4Texel
  dsimp only
  rw [valueIndices_congr hSame, hSame 0 (by decide),
    hSame 1 (by decide)]
  rfl

/- And so is each channel of a BC5 block. -/
theorem bc5Value_eq
    (hSame : ∀ i < 8, block i = block' i)
    (pi : U32) :
    bc5Value block' pi = (bc4Texel block pi).first := by
  unfold bc5Value bc4Texel
  dsimp only
  rw [valueIndices_congr hSame, hSame 0 (by decide),
    hSame 1 (by decide)]
  rfl

/- A two-bit index is one of four. -/
theorem twoBits_cases (n : U32) :
    n &&& 3 = 0 ∨ n &&& 3 = 1 ∨ n &&& 3 = 2 ∨ n &&& 3 = 3 := by
  have hNat : (n &&& 3).toNat = n.toNat % 2 ^ 2 := by
    rw [BitVec.toNat_and]
    exact Nat.and_two_pow_sub_one_eq_mod n.toNat 2
  have hLess := Nat.mod_lt n.toNat (show 0 < 2 ^ 2 by decide)
  have hCases :
      n.toNat % 2 ^ 2 = 0 ∨ n.toNat % 2 ^ 2 = 1 ∨
        n.toNat % 2 ^ 2 = 2 ∨ n.toNat % 2 ^ 2 = 3 := by
    omega
  rw [← hNat] at hCases
  rcases hCases with hZero | hOne | hTwo | hThree
  · exact Or.inl (BitVec.eq_of_toNat_eq hZero)
  · exact Or.inr (Or.inl (BitVec.eq_of_toNat_eq hOne))
  · exact Or.inr (Or.inr (Or.inl (BitVec.eq_of_toNat_eq hTwo)))
  · exact
      Or.inr (Or.inr (Or.inr (BitVec.eq_of_toNat_eq hThree)))

/- The table of a BC3 block has the colours of a BC1 block. -/
theorem bc3Colors_getD
    (c0 c1 : BitVec 16)
    {idx : U32}
    (hIdx : idx = 0 ∨ idx = 1 ∨ idx = 2 ∨ idx = 3) :
    (bc3Colors c0 c1).getD idx.toNat ⟨0, 0, 0⟩ =
      if idx = 0 then decode565 c0
      else if idx = 1 then decode565 c1
      else if idx = 2 then
        if c0 ≤ c1 then
          mixRgb 1 1 2 (decode565 c0) (decode565 c1)
        else mixRgb 2 1 3 (decode565 c0) (decode565 c1)
      else if c0 ≤ c1 then ⟨0, 0, 0⟩
      else mixRgb 1 2 3 (decode565 c0) (decode565 c1) := by
  unfold bc3Colors
  dsimp only
  by_cases hOrder : c0 ≤ c1
  · have hNot : ¬ c0 > c1 := BitVec.not_lt.mpr hOrder
    rw [if_neg hNot, if_pos hOrder, if_pos hOrder]
    rcases hIdx with rfl | rfl | rfl | rfl <;> rfl
  · have hMore : c0 > c1 := BitVec.not_le.mp hOrder
    rw [if_pos hMore, if_neg hOrder, if_neg hOrder]
    rcases hIdx with rfl | rfl | rfl | rfl <;> rfl

/- The colours of a block are decoded like a BC1 block. -/
theorem bc3Texel_color
    (hSame : ∀ i < 8, block i = block' (8 + i))
    (pi : U32)
    {c : Nat}
    (hC : c < 3) :
    (bc3Texel block' pi).channel c =
      (bc1Texel block pi).channel c := by
  have hFirst : blockHalf block' 8 = blockHalf block 0 := by
    unfold blockHalf
    rw [hSame 0 (by decide), hSame 1 (by decide)]
  have hSecond : blockHalf block' 10 = blockHalf block 2 := by
    unfold blockHalf
    rw [hSame 2 (by decide), hSame 3 (by decide)]
  have hIndices :
      colorIndices block' 12 = colorIndices block 4 := by
    unfold colorIndices
    rw [hSame 4 (by decide), hSame 5 (by decide),
      hSame 6 (by decide), hSame 7 (by decide)]
  have hIdx := twoBits_cases (colorIndices block 4 >>> (2 * pi))
  have hChannel : c = 0 ∨ c = 1 ∨ c = 2 := by omega
  unfold bc3Texel bc1Texel
  dsimp only
  rw [hFirst, hSecond, hIndices, bc3Colors_getD _ _ hIdx]
  generalize blockHalf block 0 = c0
  generalize blockHalf block 2 = c1
  by_cases hOrder : c0 ≤ c1
  · simp only [if_pos hOrder]
    rcases hIdx with hIdx | hIdx | hIdx | hIdx <;> rw [hIdx] <;>
      rcases hChannel with rfl | rfl | rfl <;> rfl
  · simp only [if_neg hOrder]
    rcases hIdx with hIdx | hIdx | hIdx | hIdx <;> rw [hIdx] <;>
      rcases hChannel with rfl | rfl | rfl <;> rfl

/- The image that is there when all writes are made. -/
def decoded
    (writes : List (Nat × U8))
    (dst : Nat → U8) : Nat → U8 :=
  WriteList.apply writes dst

/- The four decoders. -/
def decoders :
    List ((Nat → U8) → U32 → U32 → List (Nat × U8)) :=
  [decodeBC1, decodeBC3, decodeBC4, decodeBC5]

theorem draws_of_mem_decoders
    {decode : (Nat → U8) → U32 → U32 → List (Nat × U8)}
    (hDecode : decode ∈ decoders)
    (src : Nat → U8)
    (hSmall : width.toNat * height.toNat * 4 < 2 ^ 32) :
    ∃ pixel,
      Draws (decode src width height) 4 width.toNat
        height.toNat pixel := by
  unfold decoders at hDecode
  simp only [List.mem_cons, List.not_mem_nil, or_false]
    at hDecode
  rcases hDecode with rfl | rfl | rfl | rfl
  · exact ⟨_, draws_decodeBC1 hSmall⟩
  · exact ⟨_, draws_decodeBC3 hSmall⟩
  · exact ⟨_, draws_decodeBC4 hSmall⟩
  · exact ⟨_, draws_decodeBC5 hSmall⟩

/- What the decoders have in common, for one pixel. -/
structure PixelAgrees
    (src dst dst' : Nat → U8)
    (width height : U32)
    (p : Nat) : Prop where
  alpha :
    decoded (decodeBC3 src width height) dst (p * 4 + 3) =
      decoded (decodeBC4 (firstHalves src) width height) dst'
        (p * 4 + 0)
  red :
    decoded (decodeBC5 src width height) dst (p * 4 + 0) =
      decoded (decodeBC4 (firstHalves src) width height) dst'
        (p * 4 + 0)
  green :
    decoded (decodeBC5 src width height) dst (p * 4 + 1) =
      decoded (decodeBC4 (secondHalves src) width height) dst'
        (p * 4 + 0)
  color :
    ∀ c < 3,
      decoded (decodeBC3 src width height) dst (p * 4 + c) =
        decoded (decodeBC1 (secondHalves src) width height)
          dst' (p * 4 + c)

theorem decoded_of_draws
    {writes : List (Nat × U8)}
    {pixel : Nat → Nat → Nat → U8}
    {w h x y c : Nat}
    (hDraws : Draws writes 4 w h pixel)
    (dst : Nat → U8)
    (hX : x < w)
    (hY : y < h)
    (hC : c < 4) :
    decoded writes dst ((y * w + x) * 4 + c) = pixel x y c :=
  hDraws.apply_eq hX hY hC

theorem pixelAgrees
    (src dst dst' : Nat → U8)
    (hSmall : width.toNat * height.toNat * 4 < 2 ^ 32)
    (hX : x < width.toNat)
    (hY : y < height.toNat) :
    PixelAgrees src dst dst' width height
      (y * width.toNat + x) := by
  have hFirst :
      ∀ i < 8,
        pixelBlock (firstHalves src) 8 width.toNat x y i =
          pixelBlock src 16 width.toNat x y i :=
    fun i hI => pixelBlock_firstHalves src _ x y hI
  have hSecond :
      ∀ i < 8,
        pixelBlock (secondHalves src) 8 width.toNat x y i =
          pixelBlock src 16 width.toNat x y (8 + i) :=
    fun i hI => pixelBlock_secondHalves src _ x y hI
  refine ⟨?_, ?_, ?_, ?_⟩
  · rw [decoded_of_draws (draws_decodeBC3 hSmall) dst hX hY
        (by decide),
      decoded_of_draws (draws_decodeBC4 hSmall) dst' hX hY
        (by decide)]
    exact bc3Texel_alpha hFirst (pixelNumber x y)
  · rw [decoded_of_draws (draws_decodeBC5 hSmall) dst hX hY
        (by decide),
      decoded_of_draws (draws_decodeBC4 hSmall) dst' hX hY
        (by decide)]
    change
      bc5Value
          (fun i =>
            pixelBlock src 16 width.toNat x y (0 * 8 + i)) _ =
        (bc4Texel _ _).first
    apply bc5Value_eq
    intro i hI
    rw [hFirst i hI, Nat.zero_mul, Nat.zero_add]
  · rw [decoded_of_draws (draws_decodeBC5 hSmall) dst hX hY
        (by decide),
      decoded_of_draws (draws_decodeBC4 hSmall) dst' hX hY
        (by decide)]
    change
      bc5Value
          (fun i =>
            pixelBlock src 16 width.toNat x y (1 * 8 + i)) _ =
        (bc4Texel _ _).first
    apply bc5Value_eq
    intro i hI
    rw [hSecond i hI, Nat.one_mul]
  · intro c hC
    rw [decoded_of_draws (draws_decodeBC3 hSmall) dst hX hY
        (Nat.lt_succ_of_lt hC),
      decoded_of_draws (draws_decodeBC1 hSmall) dst' hX hY
        (Nat.lt_succ_of_lt hC)]
    exact bc3Texel_color hSecond (pixelNumber x y) hC

/-
  The channels that two decoders have agree, and each decoder
  writes every byte of the image and no other.
-/
theorem decoders_agree
    (src dst dst' : Nat → U8)
    (width height : U32)
    (hSmall : width.toNat * height.toNat * 4 < 2 ^ 32) :
    (∀ p < width.toNat * height.toNat,
      PixelAgrees src dst dst' width height p) ∧
      ∀ decode ∈ decoders, ∀ o,
        (∃ w ∈ decode src width height, w.1 = o) ↔
          o < width.toNat * height.toNat * 4 := by
  constructor
  · intro p hP
    have hWide : 0 < width.toNat := by
      apply Nat.pos_of_ne_zero
      intro hZero
      rw [hZero, Nat.zero_mul] at hP
      exact absurd hP (Nat.not_lt_zero p)
    have hX := Nat.mod_lt p hWide
    have hY : p / width.toNat < height.toNat := by
      rw [Nat.div_lt_iff_lt_mul hWide, Nat.mul_comm]
      exact hP
    have hAgrees := pixelAgrees src dst dst' hSmall hX hY
    rw [Nat.div_add_mod'] at hAgrees
    exact hAgrees
  · intro decode hDecode o
    rcases draws_of_mem_decoders hDecode src hSmall with
      ⟨pixel, hDraws⟩
    exact hDraws.exists_write_iff o

/- An image of two blocks, both cut off. -/
theorem decoders_agree_cutOff :
    (∀ p < 5 * 3,
      PixelAgrees (fun i => .ofNat 8 (37 * i)) (fun _ => 0)
        (fun _ => 1) 5 3 p) ∧
      ∀ decode ∈ decoders, ∀ o,
        (∃ w ∈ decode (fun i => .ofNat 8 (37 * i)) 5 3,
            w.1 = o) ↔
          o < 5 * 3 * 4 :=
  decoders_agree (fun i => .ofNat 8 (37 * i)) (fun _ => 0)
    (fun _ => 1) 5 3 (by decide)

end TextureCache

end M1Switch
