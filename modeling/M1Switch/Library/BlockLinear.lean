import Mathlib.Data.List.Nodup
import Mathlib.Data.List.Perm.Subperm
import Mathlib.Data.List.Range
import Mathlib.Tactic.Linarith
import Mathlib.Tactic.Ring

/-
  Images whose samples are stored block by block.

  A block has a number of rows, and a row of it a number of
  samples and maybe some bytes that are left over.  Blocks
  follow each other along the rows of the image and are never
  cut off, so that an image may take more bytes than it has.

  Key definitions include:
    * `BlockLinear.Gob`
    * `offset`

  Main results:
    * `exists_behind_iff`
    * `last_le_iff`
    * `perm_range`
-/

------
-- Blocks
------

namespace BlockLinear

/- A number has one last digit, and one number before it. -/
theorem digits_eq
    {n q q' b b' : Nat}
    (hB : b < n)
    (hB' : b' < n)
    (hSame : q * n + b = q' * n + b') :
    q = q' ∧ b = b' := by
  have hPos : 0 < n := Nat.zero_lt_of_lt hB
  have hDiv := congrArg (· / n) hSame
  have hMod := congrArg (· % n) hSame
  simp only [Nat.mul_comm _ n, Nat.mul_add_div hPos,
    Nat.div_eq_of_lt hB, Nat.div_eq_of_lt hB', Nat.add_zero]
    at hDiv
  simp only [Nat.mul_comm _ n, Nat.mul_add_mod,
    Nat.mod_eq_of_lt hB, Nat.mod_eq_of_lt hB'] at hMod
  exact ⟨hDiv, hMod⟩

/- The shape of a block; a sample fits into each row. -/
structure Gob where
  rowBytes : Nat
  rows : Nat
  perRow : Nat
  sample : Nat
  rows_pos : 0 < rows
  perRow_pos : 0 < perRow
  sample_pos : 0 < sample
  fits : perRow * sample ≤ rowBytes

namespace Gob

variable (g : Gob)

/- The bytes of a block. -/
def size : Nat :=
  g.rows * g.rowBytes

/- The blocks along a row of an image. -/
def across (width : Nat) : Nat :=
  (width + g.perRow - 1) / g.perRow

/- The blocks along a column of an image. -/
def down (height : Nat) : Nat :=
  (height + g.rows - 1) / g.rows

/- The bytes of an image. -/
def surface (width height : Nat) : Nat :=
  g.across width * g.down height * g.size

/- Where a sample is inside its block. -/
def inner (x y : Nat) : Nat :=
  y % g.rows * g.rowBytes + x % g.perRow * g.sample

/- Where a sample is in the image. -/
def offset (width x y : Nat) : Nat :=
  (y / g.rows * g.across width + x / g.perRow) * g.size +
    g.inner x y

variable {g} {width height x y x' y' : Nat}

theorem row_add_le :
    x % g.perRow * g.sample + g.sample ≤ g.rowBytes := by
  have hColumn : x % g.perRow + 1 ≤ g.perRow :=
    Nat.mod_lt x g.perRow_pos
  calc
    x % g.perRow * g.sample + g.sample =
        (x % g.perRow + 1) * g.sample := by ring
    _ ≤ g.perRow * g.sample := Nat.mul_le_mul_right _ hColumn
    _ ≤ g.rowBytes := g.fits

theorem inner_add_le :
    g.inner x y + g.sample ≤ g.size := by
  have hRow : y % g.rows + 1 ≤ g.rows :=
    Nat.mod_lt y g.rows_pos
  have hFits :
      x % g.perRow * g.sample + g.sample ≤ g.rowBytes :=
    row_add_le
  calc
    g.inner x y + g.sample ≤
        y % g.rows * g.rowBytes + g.rowBytes := by
      unfold inner
      omega
    _ = (y % g.rows + 1) * g.rowBytes := by ring
    _ ≤ g.size := Nat.mul_le_mul_right _ hRow

/- A row that is not filled leaves room behind its samples. -/
theorem inner_add_lt
    (hRoom : g.perRow * g.sample < g.rowBytes) :
    g.inner x y + g.sample < g.size := by
  have hRow : y % g.rows + 1 ≤ g.rows :=
    Nat.mod_lt y g.rows_pos
  have hColumn : x % g.perRow + 1 ≤ g.perRow :=
    Nat.mod_lt x g.perRow_pos
  have hSamples := Nat.mul_le_mul_right g.sample hColumn
  have hRows := Nat.mul_le_mul_right g.rowBytes hRow
  rw [Nat.succ_mul] at hSamples hRows
  unfold inner size
  omega

/- A column of samples is in a block of the row. -/
theorem div_lt_across
    (hX : x < width) :
    x / g.perRow < g.across width := by
  have hPos := g.perRow_pos
  unfold across
  rw [Nat.lt_iff_add_one_le, Nat.le_div_iff_mul_le hPos]
  have hDiv := Nat.div_add_mod x g.perRow
  have hMul :
      (x / g.perRow + 1) * g.perRow =
        g.perRow * (x / g.perRow) + g.perRow := by
    ring
  omega

theorem div_lt_down
    (hY : y < height) :
    y / g.rows < g.down height := by
  have hPos := g.rows_pos
  unfold down
  rw [Nat.lt_iff_add_one_le, Nat.le_div_iff_mul_le hPos]
  have hDiv := Nat.div_add_mod y g.rows
  have hMul :
      (y / g.rows + 1) * g.rows =
        g.rows * (y / g.rows) + g.rows := by
    ring
  omega

/- A byte belongs to one sample only. -/
theorem offset_injective
    {b b' : Nat}
    (hX : x < width)
    (hX' : x' < width)
    (hB : b < g.sample)
    (hB' : b' < g.sample)
    (hSame :
      g.offset width x y + b = g.offset width x' y' + b') :
    x = x' ∧ y = y' ∧ b = b' := by
  have hInner : g.inner x y + g.sample ≤ g.size := inner_add_le
  have hInner' : g.inner x' y' + g.sample ≤ g.size :=
    inner_add_le
  have hRow := row_add_le (g := g) (x := x)
  have hRow' := row_add_le (g := g) (x := x')
  unfold offset at hSame
  rw [Nat.add_assoc, Nat.add_assoc] at hSame
  rcases digits_eq (by omega) (by omega) hSame with
    ⟨hBlock, hPlace⟩
  rcases digits_eq (div_lt_across hX) (div_lt_across hX')
    hBlock with ⟨hBand, hColumn⟩
  unfold inner at hPlace
  rw [Nat.add_assoc, Nat.add_assoc] at hPlace
  rcases digits_eq (by omega) (by omega) hPlace with
    ⟨hLine, hInLine⟩
  rcases digits_eq hB hB' hInLine with ⟨hSample, hByte⟩
  refine ⟨?_, ?_, hByte⟩
  · rw [← Nat.div_add_mod x g.perRow, hColumn, hSample,
      Nat.div_add_mod]
  · rw [← Nat.div_add_mod y g.rows, hBand, hLine,
      Nat.div_add_mod]

/- Later samples of later rows are not stored earlier. -/
theorem offset_mono
    (hX : x ≤ x')
    (hX' : x' < width)
    (hY : y ≤ y') :
    g.offset width x y ≤ g.offset width x' y' := by
  have hAcross := div_lt_across (g := g) hX'
  have hColumn : x / g.perRow ≤ x' / g.perRow :=
    Nat.div_le_div_right hX
  have hBand : y / g.rows ≤ y' / g.rows :=
    Nat.div_le_div_right hY
  have hInner : g.inner x y + g.sample ≤ g.size := inner_add_le
  have hBlock :
      y / g.rows * g.across width + x / g.perRow ≤
        y' / g.rows * g.across width + x' / g.perRow :=
    Nat.add_le_add (Nat.mul_le_mul_right _ hBand) hColumn
  unfold offset
  rcases Nat.eq_or_lt_of_le hBlock with hSame | hLater
  · -- In one block the rows and samples decide.
    rcases digits_eq (Nat.lt_of_le_of_lt hColumn hAcross)
      hAcross hSame with ⟨hBands, hColumns⟩
    have hLine : y % g.rows ≤ y' % g.rows := by
      have hDiv := Nat.div_add_mod y g.rows
      have hDiv' := Nat.div_add_mod y' g.rows
      rw [hBands] at hDiv
      omega
    have hSample : x % g.perRow ≤ x' % g.perRow := by
      have hDiv := Nat.div_add_mod x g.perRow
      have hDiv' := Nat.div_add_mod x' g.perRow
      rw [hColumns] at hDiv
      omega
    rw [hSame]
    exact Nat.add_le_add_left
      (Nat.add_le_add (Nat.mul_le_mul_right _ hLine)
        (Nat.mul_le_mul_right _ hSample)) _
  · have hNext := Nat.mul_le_mul_right g.size hLater
    rw [Nat.succ_mul] at hNext
    omega

/- No sample is behind the surface. -/
theorem offset_le_surface
    (hX : x < width)
    (hY : y < height) :
    g.offset width x y + g.sample ≤ g.surface width height := by
  have hInner : g.inner x y + g.sample ≤ g.size := inner_add_le
  have hAcross := div_lt_across (g := g) hX
  have hDown := div_lt_down (g := g) hY
  have hBlock :
      y / g.rows * g.across width + x / g.perRow + 1 ≤
        g.across width * g.down height := by
    calc
      y / g.rows * g.across width + x / g.perRow + 1 ≤
          y / g.rows * g.across width + g.across width := by
        omega
      _ = g.across width * (y / g.rows + 1) := by ring
      _ ≤ g.across width * g.down height :=
        Nat.mul_le_mul_left _ hDown
  have hSize := Nat.mul_le_mul_right g.size hBlock
  rw [Nat.add_mul, Nat.one_mul] at hSize
  unfold offset surface
  omega

------
-- Samples Behind A Block
------

variable {width height x y k pitch : Nat}

theorem le_across_mul :
    width ≤ g.across width * g.perRow := by
  have hPos := g.perRow_pos
  have hDiv := Nat.div_add_mod (width + g.perRow - 1) g.perRow
  have hMod :=
    Nat.mod_lt (width + g.perRow - 1) g.perRow_pos
  rw [Nat.mul_comm] at hDiv
  unfold across
  omega

theorem mul_lt_of_lt_across
    (hK : k < g.across width) :
    k * g.perRow < width := by
  have hPos := g.perRow_pos
  have hMul := Nat.mul_le_mul_right g.perRow hK
  have hDiv := Nat.div_mul_le_self
    (width + g.perRow - 1) g.perRow
  have hNext : (k + 1) * g.perRow ≤ width + g.perRow - 1 :=
    le_trans hMul hDiv
  rw [Nat.add_mul, Nat.one_mul] at hNext
  omega

theorem mul_lt_of_lt_down
    (hK : k < g.down height) :
    k * g.rows < height := by
  have hPos := g.rows_pos
  have hMul := Nat.mul_le_mul_right g.rows hK
  have hDiv := Nat.div_mul_le_self
    (height + g.rows - 1) g.rows
  have hNext : (k + 1) * g.rows ≤ height + g.rows - 1 :=
    le_trans hMul hDiv
  rw [Nat.add_mul, Nat.one_mul] at hNext
  omega

theorem le_down_mul :
    height ≤ g.down height * g.rows := by
  have hPos := g.rows_pos
  have hDiv := Nat.div_add_mod (height + g.rows - 1) g.rows
  have hMod := Nat.mod_lt (height + g.rows - 1) g.rows_pos
  rw [Nat.mul_comm] at hDiv
  unfold down
  omega

/-
  Fewer blocks are along a line if they are twice as long,
  but for lines that are no longer than a block.
-/
theorem across_le_iff
    {samples : Nat}
    (hTwice : g.perRow * 2 ≤ samples)
    (hWidth : 0 < width) :
    (width + samples - 1) / samples ≤ g.across width ∧
      (g.across width ≤ (width + samples - 1) / samples ↔
        width ≤ g.perRow) := by
  have hPos := g.perRow_pos
  have hLong : 0 < samples := by omega
  have hSome : 0 < (width + samples - 1) / samples :=
    Nat.div_pos (by omega) hLong
  have hDiv :=
    Nat.div_mul_le_self (width + samples - 1) samples
  have hAcross : 0 < g.across width :=
    Nat.zero_lt_of_lt (div_lt_across hWidth)
  generalize
    (width + samples - 1) / samples = columns
      at hSome hDiv ⊢
  by_cases hNarrow : width ≤ g.perRow
  · have hOne : columns ≤ 1 := by
      by_contra hMore
      have hMul :=
        Nat.mul_le_mul_right samples (Nat.lt_of_not_le hMore)
      omega
    have hSingle : g.across width ≤ 1 := by
      unfold across
      rw [← Nat.lt_succ_iff, Nat.div_lt_iff_lt_mul hPos]
      omega
    exact ⟨by omega, ⟨fun _ => hNarrow, fun _ => by omega⟩⟩
  · have hFewer : columns * g.perRow < width := by
      rcases Nat.exists_eq_add_of_lt hSome with ⟨d, hD⟩
      rw [Nat.zero_add] at hD
      rw [hD, Nat.add_mul, Nat.one_mul] at hDiv ⊢
      have hMul := Nat.mul_le_mul_left d hTwice
      rw [← Nat.mul_assoc] at hMul
      rcases Nat.eq_zero_or_pos d with hZero | hMore
      · rw [hZero, Nat.zero_mul]
        omega
      · have hRow := Nat.le_mul_of_pos_left g.perRow hMore
        omega
    have hLess : columns < g.across width := by
      have hLe : width ≤ g.across width * g.perRow :=
        le_across_mul
      exact Nat.lt_of_mul_lt_mul_right
        (Nat.lt_of_lt_of_le hFewer hLe)
    exact ⟨by omega,
      ⟨fun hLe => by omega, fun hOne => absurd hOne hNarrow⟩⟩

/- A sample that ends behind a block starts behind it. -/
theorem le_offset_of_lt
    (hEnds :
      k * g.size < g.offset width x y + g.sample) :
    k * g.size ≤ g.offset width x y := by
  have hInner : g.inner x y + g.sample ≤ g.size := inner_add_le
  unfold offset at hEnds ⊢
  generalize
    y / g.rows * g.across width + x / g.perRow = block
      at hEnds ⊢
  have hBlock : k ≤ block := by
    by_contra hLater
    have hMul :=
      Nat.mul_le_mul_right g.size (Nat.lt_of_not_le hLater)
    rw [Nat.succ_mul] at hMul
    omega
  exact le_trans (Nat.mul_le_mul_right _ hBlock)
    (Nat.le_add_right _ _)

/-
  The first sample of a block is inside the linear image if
  its place in the blocks is.
-/
theorem exists_at_block
    (hK : k * g.size < g.surface width height)
    (hEnd : k * g.size + g.sample ≤ pitch * height) :
    ∃ x y,
      x < width ∧ y < height ∧
        g.offset width x y = k * g.size ∧
          y * pitch + x * g.sample + g.sample ≤
            pitch * height := by
  have hBlocks : k < g.across width * g.down height := by
    unfold surface at hK
    exact Nat.lt_of_mul_lt_mul_right hK
  have hAcross : 0 < g.across width :=
    Nat.pos_of_mul_pos_right (Nat.zero_lt_of_lt hBlocks)
  have hColumn : k % g.across width < g.across width :=
    Nat.mod_lt k hAcross
  have hBand : k / g.across width < g.down height := by
    rw [Nat.div_lt_iff_lt_mul hAcross, Nat.mul_comm]
    exact hBlocks
  have hDiv := Nat.div_add_mod k (g.across width)
  have hX := mul_lt_of_lt_across hColumn
  have hY := mul_lt_of_lt_down hBand
  refine ⟨k % g.across width * g.perRow,
    k / g.across width * g.rows, hX, hY, ?_, ?_⟩
  · unfold offset inner
    rw [Nat.mul_div_cancel _ g.rows_pos,
      Nat.mul_div_cancel _ g.perRow_pos, Nat.mul_mod_left,
      Nat.mul_mod_left, Nat.mul_comm (k / _), hDiv]
    simp
  · have hFits := g.fits
    rcases Nat.le_total pitch (g.across width * g.rowBytes)
      with hNarrow | hWide
    · -- Lines are no longer than those of the blocks.
      have hLines :
          k / g.across width * g.rows * pitch ≤
            g.across width * (k / g.across width) *
              g.size := by
        calc
          k / g.across width * g.rows * pitch ≤
              k / g.across width * g.rows *
                (g.across width * g.rowBytes) :=
            Nat.mul_le_mul_left _ hNarrow
          _ = g.across width * (k / g.across width) *
              g.size := by
            unfold size
            ring
      have hLine :
          k % g.across width * g.perRow * g.sample ≤
            k % g.across width * g.size := by
        rw [Nat.mul_assoc]
        apply Nat.mul_le_mul_left
        exact le_trans hFits
          (Nat.le_mul_of_pos_left _ g.rows_pos)
      have hSum :
          g.across width * (k / g.across width) * g.size +
              k % g.across width * g.size =
            k * g.size := by
        rw [← Nat.add_mul, hDiv]
      omega
    · -- Lines are as long as those of the image.
      have hLine :
          k % g.across width * g.perRow * g.sample +
              g.sample ≤ pitch := by
        calc
          k % g.across width * g.perRow * g.sample +
              g.sample =
              (k % g.across width * g.perRow + 1) *
                g.sample := by ring
          _ ≤ width * g.sample := Nat.mul_le_mul_right _ hX
          _ ≤ g.across width * g.perRow * g.sample :=
            Nat.mul_le_mul_right _ le_across_mul
          _ = g.across width * (g.perRow * g.sample) :=
            Nat.mul_assoc _ _ _
          _ ≤ g.across width * g.rowBytes :=
            Nat.mul_le_mul_left _ hFits
          _ ≤ pitch := hWide
      have hNext :=
        Nat.mul_le_mul_right pitch (Nat.succ_le_of_lt hY)
      rw [Nat.succ_mul, Nat.mul_comm height] at hNext
      omega

------
-- Samples Behind A Buffer
------

variable {width height pitch limit : Nat}

/- The line in which a buffer ends before its last sample. -/
def endLine (g : Gob) (pitch limit : Nat) : Nat :=
  (limit - g.sample) / pitch

/- The first sample of it that is not inside. -/
def endSample (g : Gob) (pitch limit : Nat) : Nat :=
  (limit - g.sample) % pitch / g.sample + 1

/-
  A sample that ends behind the buffer is stored no earlier
  than the first one that does, in the line where the buffer
  ends or in the next.
-/
theorem exists_behind_iff
    (total : Nat)
    (hWidth : 0 < width)
    (hLine : width * g.sample ≤ pitch)
    (hSample : g.sample ≤ limit)
    (hLimit : limit ≤ pitch * height) :
    (∃ x y,
      x < width ∧ y < height ∧
        g.offset width x y + g.sample ≤ total ∧
          limit < y * pitch + x * g.sample + g.sample) ↔
      (g.endLine pitch limit + 1 < height ∧
          g.offset width 0 (g.endLine pitch limit + 1) +
            g.sample ≤ total) ∨
        (g.endSample pitch limit < width ∧
          g.offset width (g.endSample pitch limit)
              (g.endLine pitch limit) +
            g.sample ≤ total) := by
  have hS := g.sample_pos
  have hPitch : 0 < pitch := by
    have hMul := Nat.mul_pos hWidth hS
    omega
  have hDiv := Nat.div_add_mod (limit - g.sample) pitch
  have hMod := Nat.mod_lt (limit - g.sample) hPitch
  have hDivS :=
    Nat.div_add_mod ((limit - g.sample) % pitch) g.sample
  have hModS :=
    Nat.mod_lt ((limit - g.sample) % pitch) hS
  have hEnd : g.endLine pitch limit < height := by
    unfold endLine
    rw [Nat.div_lt_iff_lt_mul hPitch, Nat.mul_comm]
    omega
  have hLast :
      pitch * g.endLine pitch limit +
          (limit - g.sample) % pitch =
        limit - g.sample :=
    hDiv
  have hNext :
      (limit - g.sample) % pitch <
          g.endSample pitch limit * g.sample ∧
        ∀ x,
          (limit - g.sample) % pitch < x * g.sample →
            g.endSample pitch limit ≤ x := by
    unfold endSample
    generalize (limit - g.sample) % pitch = rest at *
    constructor
    · rw [Nat.add_mul, Nat.one_mul, Nat.mul_comm]
      omega
    · intro x hX
      exact (Nat.div_lt_iff_lt_mul hS).mpr hX
  generalize g.endLine pitch limit = line at *
  generalize g.endSample pitch limit = sample at *
  constructor
  · rintro ⟨x, y, hX, hY, hTotal, hBehind⟩
    rcases Nat.lt_trichotomy y line with
      hBefore | hHere | hAfter
    · -- Earlier lines end inside.
      have hRow := Nat.mul_le_mul_right g.sample hX
      have hLines := Nat.mul_le_mul_right pitch hBefore
      rw [Nat.succ_mul] at hRow hLines
      rw [Nat.mul_comm pitch] at hLast
      omega
    · right
      rw [hHere, Nat.mul_comm line] at hBehind
      have hLe : sample ≤ x := hNext.2 x (by omega)
      have hMono :
          g.offset width sample line ≤ g.offset width x y :=
        offset_mono hLe hX (Nat.le_of_eq hHere.symm)
      exact ⟨by omega, by omega⟩
    · left
      have hMono :
          g.offset width 0 (line + 1) ≤ g.offset width x y :=
        offset_mono (Nat.zero_le x) hX hAfter
      exact ⟨by omega, by omega⟩
  · rintro (⟨hHeight, hTotal⟩ | ⟨hColumn, hTotal⟩)
    · refine ⟨0, line + 1, hWidth, hHeight, hTotal, ?_⟩
      rw [Nat.succ_mul, Nat.mul_comm line]
      omega
    · refine ⟨sample, line, hColumn, hEnd, hTotal, ?_⟩
      rw [Nat.mul_comm line]
      omega

------
-- Images Without Padding
------

variable (g : Gob)

/-
  The blocks hold no more than the image: they are full, or
  there is a single line in a single block.
-/
def Unpadded (width height : Nat) : Prop :=
  (g.perRow * g.sample = g.rowBytes ∧ g.perRow ∣ width ∧
      (width ≤ g.perRow ∨ g.rows ∣ height)) ∨
    (height = 1 ∧ width ≤ g.perRow)

variable {g}

/-
  What the last sample is behind the end of a linear image, if
  `a` blocks and `c` samples are in a row, `b` blocks and
  `r + 1` lines in a column, `k` samples, `e` bytes and `t`
  lines are missing in the last block, and a sample has `s`
  bytes.
-/
theorem excess_eq (a b c r k e t s : Nat) :
    (b * (a + 1) + a) *
          ((r + 1 + t) * ((c + k) * s + e)) +
        r * ((c + k) * s + e) + c * s =
      (a * (c + k) + c) * (b * (r + 1 + t) + (r + 1)) * s +
        (a * b * (e * (r + 1 + t)) +
          a * (((c + k) * s + e) * t + e * (r + 1)) +
          b * ((r + 1 + t) * (k * s + e)) +
          r * (k * s + e)) := by
  ring

/- A side, counted in blocks and what is in the last one. -/
theorem exists_blocks
    {n side : Nat}
    (hN : 0 < n)
    (hSide : 0 < side) :
    ∃ a c k,
      side = a * n + (c + 1) ∧ n = c + 1 + k ∧
        (side - 1) / n = a ∧ (side - 1) % n = c := by
  have hMod := Nat.mod_lt (side - 1) hN
  have hDiv := Nat.div_add_mod (side - 1) n
  refine ⟨(side - 1) / n, (side - 1) % n,
    n - ((side - 1) % n + 1), ?_, by omega, rfl, rfl⟩
  rw [Nat.mul_comm]
  omega

/- A multiple of the block ends with a full one. -/
theorem missing_eq_zero
    {n a c k : Nat}
    (hN : n = c + 1 + k)
    (hDvd : n ∣ a * n + (c + 1)) :
    k = 0 := by
  have hRest : n ∣ c + 1 :=
    (Nat.dvd_add_right (Nat.dvd_mul_left n a)).mp hDvd
  have hLe := Nat.le_of_dvd (Nat.succ_pos c) hRest
  omega

section

variable {width height a b c k r t e : Nat}

/- Where the last sample ends, behind the linear image. -/
theorem offset_last
    (hW : width = a * g.perRow + (c + 1))
    (hPerRow : g.perRow = c + 1 + k)
    (hColumn : (width - 1) / g.perRow = a)
    (hSample : (width - 1) % g.perRow = c)
    (hH : height = b * g.rows + (r + 1))
    (hLines : g.rows = r + 1 + t)
    (hBand : (height - 1) / g.rows = b)
    (hLine : (height - 1) % g.rows = r)
    (hBytes : g.rowBytes = g.perRow * g.sample + e) :
    g.offset width (width - 1) (height - 1) + g.sample =
      width * height * g.sample +
        (a * b * (e * g.rows) +
          a * (g.rowBytes * t + e * (r + 1)) +
          b * (g.rows * (k * g.sample + e)) +
          r * (k * g.sample + e)) := by
  have hAcross : g.across width = a + 1 := by
    unfold across
    rw [← hColumn, ← Nat.add_div_right _ g.perRow_pos]
    congr 1
    omega
  have hExcess :=
    excess_eq a b (c + 1) r k e t g.sample
  rw [← hPerRow, ← hLines, ← hW, ← hH, ← hBytes] at hExcess
  rw [← hExcess]
  unfold offset inner size
  rw [hBand, hColumn, hLine, hSample, hAcross]
  ring

/- Nothing is padded if the last sample ends with the image. -/
theorem unpadded_of_excess
    (hRows : 2 ≤ g.rows)
    (hW : width = a * g.perRow + (c + 1))
    (hPerRow : g.perRow = c + 1 + k)
    (hH : height = b * g.rows + (r + 1))
    (hLines : g.rows = r + 1 + t)
    (hBytes : g.rowBytes = g.perRow * g.sample + e)
    (hAcrossZero : a * (g.rowBytes * t + e * (r + 1)) = 0)
    (hDownZero : b * (g.rows * (k * g.sample + e)) = 0)
    (hLineZero : r * (k * g.sample + e) = 0) :
    g.Unpadded width height := by
  have hS := g.sample_pos
  have hRow := Nat.mul_pos g.perRow_pos hS
  by_cases hMissing : k * g.sample + e = 0
  · -- The last block of a row is full.
    left
    have hK : k = 0 := by
      rcases Nat.mul_eq_zero.mp
        (Nat.eq_zero_of_add_eq_zero hMissing).1 with
        hK | hNone
      · exact hK
      · omega
    have hE : e = 0 :=
      (Nat.eq_zero_of_add_eq_zero hMissing).2
    refine ⟨by omega, ?_, ?_⟩
    · refine ⟨a + 1, ?_⟩
      rw [hW, hPerRow, hK]
      ring
    · rcases Nat.mul_eq_zero.mp hAcrossZero with hA | hRest
      · left
        rw [hW, hA]
        omega
      · right
        have hT : t = 0 := by
          rcases Nat.mul_eq_zero.mp
            (Nat.eq_zero_of_add_eq_zero hRest).1 with
            hNone | hT
          · omega
          · exact hT
        refine ⟨b + 1, ?_⟩
        rw [hH, hLines, hT]
        ring
  · right
    have hB : b = 0 := by
      rcases Nat.mul_eq_zero.mp hDownZero with hB | hNone
      · exact hB
      · rcases Nat.mul_eq_zero.mp hNone with hNone | hNone
        · omega
        · exact absurd hNone hMissing
    have hR : r = 0 := by
      rcases Nat.mul_eq_zero.mp hLineZero with hR | hNone
      · exact hR
      · exact absurd hNone hMissing
    have hA : a = 0 := by
      rcases Nat.mul_eq_zero.mp hAcrossZero with hA | hNone
      · exact hA
      · rcases Nat.mul_eq_zero.mp
          (Nat.eq_zero_of_add_eq_zero hNone).1 with
          hNone | hNone
        · omega
        · omega
    refine ⟨?_, ?_⟩
    · rw [hH, hB, hR]
      omega
    · rw [hW, hA]
      omega

/- An image in its first block has no block in front. -/
theorem blocks_eq_zero
    {n : Nat}
    (hW : width = a * n + (c + 1))
    (hNarrow : width ≤ n) :
    a = 0 := by
  by_contra hSome
  have hMul :=
    Nat.le_mul_of_pos_left n (Nat.pos_of_ne_zero hSome)
  omega

/- The last sample ends with the image if nothing is padded. -/
theorem excess_of_unpadded
    (hW : width = a * g.perRow + (c + 1))
    (hPerRow : g.perRow = c + 1 + k)
    (hH : height = b * g.rows + (r + 1))
    (hLines : g.rows = r + 1 + t)
    (hBytes : g.rowBytes = g.perRow * g.sample + e)
    (hUnpadded : g.Unpadded width height) :
    a * b * (e * g.rows) +
          a * (g.rowBytes * t + e * (r + 1)) +
          b * (g.rows * (k * g.sample + e)) +
          r * (k * g.sample + e) =
      0 := by
  rcases hUnpadded with
    ⟨hExact, hAligned, hOne⟩ | ⟨hSingle, hOne⟩
  · have hE : e = 0 := by omega
    have hK : k = 0 :=
      missing_eq_zero hPerRow (by rw [← hW]; exact hAligned)
    have hRest : a * (g.rowBytes * t) = 0 := by
      rcases hOne with hNarrow | hWhole
      · rw [blocks_eq_zero hW hNarrow, Nat.zero_mul]
      · have hT : t = 0 :=
          missing_eq_zero hLines (by rw [← hH]; exact hWhole)
        rw [hT, Nat.mul_zero, Nat.mul_zero]
    rw [hE, hK]
    simp only [Nat.zero_mul, Nat.mul_zero, Nat.add_zero, hRest]
  · have hA : a = 0 := blocks_eq_zero hW hOne
    have hB : b = 0 := blocks_eq_zero hH (by omega)
    have hR : r = 0 := by
      rw [hB] at hH
      omega
    rw [hA, hB, hR]
    simp only [Nat.zero_mul, Nat.add_zero]

/- The last sample is inside exactly if nothing is padded. -/
theorem last_le_iff
    (hRows : 2 ≤ g.rows)
    (hWidth : 0 < width)
    (hHeight : 0 < height) :
    g.offset width (width - 1) (height - 1) + g.sample ≤
        width * height * g.sample ↔
      g.Unpadded width height := by
  rcases exists_blocks g.perRow_pos hWidth with
    ⟨a, c, k, hW, hPerRow, hColumn, hSample⟩
  rcases exists_blocks g.rows_pos hHeight with
    ⟨b, r, t, hH, hLines, hBand, hLine⟩
  rcases Nat.exists_eq_add_of_le g.fits with ⟨e, hBytes⟩
  rw [offset_last hW hPerRow hColumn hSample hH hLines hBand
    hLine hBytes]
  constructor
  · intro hLe
    apply unpadded_of_excess hRows hW hPerRow hH hLines hBytes
    all_goals omega
  · intro hUnpadded
    rw [excess_of_unpadded hW hPerRow hH hLines hBytes
      hUnpadded]
    exact Nat.le_refl _

end

/- An image that ends with its last block is not padded. -/
theorem unpadded_of_full
    (hWidth : 0 < width)
    (hHeight : 0 < height)
    (hFull :
      g.inner (width - 1) (height - 1) + g.sample = g.size) :
    g.Unpadded width height := by
  rcases exists_blocks g.perRow_pos hWidth with
    ⟨a, c, k, hW, hPerRow, _, hSample⟩
  rcases exists_blocks g.rows_pos hHeight with
    ⟨b, r, t, hH, hLines, _, hLine⟩
  have hRow : c * g.sample + g.sample ≤ g.rowBytes := by
    have hLe := row_add_le (g := g) (x := width - 1)
    rw [hSample] at hLe
    exact hLe
  have hBlock : (r + 1) * g.rowBytes + t * g.rowBytes =
      g.size := by
    rw [← Nat.add_mul, ← hLines]
    rfl
  unfold inner at hFull
  rw [hLine, hSample] at hFull
  rw [Nat.add_mul, Nat.one_mul] at hBlock
  have hPos : 0 < g.rowBytes := by
    have hS := g.sample_pos
    omega
  have hT : t = 0 := by
    by_contra hSome
    have hMul :=
      Nat.le_mul_of_pos_left g.rowBytes
        (Nat.pos_of_ne_zero hSome)
    omega
  rw [hT, Nat.zero_mul] at hBlock
  have hExact : (c + 1) * g.sample = g.rowBytes := by
    rw [Nat.add_mul, Nat.one_mul]
    omega
  have hK : k = 0 := by
    have hFits := g.fits
    rw [hPerRow, Nat.add_mul] at hFits
    by_contra hSome
    have hMul := Nat.mul_pos (Nat.pos_of_ne_zero hSome)
      g.sample_pos
    omega
  have hC : c + 1 = g.perRow := by omega
  refine Or.inl ⟨?_, ⟨a + 1, ?_⟩, Or.inr ⟨b + 1, ?_⟩⟩
  · rw [← hC]
    exact hExact
  · rw [hW, hC]
    ring
  · rw [hH, hLines, hT]
    ring

end Gob

------
-- The Bytes Of An Image
------

/- Rows of numbers, one after the other. -/
theorem range_mul (count length : Nat) :
    (List.range count).flatMap
        (fun i => (List.range length).map (i * length + ·)) =
      List.range (count * length) := by
  induction count with
  | zero => simp
  | succ count ih =>
      rw [List.range_succ, List.flatMap_append, ih,
        Nat.succ_mul, List.range_add]
      simp

/- The bytes of the samples: column, line and byte. -/
def bytes
    (width height sample : Nat) : List (Nat × Nat × Nat) :=
  (List.range height).flatMap fun y =>
    (List.range width).flatMap fun x =>
      (List.range sample).map fun b => (x, y, b)

/- Where a byte is in a linear image. -/
def linear
    (width sample : Nat)
    (byte : Nat × Nat × Nat) : Nat :=
  (byte.2.1 * width + byte.1) * sample + byte.2.2

variable {width height sample : Nat}

theorem mem_bytes_iff
    {x y b : Nat} :
    (x, y, b) ∈ bytes width height sample ↔
      x < width ∧ y < height ∧ b < sample := by
  unfold bytes
  simp only [List.mem_flatMap, List.mem_map, List.mem_range,
    Prod.mk.injEq]
  constructor
  · rintro ⟨y', hY, x', hX, b', hB, rfl, rfl, rfl⟩
    exact ⟨hX, hY, hB⟩
  · rintro ⟨hX, hY, hB⟩
    exact ⟨y, hY, x, hX, b, hB, rfl, rfl, rfl⟩

/- A linear image has its bytes in order. -/
theorem map_linear :
    (bytes width height sample).map (linear width sample) =
      List.range (height * width * sample) := by
  rw [← range_mul (height * width) sample,
    ← range_mul height width]
  unfold bytes linear
  simp only [List.map_flatMap, List.flatMap_assoc,
    List.flatMap_map, List.map_map]
  rfl

theorem nodup_bytes : (bytes width height sample).Nodup := by
  apply List.Nodup.of_map (linear width sample)
  rw [map_linear]
  exact List.nodup_range

/- As many places as bytes, all different, are all of them. -/
theorem perm_range_of_injOn
    {place : Nat × Nat × Nat → Nat}
    (hBelow :
      ∀ byte ∈ bytes width height sample,
        place byte < height * width * sample)
    (hInj :
      ∀ byte ∈ bytes width height sample,
        ∀ byte' ∈ bytes width height sample,
          place byte = place byte' → byte = byte') :
    ((bytes width height sample).map place).Perm
      (List.range (height * width * sample)) := by
  have hNodup :
      ((bytes width height sample).map place).Nodup :=
    List.Nodup.map_on hInj nodup_bytes
  have hSubset :
      (bytes width height sample).map place ⊆
        List.range (height * width * sample) := by
    intro n hN
    rcases List.mem_map.mp hN with ⟨byte, hByte, rfl⟩
    exact List.mem_range.mpr (hBelow byte hByte)
  have hSubperm := List.subperm_of_subset hNodup hSubset
  apply hSubperm.perm_of_length_le
  rw [← map_linear, List.length_map, List.length_map]

/- Without padding, blocks are another order of the bytes. -/
theorem Gob.perm_range
    {g : Gob}
    (hRows : 2 ≤ g.rows)
    (hUnpadded : g.Unpadded width height) :
    ((bytes width height g.sample).map fun byte =>
        g.offset width byte.1 byte.2.1 + byte.2.2).Perm
      (List.range (height * width * g.sample)) := by
  apply perm_range_of_injOn
  · rintro ⟨x, y, b⟩ hByte
    rcases mem_bytes_iff.mp hByte with ⟨hX, hY, hB⟩
    have hLast :=
      (last_le_iff hRows (Nat.zero_lt_of_lt hX)
        (Nat.zero_lt_of_lt hY)).mpr hUnpadded
    have hMono :
        g.offset width x y ≤
          g.offset width (width - 1) (height - 1) :=
      offset_mono (by omega) (by omega) (by omega)
    rw [Nat.mul_comm width height] at hLast
    dsimp only
    omega
  · rintro ⟨x, y, b⟩ hByte ⟨x', y', b'⟩ hByte' hSame
    rcases mem_bytes_iff.mp hByte with ⟨hX, _, hB⟩
    rcases mem_bytes_iff.mp hByte' with ⟨hX', _, hB'⟩
    rcases offset_injective hX hX' hB hB' hSame with
      ⟨rfl, rfl, rfl⟩
    rfl

end BlockLinear
