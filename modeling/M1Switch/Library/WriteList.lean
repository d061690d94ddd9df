import Mathlib.Algebra.Order.Ring.Nat
import Mathlib.Logic.Function.Basic

/-
  Lists of writes, and images that are drawn by them.

  Writes are made in order, so a later one hides an earlier
  one at its place.  Where all writes to a place agree, their
  order does not matter.  An image is drawn if every channel
  of every pixel is written, and nothing else.

  Key definitions include:
    * `apply`
    * `WriteList.Draws`

  Main results:
    * `apply_of_agree`
    * `apply_eq`
    * `exists_write_iff`
-/

------
-- Writes
------

namespace WriteList

variable {α β : Type}
variable [DecidableEq α]
variable {writes : List (α × β)}
variable {memory : α → β}
variable {a : α}
variable {v : β}

/- What is in memory when all writes are made. -/
def apply
    (writes : List (α × β))
    (memory : α → β) : α → β :=
  writes.foldl (fun m w => Function.update m w.1 w.2) memory

theorem apply_cons
    (w : α × β)
    (memory : α → β) :
    apply (w :: writes) memory =
      apply writes (Function.update memory w.1 w.2) :=
  rfl

/- Elsewhere, memory stays as it is. -/
theorem apply_of_notMem
    (hOther : ∀ w ∈ writes, w.1 ≠ a) :
    apply writes memory a = memory a := by
  induction writes generalizing memory with
  | nil => rfl
  | cons w writes ih =>
      have hHead := hOther w List.mem_cons_self
      rw [apply_cons, ih, Function.update_of_ne hHead.symm]
      intro w' hW'
      exact hOther w' (List.mem_cons_of_mem w hW')

/- Where all writes agree, one of them is enough. -/
theorem apply_of_agree
    (hMem : (a, v) ∈ writes)
    (hAgree : ∀ w ∈ writes, w.1 = a → w.2 = v) :
    apply writes memory a = v := by
  induction writes generalizing memory with
  | nil => cases hMem
  | cons w writes ih =>
      rw [apply_cons]
      by_cases hLater : ∃ w' ∈ writes, w'.1 = a
      · rcases hLater with ⟨w', hW', hPlace⟩
        have hValue :=
          hAgree w' (List.mem_cons_of_mem w hW') hPlace
        apply ih
        · rw [← hPlace, ← hValue]
          exact hW'
        · intro w'' hW''
          exact hAgree w'' (List.mem_cons_of_mem w hW'')
      · have hNone : ∀ w' ∈ writes, w'.1 ≠ a := by
          intro w' hW' hPlace
          exact hLater ⟨w', hW', hPlace⟩
        rcases List.mem_cons.mp hMem with hFirst | hRest
        · rw [apply_of_notMem hNone, ← hFirst,
            Function.update_self]
        · exact absurd rfl (hNone _ hRest)

end WriteList

------
-- Images
------

namespace WriteList

variable {β : Type}
variable {writes : List (Nat × β)}
variable {memory : Nat → β}
variable {channels width height x y c : Nat}
variable {pixel : Nat → Nat → Nat → β}

/- Where a channel of a pixel is stored. -/
def place (channels width x y c : Nat) : Nat :=
  (y * width + x) * channels + c

/- Every channel of every pixel is written, nothing else. -/
def Draws
    (writes : List (Nat × β))
    (channels width height : Nat)
    (pixel : Nat → Nat → Nat → β) : Prop :=
  ∀ w,
    w ∈ writes ↔
      ∃ x y c,
        x < width ∧ y < height ∧ c < channels ∧
          w = (place channels width x y c, pixel x y c)

/- A sum has its quotient and its remainder. -/
theorem mul_add_inj
    {n q q' r r' : Nat}
    (hR : r < n)
    (hR' : r' < n)
    (hSum : q * n + r = q' * n + r') :
    q = q' ∧ r = r' := by
  have hPos : 0 < n := Nat.zero_lt_of_lt hR
  have hQuotient := congrArg (· / n) hSum
  simp only [Nat.add_comm _ r, Nat.add_comm _ r',
    Nat.add_mul_div_right _ _ hPos, Nat.div_eq_of_lt hR,
    Nat.div_eq_of_lt hR', Nat.zero_add] at hQuotient
  subst hQuotient
  exact ⟨rfl, Nat.add_left_cancel hSum⟩

/- The place of a channel has its pixel and its number. -/
theorem place_inj
    {x' y' c' : Nat}
    (hX : x < width)
    (hX' : x' < width)
    (hC : c < channels)
    (hC' : c' < channels)
    (hPlace :
      place channels width x y c =
        place channels width x' y' c') :
    x = x' ∧ y = y' ∧ c = c' := by
  rcases mul_add_inj hC hC' hPlace with ⟨hPixel, hChannel⟩
  rcases mul_add_inj hX hX' hPixel with ⟨hRow, hColumn⟩
  exact ⟨hColumn, hRow, hChannel⟩

theorem place_lt
    (hX : x < width)
    (hY : y < height)
    (hC : c < channels) :
    place channels width x y c < width * height * channels := by
  have hRow : (y + 1) * width ≤ height * width :=
    Nat.mul_le_mul_right width hY
  have hPixel :
      (y * width + x + 1) * channels ≤
        width * height * channels := by
    apply Nat.mul_le_mul_right
    rw [Nat.mul_comm width, Nat.add_one_mul] at *
    omega
  rw [Nat.add_one_mul] at hPixel
  unfold place
  omega

/- Each place below the size belongs to a channel. -/
theorem exists_place
    {o : Nat}
    (hO : o < width * height * channels) :
    ∃ x y c,
      x < width ∧ y < height ∧ c < channels ∧
        o = place channels width x y c := by
  have hPos : 0 < channels := by
    apply Nat.pos_of_ne_zero
    intro hZero
    rw [hZero] at hO
    exact absurd hO (Nat.not_lt_zero o)
  have hPixel : o / channels < width * height :=
    (Nat.div_lt_iff_lt_mul hPos).mpr hO
  have hWide : 0 < width := by
    apply Nat.pos_of_ne_zero
    intro hZero
    rw [hZero, Nat.zero_mul] at hPixel
    exact absurd hPixel (Nat.not_lt_zero _)
  refine ⟨o / channels % width, o / channels / width,
    o % channels, Nat.mod_lt _ hWide, ?_, Nat.mod_lt _ hPos, ?_⟩
  · rw [Nat.div_lt_iff_lt_mul hWide, Nat.mul_comm]
    exact hPixel
  · unfold place
    rw [Nat.div_add_mod', Nat.div_add_mod']

/- A channel that is drawn has its value. -/
theorem Draws.apply_eq
    (hDraws : Draws writes channels width height pixel)
    (hX : x < width)
    (hY : y < height)
    (hC : c < channels) :
    apply writes memory (place channels width x y c) =
      pixel x y c := by
  apply apply_of_agree
  · exact (hDraws _).mpr ⟨x, y, c, hX, hY, hC, rfl⟩
  · intro w hW hPlace
    rcases (hDraws w).mp hW with
      ⟨x', y', c', hX', hY', hC', rfl⟩
    rcases place_inj hX' hX hC' hC hPlace with
      ⟨rfl, rfl, rfl⟩
    rfl

/- The places that are written are those of the image. -/
theorem Draws.exists_write_iff
    (hDraws : Draws writes channels width height pixel)
    (o : Nat) :
    (∃ w ∈ writes, w.1 = o) ↔
      o < width * height * channels := by
  constructor
  · rintro ⟨w, hW, rfl⟩
    rcases (hDraws w).mp hW with
      ⟨x, y, c, hX, hY, hC, rfl⟩
    exact place_lt hX hY hC
  · intro hO
    rcases exists_place hO with ⟨x, y, c, hX, hY, hC, rfl⟩
    exact ⟨_, (hDraws _).mpr ⟨x, y, c, hX, hY, hC, rfl⟩, rfl⟩

end WriteList
