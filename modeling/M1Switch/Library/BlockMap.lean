import Mathlib.Data.BitVec
import Mathlib.Data.List.GetD
import Mathlib.Logic.Function.Iterate

/-
  Data that is changed block by block.

  What a block gets depends on its number.  Data in whole
  blocks gives as many bytes as there were, and its blocks are
  the changed ones.

  Key definitions include:
    * `blockAt`
    * `mapBlocks`

  Main results:
    * `blockAt_mapBlocks`
    * `mapBlocks_append`
    * `mapBlocks_mapBlocks`
-/

------
-- Blocks
------

namespace BlockMap

variable {n : Nat} [NeZero n]

/- The bytes of the block with number `i`. -/
def blockAt
    (n : Nat)
    (data : List (BitVec 8))
    (i : Nat) : Fin n → BitVec 8 :=
  fun j => data.getD (n * i + j) 0

/- Change every block, by its number. -/
def mapBlocks
    (f : Nat → (Fin n → BitVec 8) → Fin n → BitVec 8)
    (data : List (BitVec 8)) : List (BitVec 8) :=
  (List.range data.length).map fun j =>
    f (j / n) (blockAt n data (j / n)) (Fin.ofNat n j)

variable {f g : Nat → (Fin n → BitVec 8) → Fin n → BitVec 8}
variable {data data' : List (BitVec 8)}

@[simp] theorem length_mapBlocks :
    (mapBlocks f data).length = data.length := by
  unfold mapBlocks
  rw [List.length_map, List.length_range]

theorem getElem_mapBlocks
    {j : Nat}
    (hJ : j < (mapBlocks f data).length) :
    (mapBlocks f data)[j] =
      f (j / n) (blockAt n data (j / n)) (Fin.ofNat n j) := by
  simp only [mapBlocks, List.getElem_map, List.getElem_range]

theorem mapBlocks_single
    (hLength : data.length = n) :
    mapBlocks f data = List.ofFn (f 0 (blockAt n data 0)) := by
  apply List.ext_getElem
  · rw [length_mapBlocks, List.length_ofFn, hLength]
  · intro j hJ hJ'
    rw [List.length_ofFn] at hJ'
    have hPlace : Fin.ofNat n j = ⟨j, hJ'⟩ :=
      Fin.ext (Nat.mod_eq_of_lt hJ')
    rw [getElem_mapBlocks, List.getElem_ofFn,
      Nat.div_eq_of_lt hJ', hPlace]

/- A whole block of the result is a changed block. -/
theorem blockAt_mapBlocks
    {i : Nat}
    (hWhole : n * (i + 1) ≤ data.length) :
    blockAt n (mapBlocks f data) i = f i (blockAt n data i) := by
  funext j
  have hJ := j.isLt
  have hIn : n * i + j < (mapBlocks f data).length := by
    rw [length_mapBlocks]
    rw [Nat.mul_succ] at hWhole
    omega
  have hBlock : (n * i + j) / n = i := by
    rw [Nat.mul_add_div (Nat.pos_of_neZero n),
      Nat.div_eq_of_lt hJ, Nat.add_zero]
  have hPlace : Fin.ofNat n (n * i + j) = j := by
    apply Fin.ext
    rw [Fin.val_ofNat, Nat.mul_add_mod_self_left,
      Nat.mod_eq_of_lt hJ]
  unfold blockAt
  rw [List.getD_eq_getElem _ _ hIn, getElem_mapBlocks, hBlock,
    hPlace]
  rfl

/- Behind `m` blocks, the numbers go on from there. -/
theorem mapBlocks_append
    {m : Nat}
    (f : Nat → (Fin n → BitVec 8) → Fin n → BitVec 8)
    (hLength : data.length = n * m)
    (data' : List (BitVec 8)) :
    mapBlocks f (data ++ data') =
      mapBlocks f data ++ mapBlocks (fun i => f (m + i)) data' := by
  have hN := Nat.pos_of_neZero n
  apply List.ext_getElem
  · simp only [length_mapBlocks, List.length_append]
  · intro j hJ _
    rw [getElem_mapBlocks]
    by_cases hFirst : j < data.length
    · rw [List.getElem_append_left
        (by rw [length_mapBlocks]; exact hFirst),
        getElem_mapBlocks]
      have hBytes :
          blockAt n (data ++ data') (j / n) =
            blockAt n data (j / n) := by
        funext k
        have hK := k.isLt
        have hLess : j / n < m :=
          Nat.div_lt_of_lt_mul (by rw [← hLength]; exact hFirst)
        have hMul : n * (j / n + 1) ≤ n * m :=
          Nat.mul_le_mul_left n hLess
        rw [Nat.mul_succ] at hMul
        unfold blockAt
        rw [List.getD_append _ _ _ _ (by omega)]
      rw [hBytes]
    · rw [List.getElem_append_right
        (by rw [length_mapBlocks]; omega), getElem_mapBlocks]
      have hSplit : j = n * m + (j - n * m) := by omega
      have hBlock : j / n = m + (j - n * m) / n := by
        conv => lhs; rw [hSplit]
        exact Nat.mul_add_div hN m _
      have hPlace : Fin.ofNat n j = Fin.ofNat n (j - n * m) := by
        apply Fin.ext
        rw [Fin.val_ofNat, Fin.val_ofNat]
        conv => lhs; rw [hSplit]
        exact Nat.mul_add_mod_self_left n m _
      have hBytes :
          blockAt n (data ++ data') (m + (j - n * m) / n) =
            blockAt n data' ((j - n * m) / n) := by
        funext k
        unfold blockAt
        rw [List.getD_append_right _ _ _ _
          (by rw [hLength, Nat.mul_add]; omega), hLength,
          Nat.mul_add]
        congr 1
        omega
      simp only [length_mapBlocks, hLength]
      rw [hBlock, hPlace, hBytes]

theorem mapBlocks_congr
    (hSame : ∀ i, n * (i + 1) ≤ data.length → f i = g i)
    (hWhole : data.length % n = 0) :
    mapBlocks f data = mapBlocks g data := by
  apply List.ext_getElem
  · simp only [length_mapBlocks]
  · intro j hJ _
    rw [length_mapBlocks] at hJ
    have hBlock : n * (j / n + 1) ≤ data.length := by
      rcases Nat.dvd_of_mod_eq_zero hWhole with ⟨m, hM⟩
      rw [hM] at hJ ⊢
      exact Nat.mul_le_mul_left n (Nat.div_lt_of_lt_mul hJ)
    rw [getElem_mapBlocks, getElem_mapBlocks, hSame _ hBlock]

/- What is undone block by block is undone. -/
theorem mapBlocks_mapBlocks
    (hInverse : ∀ i b, g i (f i b) = b)
    (hWhole : data.length % n = 0) :
    mapBlocks g (mapBlocks f data) = data := by
  apply List.ext_getElem
  · simp only [length_mapBlocks]
  · intro j hJ hJ'
    have hBlock : n * (j / n + 1) ≤ data.length := by
      rcases Nat.dvd_of_mod_eq_zero hWhole with ⟨m, hM⟩
      rw [hM] at hJ' ⊢
      exact Nat.mul_le_mul_left n (Nat.div_lt_of_lt_mul hJ')
    rw [getElem_mapBlocks, blockAt_mapBlocks hBlock, hInverse]
    unfold blockAt
    rw [Fin.val_ofNat, Nat.div_add_mod,
      List.getD_eq_getElem _ _ hJ']

end BlockMap
