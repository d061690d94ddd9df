import Mathlib.Algebra.BigOperators.Group.Finset.Piecewise
import Mathlib.Algebra.GroupWithZero.Nat
import Mathlib.Algebra.Order.BigOperators.Group.Finset
import Mathlib.Data.List.Sort
import Mathlib.Data.Multiset.Sort
import Mathlib.Data.Prod.Lex
import M1Switch.Library.MapTotals

/-
  Eviction of the entries that were used least recently.

  The rows of a map are sorted by age with an order that may
  leave equal ages in any order, and the keys of the first few
  rows are erased.  An entry is sure to stay exactly if enough
  entries are strictly older.  The least that any order frees
  is found by sorting entries of one age by their weight.

  Key definitions include:
    * `LruEviction.OldestFirst`
    * `evict`

  Main results:
    * `survives_iff`
    * `total_evict`
    * `total_evict_le_iff`
-/

------
-- Rows
------

namespace LruEviction

open MapTotals

variable {K V T : Type}
variable {age : V → T}
variable {s : Finmap fun _ : K => V}
variable {rows : List (K × T)}
variable {k k' : K}
variable {v v' : V}

/- The keys of a map with the ages of their entries. -/
def ages
    (age : V → T)
    (s : Finmap fun _ : K => V) : Multiset (K × T) :=
  s.entries.map fun row => (row.1, age row.2)

theorem mem_ages_iff
    [DecidableEq K]
    {t : T} :
    (k, t) ∈ ages age s ↔
      ∃ v, s.lookup k = some v ∧ age v = t := by
  unfold ages
  rw [Multiset.mem_map]
  constructor
  · rintro ⟨⟨x, v⟩, hRow, hPair⟩
    cases hPair
    exact ⟨v, mem_entries_iff.mp hRow, rfl⟩
  · rintro ⟨v, hSome, hAge⟩
    refine ⟨⟨k, v⟩, mem_entries_iff.mpr hSome, ?_⟩
    rw [← hAge]

variable [LinearOrder T]

/- The rows of a map, the oldest first. -/
structure OldestFirst
    (age : V → T)
    (s : Finmap fun _ : K => V)
    (rows : List (K × T)) : Prop where
  perm : (rows : Multiset (K × T)) = ages age s
  sorted : rows.Pairwise fun a b => a.2 ≤ b.2

/- How many entries are older than `t`. -/
def older
    (age : V → T)
    (s : Finmap fun _ : K => V)
    (t : T) : Nat :=
  ((ages age s).filter (·.2 < t)).card

/- Any rows can be sorted by age. -/
theorem exists_sorted (pairs : Multiset (K × T)) :
    ∃ rows : List (K × T),
      (rows : Multiset (K × T)) = pairs ∧
        rows.Pairwise fun a b => a.2 ≤ b.2 := by
  let r : K × T → K × T → Prop := fun a b => a.2 ≤ b.2
  have hTotal : Std.Total r := ⟨fun a b => le_total a.2 b.2⟩
  have hTrans : IsTrans (K × T) r :=
    ⟨fun a b c hAb hBc => le_trans hAb hBc⟩
  refine ⟨pairs.toList.insertionSort r, ?_, ?_⟩
  · rw [Multiset.coe_eq_coe.mpr (List.perm_insertionSort r _),
      Multiset.coe_toList]
  · exact List.pairwise_insertionSort r _

theorem OldestFirst.keys
    (hRows : OldestFirst age s rows) :
    ((rows.map (·.1) : List K) : Multiset K) = s.keys.val := by
  rw [← Multiset.map_coe, hRows.perm]
  exact Multiset.map_map _ _ _

theorem OldestFirst.nodup
    (hRows : OldestFirst age s rows) :
    (rows.map (·.1)).Nodup := by
  rw [← Multiset.coe_nodup, hRows.keys]
  exact s.keys.nodup

theorem OldestFirst.length
    (hRows : OldestFirst age s rows) :
    rows.length = s.keys.card := by
  rw [← List.length_map (·.1), ← Multiset.coe_card, hRows.keys]
  rfl

variable [DecidableEq K]

theorem OldestFirst.mem_iff
    (hRows : OldestFirst age s rows)
    {t : T} :
    (k, t) ∈ rows ↔ ∃ v, s.lookup k = some v ∧ age v = t := by
  rw [← Multiset.mem_coe, hRows.perm, mem_ages_iff]

end LruEviction

------
-- Victims
------

namespace LruEviction

open MapTotals

variable {K V T : Type}
variable {age : V → T}
variable {s : Finmap fun _ : K => V}
variable {rows : List (K × T)}
variable {k k' : K}
variable {v v' : V}
variable {m : Nat}

/- The keys of the first rows. -/
def victims (rows : List (K × T)) (m : Nat) : List K :=
  (rows.take m).map (·.1)

variable [DecidableEq K]

def evict
    (s : Finmap fun _ : K => V)
    (rows : List (K × T))
    (m : Nat) : Finmap fun _ : K => V :=
  eraseAll s (victims rows m)

/- Entries either go or stay as they are. -/
theorem lookup_evict (k : K) :
    (evict s rows m).lookup k =
      if k ∈ victims rows m then none else s.lookup k :=
  lookup_eraseAll _ k s

theorem keys_evict :
    (evict s rows m).keys =
      s.keys \ (victims rows m).toFinset :=
  keys_eraseAll _

variable [LinearOrder T]

theorem OldestFirst.victims_subset
    (hRows : OldestFirst age s rows) :
    (victims rows m).toFinset ⊆ s.keys := by
  intro k hK
  rcases List.mem_map.mp (List.mem_toFinset.mp hK) with
    ⟨⟨x, t⟩, hRow, hX⟩
  have hX : x = k := hX
  rw [hX] at hRow
  rcases hRows.mem_iff.mp (List.mem_of_mem_take hRow) with
    ⟨v, hSome, _⟩
  exact Finmap.mem_keys.mpr (Finmap.mem_iff.mpr ⟨v, hSome⟩)

theorem exists_of_mem_victims
    (hRows : OldestFirst age s rows)
    (hGone : k ∈ victims rows m) :
    ∃ v, s.lookup k = some v := by
  have hKey :=
    hRows.victims_subset (List.mem_toFinset.mpr hGone)
  exact Finmap.mem_iff.mp (Finmap.mem_keys.mp hKey)

/- As many entries go as there are victims. -/
theorem OldestFirst.card_evict
    (hRows : OldestFirst age s rows)
    (hM : m ≤ s.keys.card) :
    (evict s rows m).keys.card = s.keys.card - m := by
  have hNodup : (victims rows m).Nodup := by
    unfold victims
    rw [List.map_take]
    exact hRows.nodup.sublist (List.take_sublist m _)
  have hLength : (victims rows m).length = m := by
    unfold victims
    rw [List.length_map, List.length_take, hRows.length,
      Nat.min_eq_left hM]
  rw [keys_evict, Finset.card_sdiff_of_subset
    hRows.victims_subset, List.toFinset_card_of_nodup hNodup,
    hLength]

/- A victim is at least as old as what stays. -/
theorem OldestFirst.age_le
    (hRows : OldestFirst age s rows)
    (hGone : k ∈ victims rows m)
    (hK : s.lookup k = some v)
    (hKept : (evict s rows m).lookup k' = some v') :
    age v ≤ age v' := by
  rw [lookup_evict] at hKept
  split_ifs at hKept with hVictim
  have hSorted := hRows.sorted
  rw [← List.take_append_drop m rows, List.pairwise_append]
    at hSorted
  rcases List.mem_map.mp hGone with ⟨⟨x, t⟩, hRow, hX⟩
  have hX : x = k := hX
  rw [hX] at hRow
  rcases hRows.mem_iff.mp (List.mem_of_mem_take hRow) with
    ⟨w, hSome, hAge⟩
  cases hK.symm.trans hSome
  have hRow' : (k', age v') ∈ rows :=
    hRows.mem_iff.mpr ⟨v', hKept, rfl⟩
  rw [← List.take_append_drop m rows, List.mem_append]
    at hRow'
  rcases hRow' with hTake | hDrop
  · exact absurd (List.mem_map.mpr ⟨_, hTake, rfl⟩) hVictim
  · have hLe := hSorted.2.2 _ hRow _ hDrop
    rw [hAge]
    exact hLe

end LruEviction

------
-- Sure Survivors
------

namespace LruEviction

open MapTotals

variable {K V T : Type}
variable {age : V → T}
variable {s : Finmap fun _ : K => V}
variable {rows : List (K × T)}
variable {k : K}
variable {v : V}
variable {m : Nat}
variable [LinearOrder T]

/- In front of a row are all that are strictly older. -/
theorem OldestFirst.older_le
    (hRows : OldestFirst age s rows)
    {t : T}
    {pre post : List (K × T)}
    (hSplit : rows = pre ++ (k, t) :: post) :
    older age s t ≤ pre.length := by
  have hSorted := hRows.sorted
  rw [hSplit, List.pairwise_append, List.pairwise_cons]
    at hSorted
  have hBehind :
      ((k, t) :: post).filter (fun row => row.2 < t) = [] := by
    rw [List.filter_eq_nil_iff]
    intro row hRow
    rw [decide_eq_true_eq, not_lt]
    rcases List.mem_cons.mp hRow with hHere | hPost
    · rw [hHere]
    · exact hSorted.2.1.1 row hPost
  unfold older
  rw [← hRows.perm, Multiset.filter_coe, Multiset.coe_card,
    hSplit, List.filter_append, hBehind, List.append_nil]
  exact List.length_filter_le _ _

variable [DecidableEq K]

/- Enough older entries save an entry. -/
theorem OldestFirst.survives
    (hRows : OldestFirst age s rows)
    (hK : s.lookup k = some v)
    (hOlder : m ≤ older age s (age v)) :
    k ∉ victims rows m := by
  intro hGone
  rcases List.mem_map.mp hGone with ⟨⟨x, t⟩, hRow, hX⟩
  have hX : x = k := hX
  rw [hX] at hRow
  rcases hRows.mem_iff.mp (List.mem_of_mem_take hRow) with
    ⟨w, hSome, hAge⟩
  cases hK.symm.trans hSome
  rcases List.append_of_mem hRow with ⟨pre, post, hTake⟩
  have hSplit :
      rows = pre ++ (k, t) :: (post ++ rows.drop m) := by
    calc
      rows = rows.take m ++ rows.drop m :=
        (List.take_append_drop m rows).symm
      _ = pre ++ (k, t) :: (post ++ rows.drop m) := by
        rw [hTake, List.append_assoc, List.cons_append]
  have hPre := hRows.older_le hSplit
  have hShort : (rows.take m).length ≤ m :=
    List.length_take_le m rows
  rw [hTake, List.length_append, List.length_cons] at hShort
  rw [hAge] at hOlder
  omega

/-
  With too few older entries, an order exists that evicts it:
  the older ones, the entry, and the others.
-/
theorem exists_victim
    (hK : s.lookup k = some v)
    (hOlder : older age s (age v) < m) :
    ∃ rows, OldestFirst age s rows ∧ k ∈ victims rows m := by
  have hRow : (k, age v) ∈ ages age s :=
    mem_ages_iff.mpr ⟨v, hK, rfl⟩
  rcases Multiset.exists_cons_of_mem hRow with
    ⟨others, hOthers⟩
  rcases exists_sorted
    ((ages age s).filter (·.2 < age v)) with
    ⟨front, hFront, hSortedFront⟩
  rcases exists_sorted
    (others.filter (fun row => ¬ row.2 < age v)) with
    ⟨back, hBack, hSortedBack⟩
  have hInFront : ∀ row ∈ front, row.2 < age v := by
    intro row hMem
    rw [← Multiset.mem_coe, hFront, Multiset.mem_filter] at hMem
    exact hMem.2
  have hInBack : ∀ row ∈ back, age v ≤ row.2 := by
    intro row hMem
    rw [← Multiset.mem_coe, hBack, Multiset.mem_filter] at hMem
    exact not_lt.mp hMem.2
  refine ⟨front ++ (k, age v) :: back, ⟨?_, ?_⟩, ?_⟩
  · have hBehind :
        (ages age s).filter (fun row => ¬ row.2 < age v) =
          (k, age v) ::ₘ
            others.filter (fun row => ¬ row.2 < age v) := by
      rw [hOthers, Multiset.filter_cons_of_pos]
      exact lt_irrefl (age v)
    rw [← Multiset.coe_add, ← Multiset.cons_coe, hFront, hBack,
      ← hBehind]
    exact Multiset.filter_add_not _ _
  · rw [List.pairwise_append, List.pairwise_cons]
    refine ⟨hSortedFront, ⟨?_, hSortedBack⟩, ?_⟩
    · exact hInBack
    · intro a hA b hB
      have hLt := hInFront a hA
      rcases List.mem_cons.mp hB with hHere | hBehind
      · rw [hHere]
        exact le_of_lt hLt
      · exact le_trans (le_of_lt hLt) (hInBack b hBehind)
  · have hLength : front.length < m := by
      rw [← Multiset.coe_card, hFront]
      exact hOlder
    apply List.mem_map.mpr
    refine ⟨(k, age v), ?_, rfl⟩
    rw [List.take_append, List.mem_append]
    right
    rw [show m - front.length = m - front.length - 1 + 1 by
      omega, List.take_succ_cons]
    exact List.mem_cons_self

/- What every order keeps. -/
theorem survives_iff
    (hK : s.lookup k = some v) :
    (∀ rows, OldestFirst age s rows →
      (evict s rows m).lookup k = some v) ↔
        m ≤ older age s (age v) := by
  constructor
  · intro hAll
    by_contra hFew
    rcases exists_victim hK (Nat.lt_of_not_le hFew) with
      ⟨rows, hRows, hGone⟩
    have hKept := hAll rows hRows
    rw [lookup_evict, if_pos hGone] at hKept
    cases hKept
  · intro hOlder rows hRows
    rw [lookup_evict, if_neg (hRows.survives hK hOlder)]
    exact hK

end LruEviction

------
-- What Is Freed
------

namespace LruEviction

open MapTotals

variable {K V T : Type}
variable {age : V → T}
variable {weight : V → Nat}
variable {s : Finmap fun _ : K => V}
variable {rows : List (K × T)}
variable {k : K}
variable {v : V}
variable {m : Nat}
variable [DecidableEq K]

/- The weight under a key. -/
def weightAt
    (weight : V → Nat)
    (s : Finmap fun _ : K => V)
    (k : K) : Nat :=
  (s.lookup k).elim 0 weight

theorem weightAt_of_some
    (hK : s.lookup k = some v) :
    weightAt weight s k = weight v := by
  unfold weightAt
  rw [hK]
  rfl

/- A total is a sum over the keys. -/
theorem total_eq_sum :
    total (fun _ v => weight v) s =
      s.keys.sum (weightAt weight s) := by
  unfold total Finset.sum
  have hKeys : s.keys.val = s.entries.map (·.1) := rfl
  rw [hKeys, Multiset.map_map]
  apply congrArg
  apply Multiset.map_congr rfl
  rintro ⟨k, v⟩ hRow
  exact (weightAt_of_some (mem_entries_iff.mp hRow)).symm

variable [LinearOrder T]

/- What is left and what is freed make up the total. -/
theorem OldestFirst.total_evict
    (hRows : OldestFirst age s rows) :
    total (fun _ v => weight v) (evict s rows m) +
        (victims rows m).toFinset.sum (weightAt weight s) =
      total (fun _ v => weight v) s := by
  rw [total_eq_sum, total_eq_sum, keys_evict]
  have hSame :
      (s.keys \ (victims rows m).toFinset).sum
          (weightAt weight (evict s rows m)) =
        (s.keys \ (victims rows m).toFinset).sum
          (weightAt weight s) := by
    apply Finset.sum_congr rfl
    intro k hK
    have hNot := (Finset.mem_sdiff.mp hK).2
    rw [List.mem_toFinset] at hNot
    unfold weightAt
    rw [lookup_evict, if_neg hNot]
  rw [hSame]
  exact Finset.sum_sdiff hRows.victims_subset

/- The age, and the weight where ages are equal. -/
def lexAge
    (age : V → T)
    (weight : V → Nat)
    (v : V) : T ×ₗ Nat :=
  toLex (age v, weight v)

/- The weight of `m` entries, the older and lighter first. -/
def leastWeight
    (age : V → T)
    (weight : V → Nat)
    (s : Finmap fun _ : K => V)
    (m : Nat) : Nat :=
  let pairs := (ages (lexAge age weight) s).map (·.2)
  (((pairs.sort).take m).map fun t => (ofLex t).2).sum

variable {lexRows : List (K × (T ×ₗ Nat))}

omit [DecidableEq K] in
/- Such an order is one by age as well. -/
theorem OldestFirst.of_lex
    (hLex : OldestFirst (lexAge age weight) s lexRows) :
    OldestFirst age s
      (lexRows.map fun row => (row.1, (ofLex row.2).1)) := by
  constructor
  · rw [← Multiset.map_coe, hLex.perm]
    unfold ages
    rw [Multiset.map_map]
    rfl
  · rw [List.pairwise_map]
    apply hLex.sorted.imp
    intro a b hLe
    exact Prod.Lex.monotone_fst _ _ hLe

omit [DecidableEq K] [LinearOrder T] in
theorem victims_of_lex :
    victims
        (lexRows.map fun row => (row.1, (ofLex row.2).1)) m =
      victims lexRows m := by
  unfold victims
  rw [← List.map_take, List.map_map]
  rfl

/- It frees the least weight. -/
theorem OldestFirst.sum_lex
    (hLex : OldestFirst (lexAge age weight) s lexRows) :
    (victims lexRows m).toFinset.sum (weightAt weight s) =
      leastWeight age weight s m := by
  have hPerm :
      (lexRows.map (·.2) : List (T ×ₗ Nat)) =
        ((ages (lexAge age weight) s).map (·.2)).sort := by
    have hSorted :
        (lexRows.map (·.2)).Pairwise (· ≤ ·) :=
      List.pairwise_map.mpr hLex.sorted
    apply List.Perm.eq_of_pairwise' hSorted
      (Multiset.pairwise_sort _ _)
    rw [← Multiset.coe_eq_coe, Multiset.sort_eq,
      ← Multiset.map_coe, hLex.perm]
  have hNodup : (victims lexRows m).Nodup := by
    unfold victims
    rw [List.map_take]
    exact hLex.nodup.sublist (List.take_sublist m _)
  rw [List.sum_toFinset _ hNodup]
  unfold leastWeight victims
  dsimp only
  rw [← hPerm, ← List.map_take, List.map_map, List.map_map]
  apply congrArg
  apply List.map_congr_left
  rintro ⟨k, t⟩ hRow
  rcases hLex.mem_iff.mp (List.mem_of_mem_take hRow) with
    ⟨v, hSome, hAge⟩
  rw [Function.comp_apply, Function.comp_apply, ← hAge]
  exact weightAt_of_some hSome

/- As many victims as there are rows to take. -/
theorem OldestFirst.card_victims
    (hRows : OldestFirst age s rows)
    (hM : m ≤ s.keys.card) :
    (victims rows m).toFinset.card = m := by
  have hCard := hRows.card_evict hM
  rw [keys_evict, Finset.card_sdiff_of_subset
    hRows.victims_subset] at hCard
  have hLe := Finset.card_le_card (hRows.victims_subset (m := m))
  omega

/-
  No order frees less: where it has other victims, these are
  of the same age and no lighter.
-/
theorem OldestFirst.leastWeight_le
    (hRows : OldestFirst age s rows)
    (hM : m ≤ s.keys.card) :
    leastWeight age weight s m ≤
      (victims rows m).toFinset.sum (weightAt weight s) := by
  rcases exists_sorted (ages (lexAge age weight) s) with
    ⟨lexRows, hPerm, hSorted⟩
  have hLex : OldestFirst (lexAge age weight) s lexRows :=
    ⟨hPerm, hSorted⟩
  let A := (victims lexRows m).toFinset
  let B := (victims rows m).toFinset
  have hCard : (A \ B).card = (B \ A).card := by
    apply Finset.card_sdiff_comm
    rw [hLex.card_victims hM, hRows.card_victims hM]
  have hLighter :
      ∀ a ∈ A \ B, ∀ b ∈ B \ A,
        weightAt weight s a ≤ weightAt weight s b := by
    intro a hA b hB
    simp only [A, B, Finset.mem_sdiff, List.mem_toFinset]
      at hA hB
    rcases exists_of_mem_victims hLex hA.1 with ⟨v, hV⟩
    rcases exists_of_mem_victims hRows hB.1 with ⟨w, hW⟩
    have hKeptB : (evict s lexRows m).lookup b = some w := by
      rw [lookup_evict, if_neg hB.2]
      exact hW
    have hKeptA : (evict s rows m).lookup a = some v := by
      rw [lookup_evict, if_neg hA.2]
      exact hV
    have hAge : age w ≤ age v := hRows.age_le hB.1 hW hKeptA
    have hLe : lexAge age weight v ≤ lexAge age weight w :=
      hLex.age_le hA.1 hV hKeptB
    rw [weightAt_of_some hV, weightAt_of_some hW]
    rcases Prod.Lex.toLex_le_toLex.mp hLe with
      hLt | ⟨_, hWeight⟩
    · exact absurd hAge (not_le_of_gt hLt)
    · exact hWeight
  rw [← hLex.sum_lex]
  change A.sum _ ≤ B.sum _
  rw [← Finset.sum_inter_add_sum_sdiff A B,
    ← Finset.sum_inter_add_sum_sdiff B A, Finset.inter_comm B A]
  apply Nat.add_le_add_left
  -- A weight between those of the two differences.
  let bound := (A \ B).sup (weightAt weight s)
  calc
    (A \ B).sum (weightAt weight s) ≤ (A \ B).card • bound :=
      Finset.sum_le_card_nsmul _ _ _ fun a hA =>
        Finset.le_sup hA
    _ = (B \ A).card • bound := by rw [hCard]
    _ ≤ (B \ A).sum (weightAt weight s) :=
      Finset.card_nsmul_le_sum _ _ _ fun b hB =>
        Finset.sup_le fun a hA => hLighter a hA b hB

/- The bound that every order keeps to. -/
theorem total_evict_le_iff
    (hM : m ≤ s.keys.card)
    (bound : Nat) :
    (∀ rows, OldestFirst age s rows →
      total (fun _ v => weight v) (evict s rows m) ≤ bound) ↔
        total (fun _ v => weight v) s ≤
          bound + leastWeight age weight s m := by
  constructor
  · intro hAll
    rcases exists_sorted (ages (lexAge age weight) s) with
      ⟨lexRows, hPerm, hSorted⟩
    have hLex : OldestFirst (lexAge age weight) s lexRows :=
      ⟨hPerm, hSorted⟩
    have hLe := hAll _ hLex.of_lex
    have hTotal :
        total (fun _ v => weight v) (evict s _ m) +
            (victims _ m).toFinset.sum (weightAt weight s) =
          total (fun _ v => weight v) s :=
      hLex.of_lex.total_evict
    rw [victims_of_lex, hLex.sum_lex] at hTotal
    omega
  · intro hLe rows hRows
    have hTotal :
        total (fun _ v => weight v) (evict s rows m) +
            (victims rows m).toFinset.sum (weightAt weight s) =
          total (fun _ v => weight v) s :=
      hRows.total_evict
    have hLeast :
        leastWeight age weight s m ≤
          (victims rows m).toFinset.sum (weightAt weight s) :=
      hRows.leastWeight_le hM
    omega

end LruEviction
