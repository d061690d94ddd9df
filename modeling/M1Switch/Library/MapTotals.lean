import Mathlib.Data.Finmap
import Mathlib.Data.Multiset.Bind

/-
  Totals over the entries of a finite map.

  A total adds up one value for every entry, in any
  commutative monoid: a byte count, or a multiset of index
  pairs.  Inserting and erasing change it by the value of the
  entry concerned.

  Key definitions include:
    * `total`
    * `eraseAll`

  Main results:
    * `lookup_eraseAll`
    * `card_le_of_lookup`
    * `card_insert`
-/

------
-- Totals
------

namespace MapTotals

variable {K V M : Type} [AddCommMonoid M] {f g : K → V → M}
variable {s : Finmap fun _ : K => V} {k : K} {v v' : V}

/- The values of all entries, added up. -/
def total
    (f : K → V → M)
    (s : Finmap fun _ : K => V) : M :=
  (s.entries.map fun row => f row.1 row.2).sum

/- Homomorphisms commute with totals. -/
theorem map_total
    {N : Type}
    [AddCommMonoid N]
    (h : M →+ N) :
    h (total f s) = total (fun k v => h (f k v)) s := by
  unfold total
  rw [map_multiset_sum, Multiset.map_map]
  rfl

theorem filter_total
    {A : Type}
    {f : K → V → Multiset A}
    (p : A → Prop)
    [DecidablePred p] :
    (total f s).filter p =
      total (fun k v => (f k v).filter p) s := by
  let keep : Multiset A →+ Multiset A :=
    { toFun := Multiset.filter p
      map_zero' := Multiset.filter_zero p
      map_add' := Multiset.filter_add p }
  exact map_total keep

variable [DecidableEq K]

theorem mem_entries_iff :
    (⟨k, v⟩ : Sigma fun _ : K => V) ∈ s.entries ↔
      s.lookup k = some v :=
  Finmap.mem_lookup_iff.symm

/- Only the values of the entries matter. -/
theorem total_congr
    (hSame : ∀ k v, s.lookup k = some v → f k v = g k v) :
    total f s = total g s := by
  unfold total
  congr 1
  apply Multiset.map_congr rfl
  rintro ⟨k, v⟩ hMem
  exact hSame k v (mem_entries_iff.mp hMem)

theorem entries_insert_erase :
    (s.insert k v).entries = ⟨k, v⟩ ::ₘ (s.erase k).entries := by
  induction s using Finmap.induction_on with
  | H a =>
      rw [Finmap.insert_toFinmap, Finmap.erase_toFinmap]
      rfl

/- An entry under a key replaces the one that was there. -/
theorem total_insert :
    total f (s.insert k v) = f k v + total f (s.erase k) := by
  unfold total
  rw [entries_insert_erase, Multiset.map_cons,
    Multiset.sum_cons]

theorem erase_of_lookup_none
    (hNone : s.lookup k = none) :
    s.erase k = s := by
  apply Finmap.ext_lookup
  intro x
  by_cases hX : x = k
  · subst hX
    rw [Finmap.lookup_erase, hNone]
  · rw [Finmap.lookup_erase_ne hX]

theorem insert_of_lookup
    (hSome : s.lookup k = some v) :
    s.insert k v = s := by
  apply Finmap.ext_lookup
  intro x
  by_cases hX : x = k
  · subst hX
    rw [Finmap.lookup_insert, hSome]
  · rw [Finmap.lookup_insert_of_ne s hX]

/- Erasing an entry takes its value off the total. -/
theorem total_erase
    (hSome : s.lookup k = some v) :
    total f s = f k v + total f (s.erase k) := by
  rw [← total_insert, insert_of_lookup hSome]

/- Replacing an entry by one of the same value. -/
theorem total_insert_of_eq
    (hSome : s.lookup k = some v)
    (hSame : f k v' = f k v) :
    total f (s.insert k v') = total f s := by
  rw [total_insert, hSame, ← total_erase hSome]

/- What is left in a map was there before. -/
theorem lookup_of_erase
    {x : K}
    (hSome : (s.erase k).lookup x = some v) :
    s.lookup x = some v := by
  by_cases hX : x = k
  · subst hX
    rw [Finmap.lookup_erase] at hSome
    cases hSome
  · rw [Finmap.lookup_erase_ne hX] at hSome
    exact hSome

theorem lookup_insert_cases
    {x : K}
    (hSome : (s.insert k v).lookup x = some v') :
    (x = k ∧ v' = v) ∨ (x ≠ k ∧ s.lookup x = some v') := by
  by_cases hX : x = k
  · subst hX
    rw [Finmap.lookup_insert] at hSome
    cases hSome
    exact Or.inl ⟨rfl, rfl⟩
  · rw [Finmap.lookup_insert_of_ne s hX] at hSome
    exact Or.inr ⟨hX, hSome⟩

/- A member of a total comes from some entry. -/
theorem mem_total_iff
    {A : Type}
    {f : K → V → Multiset A}
    {a : A} :
    a ∈ total f s ↔
      ∃ k v, s.lookup k = some v ∧ a ∈ f k v := by
  show a ∈ Multiset.join _ ↔ _
  rw [Multiset.mem_join]
  constructor
  · rintro ⟨part, hPart, hMem⟩
    rcases Multiset.mem_map.mp hPart with ⟨⟨k, v⟩, hRow, rfl⟩
    exact ⟨k, v, mem_entries_iff.mp hRow, hMem⟩
  · rintro ⟨k, v, hSome, hMem⟩
    refine ⟨f k v, Multiset.mem_map.mpr ?_, hMem⟩
    exact ⟨⟨k, v⟩, mem_entries_iff.mpr hSome, rfl⟩

/- Erase the keys of a list, one after the other. -/
def eraseAll
    (s : Finmap fun _ : K => V)
    (keys : List K) : Finmap fun _ : K => V :=
  keys.foldl (fun s k => s.erase k) s

theorem lookup_eraseAll
    (keys : List K)
    (x : K) :
    ∀ s : Finmap fun _ : K => V,
      (eraseAll s keys).lookup x =
        if x ∈ keys then none else s.lookup x := by
  induction keys with
  | nil =>
      intro s
      simp [eraseAll]
  | cons k keys ih =>
      intro s
      show (eraseAll (s.erase k) keys).lookup x = _
      rw [ih (s.erase k)]
      by_cases hK : x = k
      · subst hK
        simp
      · simp [hK, Finmap.lookup_erase_ne hK]

theorem keys_eraseAll (keys : List K) :
    (eraseAll s keys).keys = s.keys \ keys.toFinset := by
  apply Finset.ext
  intro k
  rw [Finset.mem_sdiff, List.mem_toFinset, Finmap.mem_keys,
    Finmap.mem_keys, Finmap.mem_iff, Finmap.mem_iff,
    lookup_eraseAll]
  split_ifs with hErased
  · simp [hErased]
  · simp [hErased]

/- A map with entries of another is no larger. -/
theorem card_le_of_lookup
    {s' : Finmap fun _ : K => V}
    (hOld :
      ∀ k v, s'.lookup k = some v → (s.lookup k).isSome) :
    s'.keys.card ≤ s.keys.card := by
  apply Finset.card_le_card
  intro k hK
  rcases Finmap.mem_iff.mp (Finmap.mem_keys.mp hK) with ⟨v, hV⟩
  apply Finmap.mem_keys.mpr
  exact Finmap.mem_iff.mpr
    (Option.isSome_iff_exists.mp (hOld k v hV))

/- An entry that is inserted counts once. -/
theorem card_insert :
    (s.insert k v).keys.card = (s.erase k).keys.card + 1 := by
  calc
    (s.insert k v).keys.card = (s.insert k v).entries.card :=
      Multiset.card_map _ _
    _ = (s.erase k).entries.card + 1 := by
      rw [entries_insert_erase, Multiset.card_cons]
    _ = (s.erase k).keys.card + 1 :=
      congrArg (· + 1) (Multiset.card_map _ _).symm

theorem card_erase_of_lookup
    (hSome : s.lookup k = some v) :
    (s.erase k).keys.card + 1 = s.keys.card := by
  rw [← card_insert (v := v), insert_of_lookup hSome]

end MapTotals
