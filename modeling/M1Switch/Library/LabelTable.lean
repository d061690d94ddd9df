import Mathlib.Data.List.Nodup
import Mathlib.Data.Set.Insert
import Mathlib.Logic.Function.Basic

/-
  Label tables with forward references.

  A table hands out label ids for places before it is known
  whether the place will ever get its label.  A place is bound
  either under the id handed out for it or under a fresh one;
  in the second case ids handed out before are lost.

  Key definitions include:
    * `LabelTable`
    * `LabelTable.WellFormed`

  Main results:
    * `mem_labels_iff_of_held`
-/

------
-- Tables And Their Operations
------

/-
  `idOf` is the current id of a place, `bound` the places
  whose label has been set and `labels` the labels set.
-/
structure LabelTable (P : Type*) where
  next : Nat
  idOf : P → Option Nat
  bound : Set P
  labels : List Nat

namespace LabelTable

variable {P : Type*} {T : LabelTable P} {p q : P} {id : Nat}
variable {rebound : Prop}

/- Ids below `n` are used up elsewhere. -/
def skip (T : LabelTable P) (n : Nat) : LabelTable P :=
  { T with next := n }

/- The id of a place, allocated when it has none. -/
def reserve
    [DecidableEq P]
    (T : LabelTable P)
    (p : P) : Nat × LabelTable P :=
  match T.idOf p with
  | some id => (id, T)
  | none =>
      (T.next,
        { T with
          next := T.next + 1
          idOf := Function.update T.idOf p (some T.next) })

/- Set the label of a place under a new id. -/
def bindFresh
    [DecidableEq P]
    (T : LabelTable P)
    (p : P) : LabelTable P :=
  { next := T.next + 1
    idOf := Function.update T.idOf p (some T.next)
    bound := insert p T.bound
    labels := T.labels ++ [T.next] }

/- Set the label of a place under a given id. -/
def bind
    (T : LabelTable P)
    (p : P)
    (id : Nat) : LabelTable P :=
  { T with
    bound := insert p T.bound
    labels := T.labels ++ [id] }

------
-- Well-Formed Tables
------

/-
  Ids are below the next one, belong to one place and are set
  exactly at the bound places.
-/
structure WellFormed (T : LabelTable P) : Prop where
  labels_nodup : T.labels.Nodup
  labels_lt : ∀ id ∈ T.labels, id < T.next
  idOf_lt : ∀ p id, T.idOf p = some id → id < T.next
  idOf_inj :
    ∀ p q id,
      T.idOf p = some id → T.idOf q = some id → p = q
  mem_labels_iff :
    ∀ p id, T.idOf p = some id →
      (id ∈ T.labels ↔ p ∈ T.bound)

theorem WellFormed.skip
    (hT : T.WellFormed)
    {n : Nat}
    (hN : T.next ≤ n) :
    (T.skip n).WellFormed := by
  refine ⟨hT.labels_nodup, ?_, ?_, hT.idOf_inj,
    hT.mem_labels_iff⟩
  · intro id hId
    exact lt_of_lt_of_le (hT.labels_lt id hId) hN
  · intro p id hId
    exact lt_of_lt_of_le (hT.idOf_lt p id hId) hN

/- An id of another place survives an update at `p`. -/
theorem update_eq_some
    [DecidableEq P]
    (hId :
      Function.update T.idOf p (some T.next) q = some id) :
    (q = p ∧ id = T.next) ∨
      (q ≠ p ∧ T.idOf q = some id) := by
  by_cases hQ : q = p
  · subst hQ
    rw [Function.update_self] at hId
    exact Or.inl ⟨rfl, (Option.some.inj hId).symm⟩
  · rw [Function.update_of_ne hQ] at hId
    exact Or.inr ⟨hQ, hId⟩

/- Fresh ids keep the ids of places apart. -/
theorem update_inj
    [DecidableEq P]
    (hT : T.WellFormed)
    (p : P) :
    ∀ q r id,
      Function.update T.idOf p (some T.next) q = some id →
        Function.update T.idOf p (some T.next) r = some id →
          q = r := by
  intro q r id hQ hR
  rcases update_eq_some hQ with ⟨hQp, hIdQ⟩ | ⟨_, hIdQ⟩
  · rcases update_eq_some hR with ⟨hRp, _⟩ | ⟨_, hIdR⟩
    · rw [hQp, hRp]
    · have := hT.idOf_lt r id hIdR
      omega
  · rcases update_eq_some hR with ⟨_, hIdR⟩ | ⟨_, hIdR⟩
    · have := hT.idOf_lt q id hIdQ
      omega
    · exact hT.idOf_inj q r id hIdQ hIdR

/- Fresh ids are below the new next id. -/
theorem update_lt
    [DecidableEq P]
    (hT : T.WellFormed)
    (p : P) :
    ∀ q id,
      Function.update T.idOf p (some T.next) q = some id →
        id < T.next + 1 := by
  intro q id hQ
  rcases update_eq_some hQ with ⟨_, hId⟩ | ⟨_, hId⟩
  · omega
  · have := hT.idOf_lt q id hId
    omega

theorem WellFormed.reserve
    [DecidableEq P]
    (hT : T.WellFormed)
    {p : P}
    (hBound : p ∈ T.bound → (T.idOf p).isSome) :
    (T.reserve p).2.WellFormed := by
  unfold LabelTable.reserve
  cases hId : T.idOf p with
  | some id => exact hT
  | none =>
      refine ⟨hT.labels_nodup, ?_, update_lt hT p,
        update_inj hT p, ?_⟩
      · intro id hMem
        exact Nat.lt_succ_of_lt (hT.labels_lt id hMem)
      · intro q id hQ
        rcases update_eq_some hQ with ⟨hQp, hNew⟩ | ⟨_, hOld⟩
        · -- A new id is no label, and `p` is not bound.
          subst hQp
          constructor
          · intro hMem
            have := hT.labels_lt id hMem
            omega
          · intro hIn
            have hSome := hBound hIn
            rw [hId] at hSome
            simp at hSome
        · exact hT.mem_labels_iff q id hOld

theorem WellFormed.bindFresh
    [DecidableEq P]
    (hT : T.WellFormed)
    (p : P) :
    (T.bindFresh p).WellFormed := by
  refine ⟨?_, ?_, update_lt hT p, update_inj hT p, ?_⟩
  · refine List.Nodup.append hT.labels_nodup
      (List.nodup_singleton _) ?_
    intro id hMem hNew
    have := hT.labels_lt id hMem
    simp only [List.mem_singleton] at hNew
    omega
  · intro id hMem
    rcases List.mem_append.mp hMem with hMem | hNew
    · exact Nat.lt_succ_of_lt (hT.labels_lt id hMem)
    · simp only [List.mem_singleton] at hNew
      show id < T.next + 1
      omega
  · intro q id hQ
    show id ∈ T.labels ++ [T.next] ↔ q ∈ insert p T.bound
    rcases update_eq_some hQ with ⟨hQp, hNew⟩ | ⟨hNe, hOld⟩
    · subst hQp hNew
      simp
    · have hLt := hT.idOf_lt q id hOld
      have hIff := hT.mem_labels_iff q id hOld
      simp [hIff, hNe, hLt.ne]

theorem WellFormed.bind
    (hT : T.WellFormed)
    {p : P}
    (hId : T.idOf p = some id)
    (hFree : p ∉ T.bound) :
    (T.bind p id).WellFormed := by
  have hNew : id ∉ T.labels := by
    intro hMem
    exact hFree ((hT.mem_labels_iff p id hId).mp hMem)
  refine ⟨?_, ?_, hT.idOf_lt, hT.idOf_inj, ?_⟩
  · refine List.Nodup.append hT.labels_nodup
      (List.nodup_singleton _) ?_
    intro i hMem hI
    simp only [List.mem_singleton] at hI
    exact hNew (hI ▸ hMem)
  · intro i hMem
    rcases List.mem_append.mp hMem with hMem | hI
    · exact hT.labels_lt i hMem
    · simp only [List.mem_singleton] at hI
      exact hI ▸ hT.idOf_lt p id hId
  · intro q i hQ
    show i ∈ T.labels ++ [id] ↔ q ∈ insert p T.bound
    have hOld : T.idOf q = some i := hQ
    have hIff := hT.mem_labels_iff q i hOld
    have hSame : i = id ↔ q = p := by
      constructor
      · intro hI
        exact hT.idOf_inj q p i hOld (hI ▸ hId)
      · intro hQp
        rw [hQp, hId] at hOld
        exact (Option.some.inj hOld).symm
    simp only [List.mem_append, List.mem_singleton,
      Set.mem_insert_iff, hIff, hSame]
    exact or_comm

------
-- Handed-Out Ids
------

/- The id is no label, and none that a place could get. -/
def Lost (T : LabelTable P) (id : Nat) : Prop :=
  id < T.next ∧ id ∉ T.labels ∧ ∀ p, T.idOf p ≠ some id

/-
  An id handed out for `p`: the current one, or lost once `p`
  has been bound afresh.
-/
def Held
    (T : LabelTable P)
    (rebound : Prop)
    (id : Nat)
    (p : P) : Prop :=
  (rebound → T.Lost id) ∧ (¬ rebound → T.idOf p = some id)

/- Rebinding may be described by an equivalent condition. -/
theorem Held.congr
    {rebound rebound' : Prop}
    {p : P}
    (hIff : rebound ↔ rebound')
    (hHeld : T.Held rebound id p) :
    T.Held rebound' id p := by
  rwa [propext hIff] at hHeld

/- Ids after a reservation. -/
theorem idOf_reserve
    [DecidableEq P]
    (hId : (T.reserve p).2.idOf q = some id) :
    T.idOf q = some id ∨ id = T.next := by
  unfold reserve at hId
  cases hP : T.idOf p with
  | some _ =>
      rw [hP] at hId
      exact Or.inl hId
  | none =>
      rw [hP] at hId
      rcases update_eq_some hId with ⟨_, hNew⟩ | ⟨_, hOld⟩
      · exact Or.inr hNew
      · exact Or.inl hOld

theorem idOf_reserve_self
    [DecidableEq P]
    (T : LabelTable P)
    (p : P) :
    (T.reserve p).2.idOf p = some (T.reserve p).1 := by
  unfold reserve
  cases hId : T.idOf p with
  | some id => exact hId
  | none => exact Function.update_self _ _ _

/- A place with an id keeps it. -/
theorem idOf_reserve_of_some
    [DecidableEq P]
    (hId : T.idOf q = some id) :
    (T.reserve p).2.idOf q = some id := by
  unfold reserve
  cases hP : T.idOf p with
  | some _ => exact hId
  | none =>
      have hNe : q ≠ p := by
        intro hEq
        rw [hEq, hP] at hId
        cases hId
      exact (Function.update_of_ne hNe _ _).trans hId

theorem bound_reserve
    [DecidableEq P]
    (T : LabelTable P)
    (p : P) :
    (T.reserve p).2.bound = T.bound := by
  unfold reserve
  cases T.idOf p <;> rfl

/- The id just handed out is held. -/
theorem held_reserve_self
    [DecidableEq P]
    (T : LabelTable P)
    (p : P)
    (hNot : ¬ rebound) :
    (T.reserve p).2.Held rebound (T.reserve p).1 p :=
  ⟨fun hRebound => absurd hRebound hNot,
    fun _ => idOf_reserve_self T p⟩

theorem Held.skip
    {id n : Nat}
    {p : P}
    (hHeld : T.Held rebound id p)
    (hN : T.next ≤ n) :
    (T.skip n).Held rebound id p := by
  refine ⟨?_, hHeld.2⟩
  intro hRebound
  have hLost := hHeld.1 hRebound
  exact ⟨lt_of_lt_of_le hLost.1 hN, hLost.2⟩

/- Reserving a place keeps every other id where it was. -/
theorem Held.reserve
    [DecidableEq P]
    {p : P}
    (hHeld : T.Held rebound id p)
    (q : P) :
    (T.reserve q).2.Held rebound id p := by
  refine ⟨?_, fun hNot => idOf_reserve_of_some (hHeld.2 hNot)⟩
  intro hRebound
  rcases hHeld.1 hRebound with ⟨hLt, hMem, hNone⟩
  have hFrame :
      T.next ≤ (T.reserve q).2.next ∧
        (T.reserve q).2.labels = T.labels := by
    unfold LabelTable.reserve
    cases T.idOf q with
    | some _ => exact ⟨le_refl _, rfl⟩
    | none => exact ⟨Nat.le_succ _, rfl⟩
  refine ⟨lt_of_lt_of_le hLt hFrame.1, ?_, ?_⟩
  · rw [hFrame.2]
    exact hMem
  · intro r hR
    rcases idOf_reserve hR with hOld | hNew
    · exact hNone r hOld
    · omega

/- Binding `q` afresh loses the ids handed out for it. -/
theorem Held.bindFresh
    [DecidableEq P]
    (hT : T.WellFormed)
    (hHeld : T.Held rebound id p)
    (hFree : q ∉ T.bound) :
    (T.bindFresh q).Held (rebound ∨ p = q) id p := by
  have hKeep :
      ∀ r, Function.update T.idOf q (some T.next) r =
          some id →
        id < T.next → T.idOf r = some id ∧ r ≠ q := by
    intro r hR hLt
    rcases update_eq_some hR with ⟨_, hNew⟩ | ⟨hNe, hOld⟩
    · omega
    · exact ⟨hOld, hNe⟩
  refine ⟨?_, ?_⟩
  · intro hRebound
    by_cases hOld : rebound
    · rcases hHeld.1 hOld with ⟨hLt, hMem, hNone⟩
      refine ⟨Nat.lt_succ_of_lt hLt, ?_, ?_⟩
      · simp [LabelTable.bindFresh, hMem, hLt.ne]
      · intro r hR
        exact hNone r (hKeep r hR hLt).1
    · have hP := hHeld.2 hOld
      have hEq : p = q := hRebound.resolve_left hOld
      have hLt := hT.idOf_lt p id hP
      have hMem : id ∉ T.labels := by
        intro hMem
        apply hFree
        rw [← hEq]
        exact (hT.mem_labels_iff p id hP).mp hMem
      refine ⟨Nat.lt_succ_of_lt hLt, ?_, ?_⟩
      · simp [LabelTable.bindFresh, hMem, hLt.ne]
      · intro r hR
        rcases hKeep r hR hLt with ⟨hOldId, hNe⟩
        apply hNe
        rw [← hEq]
        exact hT.idOf_inj r p id hOldId hP
  · intro hNot
    push Not at hNot
    show Function.update T.idOf q _ p = some id
    rw [Function.update_of_ne hNot.2]
    exact hHeld.2 hNot.1

/- Binding under a handed-out id loses nothing. -/
theorem Held.bind
    {id i : Nat}
    (hHeld : T.Held rebound id p)
    (hI : T.idOf q = some i) :
    (T.bind q i).Held rebound id p := by
  refine ⟨?_, hHeld.2⟩
  intro hRebound
  rcases hHeld.1 hRebound with ⟨hLt, hMem, hNone⟩
  refine ⟨hLt, ?_, hNone⟩
  have hNe : id ≠ i := by
    intro hEq
    exact hNone q (hEq ▸ hI)
  simp [LabelTable.bind, hMem, hNe]

/-
  A handed-out id becomes a label exactly when its place is
  bound and was not bound afresh behind it.
-/
theorem mem_labels_iff_of_held
    (hT : T.WellFormed)
    {p : P}
    (hHeld : T.Held rebound id p) :
    id ∈ T.labels ↔ ¬ rebound ∧ p ∈ T.bound := by
  by_cases hRebound : rebound
  · have hLost := hHeld.1 hRebound
    simp [hRebound, hLost.2.1]
  · have hId := hHeld.2 hRebound
    simp [hRebound, hT.mem_labels_iff p id hId]

end LabelTable
