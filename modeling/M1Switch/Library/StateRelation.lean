import Mathlib.Order.Defs.Unbundled

/-
  Relations that the steps of a state monad respect.

  A computation respects a relation when it takes every state
  to a related one.  For a preorder, computations that respect
  it compose.

  Main results:
    * `bind`
    * `respects_modify`
-/

------
-- Respectful Computations
------

namespace StateRelation

variable {σ α β : Type} {R : σ → σ → Prop}

/- Every run ends in a state related to its start. -/
def Respects
    (R : σ → σ → Prop)
    (m : StateM σ α) : Prop :=
  ∀ s, R s (m.run s).2

/- A value leaves the state alone. -/
theorem respects_pure
    [Std.Refl R]
    (a : α) :
    Respects R (pure a : StateM σ α) := by
  intro s
  exact Std.Refl.refl s

/- Reading leaves the state alone. -/
theorem respects_get
    [Std.Refl R] :
    Respects R (get : StateM σ σ) := by
  intro s
  exact Std.Refl.refl s

/- An update respects what it relates. -/
theorem respects_modify
    {f : σ → σ}
    (hF : ∀ s, R s (f s)) :
    Respects R (modify f : StateM σ PUnit) := by
  intro s
  exact hF s

/- Sequencing composes the relation. -/
theorem Respects.bind
    [IsTrans σ R]
    {m : StateM σ α}
    {f : α → StateM σ β}
    (hM : Respects R m)
    (hF : ∀ a, Respects R (f a)) :
    Respects R (m >>= f) := by
  intro s
  exact IsTrans.trans _ _ _ (hM s) (hF _ _)

end StateRelation
