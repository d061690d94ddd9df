import Mathlib.Logic.Function.Iterate

/-
  Routines that keep a log, and that may not return.

  A routine that does not return has no value, whether it loops
  for ever or is stopped by a fault.  What it did until then is
  in the log all the same.  A loop has an allowance of rounds;
  it returns if some allowance is enough.

  Key definitions include:
    * `Logged`
    * `Logged.Meets`

  Main results:
    * `exists_iterate`
    * `meets_of_not_on`
    * `meets`
-/

------
-- Routines
------

/- A value, if the routine returns, and what it did. -/
structure Logged (ε α : Type) where
  value : Option α
  log : List ε := []

namespace Logged

variable {ε α β : Type} {x : Logged ε α}
variable {f : α → Logged ε β}

/- What comes behind a routine, if it returns. -/
def bind
    (x : Logged ε α)
    (f : α → Logged ε β) : Logged ε β :=
  match x.value with
  | none => ⟨none, x.log⟩
  | some a => ⟨(f a).value, x.log ++ (f a).log⟩

instance : Monad (Logged ε) where
  pure a := ⟨some a, []⟩
  bind := bind

@[simp] theorem value_pure (a : α) :
    (pure a : Logged ε α).value = some a :=
  rfl

@[simp] theorem log_pure (a : α) :
    (pure a : Logged ε α).log = [] :=
  rfl

/- Log an event. -/
def emit (e : ε) : Logged ε Unit :=
  { value := some ()
    log := [e] }

/- A sequence returns what its second part does. -/
theorem value_bind_eq_some
    {b : β} :
    (x >>= f).value = some b ↔
      ∃ a, x.value = some a ∧ (f a).value = some b := by
  change (bind x f).value = some b ↔ _
  unfold bind
  cases x.value with
  | none => simp
  | some a => simp

theorem bind_of_some
    {a : α}
    (hA : x.value = some a) :
    x >>= f = ⟨(f a).value, x.log ++ (f a).log⟩ := by
  change bind x f = _
  unfold bind
  rw [hA]

theorem bind_of_none
    (hNone : x.value = none) :
    x >>= f = ⟨none, x.log⟩ := by
  change bind x f = _
  unfold bind
  rw [hNone]

@[simp] theorem pure_bind
    (a : α)
    (f : α → Logged ε β) :
    (pure a : Logged ε α) >>= f = f a :=
  rfl

theorem bind_assoc
    {γ : Type}
    (x : Logged ε α)
    (f : α → Logged ε β)
    (g : β → Logged ε γ) :
    x >>= f >>= g = x >>= fun a => f a >>= g := by
  cases hX : x.value with
  | none =>
      rw [bind_of_none hX, bind_of_none hX]
      exact bind_of_none rfl
  | some a =>
      rw [bind_of_some hX, bind_of_some hX]
      cases hF : (f a).value with
      | none =>
          rw [bind_of_none hF]
          exact bind_of_none rfl
      | some b =>
          rw [bind_of_some hF]
          refine (bind_of_some rfl).trans ?_
          rw [List.append_assoc]

/- To change the value at the end logs nothing. -/
theorem log_bind_pure
    (x : Logged ε α)
    (f : α → β) :
    (x >>= fun a => pure (f a)).log = x.log := by
  cases hX : x.value with
  | none => rw [bind_of_none hX]
  | some a =>
      rw [bind_of_some hX]
      exact List.append_nil x.log

instance : LawfulMonad (Logged ε) :=
  LawfulMonad.mk' (Logged ε)
    (by
      rintro α ⟨value, log⟩
      cases value with
      | none => rfl
      | some a =>
          exact congrArg (Logged.mk (some a)) (List.append_nil log))
    pure_bind
    bind_assoc

/- The routine returns, and did only what is allowed. -/
def Meets (P : ε → Prop) (x : Logged ε α) : Prop :=
  x.value.isSome = true ∧ ∀ e ∈ x.log, P e

variable {P : ε → Prop}

@[simp] theorem meets_pure (a : α) :
    (pure a : Logged ε α).Meets P := by
  simp [Meets]

/- A routine that meets it gives a value. -/
theorem Meets.exists_value
    (hMeets : x.Meets P) :
    ∃ a, x.value = some a :=
  Option.isSome_iff_exists.mp hMeets.1

theorem meets_bind
    {f : α → Logged ε β} :
    (x >>= f).Meets P ↔
      x.Meets P ∧ ∀ a, x.value = some a → (f a).Meets P := by
  unfold Meets
  cases hValue : x.value with
  | none =>
      rw [bind_of_none hValue]
      simp
  | some a =>
      rw [bind_of_some hValue]
      simp only [Option.isSome_some, true_and, Option.some.injEq,
        forall_eq', List.forall_mem_append]
      exact and_left_comm

/- With a known first value, the second part alone is left. -/
theorem meets_bind_of_some
    {a : α}
    (hA : x.value = some a) :
    (x >>= f).Meets P ↔ x.Meets P ∧ (f a).Meets P := by
  rw [meets_bind, hA]
  simp

end Logged

------
-- Items That Are Logged Before They Are Done
------

namespace Logged

variable {α σ : Type}

/- Log an item, and do it. -/
def attempt
    (f : σ → α → Option σ)
    (s : σ)
    (a : α) : Logged α σ :=
  { value := f s a
    log := [a] }

/- All items are tried if all but the last can be done. -/
theorem log_foldlM_attempt_iff
    (f : σ → α → Option σ)
    (s : σ)
    (items : List α) :
    (items.foldlM (attempt f) s).log = items ↔
      (items.dropLast.foldlM f s).isSome = true := by
  induction items generalizing s with
  | nil => exact iff_of_true rfl rfl
  | cons a items ih =>
      rw [List.foldlM_cons]
      cases items with
      | nil =>
          refine iff_of_true ?_ rfl
          cases hA : f s a with
          | none => exact congrArg log (bind_of_none hA)
          | some t => exact congrArg log (bind_of_some hA)
      | cons b items =>
          rw [List.dropLast_cons_cons, List.foldlM_cons]
          cases hA : f s a with
          | none =>
              have hLog := congrArg log
                (bind_of_none (x := attempt f s a)
                  (f := (b :: items).foldlM (attempt f)) hA)
              rw [hLog]
              refine iff_of_false ?_ ?_
              · intro hEq
                cases (List.cons.inj hEq).2
              · exact Bool.false_ne_true
          | some t =>
              rw [bind_of_some (x := attempt f s a) hA]
              refine Iff.trans ?_ (ih t)
              exact List.cons_inj_right a

end Logged

------
-- Loops
------

/- What a round of a loop ends with. -/
inductive Round (σ ρ : Type) where
  | again (s : σ)
  | done (r : ρ)
deriving DecidableEq

/- The state at the end of a round. -/
def Round.state
    {σ ρ S : Type}
    (start : σ → S)
    (out : ρ → S) : Round σ ρ → S
  | .again t => start t
  | .done r => out r

namespace Logged

variable {ε σ ρ : Type}

/- Rounds until one is the last, but no more than allowed. -/
def loop
    (round : σ → Logged ε (Round σ ρ)) :
    Nat → σ → Logged ε ρ
  | 0, _ => ⟨none, []⟩
  | fuel + 1, s =>
      round s >>= fun
        | .again s => loop round fuel s
        | .done r => pure r

/- The rounds lead from one state to another. -/
inductive Reaches
    (round : σ → Logged ε (Round σ ρ)) : σ → σ → Prop where
  | refl (s : σ) : Reaches round s s
  | next {s s' t : σ}
      (hRound : (round s).value = some (.again s'))
      (hRest : Reaches round s' t) :
      Reaches round s t

variable {round : σ → Logged ε (Round σ ρ)} {P : ε → Prop}

/- One more round. -/
theorem Reaches.concat
    {s s' t : σ}
    (hReaches : Reaches round s s')
    (hRound : (round s').value = some (.again t)) :
    Reaches round s t := by
  induction hReaches with
  | refl s => exact .next hRound (.refl t)
  | next hFirst _ ih => exact .next hFirst (ih hRound)

/-
  A loop that returns: a relation between where it starts, its
  log and what it returns holds if the last round has it and
  every other round hands it on.
-/
theorem loop_induct
    {T : σ → List ε → ρ → Prop}
    (hDone :
      ∀ s r, (round s).value = some (.done r) →
        T s (round s).log r)
    (hAgain :
      ∀ s s' log r, (round s).value = some (.again s') →
        T s' log r → T s ((round s).log ++ log) r)
    {fuel : Nat}
    {s : σ}
    {r : ρ}
    (hValue : (loop round fuel s).value = some r) :
    T s (loop round fuel s).log r := by
  induction fuel generalizing s with
  | zero => simp [loop] at hValue
  | succ fuel ih =>
      unfold loop at hValue ⊢
      rcases value_bind_eq_some.mp hValue with
        ⟨next, hRound, hRest⟩
      rw [bind_of_some hRound]
      cases next with
      | again s' => exact hAgain s s' _ r hRound (ih hRest)
      | done r' =>
          rw [value_pure, Option.some.injEq] at hRest
          rw [log_pure, List.append_nil, ← hRest]
          exact hDone s r' hRound

/-
  A loop with a measure that its rounds decrease returns, and
  keeps to what its rounds keep to.
-/
theorem meets_loop
    {I : σ → Prop}
    (measure : σ → Nat)
    (hRound : ∀ s, I s → (round s).Meets P)
    (hAgain :
      ∀ s s', I s → (round s).value = some (.again s') →
        I s' ∧ measure s' < measure s)
    {fuel : Nat}
    {s : σ}
    (hStart : I s)
    (hFuel : measure s < fuel) :
    (loop round fuel s).Meets P := by
  induction fuel generalizing s with
  | zero => omega
  | succ fuel ih =>
      unfold loop
      rw [meets_bind]
      refine ⟨hRound s hStart, ?_⟩
      intro next hNext
      cases next with
      | again s' =>
          rcases hAgain s s' hStart hNext with ⟨hI, hLess⟩
          exact ih hI (by omega)
      | done r => exact meets_pure r

/- The rounds of a loop that meets it do. -/
theorem Meets.reached
    {fuel : Nat}
    {s t : σ}
    (hMeets : (loop round fuel s).Meets P)
    (hReaches : Reaches round s t) :
    (round t).Meets P := by
  induction hReaches generalizing fuel with
  | refl s =>
      cases fuel with
      | zero => simp [Meets, loop] at hMeets
      | succ fuel => exact (meets_bind.mp hMeets).1
  | next hFirst _ ih =>
      cases fuel with
      | zero => simp [Meets, loop] at hMeets
      | succ fuel =>
          exact ih ((meets_bind.mp hMeets).2 _ hFirst)

end Logged

------
-- More Rounds Than Needed
------

namespace Logged

variable {ε α β σ ρ : Type}

/- Once an allowance is enough, a larger one makes no
difference. -/
def Stable (F : Nat → Logged ε α) : Prop :=
  ∀ n m, n ≤ m → (F n).value.isSome = true → F m = F n

theorem stable_const (x : Logged ε α) :
    Stable fun _ => x :=
  fun _ _ _ _ => rfl

theorem stable_bind
    {F : Nat → Logged ε α}
    {G : Nat → α → Logged ε β}
    (hF : Stable F)
    (hG : ∀ a, Stable fun n => G n a) :
    Stable fun n => F n >>= G n := by
  intro n m hLe hSome
  rcases Option.isSome_iff_exists.mp hSome with ⟨b, hB⟩
  rcases value_bind_eq_some.mp hB with ⟨a, hA, hRest⟩
  have hFirst : F m = F n :=
    hF n m hLe (Option.isSome_iff_exists.mpr ⟨a, hA⟩)
  have hSecond : G m a = G n a :=
    hG a n m hLe (Option.isSome_iff_exists.mpr ⟨b, hRest⟩)
  show F m >>= G m = F n >>= G n
  rw [hFirst, bind_of_some hA, bind_of_some hA, hSecond]

theorem stable_ite
    {p : Prop}
    [Decidable p]
    {F G : Nat → Logged ε α}
    (hF : Stable F)
    (hG : Stable G) :
    Stable fun n => if p then F n else G n := by
  by_cases hP : p
  · simpa only [if_pos hP] using hF
  · simpa only [if_neg hP] using hG

theorem stable_loop
    (round : σ → Logged ε (Round σ ρ))
    (s : σ) :
    Stable fun n => loop round n s := by
  intro n
  induction n generalizing s with
  | zero =>
      intro m _ hSome
      simp [loop] at hSome
  | succ n ih =>
      intro m hLe hSome
      cases m with
      | zero => omega
      | succ m =>
          rcases Option.isSome_iff_exists.mp hSome with ⟨r, hR⟩
          rcases value_bind_eq_some.mp hR with
            ⟨next, hNext, hRest⟩
          simp only [loop]
          rw [bind_of_some hNext, bind_of_some hNext]
          cases next with
          | again s' =>
              have hMore :=
                ih s' m (by omega)
                  (Option.isSome_iff_exists.mpr ⟨r, hRest⟩)
              simp only [hMore]
          | done r' => rfl

/- Allowances that are enough give the same value. -/
theorem Stable.value_unique
    {F : Nat → Logged ε α}
    (hStable : Stable F)
    {n m : Nat}
    {a b : α}
    (hA : (F n).value = some a)
    (hB : (F m).value = some b) :
    a = b := by
  have hUp : ∀ {k c}, (F k).value = some c →
      k ≤ max n m → (F (max n m)).value = some c := by
    intro k c hC hLe
    rw [hStable k _ hLe (by simp [hC]), hC]
  have hLeft := hUp hA (Nat.le_max_left n m)
  rw [hUp hB (Nat.le_max_right n m)] at hLeft
  exact (Option.some.inj hLeft).symm

end Logged

------
-- Loops With a Condition
------

namespace Logged

variable {ε σ ρ : Type}

/- A round goes on under a condition, and always comes to its
end. -/
def Steps
    (round : σ → Logged ε (Round σ ρ))
    (on : σ → Prop) [DecidablePred on]
    (next : σ → σ)
    (out : σ → ρ) : Prop :=
  ∀ s, (round s).value =
    some (if on s then .again (next s) else .done (out s))

variable {round : σ → Logged ε (Round σ ρ)} {on : σ → Prop}
variable [DecidablePred on] {next : σ → σ} {out : σ → ρ}
variable {P : ε → Prop} {s : σ}

theorem Steps.again
    (hSteps : Steps round on next out)
    (hOn : on s) :
    (round s).value = some (.again (next s)) := by
  rw [hSteps s, if_pos hOn]

theorem Steps.done
    (hSteps : Steps round on next out)
    (hOff : ¬ on s) :
    (round s).value = some (.done (out s)) := by
  rw [hSteps s, if_neg hOff]

/- A loop that returns went on until the condition failed. -/
theorem Steps.exists_iterate
    (hSteps : Steps round on next out)
    {fuel : Nat}
    {r : ρ}
    (hValue : (loop round fuel s).value = some r) :
    ∃ n, (∀ m < n, on (next^[m] s)) ∧ ¬ on (next^[n] s) ∧
      r = out (next^[n] s) := by
  induction fuel generalizing s with
  | zero => simp [loop] at hValue
  | succ fuel ih =>
      unfold loop at hValue
      by_cases hOn : on s
      · rw [bind_of_some (hSteps.again hOn)] at hValue
        rcases ih hValue with ⟨n, hAll, hOff, hR⟩
        refine ⟨n + 1, ?_, hOff, hR⟩
        intro m hM
        cases m with
        | zero => exact hOn
        | succ m => exact hAll m (by omega)
      · rw [bind_of_some (hSteps.done hOn)] at hValue
        refine ⟨0, by simp, hOn, ?_⟩
        exact (Option.some.inj hValue).symm

/- What the rounds keep holds at the end. -/
theorem Steps.invariant
    (hSteps : Steps round on next out)
    {I : σ → Prop}
    (hNext : ∀ s, I s → on s → I (next s))
    {fuel : Nat}
    {r : ρ}
    (hStart : I s)
    (hValue : (loop round fuel s).value = some r) :
    ∃ t, I t ∧ ¬ on t ∧ r = out t := by
  rcases hSteps.exists_iterate hValue with ⟨n, hAll, hOff, hR⟩
  have hI : ∀ m ≤ n, I (next^[m] s) := by
    intro m hM
    induction m with
    | zero => exact hStart
    | succ m ih =>
        rw [Function.iterate_succ_apply']
        exact hNext _ (ih (by omega)) (hAll m (by omega))
  exact ⟨_, hI n (Nat.le_refl n), hOff, hR⟩

/- A loop whose condition fails at some point returns. -/
theorem Steps.meets_of_not_on
    (hSteps : Steps round on next out)
    (hRound : ∀ s, ∀ e ∈ (round s).log, P e)
    {n fuel : Nat}
    (hOff : ¬ on (next^[n] s))
    (hFuel : n < fuel) :
    (loop round fuel s).Meets P := by
  induction fuel generalizing n s with
  | zero => omega
  | succ fuel ih =>
      unfold loop
      by_cases hOn : on s
      · rw [meets_bind_of_some (hSteps.again hOn)]
        refine ⟨⟨by simp [hSteps.again hOn], hRound s⟩, ?_⟩
        cases n with
        | zero => exact absurd hOn hOff
        | succ n => exact ih hOff (by omega)
      · rw [meets_bind_of_some (hSteps.done hOn)]
        exact
          ⟨⟨by simp [hSteps.done hOn], hRound s⟩, meets_pure _⟩

/- With a measure that decreases, a loop returns. -/
theorem Steps.meets
    (hSteps : Steps round on next out)
    {I : σ → Prop}
    (measure : σ → Nat)
    (hRound : ∀ s, I s → ∀ e ∈ (round s).log, P e)
    (hNext :
      ∀ s, I s → on s → I (next s) ∧
        measure (next s) < measure s)
    {fuel : Nat}
    (hStart : I s)
    (hFuel : measure s < fuel) :
    (loop round fuel s).Meets P := by
  apply meets_loop measure ?_ ?_ hStart hFuel
  · intro s hI
    exact ⟨by simp [hSteps s], hRound s hI⟩
  · intro s s' hI hRound
    by_cases hOn : on s
    · rw [hSteps.again hOn, Option.some.injEq,
        Round.again.injEq] at hRound
      rw [← hRound]
      exact hNext s hI hOn
    · rw [hSteps.done hOn] at hRound
      simp at hRound

end Logged
