import Mathlib.Data.List.GetD
import Mathlib.Logic.Function.Basic

/-
  Straight-line code in single-assignment form.

  Every line defines one value from the arguments and from
  lines in front of it.  Placing the code gives the lines
  consecutive ids; placed lines run in an environment of ids.

  Key definitions include:
    * `StraightLine.Line`
    * `StraightLine.Scoped`

  Main results:
    * `exec_place`
-/

------
-- Lines And Their References
------

namespace StraightLine

/- An argument of the code, or the value of a line. -/
inductive Ref where
  | arg (i : Nat)
  | line (i : Nat)
deriving DecidableEq, Repr

structure Line (O : Type) where
  op : O
  refs : List Ref
deriving DecidableEq, Repr

variable {O : Type}

/- One of `arity` arguments or of the first `k` lines. -/
def Ref.Scoped (arity k : Nat) : Ref → Prop
| .arg i => i < arity
| .line i => i < k

instance (arity k : Nat) (r : Ref) :
    Decidable (r.Scoped arity k) :=
  match r with
  | .arg i => inferInstanceAs (Decidable (i < arity))
  | .line i => inferInstanceAs (Decidable (i < k))

/- Every line refers back, where `k` lines stand in front. -/
def Scoped (arity : Nat) : Nat → List (Line O) → Prop
| _, [] => True
| k, l :: ls =>
    (∀ r ∈ l.refs, r.Scoped arity k) ∧
      Scoped arity (k + 1) ls

instance Scoped.decidable (arity : Nat) :
    ∀ (k : Nat) (ls : List (Line O)),
      Decidable (Scoped arity k ls)
| _, [] => isTrue trivial
| k, _ :: ls =>
    have := Scoped.decidable arity (k + 1) ls
    inferInstanceAs (Decidable (_ ∧ _))

end StraightLine

------
-- Placing Code At Ids
------

namespace StraightLine

variable {O : Type} {arity k n : Nat} {args : List Nat}
variable {ls : List (Line O)}

/- The id of a reference; line 0 has id `n`. -/
def Ref.id (args : List Nat) (n : Nat) : Ref → Nat
| .arg i => args.getD i 0
| .line i => n + i

/- A line with its id and the ids of its operands. -/
structure Placed (O : Type) where
  id : Nat
  op : O
  operands : List Nat

def place
    (args : List Nat)
    (n : Nat) :
    Nat → List (Line O) → List (Placed O)
| _, [] => []
| k, l :: ls =>
    ⟨n + k, l.op, l.refs.map (Ref.id args n)⟩ ::
      place args n (k + 1) ls

/- Only arguments that are referred to matter. -/
theorem place_congr
    {args' : List Nat}
    (hArgs :
      ∀ l ∈ ls, ∀ i, Ref.arg i ∈ l.refs →
        args.getD i 0 = args'.getD i 0)
    (k : Nat) :
    place args n k ls = place args' n k ls := by
  induction ls generalizing k with
  | nil => rfl
  | cons l ls ih =>
      have hRest :
          place args n (k + 1) ls = place args' n (k + 1) ls :=
        ih (fun l' hL => hArgs l' (List.mem_cons_of_mem l hL))
          (k + 1)
      have hRefs :
          l.refs.map (Ref.id args n) =
            l.refs.map (Ref.id args' n) := by
        apply List.map_congr_left
        intro r hR
        cases r with
        | arg i => exact hArgs l List.mem_cons_self i hR
        | line i => rfl
      rw [place, place, hRest, hRefs]

/- A placed line is one of the lines. -/
theorem mem_place
    {p : Placed O}
    (hP : p ∈ place args n k ls) :
    ∃ l ∈ ls, p.op = l.op ∧
      p.operands = l.refs.map (Ref.id args n) := by
  induction ls generalizing k with
  | nil => cases hP
  | cons l ls ih =>
      rcases List.mem_cons.mp hP with hHead | hTail
      · subst hHead
        exact ⟨l, List.mem_cons_self, rfl, rfl⟩
      · rcases ih hTail with ⟨l', hL', hOp⟩
        exact ⟨l', List.mem_cons_of_mem l hL', hOp⟩

/- Every line is placed. -/
theorem exists_mem_place
    {l : Line O}
    (hL : l ∈ ls) :
    ∃ p ∈ place args n k ls, p.op = l.op := by
  induction ls generalizing k with
  | nil => cases hL
  | cons l' ls ih =>
      rcases List.mem_cons.mp hL with hHead | hTail
      · subst hHead
        exact ⟨_, List.mem_cons_self, rfl⟩
      · rcases ih hTail with ⟨p, hP, hOp⟩
        exact ⟨p, List.mem_cons_of_mem _ hP, hOp⟩

/- An argument of a scoped line is one of the arguments. -/
theorem scoped_of_mem
    {l : Line O}
    {i : Nat}
    (hScoped : Scoped arity k ls)
    (hL : l ∈ ls)
    (hI : Ref.arg i ∈ l.refs) :
    i < arity := by
  induction ls generalizing k with
  | nil => cases hL
  | cons l' ls ih =>
      rcases List.mem_cons.mp hL with hHead | hTail
      · subst hHead
        exact hScoped.1 _ hI
      · exact ih hScoped.2 hTail

end StraightLine

------
-- Values Of Lines
------

namespace StraightLine

variable {O V : Type} {sem : O → List V → Option V}
variable {args : List Nat} {vals : Nat → Option V}
variable {vs vs' : List V} {k n : Nat} {ls : List (Line O)}

/- What a reference stands for; an argument may be unknown. -/
def Ref.value
    (vals : Nat → Option V)
    (vs : List V) : Ref → Option V
| .arg i => vals i
| .line i => vs[i]?

/- Values of the lines behind the values `vs`. -/
def values
    (sem : O → List V → Option V)
    (vals : Nat → Option V) :
    List V → List (Line O) → Option (List V)
| vs, [] => some vs
| vs, l :: ls => do
    let xs ← l.refs.mapM (Ref.value vals vs)
    let v ← sem l.op xs
    values sem vals (vs ++ [v]) ls

/- Environments of ids. -/
abbrev Env (V : Type) : Type := Nat → Option V

/- One placed line defines its id. -/
def execLine
    (sem : O → List V → Option V)
    (env : Env V)
    (p : Placed O) : Option (Env V) := do
  let xs ← p.operands.mapM env
  let v ← sem p.op xs
  return Function.update env p.id (some v)

def exec
    (sem : O → List V → Option V) :
    Env V → List (Placed O) → Option (Env V)
| env, [] => some env
| env, p :: ps => do
    let env' ← execLine sem env p
    exec sem env' ps

/-
  The environment holds the known arguments, below `n`, and
  the values `vs` from `n` on.
-/
structure Holds
    (args : List Nat)
    (vals : Nat → Option V)
    (n : Nat)
    (vs : List V)
    (env : Env V) : Prop where
  arg :
    ∀ i v, vals i = some v →
      args.getD i 0 < n ∧ env (args.getD i 0) = some v
  line : ∀ i < vs.length, env (n + i) = vs[i]?

/- A defined reference has its value under its id. -/
theorem Holds.ref
    {env : Env V}
    {r : Ref}
    {v : V}
    (hHolds : Holds args vals n vs env)
    (hValue : r.value vals vs = some v) :
    env (r.id args n) = some v := by
  cases r with
  | arg i => exact (hHolds.arg i v hValue).2
  | line i =>
      have hI : i < vs.length :=
        (List.getElem?_eq_some_iff.mp hValue).1
      exact (hHolds.line i hI).trans hValue

theorem Holds.refs
    {env : Env V}
    (hHolds : Holds args vals n vs env) :
    ∀ (refs : List Ref) (xs : List V),
      refs.mapM (Ref.value vals vs) = some xs →
        (refs.map (Ref.id args n)).mapM env = some xs := by
  intro refs
  induction refs with
  | nil =>
      intro xs hXs
      simpa using hXs
  | cons r rs ih =>
      intro xs hXs
      simp only [List.mapM_cons, bind, pure,
        Option.bind_eq_some_iff] at hXs
      rcases hXs with ⟨v, hV, ws, hWs, hCons⟩
      have hHead := hHolds.ref hV
      have hTail := ih ws hWs
      simp only [List.map_cons, List.mapM_cons, bind, pure,
        hHead, hTail, Option.bind_some]
      exact hCons

/- Defining the next id keeps what the environment holds. -/
theorem Holds.push
    {env : Env V}
    (hHolds : Holds args vals n vs env)
    (v : V) :
    Holds args vals n (vs ++ [v])
      (Function.update env (n + vs.length) (some v)) := by
  refine ⟨?_, ?_⟩
  · intro i w hW
    rcases hHolds.arg i w hW with ⟨hBelow, hArg⟩
    refine ⟨hBelow, ?_⟩
    rw [Function.update_of_ne (by omega)]
    exact hArg
  · intro i hI
    rw [List.length_append, List.length_singleton] at hI
    by_cases hLast : i = vs.length
    · subst hLast
      simp
    · have hOld : i < vs.length := by omega
      rw [Function.update_of_ne (by omega),
        hHolds.line i hOld, List.getElem?_append_left hOld]

/-
  Placed code runs to an environment that holds the values of
  its lines and leaves smaller ids alone.
-/
theorem exec_place
    {env : Env V}
    (hHolds : Holds args vals n vs env)
    (hK : vs.length = k)
    (hValues : values sem vals vs ls = some vs') :
    ∃ env', exec sem env (place args n k ls) = some env' ∧
      Holds args vals n vs' env' ∧
      ∀ x < n, env' x = env x := by
  induction ls generalizing k vs env with
  | nil =>
      simp only [values, Option.some.injEq] at hValues
      subst hValues
      exact ⟨env, rfl, hHolds, fun _ _ => rfl⟩
  | cons l ls ih =>
      simp only [values, bind, Option.bind_eq_some_iff]
        at hValues
      rcases hValues with ⟨xs, hXs, v, hV, hRest⟩
      have hPush := hHolds.push v
      rw [hK] at hPush
      have hLength : (vs ++ [v]).length = k + 1 := by
        rw [List.length_append, hK]
        rfl
      rcases ih hPush hLength hRest with
        ⟨env', hExec, hHolds', hBelow⟩
      refine ⟨env', ?_, hHolds', ?_⟩
      · have hOperands := hHolds.refs l.refs xs hXs
        simp only [place, exec, execLine, hOperands, hV,
          bind, pure, Option.bind_some]
        exact hExec
      · intro x hX
        rw [hBelow x hX, Function.update_of_ne (by omega)]

end StraightLine
