import Mathlib.Data.List.Basic
import Mathlib.Logic.Function.Basic
import M1Switch.Library.EventRun

/-
  Waiting for several kernel objects, without a timeout.

  A waiter registers its condition variable with its objects,
  looks at their flags and blocks.  A signaler sets a flag and
  then notifies the registered variables.  It does not take
  the waiter's mutex, so it may notify a waiter that has looked
  at the flag and is about to block.

  Key definitions include:
    * `WaiterPhase`
    * `SignalerPhase`

  Main results:
    * `WaitSystem.Inv.step`
    * `WaitSystem.not_lostWakeup`
-/

------
-- Waiters and Signalers
------

namespace M1Switch

/-
  The loops in which a waiter looks at its objects: before it
  registers, once under its mutex, as the predicate of the
  wait, and behind the wait.
-/
inductive Check where
  | probe
  | first
  | predicate
  | last
deriving DecidableEq

/-
  Where a waiter is in its call.  A loop over objects has some
  of them behind it and the rest ahead.
-/
inductive WaiterPhase (O : Type) where
  | idle
  | checking (check : Check) (done rest : List O)
  | registering (done rest : List O)
  | blocked (objects : List O)
  | leaving (found : Bool) (done rest : List O)
  | returned (found : Bool)
deriving DecidableEq

namespace WaiterPhase

variable {O : Type}

/- The objects that have the waiter on their lists. -/
def watched : WaiterPhase O → List O
  | .registering done _ => done
  | .checking .probe _ _ => []
  | .checking _ done rest => done ++ rest
  | .blocked objects => objects
  | _ => []

/- The objects its predicate has found unsignaled, while it
is not blocked yet. -/
def looked : WaiterPhase O → List O
  | .checking .predicate done _ => done
  | _ => []

/- The objects it does not look at before it sleeps. -/
def passed : WaiterPhase O → List O
  | .checking .predicate done _ => done
  | .blocked objects => objects
  | _ => []

theorem mem_watched_of_passed
    {p : WaiterPhase O}
    {o : O}
    (hPassed : o ∈ p.passed) :
    o ∈ p.watched := by
  cases p with
  | checking check done rest =>
      cases check with
      | predicate => exact List.mem_append_left rest hPassed
      | _ => cases hPassed
  | blocked objects => exact hPassed
  | _ => cases hPassed

/- Behind a check that came to a signaled object. -/
def found (check : Check) (objects : List O) : WaiterPhase O :=
  match check with
  | .probe => .returned true
  | .first => .leaving true [] objects
  | .predicate => .checking .last [] objects
  | .last => .leaving true [] objects

/- Behind a check that came to none. -/
def notFound
    (check : Check)
    (objects : List O) : WaiterPhase O :=
  match check with
  | .probe => .registering [] objects
  | .first => .checking .predicate [] objects
  | .predicate => .blocked objects
  | .last => .leaving false [] objects

theorem mem_watched_of_found
    {check : Check}
    {done rest : List O}
    {o : O}
    (hMem : o ∈ (found check (done ++ rest)).watched) :
    o ∈ (checking check done rest).watched := by
  cases check with
  | predicate => exact hMem
  | _ => cases hMem

theorem passed_found
    (check : Check)
    (objects : List O) :
    (found check objects).passed = [] := by
  cases check <;> rfl

theorem mem_watched_of_notFound
    {check : Check}
    {done : List O}
    {o : O}
    (hMem : o ∈ (notFound check done).watched) :
    o ∈ (checking check done []).watched := by
  cases check with
  | first => exact List.mem_append_left [] hMem
  | predicate => exact List.mem_append_left [] hMem
  | _ => cases hMem

theorem passed_notFound
    (check : Check)
    (done : List O) :
    (notFound check done).passed =
      (checking check done []).passed := by
  cases check <;> rfl

/- A look at one more object. -/
theorem watched_look
    (check : Check)
    (done rest : List O)
    (o : O) :
    (checking check (done ++ [o]) rest).watched =
      (checking check done (o :: rest)).watched := by
  cases check <;> simp [watched]

theorem mem_passed_of_look
    {check : Check}
    {done rest : List O}
    {o x : O}
    (hMem : x ∈ (checking check (done ++ [o]) rest).passed) :
    x = o ∨ x ∈ (checking check done (o :: rest)).passed := by
  cases check with
  | predicate =>
      rcases List.mem_append.mp hMem with hOld | hNew
      · exact Or.inr hOld
      · exact Or.inl (List.mem_singleton.mp hNew)
  | _ => cases hMem

/- A notified waiter evaluates its predicate again. -/
def woken : WaiterPhase O → WaiterPhase O
  | .blocked objects => .checking .predicate [] objects
  | p => p

/- A waiter that is notified looks at everything again. -/
theorem watched_woken (p : WaiterPhase O) :
    p.woken.watched = p.watched := by
  cases p <;> rfl

theorem passed_woken (p : WaiterPhase O) :
    p.woken.passed = p.looked := by
  cases p with
  | checking check done rest => cases check <;> rfl
  | _ => rfl

theorem looked_subset_passed (p : WaiterPhase O) :
    p.looked ⊆ p.passed := by
  cases p with
  | checking check done rest =>
      cases check with
      | predicate => exact List.Subset.refl done
      | _ => exact List.nil_subset _
  | _ => exact List.nil_subset _

end WaiterPhase

/-
  Where a signaler is: before it sets a flag, before it takes
  the lock of the object's list, or inside with waiters still
  to be notified.  Other objects may have to be signaled after.
-/
inductive SignalerPhase (O W : Type) where
  | idle
  | setting (o : O) (later : List O)
  | notifying (o : O) (later : List O)
  | inside (o : O) (rest : List W) (later : List O)
deriving DecidableEq

namespace SignalerPhase

variable {O W : Type}

/- The objects are signaled one by one. -/
def start : List O → SignalerPhase O W
  | [] => .idle
  | o :: later => .setting o later

/- The waiter is going to be notified for the object. -/
def Notifies
    (waiters : O → List W)
    (o : O)
    (w : W) : SignalerPhase O W → Prop
  | .notifying o' _ => o' = o ∧ w ∈ waiters o
  | .inside o' rest _ => o' = o ∧ w ∈ rest
  | _ => False

end SignalerPhase

------
-- The System
------

/-
  The flags and waiter lists of objects, who holds the lock of
  a list, and where the threads are.
-/
structure WaitSystem (O W S : Type) where
  signaled : O → Bool
  waiters : O → List W := fun _ => []
  holder : O → Option S := fun _ => none
  waiter : W → WaiterPhase O := fun _ => .idle
  signaler : S → SignalerPhase O W := fun _ => .idle

inductive WaitStep (O W S : Type) where
  | waitSynchronization (w : W) (objects : List O)
  | advance (w : W)
  | signal (s : S) (event : O)
  | markFinished (s : S) (thread : O) (wakeEvent : Option O)
  | proceed (s : S)
  | clear (o : O)
deriving DecidableEq

namespace WaitSystem

variable {O W S : Type}
variable [DecidableEq O] [DecidableEq W] [DecidableEq S]

def setWaiter
    (sys : WaitSystem O W S)
    (w : W)
    (p : WaiterPhase O) : WaitSystem O W S :=
  { sys with waiter := Function.update sys.waiter w p }

def setSignaler
    (sys : WaitSystem O W S)
    (s : S)
    (p : SignalerPhase O W) : WaitSystem O W S :=
  { sys with signaler := Function.update sys.signaler s p }

def setFlag
    (sys : WaitSystem O W S)
    (o : O)
    (flag : Bool) : WaitSystem O W S :=
  { sys with signaled := Function.update sys.signaled o flag }

def setWaiters
    (sys : WaitSystem O W S)
    (o : O)
    (ws : List W) : WaitSystem O W S :=
  { sys with waiters := Function.update sys.waiters o ws }

def setHolder
    (sys : WaitSystem O W S)
    (o : O)
    (s : Option S) : WaitSystem O W S :=
  { sys with holder := Function.update sys.holder o s }

/- The next step of a waiter; nothing while it has to wait. -/
def advance
    (sys : WaitSystem O W S)
    (w : W) : WaitSystem O W S :=
  match sys.waiter w with
  | .checking check done (o :: rest) =>
      if sys.signaled o then
        sys.setWaiter w (.found check (done ++ o :: rest))
      else
        sys.setWaiter w (.checking check (done ++ [o]) rest)
  | .checking check done [] =>
      sys.setWaiter w (.notFound check done)
  | .registering done (o :: rest) =>
      if sys.holder o = none then
        (sys.setWaiters o (sys.waiters o ++ [w])).setWaiter w
          (.registering (done ++ [o]) rest)
      else sys
  | .registering done [] =>
      sys.setWaiter w (.checking .first [] done)
  | .leaving found done (o :: rest) =>
      if sys.holder o = none then
        (sys.setWaiters o
          ((sys.waiters o).filter fun v => v ≠ w)).setWaiter w
          (.leaving found (done ++ [o]) rest)
      else sys
  | .leaving found _ [] => sys.setWaiter w (.returned found)
  | _ => sys

/- The next step of a signaler. -/
def proceed
    (sys : WaitSystem O W S)
    (s : S) : WaitSystem O W S :=
  match sys.signaler s with
  | .idle => sys
  | .setting o later =>
      (sys.setFlag o true).setSignaler s (.notifying o later)
  | .notifying o later =>
      if sys.holder o = none then
        (sys.setHolder o (some s)).setSignaler s
          (.inside o (sys.waiters o) later)
      else sys
  | .inside o (w :: rest) later =>
      (sys.setWaiter w (sys.waiter w).woken).setSignaler s
        (.inside o rest later)
  | .inside o [] later =>
      (sys.setHolder o none).setSignaler s (.start later)

/- A thread that is in a call does not begin another. -/
def beginWait
    (sys : WaitSystem O W S)
    (w : W)
    (objects : List O) : WaitSystem O W S :=
  match sys.waiter w with
  | .idle | .returned _ =>
      sys.setWaiter w (.checking .probe [] objects)
  | _ => sys

def beginSignal
    (sys : WaitSystem O W S)
    (s : S)
    (objects : List O) : WaitSystem O W S :=
  match sys.signaler s with
  | .idle => sys.setSignaler s (.start objects)
  | _ => sys

/- A thread that ends also signals its wake event. -/
def step
    (sys : WaitSystem O W S) :
    WaitStep O W S → WaitSystem O W S
  | .waitSynchronization w objects => sys.beginWait w objects
  | .advance w => sys.advance w
  | .signal s event => sys.beginSignal s [event]
  | .markFinished s thread wakeEvent =>
      sys.beginSignal s (thread :: wakeEvent.toList)
  | .proceed s => sys.proceed s
  | .clear o => sys.setFlag o false

/- Somebody is about to notify the waiter for the object. -/
def Pending
    (sys : WaitSystem O W S)
    (o : O)
    (w : W) : Prop :=
  ∃ s, (sys.signaler s).Notifies sys.waiters o w

/- A waiter sleeps although one of its objects is signaled,
and nobody will wake it for that. -/
def LostWakeup (sys : WaitSystem O W S) : Prop :=
  ∃ w objects o,
    sys.waiter w = .blocked objects ∧ o ∈ objects ∧
      sys.signaled o = true ∧ ¬ sys.Pending o w

/-
  The step notifies a waiter between its look at the object,
  which is signaled by now, and its going to sleep.
-/
def Misses
    (sys : WaitSystem O W S) : WaitStep O W S → Prop
  | .proceed s =>
      match sys.signaler s with
      | .inside o (w :: _) _ =>
          o ∈ (sys.waiter w).looked ∧ sys.signaled o = true
      | _ => False
  | _ => False

instance
    (sys : WaitSystem O W S)
    (e : WaitStep O W S) :
    Decidable (sys.Misses e) := by
  unfold Misses
  split
  · split <;> infer_instance
  · infer_instance

end WaitSystem

------
-- What Every Step Keeps
------

namespace WaitSystem

variable {O W S : Type}
variable [DecidableEq O] [DecidableEq W] [DecidableEq S]
variable {sys sys' : WaitSystem O W S}
variable {o : O} {w : W} {s : S}

/-
  Waiters are on the lists of the objects they watch, and if an
  object is signaled that a waiter will not look at again, the
  waiter will be notified.
-/
structure Inv (sys : WaitSystem O W S) : Prop where
  registered :
    ∀ w, ∀ o ∈ (sys.waiter w).watched, w ∈ sys.waiters o
  noticed :
    ∀ w, ∀ o ∈ (sys.waiter w).passed,
      sys.signaled o = true → sys.Pending o w

omit [DecidableEq O] [DecidableEq S] in
@[simp] theorem waiter_setWaiter_self
    (p : WaiterPhase O) :
    (sys.setWaiter w p).waiter w = p := by
  simp [setWaiter]

omit [DecidableEq O] [DecidableEq S] in
theorem waiter_setWaiter_of_ne
    {v : W}
    (p : WaiterPhase O)
    (hNe : v ≠ w) :
    (sys.setWaiter w p).waiter v = sys.waiter v := by
  simp [setWaiter, hNe]

/- What is pending stays so where nobody is taken off. -/
omit [DecidableEq O] [DecidableEq W] [DecidableEq S] in
theorem Pending.of_waiters
    (hPending : sys.Pending o w)
    (hSignaler : sys'.signaler = sys.signaler)
    (hWaiters : w ∈ sys.waiters o → w ∈ sys'.waiters o) :
    sys'.Pending o w := by
  rcases hPending with ⟨s, hNotifies⟩
  refine ⟨s, ?_⟩
  rw [hSignaler]
  cases hPhase : sys.signaler s with
  | notifying o' later =>
      rw [hPhase] at hNotifies
      exact ⟨hNotifies.1, hWaiters hNotifies.2⟩
  | inside o' rest later =>
      rw [hPhase] at hNotifies
      exact hNotifies
  | _ =>
      rw [hPhase] at hNotifies
      cases hNotifies

/- A signaler moves on and still notifies whom it has to. -/
omit [DecidableEq O] [DecidableEq W] in
theorem Pending.setSignaler
    {p : SignalerPhase O W}
    (hPending : sys.Pending o w)
    (hMoved :
      (sys.signaler s).Notifies sys.waiters o w →
        p.Notifies sys.waiters o w) :
    (sys.setSignaler s p).Pending o w := by
  rcases hPending with ⟨t, hNotifies⟩
  refine ⟨t, ?_⟩
  by_cases hSame : t = s
  · subst hSame
    simpa [WaitSystem.setSignaler] using hMoved hNotifies
  · simpa [WaitSystem.setSignaler, hSame] using hNotifies

/- One waiter moves to a phase that is in order. -/
omit [DecidableEq O] [DecidableEq S] in
theorem Inv.setWaiter
    {p : WaiterPhase O}
    (hInv : sys.Inv)
    (hWatched : ∀ o ∈ p.watched, w ∈ sys.waiters o)
    (hPassed :
      ∀ o ∈ p.passed, sys.signaled o = true →
        sys.Pending o w) :
    (sys.setWaiter w p).Inv := by
  constructor
  · intro v o hMem
    by_cases hSame : v = w
    · subst hSame
      rw [waiter_setWaiter_self] at hMem
      exact hWatched o hMem
    · rw [waiter_setWaiter_of_ne p hSame] at hMem
      exact hInv.registered v o hMem
  · intro v o hMem hSignaled
    by_cases hSame : v = w
    · subst hSame
      rw [waiter_setWaiter_self] at hMem
      exact hPassed o hMem hSignaled
    · rw [waiter_setWaiter_of_ne p hSame] at hMem
      exact hInv.noticed v o hMem hSignaled

/- The list of an object changes, but not for the others. -/
omit [DecidableEq S] in
theorem Inv.setWaiters
    {ws : List W}
    (hInv : sys.Inv)
    (hIdle : o ∈ (sys.waiter w).watched → w ∈ ws)
    (hOthers : ∀ v, v ≠ w → v ∈ sys.waiters o → v ∈ ws) :
    (sys.setWaiters o ws).Inv := by
  have hKept :
      ∀ v o', o' ∈ (sys.waiter v).watched →
        v ∈ (sys.setWaiters o ws).waiters o' := by
    intro v o' hMem
    have hOld := hInv.registered v o' hMem
    by_cases hObject : o' = o
    · subst hObject
      by_cases hSame : v = w
      · subst hSame
        simpa [WaitSystem.setWaiters] using hIdle hMem
      · simpa [WaitSystem.setWaiters] using
          hOthers v hSame hOld
    · simpa [WaitSystem.setWaiters, hObject] using hOld
  constructor
  · exact hKept
  · intro v o' hMem hSignaled
    have hPending := hInv.noticed v o' hMem hSignaled
    exact hPending.of_waiters rfl fun _ =>
      hKept v o' (WaiterPhase.mem_watched_of_passed hMem)

omit [DecidableEq O] [DecidableEq W] in
theorem Inv.setSignaler
    {p : SignalerPhase O W}
    (hInv : sys.Inv)
    (hMoved :
      ∀ w o, o ∈ (sys.waiter w).passed →
        sys.signaled o = true →
          (sys.signaler s).Notifies sys.waiters o w →
            p.Notifies sys.waiters o w) :
    (sys.setSignaler s p).Inv := by
  constructor
  · exact hInv.registered
  · intro v x hMem hSignaled
    exact
      (hInv.noticed v x hMem hSignaled).setSignaler
        (hMoved v x hMem hSignaled)

/- Flags that go down are missed by nobody. -/
omit [DecidableEq W] [DecidableEq S] in
theorem Inv.clear
    (hInv : sys.Inv)
    (o : O) :
    (sys.setFlag o false).Inv := by
  constructor
  · exact hInv.registered
  · intro v o' hMem hSignaled
    by_cases hSame : o' = o
    · simp [setFlag, hSame] at hSignaled
    · apply hInv.noticed v o' hMem
      simpa [setFlag, hSame] using hSignaled

/- A waiter passes only what it found unsignaled. -/
omit [DecidableEq O] [DecidableEq S] in
theorem Inv.look
    {check : Check}
    {done rest : List O}
    (hInv : sys.Inv)
    (hPhase : sys.waiter w = .checking check done (o :: rest))
    (hUnset : ¬ sys.signaled o = true) :
    (sys.setWaiter w
      (.checking check (done ++ [o]) rest)).Inv := by
  have hRegistered := hInv.registered w
  have hNoticed := hInv.noticed w
  rw [hPhase] at hRegistered hNoticed
  apply hInv.setWaiter
  · rw [WaiterPhase.watched_look]
    exact hRegistered
  · intro x hMem hSignaled
    rcases WaiterPhase.mem_passed_of_look hMem with
      rfl | hOld
    · exact absurd hSignaled hUnset
    · exact hNoticed x hOld hSignaled

/- It puts itself on one more list. -/
omit [DecidableEq S] in
theorem Inv.register
    {done rest : List O}
    (hInv : sys.Inv)
    (hPhase : sys.waiter w = .registering done (o :: rest)) :
    ((sys.setWaiters o (sys.waiters o ++ [w])).setWaiter w
      (.registering (done ++ [o]) rest)).Inv := by
  have hAdded :
      (sys.setWaiters o (sys.waiters o ++ [w])).Inv := by
    apply hInv.setWaiters
    · intro _
      exact List.mem_append_right _ List.mem_cons_self
    · intro v _ hOld
      exact List.mem_append_left _ hOld
  apply hAdded.setWaiter
  · intro x hMem
    rcases List.mem_append.mp hMem with hOld | hNew
    · apply hAdded.registered w x
      show x ∈ (sys.waiter w).watched
      rw [hPhase]
      exact hOld
    · rw [List.mem_singleton.mp hNew]
      simp [WaitSystem.setWaiters]
  · intro x hMem
    cases hMem

/- It takes itself off a list, when it watches no object. -/
omit [DecidableEq S] in
theorem Inv.leave
    {found : Bool}
    {done rest : List O}
    (hInv : sys.Inv)
    (hPhase : sys.waiter w = .leaving found done (o :: rest)) :
    ((sys.setWaiters o
        ((sys.waiters o).filter fun v => v ≠ w)).setWaiter w
      (.leaving found (done ++ [o]) rest)).Inv := by
  have hRemoved :
      (sys.setWaiters o
        ((sys.waiters o).filter fun v => v ≠ w)).Inv := by
    apply hInv.setWaiters
    · rw [hPhase]
      intro hMem
      cases hMem
    · intro v hNe hOld
      simpa using ⟨hOld, hNe⟩
  apply hRemoved.setWaiter
  · intro x hMem
    cases hMem
  · intro x hMem
    cases hMem

/- Whatever a waiter does next keeps the invariant. -/
omit [DecidableEq S] in
theorem Inv.advance
    (hInv : sys.Inv)
    (w : W) :
    (sys.advance w).Inv := by
  have hRegistered := hInv.registered w
  have hNoticed := hInv.noticed w
  unfold WaitSystem.advance
  cases hPhase : sys.waiter w with
  | idle => exact hInv
  | blocked objects => exact hInv
  | returned found => exact hInv
  | checking check done rest =>
      rw [hPhase] at hRegistered hNoticed
      cases rest with
      | nil =>
          apply hInv.setWaiter
          · intro o hMem
            exact hRegistered o
              (WaiterPhase.mem_watched_of_notFound hMem)
          · rw [WaiterPhase.passed_notFound]
            exact hNoticed
      | cons o rest =>
          show Inv (if _ then _ else _)
          split
          · apply hInv.setWaiter
            · intro x hMem
              exact hRegistered x
                (WaiterPhase.mem_watched_of_found hMem)
            · rw [WaiterPhase.passed_found]
              intro x hMem
              cases hMem
          next hUnset => exact hInv.look hPhase hUnset
  | registering done rest =>
      rw [hPhase] at hRegistered
      cases rest with
      | nil =>
          apply hInv.setWaiter
          · exact hRegistered
          · intro o hMem
            cases hMem
      | cons o rest =>
          show Inv (if _ then _ else _)
          split
          · exact hInv.register hPhase
          · exact hInv
  | leaving found done rest =>
      cases rest with
      | nil =>
          apply hInv.setWaiter
          · intro o hMem
            cases hMem
          · intro o hMem
            cases hMem
      | cons o rest =>
          show Inv (if _ then _ else _)
          split
          · exact hInv.leave hPhase
          · exact hInv

/- A set flag is announced to everybody on the list. -/
omit [DecidableEq W] in
theorem Inv.set
    {later : List O}
    (hInv : sys.Inv)
    (hPhase : sys.signaler s = .setting o later) :
    ((sys.setFlag o true).setSignaler s
      (.notifying o later)).Inv := by
  constructor
  · exact hInv.registered
  · intro v x hMem hSignaled
    by_cases hSame : x = o
    · refine ⟨s, ?_⟩
      subst hSame
      have hListed : v ∈ sys.waiters x :=
        hInv.registered v x
          (WaiterPhase.mem_watched_of_passed hMem)
      simpa [WaitSystem.setSignaler, setFlag,
        SignalerPhase.Notifies] using hListed
    · have hBefore : sys.signaled x = true := by
        simpa [WaitSystem.setSignaler, setFlag,
          hSame] using hSignaled
      have hPending := hInv.noticed v x hMem hBefore
      have hFlag : (sys.setFlag o true).Pending x v :=
        hPending
      apply hFlag.setSignaler
      intro hNotifies
      have hNone :
          (SignalerPhase.setting o later).Notifies
            sys.waiters x v := by
        rw [← hPhase]
        exact hNotifies
      cases hNone

/- A waiter notified on time has not passed the object. -/
omit [DecidableEq O] in
theorem Inv.notify
    {rest : List W}
    {later : List O}
    (hInv : sys.Inv)
    (hPhase : sys.signaler s = .inside o (w :: rest) later)
    (hAwake :
      ¬ (o ∈ (sys.waiter w).looked ∧ sys.signaled o = true)) :
    ((sys.setWaiter w (sys.waiter w).woken).setSignaler s
      (.inside o rest later)).Inv := by
  have hWoken :
      (sys.setWaiter w (sys.waiter w).woken).Inv := by
    apply hInv.setWaiter
    · rw [WaiterPhase.watched_woken]
      exact hInv.registered w
    · rw [WaiterPhase.passed_woken]
      intro x hMem
      exact hInv.noticed w x
        (WaiterPhase.looked_subset_passed _ hMem)
  apply hWoken.setSignaler
  intro v x hMem hSignaled hNotifies
  have hFor : o = x ∧ v ∈ w :: rest := by
    have hOld :
        (sys.signaler s).Notifies sys.waiters x v :=
      hNotifies
    rw [hPhase] at hOld
    exact hOld
  refine ⟨hFor.1, ?_⟩
  rcases List.mem_cons.mp hFor.2 with rfl | hRest
  · rw [waiter_setWaiter_self, WaiterPhase.passed_woken,
      ← hFor.1] at hMem
    rw [← hFor.1] at hSignaled
    exact absurd ⟨hMem, hSignaled⟩ hAwake
  · exact hRest

theorem Inv.proceed
    (hInv : sys.Inv)
    (hAdmitted : ¬ sys.Misses (.proceed s)) :
    (sys.proceed s).Inv := by
  unfold WaitSystem.proceed
  cases hPhase : sys.signaler s with
  | idle => exact hInv
  | setting o later => exact hInv.set hPhase
  | notifying o later =>
      show Inv (if _ then _ else _)
      split
      · have hHeld : (sys.setHolder o (some s)).Inv :=
          ⟨hInv.registered, hInv.noticed⟩
        apply hHeld.setSignaler
        intro v x _ _ hNotifies
        have hOld :
            (sys.signaler s).Notifies sys.waiters x v :=
          hNotifies
        rw [hPhase] at hOld
        rcases hOld with ⟨rfl, hMem⟩
        exact ⟨rfl, hMem⟩
      · exact hInv
  | inside o rest later =>
      cases rest with
      | nil =>
          have hFreed : (sys.setHolder o none).Inv :=
            ⟨hInv.registered, hInv.noticed⟩
          apply hFreed.setSignaler
          intro v x _ _ hNotifies
          have hOld :
              (sys.signaler s).Notifies sys.waiters x v :=
            hNotifies
          rw [hPhase] at hOld
          cases hOld.2
      | cons w rest =>
          apply hInv.notify hPhase
          simpa only [Misses, hPhase] using hAdmitted

/- Calls begin with nothing looked at and nothing pending. -/
omit [DecidableEq O] [DecidableEq S] in
theorem Inv.beginWait
    (hInv : sys.Inv)
    (w : W)
    (objects : List O) :
    (sys.beginWait w objects).Inv := by
  have hProbe :
      (sys.setWaiter w (.checking .probe [] objects)).Inv := by
    apply hInv.setWaiter
    · intro o hMem
      cases hMem
    · intro o hMem
      cases hMem
  unfold WaitSystem.beginWait
  cases sys.waiter w with
  | idle => exact hProbe
  | returned found => exact hProbe
  | _ => exact hInv

omit [DecidableEq O] [DecidableEq W] in
theorem Inv.beginSignal
    (hInv : sys.Inv)
    (s : S)
    (objects : List O) :
    (sys.beginSignal s objects).Inv := by
  unfold WaitSystem.beginSignal
  cases hPhase : sys.signaler s with
  | idle =>
      apply hInv.setSignaler
      intro v x _ _ hNotifies
      rw [hPhase] at hNotifies
      cases hNotifies
  | _ => exact hInv

theorem Inv.step
    (hInv : sys.Inv)
    (e : WaitStep O W S)
    (hAdmitted : ¬ sys.Misses e) :
    (sys.step e).Inv := by
  cases e with
  | waitSynchronization w objects =>
      exact hInv.beginWait w objects
  | advance w => exact hInv.advance w
  | signal s event => exact hInv.beginSignal s [event]
  | markFinished s thread wakeEvent =>
      exact hInv.beginSignal s (thread :: wakeEvent.toList)
  | proceed s => exact hInv.proceed hAdmitted
  | clear o => exact hInv.clear o

/- A waiter with a signaled object is on its way to be
notified. -/
omit [DecidableEq O] [DecidableEq W] [DecidableEq S] in
theorem Inv.not_lostWakeup
    (hInv : sys.Inv) :
    ¬ sys.LostWakeup := by
  rintro ⟨w, objects, o, hBlocked, hMem, hSignaled, hNone⟩
  apply hNone
  apply hInv.noticed w o _ hSignaled
  rw [hBlocked]
  exact hMem

------
-- Runs
------

/- Nobody waits or signals yet. -/
def quiet (signaled : O → Bool) : WaitSystem O W S :=
  { signaled := signaled }

/-
  No wakeup is lost in a run that notifies no waiter between
  its look at a signaled object and its going to sleep.
-/
theorem not_lostWakeup_of_admitted
    (signaled : O → Bool)
    (steps : List (WaitStep O W S))
    (hAdmitted :
      EventRun.Guarded step (fun sys e => ¬ sys.Misses e)
        (quiet signaled) steps) :
    ∀ before, before <+: steps →
      ¬ (EventRun.stateAfter step (quiet signaled)
        before).LostWakeup := by
  intro before hPrefix
  have hInv :
      (EventRun.stateAfter step (quiet signaled)
        before : WaitSystem O W S).Inv := by
    apply EventRun.Guarded.invariant
      (I := fun _ sys => sys.Inv) _ _
      (hAdmitted.of_isPrefix hPrefix)
    · constructor
      · intro w o hMem
        cases hMem
      · intro w o hMem
        cases hMem
    · intro _ e hBefore hStep
      exact hBefore.step e hStep
  exact hInv.not_lostWakeup

/- One waiter for one event: it probes, registers, and looks
at the flag twice. -/
def waiterSteps : List (WaitStep Unit Unit Unit) :=
  [.waitSynchronization () [()], .advance (), .advance (),
    .advance (), .advance (), .advance (), .advance (),
    .advance ()]

/- The event is signaled, and its one waiter notified. -/
def signalerSteps : List (WaitStep Unit Unit Unit) :=
  [.signal () (), .proceed (), .proceed (), .proceed (),
    .proceed ()]

/- The waiter sleeps before the event is signaled. -/
theorem sleeperNotified_not_lostWakeup :
    ¬ (EventRun.stateAfter step (quiet fun _ => false)
      (waiterSteps ++ [.advance ()] ++
        signalerSteps)).LostWakeup :=
  not_lostWakeup_of_admitted (fun _ => false) _ (by decide) _
    (List.prefix_refl _)

/- The waiter goes to sleep behind the notification. -/
theorem lateSleeper_lostWakeup :
    ¬ ∀ steps : List (WaitStep Unit Unit Unit),
      ¬ (EventRun.stateAfter step (quiet fun _ => false)
        steps).LostWakeup := by
  intro hNever
  apply hNever (waiterSteps ++ signalerSteps ++ [.advance ()])
  refine ⟨(), [()], (), rfl, List.mem_cons_self, rfl, ?_⟩
  rintro ⟨s, hNotifies⟩
  exact hNotifies

end WaitSystem

end M1Switch
