import Mathlib.Data.List.Nodup
import Mathlib.Logic.Function.Basic
import M1Switch.Kernel.Kernel
import M1Switch.Library.EventRun

/-
  The life of kernel objects.

  Closing a handle deletes its object.  Others may still have
  it: another handle, a call that waits for it, or the host
  thread that was started for it.  Objects get one handle when
  they are made, except for the shared memory of the input
  service, which gets a new handle with every request.

  Key definitions include:
    * `KernelState`
    * `KernelState.step`

  Main results:
    * `KernelState.Inv.step`
    * `KernelState.deletesSafely_iff`
    * `KernelState.objectLifetimes_iff`
-/

------
-- Threads and Their References
------

namespace M1Switch

/- The address of a kernel object. -/
abbrev ObjectRef := Nat

/- An object, and the handle by which it was looked up. -/
abbrev ObjectUse := U32 × ObjectRef

/- A call that waits: what it has collected, and the handles
it has still to look up. -/
inductive WaitCall where
  | idle
  | inside (collected : List ObjectUse) (rest : List U32)
deriving DecidableEq

namespace WaitCall

def collected : WaitCall → List ObjectUse
  | .idle => []
  | .inside collected _ => collected

end WaitCall

/- A call that starts a thread: it looks the thread up, sees
that it was not started, and starts it. -/
inductive StartCall where
  | idle
  | looked (thread : ObjectUse)
  | unstarted (thread : ObjectUse)
deriving DecidableEq

namespace StartCall

def threads : StartCall → List ObjectUse
  | .idle => []
  | .looked thread => [thread]
  | .unstarted thread => [thread]

end StartCall

/-
  The objects made and deleted so far, the calls of guest
  threads, and the host threads that have not called
  `MarkFinished`.
-/
structure KernelState (T : Type) where
  table : KHandleTable ObjectRef
  allocated : Nat
  type : ObjectRef → KObjectType
  started : ObjectRef → Bool := fun _ => false
  deleted : List ObjectRef := []
  waits : T → WaitCall := fun _ => .idle
  starts : T → StartCall := fun _ => .idle
  hosts : List ObjectUse := []

inductive KernelStep (T : Type) where
  | createEvent
  | createThread
  | startThread (t : T) (handle : U32)
  | continueStart (t : T)
  | markFinished (host : ObjectUse)
  | exitThread (host : ObjectUse)
  | waitSynchronization (t : T) (handles : List U32)
  | collect (t : T)
  | returnWait (t : T)
  | closeHandle (handle : U32)
  | getSharedMemoryHandle
deriving DecidableEq

namespace KernelState

variable {T : Type} [DecidableEq T]

/- The shared memory of the input service. -/
def hidShmem : ObjectRef := 0

/- The input service has made its object and a handle. -/
def boot : KernelState T :=
  { table := (KHandleTable.create {} hidShmem).2
    allocated := 1
    type := fun _ => .SharedMemory }

/- Make an object, and a handle for it. -/
def enter
    (st : KernelState T)
    (type : KObjectType) : KernelState T :=
  { st with
    table := (st.table.create st.allocated).2
    allocated := st.allocated + 1
    type := Function.update st.type st.allocated type }

def asThread
    (st : KernelState T)
    (o : ObjectRef) : Option ObjectRef :=
  if st.type o = .Thread then some o else none

def startThread
    (st : KernelState T)
    (t : T)
    (handle : U32) : KernelState T :=
  match st.starts t, st.table.getAs st.asThread handle with
  | .idle, some o =>
      { st with
        starts :=
          Function.update st.starts t (.looked (handle, o)) }
  | _, _ => st

def continueStart
    (st : KernelState T)
    (t : T) : KernelState T :=
  match st.starts t with
  | .idle => st
  | .looked thread =>
      { st with
        starts :=
          Function.update st.starts t
            (if st.started thread.2 then .idle
              else .unstarted thread) }
  | .unstarted thread =>
      { st with
        started := Function.update st.started thread.2 true
        starts := Function.update st.starts t .idle
        hosts := thread :: st.hosts }

/- Handles that are answered without any object. -/
def isFake (handle : U32) : Bool :=
  handle = 0xE0000001 ∨ handle = 0

def waitSynchronization
    (st : KernelState T)
    (t : T)
    (handles : List U32) : KernelState T :=
  match st.waits t with
  | .idle =>
      if handles = [] ∨ handles.any isFake then st
      else
        { st with
          waits :=
            Function.update st.waits t (.inside [] handles) }
  | _ => st

/- Look up the next handle; unknown ones are skipped. -/
def collect
    (st : KernelState T)
    (t : T) : KernelState T :=
  match st.waits t with
  | .inside collected (handle :: rest) =>
      { st with
        waits :=
          Function.update st.waits t
            (.inside
              (collected ++
                (st.table.get handle).toList.map
                  fun o => (handle, o))
              rest) }
  | _ => st

/- A call returns once it has looked up its handles. -/
def returnWait
    (st : KernelState T)
    (t : T) : KernelState T :=
  match st.waits t with
  | .inside _ [] =>
      { st with waits := Function.update st.waits t .idle }
  | _ => st

def closeHandle
    (st : KernelState T)
    (handle : U32) : KernelState T :=
  { st with
    table := (st.table.close handle).2
    deleted := st.deleted ++ (st.table.close handle).1.toList }

/-
  A host thread calls `MarkFinished` on the object it was
  started for when it returns, and on what its handle stands
  for when the guest ends it.
-/
def step (st : KernelState T) : KernelStep T → KernelState T
  | .createEvent => st.enter .Event
  | .createThread => st.enter .Thread
  | .startThread t handle => st.startThread t handle
  | .continueStart t => st.continueStart t
  | .markFinished host =>
      { st with hosts := st.hosts.erase host }
  | .exitThread host =>
      if st.table.getAs st.asThread host.1 = some host.2 then
        { st with hosts := st.hosts.erase host }
      else st
  | .waitSynchronization t handles =>
      st.waitSynchronization t handles
  | .collect t => st.collect t
  | .returnWait t => st.returnWait t
  | .closeHandle handle => st.closeHandle handle
  | .getSharedMemoryHandle =>
      { st with table := (st.table.create hidShmem).2 }

/-
  If the step deletes an object, it was not deleted before, no
  other handle stands for it, no call that waits has collected
  it, and no host thread for it is still to finish.
-/
def DeletesSafely
    (st : KernelState T) : KernelStep T → Prop
  | .closeHandle handle =>
      ∀ o, st.table.get handle = some o →
        o ∉ st.deleted ∧
          (∀ h, h ≠ handle → st.table.get h ≠ some o) ∧
          (∀ t, ∀ use ∈ (st.waits t).collected, use.2 ≠ o) ∧
          (∀ host ∈ st.hosts, host.2 ≠ o)
  | _ => True

/-
  A handle is not closed while a call waits that looked it up,
  or while the thread started by it runs.  The handle of the
  shared memory is closed once at most, as the last one and
  while nobody waits for that memory.
-/
def Admits
    (st : KernelState T) : KernelStep T → Prop
  | .closeHandle handle =>
      ∀ o, st.table.get handle = some o →
        (∀ t, (handle, o) ∉ (st.waits t).collected) ∧
          (handle, o) ∉ st.hosts ∧
          (o = hidShmem →
            hidShmem ∉ st.deleted ∧
              (∀ h, h ≠ handle →
                st.table.get h ≠ some hidShmem) ∧
              ∀ t, ∀ use ∈ (st.waits t).collected,
                use.2 ≠ hidShmem)
  | _ => True

end KernelState

------
-- What Every Step Keeps
------

namespace KernelState

variable {T : Type} {st st' : KernelState T} {h : U32}
variable {o : ObjectRef}

/- A thread is going to be started, or runs. -/
def Runs (st : KernelState T) (use : ObjectUse) : Prop :=
  use ∈ st.hosts ∨ ∃ t, use ∈ (st.starts t).threads

/- The object is used by the handle in some call. -/
def Uses (st : KernelState T) (use : ObjectUse) : Prop :=
  st.Runs use ∨ ∃ t, use ∈ (st.waits t).collected

/-
  An object that is not the shared memory has one handle at
  most, by which it was looked up wherever it is used, and it
  is not deleted while it has that handle.
-/
structure Inv (st : KernelState T) : Prop where
  known : hidShmem < st.allocated
  kind : st.type hidShmem ≠ .Thread
  made : ∀ h o, st.table.get h = some o → o < st.allocated
  single :
    ∀ h h' o, o ≠ hidShmem → st.table.get h = some o →
      st.table.get h' = some o → h' = h
  live :
    ∀ h o, o ≠ hidShmem → st.table.get h = some o →
      o ∉ st.deleted
  past : ∀ o ∈ st.deleted, o < st.allocated
  once : st.deleted.Nodup
  used :
    ∀ use, st.Uses use → use.2 < st.allocated ∧
      (use.2 ≠ hidShmem →
        ∀ h, st.table.get h = some use.2 → h = use.1)
  threads : ∀ use, st.Runs use → use.2 ≠ hidShmem

theorem inv_boot : (boot : KernelState T).Inv := by
  have hGet :
      ∀ h o, (boot : KernelState T).table.get h = some o →
        o = hidShmem := by
    intro h o hSome
    unfold boot at hSome
    rw [KHandleTable.get_create] at hSome
    split at hSome
    · exact (Option.some.inj hSome).symm
    · cases hSome
  have hNoRuns :
      ∀ use, ¬ (boot : KernelState T).Runs use := by
    rintro use (hMem | ⟨t, hMem⟩) <;> cases hMem
  have hNoUses :
      ∀ use, ¬ (boot : KernelState T).Uses use := by
    rintro use (hRuns | ⟨t, hMem⟩)
    · exact hNoRuns use hRuns
    · cases hMem
  constructor
  · exact Nat.one_pos
  · exact fun hKind => nomatch hKind
  · intro h o hSome
    rw [hGet h o hSome]
    exact Nat.one_pos
  · intro h h' o hOther hSome
    exact absurd (hGet h o hSome) hOther
  · intro h o hOther hSome
    exact absurd (hGet h o hSome) hOther
  · intro o hMem
    cases hMem
  · exact List.nodup_nil
  · intro use hUses
    exact absurd hUses (hNoUses use)
  · intro use hRuns
    exact absurd hRuns (hNoRuns use)

/- A new object is nowhere yet. -/
theorem Inv.enter
    (hInv : st.Inv)
    (type : KObjectType) :
    (st.enter type).Inv := by
  have hGet :
      ∀ h o, (st.enter type).table.get h = some o →
        o = st.allocated ∧ h = st.table.nextHandle ∨
          st.table.get h = some o := by
    intro h o hSome
    have hCreate := hSome
    unfold KernelState.enter at hCreate
    rw [KHandleTable.get_create] at hCreate
    split at hCreate
    next hNew =>
      exact Or.inl ⟨(Option.some.inj hCreate).symm, hNew⟩
    next => exact Or.inr hCreate
  constructor
  · exact Nat.lt_succ_of_lt hInv.known
  · have hOld : hidShmem ≠ st.allocated :=
      Nat.ne_of_lt hInv.known
    show Function.update st.type st.allocated type
      hidShmem ≠ .Thread
    rw [Function.update_of_ne hOld]
    exact hInv.kind
  · intro h o hSome
    rcases hGet h o hSome with ⟨rfl, -⟩ | hOld
    · exact Nat.lt_succ_self _
    · exact Nat.lt_succ_of_lt (hInv.made h o hOld)
  · intro h h' o hOther hSome hSome'
    rcases hGet h o hSome with ⟨hNew, hH⟩ | hOld
    · rcases hGet h' o hSome' with ⟨-, hH'⟩ | hOld'
      · rw [hH, hH']
      · exact absurd hNew
          (Nat.ne_of_lt (hInv.made h' o hOld'))
    · rcases hGet h' o hSome' with ⟨hNew', -⟩ | hOld'
      · exact absurd hNew'
          (Nat.ne_of_lt (hInv.made h o hOld))
      · exact hInv.single h h' o hOther hOld hOld'
  · intro h o hOther hSome hMem
    rcases hGet h o hSome with ⟨rfl, -⟩ | hOld
    · exact Nat.lt_irrefl _ (hInv.past _ hMem)
    · exact hInv.live h o hOther hOld hMem
  · intro o hMem
    exact Nat.lt_succ_of_lt (hInv.past o hMem)
  · exact hInv.once
  · intro use hUses
    rcases hInv.used use hUses with ⟨hLess, hHandle⟩
    refine ⟨Nat.lt_succ_of_lt hLess, ?_⟩
    intro hOther h hSome
    rcases hGet h use.2 hSome with ⟨hNew, -⟩ | hOld
    · exact absurd hNew (Nat.ne_of_lt hLess)
    · exact hHandle hOther h hOld
  · exact hInv.threads

/- Another handle of the shared memory. -/
theorem Inv.share
    (hInv : st.Inv) :
    ({ st with
        table := (st.table.create hidShmem).2 } :
      KernelState T).Inv := by
  have hGet :
      ∀ h o, (st.table.create hidShmem).2.get h = some o →
        o = hidShmem ∨ st.table.get h = some o := by
    intro h o hSome
    rw [KHandleTable.get_create] at hSome
    split at hSome
    · exact Or.inl (Option.some.inj hSome).symm
    · exact Or.inr hSome
  have hKept :
      ∀ h o, o ≠ hidShmem →
        (st.table.create hidShmem).2.get h = some o →
          st.table.get h = some o := by
    intro h o hOther hSome
    exact (hGet h o hSome).resolve_left hOther
  constructor
  · exact hInv.known
  · exact hInv.kind
  · intro h o hSome
    rcases hGet h o hSome with rfl | hOld
    · exact hInv.known
    · exact hInv.made h o hOld
  · intro h h' o hOther hSome hSome'
    exact hInv.single h h' o hOther (hKept h o hOther hSome)
      (hKept h' o hOther hSome')
  · intro h o hOther hSome
    exact hInv.live h o hOther (hKept h o hOther hSome)
  · exact hInv.past
  · exact hInv.once
  · intro use hUses
    rcases hInv.used use hUses with ⟨hLess, hHandle⟩
    refine ⟨hLess, ?_⟩
    intro hOther h hSome
    exact hHandle hOther h (hKept h use.2 hOther hSome)
  · exact hInv.threads

/- A handle goes, and an object that was not deleted yet. -/
theorem Inv.closeHandle
    (hInv : st.Inv)
    (hShmem :
      st.table.get h = some hidShmem →
        hidShmem ∉ st.deleted) :
    (st.closeHandle h).Inv := by
  have hKept :
      ∀ h' o, (st.closeHandle h).table.get h' = some o →
        h' ≠ h ∧ st.table.get h' = some o := by
    intro h' o hSome
    have hClose := hSome
    unfold KernelState.closeHandle at hClose
    rw [KHandleTable.get_close] at hClose
    split at hClose
    · cases hClose
    next hNe => exact ⟨hNe, hClose⟩
  have hDeleted :
      ∀ o, o ∈ (st.closeHandle h).deleted →
        o ∈ st.deleted ∨ st.table.get h = some o := by
    intro o hMem
    rcases List.mem_append.mp hMem with hOld | hNew
    · exact Or.inl hOld
    · exact Or.inr (Option.mem_toList.mp hNew)
  constructor
  · exact hInv.known
  · exact hInv.kind
  · intro h' o hSome
    exact hInv.made h' o (hKept h' o hSome).2
  · intro h₁ h₂ o hOther hSome₁ hSome₂
    exact hInv.single h₁ h₂ o hOther (hKept h₁ o hSome₁).2
      (hKept h₂ o hSome₂).2
  · intro h' o hOther hSome hMem
    rcases hKept h' o hSome with ⟨hNe, hOld⟩
    rcases hDeleted o hMem with hBefore | hNow
    · exact hInv.live h' o hOther hOld hBefore
    · exact hNe (hInv.single h h' o hOther hNow hOld)
  · intro o hMem
    rcases hDeleted o hMem with hBefore | hNow
    · exact hInv.past o hBefore
    · exact hInv.made h o hNow
  · show (st.deleted ++ (st.table.get h).toList).Nodup
    cases hSome : st.table.get h with
    | none =>
        rw [Option.toList_none, List.append_nil]
        exact hInv.once
    | some o =>
        have hFresh : o ∉ st.deleted := by
          by_cases hSame : o = hidShmem
          · rw [hSame] at hSome ⊢
            exact hShmem hSome
          · exact hInv.live h o hSame hSome
        rw [Option.toList_some]
        exact List.nodup_append.mpr
          ⟨hInv.once, List.nodup_singleton o, by
            rintro x hX y hY rfl
            rw [List.mem_singleton.mp hY] at hX
            exact hFresh hX⟩
  · intro use hUses
    rcases hInv.used use hUses with ⟨hLess, hHandle⟩
    refine ⟨hLess, ?_⟩
    intro hOther h' hSome
    exact hHandle hOther h' (hKept h' use.2 hSome).2
  · exact hInv.threads

/- Calls move on, and use what they have looked up. -/
theorem Inv.of_uses
    (hInv : st.Inv)
    (hTable : st'.table = st.table)
    (hAllocated : st'.allocated = st.allocated)
    (hType : st'.type = st.type)
    (hDeleted : st'.deleted = st.deleted)
    (hUses :
      ∀ use, st'.Uses use → st.Uses use ∨
        st.table.get use.1 = some use.2)
    (hRuns :
      ∀ use, st'.Runs use → st.Runs use ∨
        st.type use.2 = .Thread) :
    st'.Inv := by
  constructor
  · rw [hAllocated]
    exact hInv.known
  · rw [hType]
    exact hInv.kind
  · rw [hTable, hAllocated]
    exact hInv.made
  · rw [hTable]
    exact hInv.single
  · rw [hTable, hDeleted]
    exact hInv.live
  · rw [hDeleted, hAllocated]
    exact hInv.past
  · rw [hDeleted]
    exact hInv.once
  · intro use hUse
    rw [hTable, hAllocated]
    rcases hUses use hUse with hOld | hSome
    · exact hInv.used use hOld
    · refine ⟨hInv.made _ _ hSome, ?_⟩
      intro hOther h hSome'
      exact hInv.single use.1 h use.2 hOther hSome hSome'
  · intro use hRun
    rcases hRuns use hRun with hOld | hThread
    · exact hInv.threads use hOld
    · intro hSame
      rw [hSame] at hThread
      exact hInv.kind hThread

end KernelState

------
-- Calls
------

namespace KernelState

variable {T : Type} [DecidableEq T] {st : KernelState T}
variable {h : U32} {o : ObjectRef}

/- A thread that was found under its handle. -/
omit [DecidableEq T] in
theorem getAs_asThread
    (hSome : st.table.getAs st.asThread h = some o) :
    st.table.get h = some o ∧ st.type o = .Thread := by
  rcases Option.bind_eq_some_iff.mp hSome with ⟨o', hGet, hCast⟩
  unfold asThread at hCast
  split at hCast
  next hThread =>
    cases hCast
    exact ⟨hGet, hThread⟩
  next => cases hCast

/- What is in a changed list of calls. -/
theorem mem_threads_update
    {t t' : T}
    {call : StartCall}
    {use : ObjectUse}
    (hMem :
      use ∈ (Function.update st.starts t call t').threads) :
    use ∈ call.threads ∨ use ∈ (st.starts t').threads := by
  by_cases hSame : t' = t
  · subst hSame
    rw [Function.update_self] at hMem
    exact Or.inl hMem
  · rw [Function.update_of_ne hSame] at hMem
    exact Or.inr hMem

theorem mem_collected_update
    {t t' : T}
    {call : WaitCall}
    {use : ObjectUse}
    (hMem :
      use ∈ (Function.update st.waits t call t').collected) :
    use ∈ call.collected ∨ use ∈ (st.waits t').collected := by
  by_cases hSame : t' = t
  · subst hSame
    rw [Function.update_self] at hMem
    exact Or.inl hMem
  · rw [Function.update_of_ne hSame] at hMem
    exact Or.inr hMem

/- One call to start a thread moves on. -/
theorem Inv.setStart
    {t : T}
    {call : StartCall}
    (hInv : st.Inv)
    (hCall :
      ∀ use ∈ call.threads, st.Runs use ∨
        st.table.get use.1 = some use.2 ∧
          st.type use.2 = .Thread) :
    ({ st with
        starts := Function.update st.starts t call } :
      KernelState T).Inv := by
  have hRuns :
      ∀ use,
        ({ st with
            starts := Function.update st.starts t call } :
          KernelState T).Runs use →
        st.Runs use ∨ st.table.get use.1 = some use.2 ∧
          st.type use.2 = .Thread := by
    rintro use (hHost | ⟨t', hMem⟩)
    · exact Or.inl (Or.inl hHost)
    · rcases mem_threads_update hMem with hNew | hOld
      · exact hCall use hNew
      · exact Or.inl (Or.inr ⟨t', hOld⟩)
  refine hInv.of_uses rfl rfl rfl rfl ?_ ?_
  · rintro use (hRun | hCollected)
    · rcases hRuns use hRun with hOld | ⟨hSome, -⟩
      · exact Or.inl (Or.inl hOld)
      · exact Or.inr hSome
    · exact Or.inl (Or.inr hCollected)
  · intro use hRun
    rcases hRuns use hRun with hOld | ⟨-, hThread⟩
    · exact Or.inl hOld
    · exact Or.inr hThread

/- One call that waits moves on. -/
theorem Inv.setWait
    {t : T}
    {call : WaitCall}
    (hInv : st.Inv)
    (hCall :
      ∀ use ∈ call.collected,
        use ∈ (st.waits t).collected ∨
          st.table.get use.1 = some use.2) :
    ({ st with
        waits := Function.update st.waits t call } :
      KernelState T).Inv := by
  refine hInv.of_uses rfl rfl rfl rfl ?_ ?_
  · rintro use (hRun | ⟨t', hMem⟩)
    · exact Or.inl (Or.inl hRun)
    · rcases mem_collected_update hMem with hNew | hOld
      · rcases hCall use hNew with hBefore | hSome
        · exact Or.inl (Or.inr ⟨t, hBefore⟩)
        · exact Or.inr hSome
      · exact Or.inl (Or.inr ⟨t', hOld⟩)
  · intro use hRun
    exact Or.inl hRun

/- Host threads end. -/
omit [DecidableEq T] in
theorem Inv.setHosts
    {hosts : List ObjectUse}
    (hInv : st.Inv)
    (hHosts : ∀ use ∈ hosts, st.Runs use) :
    ({ st with hosts := hosts } : KernelState T).Inv := by
  have hRuns :
      ∀ use,
        ({ st with hosts := hosts } :
          KernelState T).Runs use →
        st.Runs use := by
    rintro use (hHost | hStart)
    · exact hHosts use hHost
    · exact Or.inr hStart
  refine hInv.of_uses rfl rfl rfl rfl ?_ ?_
  · rintro use (hRun | hCollected)
    · exact Or.inl (Or.inl (hRuns use hRun))
    · exact Or.inl (Or.inr hCollected)
  · intro use hRun
    exact Or.inl (hRuns use hRun)

theorem Inv.startThread
    (hInv : st.Inv)
    (t : T)
    (handle : U32) :
    (st.startThread t handle).Inv := by
  unfold KernelState.startThread
  split
  next o _ hThread =>
    apply hInv.setStart
    intro use hMem
    rw [List.mem_singleton.mp hMem]
    exact Or.inr (getAs_asThread hThread)
  next => exact hInv

theorem Inv.continueStart
    (hInv : st.Inv)
    (t : T) :
    (st.continueStart t).Inv := by
  unfold KernelState.continueStart
  cases hCall : st.starts t with
  | idle => exact hInv
  | looked thread =>
      have hRuns : st.Runs thread := by
        refine Or.inr ⟨t, ?_⟩
        rw [hCall]
        exact List.mem_cons_self
      apply hInv.setStart
      intro use hMem
      split at hMem
      · cases hMem
      · rw [List.mem_singleton.mp hMem]
        exact Or.inl hRuns
  | unstarted thread =>
      have hRuns : st.Runs thread := by
        refine Or.inr ⟨t, ?_⟩
        rw [hCall]
        exact List.mem_cons_self
      have hHosts :
          ({ st with hosts := thread :: st.hosts } :
            KernelState T).Inv := by
        apply hInv.setHosts
        intro use hMem
        rcases List.mem_cons.mp hMem with rfl | hOld
        · exact hRuns
        · exact Or.inl hOld
      have hStarted :
          ({ st with
              hosts := thread :: st.hosts
              starts := Function.update st.starts t .idle } :
            KernelState T).Inv := by
        apply hHosts.setStart
        intro use hMem
        cases hMem
      refine hStarted.of_uses rfl rfl rfl rfl ?_ ?_
      · intro use hUses
        exact Or.inl hUses
      · intro use hRun
        exact Or.inl hRun

theorem Inv.waitSynchronization
    (hInv : st.Inv)
    (t : T)
    (handles : List U32) :
    (st.waitSynchronization t handles).Inv := by
  unfold KernelState.waitSynchronization
  cases st.waits t with
  | idle =>
      show Inv (if _ then _ else _)
      split
      · exact hInv
      · apply hInv.setWait
        intro use hMem
        cases hMem
  | inside collected rest => exact hInv

theorem Inv.collect
    (hInv : st.Inv)
    (t : T) :
    (st.collect t).Inv := by
  unfold KernelState.collect
  split
  next collected handle rest hCall =>
    apply hInv.setWait
    intro use hMem
    rcases List.mem_append.mp hMem with hOld | hNew
    · rw [hCall]
      exact Or.inl hOld
    · rcases List.mem_map.mp hNew with ⟨o, hSome, rfl⟩
      exact Or.inr (Option.mem_toList.mp hSome)
  next => exact hInv

theorem Inv.returnWait
    (hInv : st.Inv)
    (t : T) :
    (st.returnWait t).Inv := by
  unfold KernelState.returnWait
  split
  · apply hInv.setWait
    intro use hMem
    cases hMem
  · exact hInv

/- The end of a host thread. -/
omit [DecidableEq T] in
theorem Inv.eraseHost
    (hInv : st.Inv)
    (host : ObjectUse) :
    ({ st with hosts := st.hosts.erase host } :
      KernelState T).Inv := by
  apply hInv.setHosts
  intro use hMem
  exact Or.inl (List.mem_of_mem_erase hMem)

theorem Inv.step
    (hInv : st.Inv)
    (e : KernelStep T)
    (hAdmits : st.Admits e) :
    (st.step e).Inv := by
  cases e with
  | createEvent => exact hInv.enter .Event
  | createThread => exact hInv.enter .Thread
  | startThread t handle => exact hInv.startThread t handle
  | continueStart t => exact hInv.continueStart t
  | markFinished host => exact hInv.eraseHost host
  | exitThread host =>
      show Inv (if _ then _ else _)
      split
      · exact hInv.eraseHost host
      · exact hInv
  | waitSynchronization t handles =>
      exact hInv.waitSynchronization t handles
  | collect t => exact hInv.collect t
  | returnWait t => exact hInv.returnWait t
  | closeHandle handle =>
      apply hInv.closeHandle
      intro hSome
      exact ((hAdmits hidShmem hSome).2.2 rfl).1
  | getSharedMemoryHandle => exact hInv.share

/- In such a state the condition is what safety takes. -/
omit [DecidableEq T] in
theorem deletesSafely_iff
    (hInv : st.Inv)
    (e : KernelStep T) :
    st.DeletesSafely e ↔ st.Admits e := by
  cases e with
  | closeHandle handle =>
      constructor
      · intro hSafe o hSome
        rcases hSafe o hSome with
          ⟨hFirst, hOnly, hWaits, hHosts⟩
        refine ⟨?_, ?_, ?_⟩
        · intro t hMem
          exact hWaits t _ hMem rfl
        · intro hMem
          exact hHosts _ hMem rfl
        · rintro rfl
          exact ⟨hFirst, hOnly, hWaits⟩
      · intro hAdmits o hSome
        rcases hAdmits o hSome with ⟨hWaits, hHosts, hShmem⟩
        by_cases hSame : o = hidShmem
        · subst hSame
          rcases hShmem rfl with ⟨hFirst, hOnly, hFree⟩
          refine ⟨hFirst, hOnly, hFree, ?_⟩
          intro host hMem
          exact hInv.threads host (Or.inl hMem)
        · refine ⟨hInv.live handle o hSame hSome, ?_, ?_, ?_⟩
          · intro h hNe hOther
            exact hNe (hInv.single handle h o hSame hSome hOther)
          · rintro t ⟨h, o'⟩ hMem rfl
            have hUsed :=
              (hInv.used _ (Or.inr ⟨t, hMem⟩)).2 hSame handle
                hSome
            rw [hUsed] at hWaits
            exact hWaits t hMem
          · rintro ⟨h, o'⟩ hMem rfl
            have hUsed :=
              (hInv.used _ (Or.inl (Or.inl hMem))).2 hSame
                handle hSome
            rw [hUsed] at hHosts
            exact hHosts hMem
  | _ => exact Iff.rfl

------
-- Runs
------

/-
  Over a run, every deletion is safe and no object is deleted
  twice.
-/
def Lifetimes (steps : List (KernelStep T)) : Prop :=
  EventRun.Guarded step DeletesSafely boot steps ∧
    ∀ before, before <+: steps →
      (EventRun.stateAfter step boot before).deleted.Nodup

theorem inv_of_admits
    {steps : List (KernelStep T)}
    (hAdmits : EventRun.Guarded step Admits boot steps) :
    (EventRun.stateAfter step boot steps).Inv :=
  hAdmits.invariant (I := fun _ st => st.Inv) inv_boot
    fun _ e hBefore hStep => hBefore.step e hStep

theorem objectLifetimes_iff (steps : List (KernelStep T)) :
    Lifetimes steps ↔
      EventRun.Guarded step Admits boot steps := by
  have hGuards :
      EventRun.Guarded step Admits boot steps ↔
        EventRun.Guarded step DeletesSafely boot steps :=
    EventRun.guarded_congr (I := fun st => st.Inv)
      (fun _ e hInv hAdmits => hInv.step e hAdmits)
      (fun _ e hInv => (deletesSafely_iff hInv e).symm)
      inv_boot
  constructor
  · rintro ⟨hSafe, -⟩
    exact hGuards.mpr hSafe
  · intro hAdmits
    refine ⟨hGuards.mp hAdmits, ?_⟩
    intro before hPrefix
    exact (inv_of_admits (hAdmits.of_isPrefix hPrefix)).once

/- The memory gets a second handle, which is closed. -/
theorem sharedMemory_not_lifetimes :
    ¬ Lifetimes
      ([.getSharedMemoryHandle, .closeHandle 0xD002] :
        List (KernelStep Unit)) := by
  rintro ⟨hSafe, -⟩
  have hClose :=
    hSafe [.getSharedMemoryHandle] (.closeHandle 0xD002)
      (List.prefix_refl _)
  exact (hClose hidShmem rfl).2.1 0xD001 (by decide) rfl

end KernelState

end M1Switch
