import Mathlib.Data.Fintype.Pi
import M1Switch.Services.Vi.Protocol

/-
  The order in which frames are shown.

  Frames are numbered as they are queued.  The queue keeps no
  order: the consumer is given the queued slot with the lowest
  number, and so is the display.  Frames come out in the order
  they went in as long as the first slot that waits when one
  is acquired has the oldest frame.

  Key definitions include:
    * `Presentation`
    * `Presentation.step`

  Main results:
    * `Presentation.Inv.step`
    * `Presentation.presents_of_inv`
    * `Presentation.presents_of_admitted`
-/

------
-- Frames
------

namespace M1Switch

/-
  The queue, with the number of the last frame in each slot,
  how many frames were queued, which were acquired, and which
  slots the producer and the consumer have been handed.
-/
structure Presentation where
  vi : Vi
  frame : Fin 3 → Nat := fun _ => 0
  queued : Nat := 0
  shown : List Nat := []
  producer : Fin 3 → Bool := fun _ => false
  consumer : Fin 3 → Bool := fun _ => false

namespace Presentation

def boot (hasMemory : Bool) : Presentation :=
  { vi := Vi.init hasMemory {} }

/- The state of a slot. -/
def stateOf (p : Presentation) (i : Fin 3) : SlotState :=
  (p.vi.slots i).state

/- The producer has a slot. -/
def dequeue
    (p : Presentation)
    (slot : Option (Fin 3)) : Presentation :=
  match slot with
  | some i =>
      { p with
        producer := Function.update p.producer i true }
  | none => p

/- A frame is in the slot, and the producer has it no more. -/
def queue
    (p : Presentation)
    (slot : Option (Fin 3)) : Presentation :=
  match slot with
  | some i =>
      { p with
        frame := Function.update p.frame i p.queued
        queued := p.queued + 1
        producer := Function.update p.producer i false }
  | none => p

def cancel
    (p : Presentation)
    (slot : Option (Fin 3)) : Presentation :=
  match slot with
  | some i =>
      { p with
        producer := Function.update p.producer i false }
  | none => p

/- The frame in the slot is the consumer's. -/
def acquire
    (p : Presentation)
    (slot : Option (Fin 3)) : Presentation :=
  match slot with
  | some i =>
      { p with
        shown := p.shown ++ [p.frame i]
        consumer := Function.update p.consumer i true }
  | none => p

def release
    (p : Presentation)
    (slot : Option (Fin 3)) : Presentation :=
  match slot with
  | some i =>
      { p with
        consumer := Function.update p.consumer i false }
  | none => p

/- Both parties know of the queue what it replies. -/
def step
    (p : Presentation)
    (call : ServiceCall) : Presentation :=
  let reply := (p.vi.handleCommand call).2
  let next := { p with vi := p.vi.after call }
  match call.cmdId.toNat with
  | 100 => next.dequeue (Vi.handed reply)
  | 101 => next.queue (Vi.slotOf call.firstU32)
  | 102 => next.cancel (Vi.slotOf call.firstU32)
  | 110 => next.acquire (Vi.handed reply)
  | 111 => next.release (Vi.slotOf call.firstU32)
  | _ => next

/- The producer queues what it dequeued, and the consumer
releases what it acquired. -/
def Disciplined
    (p : Presentation)
    (call : ServiceCall) : Prop :=
  match call.cmdId.toNat with
  | 101 =>
      ∀ i, Vi.slotOf call.firstU32 = some i →
        p.producer i = true
  | 111 =>
      ∀ i, Vi.slotOf call.firstU32 = some i →
        p.consumer i = true
  | _ => True

/- The frames shown are the first ones queued, in order, and
the others are still waiting. -/
structure InOrder (p : Presentation) : Prop where
  first : p.shown = List.range p.shown.length
  waiting :
    ∀ n, p.shown.length ≤ n → n < p.queued →
      ∃ i, p.stateOf i = .QUEUED ∧ p.frame i = n

/-
  Frames are shown in order, a frame that waits is given to a
  consumer with room for the output, and a frame is displayed
  when it is queued, unless one is acquired.
-/
structure Presents
    (p : Presentation)
    (call : ServiceCall) : Prop where
  order : (p.step call).InOrder
  acquires :
    call.cmdId.toNat = 110 → 28 ≤ call.outMax →
      p.shown.length < p.queued →
        (p.step call).shown.length = p.shown.length + 1
  displays :
    call.cmdId.toNat = 101 →
      ∀ i, Vi.slotOf call.firstU32 = some i →
        (∀ j, (p.step call).stateOf j ≠ .ACQUIRED) →
          (p.step call).vi.getCurrentFramebuffer =
            ((p.step call).vi.slots i).gpuAddress

/-
  No queued slot is taken by force, cancelled or released.  A
  frame goes into a slot in front of those that wait, unless a
  slot is acquired.  Where a frame waits there is room for the
  output of an acquire, and the first slot that waits has the
  frame that was queued first.
-/
def Admits
    (p : Presentation)
    (call : ServiceCall) : Prop :=
  match call.cmdId.toNat with
  | 100 =>
      (∀ i, p.stateOf i ≠ .FREE ∧ p.stateOf i ≠ .ACQUIRED) →
        p.stateOf (Fin.ofNat 3 p.vi.nextDequeueSlot) ≠ .QUEUED
  | 101 =>
      ∀ i, Vi.slotOf call.firstU32 = some i →
        (∀ j, j ≠ i → p.stateOf j ≠ .ACQUIRED) →
          ∀ j, j < i → p.stateOf j ≠ .QUEUED
  | 102 =>
      ∀ i, Vi.slotOf call.firstU32 = some i →
        p.stateOf i ≠ .QUEUED
  | 110 =>
      ∀ i, p.stateOf i = .QUEUED →
        (∀ j, j < i → p.stateOf j ≠ .QUEUED) →
          28 ≤ call.outMax ∧
            ∀ j, p.stateOf j = .QUEUED → p.frame i ≤ p.frame j
  | 111 =>
      ∀ i, Vi.slotOf call.firstU32 = some i →
        p.stateOf i ≠ .QUEUED
  | _ => True

------
-- Queued Slots
------

/- A slot that does not wait is one more of them. -/
theorem filter_insert :
    ∀ (waits : Fin 3 → Bool) (i : Fin 3),
      waits i = false →
        ((List.finRange 3).filter fun j =>
          waits j || j == i).Perm
          ((List.finRange 3).filter waits ++ [i]) := by
  decide

/- The first slot that waits, and those behind it. -/
theorem filter_eq_cons :
    ∀ (waits : Fin 3 → Bool) (i : Fin 3),
      (List.finRange 3).find? waits = some i →
        (List.finRange 3).filter waits =
          i :: (List.finRange 3).filter fun j =>
            waits j && j != i := by
  decide

/- The slot that is found is the first one that waits. -/
theorem find?_first_iff :
    ∀ (waits : Fin 3 → Bool) (i : Fin 3),
      (List.finRange 3).find? waits = some i ↔
        waits i = true ∧ ∀ j, j < i → waits j = false := by
  decide

/- Whether a slot waits. -/
def waits (p : Presentation) (i : Fin 3) : Bool :=
  p.stateOf i = .QUEUED

/- The frames that wait, in the order of their slots. -/
def pending (p : Presentation) : List Nat :=
  ((List.finRange 3).filter p.waits).map p.frame

/- The frames shown are the first ones, those that wait are
the others, and no slot the producer has waits. -/
structure Inv (p : Presentation) : Prop where
  first : p.shown = List.range p.shown.length
  frames :
    (p.shown ++ p.pending).Perm (List.range p.queued)
  owned : ∀ i, p.producer i = true → p.waits i = false

variable {p p' : Presentation} {call : ServiceCall}

/- What does not touch frames that wait keeps them. -/
theorem Inv.of_same
    (hInv : p.Inv)
    (hShown : p'.shown = p.shown)
    (hQueued : p'.queued = p.queued)
    (hFrame : p'.frame = p.frame)
    (hWaits : p'.waits = p.waits)
    (hOwned :
      ∀ i, p'.producer i = true →
        p.producer i = true ∨ p'.waits i = false) :
    p'.Inv := by
  constructor
  · rw [hShown]
    exact hInv.first
  · unfold pending
    rw [hShown, hQueued, hFrame, hWaits]
    exact hInv.frames
  · intro i hHas
    rcases hOwned i hHas with hHad | hNot
    · rw [hWaits]
      exact hInv.owned i hHad
    · exact hNot

/- A frame waits if it was queued and not shown. -/
theorem Inv.mem_pending_iff
    (hInv : p.Inv)
    (n : Nat) :
    n ∈ p.pending ↔ p.shown.length ≤ n ∧ n < p.queued := by
  have hMem := hInv.frames.mem_iff (a := n)
  have hOnce :
      (p.shown ++ p.pending).Nodup :=
    hInv.frames.nodup_iff.mpr List.nodup_range
  have hShown : n ∈ p.shown ↔ n < p.shown.length := by
    rw [hInv.first, List.mem_range, List.length_range]
  rw [List.mem_append, List.mem_range] at hMem
  constructor
  · intro hPending
    have hNot : n ∉ p.shown := fun hIn =>
      (List.nodup_append.mp hOnce).2.2 n hIn n hPending rfl
    rw [hShown] at hNot
    exact ⟨by omega, hMem.mp (Or.inr hPending)⟩
  · rintro ⟨hLater, hQueued⟩
    rcases hMem.mpr hQueued with hIn | hPending
    · rw [hShown] at hIn
      omega
    · exact hPending

theorem Inv.inOrder (hInv : p.Inv) : p.InOrder := by
  constructor
  · exact hInv.first
  · intro n hLe hLt
    have hMem := (hInv.mem_pending_iff n).mpr ⟨hLe, hLt⟩
    rcases List.mem_map.mp hMem with ⟨i, hI, hFrame⟩
    have hWaits := (List.mem_filter.mp hI).2
    exact ⟨i, of_decide_eq_true hWaits, hFrame⟩

/- The oldest frame that waits is the next to be shown. -/
theorem Inv.frame_oldest
    (hInv : p.Inv)
    {i : Fin 3}
    (hState : p.stateOf i = .QUEUED)
    (hOldest :
      ∀ j, p.stateOf j = .QUEUED → p.frame i ≤ p.frame j) :
    p.frame i = p.shown.length := by
  have hMem : p.frame i ∈ p.pending :=
    List.mem_map_of_mem
      (List.mem_filter.mpr
        ⟨List.mem_finRange i, decide_eq_true hState⟩)
  rcases (hInv.mem_pending_iff _).mp hMem with ⟨hLe, hLt⟩
  rcases hInv.inOrder.waiting p.shown.length (Nat.le_refl _)
    (by omega) with ⟨j, hJ, hFrame⟩
  have hFirst := hOldest j hJ
  omega

------
-- What Admitted Commands Keep
------

variable {i : Fin 3}

/- The slots that wait when one slot is changed. -/
theorem waits_update
    {slot : Slot}
    (hSlots :
      p'.vi.slots = Function.update p.vi.slots i slot)
    (j : Fin 3) :
    p'.waits j =
      if j = i then decide (slot.state = .QUEUED)
      else p.waits j := by
  unfold waits stateOf
  rw [hSlots]
  by_cases hJ : j = i
  · subst hJ
    simp
  · simp [hJ]

theorem waits_same
    {slot : Slot}
    (hSlots :
      p'.vi.slots = Function.update p.vi.slots i slot)
    (hBefore : p.stateOf i ≠ .QUEUED)
    (hAfter : slot.state ≠ .QUEUED) :
    p'.waits = p.waits := by
  funext j
  rw [waits_update hSlots]
  split
  · next hJ =>
      subst hJ
      simp [waits, hBefore, hAfter]
  · rfl

theorem Inv.dequeue
    (hInv : p.Inv)
    (hCmd : call.cmdId.toNat = 100)
    (hCall :
      p.vi.handleCommand call = p.vi.handleDequeueBuffer call)
    (hAdmits : p.Admits call) :
    (p.step call).Inv := by
  simp only [Admits, hCmd] at hAdmits
  have hTaken : p.stateOf p.vi.dequeueSlot ≠ .QUEUED := by
    rcases p.vi.dequeueSlot_cases with
      hFree | hAcquired | ⟨hNext, hNone⟩
    · simp [stateOf, hFree]
    · simp [stateOf, hAcquired]
    · rw [hNext]
      exact hAdmits hNone
  have hStep :
      p.step call =
        { p with vi := (p.vi.handleDequeueBuffer call).1 }.dequeue
          (if 24 ≤ call.outMax then some p.vi.dequeueSlot
            else none) := by
    simp only [step, hCmd, Vi.after, hCall,
      Vi.handed_dequeueBuffer]
  have hSlots :
      (p.step call).vi.slots =
        Function.update p.vi.slots p.vi.dequeueSlot
          { p.vi.slots p.vi.dequeueSlot with
            state := .DEQUEUED } := by
    rw [hStep]
    split <;> rfl
  have hWaits : (p.step call).waits = p.waits :=
    waits_same hSlots hTaken (fun hState => nomatch hState)
  refine hInv.of_same ?shown ?queued ?frame hWaits ?owned
  case owned =>
    intro i hHas
    by_cases hI : i = p.vi.dequeueSlot
    · right
      rw [hWaits, hI]
      simp [waits, hTaken]
    · left
      rw [hStep] at hHas
      split at hHas
      · simpa [Presentation.dequeue, hI] using hHas
      · exact hHas
  all_goals
    rw [hStep]
    split <;> rfl

/- A command that changes no slot, and hands out none. -/
theorem Inv.of_unchanged
    (hInv : p.Inv)
    (hStep :
      p.step call = { p with vi := p.vi.after call })
    (hSlots : (p.vi.after call).slots = p.vi.slots) :
    (p.step call).Inv := by
  rw [hStep]
  apply hInv.of_same
  · rfl
  · rfl
  · rfl
  · funext i
    unfold waits stateOf
    rw [hSlots]
  · exact fun _ hHas => Or.inl hHas

theorem Inv.queue
    (hInv : p.Inv)
    (hCmd : call.cmdId.toNat = 101)
    (hCall :
      p.vi.handleCommand call = p.vi.handleQueueBuffer call)
    (hDisciplined : p.Disciplined call) :
    (p.step call).Inv := by
  simp only [Disciplined, hCmd] at hDisciplined
  have hAfter :
      p.vi.after call = (p.vi.handleQueueBuffer call).1 :=
    congrArg Prod.fst hCall
  cases hSlot : Vi.slotOf call.firstU32 with
  | none =>
      apply hInv.of_unchanged
      · simp only [step, hCmd, hSlot]
        rfl
      · rw [hAfter, Vi.slots_queueBuffer_none hSlot]
  | some i =>
      have hStep :
          p.step call =
            { p with vi := p.vi.after call }.queue (some i) := by
        simp only [step, hCmd, hSlot]
      have hSlots :
          (p.step call).vi.slots =
            Function.update p.vi.slots i
              (Vi.submitted call (p.vi.slots i)) := by
        rw [hStep]
        show (p.vi.after call).slots = _
        rw [hAfter, Vi.slots_queueBuffer hSlot]
      have hFresh := hInv.owned i (hDisciplined i hSlot)
      have hWaits :
          (p.step call).waits =
            fun j => p.waits j || j == i := by
        funext j
        rw [waits_update hSlots]
        by_cases hJ : j = i <;> simp [hJ, Vi.submitted]
      have hFrame :
          (p.step call).frame =
            Function.update p.frame i p.queued := by
        rw [hStep]
        rfl
      have hOthers :
          ((List.finRange 3).filter p.waits).map
              (Function.update p.frame i p.queued) =
            p.pending := by
        apply List.map_congr_left
        intro j hJ
        apply Function.update_of_ne
        rintro rfl
        rw [(List.mem_filter.mp hJ).2] at hFresh
        cases hFresh
      have hPending :
          (p.step call).pending.Perm
            (p.pending ++ [p.queued]) := by
        have hSlotsWait :=
          (filter_insert p.waits i hFresh).map
            (Function.update p.frame i p.queued)
        rw [List.map_append, hOthers, List.map_singleton,
          Function.update_self] at hSlotsWait
        unfold pending at hSlotsWait ⊢
        rw [hWaits, hFrame]
        exact hSlotsWait
      constructor
      · rw [hStep]
        exact hInv.first
      · have hQueued :
            (p.step call).queued = p.queued + 1 := by
          rw [hStep]
          rfl
        have hShown : (p.step call).shown = p.shown := by
          rw [hStep]
          rfl
        rw [hShown, hQueued, List.range_succ]
        refine (hPending.append_left p.shown).trans ?_
        rw [← List.append_assoc]
        exact hInv.frames.append_right [p.queued]
      · intro j hHas
        rw [hStep] at hHas
        have hHas' :
            Function.update p.producer i false j = true := hHas
        by_cases hJ : j = i
        · subst hJ
          simp at hHas'
        · rw [Function.update_of_ne hJ] at hHas'
          rw [hWaits]
          simp [hInv.owned j hHas', hJ]

/- A slot without a frame that waits may be freed. -/
theorem Inv.free
    (hInv : p.Inv)
    (hCall :
      p.vi.handleCommand call = p.vi.freeBuffer call)
    (hVi : (p.step call).vi = p.vi.after call)
    (hShown : (p.step call).shown = p.shown)
    (hQueued : (p.step call).queued = p.queued)
    (hFrame : (p.step call).frame = p.frame)
    (hOwned :
      ∀ i, (p.step call).producer i = true →
        p.producer i = true)
    (hNot :
      ∀ i, Vi.slotOf call.firstU32 = some i →
        p.stateOf i ≠ .QUEUED) :
    (p.step call).Inv := by
  have hSlots :
      (p.step call).vi.slots =
        (p.vi.freeBuffer call).1.slots := by
    rw [hVi]
    unfold Vi.after
    rw [hCall]
  apply hInv.of_same hShown hQueued hFrame
  · cases hSlot : Vi.slotOf call.firstU32 with
    | none =>
        rw [Vi.slots_freeBuffer_none hSlot] at hSlots
        funext i
        unfold waits stateOf
        rw [hSlots]
    | some i =>
        rw [Vi.slots_freeBuffer hSlot] at hSlots
        exact
          waits_same hSlots (hNot i hSlot)
            (fun hState => nomatch hState)
  · exact fun i hHas => Or.inl (hOwned i hHas)

theorem Inv.cancel
    (hInv : p.Inv)
    (hCmd : call.cmdId.toNat = 102)
    (hCall :
      p.vi.handleCommand call = p.vi.freeBuffer call)
    (hAdmits : p.Admits call) :
    (p.step call).Inv := by
  simp only [Admits, hCmd] at hAdmits
  have hStep :
      p.step call =
        { p with vi := p.vi.after call }.cancel
          (Vi.slotOf call.firstU32) := by
    simp only [step, hCmd]
  refine
    hInv.free hCall ?vi ?shown ?queued ?frame ?owned hAdmits
  case owned =>
    intro i hHas
    rw [hStep] at hHas
    unfold Presentation.cancel at hHas
    split at hHas
    · next j _ =>
        by_cases hI : i = j
        · subst hI
          simp at hHas
        · simpa [hI] using hHas
    · exact hHas
  all_goals
    rw [hStep]
    unfold Presentation.cancel
    split <;> rfl

theorem Inv.release
    (hInv : p.Inv)
    (hCmd : call.cmdId.toNat = 111)
    (hCall :
      p.vi.handleCommand call = p.vi.freeBuffer call)
    (hAdmits : p.Admits call) :
    (p.step call).Inv := by
  simp only [Admits, hCmd] at hAdmits
  have hStep :
      p.step call =
        { p with vi := p.vi.after call }.release
          (Vi.slotOf call.firstU32) := by
    simp only [step, hCmd]
  refine
    hInv.free hCall ?vi ?shown ?queued ?frame ?owned hAdmits
  case owned =>
    intro i hHas
    rw [hStep] at hHas
    unfold Presentation.release at hHas
    split at hHas <;> exact hHas
  all_goals
    rw [hStep]
    unfold Presentation.release
    split <;> rfl

/- What a consumer with room for the output is told. -/
theorem step_acquire
    (hCmd : call.cmdId.toNat = 110)
    (hCall :
      p.vi.handleCommand call = p.vi.handleAcquireBuffer call)
    (hRoom : p.vi.queuedSlot = none ∨ 28 ≤ call.outMax) :
    p.step call =
      { p with vi := p.vi.after call }.acquire
        p.vi.queuedSlot := by
  have hHanded :
      Vi.handed (p.vi.handleAcquireBuffer call).2 =
        p.vi.queuedSlot := by
    cases hQueued : p.vi.queuedSlot with
    | none =>
        unfold Vi.handleAcquireBuffer
        rw [hQueued]
        show Vi.handed (call.replyWords [0xFFFFFFFF]) = none
        rw [Vi.handed_replyWords]
        split <;> rfl
    | some i =>
        rw [hQueued] at hRoom
        have hRoom : 28 ≤ call.outMax := by simpa using hRoom
        exact Vi.handed_acquireBuffer hQueued hRoom
  simp only [step, hCmd, hCall, hHanded]

theorem Inv.acquire
    (hInv : p.Inv)
    (hCmd : call.cmdId.toNat = 110)
    (hCall :
      p.vi.handleCommand call = p.vi.handleAcquireBuffer call)
    (hAdmits : p.Admits call) :
    (p.step call).Inv := by
  simp only [Admits, hCmd] at hAdmits
  have hAfter :
      p.vi.after call = (p.vi.handleAcquireBuffer call).1 :=
    congrArg Prod.fst hCall
  cases hQueued : p.vi.queuedSlot with
  | none =>
      have hStep :=
        step_acquire hCmd hCall (Or.inl hQueued)
      rw [hQueued] at hStep
      apply hInv.of_unchanged hStep
      rw [hAfter, Vi.slots_acquireBuffer_none hQueued]
  | some i =>
      rcases (find?_first_iff p.waits i).mp hQueued with
        ⟨hWaiting, hBefore⟩
      have hState := of_decide_eq_true hWaiting
      rcases hAdmits i hState
        (fun j hJ => of_decide_eq_false (hBefore j hJ)) with
        ⟨hRoom, hOldest⟩
      have hStep := step_acquire hCmd hCall (Or.inr hRoom)
      rw [hQueued] at hStep
      have hSlots :
          (p.step call).vi.slots =
            Function.update p.vi.slots i
              { p.vi.slots i with state := .ACQUIRED } := by
        rw [hStep]
        show (p.vi.after call).slots = _
        rw [hAfter, Vi.slots_acquireBuffer hQueued]
      have hWaits :
          (p.step call).waits =
            fun j => p.waits j && j != i := by
        funext j
        rw [waits_update hSlots]
        by_cases hJ : j = i <;> simp [hJ]
      have hPending :
          p.pending = p.frame i :: (p.step call).pending := by
        unfold pending
        rw [filter_eq_cons p.waits i hQueued, List.map_cons,
          hWaits, hStep]
        rfl
      constructor
      · have hNext := hInv.frame_oldest hState hOldest
        rw [hStep]
        show p.shown ++ [p.frame i] =
          List.range (p.shown ++ [p.frame i]).length
        rw [List.length_append, List.length_singleton,
          List.range_succ, ← hInv.first, hNext]
      · have hFrames := hInv.frames
        rw [hPending, List.append_cons] at hFrames
        rw [hStep] at hFrames ⊢
        exact hFrames
      · intro j hHas
        rw [hStep] at hHas
        rw [hWaits]
        simp [hInv.owned j hHas]

/- One step of a run that is disciplined and admitted. -/
theorem Inv.step
    (hInv : p.Inv)
    (hDisciplined : p.Disciplined call)
    (hAdmits : p.Admits call) :
    (p.step call).Inv := by
  rcases p.vi.after_cases call with
    ⟨hCmd, hCall⟩ | ⟨hCmd, hCall⟩ | ⟨hCmd | hCmd, hCall⟩ |
      ⟨hCmd, hCall⟩ | ⟨-, hNone, hSlots⟩
  · exact hInv.dequeue hCmd hCall hAdmits
  · exact hInv.queue hCmd hCall hDisciplined
  · exact hInv.cancel hCmd hCall hAdmits
  · exact hInv.release hCmd hCall hAdmits
  · exact hInv.acquire hCmd hCall hAdmits
  · apply hInv.of_unchanged _ hSlots
    unfold Vi.moveOf at hNone
    unfold Presentation.step
    split at hNone <;> simp_all

------
-- Main Results
------

theorem inv_boot (hasMemory : Bool) :
    (boot hasMemory).Inv := by
  cases hasMemory with
  | false =>
      refine ⟨rfl, by decide, ?_⟩
      exact fun _ hHas => nomatch hHas
  | true =>
      refine ⟨rfl, by decide, ?_⟩
      exact fun _ hHas => nomatch hHas

/- A frame that waits is acquired. -/
theorem Inv.acquires
    (hInv : p.Inv)
    (hCmd : call.cmdId.toNat = 110)
    (hRoom : 28 ≤ call.outMax)
    (hWaits : p.shown.length < p.queued) :
    (p.step call).shown.length = p.shown.length + 1 := by
  rcases hInv.inOrder.waiting _ (Nat.le_refl _) hWaits with
    ⟨i, hState, -⟩
  have hCall :
      p.vi.handleCommand call =
        p.vi.handleAcquireBuffer call := by
    simp only [Vi.handleCommand, hCmd]
  have hStep := step_acquire hCmd hCall (Or.inr hRoom)
  cases hQueued : p.vi.queuedSlot with
  | none =>
      have hNot :=
        List.find?_eq_none.mp hQueued i (List.mem_finRange i)
      exact absurd (decide_eq_true hState) hNot
  | some j =>
      rw [hStep, hQueued]
      simp [Presentation.acquire]

/- A frame in front of those that wait is displayed. -/
theorem displays_of_admits
    (hCmd : call.cmdId.toNat = 101)
    (hAdmits : p.Admits call)
    (hSlot : Vi.slotOf call.firstU32 = some i)
    (hNone : ∀ j, (p.step call).stateOf j ≠ .ACQUIRED) :
    (p.step call).vi.getCurrentFramebuffer =
      ((p.step call).vi.slots i).gpuAddress := by
  simp only [Admits, hCmd] at hAdmits
  have hSlots :
      (p.step call).vi.slots =
        Function.update p.vi.slots i
          (Vi.submitted call (p.vi.slots i)) := by
    simp only [step, hCmd, hSlot]
    show (p.vi.after call).slots = _
    unfold Vi.after
    simp only [Vi.handleCommand, hCmd]
    exact Vi.slots_queueBuffer hSlot
  have hOthers :
      ∀ j, j ≠ i → (p.step call).stateOf j = p.stateOf j := by
    intro j hJ
    unfold stateOf
    rw [hSlots, Function.update_of_ne hJ]
  have hBefore : ∀ j, j < i → p.stateOf j ≠ .QUEUED := by
    apply hAdmits i hSlot
    intro j hJ
    rw [← hOthers j hJ]
    exact hNone j
  have hFirst :
      ((List.finRange 3).find? fun j =>
        decide ((p.step call).stateOf j = .QUEUED ∨
          (p.step call).stateOf j = .ACQUIRED)) =
        some i := by
    rw [find?_first_iff]
    constructor
    · rw [decide_eq_true_iff]
      left
      unfold stateOf
      rw [hSlots, Function.update_self]
      rfl
    · intro j hJ
      rw [decide_eq_false_iff_not, not_or]
      refine ⟨?_, hNone j⟩
      rw [hOthers j hJ.ne]
      exact hBefore j hJ
  unfold Vi.getCurrentFramebuffer
  unfold stateOf at hFirst
  rw [hFirst]

/- One command, where the invariant holds. -/
theorem presents_of_inv
    (hInv : p.Inv)
    (hDisciplined : p.Disciplined call)
    (hAdmits : p.Admits call) :
    p.Presents call := by
  constructor
  · exact (hInv.step hDisciplined hAdmits).inOrder
  · exact hInv.acquires
  · exact fun hCmd _ hSlot hNone =>
      displays_of_admits hCmd hAdmits hSlot hNone

/-
  In a run of a disciplined producer and consumer, all of whose
  commands are admitted, frames are shown in the order in which
  they were queued, each once, and displayed when queued.
-/
theorem presents_of_admitted
    (hasMemory : Bool)
    (calls : List ServiceCall)
    (hDisciplined :
      EventRun.Guarded step Disciplined (boot hasMemory) calls)
    (hAdmits :
      EventRun.Guarded step Admits (boot hasMemory) calls) :
    EventRun.Guarded step Presents (boot hasMemory) calls := by
  intro before call hBefore
  have hBoth :
      EventRun.Guarded step
        (fun p call => p.Disciplined call ∧ p.Admits call)
        (boot hasMemory) calls :=
    fun before call hBefore =>
      ⟨hDisciplined before call hBefore,
        hAdmits before call hBefore⟩
  have hInv :
      (EventRun.stateAfter step (boot hasMemory) before).Inv := by
    have hEarlier :=
      hBoth.of_isPrefix
        ((List.prefix_append before [call]).trans hBefore)
    exact
      hEarlier.invariant (I := fun _ p => p.Inv)
        (inv_boot hasMemory)
        (fun _ _ hInv hStep => hInv.step hStep.1 hStep.2)
  exact
    presents_of_inv hInv (hDisciplined before call hBefore)
      (hAdmits before call hBefore)

/- One frame is shown while the next one is queued. -/
def twoFrames : List ServiceCall :=
  [Vi.request 100 0, Vi.request 100 0, Vi.request 101 0,
    Vi.request 110 0, Vi.request 101 1, Vi.request 110 0,
    Vi.request 111 0, Vi.request 111 1]

theorem twoFrames_presents :
    EventRun.Guarded step Presents (boot true) twoFrames := by
  apply presents_of_admitted true twoFrames
  · simp only [twoFrames, EventRun.guarded_cons,
      EventRun.guarded_nil, and_true]
    refine ⟨trivial, trivial, ?_, trivial, ?_, trivial, ?_, ?_⟩
    · show ∀ i, Vi.slotOf 0 = some i → _
      decide
    · show ∀ i, Vi.slotOf 1 = some i → _
      decide
    · show ∀ i, Vi.slotOf 0 = some i → _
      decide
    · show ∀ i, Vi.slotOf 1 = some i → _
      decide
  · simp only [twoFrames, EventRun.guarded_cons,
      EventRun.guarded_nil, and_true]
    refine ⟨?_, ?_, ?_, ?_, ?_, ?_, ?_, ?_⟩
    · exact fun hNone => absurd rfl (hNone 0).1
    · exact fun hNone => absurd rfl (hNone 1).1
    · show ∀ i, Vi.slotOf 0 = some i → _
      decide
    · show ∀ i, stateOf _ i = _ → (∀ j, j < i → _) → _ ∧ _
      decide
    · show ∀ i, Vi.slotOf 1 = some i → _
      decide
    · show ∀ i, stateOf _ i = _ → (∀ j, j < i → _) → _ ∧ _
      decide
    · show ∀ i, Vi.slotOf 0 = some i → _
      decide
    · show ∀ i, Vi.slotOf 1 = some i → _
      decide

/- Two slots are dequeued, and queued the other way round. -/
def swapped : List ServiceCall :=
  [Vi.request 100 0, Vi.request 100 0, Vi.request 101 1,
    Vi.request 101 0]

/- The frame that was queued last is acquired first. -/
theorem swapped_not_presents :
    EventRun.Guarded step Disciplined (boot true)
        (swapped ++ [Vi.request 110 0]) ∧
      ¬ EventRun.Guarded step Presents (boot true)
          (swapped ++ [Vi.request 110 0]) := by
  constructor
  · simp only [swapped, List.cons_append, List.nil_append,
      EventRun.guarded_cons, EventRun.guarded_nil, and_true]
    refine ⟨trivial, trivial, ?_, ?_, trivial⟩
    · show ∀ i, Vi.slotOf 1 = some i → _
      decide
    · show ∀ i, Vi.slotOf 0 = some i → _
      decide
  · intro hPresents
    have hLast :=
      hPresents swapped (Vi.request 110 0) (List.prefix_refl _)
    have hFirst := hLast.order.first
    revert hFirst
    decide

end Presentation

end M1Switch
