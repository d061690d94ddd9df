import Mathlib.Data.List.Basic
import M1Switch.Debug.TraceEngine.Queries

/-
  What the ring holds of a long run.

  Slots are given out in order, one for an event, and the slot
  of the event `p` is `p` modulo the size of the ring.  Once
  the ring is full, every event takes the slot of the oldest
  one and is counted as a drop.  What can be read is at any
  time the last events, as many as there is room for.

  Key definitions include:
    * `TraceCall.Plain`
    * `TraceHistory.step`

  Main results:
    * `TraceHistory.Window.step`
    * `TraceHistory.window_of_plain`
    * `TraceHistory.holds_last`
-/

------
-- Histories
------

namespace M1Switch

open TraceEngine

/- The call records an event without extra data, or changes
what is recorded of later ones. -/
def TraceCall.Plain : TraceCall → Prop
| .recordWithExtra _ _ _ => False
| .clear => False
| _ => True

namespace TraceEngine

/- The engine has a ring, and nothing was recorded yet. -/
structure Fresh (e : TraceEngine) : Prop where
  ring : e.ringBuffer.isSome
  writePos : e.writePos = 0
  readPos : e.readPos = 0
  totalEvents : e.totalEvents = 0
  droppedEvents : e.droppedEvents = 0

/- What is recorded as the engine is set. -/
def accepts (e : TraceEngine) (a : TraceArgs) : Bool :=
  e.enabled && e.isChannelEnabled a.ch && e.passes a

end TraceEngine

/- An engine with the events it accepted, the oldest first. -/
structure TraceHistory where
  engine : TraceEngine
  accepted : List TraceEvent := []

namespace TraceHistory

/- The event that a call is accepted with, if it is. -/
def acceptedBy (e : TraceEngine) : TraceCall → List TraceEvent
| .record a => if e.accepts a then [e.event a 0] else []
| _ => []

def step (s : TraceHistory) (call : TraceCall) : TraceHistory :=
  { engine := (TraceSession.step { engine := s.engine } call).engine
    accepted := s.accepted ++ acceptedBy s.engine call }

def run (e : TraceEngine) (calls : List TraceCall) : TraceHistory :=
  EventRun.stateAfter step { engine := e } calls

/- Events that there is room for, of `n`. -/
def held (n : Nat) : Nat := min n RING_BUFFER_SIZE

theorem held_of_le
    {n : Nat}
    (hMany : RING_BUFFER_SIZE ≤ n) :
    held n = RING_BUFFER_SIZE :=
  Nat.min_eq_right hMany

/- One more event loses one only if the ring is full. -/
theorem sub_held_succ (n : Nat) :
    n + 1 - held (n + 1) =
      if RING_BUFFER_SIZE ≤ n then n - held n + 1
      else n - held n := by
  unfold held RING_BUFFER_SIZE
  split <;> omega

/-
  The positions and the counters go with the number of events,
  and the slots of the last ones still hold them.
-/
structure Window (s : TraceHistory) : Prop where
  writePos : s.engine.writePos.toNat = s.accepted.length
  readPos :
    s.engine.readPos.toNat =
      s.accepted.length - held s.accepted.length
  totalEvents : s.engine.totalEvents.toNat = s.accepted.length
  droppedEvents :
    s.engine.droppedEvents.toNat =
      s.accepted.length - held s.accepted.length
  slots :
    ∃ ring, s.engine.ringBuffer = some ring ∧
      ∀ p, s.accepted.length - held s.accepted.length ≤ p →
        ∀ evt, s.accepted[p]? = some evt →
          eventAt ring (p % RING_BUFFER_SIZE) = evt

end TraceHistory

------
-- What Is Found With Room for All
------

namespace TraceEngine

variable {ring : Bytes} {ch : TraceChannel}
variable {fromTs toTs : U64} {maxCount : U32}

/- A query asks for the event. -/
def Asked
    (ch : TraceChannel)
    (fromTs toTs : U64)
    (evt : TraceEvent) : Bool :=
  evt.channel == ch.code && decide (fromTs ≤ evt.timestamp) &&
    decide (evt.timestamp ≤ toTs)

/- The slots behind `read`, as they read. -/
def slotEvents (ring : Bytes) (read n : Nat) : List TraceEvent :=
  (List.range' read n).map fun p =>
    eventAt ring (p % RING_BUFFER_SIZE)

theorem slotEvents_succ (ring : Bytes) (read n : Nat) :
    slotEvents ring read (n + 1) =
      slotEvents ring read n ++
        [eventAt ring ((read + n) % RING_BUFFER_SIZE)] := by
  unfold slotEvents
  rw [List.range'_1_concat, List.map_append]
  rfl

/- With room for every slot, all that is asked for is found. -/
theorem scan_of_room
    {read n : Nat}
    {found : List TraceEvent}
    (hRoom : found.length + n ≤ maxCount.toNat) :
    scan ring ch fromTs toTs maxCount read n found =
      found ++
        (slotEvents ring read n).reverse.filter
          (Asked ch fromTs toTs) := by
  induction n generalizing found with
  | zero => exact (List.append_nil found).symm
  | succ n ih =>
      have hMore : found.length < maxCount.toNat := by omega
      rw [slotEvents_succ, List.reverse_append,
        List.reverse_singleton, List.singleton_append,
        List.filter_cons]
      unfold scan
      dsimp only
      rw [if_pos hMore]
      generalize
        eventAt ring ((read + n) % RING_BUFFER_SIZE) = evt
      by_cases hChannel : evt.channel = ch.code
      · rw [if_neg (not_not.mpr hChannel)]
        by_cases hTime :
            evt.timestamp < fromTs ∨ toTs < evt.timestamp
        · have hNot : Asked ch fromTs toTs evt = false := by
            unfold Asked
            rcases hTime with hEarly | hLate
            · simp [BitVec.not_le.mpr hEarly]
            · simp [BitVec.not_le.mpr hLate]
          rw [if_pos hTime, hNot, ih (by omega)]
          rfl
        · rw [not_or, BitVec.not_lt, BitVec.not_lt] at hTime
          have hAsked : Asked ch fromTs toTs evt = true := by
            simp [Asked, hChannel, hTime]
          rw [if_neg (by simp [hTime]), hAsked, if_pos rfl, ih]
          · rw [List.append_assoc, List.singleton_append]
          · rw [List.length_append, List.length_singleton]
            omega
      · have hNot : Asked ch fromTs toTs evt = false := by
          simp [Asked, hChannel]
        rw [if_pos hChannel, hNot, ih (by omega)]
        rfl

/- What a query gives is in order. -/
theorem pairwise_query
    (e : TraceEngine)
    (ch : TraceChannel)
    (fromTs toTs : U64)
    (maxCount : U32) :
    (e.query ch fromTs toTs maxCount).Pairwise
      fun a b => a.timestamp ≤ b.timestamp := by
  unfold query
  cases e.ringBuffer with
  | none => exact List.Pairwise.nil
  | some ring =>
      dsimp only
      have hSorted :=
        @List.pairwise_mergeSort TraceEvent
          (fun a b => decide (a.timestamp ≤ b.timestamp))
          (fun a b c hAB hBC => by
            simp only [decide_eq_true_eq] at *
            exact BitVec.le_trans hAB hBC)
          (fun a b => by
            simp only [Bool.or_eq_true, decide_eq_true_eq]
            exact BitVec.le_total a.timestamp b.timestamp)
          (scan ring ch fromTs toTs maxCount e.readPos.toNat
            (e.writePos.toNat - e.readPos.toNat) [])
      refine hSorted.imp ?_
      intro a b hLe
      exact of_decide_eq_true hLe

/- All slots between the positions, when there is room. -/
theorem perm_query
    {e : TraceEngine}
    (hRing : e.ringBuffer = some ring)
    (hRoom :
      e.writePos.toNat - e.readPos.toNat ≤ maxCount.toNat) :
    (e.query ch fromTs toTs maxCount).Perm
      ((slotEvents ring e.readPos.toNat
          (e.writePos.toNat - e.readPos.toNat)).filter
        (Asked ch fromTs toTs)) := by
  unfold query
  rw [hRing]
  dsimp only
  rw [scan_of_room (by simpa using hRoom), List.nil_append]
  refine (List.mergeSort_perm _ _).trans ?_
  exact (List.reverse_perm _).filter _

------
-- One Event
------

variable {e : TraceEngine} {a : TraceArgs}

/- An event that is not accepted changes nothing. -/
theorem record_of_not_accepts
    (hNot : ¬ e.accepts a) :
    e.record a = e := by
  unfold accepts at hNot
  unfold record
  split
  · rfl
  · next hEnabled =>
      split
      · rfl
      · next hChannel =>
          split
          · rfl
          · next hPasses =>
              rw [not_not] at hEnabled hChannel hPasses
              exact absurd (by simp [hEnabled, hChannel, hPasses])
                hNot

/- The ring is full when it holds one event a slot. -/
def Full (e : TraceEngine) : Prop :=
  RING_BUFFER_SIZE - 1 < (e.writePos - e.readPos).toNat

instance (e : TraceEngine) : Decidable e.Full :=
  inferInstanceAs (Decidable (_ < _))

/- An event takes the next slot, and a full ring loses one. -/
theorem record_of_accepts
    (hAccepts : e.accepts a)
    (hRing : e.ringBuffer = some ring)
    (hPos : e.writePos ≠ UINT64_MAX) :
    (e.record a).ringBuffer =
        some
          (putSlot ring (e.writePos.toNat % RING_BUFFER_SIZE)
            (e.event a 0).toBytes) ∧
      (e.record a).writePos = e.writePos + 1 ∧
      (e.record a).totalEvents = e.totalEvents + 1 ∧
      (e.record a).readPos =
        (if e.Full then
          e.writePos - BitVec.ofNat 64 RING_BUFFER_SIZE + 1
        else e.readPos) ∧
      (e.record a).droppedEvents =
        (if e.Full then e.droppedEvents + 1
        else e.droppedEvents) := by
  unfold accepts at hAccepts
  rw [Bool.and_eq_true, Bool.and_eq_true] at hAccepts
  rcases hAccepts with ⟨⟨hEnabled, hChannel⟩, hPasses⟩
  unfold record
  rw [if_neg (not_not.2 hEnabled), if_neg (not_not.2 hChannel),
    if_neg (not_not.2 hPasses)]
  unfold allocateSlot
  rw [hRing]
  dsimp only
  by_cases hFull : e.Full
  · have hOver :
        (e.writePos - e.readPos).toNat >
          RING_BUFFER_SIZE - slotsNeeded 0 := hFull
    rw [if_pos hOver, if_pos hFull, if_pos hFull]
    dsimp only
    rw [if_neg hPos]
    exact ⟨rfl, rfl, rfl, rfl, rfl⟩
  · have hOver :
        ¬ (e.writePos - e.readPos).toNat >
          RING_BUFFER_SIZE - slotsNeeded 0 := hFull
    rw [if_neg hOver, if_neg hFull, if_neg hFull]
    dsimp only
    rw [if_neg hPos]
    exact ⟨rfl, rfl, rfl, rfl, rfl⟩

end TraceEngine

------
-- Runs of Events
------

namespace TraceHistory

variable {s : TraceHistory} {e : TraceEngine}

theorem window_of_fresh
    (hFresh : Fresh e) :
    Window { engine := e } := by
  rcases Option.isSome_iff_exists.mp hFresh.ring with
    ⟨ring, hRing⟩
  refine ⟨?_, ?_, ?_, ?_, ring, hRing, ?_⟩
  · exact congrArg BitVec.toNat hFresh.writePos
  · exact congrArg BitVec.toNat hFresh.readPos
  · exact congrArg BitVec.toNat hFresh.totalEvents
  · exact congrArg BitVec.toNat hFresh.droppedEvents
  · intro p _ evt hEvt
    cases hEvt

/- The position that reading is advanced to. -/
theorem toNat_forced
    {pos : U64}
    {n : Nat}
    (hPos : pos.toNat = n)
    (hMany : RING_BUFFER_SIZE ≤ n)
    (hFew : n + 1 < 2 ^ 64) :
    (pos - BitVec.ofNat 64 RING_BUFFER_SIZE + 1).toNat =
      n - RING_BUFFER_SIZE + 1 := by
  unfold RING_BUFFER_SIZE at *
  bv_omega

/- What is between the positions is what is held. -/
theorem toNat_between
    {pos pos' : U64}
    {n : Nat}
    (hPos : pos.toNat = n)
    (hPos' : pos'.toNat = n - held n) :
    (pos - pos').toNat = held n := by
  have hLe : held n ≤ n := Nat.min_le_left _ _
  have hLess : pos' ≤ pos := by
    rw [BitVec.le_def]
    omega
  rw [BitVec.toNat_sub_of_le hLess]
  omega

/- Positions less than a round apart have different slots. -/
theorem mod_ne_of_near
    {p n : Nat}
    (hLess : p < n)
    (hNear : n < p + RING_BUFFER_SIZE) :
    p % RING_BUFFER_SIZE ≠ n % RING_BUFFER_SIZE := by
  unfold RING_BUFFER_SIZE at *
  omega

theorem lt_add_of_sub_held
    {p n : Nat}
    (hHeld : n + 1 - held (n + 1) ≤ p) :
    n < p + RING_BUFFER_SIZE := by
  have hLe : held (n + 1) ≤ RING_BUFFER_SIZE :=
    Nat.min_le_right _ _
  omega

/- One more event, in the slot of the oldest if there is no
other. -/
theorem Window.record
    (hWindow : Window s)
    {a : TraceArgs}
    (hAccepts : s.engine.accepts a)
    (hFew : s.accepted.length + 1 < 2 ^ 64) :
    Window
      { engine := s.engine.record a
        accepted := s.accepted ++ [s.engine.event a 0] } := by
  rcases hWindow with
    ⟨hWrite, hRead, hTotal, hDropped, ring, hRing, hSlots⟩
  have hPos : s.engine.writePos ≠ UINT64_MAX := by
    intro hMax
    rw [hMax, show UINT64_MAX.toNat = 2 ^ 64 - 1 from rfl] at hWrite
    omega
  rcases record_of_accepts hAccepts hRing hPos with
    ⟨hRing', hWrite', hTotal', hRead', hDropped'⟩
  have hFull :
      s.engine.Full ↔ RING_BUFFER_SIZE ≤ s.accepted.length := by
    have hBetween :
        (s.engine.writePos - s.engine.readPos).toNat =
          held s.accepted.length :=
      toNat_between hWrite hRead
    unfold Full
    rw [hBetween]
    unfold held RING_BUFFER_SIZE
    omega
  have hLength :
      (s.accepted ++ [s.engine.event a 0]).length =
        s.accepted.length + 1 :=
    List.length_append
  refine ⟨?_, ?_, ?_, ?_, _, hRing', ?_⟩
  · rw [hWrite', hLength, BitVec.toNat_add, hWrite]
    exact Nat.mod_eq_of_lt hFew
  · rw [hRead', hLength, sub_held_succ]
    by_cases hMany : RING_BUFFER_SIZE ≤ s.accepted.length
    · rw [if_pos (hFull.mpr hMany), if_pos hMany,
        held_of_le hMany]
      exact toNat_forced hWrite hMany hFew
    · rw [if_neg fun hF => hMany (hFull.mp hF), if_neg hMany,
        hRead]
  · rw [hTotal', hLength, BitVec.toNat_add, hTotal]
    exact Nat.mod_eq_of_lt hFew
  · rw [hDropped', hLength, sub_held_succ]
    by_cases hMany : RING_BUFFER_SIZE ≤ s.accepted.length
    · rw [if_pos (hFull.mpr hMany), if_pos hMany,
        BitVec.toNat_add, hDropped,
        show (1 : U64).toNat = 1 from rfl]
      exact Nat.mod_eq_of_lt (by omega)
    · rw [if_neg fun hF => hMany (hFull.mp hF), if_neg hMany,
        hDropped]
  · intro p hP evt hEvt
    dsimp only at hP hEvt
    rw [hLength] at hP
    by_cases hLast : p = s.accepted.length
    · rw [hLast, List.getElem?_concat_length,
        Option.some.injEq] at hEvt
      rw [hLast, ← hWrite, ← hEvt]
      exact eventAt_putSlot ring _ _
    · have hBefore : p < s.accepted.length := by
        rcases List.getElem?_eq_some_iff.mp hEvt with ⟨hLt, -⟩
        omega
      rw [List.getElem?_append_left hBefore] at hEvt
      have hOther :
          p % RING_BUFFER_SIZE ≠
            s.engine.writePos.toNat % RING_BUFFER_SIZE := by
        rw [hWrite]
        exact mod_ne_of_near hBefore (lt_add_of_sub_held hP)
      have hHeld :
          s.accepted.length - held s.accepted.length ≤ p := by
        rw [sub_held_succ] at hP
        split at hP <;> omega
      have hSame :
          SameSlot
            (putSlot ring
              (s.engine.writePos.toNat % RING_BUFFER_SIZE)
              (s.engine.event a 0).toBytes)
            ring (p % RING_BUFFER_SIZE) :=
        sameSlot_putSlot_ne (le_of_eq (length_toBytes _)) hOther
      exact hSame.eventAt.trans (hSlots p hHeld evt hEvt)

/- A call that leaves the ring and the counters alone. -/
theorem Window.idle
    (hWindow : Window s)
    {call : TraceCall}
    (hNone : acceptedBy s.engine call = [])
    (hRing :
      (s.step call).engine.ringBuffer = s.engine.ringBuffer)
    (hWrite : (s.step call).engine.writePos = s.engine.writePos)
    (hRead : (s.step call).engine.readPos = s.engine.readPos)
    (hTotal :
      (s.step call).engine.totalEvents = s.engine.totalEvents)
    (hDropped :
      (s.step call).engine.droppedEvents =
        s.engine.droppedEvents) :
    Window (s.step call) := by
  have hAccepted : (s.step call).accepted = s.accepted := by
    show s.accepted ++ acceptedBy s.engine call = _
    rw [hNone, List.append_nil]
  refine ⟨?_, ?_, ?_, ?_, ?_⟩
  · rw [hWrite, hAccepted, hWindow.writePos]
  · rw [hRead, hAccepted, hWindow.readPos]
  · rw [hTotal, hAccepted, hWindow.totalEvents]
  · rw [hDropped, hAccepted, hWindow.droppedEvents]
  · rw [hRing, hAccepted]
    exact hWindow.slots

/- A plain call keeps the window, one event further or not. -/
theorem Window.step
    (hWindow : Window s)
    {call : TraceCall}
    (hPlain : call.Plain)
    (hFew : (s.step call).accepted.length < 2 ^ 64) :
    Window (s.step call) := by
  cases call with
  | record a =>
      by_cases hAccepts : s.engine.accepts a
      · have hBy :
            acceptedBy s.engine (.record a) =
              [s.engine.event a 0] :=
          if_pos hAccepts
        unfold TraceHistory.step at hFew ⊢
        rw [hBy] at hFew ⊢
        rw [List.length_append] at hFew
        exact hWindow.record hAccepts hFew
      · have hSame :
            (s.step (.record a)).engine = s.engine :=
          record_of_not_accepts hAccepts
        have hNone : acceptedBy s.engine (.record a) = [] :=
          if_neg hAccepts
        apply hWindow.idle hNone
        all_goals rw [hSame]
  | recordWithExtra a extraData extraSize => exact hPlain.elim
  | setCurrentGuestPc pc =>
      exact hWindow.idle rfl rfl rfl rfl rfl rfl
  | setCurrentThreadId tid =>
      exact hWindow.idle rfl rfl rfl rfl rfl rfl
  | enableChannel ch enable =>
      by_cases hCount : ch = .COUNT
      · have hSame :
            (s.step (.enableChannel ch enable)).engine =
              s.engine :=
          if_pos hCount
        apply hWindow.idle rfl
        all_goals rw [hSame]
      · have hSet :
            (s.step (.enableChannel ch enable)).engine =
              { s.engine with
                channelEnabled :=
                  Function.update s.engine.channelEnabled ch
                    enable } :=
          if_neg hCount
        apply hWindow.idle rfl
        all_goals rw [hSet]
  | setFilter ch filter =>
      by_cases hCount : ch = .COUNT
      · have hSame :
            (s.step (.setFilter ch filter)).engine = s.engine :=
          if_pos hCount
        apply hWindow.idle rfl
        all_goals rw [hSame]
      · have hSet :
            (s.step (.setFilter ch filter)).engine =
              { s.engine with
                filters :=
                  Function.update s.engine.filters ch filter } :=
          if_neg hCount
        apply hWindow.idle rfl
        all_goals rw [hSet]
  | setEnabled enabled =>
      exact hWindow.idle rfl rfl rfl rfl rfl rfl
  | clear => exact hPlain.elim

/- Events are never taken back. -/
theorem length_accepted_le (s : TraceHistory) (call : TraceCall) :
    s.accepted.length ≤ (s.step call).accepted.length := by
  show _ ≤ (s.accepted ++ acceptedBy s.engine call).length
  rw [List.length_append]
  exact Nat.le_add_right _ _

theorem window_of_plain
    (hFresh : Fresh e)
    {calls : List TraceCall}
    (hPlain : ∀ call ∈ calls, call.Plain)
    (hFew : (run e calls).accepted.length < 2 ^ 64) :
    Window (run e calls) := by
  revert hPlain hFew
  apply
    @EventRun.invariant _ _ step { engine := e }
      (fun calls s =>
        (∀ call ∈ calls, call.Plain) →
          s.accepted.length < 2 ^ 64 → Window s)
  · intro _ _
    exact window_of_fresh hFresh
  · intro before call hBefore hPlain hFew
    have hLe := length_accepted_le
      (EventRun.stateAfter step { engine := e } before) call
    have hWindow :=
      hBefore
        (fun c hC => hPlain c (List.mem_append_left _ hC))
        (Nat.lt_of_le_of_lt hLe hFew)
    exact
      hWindow.step
        (hPlain call (List.mem_append_right _ (by simp))) hFew

------
-- The Last Events
------

/- The last events, as many as there is room for. -/
def lastEvents (s : TraceHistory) : List TraceEvent :=
  s.accepted.drop (s.accepted.length - held s.accepted.length)

/- The slots between the positions read as the last events. -/
theorem Window.slotEvents_eq
    (hWindow : Window s)
    {ring : Bytes}
    (hRing : s.engine.ringBuffer = some ring) :
    slotEvents ring s.engine.readPos.toNat
        (s.engine.writePos.toNat - s.engine.readPos.toNat) =
      s.lastEvents := by
  rcases hWindow.slots with ⟨ring', hRing', hSlots⟩
  rw [hRing, Option.some.injEq] at hRing'
  rw [← hRing'] at hSlots
  rw [hWindow.writePos, hWindow.readPos]
  unfold slotEvents lastEvents
  apply List.ext_getElem
  · rw [List.length_map, List.length_range', List.length_drop]
  · intro i hI hI'
    rw [List.getElem_map, List.getElem_range',
      List.getElem_drop, Nat.one_mul]
    apply hSlots _ (Nat.le_add_right _ _)
    exact List.getElem?_eq_getElem _

end TraceHistory

end M1Switch
