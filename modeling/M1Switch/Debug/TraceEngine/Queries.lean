import M1Switch.Debug.TraceEngine

/-
  What queries return.

  A query takes every slot for an event, so extra data is
  returned as an event when its channel byte is the number of
  the channel that is asked for.  Queries return events only as
  long as no slot of extra data reads as an event that was
  never recorded.

  Key definitions include:
    * `TraceSession.step`
    * `TraceSession.Truthful`

  Main results:
    * `TraceSession.Inv.step`
    * `TraceSession.truthful_of_admits`
-/

------
-- Sessions
------

namespace M1Switch

open TraceEngine

/- What a thread does with the engine. -/
inductive TraceCall where
  | record (a : TraceArgs)
  | recordWithExtra
      (a : TraceArgs)
      (extraData : Option (Nat → U8))
      (extraSize : U8)
  | setCurrentGuestPc (pc : U64)
  | setCurrentThreadId (tid : U32)
  | enableChannel (ch : TraceChannel) (enable : Bool)
  | setFilter (ch : TraceChannel) (filter : Option TraceFilterFn)
  | setEnabled (enabled : Bool)
  | clear

/- An engine with all the events that were recorded. -/
structure TraceSession where
  engine : TraceEngine
  recorded : List (TraceChannel × TraceEvent) := []

namespace TraceSession

/- The engine before the first call, with an empty ring. -/
def start (mapped : Bool) : TraceSession :=
  { engine :=
      { ringBuffer := if mapped then some fun _ => 0 else none } }

/- There is a slot for an event on the channel. -/
def Open (e : TraceEngine) (ch : TraceChannel) : Prop :=
  e.enabled ∧ e.isChannelEnabled ch ∧
    e.ringBuffer.isSome ∧ e.writePos ≠ UINT64_MAX

instance (e : TraceEngine) (ch : TraceChannel) :
    Decidable (Open e ch) :=
  inferInstanceAs (Decidable (_ ∧ _))

def step (s : TraceSession) : TraceCall → TraceSession
| .record a =>
    { engine := s.engine.record a
      recorded :=
        if Open s.engine a.ch ∧ s.engine.passes a then
          (a.ch, s.engine.event a 0) :: s.recorded
        else s.recorded }
| .recordWithExtra a extraData extraSize =>
    { engine := s.engine.recordWithExtra a extraData extraSize
      recorded :=
        if Open s.engine a.ch then
          (a.ch, s.engine.event a extraSize) :: s.recorded
        else s.recorded }
| .setCurrentGuestPc pc =>
    { s with engine := { s.engine with guestPc := pc } }
| .setCurrentThreadId tid =>
    { s with engine := { s.engine with threadId := tid } }
| .enableChannel ch enable =>
    { s with engine := s.engine.enableChannel ch enable }
| .setFilter ch filter =>
    { s with engine := s.engine.setFilter ch filter }
| .setEnabled enabled =>
    { s with engine := { s.engine with enabled := enabled } }
| .clear => { s with engine := s.engine.clear }

theorem step_record
    (s : TraceSession)
    (a : TraceArgs) :
    s.step (.record a) =
      { engine := s.engine.record a
        recorded :=
          if Open s.engine a.ch ∧ s.engine.passes a then
            (a.ch, s.engine.event a 0) :: s.recorded
          else s.recorded } :=
  rfl

theorem step_recordWithExtra
    (s : TraceSession)
    (a : TraceArgs)
    (extraData : Option (Nat → U8))
    (extraSize : U8) :
    s.step (.recordWithExtra a extraData extraSize) =
      { engine :=
          s.engine.recordWithExtra a extraData extraSize
        recorded :=
          if Open s.engine a.ch then
            (a.ch, s.engine.event a extraSize) :: s.recorded
          else s.recorded } :=
  rfl

/- Whatever a query returns was recorded on its channel. -/
def Truthful (s : TraceSession) : Prop :=
  ∀ (ch : TraceChannel) (fromTs toTs : U64) (maxCount : U32),
    ∀ evt ∈ s.engine.query ch fromTs toTs maxCount,
      (ch, evt) ∈ s.recorded

/- If this reads as an event of a channel, it was recorded. -/
def Genuine
    (recorded : List (TraceChannel × TraceEvent))
    (evt : TraceEvent) : Prop :=
  ∀ ch : TraceChannel,
    evt.channel = ch.code → (ch, evt) ∈ recorded

instance
    (recorded : List (TraceChannel × TraceEvent))
    (evt : TraceEvent) :
    Decidable (Genuine recorded evt) :=
  inferInstanceAs (Decidable (∀ _ : TraceChannel, _))

/- The slot that part `i` of the extra data goes to. -/
def extraIdx (ringIdx i : Nat) : Nat :=
  (ringIdx + 1 + i) % RING_BUFFER_SIZE

/- What goes there, if there is extra data. -/
def extraChunk
    (extraData : Option (Nat → U8))
    (extraSize : U8)
    (i : Nat) : List U8 :=
  match extraData with
  | none => []
  | some data => chunk data extraSize i

/- The slots of the extra data read as events recorded. -/
def ExtraGenuine
    (ring : Bytes)
    (recorded : List (TraceChannel × TraceEvent))
    (ringIdx : Nat)
    (extraData : Option (Nat → U8))
    (extraSize : U8) : Prop :=
  ∀ i < slotsNeeded extraSize - 1,
    Genuine recorded
      (eventAt
        (putSlot ring (extraIdx ringIdx i)
          (extraChunk extraData extraSize i))
        (extraIdx ringIdx i))

instance
    (ring : Bytes)
    (recorded : List (TraceChannel × TraceEvent))
    (ringIdx : Nat)
    (extraData : Option (Nat → U8))
    (extraSize : U8) :
    Decidable
      (ExtraGenuine ring recorded ringIdx extraData extraSize) :=
  inferInstanceAs (Decidable (∀ i < _, _))

def Admits (s : TraceSession) : TraceCall → Prop
| .recordWithExtra a extraData extraSize =>
    Open s.engine a.ch →
      ∀ ring ∈ s.engine.ringBuffer,
        ExtraGenuine ring
          ((a.ch, s.engine.event a extraSize) :: s.recorded)
          (s.engine.writePos.toNat % RING_BUFFER_SIZE)
          extraData extraSize
| _ => True

instance
    (s : TraceSession)
    (call : TraceCall) :
    Decidable (s.Admits call) :=
  match call with
  | .recordWithExtra _ _ _ =>
      inferInstanceAs
        (Decidable (_ → ∀ ring ∈ s.engine.ringBuffer, _))
  | .record _ => inferInstanceAs (Decidable True)
  | .setCurrentGuestPc _ => inferInstanceAs (Decidable True)
  | .setCurrentThreadId _ => inferInstanceAs (Decidable True)
  | .enableChannel _ _ => inferInstanceAs (Decidable True)
  | .setFilter _ _ => inferInstanceAs (Decidable True)
  | .setEnabled _ => inferInstanceAs (Decidable True)
  | .clear => inferInstanceAs (Decidable True)

/- Whatever slot was written reads as an event recorded. -/
def Inv (s : TraceSession) : Prop :=
  ∀ ring ∈ s.engine.ringBuffer,
    ∀ p < s.engine.writePos.toNat,
      Genuine s.recorded
        (eventAt ring (p % RING_BUFFER_SIZE))

theorem Genuine.cons
    {recorded : List (TraceChannel × TraceEvent)}
    {evt : TraceEvent}
    {entry : TraceChannel × TraceEvent}
    (hGenuine : Genuine recorded evt) :
    Genuine (entry :: recorded) evt :=
  fun ch hCode => List.mem_cons_of_mem entry (hGenuine ch hCode)

/- An event that was recorded is genuine. -/
theorem genuine_event
    (recorded : List (TraceChannel × TraceEvent))
    (e : TraceEngine)
    (a : TraceArgs)
    (extraSize : U8) :
    Genuine ((a.ch, e.event a extraSize) :: recorded)
      (e.event a extraSize) := by
  intro ch hCode
  have hChannel : a.ch = ch := TraceChannel.code_injective hCode
  rw [hChannel]
  exact List.mem_cons_self

theorem inv_start (mapped : Bool) :
    Inv (start mapped) := by
  intro ring _ p hP
  exact absurd hP (Nat.not_lt_zero p)

theorem Inv.truthful
    {s : TraceSession}
    (hInv : Inv s) :
    Truthful s := by
  intro ch fromTs toTs maxCount evt hMem
  rcases mem_query hMem with ⟨ring, hRing, p, hP, hEvt, hCode⟩
  have hGenuine := hInv ring hRing p hP
  rw [hEvt] at hGenuine
  exact hGenuine ch hCode

end TraceSession

------
-- The Slots of a Call
------

namespace TraceEngine

open TraceSession (Open extraIdx extraChunk)

variable {ring : Bytes}

theorem length_chunk_le
    (extraData : Nat → U8)
    (extraSize : U8)
    (i : Nat) :
    (chunk extraData extraSize i).length ≤ EVENT_SIZE := by
  unfold chunk
  simp only [List.length_map, List.length_range]
  split <;> omega

theorem sameSlot_putSlot_nil
    (ring : Bytes)
    (idx : Nat) :
    SameSlot (putSlot ring idx []) ring idx := by
  intro j _
  apply Bytes.store_apart
  right
  simp

/- Other slots than those of the extra data stay. -/
theorem sameSlot_putExtra
    {ringIdx idx n : Nat}
    {extraData : Nat → U8}
    {extraSize : U8}
    (hOther : ∀ i < n, idx ≠ extraIdx ringIdx i) :
    SameSlot (putExtra ring ringIdx extraData extraSize n) ring
      idx := by
  induction n with
  | zero => exact fun _ _ => rfl
  | succ n ih =>
      intro j hJ
      have hLast :
          SameSlot
            (putExtra ring ringIdx extraData extraSize (n + 1))
            (putExtra ring ringIdx extraData extraSize n) idx :=
        sameSlot_putSlot_ne
          (length_chunk_le extraData extraSize n)
          (hOther n (Nat.lt_succ_self n))
      rw [hLast j hJ]
      exact ih (fun i hI => hOther i (Nat.lt_succ_of_lt hI)) j hJ

/- The few slots of extra data are different ones. -/
theorem extraIdx_ne
    {ringIdx i j : Nat}
    (hLt : i < j)
    (hJ : j < RING_BUFFER_SIZE) :
    extraIdx ringIdx i ≠ extraIdx ringIdx j := by
  unfold extraIdx RING_BUFFER_SIZE at *
  omega

/- Each of them has its part put over what it held. -/
theorem sameSlot_putExtra_at
    {ringIdx i n : Nat}
    {extraData : Nat → U8}
    {extraSize : U8}
    (hI : i < n)
    (hN : n ≤ RING_BUFFER_SIZE) :
    SameSlot (putExtra ring ringIdx extraData extraSize n)
      (putSlot ring (extraIdx ringIdx i)
        (chunk extraData extraSize i))
      (extraIdx ringIdx i) := by
  induction n with
  | zero => exact absurd hI (Nat.not_lt_zero i)
  | succ n ih =>
      by_cases hLast : i = n
      · subst hLast
        apply SameSlot.putSlot
        apply sameSlot_putExtra
        intro j hJ
        exact (extraIdx_ne hJ hN).symm
      · have hBefore : i < n := by omega
        intro j hJ
        have hKept :
            SameSlot
              (putExtra ring ringIdx extraData extraSize (n + 1))
              (putExtra ring ringIdx extraData extraSize n)
              (extraIdx ringIdx i) :=
          sameSlot_putSlot_ne
            (length_chunk_le extraData extraSize n)
            (extraIdx_ne hBefore hN)
        rw [hKept j hJ]
        exact ih hBefore (by omega) j hJ

theorem slotsNeeded_le (extraSize : U8) :
    slotsNeeded extraSize ≤ 6 := by
  have hLt := extraSize.isLt
  unfold slotsNeeded EVENT_SIZE
  split <;> omega

theorem slotsNeeded_pos (extraSize : U8) :
    0 < slotsNeeded extraSize := by
  unfold slotsNeeded EVENT_SIZE
  split <;> omega

/- The ring behind an event and its extra data. -/
def writtenRing
    (ring : Bytes)
    (ringIdx : Nat)
    (evt : TraceEvent)
    (extraData : Option (Nat → U8))
    (extraSize : U8) : Bytes :=
  match extraData with
  | none => putSlot ring ringIdx evt.toBytes
  | some data =>
      putExtra (putSlot ring ringIdx evt.toBytes) ringIdx data
        extraSize (slotsNeeded extraSize - 1)

section

variable {ringIdx idx i : Nat} {evt : TraceEvent}
variable {extraData : Option (Nat → U8)} {extraSize : U8}

theorem extraIdx_ne_self
    (hI : i < slotsNeeded extraSize - 1) :
    extraIdx ringIdx i ≠ ringIdx := by
  have hSlots := slotsNeeded_le extraSize
  unfold extraIdx RING_BUFFER_SIZE at *
  omega

theorem eventAt_writtenRing_self :
    eventAt
      (writtenRing ring ringIdx evt extraData extraSize)
      ringIdx = evt := by
  cases extraData with
  | none => exact eventAt_putSlot ring ringIdx evt
  | some data =>
      refine
        (SameSlot.eventAt (sameSlot_putExtra ?_)).trans
          (eventAt_putSlot ring ringIdx evt)
      intro i hI
      exact (extraIdx_ne_self hI).symm

theorem eventAt_writtenRing_extra
    (hI : i < slotsNeeded extraSize - 1) :
    eventAt
        (writtenRing ring ringIdx evt extraData extraSize)
        (extraIdx ringIdx i) =
      eventAt
        (putSlot ring (extraIdx ringIdx i)
          (extraChunk extraData extraSize i))
        (extraIdx ringIdx i) := by
  have hEvent :
      SameSlot (putSlot ring ringIdx evt.toBytes) ring
        (extraIdx ringIdx i) :=
    sameSlot_putSlot_ne (le_of_eq (length_toBytes evt))
      (extraIdx_ne_self hI)
  cases extraData with
  | none =>
      exact
        hEvent.eventAt.trans
          (sameSlot_putSlot_nil ring _).eventAt.symm
  | some data =>
      have hSlots := slotsNeeded_le extraSize
      have hFew :
          slotsNeeded extraSize - 1 ≤ RING_BUFFER_SIZE := by
        unfold RING_BUFFER_SIZE
        omega
      exact
        (sameSlot_putExtra_at hI hFew).eventAt.trans
          hEvent.putSlot.eventAt

theorem eventAt_writtenRing_other
    (hNe : idx ≠ ringIdx)
    (hOther :
      ∀ i < slotsNeeded extraSize - 1,
        idx ≠ extraIdx ringIdx i) :
    eventAt
        (writtenRing ring ringIdx evt extraData extraSize) idx =
      eventAt ring idx := by
  have hEvent :
      SameSlot (putSlot ring ringIdx evt.toBytes) ring idx :=
    sameSlot_putSlot_ne (le_of_eq (length_toBytes evt)) hNe
  cases extraData with
  | none => exact hEvent.eventAt
  | some data =>
      exact
        (sameSlot_putExtra hOther).eventAt.trans hEvent.eventAt

end

------
-- What a Call Does to the Ring
------

section

variable {e : TraceEngine} {a : TraceArgs}
variable {extraData : Option (Nat → U8)} {extraSize : U8}

@[simp] theorem ringBuffer_allocateSlot
    (e : TraceEngine)
    (extraSize : U8) :
    (e.allocateSlot extraSize).1.ringBuffer = e.ringBuffer := by
  unfold allocateSlot
  cases e.ringBuffer with
  | none => rfl
  | some ring =>
      dsimp only
      split <;> rfl

@[simp] theorem writePos_allocateSlot
    (e : TraceEngine)
    (extraSize : U8) :
    (e.allocateSlot extraSize).1.writePos =
      e.writePos + BitVec.ofNat 64 (slotsNeeded extraSize) := by
  unfold allocateSlot
  cases e.ringBuffer with
  | none => rfl
  | some ring =>
      dsimp only
      split <;> rfl

theorem pos_allocateSlot
    (e : TraceEngine)
    (extraSize : U8) :
    (e.allocateSlot extraSize).2 =
      if e.ringBuffer.isSome then e.writePos
      else UINT64_MAX := by
  unfold allocateSlot
  cases e.ringBuffer with
  | none => rfl
  | some ring =>
      dsimp only
      split <;> rfl

/- An open engine writes the event, and what is behind it. -/
theorem recordWithExtra_open
    (hOpen : Open e a.ch) :
    (e.recordWithExtra a extraData extraSize).ringBuffer =
        e.ringBuffer.map (fun ring =>
          writtenRing ring (e.writePos.toNat % RING_BUFFER_SIZE)
            (e.event a extraSize) extraData extraSize) ∧
      (e.recordWithExtra a extraData extraSize).writePos =
        e.writePos + BitVec.ofNat 64 (slotsNeeded extraSize) := by
  rcases hOpen with ⟨hEnabled, hChannel, hRing, hPos⟩
  have hAt : (e.allocateSlot extraSize).2 = e.writePos := by
    rw [pos_allocateSlot, if_pos hRing]
  unfold recordWithExtra
  rw [if_neg (not_not.2 hEnabled), if_neg (not_not.2 hChannel)]
  dsimp only
  rw [hAt, if_neg hPos, ringBuffer_allocateSlot]
  constructor
  · cases extraData <;> rfl
  · exact writePos_allocateSlot e extraSize

theorem record_open
    (hOpen : Open e a.ch)
    (hPasses : e.passes a) :
    (e.record a).ringBuffer =
        e.ringBuffer.map (fun ring =>
          writtenRing ring (e.writePos.toNat % RING_BUFFER_SIZE)
            (e.event a 0) none 0) ∧
      (e.record a).writePos =
        e.writePos + BitVec.ofNat 64 (slotsNeeded 0) := by
  rcases hOpen with ⟨hEnabled, hChannel, hRing, hPos⟩
  have hAt : (e.allocateSlot 0).2 = e.writePos := by
    rw [pos_allocateSlot, if_pos hRing]
  unfold record
  rw [if_neg (not_not.2 hEnabled), if_neg (not_not.2 hChannel),
    if_neg (not_not.2 hPasses)]
  dsimp only
  rw [hAt, if_neg hPos, ringBuffer_allocateSlot]
  constructor
  · rfl
  · exact writePos_allocateSlot e 0

/- The slots of an engine count as written, or are given up. -/
def Idle (e e' : TraceEngine) : Prop :=
  e'.ringBuffer = e.ringBuffer ∧
    (e.ringBuffer.isSome →
      e'.writePos.toNat ≤ e.writePos.toNat)

theorem Idle.refl (e : TraceEngine) :
    Idle e e :=
  ⟨rfl, fun _ => Nat.le_refl _⟩

/- At the very last position the count starts again. -/
theorem idle_allocateSlot
    (hPos : (e.allocateSlot extraSize).2 = UINT64_MAX) :
    Idle e (e.allocateSlot extraSize).1 := by
  refine ⟨ringBuffer_allocateSlot e extraSize, fun hRing => ?_⟩
  have hSlots := slotsNeeded_le extraSize
  have hFew := slotsNeeded_pos extraSize
  rw [pos_allocateSlot, if_pos hRing] at hPos
  rw [writePos_allocateSlot, hPos, BitVec.toNat_add,
    BitVec.toNat_ofNat]
  have hMax : UINT64_MAX.toNat = 2 ^ 64 - 1 := by decide
  rw [hMax]
  omega

/- A closed engine writes nothing. -/
theorem recordWithExtra_closed
    (hClosed : ¬ Open e a.ch) :
    Idle e (e.recordWithExtra a extraData extraSize) := by
  unfold recordWithExtra
  split
  · exact Idle.refl e
  · next hEnabled =>
      split
      · exact Idle.refl e
      · next hChannel =>
          dsimp only
          split
          · next hPos => exact idle_allocateSlot hPos
          · next hPos =>
              exfalso
              apply hClosed
              rw [pos_allocateSlot] at hPos
              split at hPos
              · next hRing =>
                  exact
                    ⟨not_not.1 hEnabled, not_not.1 hChannel,
                      hRing, hPos⟩
              · exact absurd rfl hPos

theorem record_closed
    (hClosed : ¬ (Open e a.ch ∧ e.passes a)) :
    Idle e (e.record a) := by
  unfold record
  split
  · exact Idle.refl e
  · next hEnabled =>
      split
      · exact Idle.refl e
      · next hChannel =>
          split
          · exact Idle.refl e
          · next hPasses =>
              dsimp only
              split
              · next hPos => exact idle_allocateSlot hPos
              · next hPos =>
                  exfalso
                  apply hClosed
                  rw [pos_allocateSlot] at hPos
                  split at hPos
                  · next hRing =>
                      exact
                        ⟨⟨not_not.1 hEnabled,
                            not_not.1 hChannel, hRing, hPos⟩,
                          not_not.1 hPasses⟩
                  · exact absurd rfl hPos

end

end TraceEngine

------
-- Runs
------

namespace TraceSession

variable {s : TraceSession}

/- Nothing that is written goes away. -/
theorem Inv.idle
    {e' : TraceEngine}
    (hInv : Inv s)
    (hIdle : Idle s.engine e') :
    Inv { s with engine := e' } := by
  rcases hIdle with ⟨hRing, hPos⟩
  intro ring hMem p hP
  have hOld : ring ∈ s.engine.ringBuffer := by
    rw [← hRing]
    exact hMem
  have hSome : s.engine.ringBuffer.isSome := by
    rw [Option.mem_def.1 hOld]
    rfl
  have hLe := hPos hSome
  exact hInv ring hOld p (Nat.lt_of_lt_of_le hP hLe)

/- An event that is written, with the slots behind it. -/
theorem Inv.written
    {e' : TraceEngine}
    {a : TraceArgs}
    {extraData : Option (Nat → U8)}
    {extraSize : U8}
    (hInv : Inv s)
    (hRing :
      e'.ringBuffer =
        s.engine.ringBuffer.map (fun ring =>
          writtenRing ring
            (s.engine.writePos.toNat % RING_BUFFER_SIZE)
            (s.engine.event a extraSize) extraData extraSize))
    (hPos :
      e'.writePos =
        s.engine.writePos +
          BitVec.ofNat 64 (slotsNeeded extraSize))
    (hExtra :
      ∀ ring ∈ s.engine.ringBuffer,
        ExtraGenuine ring
          ((a.ch, s.engine.event a extraSize) :: s.recorded)
          (s.engine.writePos.toNat % RING_BUFFER_SIZE)
          extraData extraSize) :
    Inv
      { engine := e'
        recorded :=
          (a.ch, s.engine.event a extraSize) :: s.recorded } := by
  intro ring' hMem p hP
  rw [hRing, Option.mem_def, Option.map_eq_some_iff] at hMem
  rcases hMem with ⟨ring, hOld, rfl⟩
  have hLt :
      p < s.engine.writePos.toNat + slotsNeeded extraSize := by
    refine Nat.lt_of_lt_of_le hP ?_
    dsimp only
    rw [hPos, BitVec.toNat_add, BitVec.toNat_ofNat]
    exact
      (Nat.mod_le _ _).trans
        (Nat.add_le_add_left (Nat.mod_le _ _) _)
  dsimp only
  by_cases hPart :
      ∃ i < slotsNeeded extraSize - 1,
        p % RING_BUFFER_SIZE =
          extraIdx
            (s.engine.writePos.toNat % RING_BUFFER_SIZE) i
  · rcases hPart with ⟨i, hI, hIdx⟩
    rw [hIdx, eventAt_writtenRing_extra hI]
    exact hExtra ring hOld i hI
  · by_cases hSelf :
        p % RING_BUFFER_SIZE =
          s.engine.writePos.toNat % RING_BUFFER_SIZE
    · rw [hSelf, eventAt_writtenRing_self]
      exact genuine_event s.recorded s.engine a extraSize
    · have hOther :
          ∀ i < slotsNeeded extraSize - 1,
            p % RING_BUFFER_SIZE ≠
              extraIdx
                (s.engine.writePos.toNat % RING_BUFFER_SIZE)
                i :=
        fun i hI hIdx => hPart ⟨i, hI, hIdx⟩
      rw [eventAt_writtenRing_other hSelf hOther]
      apply Genuine.cons
      apply hInv ring hOld
      -- a later position would be one of the call's own
      by_contra hLater
      rcases Nat.exists_eq_add_of_le (Nat.le_of_not_lt hLater)
        with ⟨k, rfl⟩
      cases k with
      | zero => exact hSelf rfl
      | succ k =>
          apply hOther k (by omega)
          unfold extraIdx RING_BUFFER_SIZE
          omega

/- What one call keeps. -/
theorem Inv.step
    {call : TraceCall}
    (hInv : Inv s)
    (hAdmits : Admits s call) :
    Inv (s.step call) := by
  cases call with
  | record a =>
      by_cases hOpen : Open s.engine a.ch ∧ s.engine.passes a
      · rcases record_open hOpen.1 hOpen.2 with ⟨hRing, hPos⟩
        rw [step_record, if_pos hOpen]
        apply hInv.written hRing hPos
        intro ring _ i hI
        exact absurd hI (Nat.not_lt_zero i)
      · rw [step_record, if_neg hOpen]
        exact hInv.idle (record_closed hOpen)
  | recordWithExtra a extraData extraSize =>
      by_cases hOpen : Open s.engine a.ch
      · rcases recordWithExtra_open hOpen with ⟨hRing, hPos⟩
        rw [step_recordWithExtra, if_pos hOpen]
        exact hInv.written hRing hPos (hAdmits hOpen)
      · rw [step_recordWithExtra, if_neg hOpen]
        exact hInv.idle (recordWithExtra_closed hOpen)
  | setCurrentGuestPc pc => exact hInv
  | setCurrentThreadId tid => exact hInv
  | enableChannel ch enable =>
      apply hInv.idle
      unfold TraceEngine.enableChannel
      split <;> exact Idle.refl _
  | setFilter ch filter =>
      apply hInv.idle
      unfold TraceEngine.setFilter
      split <;> exact Idle.refl _
  | setEnabled enabled => exact hInv
  | clear =>
      apply hInv.idle
      exact ⟨rfl, fun _ => Nat.zero_le _⟩

/-
  Queries return events only, as long as the slots of extra
  data do not read as other events.
-/
theorem truthful_of_admits
    (mapped : Bool)
    (calls : List TraceCall)
    (hAdmits :
      EventRun.Guarded TraceSession.step Admits
        (start mapped) calls) :
    Truthful
      (EventRun.stateAfter TraceSession.step (start mapped)
        calls) := by
  apply Inv.truthful
  exact hAdmits.invariant (I := fun _ => Inv)
    (inv_start mapped)
    (fun _ _ hInv hCall => hInv.step hCall)

/- Extra data whose channel byte is no channel's number. -/
theorem truthful_other_byte :
    Truthful
      (EventRun.stateAfter TraceSession.step (start true)
        [.record { ch := .SVC, eventId := 7, now := 1 },
          .recordWithExtra { ch := .IPC, eventId := 3, now := 2 }
            (some fun _ => 0xFF) 56]) :=
  truthful_of_admits true
    [.record { ch := .SVC, eventId := 7, now := 1 },
      .recordWithExtra { ch := .IPC, eventId := 3, now := 2 }
        (some fun _ => 0xFF) 56]
    (by decide)

/-
  Eight bytes of extra data leave the channel byte of their
  slot at zero, and the slot is returned as a system call.
-/
theorem extra_returned_as_event :
    ¬ ∀ calls : List TraceCall,
        Truthful
          (EventRun.stateAfter TraceSession.step (start true)
            calls) := by
  intro hAll
  have hQuery :=
    hAll
      [.recordWithExtra { ch := .IPC, eventId := 3, now := 2 }
        (some fun _ => 0xFF) 8]
      .SVC 0 UINT64_MAX 1000
  revert hQuery
  decide +kernel

end TraceSession

end M1Switch
