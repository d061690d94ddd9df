import M1Switch.Library.EventRun
import M1Switch.Services.Vi

/-
  The moves of the slots in the buffer queue.

  A slot goes from the producer to the queue, from there to
  the consumer, and back.  The queue does not check that the
  slot a request names is in the state the request is for, and
  it takes slots that are acquired, or queued, when it looks
  for a free one.

  Key definitions include:
    * `after`
    * `handed`

  Main results:
    * `after_cases`
    * `obeys_iff`
    * `protocol_iff`
-/

------
-- The Protocol
------

namespace M1Switch

namespace Vi

/- The queue behind a command. -/
def after (vi : Vi) (call : ServiceCall) : Vi :=
  (vi.handleCommand call).1

/- The slot in front of an output. -/
def handed (reply : ServiceReply) : Option (Fin 3) :=
  if 4 ≤ reply.written.length then
    slotOf (Bytes.word (fun i => reply.written.getD i 0) 0)
  else none

/- The move a command is for. -/
def moveOf
    (call : ServiceCall) : Option (SlotState × SlotState) :=
  match call.cmdId.toNat with
  | 100 => some (.FREE, .DEQUEUED)
  | 101 => some (.DEQUEUED, .QUEUED)
  | 102 => some (.DEQUEUED, .FREE)
  | 110 => some (.QUEUED, .ACQUIRED)
  | 111 => some (.ACQUIRED, .FREE)
  | _ => none

/- The slot a request names. -/
def named (call : ServiceCall) : Option (Fin 3) :=
  match call.cmdId.toNat with
  | 101 => slotOf call.firstU32
  | 102 => slotOf call.firstU32
  | 111 => slotOf call.firstU32
  | _ => none

/-
  Slots stay in their state or make the move of the command, a
  request for a slot in another state changes no slot, and the
  producer is not handed a slot with a frame.
-/
structure Obeys (vi : Vi) (call : ServiceCall) : Prop where
  moves :
    ∀ i,
      ((vi.after call).slots i).state = (vi.slots i).state ∨
        moveOf call =
          some ((vi.slots i).state,
            ((vi.after call).slots i).state)
  refuses :
    ∀ i, named call = some i →
      (∀ s, moveOf call ≠ some ((vi.slots i).state, s)) →
        (vi.after call).slots = vi.slots
  hands :
    call.cmdId.toNat = 100 →
      ∀ i, handed (vi.handleCommand call).2 = some i →
        (vi.slots i).state ≠ .QUEUED ∧
          (vi.slots i).state ≠ .ACQUIRED

/- A slot is free, and none before it is acquired. -/
def FreeFirst (vi : Vi) : Prop :=
  ∃ before i later,
    vi.rotation = before ++ i :: later ∧
      (vi.slots i).state = .FREE ∧
        ∀ j ∈ before, (vi.slots j).state ≠ .ACQUIRED

/- No slot is free or acquired, and the next has no frame. -/
def NextForced (vi : Vi) : Prop :=
  (∀ i, (vi.slots i).state ≠ .FREE ∧
      (vi.slots i).state ≠ .ACQUIRED) ∧
    (vi.slots (Fin.ofNat 3 vi.nextDequeueSlot)).state ≠
      .QUEUED

/-
  A free slot is found first, or the one taken by force is the
  producer's already.  A request names a slot in the state it
  is for, or one that is already as the request wants it.
-/
def Admits (vi : Vi) (call : ServiceCall) : Prop :=
  match call.cmdId.toNat with
  | 100 => vi.FreeFirst ∨ vi.NextForced
  | 101 =>
      ∀ i, slotOf call.firstU32 = some i →
        (vi.slots i).state = .DEQUEUED ∨
          submitted call (vi.slots i) = vi.slots i
  | 102 =>
      ∀ i, slotOf call.firstU32 = some i →
        (vi.slots i).state = .DEQUEUED ∨
          (vi.slots i).state = .FREE
  | 111 =>
      ∀ i, slotOf call.firstU32 = some i →
        (vi.slots i).state = .ACQUIRED ∨
          (vi.slots i).state = .FREE
  | _ => True

------
-- What Each Command Does to the Slots
------

variable {vi : Vi} {call : ServiceCall} {i : Fin 3}

theorem slotOf_ofNat (i : Fin 3) :
    slotOf (BitVec.ofNat 32 i.val) = some i := by
  have hNat : (BitVec.ofNat 32 i.val).toNat = i.val := by
    rw [BitVec.toNat_ofNat]
    exact Nat.mod_eq_of_lt (by omega)
  unfold slotOf
  simp [hNat]

/- A slot is reported where there is room for the output. -/
theorem handed_replyWords
    (call : ServiceCall)
    (w : U32)
    (ws : List U32) :
    handed (call.replyWords (w :: ws)) =
      if 4 * (ws.length + 1) ≤ call.outMax then slotOf w
      else none := by
  have hLength :
      (Bytes.ofWords (w :: ws)).length =
        4 * (ws.length + 1) :=
    Bytes.length_ofWords _
  unfold handed ServiceCall.replyWords ServiceCall.replyBytes
  rw [hLength]
  by_cases hRoom : 4 * (ws.length + 1) ≤ call.outMax
  · have hFour :
        4 ≤ (Bytes.ofWords (w :: ws)).length := by
      omega
    have hFirst :
        Bytes.word
          (fun i => (Bytes.ofWords (w :: ws)).getD i 0) 0 = w :=
      Bytes.word_ofWords (k := 0) (by simp)
    rw [if_pos hRoom, if_pos hRoom]
    show (if 4 ≤ (Bytes.ofWords (w :: ws)).length then _
      else none) = _
    rw [if_pos hFour, hFirst]
  · rw [if_neg hRoom, if_neg hRoom]
    rfl

theorem handed_dequeueBuffer (vi : Vi) (call : ServiceCall) :
    handed (vi.handleDequeueBuffer call).2 =
      if 24 ≤ call.outMax then some vi.dequeueSlot
      else none := by
  have hReply :
      (vi.handleDequeueBuffer call).2 =
        call.replyWords
          (BitVec.ofNat 32 vi.dequeueSlot.val :: ([0, 0] ++
            wordsOf (vi.slots vi.dequeueSlot).gpuAddress ++
              [FB_STRIDE])) :=
    rfl
  have hLength :
      ([0, 0] ++ wordsOf (vi.slots vi.dequeueSlot).gpuAddress ++
        [FB_STRIDE]).length = 5 :=
    rfl
  rw [hReply, handed_replyWords, hLength, slotOf_ofNat]

theorem handed_acquireBuffer
    (hQueued : vi.queuedSlot = some i)
    (hRoom : 28 ≤ call.outMax) :
    handed (vi.handleAcquireBuffer call).2 = some i := by
  have hReply :
      (vi.handleAcquireBuffer call).2 =
        call.replyWords
          (BitVec.ofNat 32 i.val :: ([0] ++
            wordsOf (vi.slots i).gpuAddress ++
              [FB_STRIDE, FB_WIDTH, FB_HEIGHT])) := by
    unfold handleAcquireBuffer
    rw [hQueued]
    rfl
  have hLength :
      ([0] ++ wordsOf (vi.slots i).gpuAddress ++
        [FB_STRIDE, FB_WIDTH, FB_HEIGHT]).length = 6 :=
    rfl
  rw [hReply, handed_replyWords, hLength, slotOf_ofNat,
    if_pos hRoom]

/- The first queued slot is queued. -/
theorem state_queuedSlot
    (hSome : vi.queuedSlot = some i) :
    (vi.slots i).state = .QUEUED := by
  simpa using List.find?_some hSome

theorem slots_queueBuffer
    (hSlot : slotOf call.firstU32 = some i) :
    (vi.handleQueueBuffer call).1.slots =
      Function.update vi.slots i
        (submitted call (vi.slots i)) := by
  simp [handleQueueBuffer, hSlot, setSlot]

theorem slots_queueBuffer_none
    (hSlot : slotOf call.firstU32 = none) :
    (vi.handleQueueBuffer call).1.slots = vi.slots := by
  simp [handleQueueBuffer, hSlot]

theorem slots_freeBuffer
    (hSlot : slotOf call.firstU32 = some i) :
    (vi.freeBuffer call).1.slots =
      Function.update vi.slots i
        { vi.slots i with state := .FREE } := by
  simp [freeBuffer, hSlot, setState, setSlot]

theorem slots_freeBuffer_none
    (hSlot : slotOf call.firstU32 = none) :
    (vi.freeBuffer call).1.slots = vi.slots := by
  simp [freeBuffer, hSlot]

theorem slots_acquireBuffer
    (hQueued : vi.queuedSlot = some i) :
    (vi.handleAcquireBuffer call).1.slots =
      Function.update vi.slots i
        { vi.slots i with state := .ACQUIRED } := by
  simp [handleAcquireBuffer, hQueued, setState, setSlot]

theorem slots_acquireBuffer_none
    (hQueued : vi.queuedSlot = none) :
    (vi.handleAcquireBuffer call).1.slots = vi.slots := by
  simp [handleAcquireBuffer, hQueued]

/-
  Five commands change one slot at most, the others none.
-/
theorem after_cases (vi : Vi) (call : ServiceCall) :
    (call.cmdId.toNat = 100 ∧
        vi.handleCommand call = vi.handleDequeueBuffer call) ∨
      (call.cmdId.toNat = 101 ∧
        vi.handleCommand call = vi.handleQueueBuffer call) ∨
      ((call.cmdId.toNat = 102 ∨ call.cmdId.toNat = 111) ∧
        vi.handleCommand call = vi.freeBuffer call) ∨
      (call.cmdId.toNat = 110 ∧
        vi.handleCommand call = vi.handleAcquireBuffer call) ∨
      (call.cmdId.toNat ≠ 100 ∧ moveOf call = none ∧
        (vi.after call).slots = vi.slots) := by
  unfold after handleCommand
  split <;> simp_all [moveOf, handleCancelBuffer,
    handleReleaseBuffer, handleConnect]

------
-- When a Command Obeys
------

/- Only the slot that is changed can break the protocol. -/
theorem moves_iff
    {slot : Slot}
    {source : SlotState}
    (hMove : moveOf call = some (source, slot.state))
    (hSlots :
      (vi.after call).slots =
        Function.update vi.slots i slot) :
    (∀ j,
      ((vi.after call).slots j).state = (vi.slots j).state ∨
        moveOf call =
          some ((vi.slots j).state,
            ((vi.after call).slots j).state)) ↔
      slot.state = (vi.slots i).state ∨
        source = (vi.slots i).state := by
  rw [hSlots, hMove]
  constructor
  · intro hAll
    simpa using hAll i
  · intro hHere j
    by_cases hJ : j = i
    · subst hJ
      simpa using hHere
    · rw [Function.update_of_ne hJ]
      exact Or.inl rfl

/- A request without effect on the slots obeys. -/
theorem obeys_of_unchanged
    (hCmd : call.cmdId.toNat ≠ 100)
    (hSlots : (vi.after call).slots = vi.slots) :
    vi.Obeys call := by
  constructor
  · intro j
    rw [hSlots]
    exact Or.inl rfl
  · exact fun _ _ _ => hSlots
  · exact fun hDequeue => absurd hDequeue hCmd

/-
  A request for a slot obeys if the slot is in the state the
  request is for, or as the request leaves it.
-/
theorem obeys_iff_of_named
    {slot : Slot}
    {source : SlotState}
    (hCmd : call.cmdId.toNat ≠ 100)
    (hNamed : named call = some i)
    (hMove : moveOf call = some (source, slot.state))
    (hSlots :
      (vi.after call).slots =
        Function.update vi.slots i slot) :
    vi.Obeys call ↔
      (vi.slots i).state = source ∨ slot = vi.slots i := by
  constructor
  · intro hObeys
    by_cases hState : (vi.slots i).state = source
    · exact Or.inl hState
    · right
      have hSame := hObeys.refuses i hNamed (by
        intro s hSome
        rw [hMove] at hSome
        simp only [Option.some.injEq, Prod.mk.injEq] at hSome
        exact hState hSome.1.symm)
      rw [hSlots] at hSame
      have hHere := congrFun hSame i
      rwa [Function.update_self] at hHere
  · rintro (hState | hSame)
    · constructor
      · rw [moves_iff hMove hSlots]
        exact Or.inr hState.symm
      · intro j hJ hOther
        obtain rfl : i = j :=
          Option.some.inj (hNamed.symm.trans hJ)
        rw [hMove, hState] at hOther
        exact absurd rfl (hOther slot.state)
      · exact fun hDequeue => absurd hDequeue hCmd
    · apply obeys_of_unchanged hCmd
      rw [hSlots, hSame, Function.update_eq_self]

/- A slot set to a state it has is as it was. -/
theorem with_state_eq_iff (slot : Slot) (state : SlotState) :
    { slot with state := state } = slot ↔
      slot.state = state := by
  constructor
  · intro hEq
    rw [← hEq]
  · rintro rfl
    rfl

theorem obeys_freeBuffer
    {source : SlotState}
    (hCmd : call.cmdId.toNat ≠ 100)
    (hNamed : named call = slotOf call.firstU32)
    (hMove : moveOf call = some (source, .FREE))
    (hCall : vi.handleCommand call = vi.freeBuffer call) :
    vi.Obeys call ↔
      ∀ i, slotOf call.firstU32 = some i →
        (vi.slots i).state = source ∨
          (vi.slots i).state = .FREE := by
  have hAfter : vi.after call = (vi.freeBuffer call).1 :=
    congrArg Prod.fst hCall
  cases hSlot : slotOf call.firstU32 with
  | none =>
      have hSlots : (vi.after call).slots = vi.slots := by
        rw [hAfter, slots_freeBuffer_none hSlot]
      exact
        iff_of_true (obeys_of_unchanged hCmd hSlots)
          (fun _ hSome => nomatch hSome)
  | some i =>
      have hSlots :
          (vi.after call).slots =
            Function.update vi.slots i
              { vi.slots i with state := .FREE } := by
        rw [hAfter, slots_freeBuffer hSlot]
      rw [obeys_iff_of_named hCmd (hNamed.trans hSlot) hMove
        hSlots, with_state_eq_iff]
      simp

theorem obeys_queueBuffer
    (hCmd : call.cmdId.toNat = 101)
    (hCall :
      vi.handleCommand call = vi.handleQueueBuffer call) :
    vi.Obeys call ↔
      ∀ i, slotOf call.firstU32 = some i →
        (vi.slots i).state = .DEQUEUED ∨
          submitted call (vi.slots i) = vi.slots i := by
  have hAfter :
      vi.after call = (vi.handleQueueBuffer call).1 :=
    congrArg Prod.fst hCall
  have hOther : call.cmdId.toNat ≠ 100 := by omega
  cases hSlot : slotOf call.firstU32 with
  | none =>
      have hSlots : (vi.after call).slots = vi.slots := by
        rw [hAfter, slots_queueBuffer_none hSlot]
      exact
        iff_of_true (obeys_of_unchanged hOther hSlots)
          (fun _ hSome => nomatch hSome)
  | some i =>
      have hSlots :
          (vi.after call).slots =
            Function.update vi.slots i
              (submitted call (vi.slots i)) := by
        rw [hAfter, slots_queueBuffer hSlot]
      have hNamed : named call = some i := by
        simpa [named, hCmd] using hSlot
      have hMove :
          moveOf call =
            some (.DEQUEUED,
              (submitted call (vi.slots i)).state) := by
        simp [moveOf, hCmd, submitted]
      rw [obeys_iff_of_named hOther hNamed hMove hSlots]
      simp

/- Only queued slots are acquired. -/
theorem obeys_acquireBuffer
    (hCmd : call.cmdId.toNat = 110)
    (hCall :
      vi.handleCommand call = vi.handleAcquireBuffer call) :
    vi.Obeys call := by
  have hAfter :
      vi.after call = (vi.handleAcquireBuffer call).1 :=
    congrArg Prod.fst hCall
  have hOther : call.cmdId.toNat ≠ 100 := by omega
  cases hQueued : vi.queuedSlot with
  | none =>
      apply obeys_of_unchanged hOther
      rw [hAfter, slots_acquireBuffer_none hQueued]
  | some i =>
      have hSlots :
          (vi.after call).slots =
            Function.update vi.slots i
              { vi.slots i with state := .ACQUIRED } := by
        rw [hAfter, slots_acquireBuffer hQueued]
      have hMove :
          moveOf call = some (.QUEUED, .ACQUIRED) := by
        simp [moveOf, hCmd]
      constructor
      · rw [moves_iff hMove hSlots]
        exact Or.inr (state_queuedSlot hQueued).symm
      · intro j hJ
        simp [named, hCmd] at hJ
      · exact fun hDequeue => absurd hDequeue hOther

------
-- Taking a Slot
------

/- Every slot is looked at. -/
theorem mem_rotation (vi : Vi) (i : Fin 3) :
    i ∈ vi.rotation := by
  unfold rotation
  rw [List.mem_map]
  refine
    ⟨(i.val + 3 - vi.nextDequeueSlot % 3) % 3, ?_, ?_⟩
  · rw [List.mem_range]
    exact Nat.mod_lt _ (by decide)
  · apply Fin.ext
    show (vi.nextDequeueSlot +
      (i.val + 3 - vi.nextDequeueSlot % 3) % 3) % 3 = i.val
    omega

/- A slot that may be taken is free or acquired. -/
def Open (vi : Vi) (i : Fin 3) : Bool :=
  decide ((vi.slots i).state = .FREE ∨
    (vi.slots i).state = .ACQUIRED)

theorem open_of_find
    (hFind : vi.rotation.find? vi.Open = some i) :
    (vi.slots i).state = .FREE ∨
      (vi.slots i).state = .ACQUIRED := by
  have hOpen : vi.Open i = true := List.find?_some hFind
  exact of_decide_eq_true hOpen

theorem not_open_of_find
    (hFind : vi.rotation.find? vi.Open = none)
    (i : Fin 3) :
    (vi.slots i).state ≠ .FREE ∧
      (vi.slots i).state ≠ .ACQUIRED := by
  have hNot :=
    List.find?_eq_none.mp hFind i (vi.mem_rotation i)
  simpa [Open] using hNot

theorem dequeueSlot_eq (vi : Vi) :
    vi.dequeueSlot =
      (vi.rotation.find? vi.Open).getD
        (Fin.ofNat 3 vi.nextDequeueSlot) :=
  rfl

/- The slot taken is free or acquired, or there is none. -/
theorem dequeueSlot_cases (vi : Vi) :
    (vi.slots vi.dequeueSlot).state = .FREE ∨
      (vi.slots vi.dequeueSlot).state = .ACQUIRED ∨
      vi.dequeueSlot = Fin.ofNat 3 vi.nextDequeueSlot ∧
        ∀ j, (vi.slots j).state ≠ .FREE ∧
          (vi.slots j).state ≠ .ACQUIRED := by
  rw [dequeueSlot_eq]
  cases hFind : vi.rotation.find? vi.Open with
  | some i =>
      rcases open_of_find hFind with hFree | hAcquired
      · exact Or.inl hFree
      · exact Or.inr (Or.inl hAcquired)
  | none =>
      exact Or.inr (Or.inr ⟨rfl, not_open_of_find hFind⟩)

/- The first open slot is free if no acquired one is before
all free ones. -/
theorem free_iff_freeFirst
    (hFind : vi.rotation.find? vi.Open = some i) :
    (vi.slots i).state = .FREE ↔ vi.FreeFirst := by
  constructor
  · intro hFree
    rcases List.find?_eq_some_iff_append.mp hFind with
      ⟨-, before, later, hSplit, hBefore⟩
    refine ⟨before, i, later, hSplit, hFree, ?_⟩
    intro j hJ hAcquired
    have hNot := hBefore j hJ
    simp [Open, hAcquired] at hNot
  · rintro ⟨before', i', later', hSplit', hFree, hNone⟩
    have hOpen := open_of_find hFind
    rw [hSplit', List.find?_append] at hFind
    cases hEarly : before'.find? vi.Open with
    | none =>
        rw [hEarly, Option.none_or,
          List.find?_cons_of_pos (by simp [Open, hFree])]
          at hFind
        rw [← Option.some.inj hFind]
        exact hFree
    | some j =>
        rw [hEarly, Option.some_or] at hFind
        rcases Option.some.inj hFind with rfl
        rcases hOpen with hFree' | hAcquired
        · exact hFree'
        · exact absurd hAcquired
            (hNone j (List.mem_of_find?_eq_some hEarly))

/- The slot taken is the producer's, or was free. -/
theorem state_dequeueSlot_iff (vi : Vi) :
    (vi.slots vi.dequeueSlot).state = .FREE ∨
        (vi.slots vi.dequeueSlot).state = .DEQUEUED ↔
      vi.FreeFirst ∨ vi.NextForced := by
  rw [dequeueSlot_eq]
  cases hFind : vi.rotation.find? vi.Open with
  | some i =>
      have hOpen := open_of_find hFind
      have hForced : ¬ vi.NextForced := by
        rintro ⟨hNone, -⟩
        rcases hOpen with hFree | hAcquired
        · exact (hNone i).1 hFree
        · exact (hNone i).2 hAcquired
      have hDequeued : (vi.slots i).state ≠ .DEQUEUED := by
        intro hState
        rw [hState] at hOpen
        rcases hOpen with hFree | hAcquired
        · cases hFree
        · cases hAcquired
      rw [Option.getD_some, free_iff_freeFirst hFind]
      simp [hForced, hDequeued]
  | none =>
      have hNone := not_open_of_find hFind
      rw [Option.getD_none]
      constructor
      · rintro (hFree | hDequeued)
        · exact absurd hFree (hNone _).1
        · refine Or.inr ⟨hNone, ?_⟩
          rw [hDequeued]
          exact fun hState => nomatch hState
      · rintro (⟨-, i, -, -, hFree, -⟩ | ⟨-, hNot⟩)
        · exact absurd hFree (hNone i).1
        · right
          generalize (Fin.ofNat 3 vi.nextDequeueSlot) = i
            at hNot ⊢
          have hHere := hNone i
          cases hState : (vi.slots i).state <;> simp_all

theorem obeys_dequeueBuffer
    (hCmd : call.cmdId.toNat = 100)
    (hCall :
      vi.handleCommand call = vi.handleDequeueBuffer call) :
    vi.Obeys call ↔ vi.FreeFirst ∨ vi.NextForced := by
  have hSlots :
      (vi.after call).slots =
        Function.update vi.slots vi.dequeueSlot
          { vi.slots vi.dequeueSlot with
            state := .DEQUEUED } := by
    unfold after
    rw [hCall]
    rfl
  have hMove :
      moveOf call = some (.FREE, .DEQUEUED) := by
    simp [moveOf, hCmd]
  have hMoves := moves_iff hMove hSlots
  rw [← state_dequeueSlot_iff]
  constructor
  · intro hObeys
    rcases hMoves.mp hObeys.moves with hDequeued | hFree
    · exact Or.inr hDequeued.symm
    · exact Or.inl hFree.symm
  · intro hTaken
    constructor
    · rw [hMoves]
      rcases hTaken with hFree | hDequeued
      · exact Or.inr hFree.symm
      · exact Or.inl hDequeued.symm
    · intro j hJ
      simp [named, hCmd] at hJ
    · intro _ i hHanded
      rw [hCall, handed_dequeueBuffer] at hHanded
      split at hHanded
      · rw [← Option.some.inj hHanded]
        rcases hTaken with hState | hState <;> simp [hState]
      · cases hHanded

------
-- Main Results
------

/- When a command obeys, in any state of the queue. -/
theorem obeys_iff (vi : Vi) (call : ServiceCall) :
    vi.Obeys call ↔ vi.Admits call := by
  unfold Admits
  rcases vi.after_cases call with
    ⟨hCmd, hCall⟩ | ⟨hCmd, hCall⟩ | ⟨hCmd | hCmd, hCall⟩ |
      ⟨hCmd, hCall⟩ | ⟨hCmd, hNone, hSlots⟩
  · simp only [hCmd]
    exact obeys_dequeueBuffer hCmd hCall
  · simp only [hCmd]
    exact obeys_queueBuffer hCmd hCall
  · simp only [hCmd]
    exact obeys_freeBuffer (by omega) (by simp [named, hCmd])
      (by simp [moveOf, hCmd]) hCall
  · simp only [hCmd]
    exact obeys_freeBuffer (by omega) (by simp [named, hCmd])
      (by simp [moveOf, hCmd]) hCall
  · simp only [hCmd]
    exact iff_of_true (obeys_acquireBuffer hCmd hCall) trivial
  · apply iff_of_true (obeys_of_unchanged hCmd hSlots)
    unfold moveOf at hNone
    split at hNone
    all_goals first | contradiction | skip
    split <;> simp_all

/-
  A run keeps to the protocol exactly if each of its commands
  is admitted in the state it finds.
-/
theorem protocol_iff (vi : Vi) (calls : List ServiceCall) :
    EventRun.Guarded after Obeys vi calls ↔
      EventRun.Guarded after Admits vi calls := by
  apply EventRun.guarded_congr (I := fun _ => True)
  · exact fun _ _ _ _ => trivial
  · exact fun vi call _ => vi.obeys_iff call
  · trivial

/- A command with a slot number for its input. -/
def request (cmdId slot : U32) : ServiceCall :=
  { service := 0
    cmdId := cmdId
    rawIn := Bytes.ofWord slot
    outMax := 0x100 }

/- A frame is queued. -/
def oneQueued : List ServiceCall :=
  [request 100 0, request 101 0]

/- Releasing its slot, which was not acquired, loses it. -/
theorem releaseQueued_not_obeys :
    ¬ EventRun.Guarded after Obeys (init true {})
        (oneQueued ++ [request 111 0]) := by
  intro hObeys
  have hLast := hObeys oneQueued _ (List.prefix_refl _)
  have hMoves := hLast.moves 0
  revert hMoves
  decide

end Vi

end M1Switch
