import Mathlib.Data.Fin.VecNotation
import Mathlib.Data.Fintype.Basic
import Mathlib.Tactic.FinCases
import M1Switch.Common.Types
import M1Switch.Library.EventRun
import M1Switch.Library.RecordBytes

/-
  The ring of trace events.

  Events and the extra data of events share the slots of the
  ring.  A slot does not say which of the two it holds: what
  is read from it is an event of the channel whose number
  stands at byte 48.

  Key definitions include:
    * `TraceEvent`
    * `toBytes`

  Main results:
    * `eventAt_putSlot`
    * `mem_query`
    * `length_query_le`
-/

------
-- Events
------

namespace M1Switch

inductive TraceChannel where
  | SVC
  | IPC
  | GPU_CMD
  | MEM
  | CPU_EXEC
  | THREAD
  | COUNT
deriving DecidableEq

instance : Fintype TraceChannel where
  elems := {.SVC, .IPC, .GPU_CMD, .MEM, .CPU_EXEC, .THREAD, .COUNT}
  complete ch := by cases ch <;> decide

/- The number of a channel. -/
def TraceChannel.code : TraceChannel → U8
| .SVC => 0
| .IPC => 1
| .GPU_CMD => 2
| .MEM => 3
| .CPU_EXEC => 4
| .THREAD => 5
| .COUNT => 6

theorem TraceChannel.code_injective :
    Function.Injective TraceChannel.code := by
  decide

/- The channel is whatever byte the slot holds. -/
structure TraceEvent where
  timestamp : U64 := 0
  guestPc : U64 := 0
  args : Fin 2 → U64 := fun _ => 0
  result : U64 := 0
  eventId : U32 := 0
  threadId : U32 := 0
  channel : U8 := 0
  extraSize : U8 := 0
  reserved : BitVec 16 := 0
deriving DecidableEq

/- An event and its channel take up 56 bytes. -/
abbrev EVENT_SIZE : Nat := 56

/- The bytes of an event.  Clearing it empties the last four. -/
def TraceEvent.toBytes (e : TraceEvent) : List U8 :=
  Bytes.ofLong e.timestamp ++ Bytes.ofLong e.guestPc ++
    (List.ofFn e.args).flatMap Bytes.ofLong ++
    Bytes.ofLong e.result ++ Bytes.ofWord e.eventId ++
    Bytes.ofWord e.threadId ++ [e.channel, e.extraSize] ++
    [WordBytes.byte e.reserved 0, WordBytes.byte e.reserved 1] ++
    [0, 0, 0, 0]

abbrev TraceFilterFn := TraceEvent → Bool

------
-- The Engine
------

/- There is no ring where it could not be allocated. -/
structure TraceEngine where
  ringBuffer : Option Bytes
  writePos : U64 := 0
  readPos : U64 := 0
  channelEnabled : TraceChannel → Bool :=
    fun ch => ch == .SVC || ch == .IPC
  filters : TraceChannel → Option TraceFilterFn := fun _ => none
  channelEventCount : TraceChannel → U64 := fun _ => 0
  guestPc : U64 := 0
  threadId : U32 := 0
  enabled : Bool := true
  totalEvents : U64 := 0
  droppedEvents : U64 := 0

namespace TraceEngine

abbrev RING_BUFFER_SIZE : Nat := 2 ^ 20

abbrev UINT64_MAX : U64 := 0xFFFFFFFFFFFFFFFF

def isChannelEnabled (e : TraceEngine) : TraceChannel → Bool
| .COUNT => false
| ch => e.channelEnabled ch

def enableChannel
    (e : TraceEngine)
    (ch : TraceChannel)
    (enable : Bool) : TraceEngine :=
  if ch = .COUNT then e
  else
    { e with
      channelEnabled := Function.update e.channelEnabled ch enable }

def setFilter
    (e : TraceEngine)
    (ch : TraceChannel)
    (filter : Option TraceFilterFn) : TraceEngine :=
  if ch = .COUNT then e
  else { e with filters := Function.update e.filters ch filter }

/- The slots of an event and of the extra data behind it. -/
def slotsNeeded (extraSize : U8) : Nat :=
  if extraSize = 0 then 1
  else 1 + (extraSize.toNat + EVENT_SIZE - 1) / EVENT_SIZE

def allocateSlot
    (e : TraceEngine)
    (extraSize : U8) : TraceEngine × U64 :=
  let slots := slotsNeeded extraSize
  let pos := e.writePos
  let e := { e with writePos := pos + BitVec.ofNat 64 slots }
  match e.ringBuffer with
  | none =>
      ({ e with droppedEvents := e.droppedEvents + 1 },
        UINT64_MAX)
  | some _ =>
      if (pos - e.readPos).toNat > RING_BUFFER_SIZE - slots then
        ({ e with
            droppedEvents := e.droppedEvents + 1
            readPos :=
              pos - BitVec.ofNat 64 RING_BUFFER_SIZE +
                BitVec.ofNat 64 slots }, pos)
      else (e, pos)

/- What a caller says about an event, and when. -/
structure TraceArgs where
  ch : TraceChannel
  eventId : U32
  arg0 : U64 := 0
  arg1 : U64 := 0
  result : U64 := 0
  now : U64

/- The event as the filter of its channel sees it. -/
def filtered (a : TraceArgs) : TraceEvent :=
  { channel := a.ch.code
    eventId := a.eventId
    args := ![a.arg0, a.arg1]
    result := a.result }

def event
    (e : TraceEngine)
    (a : TraceArgs)
    (extraSize : U8) : TraceEvent :=
  { timestamp := a.now
    guestPc := e.guestPc
    threadId := e.threadId
    channel := a.ch.code
    eventId := a.eventId
    args := ![a.arg0, a.arg1]
    result := a.result
    extraSize := extraSize }

def counted (e : TraceEngine) (ch : TraceChannel) : TraceEngine :=
  { e with
    channelEventCount :=
      Function.update e.channelEventCount ch
        (e.channelEventCount ch + 1)
    totalEvents := e.totalEvents + 1 }

/- Store into the slot with number `idx`. -/
def putSlot
    (ring : Bytes)
    (idx : Nat)
    (bytes : List U8) : Bytes :=
  ring.store (EVENT_SIZE * idx) bytes

/- The event passes the filter of its channel. -/
def passes (e : TraceEngine) (a : TraceArgs) : Bool :=
  match e.filters a.ch with
  | none => true
  | some filter => filter (filtered a)

def record (e : TraceEngine) (a : TraceArgs) : TraceEngine :=
  if ¬ e.enabled then e
  else if ¬ e.isChannelEnabled a.ch then e
  else if ¬ e.passes a then e
  else
    let (e', pos) := e.allocateSlot 0
    if pos = UINT64_MAX then e'
    else
      let ringIdx := pos.toNat % RING_BUFFER_SIZE
      { e'.counted a.ch with
        ringBuffer :=
          e'.ringBuffer.map fun ring =>
            putSlot ring ringIdx (e.event a 0).toBytes }

/- The part of the extra data that slot `i` is given. -/
def chunk
    (extraData : Nat → U8)
    (extraSize : U8)
    (i : Nat) : List U8 :=
  let offset := i * EVENT_SIZE
  let remaining := extraSize.toNat - offset
  let copySize :=
    if remaining < EVENT_SIZE then remaining else EVENT_SIZE
  (List.range copySize).map fun j => extraData (offset + j)

/- Copy the extra data to the slots behind the event. -/
def putExtra
    (ring : Bytes)
    (ringIdx : Nat)
    (extraData : Nat → U8)
    (extraSize : U8) : Nat → Bytes
| 0 => ring
| i + 1 =>
    putSlot (putExtra ring ringIdx extraData extraSize i)
      ((ringIdx + 1 + i) % RING_BUFFER_SIZE)
      (chunk extraData extraSize i)

/- Without extra data the slots are left as they are. -/
def recordWithExtra
    (e : TraceEngine)
    (a : TraceArgs)
    (extraData : Option (Nat → U8))
    (extraSize : U8) : TraceEngine :=
  if ¬ e.enabled then e
  else if ¬ e.isChannelEnabled a.ch then e
  else
    let (e', pos) := e.allocateSlot extraSize
    if pos = UINT64_MAX then e'
    else
      let ringIdx := pos.toNat % RING_BUFFER_SIZE
      { e'.counted a.ch with
        ringBuffer :=
          e'.ringBuffer.map fun ring =>
            let ring :=
              putSlot ring ringIdx
                (e.event a extraSize).toBytes
            match extraData with
            | none => ring
            | some data =>
                putExtra ring ringIdx data extraSize
                  (slotsNeeded extraSize - 1) }

def clear (e : TraceEngine) : TraceEngine :=
  { e with
    writePos := 0
    readPos := 0
    totalEvents := 0
    droppedEvents := 0
    channelEventCount := fun _ => 0 }

/- What the slot with number `idx` reads as. -/
def eventAt (ring : Bytes) (idx : Nat) : TraceEvent :=
  let start := EVENT_SIZE * idx
  { timestamp := ring.long start
    guestPc := ring.long (start + 8)
    args := ![ring.long (start + 16), ring.long (start + 24)]
    result := ring.long (start + 32)
    eventId := ring.word (start + 40)
    threadId := ring.word (start + 44)
    channel := ring (start + 48)
    extraSize := ring (start + 49)
    reserved := ring (start + 51) ++ ring (start + 50) }

/- Look through `n` slots behind `read`, the newest first. -/
def scan
    (ring : Bytes)
    (ch : TraceChannel)
    (fromTs toTs : U64)
    (maxCount : U32)
    (read : Nat) : Nat → List TraceEvent → List TraceEvent
| 0, found => found
| n + 1, found =>
    if found.length < maxCount.toNat then
      let evt := eventAt ring ((read + n) % RING_BUFFER_SIZE)
      if evt.channel ≠ ch.code then
        scan ring ch fromTs toTs maxCount read n found
      else if evt.timestamp < fromTs ∨ toTs < evt.timestamp then
        scan ring ch fromTs toTs maxCount read n found
      else
        scan ring ch fromTs toTs maxCount read n (found ++ [evt])
    else found

/- Events of one time are given in no particular order. -/
def query
    (e : TraceEngine)
    (ch : TraceChannel)
    (fromTs toTs : U64)
    (maxCount : U32) : List TraceEvent :=
  match e.ringBuffer with
  | none => []
  | some ring =>
      (scan ring ch fromTs toTs maxCount e.readPos.toNat
          (e.writePos.toNat - e.readPos.toNat) []).mergeSort
        fun a b => decide (a.timestamp ≤ b.timestamp)

------
-- Slots
------

variable {ring ring' : Bytes}

@[simp] theorem length_toBytes (evt : TraceEvent) :
    evt.toBytes.length = EVENT_SIZE :=
  rfl

/- Two rings have the same bytes in a slot. -/
def SameSlot (ring ring' : Bytes) (idx : Nat) : Prop :=
  ∀ j < EVENT_SIZE,
    ring (EVENT_SIZE * idx + j) = ring' (EVENT_SIZE * idx + j)

/- The slot keeps them when the same is put into it. -/
theorem SameSlot.putSlot
    {idx : Nat}
    {bytes : List U8}
    (hBytes : SameSlot ring ring' idx) :
    SameSlot (putSlot ring idx bytes)
      (putSlot ring' idx bytes) idx := by
  intro j hJ
  have hOld := hBytes j hJ
  unfold TraceEngine.putSlot Bytes.store
  rw [hOld]

/- An event depends on the bytes of its slot only. -/
theorem SameSlot.eventAt
    {idx : Nat}
    (hBytes : SameSlot ring ring' idx) :
    eventAt ring idx = eventAt ring' idx := by
  have hLong :
      ∀ k, k + 8 ≤ EVENT_SIZE →
        ring.long (EVENT_SIZE * idx + k) =
          ring'.long (EVENT_SIZE * idx + k) := by
    intro k hK
    apply Bytes.long_congr
    intro j hJ
    rw [Nat.add_assoc]
    exact hBytes (k + j) (by omega)
  have hWord :
      ∀ k, k + 4 ≤ EVENT_SIZE →
        ring.word (EVENT_SIZE * idx + k) =
          ring'.word (EVENT_SIZE * idx + k) := by
    intro k hK
    apply Bytes.word_congr
    intro j hJ
    rw [Nat.add_assoc]
    exact hBytes (k + j) (by omega)
  have hFirst := hLong 0 (by decide)
  rw [Nat.add_zero] at hFirst
  unfold TraceEngine.eventAt
  simp only [hFirst, hLong 8 (by decide),
    hLong 16 (by decide), hLong 24 (by decide),
    hLong 32 (by decide), hWord 40 (by decide),
    hWord 44 (by decide), hBytes 48 (by decide),
    hBytes 49 (by decide), hBytes 50 (by decide),
    hBytes 51 (by decide)]

/- Two bytes and the number they are. -/
theorem append_reserved (x : BitVec 16) :
    WordBytes.byte x 1 ++ WordBytes.byte x 0 = x := by
  apply BitVec.eq_of_getLsbD_eq
  intro i hI
  rw [BitVec.getLsbD_append]
  unfold WordBytes.byte
  rw [BitVec.getLsbD_extractLsb', BitVec.getLsbD_extractLsb']
  by_cases hLow : i < 8
  · simp [hLow]
  · have hPos : 8 + (i - 8) = i := by omega
    have hHigh : i - 8 < 8 := by omega
    simp [hLow, hPos, hHigh]

/- The bytes of an event, one by one. -/
theorem take_drop_toBytes (evt : TraceEvent) :
    (evt.toBytes.drop 0).take 8 = Bytes.ofLong evt.timestamp ∧
      (evt.toBytes.drop 8).take 8 = Bytes.ofLong evt.guestPc ∧
      (evt.toBytes.drop 16).take 8 =
        Bytes.ofLong (evt.args 0) ∧
      (evt.toBytes.drop 24).take 8 =
        Bytes.ofLong (evt.args 1) ∧
      (evt.toBytes.drop 32).take 8 = Bytes.ofLong evt.result ∧
      (evt.toBytes.drop 40).take 4 = Bytes.ofWord evt.eventId ∧
      (evt.toBytes.drop 44).take 4 =
        Bytes.ofWord evt.threadId := by
  simp [TraceEvent.toBytes, Bytes.ofLong, Bytes.ofWord]

theorem getD_toBytes (evt : TraceEvent) :
    evt.toBytes.getD 48 0 = evt.channel ∧
      evt.toBytes.getD 49 0 = evt.extraSize ∧
      evt.toBytes.getD 50 0 = WordBytes.byte evt.reserved 0 ∧
      evt.toBytes.getD 51 0 =
        WordBytes.byte evt.reserved 1 := by
  simp [TraceEvent.toBytes, Bytes.ofLong, Bytes.ofWord]

/- A slot that an event was stored to reads as that event. -/
theorem eventAt_putSlot
    (ring : Bytes)
    (idx : Nat)
    (evt : TraceEvent) :
    eventAt (putSlot ring idx evt.toBytes) idx = evt := by
  have hLong :
      ∀ {k : Nat} {l : U64},
        (evt.toBytes.drop k).take 8 = Bytes.ofLong l →
          k + 8 ≤ EVENT_SIZE →
            Bytes.long (putSlot ring idx evt.toBytes)
              (EVENT_SIZE * idx + k) = l := by
    intro k l hField hIn
    apply Bytes.long_of_slice
    rw [← hField]
    rw [← length_toBytes evt] at hIn
    exact Bytes.slice_store_field hIn
  have hWord :
      ∀ {k : Nat} {w : U32},
        (evt.toBytes.drop k).take 4 = Bytes.ofWord w →
          k + 4 ≤ EVENT_SIZE →
            Bytes.word (putSlot ring idx evt.toBytes)
              (EVENT_SIZE * idx + k) = w := by
    intro k w hField hIn
    apply Bytes.word_of_slice
    rw [← hField]
    rw [← length_toBytes evt] at hIn
    exact Bytes.slice_store_field hIn
  have hByte :
      ∀ {k : Nat} {b : U8},
        evt.toBytes.getD k 0 = b →
          k < EVENT_SIZE →
            putSlot ring idx evt.toBytes
              (EVENT_SIZE * idx + k) = b := by
    intro k b hField hIn
    rw [← hField]
    rw [← length_toBytes evt] at hIn
    exact Bytes.store_inside hIn
  have hArgs : ![evt.args 0, evt.args 1] = evt.args := by
    funext i
    fin_cases i <;> rfl
  rcases take_drop_toBytes evt with
    ⟨hTime, hPc, hArg₀, hArg₁, hResult, hId, hThread⟩
  rcases getD_toBytes evt with ⟨hChannel, hExtra, hLow, hHigh⟩
  have hStart := hLong hTime (by decide)
  rw [Nat.add_zero] at hStart
  unfold eventAt
  simp only [hStart, hLong hPc (by decide),
    hLong hArg₀ (by decide), hLong hArg₁ (by decide),
    hLong hResult (by decide), hWord hId (by decide),
    hWord hThread (by decide), hByte hChannel (by decide),
    hByte hExtra (by decide), hByte hLow (by decide),
    hByte hHigh (by decide), append_reserved, hArgs]

/- A slot does not change with what is put into another. -/
theorem sameSlot_putSlot_ne
    {idx idx' : Nat}
    {bytes : List U8}
    (hSize : bytes.length ≤ EVENT_SIZE)
    (hNe : idx ≠ idx') :
    SameSlot (putSlot ring idx' bytes) ring idx := by
  intro j hJ
  apply Bytes.store_apart
  unfold EVENT_SIZE at *
  rcases Nat.lt_or_gt_of_ne hNe with hLt | hGt
  · left
    omega
  · right
    omega

------
-- What Queries Find
------

/- What is found was found before, or stands in a slot. -/
theorem mem_scan
    {ch : TraceChannel}
    {fromTs toTs : U64}
    {maxCount : U32}
    {read n : Nat}
    {found : List TraceEvent}
    {evt : TraceEvent}
    (hMem :
      evt ∈ scan ring ch fromTs toTs maxCount read n found) :
    evt ∈ found ∨
      ∃ p < read + n,
        eventAt ring (p % RING_BUFFER_SIZE) = evt ∧
          evt.channel = ch.code := by
  induction n generalizing found with
  | zero => exact Or.inl hMem
  | succ n ih =>
      have hOlder :
          ∀ found',
            evt ∈ scan ring ch fromTs toTs maxCount read n
              found' →
              evt ∈ found' ∨
                ∃ p < read + (n + 1),
                  eventAt ring (p % RING_BUFFER_SIZE) = evt ∧
                    evt.channel = ch.code := by
        intro found' hMem'
        rcases ih hMem' with hFound | ⟨p, hP, hEvt⟩
        · exact Or.inl hFound
        · exact Or.inr ⟨p, by omega, hEvt⟩
      unfold scan at hMem
      simp only at hMem
      split at hMem
      · split at hMem
        · exact hOlder found hMem
        · next hChannel =>
            split at hMem
            · exact hOlder found hMem
            · rcases hOlder _ hMem with hIn | hSlot
              · rcases List.mem_append.1 hIn with hFound | hNew
                · exact Or.inl hFound
                · have hEq := List.mem_singleton.1 hNew
                  right
                  refine ⟨read + n, by omega, hEq.symm, ?_⟩
                  rw [hEq]
                  exact Decidable.not_not.1 hChannel
              · exact Or.inr hSlot
      · exact Or.inl hMem

/- A query finds what stands in the slots written so far. -/
theorem mem_query
    {e : TraceEngine}
    {ch : TraceChannel}
    {fromTs toTs : U64}
    {maxCount : U32}
    {evt : TraceEvent}
    (hMem : evt ∈ e.query ch fromTs toTs maxCount) :
    ∃ ring, e.ringBuffer = some ring ∧
      ∃ p < e.writePos.toNat,
        eventAt ring (p % RING_BUFFER_SIZE) = evt ∧
          evt.channel = ch.code := by
  unfold query at hMem
  split at hMem
  · simp at hMem
  · next ring hRing =>
      rw [List.mem_mergeSort] at hMem
      refine ⟨ring, hRing, ?_⟩
      rcases mem_scan hMem with hNone | ⟨p, hP, hEvt⟩
      · simp at hNone
      · by_cases hLe : e.readPos.toNat ≤ e.writePos.toNat
        · exact ⟨p, by omega, hEvt⟩
        · have hZero :
              e.writePos.toNat - e.readPos.toNat = 0 := by
            omega
          rw [hZero] at hMem
          simp [scan] at hMem

end TraceEngine

end M1Switch
