import Mathlib.Data.Fintype.Basic
import M1Switch.Services.Ipc

/-
  The display service and its buffer queue.

  A producer takes a slot out of the queue, renders into it
  and queues it.  A consumer acquires a queued slot, shows it
  and releases it.  Slots are numbered; there is no list of
  queued frames.

  Key definitions include:
    * `SlotState`
    * `Slot`
-/

------
-- The Buffer Queue
------

namespace M1Switch

inductive SlotState where
  | FREE
  | DEQUEUED
  | QUEUED
  | ACQUIRED
deriving DecidableEq

namespace SlotState

def code : SlotState → U32
  | .FREE => 0
  | .DEQUEUED => 1
  | .QUEUED => 2
  | .ACQUIRED => 3

end SlotState

structure Slot where
  gpuAddress : U64 := 0
  state : SlotState := .FREE
  crop : List U32 := [0, 0, 0, 0]
  transform : U32 := 0
deriving DecidableEq

/- The queue, the layer, and whether a frame is new. -/
structure Vi where
  slots : Fin 3 → Slot := fun _ => {}
  nextDequeueSlot : Nat := 0
  connected : Bool := false
  layerCreated : Bool := false
  newFrame : Bool := false

namespace Vi

def NUM_SLOTS : Nat := 3
def FB_ADDR : U64 := 0xE0000000
def FB_SIZE : U64 := 0x800000
def FB_WIDTH : U32 := 1280
def FB_HEIGHT : U32 := 720
def FB_STRIDE : U32 := FB_WIDTH * 4
def displayId : U32 := 1
def layerId : U64 := 0x0100000000000000

/- The slots get their addresses once there is memory. -/
def init (hasMemory : Bool) (vi : Vi) : Vi :=
  if hasMemory then
    { vi with
      slots := fun i =>
        { vi.slots i with
          gpuAddress :=
            FB_ADDR + BitVec.ofNat 64 i.val * (FB_SIZE / 2) } }
  else vi

def setSlot (vi : Vi) (i : Fin 3) (slot : Slot) : Vi :=
  { vi with slots := Function.update vi.slots i slot }

def setState (vi : Vi) (i : Fin 3) (state : SlotState) : Vi :=
  vi.setSlot i { vi.slots i with state := state }

/- A signed word that names a slot is not negative. -/
def slotOf (w : U32) : Option (Fin 3) :=
  if h : w.toNat < 3 then some ⟨w.toNat, h⟩ else none

/- The slots, from the one behind the last dequeued. -/
def rotation (vi : Vi) : List (Fin 3) :=
  (List.range NUM_SLOTS).map fun i =>
    Fin.ofNat 3 (vi.nextDequeueSlot + i)

/- The first slot that is free or was acquired; without one,
the next slot is taken by force. -/
def dequeueSlot (vi : Vi) : Fin 3 :=
  (vi.rotation.find? fun i =>
    (vi.slots i).state = .FREE ∨
      (vi.slots i).state = .ACQUIRED).getD
    (Fin.ofNat 3 vi.nextDequeueSlot)

/- The first queued slot, by its number. -/
def queuedSlot (vi : Vi) : Option (Fin 3) :=
  (List.finRange 3).find? fun i =>
    (vi.slots i).state = .QUEUED

------
-- Commands
------

def handleDequeueBuffer
    (vi : Vi)
    (call : ServiceCall) : Vi × ServiceReply :=
  let slot := vi.dequeueSlot
  ({ vi.setState slot .DEQUEUED with
      nextDequeueSlot := slot.val + 1 },
    call.replyWords
      ([BitVec.ofNat 32 slot.val, 0, 0] ++
        wordsOf (vi.slots slot).gpuAddress ++ [FB_STRIDE]))

/- The slot with what the input says about the frame. -/
def submitted (call : ServiceCall) (slot : Slot) : Slot :=
  { slot with
    state := .QUEUED
    crop :=
      if 24 ≤ call.rawIn.length then
        (List.range 4).map fun i => call.readU32 (4 + i * 4)
      else slot.crop
    transform :=
      if 44 ≤ call.rawIn.length then call.readU32 20
      else slot.transform }

def handleQueueBuffer
    (vi : Vi)
    (call : ServiceCall) : Vi × ServiceReply :=
  (match slotOf call.firstU32 with
    | some i =>
        { vi.setSlot i (submitted call (vi.slots i)) with
          newFrame := true }
    | none => vi,
    call.replyWords [0])

/- A slot is freed, whatever its state. -/
def freeBuffer
    (vi : Vi)
    (call : ServiceCall) : Vi × ServiceReply :=
  (match slotOf call.firstU32 with
    | some i => vi.setState i .FREE
    | none => vi,
    {})

def handleCancelBuffer
    (vi : Vi)
    (call : ServiceCall) : Vi × ServiceReply :=
  vi.freeBuffer call

def handleAcquireBuffer
    (vi : Vi)
    (call : ServiceCall) : Vi × ServiceReply :=
  match vi.queuedSlot with
  | some i =>
      (vi.setState i .ACQUIRED,
        call.replyWords
          ([BitVec.ofNat 32 i.val, 0] ++
            wordsOf (vi.slots i).gpuAddress ++
            [FB_STRIDE, FB_WIDTH, FB_HEIGHT]))
  | none => (vi, call.replyWords [0xFFFFFFFF])

def handleReleaseBuffer
    (vi : Vi)
    (call : ServiceCall) : Vi × ServiceReply :=
  vi.freeBuffer call

/- The queue, as it is sent to a producer. -/
def parcel (vi : Vi) : List U8 :=
  let iface := "android.gui.BufferQueue".toList
  Bytes.ofWord (BitVec.ofNat 32 iface.length) ++
    iface.map (fun c => BitVec.ofNat 8 c.toNat) ++
    Bytes.ofWords
      ([if vi.connected then 1 else 0,
          BitVec.ofNat 32 NUM_SLOTS] ++
        (List.finRange 3).flatMap (fun i =>
          wordsOf (vi.slots i).gpuAddress ++
            [(vi.slots i).state.code]) ++
        [FB_WIDTH, FB_HEIGHT, 4, 0])

/- The parcel is put out without a look at the room. -/
def handleConnect (vi : Vi) : Vi × ServiceReply :=
  let vi := { vi with connected := true }
  (vi,
    { written := vi.parcel
      outSize := vi.parcel.length })

/- Width, height, 60 Hz, pixel format and index, in a record
of fourteen words. -/
def displayMode : List U32 :=
  [FB_WIDTH, FB_HEIGHT, 0x42700000, 4, 0] ++
    List.replicate 9 0

def handleCommand
    (vi : Vi)
    (call : ServiceCall) : Vi × ServiceReply :=
  match call.cmdId.toNat with
  | 1 => (vi, call.replyWords [displayId, 0])
  | 3 => (vi, call.replyWords [FB_WIDTH, FB_HEIGHT])
  | 10 =>
      ({ vi with layerCreated := true },
        call.replyWords (wordsOf layerId))
  | 11 => ({ vi with layerCreated := false }, {})
  | 20 => (vi, call.replyWords (wordsOf layerId))
  | 30 => (vi, call.replyWords [0, 0])
  | 50 => (vi, call.replyWords displayMode)
  | 100 => vi.handleDequeueBuffer call
  | 101 => vi.handleQueueBuffer call
  | 102 => vi.handleCancelBuffer call
  | 110 => vi.handleAcquireBuffer call
  | 111 => vi.handleReleaseBuffer call
  | 120 => vi.handleConnect
  | 121 => ({ vi with connected := false }, {})
  | _ => (vi, {})

/- The display shows the first slot with a frame in it. -/
def getCurrentFramebuffer (vi : Vi) : U64 :=
  match (List.finRange 3).find? fun i =>
      (vi.slots i).state = .QUEUED ∨
        (vi.slots i).state = .ACQUIRED with
  | some i => (vi.slots i).gpuAddress
  | none => FB_ADDR

end Vi

end M1Switch
