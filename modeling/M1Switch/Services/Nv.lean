import M1Switch.Gpu.StateTracker
import M1Switch.Library.EventRun
import M1Switch.Memory.Mapping
import M1Switch.Services.Ipc

/-
  The graphics driver: memory objects, the submission of
  commands, and sync points.

  A memory object is created with a size, and gets an address
  when it is allocated.  Addresses are taken from a region of
  their own, one behind the other.  One counter gives sync
  points their numbers and fences their values.

  Key definitions include:
    * `NvMap`
    * `handleCommand`
-/

------
-- Memory Objects
------

namespace M1Switch

structure NvMapEntry where
  handle : U32
  id : U32
  size : U64
  align : U64
  addr : U64 := 0
  iova : U64 := 0
  flags : U32 := 0
  cached : Bool := true
  mapped : Bool := false
deriving DecidableEq

/- The objects, where each handle is found among them, the
next number, and how much of the region is taken. -/
structure NvMap where
  entries : List NvMapEntry := []
  handleIndex : U32 → Option Nat := fun _ => none
  nextId : U32 := 1
  carveoutOffset : U64 := 0

namespace NvMap

def CARVEOUT_BASE : U64 := 0xD0000000
def CARVEOUT_SIZE : U64 := 0x10000000

/- The mark in the handles of memory objects. -/
def tag : U32 := 0xCAFE0000

/- An alignment of zero stands for a page. -/
def requested (align : U32) : U64 :=
  if 0 < align then align.setWidth 64 else 0x1000

/- Enter an object under the next number. -/
def create
    (nv : NvMap)
    (size : U32)
    (align : U64) : U32 × NvMap :=
  let entry : NvMapEntry :=
    { handle := nv.nextId ||| tag
      id := nv.nextId
      size := size.setWidth 64
      align := align }
  (entry.handle,
    { nv with
      entries := nv.entries ++ [entry]
      handleIndex := fun h =>
        if h = entry.handle then some nv.entries.length
        else nv.handleIndex h
      nextId := nv.nextId + 1 })

def lookupByHandle
    (nv : NvMap)
    (handle : U32) : Option NvMapEntry :=
  (nv.handleIndex handle).bind fun i => nv.entries[i]?

/- An object for a caller inside the program. -/
def nvMapAlloc
    (nv : NvMap)
    (size align : U32) : U32 × NvMap :=
  nv.create size (requested align)

/- The handle of the first object with a number. -/
def fromId (nv : NvMap) (id : U32) : U32 :=
  match nv.entries.find? fun e => e.id = id with
  | some e => e.handle
  | none => id ||| tag

def getId (nv : NvMap) (handle : U32) : U32 :=
  match nv.lookupByHandle handle with
  | some e => e.id
  | none => handle &&& 0xFFFF

def getHandle (id : U32) : U32 :=
  id ||| tag

/- The memory an object takes. -/
def allocSize (entry : NvMapEntry) : U64 :=
  alignUp entry.size
    (if entry.align ≠ 0 then entry.align else 0x1000)

/-
  Give an object an address, unless it has one.  The size is
  rounded up to the alignment; the address is not.
-/
def place
    (offset : U64)
    (entry : NvMapEntry)
    (mem : Option HostMemory)
    (hostMaps : Bool) :
    NvMapEntry × U64 × Option HostMemory :=
  match mem with
  | none => (entry, offset, none)
  | some m =>
      if entry.addr ≠ 0 then (entry, offset, some m)
      else if offset + allocSize entry > CARVEOUT_SIZE then
        (entry, offset, some m)
      else
        let allocAddr := CARVEOUT_BASE + offset
        let r :=
          m.mapPhysical allocAddr (allocSize entry) .RW none
            hostMaps
        if r.1 = .Success then
          ({ entry with
              addr := allocAddr
              iova := allocAddr
              mapped := true },
            offset + allocSize entry, some r.2)
        else (entry, offset, some r.2)

/- The object with what the request says about it. -/
def configured
    (call : ServiceCall)
    (entry : NvMapEntry) : NvMapEntry :=
  let kind := call.rawIn.getD 16 0
  { entry with
    align := requested (call.readU32 12)
    flags := call.readU32 8
    cached := kind = 0 ∨ kind = 1 }

def handleCreate
    (nv : NvMap)
    (call : ServiceCall) : NvMap × ServiceReply :=
  let created := nv.create call.firstU32 0x1000
  (created.2, call.replyWords [created.1])

def handleFromId
    (nv : NvMap)
    (call : ServiceCall) : ServiceReply :=
  call.replyWords [nv.fromId call.firstU32]

def handleAlloc
    (nv : NvMap)
    (mem : Option HostMemory)
    (call : ServiceCall)
    (hostMaps : Bool) : NvMap × Option HostMemory :=
  if call.rawIn.length < 0x20 then (nv, mem)
  else
    match nv.handleIndex (call.readU32 0) with
    | none => (nv, mem)
    | some i =>
        match nv.entries[i]? with
        | none => (nv, mem)
        | some entry =>
            let placed :=
              place nv.carveoutOffset (configured call entry)
                mem hostMaps
            ({ nv with
                entries := nv.entries.set i placed.1
                carveoutOffset := placed.2.1 },
              placed.2.2)

/- The object loses its address; the memory stays mapped. -/
def handleFree
    (nv : NvMap)
    (call : ServiceCall) : NvMap :=
  match nv.handleIndex call.firstU32 with
  | none => nv
  | some i =>
      match nv.entries[i]? with
      | none => nv
      | some entry =>
          { nv with
            entries :=
              nv.entries.set i
                { entry with
                  addr := 0
                  mapped := false } }

/- What is asked about an object. -/
def param (entry : NvMapEntry) (p : U32) : U32 :=
  match p.toNat with
  | 0 => entry.size.extractLsb' 0 32
  | 1 => entry.align.extractLsb' 0 32
  | 2 => if entry.cached then 1 else 0
  | 3 => entry.iova.extractLsb' 0 32
  | 4 => entry.iova.extractLsb' 32 32
  | _ => 0

def handleParam
    (nv : NvMap)
    (call : ServiceCall) : ServiceReply :=
  let long := 8 ≤ call.rawIn.length
  let handle := if long then call.readU32 0 else 0
  let p := if long then call.readU32 4 else 0
  call.replyWords
    [((nv.lookupByHandle handle).map (param · p)).getD 0]

def handleGetId
    (nv : NvMap)
    (call : ServiceCall) : ServiceReply :=
  call.replyWords [nv.getId call.firstU32]

def handleGetHandle (call : ServiceCall) : ServiceReply :=
  call.replyWords [getHandle call.firstU32]

inductive Ioctl where
  | create
  | fromId
  | alloc
  | free
  | param
  | getId
  | getHandle
  | other
deriving DecidableEq

/- Cache operations do nothing, as unknown requests. -/
def ioctl (cmdId : U32) : Ioctl :=
  if cmdId = 0xC0100001 then .create
  else if cmdId = 0xC0080002 then .fromId
  else if cmdId = 0xC0200004 then .alloc
  else if cmdId = 0xC0180005 then .free
  else if cmdId = 0xC00C0007 then .param
  else if cmdId = 0xC008000E then .getId
  else if cmdId = 0xC008000F then .getHandle
  else .other

def handleCommand
    (nv : NvMap)
    (mem : Option HostMemory)
    (call : ServiceCall)
    (hostMaps : Bool) :
    NvMap × Option HostMemory × ServiceReply :=
  match ioctl call.cmdId with
  | .create =>
      ((nv.handleCreate call).1, mem, (nv.handleCreate call).2)
  | .fromId => (nv, mem, nv.handleFromId call)
  | .alloc =>
      ((nv.handleAlloc mem call hostMaps).1,
        (nv.handleAlloc mem call hostMaps).2,
        call.replyWords [0])
  | .free => (nv.handleFree call, mem, call.replyWords [0])
  | .param => (nv, mem, nv.handleParam call)
  | .getId => (nv, mem, nv.handleGetId call)
  | .getHandle => (nv, mem, handleGetHandle call)
  | .other => (nv, mem, {})

end NvMap

------
-- Objects over Time
------

/- The objects and the memory of the guest, if it is there. -/
structure NvDevice where
  map : NvMap := {}
  mem : Option HostMemory := none

/- A command, with what the host does about a mapping, a call
from inside the program, or a write of the guest. -/
inductive NvEvent where
  | command (call : ServiceCall) (hostMaps : Bool)
  | nvMapAlloc (size align : U32)
  | store (address : Nat) (value : U8)
deriving DecidableEq

namespace NvDevice

def step (dev : NvDevice) : NvEvent → NvDevice
  | .command call hostMaps =>
      let r := dev.map.handleCommand dev.mem call hostMaps
      { map := r.1
        mem := r.2.1 }
  | .nvMapAlloc size align =>
      { dev with map := (dev.map.nvMapAlloc size align).2 }
  | .store address value =>
      { dev with
        mem := dev.mem.map fun m => m.store address value }

/- The objects and the memory behind a run. -/
def after
    (mem : Option HostMemory)
    (events : List NvEvent) : NvDevice :=
  EventRun.stateAfter step { mem := mem } events

end NvDevice

------
-- Commands and Fences
------

abbrev MAX_SYNCPT : Nat := 24

/- The counter of sync points and fences, and the values of
the sync points. -/
structure Syncpts where
  counter : U32 := 0
  value : Fin MAX_SYNCPT → U32 := fun _ => 0

namespace Syncpts

/- A word of guest memory; nothing beyond its end. -/
def readWord (mem : Memory) (address : U64) : Option U32 :=
  if !Memory.isValid address ∨
      address.toNat + 4 > Memory.ADDR_SPACE_SIZE then none
  else some (Bytes.word mem.bytes address.toNat)

/- The words of a pushbuffer; zeros from the first on that
cannot be read. -/
def readWords
    (mem : Memory)
    (address : U64) : Nat → List U32
  | 0 => []
  | n + 1 =>
      match readWord mem address with
      | some w => w :: readWords mem (address + 4) n
      | none => List.replicate (n + 1) 0

/- The tracker, once it has the words; nothing where a
submission has no effect. -/
def pushWords
    (mem : Option Memory)
    (tracker : Option StateTracker)
    (call : ServiceCall) : Option StateTracker :=
  let pbAddr := call.readU32 4 ++ call.readU32 0
  let numWords := (call.readU32 8).toNat
  match mem, tracker with
  | some m, some t =>
      if call.rawIn.length < 16 ∨ numWords = 0 then none
      else
        some
          (t.pushBuffer
            (readWords m pbAddr (min numWords 65536))).1
  | _, _ => none

/- The fence of a submission takes the next number. -/
def handleSubmitGpfifo
    (sp : Syncpts)
    (mem : Option Memory)
    (tracker : Option StateTracker)
    (call : ServiceCall) :
    Syncpts × Option StateTracker × ServiceReply :=
  if call.rawIn.length < 16 then
    (sp, tracker,
      { handled := false
        outSize := call.outMax })
  else
    match pushWords mem tracker call with
    | none => (sp, tracker, {})
    | some t =>
        if 8 ≤ call.outMax then
          ({ sp with counter := sp.counter + 1 }, some t,
            call.replyWords [0, sp.counter])
        else (sp, some t, { outSize := call.outMax })

/- The number of a new sync point, the last one when there are
no more. -/
def idOf (counter : U32) : Fin MAX_SYNCPT :=
  if h : counter.toNat < MAX_SYNCPT then ⟨counter.toNat, h⟩
  else ⟨MAX_SYNCPT - 1, by decide⟩

def handleSyncptAlloc
    (sp : Syncpts)
    (call : ServiceCall) : Syncpts × ServiceReply :=
  let id := idOf sp.counter
  ({ counter := sp.counter + 1
     value := Function.update sp.value id 0 },
    call.replyWords [BitVec.ofNat 32 id.val])

def syncptRead (sp : Syncpts) (id : U32) : U32 :=
  if h : id.toNat < MAX_SYNCPT then sp.value ⟨id.toNat, h⟩
  else 0

def handleSyncptRead
    (sp : Syncpts)
    (call : ServiceCall) : ServiceReply :=
  call.replyWords [sp.syncptRead call.firstU32]

def handleSyncptReadEx
    (sp : Syncpts)
    (call : ServiceCall) : ServiceReply :=
  call.replyWords
    [sp.syncptRead call.firstU32, call.firstU32]

/- Waits and events end at once. -/
def handleCtrl
    (sp : Syncpts)
    (call : ServiceCall) : Syncpts × ServiceReply :=
  if call.cmdId = 0x400C0001 then sp.handleSyncptAlloc call
  else if call.cmdId = 0x80080004 then
    (sp, sp.handleSyncptRead call)
  else if call.cmdId = 0xC0080005 then
    (sp, sp.handleSyncptReadEx call)
  else (sp, {})

end Syncpts

end M1Switch
