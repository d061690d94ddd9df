import M1Switch.Library.ByteBuffers
import M1Switch.Memory.Memory

/-
  Inter-process calls: sessions, and how a request message is
  turned into a service command and a response message.

  Services are objects the manager only calls.  What a service
  does in one command (its reply, and the calls it makes on
  the manager) is an argument of the request it answers.  The
  manager is the one instance of the program.

  Offsets and sizes are natural numbers: none of them comes
  near the range of the source's size type unless a service
  reports more output than there is memory.

  Key definitions include:
    * `IpcManager`
    * `HipcHeader`
-/

------
-- Protocol Structures
------

namespace M1Switch

/- The two words every message starts with. -/
structure HipcHeader where
  type : BitVec 16 := 0
  numSendStatics : BitVec 4 := 0
  numSendBuffers : BitVec 4 := 0
  numRecvBuffers : BitVec 4 := 0
  numExchBuffers : BitVec 4 := 0
  numDataWords : BitVec 10 := 0
  recvStaticMode : BitVec 4 := 0
  padding : BitVec 6 := 0
  recvListOffset : BitVec 11 := 0
  hasSpecialHeader : BitVec 1 := 0
deriving DecidableEq

namespace HipcHeader

def ofWords (w₀ w₁ : U32) : HipcHeader :=
  { type := w₀.extractLsb' 0 16
    numSendStatics := w₀.extractLsb' 16 4
    numSendBuffers := w₀.extractLsb' 20 4
    numRecvBuffers := w₀.extractLsb' 24 4
    numExchBuffers := w₀.extractLsb' 28 4
    numDataWords := w₁.extractLsb' 0 10
    recvStaticMode := w₁.extractLsb' 10 4
    padding := w₁.extractLsb' 14 6
    recvListOffset := w₁.extractLsb' 20 11
    hasSpecialHeader := w₁.extractLsb' 31 1 }

def toWords (h : HipcHeader) : List U32 :=
  [h.numExchBuffers ++ h.numRecvBuffers ++
      h.numSendBuffers ++ h.numSendStatics ++ h.type,
    h.hasSpecialHeader ++ h.recvListOffset ++ h.padding ++
      h.recvStaticMode ++ h.numDataWords]

/- The number of buffer descriptors of all three kinds. -/
def numBuffers (h : HipcHeader) : Nat :=
  h.numSendBuffers.toNat + h.numRecvBuffers.toNat +
    h.numExchBuffers.toNat

end HipcHeader

/- Handles and the process id a message comes with. -/
structure HipcSpecialHeader where
  sendPid : BitVec 1 := 0
  numCopyHandles : BitVec 4 := 0
  numMoveHandles : BitVec 4 := 0
  padding : BitVec 23 := 0
deriving DecidableEq

namespace HipcSpecialHeader

def ofWord (w : U32) : HipcSpecialHeader :=
  { sendPid := w.extractLsb' 0 1
    numCopyHandles := w.extractLsb' 1 4
    numMoveHandles := w.extractLsb' 5 4
    padding := w.extractLsb' 9 23 }

def toWord (h : HipcSpecialHeader) : U32 :=
  h.padding ++ h.numMoveHandles ++ h.numCopyHandles ++
    h.sendPid

/- The bytes of the special header and what belongs to it. -/
def extent (h : HipcSpecialHeader) : Nat :=
  4 + (if h.sendPid = 1 then 8 else 0) +
    4 * h.numCopyHandles.toNat + 4 * h.numMoveHandles.toNat

end HipcSpecialHeader

/- An output buffer a client offers. -/
structure RecvListEntry where
  guestAddr : U64
  size : U32
deriving DecidableEq

namespace RecvListEntry

/- A 48-bit address and a 16-bit size. -/
def ofWords (low high : U32) : RecvListEntry :=
  { guestAddr :=
      low.setWidth 64 |||
        (high.extractLsb' 0 16).setWidth 64 <<< 32
    size := (high.extractLsb' 16 16).setWidth 32 }

end RecvListEntry

def CMIF_IN_MAGIC : U32 := 0x49434653
def CMIF_OUT_MAGIC : U32 := 0x4F434653

/- The first multiple of 16 that is not before an offset. -/
def calcCmifAlign (dwOff : Nat) : Nat :=
  (dwOff + 15) / 16 * 16

------
-- Messages
------

/- A request, and how many bytes of it the caller vouches
for. -/
structure Message where
  data : Bytes
  size : Nat

namespace Message

/- The header, whatever the size. -/
def header (m : Message) : HipcHeader :=
  .ofWords (m.data.word 0) (m.data.word 4)

def specialHeader (m : Message) : HipcSpecialHeader :=
  .ofWord (m.data.word 8)

/- Step over the descriptors; zero when nothing is left. -/
def skipDescriptors
    (m : Message)
    (hdr : HipcHeader)
    (off : Nat) : Nat :=
  let off :=
    off + hdr.numSendStatics.toNat * 8 + hdr.numBuffers * 16
  if off < m.size then off else 0

/- Where the data words start. -/
def calcDataWordsOffset (m : Message) : Traced Nat :=
  if m.size < 8 then pure 0
  else do
    let hdr ← Traced.read 0 8 m.header
    if hdr.hasSpecialHeader = 1 then
      if 8 + 4 > m.size then pure 0
      else do
        let sh ← Traced.read 8 4 m.specialHeader
        pure (m.skipDescriptors hdr (8 + sh.extent))
    else pure (m.skipDescriptors hdr 8)

/- Entries from an offset on; empty buffers are left out. -/
def parseEntries
    (m : Message)
    (off : Nat) : Nat → Traced (List RecvListEntry)
  | 0 => pure []
  | n + 1 => do
      let entry ←
        Traced.read off 8
          (RecvListEntry.ofWords (m.data.word off)
            (m.data.word (off + 4)))
      let rest ← parseEntries m (off + 8) n
      pure (if entry.size ≠ 0 then entry :: rest else rest)

/- How many entries a receive mode stands for. -/
def recvEntries (hdr : HipcHeader) : Nat :=
  if hdr.recvStaticMode = 2 then 8
  else if 2 < hdr.recvStaticMode.toNat then
    min (hdr.recvStaticMode.toNat - 2) 8
  else 0

/- Where they start. -/
def recvListStart (hdr : HipcHeader) (dwOff : Nat) : Nat :=
  if 0 < hdr.recvListOffset.toNat then
    hdr.recvListOffset.toNat * 4
  else dwOff + hdr.numDataWords.toNat * 4

def parseRecvList
    (m : Message)
    (hdr : HipcHeader)
    (dwOff : Nat) : Traced (List RecvListEntry) :=
  m.parseEntries (recvListStart hdr dwOff) (recvEntries hdr)

/-
  The header and the data words of a request.  A message that
  still holds the previous response is taken as empty.
-/
def parseHeader (m : Message) :
    Traced (HipcHeader × Nat) := do
  let hdr ← Traced.read 0 8 m.header
  let dwOff ← m.calcDataWordsOffset
  let checkOff := calcCmifAlign dwOff
  if 0 < hdr.numDataWords.toNat ∧ checkOff + 4 ≤ m.size then do
    let magic ← Traced.read checkOff 4 (m.data.word checkOff)
    if magic = CMIF_OUT_MAGIC then pure ({}, 8)
    else pure (hdr, dwOff)
  else pure (hdr, dwOff)

/- The object a domain request names. -/
def parseObjectId
    (m : Message)
    (hdr : HipcHeader)
    (dwOff : Nat)
    (isDomain : Bool) : Traced U32 :=
  let cmifOff := calcCmifAlign dwOff
  if isDomain ∧ 0 < hdr.numDataWords.toNat then
    Traced.read cmifOff 16 (m.data.word (cmifOff + 4))
  else pure 0

/- A command, and where in the message its input is. -/
structure Command where
  cmdId : U32 := 0
  cmifToken : U32 := 0
  rawIn : Nat := 0
  rawInSize : Nat := 0
deriving DecidableEq

/-
  The command of a request.  The domain header is skipped for
  the command header only.
-/
def parseCommand
    (m : Message)
    (hdr : HipcHeader)
    (dwOff : Nat)
    (isDomain : Bool) : Traced Command :=
  let cmifOff := calcCmifAlign dwOff
  let domainSkip := if isDomain then 16 else 0
  let inOff := cmifOff + domainSkip
  if 0 < hdr.numDataWords.toNat then do
    let magic ← Traced.read inOff 16 (m.data.word inOff)
    if magic = CMIF_IN_MAGIC then
      let cmifEnd := cmifOff + 16
      let dwEnd := dwOff + hdr.numDataWords.toNat * 4
      pure
        { cmdId := m.data.word (inOff + 8)
          cmifToken := m.data.word (inOff + 12)
          rawIn := if cmifEnd < dwEnd then cmifEnd else 0
          rawInSize := dwEnd - cmifEnd }
    else if 0 < dwOff then do
      let cmdId ← Traced.read dwOff 4 (m.data.word dwOff)
      pure { cmdId := cmdId }
    else pure {}
  else pure {}

/- The input bytes of a command. -/
def input (m : Message) (c : Command) : List U8 :=
  m.data.slice c.rawIn c.rawInSize

end Message

------
-- Sessions
------

/- The address of a service object. -/
abbrev ServiceRef := Nat

/- The name a service is registered and connected under. -/
abbrev ServiceName := List Char

structure Session where
  id : U32
  serviceName : ServiceName
  service : Option ServiceRef := none
  isDomain : Bool := false
  ownsService : Bool := false
  nextObjectId : U32 := 1
  domainObjects : U32 → Option ServiceRef := fun _ => none

/- The sessions, oldest first, and the services deleted. -/
structure IpcManager where
  services : ServiceName → Option ServiceRef := fun _ => none
  sessions : List Session := []
  nextSession : U32 := 0x1000
  deleted : List ServiceRef := []

namespace IpcManager

def registerService
    (mgr : IpcManager)
    (name : ServiceName)
    (service : ServiceRef) : IpcManager :=
  { mgr with
    services := fun n =>
      if n = name then some service else mgr.services n }

/- Names are looked up with and without a colon. -/
def connect
    (mgr : IpcManager)
    (name : ServiceName) : U32 × IpcManager :=
  let svc :=
    (mgr.services name).or (mgr.services (name ++ [':']))
  (mgr.nextSession,
    { mgr with
      nextSession := mgr.nextSession + 1
      sessions :=
        mgr.sessions ++
          [{ id := mgr.nextSession
             serviceName := name
             service := svc }] })

def findSession
    (mgr : IpcManager)
    (sid : U32) : Option Session :=
  mgr.sessions.find? fun s => s.id = sid

def getServiceBySession
    (mgr : IpcManager)
    (sid : U32) : Option ServiceRef :=
  (mgr.findSession sid).bind (·.service)

def getIsDomain
    (mgr : IpcManager)
    (sid : U32) : Bool :=
  (mgr.findSession sid).any (·.isDomain)

/- A session that is deleted together with its service. -/
def createSession
    (mgr : IpcManager)
    (service : Option ServiceRef) : U32 × IpcManager :=
  (mgr.nextSession,
    { mgr with
      nextSession := mgr.nextSession + 1
      sessions :=
        mgr.sessions ++
          [{ id := mgr.nextSession
             serviceName := "(anonymous)".toList
             service := service
             ownsService := true }] })

def openSessionFor
    (mgr : IpcManager)
    (name : ServiceName) : U32 × IpcManager :=
  match mgr.services name with
  | some svc => mgr.createSession (some svc)
  | none => (0, mgr)

/- Drop a session, and delete the service it owns. -/
def closeSession
    (mgr : IpcManager)
    (sid : U32) : IpcManager :=
  match mgr.findSession sid with
  | some s =>
      { mgr with
        sessions := mgr.sessions.eraseP fun s => s.id = sid
        deleted :=
          mgr.deleted ++
            if s.ownsService then s.service.toList else [] }
  | none => mgr

/- Change the session with an id. -/
def updateFirst
    (sid : U32)
    (f : Session → Session) : List Session → List Session
  | [] => []
  | s :: rest =>
      if s.id = sid then f s :: rest
      else s :: updateFirst sid f rest

def updateSession
    (mgr : IpcManager)
    (sid : U32)
    (f : Session → Session) : IpcManager :=
  { mgr with sessions := updateFirst sid f mgr.sessions }

/- What a service asks of the manager in a command. -/
inductive Call where
  | registerService (name : ServiceName) (svc : ServiceRef)
  | connect (name : ServiceName)
  | createSession (svc : Option ServiceRef)
  | openSessionFor (name : ServiceName)
  | closeSession (sid : U32)
deriving DecidableEq

def perform (mgr : IpcManager) : Call → IpcManager
  | .registerService name svc => mgr.registerService name svc
  | .connect name => (mgr.connect name).2
  | .createSession svc => (mgr.createSession svc).2
  | .openSessionFor name => (mgr.openSessionFor name).2
  | .closeSession sid => mgr.closeSession sid

end IpcManager

------
-- Requests
------

/- One call of a service's command handler. -/
structure ServiceCall where
  service : ServiceRef
  cmdId : U32
  rawIn : List U8
  outMax : Nat
deriving DecidableEq

/-
  What a service does in a call: whether it knows the command,
  the bytes it writes to its output, the size it reports, and
  the calls it makes on the manager.
-/
structure ServiceReply where
  handled : Bool := true
  written : List U8 := []
  outSize : Nat := 0
  calls : List IpcManager.Call := []
deriving DecidableEq

/- A request on a session, with the caller's response
buffer. -/
structure Request where
  session : U32
  message : Message
  response : Bytes
  respSize : Nat

/- What a request depends on besides the manager. -/
structure Host where
  nameOf : ServiceRef → ServiceName
  tracing : Bool := false
  mem : Option Memory := none
  baseAddress : U64 := 0

/- Everything read from a message that is not a close. -/
structure ParsedRequest where
  hdr : HipcHeader
  recvList : List RecvListEntry
  domainObjectId : U32
  command : Message.Command

namespace ParsedRequest

/- A control request is not forwarded to the service. -/
def isControl (p : ParsedRequest) : Bool :=
  p.hdr.type = 5

end ParsedRequest

/- Parse a request; the first 32 bytes are logged. -/
def Message.parseRequest
    (m : Message)
    (hdr : HipcHeader)
    (dwOff : Nat)
    (isDomain : Bool) : Traced ParsedRequest := do
  let recvList ← m.parseRecvList hdr dwOff
  let objectId ← m.parseObjectId hdr dwOff isDomain
  let command ← m.parseCommand hdr dwOff isDomain
  Traced.read 0 32
    { hdr := hdr
      recvList := recvList
      domainObjectId := objectId
      command := command }

------
-- Space for Handles
------

/- Drop one colon at the end of a name. -/
def baseName (name : ServiceName) : ServiceName :=
  if name.getLast? = some ':' then name.dropLast else name

/- How a handle in a service's output is passed on. -/
inductive HandleNeed where
  | nothing
  | moved
  | copied
deriving DecidableEq

def handleNeed
    (host : Host)
    (sname : ServiceName)
    (cmdId : U32)
    (service : Option ServiceRef) : HandleNeed :=
  if sname = "sm".toList ∧ cmdId = 1 then .moved
  else if (sname = "apm".toList ∨ sname = "apm:sys".toList) ∧
      cmdId = 0 then .moved
  else if (sname = "appletOE".toList ∨
      sname = "appletAE".toList) ∧ cmdId = 0 then .moved
  else if (sname = "hid".toList ∨ sname = "hid:".toList) ∧
      (cmdId = 0 ∨ cmdId = 1) then .moved
  else if cmdId.toNat ≤ 1000 then
    match service with
    | some svc =>
        if host.nameOf svc = "HidAppletResource".toList then
          .copied
        else if host.nameOf svc = "appletProxy".toList then
          .moved
        else .nothing
    | none => .nothing
  else .nothing

/- The response up to where a service may write. -/
structure Reservation where
  rawOff : Nat := 8
  shdrPos : Option Nat := none
  handlePos : Option Nat := none
  numCopyHandles : BitVec 4 := 0
  numMoveHandles : BitVec 4 := 0
  hasSpecialHeader : BitVec 1 := 0

namespace Reservation

/- The session's own handle, for the service manager. -/
def reserveOwn
    (respSize : Nat)
    (sname : ServiceName)
    (cmdId : U32)
    (r : Reservation) : Reservation :=
  if sname = "sm".toList ∧ cmdId = 0 ∧
      r.rawOff + 8 ≤ respSize then
    { r with
      shdrPos := some r.rawOff
      handlePos := some (r.rawOff + 4)
      numCopyHandles := 1
      hasSpecialHeader := 1
      rawOff := r.rawOff + 8 }
  else r

/- A handle the service will put out. -/
def reserveHandle
    (respSize : Nat)
    (need : HandleNeed)
    (isControl isDomain : Bool)
    (r : Reservation) : Reservation :=
  if need ≠ .nothing ∧ !isControl ∧ !isDomain ∧
      r.rawOff + 8 ≤ respSize then
    { r with
      shdrPos := some r.rawOff
      handlePos := some (r.rawOff + 4)
      numCopyHandles :=
        if need = .copied then 1 else r.numCopyHandles
      numMoveHandles :=
        if need = .copied then r.numMoveHandles else 1
      hasSpecialHeader := 1
      rawOff := r.rawOff + 8 }
  else r

end Reservation

/- The space reserved in the response to a request. -/
def reserve
    (host : Host)
    (s : Session)
    (respSize : Nat)
    (p : ParsedRequest) : Reservation :=
  let sname := baseName s.serviceName
  let need := handleNeed host sname p.command.cmdId s.service
  (Reservation.reserveOwn respSize sname p.command.cmdId
    {}).reserveHandle respSize need p.isControl s.isDomain

/- The service manager's handle is written at once. -/
def writeOwnHandle
    (s : Session)
    (sid : U32)
    (respSize : Nat)
    (p : ParsedRequest)
    (response : Buffer) : Buffer :=
  if baseName s.serviceName = "sm".toList ∧
      p.command.cmdId = 0 ∧ 8 + 8 ≤ respSize then
    response.put (8 + 4) (Bytes.ofWord sid)
  else response

------
-- Answers
------

/- An answer while it is made. -/
structure Answer where
  handled : Bool
  rawOutMax : Nat
  response : Buffer
  manager : IpcManager
  calls : List ServiceCall := []
  objects : List U32 := []

namespace Answer

/- Control commands are the manager's own. -/
def ofControl
    (mgr : IpcManager)
    (sid cmdId : U32)
    (rawOff rawOutMax : Nat)
    (response : Buffer) : Answer :=
  if cmdId = 0 then
    -- the current object becomes a domain with id 1
    { handled := true
      rawOutMax := if 4 ≤ rawOutMax then 4 else rawOutMax
      response :=
        if 4 ≤ rawOutMax then
          response.put rawOff (Bytes.ofWord 1)
        else response
      manager :=
        mgr.updateSession sid fun s =>
          { s with isDomain := true } }
  else if cmdId = 3 then
    -- there is no pointer buffer
    { handled := true
      rawOutMax := if 2 ≤ rawOutMax then 2 else 0
      response :=
        if 2 ≤ rawOutMax then response.put rawOff [0, 0]
        else response
      manager := mgr }
  else
    { handled := true
      rawOutMax := 0
      response := response
      manager := mgr }

/- The object of a domain, else the session's service. -/
def targetService
    (mgr : IpcManager)
    (sid objectId : U32) : Option ServiceRef :=
  (mgr.findSession sid).bind fun s =>
    if s.isDomain ∧ 0 < objectId.toNat then
      (s.domainObjects objectId).or s.service
    else s.service

/- Other commands are the target service's. -/
def ofService
    (serve : ServiceCall → ServiceReply)
    (mgr : IpcManager)
    (req : Request)
    (p : ParsedRequest)
    (rawOff rawOutMax : Nat)
    (response : Buffer) : Answer :=
  match targetService mgr req.session p.domainObjectId with
  | some svc =>
      let call : ServiceCall :=
        { service := svc
          cmdId := p.command.cmdId
          rawIn := req.message.input p.command
          outMax := rawOutMax }
      let reply := serve call
      { handled := reply.handled
        rawOutMax := reply.outSize
        response := response.put rawOff reply.written
        manager := reply.calls.foldl IpcManager.perform mgr
        calls := [call] }
  | none =>
      { handled := true
        rawOutMax := 0
        response := response
        manager := mgr }

/- The first word from which on a word is no handle. -/
def pseudoHandles : Nat := 0xE0000000

/- Keep a service as the next object of a domain. -/
def addObject (svc : ServiceRef) (s : Session) : Session :=
  { s with
    nextObjectId := s.nextObjectId + 1
    domainObjects := fun k =>
      if k = s.nextObjectId then some svc
      else s.domainObjects k }

/- Take the first word of an output as a handle. -/
def extract
    (sid : U32)
    (isControl : Bool)
    (rawOff : Nat)
    (handlePos : Option Nat)
    (a : Answer) : Answer :=
  let isDomain := a.manager.getIsDomain sid
  let moveHandle := a.response.bytes.word rawOff
  if a.handled ∧ !isControl ∧ 4 ≤ a.rawOutMax ∧
      (handlePos.isSome ∨ isDomain) ∧ moveHandle ≠ 0 then
    if pseudoHandles ≤ moveHandle.toNat then
      { a with rawOutMax := 0 }
    else if isDomain then
      match a.manager.getServiceBySession moveHandle,
          a.manager.findSession sid with
      | some svc, some ds =>
          { a with
            manager := a.manager.updateSession sid
              (addObject svc)
            objects := [ds.nextObjectId]
            rawOutMax := 0 }
      | _, _ => a
    else
      match handlePos with
      | some pos =>
          { a with
            response := a.response.put pos
              (Bytes.ofWord moveHandle)
            rawOutMax := 0 }
      | none => a
  else a

end Answer

/- Copy bytes to guest memory one by one. -/
def writeGuest
    (mem : Memory)
    (address : U64)
    (bytes : List U8) : Memory :=
  match bytes with
  | [] => mem
  | b :: rest =>
      writeGuest ((mem.write address [b]).getD mem)
        (address + 1) rest

/- An address as an offset into guest memory. -/
def relativeAddress (base address : U64) : U64 :=
  if base ≤ address ∧
      address < base + BitVec.ofNat 64 Memory.ADDR_SPACE_SIZE
  then address - base
  else address

/- Does the output go to a buffer of the receive list? -/
def redirects
    (host : Host)
    (p : ParsedRequest)
    (outSize : Nat) : Bool :=
  p.recvList ≠ [] ∧ 0 < outSize ∧ host.mem.isSome

/- Guest memory once an output went to its buffer. -/
def redirect
    (host : Host)
    (p : ParsedRequest)
    (rawOff : Nat)
    (a : Answer) : Option Memory :=
  match host.mem, p.recvList with
  | some mem, entry :: _ =>
      some
        (writeGuest mem
          (relativeAddress host.baseAddress entry.guestAddr)
          (a.response.bytes.slice rawOff
            (min (a.rawOutMax % 4294967296)
              entry.size.toNat)))
  | mem, _ => mem

------
-- Responses
------

/- Where the parts of a response are. -/
structure ResponseLayout where
  rawOff : Nat
  isDomainResp : Bool

namespace ResponseLayout

def cmifOutOff (l : ResponseLayout) : Nat :=
  calcCmifAlign l.rawOff

def cmifHdrOff (l : ResponseLayout) : Nat :=
  l.cmifOutOff + if l.isDomainResp then 16 else 0

def cmifOutEnd (l : ResponseLayout) : Nat :=
  l.cmifHdrOff + 16

end ResponseLayout

/- Move an output behind where the headers will be. -/
def moveOutput
    (l : ResponseLayout)
    (rawOutMax : Nat)
    (b : Buffer) : Buffer :=
  if 0 < rawOutMax ∧ l.rawOff < l.cmifOutEnd then
    b.put l.cmifOutEnd (b.bytes.slice l.rawOff rawOutMax)
  else b

/- The header of a domain, and its objects at the end. -/
def putDomainHeader
    (l : ResponseLayout)
    (rawOutMax : Nat)
    (objects : List U32)
    (b : Buffer) : Buffer :=
  if l.isDomainResp then
    (b.put l.cmifOutOff
      (Bytes.ofWords
        [BitVec.ofNat 32 objects.length, 0, 0, 0])).put
      (l.cmifOutEnd + rawOutMax) (Bytes.ofWords objects)
  else b

def putCommandHeader
    (l : ResponseLayout)
    (cmifToken : U32)
    (b : Buffer) : Buffer :=
  b.put l.cmifHdrOff
    (Bytes.ofWords [CMIF_OUT_MAGIC, 0, 0, cmifToken])

def putSpecialHeader
    (r : Reservation)
    (b : Buffer) : Buffer :=
  match r.shdrPos with
  | some pos =>
      let shdr : HipcSpecialHeader :=
        { numCopyHandles := r.numCopyHandles
          numMoveHandles := r.numMoveHandles }
      b.put pos (Bytes.ofWord shdr.toWord)
  | none => b

/- Put the headers around the output of a service. -/
def buildResponse
    (l : ResponseLayout)
    (r : Reservation)
    (cmifToken : U32)
    (rawOutMax : Nat)
    (objects : List U32)
    (response : Buffer) : Buffer × Nat :=
  let moved := moveOutput l rawOutMax response
  let framed := putDomainHeader l rawOutMax objects moved
  let headed := putCommandHeader l cmifToken framed
  (putSpecialHeader r headed,
    l.cmifOutEnd + rawOutMax +
      if l.isDomainResp then objects.length * 4 else 0)

/- What a request comes to; the data words of the response
start at `rawOff`. -/
structure Outcome where
  result : U32
  manager : IpcManager
  response : Buffer
  respSize : Nat
  rawOff : Nat := 8
  reads : List Span := []
  calls : List ServiceCall := []
  objects : List U32 := []
  mem : Option Memory

namespace IpcManager

/- Send an answer back. -/
def respond
    (host : Host)
    (req : Request)
    (p : ParsedRequest)
    (r : Reservation)
    (reads : List Span)
    (a : Answer) : Outcome :=
  if a.handled then
    let redirected := redirects host p a.rawOutMax
    let outSize := if redirected then 0 else a.rawOutMax
    let layout : ResponseLayout :=
      { rawOff := r.rawOff
        isDomainResp :=
          a.manager.getIsDomain req.session && !p.isControl }
    let built :=
      buildResponse layout r p.command.cmifToken outSize
        a.objects a.response
    let hdr : HipcHeader :=
      { numDataWords :=
          BitVec.ofNat 10 ((built.2 - r.rawOff + 3) / 4)
        hasSpecialHeader := r.hasSpecialHeader }
    { result := 0
      manager := a.manager
      response := built.1.put 0 (Bytes.ofWords hdr.toWords)
      respSize := built.2
      rawOff := r.rawOff
      reads := reads
      calls := a.calls
      objects := a.objects
      mem :=
        if redirected then redirect host p r.rawOff a
        else host.mem }
  else
    let hdr : HipcHeader :=
      { hasSpecialHeader := r.hasSpecialHeader }
    { result := 0
      manager := a.manager
      response := a.response.put 0 (Bytes.ofWords hdr.toWords)
      respSize := r.rawOff
      rawOff := r.rawOff
      reads := reads
      calls := a.calls
      objects := a.objects
      mem := host.mem }

/- What tracing and the input diagnostics read. -/
def diagnosticReads
    (host : Host)
    (s : Session)
    (m : Message)
    (c : Message.Command) : List Span :=
  (if host.tracing ∧ 0 < c.rawInSize then [⟨c.rawIn, 8⟩]
    else []) ++
  (if "hid".toList <:+: baseName s.serviceName then
    [⟨0, min m.size 32⟩] else [])

/- What comes back for a request, as it comes. -/
def dispatch
    (serve : ServiceCall → ServiceReply)
    (mgr : IpcManager)
    (req : Request)
    (p : ParsedRequest)
    (r : Reservation)
    (response : Buffer) : Answer :=
  let rawOutMax := req.respSize - r.rawOff
  if p.isControl then
    Answer.ofControl mgr req.session p.command.cmdId r.rawOff
      rawOutMax response
  else
    Answer.ofService serve mgr req p r.rawOff rawOutMax
      response

/- The answer to a request, handles taken out. -/
def answer
    (serve : ServiceCall → ServiceReply)
    (mgr : IpcManager)
    (req : Request)
    (p : ParsedRequest)
    (r : Reservation)
    (response : Buffer) : Answer :=
  (dispatch serve mgr req p r response).extract req.session
    p.isControl r.rawOff r.handlePos

/- A parsed request on a session that exists. -/
def serveRequest
    (host : Host)
    (serve : ServiceCall → ServiceReply)
    (mgr : IpcManager)
    (req : Request)
    (s : Session)
    (p : ParsedRequest)
    (reads : List Span) : Outcome :=
  if req.respSize < 8 then
    { result := 0
      manager := mgr
      response := { bytes := req.response }
      respSize := 0
      reads := reads
      mem := host.mem }
  else
    let r := reserve host s req.respSize p
    let response :=
      writeOwnHandle s req.session req.respSize p
        { bytes := req.response }
    if s.service.isNone then
      { result := 0
        manager := mgr
        response := response
        respSize := r.rawOff
        rawOff := r.rawOff
        reads := reads
        mem := host.mem }
    else
      respond host req p r
        (reads ++
          diagnosticReads host s req.message p.command)
        (answer serve mgr req p r response)

/- Serve one request. -/
def handleRequest
    (host : Host)
    (serve : ServiceCall → ServiceReply)
    (mgr : IpcManager)
    (req : Request) : Outcome :=
  let refused : Outcome :=
    { result := 0xFFFF
      manager := mgr
      response := { bytes := req.response }
      respSize := req.respSize
      mem := host.mem }
  match mgr.findSession req.session with
  | none => refused
  | some s =>
      if req.message.size < 8 then refused
      else
        let head := req.message.parseHeader
        let hdr := head.value.1
        let dwOff := head.value.2
        if hdr.type = 2 then
          { result := 0
            manager := mgr.closeSession req.session
            response :=
              Buffer.put { bytes := req.response } 0
                (Bytes.ofWords (HipcHeader.toWords {}))
            respSize := 8
            reads := head.reads
            mem := host.mem }
        else
          let parsed :=
            req.message.parseRequest hdr dwOff s.isDomain
          serveRequest host serve mgr req s parsed.value
            (head.reads ++ parsed.reads)

end IpcManager

------
-- Inputs and Outputs of a Service
------

namespace ServiceCall

/- A little-endian word of the input. -/
def readU32 (call : ServiceCall) (off : Nat) : U32 :=
  Bytes.word (fun i => call.rawIn.getD i 0) off

/- A leading word, zero where the input is too short. -/
def firstU32 (call : ServiceCall) : U32 :=
  if 4 ≤ call.rawIn.length then call.readU32 0 else 0

/- Bytes that are put out if there is room for them; else the
size of the output stays what it was. -/
def replyBytes
    (call : ServiceCall)
    (bytes : List U8) : ServiceReply :=
  if bytes.length ≤ call.outMax then
    { written := bytes
      outSize := bytes.length }
  else { outSize := call.outMax }

def replyWords
    (call : ServiceCall)
    (ws : List U32) : ServiceReply :=
  call.replyBytes (Bytes.ofWords ws)

end ServiceCall

/- The two words of an address, the lower first. -/
def wordsOf (address : U64) : List U32 :=
  [address.extractLsb' 0 32, address.extractLsb' 32 32]

end M1Switch
