import M1Switch.Services.Ipc.Delivery

/-
  What a client finds in a response.

  The client takes the response apart as any message: the
  header, a special header and handles if there are any, and
  as many data words as the header says, in which the command
  header is aligned.  The number of data words has ten bits, so
  that a long output is announced shorter than it is, and the
  headers go in front of an output that may have filled the
  buffer.  And the output may not be there at all: it has gone
  to a buffer of the client's, or its first word was taken for
  a handle.

  Key definitions include:
    * `IpcManager.OwnReserved`
    * `IpcManager.HandleReserved`

  Main results:
    * `recovered_reply_iff`
    * `recovered_iff`
    * `replyReceived_iff`
-/

------
-- Headers in Words
------

namespace M1Switch

/- The words of a header are read back. -/
theorem HipcHeader.ofWords_toWords (h : HipcHeader) :
    ofWords (h.toWords.getD 0 0) (h.toWords.getD 1 0) = h := by
  show ofWords
    (h.numExchBuffers ++ h.numRecvBuffers ++
      h.numSendBuffers ++ h.numSendStatics ++ h.type)
    (h.hasSpecialHeader ++ h.recvListOffset ++ h.padding ++
      h.recvStaticMode ++ h.numDataWords) = h
  unfold ofWords
  simp (disch := decide) only
    [BitVec.extractLsb'_append_eq_of_le,
      BitVec.extractLsb'_append_eq_of_add_le,
      Nat.reduceSub, BitVec.extractLsb'_eq_self]

theorem HipcSpecialHeader.ofWord_toWord
    (h : HipcSpecialHeader) :
    ofWord h.toWord = h := by
  unfold ofWord toWord
  simp (disch := decide) only
    [BitVec.extractLsb'_append_eq_of_le,
      BitVec.extractLsb'_append_eq_of_add_le,
      Nat.reduceSub, BitVec.extractLsb'_eq_self]

namespace IpcManager

/- The response in the caller's buffer. -/
def responseMessage
    (req : Request)
    (o : Outcome) : Message where
  data := o.response.bytes
  size := req.respSize

/- The header that is put in front last is the one found. -/
theorem header_put
    (b : Buffer)
    (hdr : HipcHeader)
    (size : Nat) :
    ({ data := (b.put 0 (Bytes.ofWords hdr.toWords)).bytes
       size := size } : Message).header = hdr := by
  have hWord :
      ∀ k < 2,
        (b.bytes.store 0 (Bytes.ofWords hdr.toWords)).word
            (0 + 4 * k) =
          hdr.toWords.getD k 0 :=
    fun k hK => Bytes.word_store_words hK
  have hFirst := hWord 0 (by decide)
  have hSecond := hWord 1 (by decide)
  unfold Message.header
  show HipcHeader.ofWords
      ((b.bytes.store 0 (Bytes.ofWords hdr.toWords)).word
        (0 + 4 * 0))
      ((b.bytes.store 0 (Bytes.ofWords hdr.toWords)).word
        (0 + 4 * 1)) = hdr
  rw [hFirst, hSecond]
  exact HipcHeader.ofWords_toWords hdr

------
-- What is Reserved for Handles
------

variable {host : Host} {serve : ServiceCall → ServiceReply}
variable {mgr : IpcManager} {req : Request} {s : Session}

/- There is a place for the session's own handle. -/
def OwnReserved (req : Request) (s : Session) : Prop :=
  baseName s.serviceName = "sm".toList ∧
    (req.parsed s.isDomain).command.cmdId = 0 ∧
    16 ≤ req.respSize

instance (req : Request) (s : Session) :
    Decidable (OwnReserved req s) :=
  inferInstanceAs (Decidable (_ ∧ _))

/- How a handle in the output would be passed on. -/
def need
    (host : Host)
    (req : Request)
    (s : Session) : HandleNeed :=
  handleNeed host (baseName s.serviceName)
    (req.parsed s.isDomain).command.cmdId s.service

/- There is a place for a handle the service puts out. -/
def HandleReserved
    (host : Host)
    (req : Request)
    (s : Session) : Prop :=
  need host req s ≠ .nothing ∧
    (req.parsed s.isDomain).isControl = false ∧
    s.isDomain = false ∧
    (if OwnReserved req s then 24 else 16) ≤ req.respSize

instance (host : Host) (req : Request) (s : Session) :
    Decidable (HandleReserved host req s) :=
  inferInstanceAs (Decidable (_ ∧ _))

/- The place of one handle, behind its special header. -/
def oneHandle (copied : Bool) : Reservation where
  rawOff := 16
  shdrPos := some 8
  handlePos := some 12
  numCopyHandles := if copied then 1 else 0
  numMoveHandles := if copied then 0 else 1
  hasSpecialHeader := 1

/- The session's own handle is provided for first. -/
theorem reserveOwn_eq (req : Request) (s : Session) :
    Reservation.reserveOwn req.respSize
        (baseName s.serviceName)
        (req.parsed s.isDomain).command.cmdId {} =
      if OwnReserved req s then oneHandle true else {} := by
  unfold Reservation.reserveOwn
  by_cases hOwn : OwnReserved req s
  · rw [if_pos hOwn]
    exact if_pos hOwn
  · rw [if_neg hOwn]
    exact if_neg hOwn

/- Then that of the service. -/
theorem reservation_eq
    (host : Host)
    (req : Request)
    (s : Session) :
    reservation host req s =
      Reservation.reserveHandle req.respSize (need host req s)
        (req.parsed s.isDomain).isControl s.isDomain
        (if OwnReserved req s then oneHandle true else {}) := by
  rw [← reserveOwn_eq]
  rfl

/- Nothing is reserved, one place, or two of which the first
has no header. -/
theorem reservation_cases
    (host : Host)
    (req : Request)
    (s : Session) :
    (¬ OwnReserved req s ∧ ¬ HandleReserved host req s ∧
        reservation host req s = {}) ∨
      (OwnReserved req s ∧ ¬ HandleReserved host req s ∧
        reservation host req s = oneHandle true) ∨
      (¬ OwnReserved req s ∧ HandleReserved host req s ∧
        reservation host req s =
          oneHandle (need host req s = .copied)) ∨
      (OwnReserved req s ∧ HandleReserved host req s ∧
        (reservation host req s).rawOff = 24 ∧
        (reservation host req s).shdrPos = some 16 ∧
        (reservation host req s).handlePos = some 20 ∧
        (reservation host req s).hasSpecialHeader = 1) := by
  rw [reservation_eq]
  have hHandle :
      HandleReserved host req s ↔
        (need host req s ≠ .nothing ∧
          !(req.parsed s.isDomain).isControl ∧
          !s.isDomain ∧
          (if OwnReserved req s then oneHandle true
            else {}).rawOff + 8 ≤ req.respSize) := by
    unfold HandleReserved
    simp only [Bool.not_eq_true']
    split <;> rfl
  unfold Reservation.reserveHandle
  by_cases hOwn : OwnReserved req s
  · by_cases hReserved : HandleReserved host req s
    · rw [if_pos (hHandle.mp hReserved)]
      simp only [if_pos hOwn]
      exact
        .inr (.inr (.inr
          ⟨hOwn, hReserved, rfl, rfl, rfl, trivial⟩))
    · rw [if_neg fun hCan => hReserved (hHandle.mpr hCan)]
      simp only [if_pos hOwn]
      exact .inr (.inl ⟨hOwn, hReserved, trivial⟩)
  · by_cases hReserved : HandleReserved host req s
    · rw [if_pos (hHandle.mp hReserved)]
      simp only [if_neg hOwn]
      refine .inr (.inr (.inl ⟨hOwn, hReserved, ?_⟩))
      unfold oneHandle
      simp
    · rw [if_neg fun hCan => hReserved (hHandle.mpr hCan)]
      simp only [if_neg hOwn]
      exact .inl ⟨hOwn, hReserved, trivial⟩

------
-- Bytes in Front of an Output
------

open Buffer (SameBefore)

/- Before a service is called there is at most a handle. -/
theorem initialResponse_before :
    SameBefore 12 { bytes := req.response }
      (initialResponse req s) := by
  have hNone := SameBefore.refl 12 { bytes := req.response }
  unfold initialResponse writeOwnHandle
  split
  · exact hNone.put (Nat.le_refl 12) _
  · exact hNone

/- An output begins where the reserved space ends. -/
theorem dispatched_before :
    SameBefore (reservation host req s).rawOff
      (initialResponse req s)
      (dispatched host serve mgr req s).response := by
  have hNone :=
    SameBefore.refl (reservation host req s).rawOff
      (initialResponse req s)
  unfold dispatched dispatch
  simp only
  split
  · unfold Answer.ofControl
    split
    · simp only
      split
      · exact hNone.put (Nat.le_refl _) _
      · exact hNone
    · split
      · simp only
        split
        · exact hNone.put (Nat.le_refl _) _
        · exact hNone
      · exact hNone
  · unfold Answer.ofService
    split
    · exact hNone.put (Nat.le_refl _) _
    · exact hNone

/- A handle that is taken out goes to its place. -/
theorem answered_before
    {n : Nat}
    (hHandle :
      ∀ pos, (reservation host req s).handlePos = some pos →
        n ≤ pos) :
    SameBefore n (dispatched host serve mgr req s).response
      (answered host serve mgr req s).response := by
  have hNone :=
    SameBefore.refl n
      (dispatched host serve mgr req s).response
  cases hHandled :
      (dispatched host serve mgr req s).handled with
  | false =>
      have hSame :
          answered host serve mgr req s =
            dispatched host serve mgr req s :=
        Answer.extract_unhandled hHandled
      rw [hSame]
      exact hNone
  | true =>
      rcases (answered_spec hHandled).2.2.2.2.2.2 with
        hSame | ⟨pos, w, hPos, hPut⟩
      · rw [hSame]
        exact hNone
      · rw [hPut]
        exact hNone.put (hHandle pos hPos) _

/- What is reserved is behind the first special header. -/
theorem answered_before_special
    (hReserved : 12 ≤ (reservation host req s).rawOff) :
    SameBefore 12 { bytes := req.response }
      (answered host serve mgr req s).response := by
  have hHandle :
      ∀ pos, (reservation host req s).handlePos = some pos →
        12 ≤ pos := by
    intro pos hPos
    rcases reservation_cases host req s with
      ⟨-, -, hEq⟩ | ⟨-, -, hEq⟩ | ⟨-, -, hEq⟩ |
        ⟨-, -, -, -, hEq, -⟩
    · rw [hEq] at hPos
      cases hPos
    · rw [hEq] at hPos
      cases hPos
      decide
    · rw [hEq] at hPos
      cases hPos
      decide
    · rw [hEq] at hPos
      cases hPos
      decide
  exact
    (initialResponse_before.trans
      (dispatched_before.mono hReserved)).trans
        (answered_before hHandle)

/- The headers go behind the reserved space. -/
theorem putHeaders_before
    (l : ResponseLayout)
    (token : U32)
    (rawOutMax : Nat)
    (objects : List U32)
    (b : Buffer) :
    SameBefore l.rawOff b
      (putCommandHeader l token
        (putDomainHeader l rawOutMax objects
          (moveOutput l rawOutMax b))) := by
  have hOffsets := l.offsets
  have hMoved :
      SameBefore l.rawOff b (moveOutput l rawOutMax b) := by
    unfold moveOutput
    split
    · exact (SameBefore.refl _ b).put (by omega) _
    · exact SameBefore.refl _ b
  have hFramed :
      SameBefore l.rawOff b
        (putDomainHeader l rawOutMax objects
          (moveOutput l rawOutMax b)) := by
    unfold putDomainHeader
    split
    · exact (hMoved.put (by omega) _).put (by omega) _
    · exact hMoved
  exact hFramed.put (by omega) _

------
-- Responses as the Client Parses Them
------

/- Where a client looks for the command header: at the aligned
start of the data words, or behind the header of a domain. -/
def commandPlace (m : Message) (domain : Bool) : Nat :=
  calcCmifAlign m.wireOffset + if domain then 16 else 0

/-
  A client finds the data words behind the headers, and in them
  the command header with the token and the output.
-/
structure Recovered
    (req : Request)
    (o : Outcome)
    (domain : Bool)
    (token : U32)
    (output : List U8) : Prop where
  dataWords : (responseMessage req o).wireOffset = o.rawOff
  hasMagic :
    o.response.bytes.word
        (commandPlace (responseMessage req o) domain) =
      CMIF_OUT_MAGIC
  hasResult :
    o.response.bytes.word
        (commandPlace (responseMessage req o) domain + 8) = 0
  hasToken :
    o.response.bytes.word
        (commandPlace (responseMessage req o) domain + 12) =
      token
  hasOutput :
    o.response.bytes.slice
        (commandPlace (responseMessage req o) domain + 16)
        output.length = output
  announced :
    commandPlace (responseMessage req o) domain + 16 +
        output.length ≤
      (responseMessage req o).wireOffset +
        4 * (responseMessage req o).header.numDataWords.toNat
  inside :
    commandPlace (responseMessage req o) domain + 16 +
      output.length ≤ req.respSize

/- A header without descriptors is followed by the special
header alone. -/
theorem wireOffset_of_header
    {m : Message}
    {r : Reservation}
    {size : Nat}
    (hHeader : m.header = responseHeader r size) :
    m.wireOffset =
      8 + if r.hasSpecialHeader = 1 then m.specialHeader.extent
        else 0 := by
  have hStatics :
      (responseHeader r size).numSendStatics.toNat = 0 :=
    rfl
  have hBuffers : (responseHeader r size).numBuffers = 0 := rfl
  unfold Message.wireOffset Message.offsetWith
    Message.specialExtent
  rw [hHeader, hStatics, hBuffers]
  rfl

/- What is put together around the output of a service. -/
def built
    (host : Host)
    (serve : ServiceCall → ServiceReply)
    (mgr : IpcManager)
    (req : Request)
    (s : Session) : Buffer × Nat :=
  buildResponse (layout host serve mgr req s)
    (reservation host req s)
    (req.parsed s.isDomain).command.cmifToken
    (keptSize host serve mgr req s)
    (answered host serve mgr req s).objects
    (answered host serve mgr req s).response

/- The response is that with a header in front. -/
theorem Reaches.response_built
    (hReach : Reaches mgr req s)
    (hHandled :
      (dispatched host serve mgr req s).handled = true) :
    (handleRequest host serve mgr req).response =
      (built host serve mgr req s).1.put 0
        (Bytes.ofWords
          (responseHeader (reservation host req s)
            (built host serve mgr req s).2).toWords) :=
  (hReach.response_eq hHandled).2.2

theorem Reaches.header_eq
    (hReach : Reaches mgr req s)
    (hHandled :
      (dispatched host serve mgr req s).handled = true) :
    (responseMessage req
        (handleRequest host serve mgr req)).header =
      responseHeader (reservation host req s)
        (built host serve mgr req s).2 := by
  unfold responseMessage
  rw [hReach.response_built hHandled]
  exact header_put _ _ _

/- Behind the header there is what was built. -/
theorem Reaches.word_eq
    {pos : Nat}
    (hReach : Reaches mgr req s)
    (hHandled :
      (dispatched host serve mgr req s).handled = true)
    (hBehind : 8 ≤ pos) :
    (handleRequest host serve mgr req).response.bytes.word
        pos =
      (built host serve mgr req s).1.bytes.word pos := by
  rw [hReach.response_built hHandled, Buffer.bytes_put,
    Bytes.word_store_apart]
  right
  rw [length_toWords]
  omega

/- The special header of one place is written there. -/
theorem built_special
    {copied : Bool}
    (hOne : reservation host req s = oneHandle copied) :
    HipcSpecialHeader.ofWord
        ((built host serve mgr req s).1.bytes.word 8) =
      { numCopyHandles := if copied then 1 else 0
        numMoveHandles := if copied then 0 else 1 } := by
  unfold built buildResponse putSpecialHeader
  rw [hOne]
  simp only [oneHandle, Buffer.bytes_put,
    Bytes.word_store_word]
  exact HipcSpecialHeader.ofWord_toWord _

/- Of two places the first keeps what was in the buffer. -/
theorem built_stale
    (hOff : (reservation host req s).rawOff = 24)
    (hPos : (reservation host req s).shdrPos = some 16) :
    (built host serve mgr req s).1.bytes.word 8 =
      Bytes.word req.response 8 := by
  have hBefore :
      SameBefore 12 { bytes := req.response }
        (answered host serve mgr req s).response :=
    answered_before_special (by omega)
  have hHeaders :=
    putHeaders_before (layout host serve mgr req s)
      (req.parsed s.isDomain).command.cmifToken
      (keptSize host serve mgr req s)
      (answered host serve mgr req s).objects
      (answered host serve mgr req s).response
  have hRaw : (layout host serve mgr req s).rawOff = 24 := hOff
  unfold built buildResponse putSpecialHeader
  rw [hPos]
  simp only [Buffer.bytes_put]
  rw [Bytes.word_store_apart (Or.inl (by omega)),
    hHeaders.word (by omega), hBefore.word (by omega)]

/- Where the client looks for a special header, there is one
if one place has been reserved; of two the first has none. -/
theorem Reaches.wireOffset_eq
    (hReach : Reaches mgr req s)
    (hHandled :
      (dispatched host serve mgr req s).handled = true) :
    (responseMessage req
        (handleRequest host serve mgr req)).wireOffset =
      if OwnReserved req s ∧ HandleReserved host req s then
        8 +
          (HipcSpecialHeader.ofWord
            (Bytes.word req.response 8)).extent
      else (reservation host req s).rawOff := by
  rw [wireOffset_of_header (hReach.header_eq hHandled)]
  have hSpecial :
      (responseMessage req
          (handleRequest host serve mgr req)).specialHeader =
        HipcSpecialHeader.ofWord
          ((built host serve mgr req s).1.bytes.word 8) :=
    congrArg HipcSpecialHeader.ofWord
      (hReach.word_eq hHandled (Nat.le_refl 8))
  have hOne :
      ∀ copied, reservation host req s = oneHandle copied →
        8 + (if (reservation host req s).hasSpecialHeader = 1
          then
            (HipcSpecialHeader.ofWord
              ((built host serve mgr req s).1.bytes.word
                8)).extent
          else 0) =
          (reservation host req s).rawOff := by
    intro copied hEq
    rw [built_special hEq, hEq]
    cases copied <;> rfl
  rw [hSpecial]
  rcases reservation_cases host req s with
    ⟨hOwn, -, hEq⟩ | ⟨-, hHandle, hEq⟩ | ⟨hOwn, -, hEq⟩ |
      ⟨hOwn, hHandle, hOff, hPos, -, hHas⟩
  · have hNot :
        ¬ (OwnReserved req s ∧ HandleReserved host req s) :=
      fun hBoth => hOwn hBoth.1
    rw [if_neg hNot, hEq]
    rfl
  · have hNot :
        ¬ (OwnReserved req s ∧ HandleReserved host req s) :=
      fun hBoth => hHandle hBoth.2
    rw [if_neg hNot]
    exact hOne true hEq
  · have hNot :
        ¬ (OwnReserved req s ∧ HandleReserved host req s) :=
      fun hBoth => hOwn hBoth.1
    rw [if_neg hNot]
    exact hOne _ hEq
  · have hBoth :
        OwnReserved req s ∧ HandleReserved host req s :=
      ⟨hOwn, hHandle⟩
    rw [if_pos hBoth, hHas, built_stale hOff hPos]
    rfl

/-
  The data words up to the end of so long an output are fewer
  than 1024, it ends in the caller's buffer, and where two
  places are reserved, the old buffer has a special header that
  stands for both.
-/
def Announceable
    (host : Host)
    (serve : ServiceCall → ServiceReply)
    (mgr : IpcManager)
    (req : Request)
    (s : Session)
    (size : Nat) : Prop :=
  (layout host serve mgr req s).cmifOutEnd + size ≤
      (reservation host req s).rawOff + 4 * 1023 ∧
    (layout host serve mgr req s).cmifOutEnd + size ≤
      req.respSize ∧
    (OwnReserved req s → HandleReserved host req s →
      (HipcSpecialHeader.ofWord
        (Bytes.word req.response 8)).extent = 16)

instance
    (host : Host)
    (serve : ServiceCall → ServiceReply)
    (mgr : IpcManager)
    (req : Request)
    (s : Session)
    (size : Nat) :
    Decidable (Announceable host serve mgr req s size) :=
  inferInstanceAs (Decidable (_ ∧ _ ∧ (_ → _ → _)))

/- The space reserved has one of three sizes. -/
theorem rawOff_cases
    (host : Host)
    (req : Request)
    (s : Session) :
    ((reservation host req s).rawOff = 8 ∨
        (reservation host req s).rawOff = 16) ∧
        ¬ (OwnReserved req s ∧ HandleReserved host req s) ∨
      (reservation host req s).rawOff = 24 ∧
        OwnReserved req s ∧ HandleReserved host req s := by
  rcases reservation_cases host req s with
    ⟨hOwn, -, hEq⟩ | ⟨-, hHandle, hEq⟩ | ⟨hOwn, -, hEq⟩ |
      ⟨hOwn, hHandle, hOff, -⟩
  · rw [hEq]
    exact .inl ⟨.inl rfl, fun hBoth => hOwn hBoth.1⟩
  · rw [hEq]
    exact .inl ⟨.inr rfl, fun hBoth => hHandle hBoth.2⟩
  · rw [hEq]
    exact .inl ⟨.inr rfl, fun hBoth => hOwn hBoth.1⟩
  · exact .inr ⟨hOff, hOwn, hHandle⟩

/- Data words start and headers end at whole words. -/
theorem cmifOutEnd_mod
    (host : Host)
    (serve : ServiceCall → ServiceReply)
    (mgr : IpcManager)
    (req : Request)
    (s : Session) :
    (reservation host req s).rawOff % 4 = 0 ∧
      (layout host serve mgr req s).cmifOutEnd % 4 = 0 := by
  constructor
  · rcases rawOff_cases host req s with
      ⟨hOff | hOff, -⟩ | ⟨hOff, -⟩ <;> rw [hOff]
  · unfold ResponseLayout.cmifOutEnd ResponseLayout.cmifHdrOff
      ResponseLayout.cmifOutOff calcCmifAlign
    split <;> omega

/- Ten bits hold the number of data words if the output is not
too long. -/
theorem announced_iff
    {start stop : Nat}
    (hOrder : start ≤ stop) :
    stop ≤
        start +
          4 *
            (BitVec.ofNat 10
              ((stop - start + 3) / 4)).toNat ↔
      stop ≤ start + 4 * 1023 := by
  rw [BitVec.toNat_ofNat]
  omega

/- The data words of the response are where the client looks. -/
theorem Reaches.dataWords_iff
    (hReach : Reaches mgr req s)
    (hHandled :
      (dispatched host serve mgr req s).handled = true) :
    (responseMessage req
          (handleRequest host serve mgr req)).wireOffset =
        (handleRequest host serve mgr req).rawOff ↔
      (OwnReserved req s → HandleReserved host req s →
        (HipcSpecialHeader.ofWord
          (Bytes.word req.response 8)).extent = 16) := by
  have hRaw := (hReach.response_eq hHandled).2.1
  rw [hReach.wireOffset_eq hHandled, hRaw]
  rcases rawOff_cases host req s with
    ⟨-, hNot⟩ | ⟨hOff, hBoth⟩
  · rw [if_neg hNot]
    refine iff_of_true rfl ?_
    intro hOwn hHandle
    exact absurd ⟨hOwn, hHandle⟩ hNot
  · rw [if_pos hBoth, hOff]
    constructor
    · intro hEq hOwn hHandle
      omega
    · intro hExtent
      rw [hExtent hBoth.1 hBoth.2]

/- The command header is where the client looks. -/
theorem Reaches.commandPlace_eq
    (hReach : Reaches mgr req s)
    (hHandled :
      (dispatched host serve mgr req s).handled = true)
    (hPlace :
      (responseMessage req
          (handleRequest host serve mgr req)).wireOffset =
        (handleRequest host serve mgr req).rawOff) :
    commandPlace
        (responseMessage req
          (handleRequest host serve mgr req))
        (layout host serve mgr req s).isDomainResp =
      (layout host serve mgr req s).cmifHdrOff := by
  have hRaw := (hReach.response_eq hHandled).2.1
  unfold commandPlace
  rw [hPlace, hRaw]
  rfl

/- What the client finds there. -/
theorem Reaches.command_spec
    {k : Nat}
    (hReach : Reaches mgr req s)
    (hHandled :
      (dispatched host serve mgr req s).handled = true)
    (hK : k < 4) :
    (handleRequest host serve mgr req).response.bytes.word
        ((layout host serve mgr req s).cmifHdrOff + 4 * k) =
      [CMIF_OUT_MAGIC, 0, 0,
        (req.parsed s.isDomain).command.cmifToken].getD k
          0 := by
  have hOrdered := hReach.ordered host
  have hStart := hOrdered.start
  have hOffsets := (layout host serve mgr req s).offsets
  have hRaw :
      (layout host serve mgr req s).rawOff =
        (reservation host req s).rawOff :=
    rfl
  rw [hReach.word_eq hHandled (by omega)]
  exact buildResponse_word hOrdered rfl hK

/- And the bytes behind it. -/
theorem Reaches.slice_eq
    {pos count : Nat}
    (hReach : Reaches mgr req s)
    (hHandled :
      (dispatched host serve mgr req s).handled = true)
    (hBehind : 8 ≤ pos) :
    (handleRequest host serve mgr req).response.bytes.slice
        pos count =
      (built host serve mgr req s).1.bytes.slice pos
        count := by
  rw [hReach.response_built hHandled, Buffer.bytes_put,
    Bytes.slice_store_apart]
  right
  rw [length_toWords]
  exact hBehind

/- The number of data words that is announced. -/
theorem Reaches.numDataWords_eq
    (hReach : Reaches mgr req s)
    (hHandled :
      (dispatched host serve mgr req s).handled = true) :
    (responseMessage req
        (handleRequest host serve mgr
          req)).header.numDataWords =
      BitVec.ofNat 10
        (((built host serve mgr req s).2 -
          (reservation host req s).rawOff + 3) / 4) := by
  rw [hReach.header_eq hHandled, responseHeader]

/- Bytes that are put at the end of a response are recovered if
they can be announced. -/
theorem Reaches.recovered_of_built
    {output : List U8}
    (hReach : Reaches mgr req s)
    (hHandled :
      (dispatched host serve mgr req s).handled = true)
    (hBytes :
      (built host serve mgr req s).1.bytes.slice
          (layout host serve mgr req s).cmifOutEnd
          output.length = output)
    (hSize :
      (built host serve mgr req s).2 =
        (layout host serve mgr req s).cmifOutEnd +
          output.length)
    (hFits :
      Announceable host serve mgr req s output.length) :
    Recovered req (handleRequest host serve mgr req)
      (layout host serve mgr req s).isDomainResp
      (req.parsed s.isDomain).command.cmifToken output := by
  rcases hFits with ⟨hShort, hInside, hExtent⟩
  have hPlace := (hReach.dataWords_iff hHandled).mpr hExtent
  have hCommand := hReach.commandPlace_eq hHandled hPlace
  have hRaw := (hReach.response_eq hHandled).2.1
  have hStart := (hReach.ordered host).start
  have hOffsets := (layout host serve mgr req s).offsets
  have hSame :
      (layout host serve mgr req s).rawOff =
        (reservation host req s).rawOff :=
    rfl
  have hEnd := hOffsets.2.2.2
  constructor
  · exact hPlace
  · rw [hCommand]
    exact hReach.command_spec (k := 0) hHandled (by decide)
  · rw [hCommand]
    exact hReach.command_spec (k := 2) hHandled (by decide)
  · rw [hCommand]
    exact hReach.command_spec (k := 3) hHandled (by decide)
  · rw [hCommand, ← hEnd, hReach.slice_eq hHandled (by omega)]
    exact hBytes
  · rw [hCommand, ← hEnd, hPlace, hRaw,
      hReach.numDataWords_eq hHandled, hSize]
    exact (announced_iff (by omega)).mpr hShort
  · rw [hCommand, ← hEnd]
    exact hInside

/- What has been recovered has been announced: it was put at
the end of the response, if anything was put there. -/
theorem Reaches.announceable_of_recovered
    {token : U32}
    {output : List U8}
    {kept : Nat}
    (hReach : Reaches mgr req s)
    (hHandled :
      (dispatched host serve mgr req s).handled = true)
    (hSize :
      (built host serve mgr req s).2 =
        (layout host serve mgr req s).cmifOutEnd + kept)
    (hKept : kept = output.length ∨ kept = 0)
    (hRecovered :
      Recovered req (handleRequest host serve mgr req)
        (layout host serve mgr req s).isDomainResp token
        output) :
    kept = output.length ∧
      Announceable host serve mgr req s output.length := by
  rcases hRecovered with ⟨hPlace, -, -, -, -, hEnd, hInside⟩
  have hExtent := (hReach.dataWords_iff hHandled).mp hPlace
  have hCommand := hReach.commandPlace_eq hHandled hPlace
  have hRaw := (hReach.response_eq hHandled).2.1
  have hOffsets := (layout host serve mgr req s).offsets
  have hSame :
      (layout host serve mgr req s).rawOff =
        (reservation host req s).rawOff :=
    rfl
  have hOut := hOffsets.2.2.2
  rw [hCommand, ← hOut] at hEnd hInside
  rw [hPlace, hRaw, hReach.numDataWords_eq hHandled,
    hSize] at hEnd
  have hAll : kept = output.length := by
    rcases hKept with hAll | hNone
    · exact hAll
    · have hWords := cmifOutEnd_mod host serve mgr req s
      rw [hNone, BitVec.toNat_ofNat] at hEnd
      omega
  rw [hAll] at hEnd
  exact
    ⟨hAll, (announced_iff (by omega)).mp hEnd, hInside,
      hExtent⟩

------
-- Outputs the Client Recovers
------

/- Without a new object the response ends with the output. -/
theorem built_size
    (hHandled :
      (dispatched host serve mgr req s).handled = true)
    (hPlain : replyFate host serve mgr req s ≠ .object) :
    (built host serve mgr req s).2 =
      (layout host serve mgr req s).cmifOutEnd +
        keptSize host serve mgr req s := by
  rcases answered_spec hHandled with ⟨-, -, -, hNone, -⟩
  rw [if_neg hPlain] at hNone
  unfold built buildResponse
  simp [hNone]

/- With one it ends with the object's id. -/
theorem Reaches.built_object
    (hReach : Reaches mgr req s)
    (hHandled :
      (dispatched host serve mgr req s).handled = true)
    (hFate : replyFate host serve mgr req s = .object) :
    (answered host serve mgr req s).objects.length = 1 ∧
      (built host serve mgr req s).1.bytes.word
          (layout host serve mgr req s).cmifOutOff = 1 ∧
      (built host serve mgr req s).1.bytes.slice
          (layout host serve mgr req s).cmifOutEnd
          (Bytes.ofWords
            (answered host serve mgr req s).objects).length =
        Bytes.ofWords
          (answered host serve mgr req s).objects ∧
      (built host serve mgr req s).2 =
        (layout host serve mgr req s).cmifOutEnd + 4 := by
  rcases answered_spec hHandled with ⟨-, -, -, hNew, -⟩
  rw [if_pos hFate] at hNew
  have hOne :
      (answered host serve mgr req s).objects.length = 1 := by
    rw [hNew]
    rfl
  have hDomain := isDomainResp_of_object hFate
  have hKept : keptSize host serve mgr req s = 0 := by
    refine if_neg ?_
    rintro ⟨hKept, -⟩
    rw [hFate] at hKept
    cases hKept
  rcases @buildResponse_objects req.respSize
      (layout host serve mgr req s) (reservation host req s)
      (req.parsed s.isDomain).command.cmifToken
      (keptSize host serve mgr req s)
      (answered host serve mgr req s).objects
      (answered host serve mgr req s).response
      (hReach.ordered host) rfl hDomain with
    ⟨hCount, hBytes⟩
  have hEnd :
      (layout host serve mgr req s).cmifOutEnd +
          keptSize host serve mgr req s =
        (layout host serve mgr req s).cmifOutEnd := by
    rw [hKept, Nat.add_zero]
  rw [hOne] at hCount
  rw [hEnd] at hBytes
  refine ⟨hOne, hCount, hBytes, ?_⟩
  unfold built buildResponse
  simp [hKept, hDomain, hOne]

/- The whole output is put into the response if it is kept and
not sent elsewhere; else nothing is. -/
theorem keptSize_cases
    (host : Host)
    (serve : ServiceCall → ServiceReply)
    (mgr : IpcManager)
    (req : Request)
    (s : Session) :
    (keptSize host serve mgr req s =
          (dispatched host serve mgr req s).rawOutMax ↔
        (dispatched host serve mgr req s).rawOutMax = 0 ∨
          replyFate host serve mgr req s = .kept ∧
            ¬ Redirected host req s) ∧
      (keptSize host serve mgr req s =
          (dispatched host serve mgr req s).rawOutMax ∨
        keptSize host serve mgr req s = 0) := by
  unfold keptSize
  split
  next hBoth => simp [hBoth]
  next hNot =>
    refine ⟨?_, .inr rfl⟩
    rw [or_iff_left hNot]
    exact eq_comm

/- Where it is put, it is as the service left it. -/
theorem Reaches.slice_built
    (hReach : Reaches mgr req s)
    (hHandled :
      (dispatched host serve mgr req s).handled = true)
    (hAll :
      keptSize host serve mgr req s =
        (dispatched host serve mgr req s).rawOutMax) :
    (built host serve mgr req s).1.bytes.slice
        (layout host serve mgr req s).cmifOutEnd
        (dispatched host serve mgr req s).rawOutMax =
      replyBytes host serve mgr req s := by
  rcases answered_spec hHandled with ⟨-, -, -, -, -, hSame, -⟩
  have hBuilt :
      (built host serve mgr req s).1.bytes.slice
          (layout host serve mgr req s).cmifOutEnd
          (keptSize host serve mgr req s) = _ :=
    buildResponse_reply (hReach.ordered host) rfl
  rw [hAll] at hBuilt
  unfold replyBytes
  rcases (keptSize_cases host serve mgr req s).1.mp hAll with
    hZero | ⟨hKept, -⟩
  · rw [hZero]
    rfl
  · rw [hBuilt, hSame hKept]
    rfl

theorem length_replyBytes :
    (replyBytes host serve mgr req s).length =
      (dispatched host serve mgr req s).rawOutMax :=
  Bytes.length_slice _ _ _

/-
  The client recovers an output that makes no new object just
  when it is kept, can be announced and ends in the client's
  buffer.
-/
theorem Reaches.recovered_reply_iff
    (hReach : Reaches mgr req s)
    (hHandled :
      (dispatched host serve mgr req s).handled = true)
    (hPlain : replyFate host serve mgr req s ≠ .object) :
    Recovered req (handleRequest host serve mgr req)
        (layout host serve mgr req s).isDomainResp
        (req.parsed s.isDomain).command.cmifToken
        (replyBytes host serve mgr req s) ↔
      ((dispatched host serve mgr req s).rawOutMax = 0 ∨
        replyFate host serve mgr req s = .kept ∧
          ¬ Redirected host req s) ∧
      Announceable host serve mgr req s
        (dispatched host serve mgr req s).rawOutMax := by
  have hSize := built_size hHandled hPlain
  rcases keptSize_cases host serve mgr req s with
    ⟨hAllIff, hEither⟩
  rw [← hAllIff]
  constructor
  · intro hRecovered
    rw [← length_replyBytes] at hEither ⊢
    exact
      hReach.announceable_of_recovered hHandled hSize hEither
        hRecovered
  · rintro ⟨hAll, hFits⟩
    rw [← length_replyBytes] at hFits
    apply hReach.recovered_of_built hHandled _ _ hFits
    · rw [length_replyBytes]
      exact hReach.slice_built hHandled hAll
    · rw [length_replyBytes, ← hAll]
      exact hSize

/- Outside a domain an output is kept if no handle is looked
for in it, or it does not begin with one. -/
theorem replyFate_of_plain
    (hPlain :
      (layout host serve mgr req s).isDomainResp = false) :
    replyFate host serve mgr req s ≠ .object ∧
      (replyFate host serve mgr req s = .kept ↔
        (req.parsed s.isDomain).isControl = true ∨
          (reservation host req s).handlePos = none ∨
          (dispatched host serve mgr req s).rawOutMax < 4 ∨
          (dispatched host serve mgr req
            s).response.bytes.word
              (reservation host req s).rawOff = 0) := by
  refine ⟨fun hObject => ?_, ?_⟩
  · rw [isDomainResp_of_object hObject] at hPlain
    cases hPlain
  · unfold replyFate
    cases hControl : (req.parsed s.isDomain).isControl with
    | true => simp
    | false =>
        have hNo :
            (dispatched host serve mgr req
              s).manager.getIsDomain req.session = false := by
          simpa [layout, hControl] using hPlain
        unfold Answer.outputFate Answer.fate
        rw [hNo]
        simp only [Bool.false_eq_true, if_false,
          Bool.not_false, and_true, false_or,
          Option.isNone_iff_eq_none]
        by_cases hPlain :
            (dispatched host serve mgr req s).rawOutMax < 4 ∨
              (dispatched host serve mgr req
                s).response.bytes.word
                  (reservation host req s).rawOff = 0 ∨
              (reservation host req s).handlePos = none
        · rw [if_pos hPlain]
          simp only [true_iff]
          tauto
        · rw [if_neg hPlain]
          have hLost :
              ∀ p : Prop, [Decidable p] →
                ((if p then Answer.Fate.dropped
                  else .dropped) = .kept ↔ False) := by
            intro p _
            split <;> simp
          rw [hLost]
          simp only [false_iff]
          tauto

/-
  Outside a domain the client recovers the token, the result
  and the service's output just when the output is neither sent
  to a buffer nor taken for a handle, is short enough to be
  announced and ends in the client's buffer.
-/
theorem recovered_iff
    (hReach : Reaches mgr req s)
    (hHandled :
      (dispatched host serve mgr req s).handled = true)
    (hPlain :
      (layout host serve mgr req s).isDomainResp = false) :
    Recovered req (handleRequest host serve mgr req) false
        (req.parsed s.isDomain).command.cmifToken
        (replyBytes host serve mgr req s) ↔
      ((dispatched host serve mgr req s).rawOutMax = 0 ∨
        ((req.parsed s.isDomain).isControl = true ∨
            (reservation host req s).handlePos = none ∨
            (dispatched host serve mgr req s).rawOutMax < 4 ∨
            (dispatched host serve mgr req
              s).response.bytes.word
                (reservation host req s).rawOff = 0) ∧
          ¬ Redirected host req s) ∧
      Announceable host serve mgr req s
        (dispatched host serve mgr req s).rawOutMax := by
  rcases replyFate_of_plain hPlain with ⟨hObject, hKept⟩
  rw [← hKept, ← hReach.recovered_reply_iff hHandled hObject,
    hPlain]

theorem sampleRequest_reaches :
    Reaches sampleManager sampleRequest sampleSession where
  found := rfl
  message := by decide
  open_ := by decide
  room := by decide
  service := rfl

/- A word of output in a buffer of 256 bytes. -/
theorem smallWord_recovered :
    Recovered sampleRequest
      (handleRequest sampleHost (serveWord 5) sampleManager
        sampleRequest) false
      (sampleRequest.parsed
        sampleSession.isDomain).command.cmifToken
      (replyBytes sampleHost (serveWord 5) sampleManager
        sampleRequest sampleSession) :=
  (recovered_iff sampleRequest_reaches (by decide)
    (by decide)).mpr (by decide)

/- The same request in a buffer of 64 KiB. -/
def longRequest : Request :=
  { sampleRequest with respSize := 0x10000 }

theorem longRequest_reaches :
    Reaches sampleManager longRequest sampleSession where
  found := rfl
  message := by decide
  open_ := by decide
  room := by decide
  service := rfl

/- A service that puts out 4069 bytes. -/
def serveLong (_ : ServiceCall) : ServiceReply :=
  { written := List.replicate 4069 0xFF
    outSize := 4069 }

/- They take 1024 data words, and none is announced. -/
theorem longOutput_not_recovered :
    ¬ Recovered longRequest
        (handleRequest sampleHost serveLong sampleManager
          longRequest) false
        (longRequest.parsed
          sampleSession.isDomain).command.cmifToken
        (replyBytes sampleHost serveLong sampleManager
          longRequest sampleSession) := by
  intro hRecovered
  have hPlain :
      (layout sampleHost serveLong sampleManager longRequest
        sampleSession).isDomainResp = false := by
    decide
  rw [← hPlain] at hRecovered
  have hShort :=
    ((longRequest_reaches.recovered_reply_iff
      (by decide +kernel) (by decide +kernel)).mp
        hRecovered).2.1
  revert hShort
  decide

------
-- Replies to Commands
------

/-
  The client receives the reply and nothing behind it, there is
  no new object, and the manager changed only as the service
  asked.
-/
structure ReplyReceived
    (host : Host)
    (serve : ServiceCall → ServiceReply)
    (mgr : IpcManager)
    (req : Request)
    (s : Session) : Prop where
  recovered :
    Recovered req (handleRequest host serve mgr req)
      (layout host serve mgr req s).isDomainResp
      (req.parsed s.isDomain).command.cmifToken
      (replyBytes host serve mgr req s)
  exact :
    (handleRequest host serve mgr req).respSize =
      (layout host serve mgr req s).cmifOutEnd +
        (replyBytes host serve mgr req s).length
  noObject : (handleRequest host serve mgr req).objects = []
  manager :
    (handleRequest host serve mgr req).manager =
      (dispatched host serve mgr req s).manager

/- So it is if the output is recovered and makes no object. -/
theorem Reaches.replyReceived_iff_recovered
    (hReach : Reaches mgr req s)
    (hHandled :
      (dispatched host serve mgr req s).handled = true) :
    ReplyReceived host serve mgr req s ↔
      replyFate host serve mgr req s ≠ .object ∧
        Recovered req (handleRequest host serve mgr req)
          (layout host serve mgr req s).isDomainResp
          (req.parsed s.isDomain).command.cmifToken
          (replyBytes host serve mgr req s) := by
  rcases hReach.effects host serve with ⟨hManager, -, hObjects⟩
  rcases answered_spec hHandled with ⟨-, -, -, hNew, -⟩
  constructor
  · intro hReceived
    refine ⟨fun hObject => ?_, hReceived.recovered⟩
    have hNone := hReceived.noObject
    rw [hObjects, hNew, if_pos hObject] at hNone
    cases hNone
  · rintro ⟨hPlain, hRecovered⟩
    have hEnd := (hReach.response_eq hHandled).1
    have hSize := built_size hHandled hPlain
    have hEither := (keptSize_cases host serve mgr req s).2
    rw [← length_replyBytes] at hEither
    rcases hReach.announceable_of_recovered hHandled hSize
        hEither hRecovered with ⟨hAll, -⟩
    refine ⟨hRecovered, ?_, ?_, ?_⟩
    · rw [← hAll, ← hSize]
      exact hEnd
    · rw [hObjects, hNew, if_neg hPlain]
    · rw [hManager, answered_manager fun _ => hPlain]

/-
  The reply to a command reaches the client exactly when it is
  not sent to a receive buffer instead, can be announced and
  ends in the client's buffer, and, in a domain, its first word
  does not pass for a handle.
-/
theorem replyReceived_iff
    (hReach : Reaches mgr req s)
    (hRequest : (req.parsed s.isDomain).isControl = false)
    (hHandled :
      (dispatched host serve mgr req s).handled = true)
    (hMode :
      (dispatched host serve mgr req s).manager.getIsDomain
          req.session = true ∨
        (reservation host req s).handlePos = none) :
    ReplyReceived host serve mgr req s ↔
      ((dispatched host serve mgr req s).rawOutMax = 0 ∨
        ¬ Redirected host req s) ∧
      ((dispatched host serve mgr req s).manager.getIsDomain
          req.session = true →
        LooksLikeData (dispatched host serve mgr req s)
          (reservation host req s).rawOff) ∧
      Announceable host serve mgr req s
        (dispatched host serve mgr req s).rawOutMax := by
  have hShort :
      (dispatched host serve mgr req s).rawOutMax = 0 →
        replyFate host serve mgr req s = .kept := by
    intro hZero
    refine (replyFate_kept_iff hRequest hMode).mpr fun _ => ?_
    exact .inl (by omega)
  rw [hReach.replyReceived_iff_recovered hHandled,
    ← replyFate_kept_iff hRequest hMode]
  constructor
  · rintro ⟨hPlain, hRecovered⟩
    rcases (hReach.recovered_reply_iff hHandled hPlain).mp
        hRecovered with ⟨hZero | ⟨hKept, hDirect⟩, hFits⟩
    · exact ⟨.inl hZero, hShort hZero, hFits⟩
    · exact ⟨.inr hDirect, hKept, hFits⟩
  · rintro ⟨hDirect, hKept, hFits⟩
    have hPlain : replyFate host serve mgr req s ≠ .object := by
      rw [hKept]
      decide
    refine ⟨hPlain, ?_⟩
    rw [hReach.recovered_reply_iff hHandled hPlain]
    exact ⟨hDirect.imp_right fun hNot => ⟨hKept, hNot⟩, hFits⟩

/- The sample session answers a word in a domain. -/
theorem smallWord_received :
    ReplyReceived sampleHost (serveWord 5) domainManager
      domainRequest domainSession := by
  refine
    (replyReceived_iff domainRequest_reaches ?_ ?_ ?_).2 ?_
  · decide
  · decide
  · exact Or.inl (by decide)
  · refine ⟨Or.inr ?_, fun _ => ?_, ?_⟩
    · decide
    · decide
    · decide

/- A count of 4096 is the id of the sample session. -/
theorem sessionWord_not_received :
    ¬ ReplyReceived sampleHost (serveWord 0x1000)
      domainManager domainRequest domainSession := by
  intro hReceived
  have hObjects := hReceived.noObject
  revert hObjects
  decide

end IpcManager

end M1Switch
