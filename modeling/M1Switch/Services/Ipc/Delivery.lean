import M1Switch.Services.Ipc.Responses

/-
  What a service is called with, against what the client put
  into its message.

  A client lays out a message in the wire format: a header, a
  special header with what belongs to it, descriptors, and
  data words in which the command is aligned.  A buffer
  descriptor has three words there: the lower words of size
  and address, and one with their upper bits.

  Key definitions include:
    * `wireOffset`
    * `Message.Carries`

  Main results:
    * `decoded_iff`
    * `not_sameDelivery`
-/

------
-- Messages of a Client
------

namespace M1Switch

namespace Message

/- The bytes of a special header, where there is one. -/
def specialExtent (m : Message) : Nat :=
  if m.header.hasSpecialHeader = 1 then
    m.specialHeader.extent
  else 0

/- Where data words start behind descriptors of a size. -/
def offsetWith (m : Message) (descriptorBytes : Nat) : Nat :=
  8 + m.specialExtent + m.header.numSendStatics.toNat * 8 +
    m.header.numBuffers * descriptorBytes

/- Where data words start on the wire. -/
def wireOffset (m : Message) : Nat :=
  m.offsetWith 12

/-
  A command in the data words that start at `off`: its header
  behind `skip` bytes of the aligned start, and its payload up
  to the end of the data words, which are in the message.
-/
structure Carries
    (m : Message)
    (off skip : Nat)
    (cmdId token : U32)
    (payload : List U8) : Prop where
  hMagic :
    m.data.word (calcCmifAlign off + skip) = CMIF_IN_MAGIC
  hCommand :
    m.data.word (calcCmifAlign off + skip + 8) = cmdId
  hToken :
    m.data.word (calcCmifAlign off + skip + 12) = token
  hPayload :
    m.data.slice (calcCmifAlign off + skip + 16)
      payload.length = payload
  hEnds :
    calcCmifAlign off + skip + 16 + payload.length =
      off + m.header.numDataWords.toNat * 4
  hInside :
    off + m.header.numDataWords.toNat * 4 ≤ m.size

/- A command header is not taken for an old response. -/
theorem Carries.first
    {m : Message}
    {off : Nat}
    {cmdId token : U32}
    {payload : List U8}
    (hCarries : m.Carries off 0 cmdId token payload) :
    m.data.word (calcCmifAlign off) ≠ CMIF_OUT_MAGIC := by
  have hMagic := hCarries.hMagic
  rw [Nat.add_zero] at hMagic
  rw [hMagic]
  decide

/- A request without a receive list, as a client sends it. -/
structure WellFormed
    (m : Message)
    (cmdId token : U32)
    (payload : List U8) : Prop where
  type : m.header.type = 4
  noRecvList : m.header.recvStaticMode = 0
  carries : m.Carries m.wireOffset 0 cmdId token payload

variable {m : Message} {off : Nat}

/- The parser takes buffer descriptors for four words. -/
theorem calcDataWordsOffset_value
    (hSize : m.offsetWith 16 < m.size) :
    m.calcDataWordsOffset.value = m.offsetWith 16 := by
  have hSmall : ¬ m.size < 8 := by
    unfold offsetWith at hSize
    omega
  unfold calcDataWordsOffset
  rw [if_neg hSmall]
  by_cases hSpecial : m.header.hasSpecialHeader = 1
  · have hExtent :
        m.specialExtent = m.specialHeader.extent :=
      if_pos hSpecial
    have hShort : ¬ 8 + 4 > m.size := by
      unfold offsetWith at hSize
      rw [hExtent] at hSize
      unfold HipcSpecialHeader.extent at hSize
      omega
    simp only [Traced.value_bind, hSpecial, hShort, if_true,
      if_false, Traced.value_pure]
    unfold skipDescriptors
    unfold offsetWith at hSize ⊢
    rw [hExtent] at hSize ⊢
    exact if_pos hSize
  · have hExtent : m.specialExtent = 0 := if_neg hSpecial
    simp only [Traced.value_bind, hSpecial, if_false,
      Traced.value_pure]
    unfold skipDescriptors
    unfold offsetWith at hSize ⊢
    rw [hExtent] at hSize ⊢
    exact if_pos hSize

/- A message without an old response is parsed as it is. -/
theorem parseHeader_value
    (hMagic :
      m.data.word (calcCmifAlign m.calcDataWordsOffset.value) ≠
        CMIF_OUT_MAGIC) :
    m.parseHeader.value =
      (m.header, m.calcDataWordsOffset.value) := by
  unfold parseHeader
  simp only [Traced.value_bind, Traced.value_ite,
    Traced.value_pure, hMagic, if_false, ite_self]

/- Where a command is looked for decides what is found. -/
theorem parseCommand_value
    {isDomain : Bool}
    {cmdId token : U32}
    {payload : List U8}
    (hCarries :
      m.Carries off (if isDomain then 16 else 0) cmdId token
        payload) :
    let c := (m.parseCommand m.header off isDomain).value
    c.cmdId = cmdId ∧ c.cmifToken = token ∧
      c.rawInSize =
        (if isDomain then 16 else 0) + payload.length ∧
      (0 < c.rawInSize → c.rawIn = calcCmifAlign off + 16) := by
  intro c
  have hEnds := hCarries.hEnds
  have hAlign := le_calcCmifAlign off
  have hWords : 0 < m.header.numDataWords.toNat := by omega
  have hValue :
      c =
        { cmdId := cmdId
          cmifToken := token
          rawIn :=
            if calcCmifAlign off + 16 <
                off + m.header.numDataWords.toNat * 4 then
              calcCmifAlign off + 16
            else 0
          rawInSize :=
            off + m.header.numDataWords.toNat * 4 -
              (calcCmifAlign off + 16) } := by
    simp only [c, parseCommand, hWords, if_true,
      Traced.value_bind, hCarries.hMagic, hCarries.hCommand,
      hCarries.hToken, Traced.value_pure]
  rw [hValue]
  refine ⟨rfl, rfl, ?_, ?_⟩
  · show
      off + m.header.numDataWords.toNat * 4 -
          (calcCmifAlign off + 16) = _
    omega
  · intro hInput
    simp only at hInput
    exact if_pos (by omega)

/- Where there is no command header there is no token. -/
theorem cmifToken_of_no_magic
    {isDomain : Bool}
    {hdr : HipcHeader}
    (hMagic :
      m.data.word
          (calcCmifAlign off + if isDomain then 16 else 0) ≠
        CMIF_IN_MAGIC) :
    (m.parseCommand hdr off isDomain).value.cmifToken = 0 := by
  unfold parseCommand
  simp only [Traced.value_ite, Traced.value_bind, hMagic,
    if_false]
  split
  · split <;> rfl
  · rfl

/- In a plain message the input is the payload. -/
theorem input_of_carries
    {cmdId token : U32}
    {payload : List U8}
    (hCarries : m.Carries off 0 cmdId token payload) :
    m.input (m.parseCommand m.header off false).value =
      payload := by
  rcases @parseCommand_value m off false cmdId token payload
      hCarries with
    ⟨-, -, hSize, hStart⟩
  have hPayload := hCarries.hPayload
  unfold input
  rw [hSize]
  simp only [Bool.false_eq_true, if_false, Nat.zero_add,
    Nat.add_zero] at hPayload ⊢
  rcases Nat.eq_zero_or_pos payload.length with hZero | hPos
  · rw [hZero, List.length_eq_zero_iff.1 hZero]
    rfl
  · rw [hStart (by rw [hSize]; simpa using hPos)]
    exact hPayload

end Message

------
-- Calls of a Service
------

namespace IpcManager

variable {host : Host} {serve : ServiceCall → ServiceReply}
variable {mgr : IpcManager} {req : Request} {s : Session}
variable {svc : ServiceRef}

/- How a request calls a service. -/
def serviceCall
    (host : Host)
    (req : Request)
    (s : Session)
    (svc : ServiceRef) : ServiceCall :=
  { service := svc
    cmdId := (req.parsed s.isDomain).command.cmdId
    rawIn := req.message.input (req.parsed s.isDomain).command
    outMax := req.respSize - (reservation host req s).rawOff }

/- The service a request is for. -/
def target
    (mgr : IpcManager)
    (req : Request)
    (s : Session) : Option ServiceRef :=
  Answer.targetService mgr req.session
    (req.parsed s.isDomain).domainObjectId

/- Taking out handles calls nobody. -/
theorem answered_calls :
    (answered host serve mgr req s).calls =
      (dispatched host serve mgr req s).calls := by
  cases hHandled :
      (dispatched host serve mgr req s).handled with
  | false =>
      exact
        congrArg Answer.calls
          (Answer.extract_unhandled hHandled)
  | true => exact (answered_spec hHandled).2.1

/- A control request calls no service. -/
theorem dispatched_control
    (hControl : (req.parsed s.isDomain).isControl = true) :
    (dispatched host serve mgr req s).calls = [] := by
  unfold dispatched dispatch Answer.ofControl
  rw [if_pos hControl]
  split
  · rfl
  · split <;> rfl

/- Any other request calls the service it is for. -/
theorem dispatched_service
    (hRequest : (req.parsed s.isDomain).isControl = false)
    (hTarget : target mgr req s = some svc) :
    let a := dispatched host serve mgr req s
    let call := serviceCall host req s svc
    a.calls = [call] ∧ a.handled = (serve call).handled ∧
      a.rawOutMax = (serve call).outSize ∧
      a.manager = (serve call).calls.foldl perform mgr := by
  unfold target at hTarget
  unfold dispatched dispatch Answer.ofService
  rw [hRequest, hTarget]
  exact ⟨rfl, rfl, rfl, rfl⟩

theorem dispatched_none
    (hRequest : (req.parsed s.isDomain).isControl = false)
    (hTarget : target mgr req s = none) :
    (dispatched host serve mgr req s).calls = [] := by
  unfold target at hTarget
  unfold dispatched dispatch Answer.ofService
  rw [hRequest, hTarget]
  rfl

theorem Reaches.calls_eq
    (hReach : Reaches mgr req s)
    (hRequest : (req.parsed s.isDomain).isControl = false)
    (hTarget : target mgr req s = some svc)
    (host : Host)
    (serve : ServiceCall → ServiceReply) :
    (handleRequest host serve mgr req).calls =
      [serviceCall host req s svc] := by
  rcases hReach.effects host serve with ⟨-, hCalls, -⟩
  rw [hCalls, answered_calls]
  exact (dispatched_service hRequest hTarget).1

/- Every call has the command and the input of the request. -/
theorem call_input
    {call : ServiceCall}
    (hCall :
      call ∈ (handleRequest host serve mgr req).calls) :
    ∃ s, mgr.findSession req.session = some s ∧
      call.cmdId = (req.parsed s.isDomain).command.cmdId ∧
      call.rawIn =
        req.message.input (req.parsed s.isDomain).command := by
  rcases reaches_cases mgr req with
    ⟨s, hReach⟩ | ⟨s, hFind, hSize, hClose⟩ | ⟨hNot, hOpen⟩
  · refine ⟨s, hReach.found, ?_⟩
    rcases hReach.effects host serve with ⟨-, hCalls, -⟩
    rw [hCalls, answered_calls] at hCall
    cases hControl : (req.parsed s.isDomain).isControl with
    | true =>
        rw [dispatched_control hControl] at hCall
        cases hCall
    | false =>
        cases hTarget : target mgr req s with
        | none =>
            rw [dispatched_none hControl hTarget] at hCall
            cases hCall
        | some svc =>
            rw [(dispatched_service hControl hTarget).1,
              List.mem_singleton] at hCall
            rw [hCall]
            exact ⟨rfl, rfl⟩
  · rcases @handleRequest_of_close host serve mgr req s hFind
        hSize hClose with
      ⟨-, -, -, hCalls, -⟩
    rw [hCalls] at hCall
    cases hCall
  · rcases @handleRequest_of_not_reaches host serve mgr req hNot
        hOpen with
      ⟨-, -, -, hCalls, -⟩
    rw [hCalls] at hCall
    cases hCall

------
-- Plain Requests
------

/-
  The service is called once, with what the client sent, and
  the client finds its token behind the response's header.
-/
def Decoded
    (serve : ServiceCall → ServiceReply)
    (svc : ServiceRef)
    (sid cmdId token : U32)
    (payload : List U8)
    (o : Outcome) : Prop :=
  ∃ call : ServiceCall,
    o.calls = [call] ∧ call.service = svc ∧
      call.cmdId = cmdId ∧ call.rawIn = payload ∧
      ((serve call).handled = true →
        let off :=
          calcCmifAlign o.rawOff +
            if o.manager.getIsDomain sid then 16 else 0
        o.response.bytes.word off = CMIF_OUT_MAGIC ∧
          o.response.bytes.word (off + 12) = token)

/- A request of type 4 is no close and no control request. -/
theorem parsed_of_type
    {off : Nat}
    (isDomain : Bool)
    (hType : req.message.header.type = 4)
    (hOff : req.message.calcDataWordsOffset.value = off)
    (hFirst :
      req.message.data.word (calcCmifAlign off) ≠
        CMIF_OUT_MAGIC) :
    ¬ req.IsClose ∧
      (req.parsed isDomain).isControl = false ∧
      (req.parsed isDomain).command =
        (req.message.parseCommand req.message.header off
          isDomain).value := by
  subst hOff
  have hHead := Message.parseHeader_value hFirst
  refine ⟨?_, ?_, ?_⟩
  · unfold Request.IsClose
    rw [hHead, hType]
    decide
  · have hHdr :
        (req.parsed isDomain).hdr = req.message.header := by
      unfold Request.parsed
      rw [hHead]
      rfl
    unfold ParsedRequest.isControl
    rw [hHdr, hType]
    decide
  · unfold Request.parsed
    rw [hHead]
    rfl

/- The token of a handled request is in its response. -/
theorem Reaches.token_of_handled
    (hReach : Reaches mgr req s)
    (hRequest : (req.parsed s.isDomain).isControl = false)
    (hHandled :
      (dispatched host serve mgr req s).handled = true) :
    let o := handleRequest host serve mgr req
    let off :=
      calcCmifAlign o.rawOff +
        if o.manager.getIsDomain req.session then 16 else 0
    o.response.bytes.word off = CMIF_OUT_MAGIC ∧
      o.response.bytes.word (off + 12) =
        (req.parsed s.isDomain).command.cmifToken := by
  intro o off
  rcases hReach.effects host serve with ⟨hManager, -, -⟩
  rcases hReach.response_of_handled hHandled with
    ⟨-, hRaw, hdr, hResponse⟩
  rcases answered_spec hHandled with ⟨-, -, -, -, hDomain, -⟩
  have hOrdered := hReach.ordered host
  have hStart := hOrdered.start
  have hOffsets := (layout host serve mgr req s).offsets
  have hOff :
      off = (layout host serve mgr req s).cmifHdrOff := by
    simp only [off, o, hManager, hDomain, hRaw]
    unfold ResponseLayout.cmifHdrOff ResponseLayout.cmifOutOff
      layout
    rw [hRequest, Bool.not_false, Bool.and_true]
  have hBehind : 8 ≤ off := by
    have hLayout :
        (layout host serve mgr req s).rawOff =
          (reservation host req s).rawOff :=
      rfl
    omega
  have hToken :=
    @buildResponse_token req.respSize
      (layout host serve mgr req s)
      (reservation host req s)
      (req.parsed s.isDomain).command.cmifToken
      (keptSize host serve mgr req s)
      (answered host serve mgr req s).objects
      (answered host serve mgr req s).response hOrdered rfl
  simp only [o, hResponse, Buffer.bytes_put]
  rw [Bytes.word_store_apart, Bytes.word_store_apart, hOff]
  · exact hToken
  · right
    rw [length_toWords]
    omega
  · right
    rw [length_toWords]
    omega

/- Outside a domain the object id is not looked at. -/
theorem target_of_plain
    (hFind : mgr.findSession req.session = some s)
    (hPlain : s.isDomain = false) :
    target mgr req s = s.service := by
  unfold target Answer.targetService
  simp [hFind, hPlain]

/-
  A command is delivered when the parser looks for it where
  the client put it.
-/
theorem decoded_of_carries
    {off : Nat}
    {cmdId token : U32}
    {payload : List U8}
    (hFind : mgr.findSession req.session = some s)
    (hPlain : s.isDomain = false)
    (hService : s.service = some svc)
    (hRoom : 8 ≤ req.respSize)
    (hType : req.message.header.type = 4)
    (hOff : req.message.calcDataWordsOffset.value = off)
    (hCarries :
      req.message.Carries off 0 cmdId token payload) :
    Decoded serve svc req.session cmdId token payload
      (handleRequest host serve mgr req) := by
  rcases parsed_of_type s.isDomain hType hOff hCarries.first
    with ⟨hOpen, hRequest, hCommand⟩
  have hSize : 8 ≤ req.message.size := by
    have hEnds := hCarries.hEnds
    have hInside := hCarries.hInside
    omega
  have hReach : Reaches mgr req s :=
    ⟨hFind, hSize, hOpen, hRoom, by simp [hService]⟩
  have hTarget : target mgr req s = some svc :=
    (target_of_plain hFind hPlain).trans hService
  have hParsed :=
    @Message.parseCommand_value req.message off false cmdId
      token payload hCarries
  rw [hPlain] at hCommand
  refine
    ⟨serviceCall host req s svc,
      hReach.calls_eq hRequest hTarget host serve, rfl, ?_, ?_,
      ?_⟩
  · simp only [serviceCall, hPlain, hCommand]
    exact hParsed.1
  · simp only [serviceCall, hPlain, hCommand]
    exact Message.input_of_carries hCarries
  · intro hHandled
    have hAnswer :
        (dispatched host serve mgr req s).handled = true := by
      rw [(dispatched_service hRequest hTarget).2.1]
      exact hHandled
    have hToken := hReach.token_of_handled hRequest hAnswer
    rw [hPlain, hCommand, hParsed.2.1] at hToken
    exact hToken

/- A request that has no room for a header calls nobody. -/
theorem calls_of_no_room
    (hRoom : req.respSize < 8) :
    (handleRequest host serve mgr req).calls = [] := by
  rcases reaches_cases mgr req with
    ⟨s, hReach⟩ | ⟨s, hFind, hSize, hClose⟩ | ⟨hNot, hOpen⟩
  · have hEnough := hReach.room
    omega
  · exact
      (handleRequest_of_close hFind hSize hClose).2.2.2.1
  · exact
      (handleRequest_of_not_reaches hNot hOpen).2.2.2.1

/- Messages that start with the same headers. -/
def SameHead (m m' : Message) : Prop :=
  m.data.word 0 = m'.data.word 0 ∧
    m.data.word 4 = m'.data.word 4 ∧
    m.data.word 8 = m'.data.word 8

/-
  A message with the headers of another, command 0, token 1
  and zeros everywhere else.
-/
def bareMessage (m : Message) : Message :=
  let head : Bytes :=
    Bytes.store (fun _ => 0) 0
      (Bytes.ofWords
        [m.data.word 0, m.data.word 4, m.data.word 8])
  { data :=
      head.store (calcCmifAlign m.wireOffset)
        (Bytes.ofWords [CMIF_IN_MAGIC, 0, 0, 1])
    size :=
      m.offsetWith 16 + m.header.numDataWords.toNat * 4 + 1 }

/- Commands come behind the first three words. -/
theorem twelve_lt_align
    {off : Nat}
    (hOff : 8 ≤ off) :
    12 < calcCmifAlign off := by
  unfold calcCmifAlign
  omega

theorem eight_le_wireOffset (m : Message) :
    8 ≤ m.wireOffset := by
  unfold Message.wireOffset Message.offsetWith
  omega

theorem bareMessage_sameHead (m : Message) :
    SameHead (bareMessage m) m := by
  have hAlign := twelve_lt_align (eight_le_wireOffset m)
  have hWord :
      ∀ k < 3,
        (bareMessage m).data.word (0 + 4 * k) =
          [m.data.word 0, m.data.word 4,
            m.data.word 8].getD k 0 := by
    intro k hK
    unfold bareMessage
    rw [Bytes.word_store_apart (Or.inl (by omega))]
    exact Bytes.word_store_words (by simpa using hK)
  exact
    ⟨hWord 0 (by decide), hWord 1 (by decide),
      hWord 2 (by decide)⟩

/- The same headers give the same offsets. -/
theorem SameHead.header
    {m m' : Message}
    (hSame : SameHead m m') :
    m.header = m'.header ∧
      m.specialHeader = m'.specialHeader := by
  rcases hSame with ⟨h₀, h₁, h₂⟩
  unfold Message.header Message.specialHeader
  rw [h₀, h₁, h₂]
  exact ⟨rfl, rfl⟩

theorem SameHead.offsetWith
    {m m' : Message}
    (hSame : SameHead m m')
    (descriptorBytes : Nat) :
    m.offsetWith descriptorBytes =
      m'.offsetWith descriptorBytes := by
  rcases hSame.header with ⟨hHeader, hSpecial⟩
  unfold Message.offsetWith Message.specialExtent
  rw [hHeader, hSpecial]

/- Behind its command the bare message is empty. -/
theorem bareMessage_word
    {m : Message}
    {pos : Nat}
    (hPos : calcCmifAlign m.wireOffset + 16 ≤ pos) :
    (bareMessage m).data.word pos = 0 := by
  have hAlign := twelve_lt_align (eight_le_wireOffset m)
  unfold bareMessage
  rw [Bytes.word_store_apart, Bytes.word_store_apart]
  · exact Bytes.word_zero pos
  · right
    rw [Bytes.length_ofWords]
    simp only [List.length_cons, List.length_nil]
    omega
  · right
    rw [Bytes.length_ofWords]
    simp only [List.length_cons, List.length_nil]
    omega

/- The bare message is one a client may send. -/
theorem bareMessage_wellFormed
    {m : Message}
    {cmdId token : U32}
    {payload : List U8}
    (hForm : m.WellFormed cmdId token payload) :
    ∃ zeros : List U8,
      zeros.length = payload.length ∧
        (bareMessage m).WellFormed 0 1 zeros := by
  have hSame := bareMessage_sameHead m
  have hHeader := hSame.header.1
  have hWire : (bareMessage m).wireOffset = m.wireOffset :=
    hSame.offsetWith 12
  have hEnds := hForm.carries.hEnds
  have hWord :
      ∀ k < 4,
        (bareMessage m).data.word
            (calcCmifAlign m.wireOffset + 4 * k) =
          [CMIF_IN_MAGIC, 0, 0, 1].getD k 0 :=
    fun k hK => Bytes.word_store_words hK
  let zeros :=
    (bareMessage m).data.slice
      (calcCmifAlign m.wireOffset + 16) payload.length
  have hLength : zeros.length = payload.length :=
    Bytes.length_slice _ _ _
  refine ⟨zeros, hLength, ?_, ?_, ?_⟩
  · rw [hHeader]
    exact hForm.type
  · rw [hHeader]
    exact hForm.noRecvList
  · rw [hWire]
    constructor
    · exact hWord 0 (by decide)
    · exact hWord 2 (by decide)
    · exact hWord 3 (by decide)
    · rw [hLength, Nat.add_zero]
    · rw [hLength, hHeader]
      exact hEnds
    · rw [hHeader]
      show m.wireOffset + _ ≤ m.offsetWith 16 + _ + 1
      unfold Message.wireOffset Message.offsetWith
      omega

/- The parser is one word too far for each descriptor. -/
theorem wireOffset_add_numBuffers (m : Message) :
    m.wireOffset + 4 * m.header.numBuffers =
      m.offsetWith 16 := by
  unfold Message.wireOffset Message.offsetWith
  omega

/- The bare message is long enough for the parser. -/
theorem bareMessage_offset (m : Message) :
    (bareMessage m).calcDataWordsOffset.value =
      m.offsetWith 16 := by
  have hCode :
      (bareMessage m).offsetWith 16 = m.offsetWith 16 :=
    (bareMessage_sameHead m).offsetWith 16
  rw [← hCode]
  apply Message.calcDataWordsOffset_value
  rw [hCode]
  show m.offsetWith 16 < m.offsetWith 16 + _ + 1
  omega

/-
  If the two offsets have one aligned place, the command is
  found there, but its end is not.
-/
theorem bareMessage_longer
    {m : Message}
    {cmdId token : U32}
    {payload : List U8}
    (hForm : m.WellFormed cmdId token payload)
    (hAligned :
      calcCmifAlign (m.offsetWith 16) =
        calcCmifAlign m.wireOffset) :
    (bareMessage m).Carries (m.offsetWith 16) 0 0 1
      ((bareMessage m).data.slice
        (calcCmifAlign m.wireOffset + 16)
        (payload.length + 4 * m.header.numBuffers)) := by
  have hSame := bareMessage_sameHead m
  have hHeader := hSame.header.1
  have hWire : (bareMessage m).wireOffset = m.wireOffset :=
    hSame.offsetWith 12
  have hFar := wireOffset_add_numBuffers m
  have hEnds := hForm.carries.hEnds
  rcases bareMessage_wellFormed hForm with ⟨zeros, -, hBare⟩
  have hCarries := hBare.carries
  rw [hWire] at hCarries
  constructor
  · rw [hAligned]
    exact hCarries.hMagic
  · rw [hAligned]
    exact hCarries.hCommand
  · rw [hAligned]
    exact hCarries.hToken
  · rw [hAligned, Bytes.length_slice, Nat.add_zero]
  · rw [hAligned, Bytes.length_slice, hHeader]
    omega
  · rw [hHeader]
    show _ ≤ m.offsetWith 16 + _ + 1
    omega

/- Else the parser looks where nothing was put. -/
theorem bareMessage_empty
    {m : Message}
    (hAligned :
      calcCmifAlign (m.offsetWith 16) ≠
        calcCmifAlign m.wireOffset) :
    (bareMessage m).data.word
      (calcCmifAlign (m.offsetWith 16)) = 0 := by
  have hFar := wireOffset_add_numBuffers m
  apply bareMessage_word
  unfold calcCmifAlign at hAligned ⊢
  omega

/-
  With a buffer descriptor the parser looks at least one word
  too far.  It either misses the command header, and with it
  the token, or takes the payload for longer than it is.
-/
theorem bareMessage_not_decoded
    {m : Message}
    {cmdId token : U32}
    {payload zeros : List U8}
    (hForm : m.WellFormed cmdId token payload)
    (hBuffers : 0 < m.header.numBuffers)
    (hZeros : zeros.length = payload.length)
    (hMessage : req.message = bareMessage m)
    (hFind : mgr.findSession req.session = some s)
    (hPlain : s.isDomain = false)
    (hService : s.service = some svc)
    (hRoom : 8 ≤ req.respSize) :
    ¬ Decoded (fun _ => {}) svc req.session 0 1 zeros
      (handleRequest host (fun _ => {}) mgr req) := by
  have hOff := bareMessage_offset m
  have hType : (bareMessage m).header.type = 4 := by
    rw [(bareMessage_sameHead m).header.1]
    exact hForm.type
  rintro ⟨call, hCalls, -, -, hInput, hToken⟩
  by_cases hAligned :
      calcCmifAlign (m.offsetWith 16) =
        calcCmifAlign m.wireOffset
  · have hLonger := bareMessage_longer hForm hAligned
    rw [← hMessage] at hLonger hType hOff
    rcases @decoded_of_carries host (fun _ => {}) mgr req s svc
        _ _ _ _ hFind hPlain hService hRoom hType hOff
        hLonger with
      ⟨call', hCalls', -, -, hInput', -⟩
    rw [hCalls] at hCalls'
    have hCall : call = call' := by simpa using hCalls'
    rw [← hCall, hInput] at hInput'
    have hCount := congrArg List.length hInput'
    rw [Bytes.length_slice] at hCount
    omega
  · have hEmpty := bareMessage_empty hAligned
    rw [← hMessage] at hEmpty hType hOff
    have hFirst :
        req.message.data.word
            (calcCmifAlign (m.offsetWith 16)) ≠
          CMIF_OUT_MAGIC := by
      rw [hEmpty]
      decide
    rcases parsed_of_type s.isDomain hType hOff hFirst with
      ⟨hOpen, hRequest, hCommand⟩
    have hReach : Reaches mgr req s := by
      refine ⟨hFind, ?_, hOpen, hRoom, by simp [hService]⟩
      have hWire := eight_le_wireOffset m
      have hFar := wireOffset_add_numBuffers m
      rw [hMessage]
      show 8 ≤ m.offsetWith 16 + _ + 1
      omega
    have hTarget : target mgr req s = some svc :=
      (target_of_plain hFind hPlain).trans hService
    have hAnswer :
        (dispatched host (fun _ => {}) mgr req s).handled =
          true := by
      rw [(dispatched_service hRequest hTarget).2.1]
    have hFound := hReach.token_of_handled hRequest hAnswer
    have hNone :
        (req.parsed s.isDomain).command.cmifToken = 0 := by
      rw [hCommand, hPlain]
      apply Message.cmifToken_of_no_magic
      rw [if_neg Bool.false_ne_true, Nat.add_zero, hEmpty]
      decide
    rw [hNone] at hFound
    have hClash := (hToken rfl).2.symm.trans hFound.2
    revert hClash
    decide

/-
  Given one well-formed message on a plain session, all
  messages with its headers are delivered exactly when they
  have no buffer descriptors and the response has room for a
  header.
-/
theorem decoded_iff
    {sid : U32}
    {m : Message}
    {cmdId token : U32}
    {payload : List U8}
    (host : Host)
    (hFind : mgr.findSession sid = some s)
    (hPlain : s.isDomain = false)
    (hService : s.service = some svc)
    (hForm : m.WellFormed cmdId token payload)
    (response : Bytes)
    (respSize : Nat) :
    (∀ serve m' cmdId' token' payload',
      SameHead m' m →
      m'.WellFormed cmdId' token' payload' →
        Decoded serve svc sid cmdId' token' payload'
          (handleRequest host serve mgr
            { session := sid
              message := m'
              response := response
              respSize := respSize })) ↔
      m.header.numBuffers = 0 ∧ 8 ≤ respSize := by
  constructor
  · intro hAll
    have hRoom : 8 ≤ respSize := by
      by_contra hNo
      rcases hAll (fun _ => {}) m cmdId token payload
          ⟨rfl, rfl, rfl⟩ hForm with
        ⟨call, hCalls, -⟩
      rw [calls_of_no_room (by simpa using hNo)] at hCalls
      cases hCalls
    refine ⟨?_, hRoom⟩
    by_contra hSome
    rcases bareMessage_wellFormed hForm with
      ⟨zeros, hLength, hBare⟩
    have hDecoded :=
      hAll (fun _ => {}) (bareMessage m) 0 1 zeros
        (bareMessage_sameHead m) hBare
    exact
      bareMessage_not_decoded hForm (by omega) hLength rfl
        hFind hPlain hService hRoom hDecoded
  · rintro ⟨hNone, hRoom⟩ serve m' cmdId' token' payload'
      hSame hForm'
    have hBuffers : m'.header.numBuffers = 0 := by
      rw [hSame.header.1]
      exact hNone
    have hEnds := hForm'.carries.hEnds
    have hInside := hForm'.carries.hInside
    have hAlign := Message.le_calcCmifAlign m'.wireOffset
    have hBoth : m'.wireOffset = m'.offsetWith 16 := by
      unfold Message.wireOffset Message.offsetWith
      rw [hBuffers]
    have hOff :
        m'.calcDataWordsOffset.value = m'.wireOffset := by
      rw [hBoth]
      apply Message.calcDataWordsOffset_value
      omega
    exact
      decoded_of_carries hFind hPlain hService hRoom
        hForm'.type hOff hForm'.carries

theorem sampleMessage_wellFormed :
    sampleRequest.message.WellFormed 42 5 [] where
  type := by decide
  noRecvList := by decide
  carries := by
    constructor <;> decide

theorem sampleRequest_decoded :
    Decoded (serveWord 5) 7 0x1000 42 5 []
      (handleRequest sampleHost (serveWord 5) sampleManager
        sampleRequest) :=
  (decoded_iff sampleHost rfl rfl rfl sampleMessage_wellFormed
    (fun _ => 0) 256).2 ⟨by decide, by decide⟩ _ _ _ _
      _ ⟨rfl, rfl, rfl⟩ sampleMessage_wellFormed

/- Command 42 with one buffer to send and no payload. -/
def bufferMessage : Message :=
  sampleMessage
    [0x00100004, 7, 16, 0x8000, 0, 0, 0, 0, CMIF_IN_MAGIC, 0,
      42, 5] 256

theorem bufferMessage_not_decoded :
    bufferMessage.WellFormed 42 5 [] ∧
      ¬ Decoded (fun _ => {}) 7 0x1000 42 5 []
        (handleRequest sampleHost (fun _ => {}) sampleManager
          { session := 0x1000
            message := bufferMessage
            response := fun _ => 0
            respSize := 256 }) := by
  refine ⟨?_, ?_⟩
  · refine ⟨by decide, by decide, ?_⟩
    constructor <;> decide
  · rintro ⟨call, hCalls, -, -, hInput, -⟩
    have hLength :
        (handleRequest sampleHost (fun _ => {}) sampleManager
          { session := 0x1000
            message := bufferMessage
            response := fun _ => 0
            respSize := 256 }).calls.map
              (fun c => c.rawIn.length) = [4] := by
      decide
    rw [hCalls, List.map_singleton, hInput] at hLength
    revert hLength
    decide

end IpcManager

------
-- Domain Requests
------

namespace Message

/- A command for an object of a domain. -/
structure CarriesTo
    (m : Message)
    (off : Nat)
    (objectId cmdId token : U32)
    (payload : List U8) : Prop where
  hSend : m.data (calcCmifAlign off) = 1
  hObject : m.data.word (calcCmifAlign off + 4) = objectId
  hCommand : m.Carries off 16 cmdId token payload

/- A domain header is not taken for an old response. -/
theorem CarriesTo.first
    {m : Message}
    {off : Nat}
    {objectId cmdId token : U32}
    {payload : List U8}
    (hCarries :
      m.CarriesTo off objectId cmdId token payload) :
    m.data.word (calcCmifAlign off) ≠ CMIF_OUT_MAGIC := by
  intro hMagic
  have hByte := m.data.byte_word (calcCmifAlign off)
  rw [hMagic, hCarries.hSend] at hByte
  revert hByte
  decide

end Message

namespace IpcManager

variable {host : Host} {serve : ServiceCall → ServiceReply}
variable {mgr : IpcManager} {req : Request} {s : Session}

/-
  Two requests each call a service once, and the same service
  with the same command and the same input.
-/
def SameDelivery (o o' : Outcome) : Prop :=
  ∃ call call' : ServiceCall,
    o.calls = [call] ∧ o'.calls = [call'] ∧
      call.service = call'.service ∧
      call.cmdId = call'.cmdId ∧ call.rawIn = call'.rawIn

/- The input of a call on a plain session. -/
theorem plain_call_input
    {off : Nat}
    {cmdId token : U32}
    {payload : List U8}
    {call : ServiceCall}
    (hFind : mgr.findSession req.session = some s)
    (hPlain : s.isDomain = false)
    (hType : req.message.header.type = 4)
    (hOff : req.message.calcDataWordsOffset.value = off)
    (hCarries :
      req.message.Carries off 0 cmdId token payload)
    (hCall :
      call ∈ (handleRequest host serve mgr req).calls) :
    call.rawIn = payload := by
  rcases parsed_of_type s.isDomain hType hOff hCarries.first
    with ⟨-, -, hCommand⟩
  rcases call_input hCall with ⟨s', hFind', -, hInput⟩
  have hSame : s' = s :=
    Option.some.inj (hFind'.symm.trans hFind)
  rw [hInput, hSame, hCommand, hPlain]
  exact Message.input_of_carries hCarries

/- On a domain it starts with the command header. -/
theorem domain_call_input
    {off : Nat}
    {objectId cmdId token : U32}
    {payload : List U8}
    {call : ServiceCall}
    (hFind : mgr.findSession req.session = some s)
    (hDomain : s.isDomain = true)
    (hType : req.message.header.type = 4)
    (hOff : req.message.calcDataWordsOffset.value = off)
    (hCarries :
      req.message.CarriesTo off objectId cmdId token payload)
    (hCall :
      call ∈ (handleRequest host serve mgr req).calls) :
    call.cmdId = cmdId ∧
      call.rawIn =
        req.message.data.slice (calcCmifAlign off + 16)
          (16 + payload.length) := by
  rcases parsed_of_type s.isDomain hType hOff hCarries.first
    with ⟨-, -, hCommand⟩
  rcases call_input hCall with ⟨s', hFind', hId, hInput⟩
  have hSame : s' = s :=
    Option.some.inj (hFind'.symm.trans hFind)
  rcases @Message.parseCommand_value req.message off true cmdId
      token payload hCarries.hCommand with
    ⟨hCmd, -, hSize, hStart⟩
  rw [hSame, hCommand, hDomain] at hId hInput
  refine ⟨hId.trans hCmd, ?_⟩
  rw [hInput]
  simp only [if_true] at hSize
  unfold Message.input
  rw [hStart (by rw [hSize]; omega), hSize]

/-
  A domain never delivers what a plain session delivers: its
  input has the 16 bytes of the command header in front.
-/
theorem not_sameDelivery
    {host' : Host}
    {serve' : ServiceCall → ServiceReply}
    {mgr' : IpcManager}
    {req' : Request}
    {s' : Session}
    {off off' : Nat}
    {objectId cmdId token token' : U32}
    {payload : List U8}
    (hFind : mgr.findSession req.session = some s)
    (hPlain : s.isDomain = false)
    (hType : req.message.header.type = 4)
    (hOff : req.message.calcDataWordsOffset.value = off)
    (hCarries :
      req.message.Carries off 0 cmdId token payload)
    (hFind' : mgr'.findSession req'.session = some s')
    (hDomain : s'.isDomain = true)
    (hType' : req'.message.header.type = 4)
    (hOff' : req'.message.calcDataWordsOffset.value = off')
    (hCarries' :
      req'.message.CarriesTo off' objectId cmdId token'
        payload) :
    ¬ SameDelivery
      (handleRequest host serve mgr req)
      (handleRequest host' serve' mgr' req') := by
  rintro ⟨call, call', hCalls, hCalls', -, -, hInput⟩
  have hLeft : call.rawIn = payload :=
    plain_call_input hFind hPlain hType hOff hCarries
      (hCalls ▸ List.mem_singleton_self call)
  have hRight :
      call'.rawIn =
        req'.message.data.slice (calcCmifAlign off' + 16)
          (16 + payload.length) :=
    (domain_call_input hFind' hDomain hType' hOff' hCarries'
      (hCalls' ▸ List.mem_singleton_self call')).2
  have hLength := congrArg List.length hInput
  rw [hLeft, hRight, Bytes.length_slice] at hLength
  omega

/- Command 3 with one word, for object 2 of a domain. -/
def payloadRequest (isDomain : Bool) : Request :=
  { session := 0x1000
    message :=
      sampleMessage
        (if isDomain then
          [4, 11, 0, 0, 1, 2, 0, 0, CMIF_IN_MAGIC, 0, 3, 6, 9]
        else [4, 7, 0, 0, CMIF_IN_MAGIC, 0, 3, 6, 9]) 256
    response := fun _ => 0
    respSize := 256 }

theorem payloadRequests_differ :
    ¬ SameDelivery
      (handleRequest sampleHost (serveWord 5) sampleManager
        (payloadRequest false))
      (handleRequest sampleHost (serveWord 5) domainManager
        (payloadRequest true)) := by
  have hFind :
      sampleManager.findSession 0x1000 = some sampleSession :=
    rfl
  have hFind' :
      domainManager.findSession 0x1000 = some domainSession :=
    rfl
  have hCarries :
      (payloadRequest false).message.Carries 8 0 3 6
        [9, 0, 0, 0] := by
    constructor <;> decide
  have hCarries' :
      (payloadRequest true).message.CarriesTo 8 2 3 6
        [9, 0, 0, 0] := by
    refine ⟨by decide, by decide, ?_⟩
    constructor <;> decide
  exact
    not_sameDelivery hFind rfl (by decide)
      (by decide) hCarries hFind' rfl
      (by decide) (by decide) hCarries'

/- Without a payload the domain still gets 16 bytes. -/
theorem emptyPayload_not_same :
    ¬ SameDelivery
      (handleRequest sampleHost (serveWord 5) sampleManager
        sampleRequest)
      (handleRequest sampleHost (serveWord 5) domainManager
        domainRequest) := by
  have hPlain :
      (handleRequest sampleHost (serveWord 5) sampleManager
        sampleRequest).calls.map (fun c => c.rawIn.length) =
        [0] := by
    decide
  have hDomain :
      (handleRequest sampleHost (serveWord 5) domainManager
        domainRequest).calls.map (fun c => c.rawIn.length) =
        [16] := by
    decide
  rintro ⟨call, call', hCalls, hCalls', -, -, hInput⟩
  rw [hCalls, List.map_singleton, hInput] at hPlain
  rw [hCalls', List.map_singleton, hPlain] at hDomain
  cases hDomain

end IpcManager

end M1Switch
