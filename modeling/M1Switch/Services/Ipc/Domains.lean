import M1Switch.Library.EventRun
import M1Switch.Services.Ipc.DataWords

/-
  Object ids of a domain, over all requests on one session.

  A client keeps the ids it was given together with the
  objects they stand for.  The id of the session's own object
  is fixed, and the ids of other objects are counted from the
  same number.

  Key definitions include:
    * `Exchange`
    * `Client`

  Main results:
    * `Client.Valid.step`
    * `Client.ids_of_orderly`
-/

------
-- A Client of One Session
------

namespace M1Switch

/- A request, and what the service called does in it. -/
structure Exchange where
  message : Message
  response : Bytes
  respSize : Nat
  host : Host
  serve : ServiceCall → ServiceReply

namespace Exchange

def request (e : Exchange) (sid : U32) : Request :=
  { session := sid
    message := e.message
    response := e.response
    respSize := e.respSize }

def outcome
    (e : Exchange)
    (sid : U32)
    (mgr : IpcManager) : Outcome :=
  IpcManager.handleRequest e.host e.serve mgr (e.request sid)

/- The request asks for the session to become a domain. -/
def Converts (e : Exchange) (sid : U32) (s : Session) : Prop :=
  let p := (e.request sid).parsed s.isDomain
  p.isControl = true ∧ p.command.cmdId = 0

instance (e : Exchange) (sid : U32) (s : Session) :
    Decidable (e.Converts sid s) :=
  inferInstanceAs (Decidable (_ ∧ _))

/- There is room for an id behind the command header of the
answer. -/
def HasRoom (e : Exchange) (sid : U32) (s : Session) : Prop :=
  calcCmifAlign
      (IpcManager.reservation e.host (e.request sid)
        s).rawOff + 16 + 4 ≤ e.respSize

instance (e : Exchange) (sid : U32) (s : Session) :
    Decidable (e.HasRoom sid s) :=
  inferInstanceAs (Decidable (_ ≤ _))

/- The id of the session's own object, when it is handed
out. -/
def converted
    (e : Exchange)
    (sid : U32)
    (mgr : IpcManager) : List (U32 × ServiceRef) :=
  match mgr.findSession sid with
  | some s =>
      if 8 ≤ e.message.size ∧ ¬ (e.request sid).IsClose ∧
          8 ≤ e.respSize ∧ e.Converts sid s ∧
          e.HasRoom sid s then
        s.service.toList.map fun svc => (1, svc)
      else []
  | none => []

/- Ids of new objects, with what is kept under them. -/
def created
    (e : Exchange)
    (sid : U32)
    (mgr : IpcManager) : List (U32 × ServiceRef) :=
  let o := e.outcome sid mgr
  o.objects.filterMap fun k =>
    ((o.manager.findSession sid).bind
      fun s => s.domainObjects k).map fun svc => (k, svc)

/- The object a request on a domain names. -/
def named
    (e : Exchange)
    (sid : U32)
    (mgr : IpcManager) : Option U32 :=
  match mgr.findSession sid with
  | some s =>
      let p := (e.request sid).parsed s.isDomain
      if 8 ≤ e.message.size ∧ ¬ (e.request sid).IsClose ∧
          p.isControl = false ∧ s.isDomain = true ∧
          0 < p.hdr.numDataWords.toNat then
        some p.domainObjectId
      else none
  | none => none

/- The session is closed, by the client or by the service. -/
def closes
    (e : Exchange)
    (sid : U32)
    (mgr : IpcManager) : Bool :=
  (8 ≤ e.message.size ∧ (e.request sid).IsClose) ∨
    (e.outcome sid mgr).calls.any fun call =>
      .closeSession sid ∈ (e.serve call).calls

end Exchange

/- The manager, and the ids a client of the session has. -/
structure Client where
  manager : IpcManager
  handed : List (U32 × ServiceRef) := []
  live : Bool := true

namespace Client

def step (sid : U32) (c : Client) (e : Exchange) : Client :=
  { manager := (e.outcome sid c.manager).manager
    handed :=
      if c.live then
        c.handed ++ e.converted sid c.manager ++
          e.created sid c.manager
      else c.handed
    live := c.live && !e.closes sid c.manager }

/-
  A request for an id the client has goes to its object; a
  request for any other id goes nowhere.
-/
def Routed (sid : U32) (c : Client) (e : Exchange) : Prop :=
  c.live = true →
    ∀ k, e.named sid c.manager = some k →
      (∀ svc, (k, svc) ∈ c.handed →
        (e.outcome sid c.manager).calls.map (·.service) =
          [svc]) ∧
      ((∀ svc, (k, svc) ∉ c.handed) →
        (e.outcome sid c.manager).calls = [])

/-
  The session is converted once, with room for the id.  From
  then on requests name the session's own object, with room
  for a response, and no reply that is handled is the id of a
  live session.
-/
def Orderly (sid : U32) (c : Client) (e : Exchange) : Prop :=
  c.live = true →
    ∀ s, c.manager.findSession sid = some s →
      (e.Converts sid s →
        s.isDomain = false ∧ e.HasRoom sid s) ∧
      (∀ k, e.named sid c.manager = some k →
        k = 1 ∧ 8 ≤ e.respSize) ∧
      ((IpcManager.dispatched e.host e.serve c.manager
          (e.request sid) s).handled = true →
        IpcManager.replyFate e.host e.serve c.manager
          (e.request sid) s ≠ .object)

end Client

------
-- Sessions under Service Calls
------

namespace IpcManager

variable {mgr : IpcManager} {sid : U32} {s : Session}

theorem find_eraseP
    {sid' : U32}
    (hOther : sid' ≠ sid)
    (sessions : List Session) :
    (sessions.eraseP fun s => decide (s.id = sid')).find?
        (fun s => decide (s.id = sid)) =
      sessions.find? fun s => decide (s.id = sid) := by
  induction sessions with
  | nil => rfl
  | cons s rest ih =>
      by_cases hHere : s.id = sid'
      · simp [hHere, hOther]
      · simp only [List.eraseP_cons, hHere, decide_false,
          cond_false, List.find?_cons, ih]

/- Closing another session leaves this one. -/
theorem findSession_closeSession
    {sid' : U32}
    (hOther : sid' ≠ sid) :
    (mgr.closeSession sid').findSession sid =
      mgr.findSession sid := by
  unfold closeSession
  split
  · exact find_eraseP hOther mgr.sessions
  · rfl

/- A new session is behind the others. -/
theorem find_append_session
    (hFind : mgr.findSession sid = some s)
    (s' : Session) :
    (mgr.sessions ++ [s']).find?
        (fun s => decide (s.id = sid)) = some s := by
  unfold findSession at hFind
  rw [List.find?_append, hFind]
  rfl

/- A service can take away a session only by closing it. -/
theorem findSession_perform
    {call : Call}
    (hFind : mgr.findSession sid = some s)
    (hCall : call ≠ .closeSession sid) :
    (mgr.perform call).findSession sid = some s := by
  cases call with
  | registerService name svc => exact hFind
  | connect name => exact find_append_session hFind _
  | createSession svc => exact find_append_session hFind _
  | openSessionFor name =>
      show (mgr.openSessionFor name).2.findSession sid = some s
      unfold openSessionFor
      split
      · exact find_append_session hFind _
      · exact hFind
  | closeSession sid' =>
      have hOther : sid' ≠ sid := by
        intro hEq
        rw [hEq] at hCall
        exact hCall rfl
      exact (findSession_closeSession hOther).trans hFind

theorem findSession_performAll
    {calls : List Call}
    (hFind : mgr.findSession sid = some s)
    (hCalls : .closeSession sid ∉ calls) :
    (calls.foldl perform mgr).findSession sid = some s := by
  induction calls generalizing mgr with
  | nil => exact hFind
  | cons call rest ih =>
      rw [List.mem_cons, not_or] at hCalls
      exact
        ih (findSession_perform hFind fun hEq =>
          hCalls.1 hEq.symm) hCalls.2

end IpcManager

------
-- One Exchange
------

namespace Exchange

variable {e : Exchange} {sid : U32} {mgr : IpcManager}
variable {s : Session}

theorem converted_eq_nil
    (hNot :
      ∀ s, mgr.findSession sid = some s →
        ¬ (IpcManager.Reaches mgr (e.request sid) s ∧
          e.Converts sid s)) :
    e.converted sid mgr = [] := by
  unfold converted
  cases hFind : mgr.findSession sid with
  | none => rfl
  | some s =>
      cases hService : s.service with
      | none => simp [hService]
      | some svc =>
          refine if_neg ?_
          rintro ⟨hSize, hOpen, hRoom, hConverts, -⟩
          have hReach :
              IpcManager.Reaches mgr (e.request sid) s :=
            ⟨hFind, hSize, hOpen, hRoom, by simp [hService]⟩
          exact hNot s hFind ⟨hReach, hConverts⟩

theorem created_eq_nil
    (hNone : (e.outcome sid mgr).objects = []) :
    e.created sid mgr = [] := by
  unfold created
  simp [hNone]

/- No object is made of a reply that is not a session. -/
theorem objects_eq_nil
    (hReach : IpcManager.Reaches mgr (e.request sid) s)
    (hFate :
      (IpcManager.dispatched e.host e.serve mgr
          (e.request sid) s).handled = true →
        IpcManager.replyFate e.host e.serve mgr
          (e.request sid) s ≠ .object) :
    (e.outcome sid mgr).objects = [] := by
  rcases hReach.effects e.host e.serve with ⟨-, -, hObjects⟩
  refine hObjects.trans ?_
  cases hHandled :
      (IpcManager.dispatched e.host e.serve mgr
        (e.request sid) s).handled with
  | false =>
      have hSame :
          IpcManager.answered e.host e.serve mgr
              (e.request sid) s =
            IpcManager.dispatched e.host e.serve mgr
              (e.request sid) s :=
        Answer.extract_unhandled hHandled
      rw [hSame]
      exact IpcManager.dispatched_objects
  | true =>
      rw [(IpcManager.answered_spec hHandled).2.2.2.1]
      exact if_neg (hFate hHandled)

/- And the manager is as the dispatch left it. -/
theorem manager_eq_dispatched
    (hReach : IpcManager.Reaches mgr (e.request sid) s)
    (hFate :
      (IpcManager.dispatched e.host e.serve mgr
          (e.request sid) s).handled = true →
        IpcManager.replyFate e.host e.serve mgr
          (e.request sid) s ≠ .object) :
    (e.outcome sid mgr).manager =
      (IpcManager.dispatched e.host e.serve mgr
        (e.request sid) s).manager := by
  rcases hReach.effects e.host e.serve with ⟨hManager, -, -⟩
  exact hManager.trans (IpcManager.answered_manager hFate)

/- The answer to a conversion. -/
theorem dispatched_of_converts
    (hConverts : e.Converts sid s)
    (hRoom : e.HasRoom sid s) :
    IpcManager.dispatched e.host e.serve mgr (e.request sid)
        s =
      { handled := true
        rawOutMax := 4
        response :=
          (IpcManager.initialResponse (e.request sid) s).put
            (IpcManager.reservation e.host (e.request sid)
              s).rawOff (Bytes.ofWord 1)
        manager :=
          mgr.updateSession (e.request sid).session fun s =>
            { s with isDomain := true } } := by
  have hFour :
      4 ≤ (e.request sid).respSize -
        (IpcManager.reservation e.host (e.request sid)
          s).rawOff := by
    have hAlign :=
      Message.le_calcCmifAlign
        (IpcManager.reservation e.host (e.request sid)
          s).rawOff
    have hEnd :
        calcCmifAlign
            (IpcManager.reservation e.host (e.request sid)
              s).rawOff + 16 + 4 ≤ (e.request sid).respSize :=
      hRoom
    omega
  unfold IpcManager.dispatched IpcManager.dispatch
    Answer.ofControl
  rw [if_pos hConverts.1, if_pos hConverts.2, if_pos hFour,
    if_pos hFour]

/- The id of a conversion is all the client finds in the
response. -/
theorem conversion_received
    (hReach : IpcManager.Reaches mgr (e.request sid) s)
    (hConverts : e.Converts sid s)
    (hRoom : e.HasRoom sid s)
    (hDirect :
      ¬ IpcManager.Redirected e.host (e.request sid) s) :
    let o := e.outcome sid mgr
    IpcManager.Recovered (e.request sid) o false
        ((e.request sid).parsed s.isDomain).command.cmifToken
        (Bytes.ofWord 1) ∧
      o.respSize =
        IpcManager.commandPlace
          (IpcManager.responseMessage (e.request sid) o)
          false + 16 + 4 := by
  intro o
  have hDispatched :=
    @dispatched_of_converts e sid mgr s hConverts hRoom
  have hHandled :
      (IpcManager.dispatched e.host e.serve mgr
        (e.request sid) s).handled = true := by
    rw [hDispatched]
  have hFate :
      IpcManager.replyFate e.host e.serve mgr (e.request sid)
        s = .kept :=
    if_pos hConverts.1
  have hPlain :
      IpcManager.replyFate e.host e.serve mgr (e.request sid)
        s ≠ .object := by
    rw [hFate]
    decide
  have hReply :
      IpcManager.replyBytes e.host e.serve mgr
        (e.request sid) s = Bytes.ofWord 1 := by
    unfold IpcManager.replyBytes
    rw [hDispatched]
    exact Bytes.slice_store_same _ _ (Bytes.ofWord 1)
  have hDomain :
      (IpcManager.layout e.host e.serve mgr (e.request sid)
        s).isDomainResp = false := by
    unfold IpcManager.layout
    simp [hConverts.1]
  have hEnd :
      (IpcManager.layout e.host e.serve mgr (e.request sid)
        s).cmifOutEnd =
        calcCmifAlign
          (IpcManager.reservation e.host (e.request sid)
            s).rawOff + 16 := by
    unfold ResponseLayout.cmifOutEnd ResponseLayout.cmifHdrOff
    rw [hDomain]
    rfl
  have hOne :
      ¬ (IpcManager.OwnReserved (e.request sid) s ∧
        IpcManager.HandleReserved e.host (e.request sid)
          s) := by
    rintro ⟨-, -, hRequest, -⟩
    rw [hConverts.1] at hRequest
    cases hRequest
  have hFits :
      IpcManager.Announceable e.host e.serve mgr
        (e.request sid) s 4 := by
    have hRaw :=
      IpcManager.rawOff_cases e.host (e.request sid) s
    refine ⟨?_, ?_, fun hOwn hHandle => ?_⟩
    · rw [hEnd]
      unfold calcCmifAlign
      omega
    · rw [hEnd]
      exact hRoom
    · exact absurd ⟨hOwn, hHandle⟩ hOne
  have hReceived :=
    (hReach.replyReceived_iff_recovered hHandled).mpr
      ⟨hPlain,
        (hReach.recovered_reply_iff hHandled hPlain).mpr
          ⟨.inr ⟨hFate, hDirect⟩, by
            rw [hDispatched]
            exact hFits⟩⟩
  have hRecovered := hReceived.recovered
  have hPlace :=
    hReach.commandPlace_eq hHandled hRecovered.dataWords
  have hExact := hReceived.exact
  rw [hReply, hDomain] at hRecovered
  rw [hDomain] at hPlace
  rw [hReply] at hExact
  refine ⟨hRecovered, ?_⟩
  show (IpcManager.handleRequest e.host e.serve mgr
      (e.request sid)).respSize = _
  rw [hExact, Bytes.length_ofWord]
  exact congrArg (· + 16 + 4) hPlace.symm

/- So is the id of a new object, counted in the header of the
domain. -/
theorem object_received
    (hReach : IpcManager.Reaches mgr (e.request sid) s)
    (hDomain : s.isDomain = true)
    (hHandled :
      (IpcManager.dispatched e.host e.serve mgr
        (e.request sid) s).handled = true)
    (hFate :
      IpcManager.replyFate e.host e.serve mgr (e.request sid)
        s = .object)
    (hRoom :
      (IpcManager.layout e.host e.serve mgr (e.request sid)
        s).cmifOutEnd + 4 ≤ e.respSize) :
    let o := e.outcome sid mgr
    let m := IpcManager.responseMessage (e.request sid) o
    o.objects.length = 1 ∧
      o.response.bytes.word (calcCmifAlign m.wireOffset) = 1 ∧
      IpcManager.Recovered (e.request sid) o true
        ((e.request sid).parsed s.isDomain).command.cmifToken
        (Bytes.ofWords o.objects) := by
  intro o m
  rcases hReach.built_object hHandled hFate with
    ⟨hOne, hCount, hBytes, hSize⟩
  rw [← (hReach.effects e.host e.serve).2.2] at hOne hBytes
  have hFour : (Bytes.ofWords o.objects).length = 4 := by
    rw [Bytes.length_ofWords]
    exact congrArg (4 * ·) hOne
  have hRaw := (hReach.response_eq hHandled).2.1
  have hStart := (hReach.ordered e.host).start
  have hOffsets :=
    (IpcManager.layout e.host e.serve mgr (e.request sid)
      s).offsets
  have hSame :
      (IpcManager.layout e.host e.serve mgr (e.request sid)
          s).rawOff =
        (IpcManager.reservation e.host (e.request sid)
          s).rawOff :=
    rfl
  have hResp :
      (IpcManager.layout e.host e.serve mgr (e.request sid)
        s).isDomainResp = true :=
    IpcManager.isDomainResp_of_object hFate
  have hFits :
      IpcManager.Announceable e.host e.serve mgr
        (e.request sid) s (Bytes.ofWords o.objects).length := by
    rw [hFour]
    rw [hResp, if_pos rfl] at hOffsets
    refine ⟨by omega, hRoom, ?_⟩
    rintro - ⟨-, -, hPlain, -⟩
    rw [hDomain] at hPlain
    cases hPlain
  have hRecovered :=
    hReach.recovered_of_built hHandled hBytes
      (hSize.trans (congrArg _ hFour.symm)) hFits
  rw [hResp] at hRecovered
  refine ⟨hOne, ?_, hRecovered⟩
  have hPlace : m.wireOffset = _ :=
    hRecovered.dataWords.trans hRaw
  have hBehind :=
    Message.le_calcCmifAlign
      (IpcManager.reservation e.host (e.request sid) s).rawOff
  rw [hPlace]
  exact
    (hReach.word_eq hHandled (hStart.trans hBehind)).trans
      hCount

/- A conversion makes the session a domain. -/
theorem manager_of_converts
    (hReach : IpcManager.Reaches mgr (e.request sid) s)
    (hConverts : e.Converts sid s) :
    (e.outcome sid mgr).manager =
      mgr.updateSession sid fun s =>
        { s with isDomain := true } := by
  have hFate :
      IpcManager.replyFate e.host e.serve mgr (e.request sid)
        s ≠ .object := by
    simp [IpcManager.replyFate, hConverts.1]
  rw [manager_eq_dispatched hReach fun _ => hFate]
  unfold IpcManager.dispatched IpcManager.dispatch
    Answer.ofControl
  rw [if_pos hConverts.1, if_pos hConverts.2]
  rfl

/- Other control requests change nothing. -/
theorem manager_of_control
    (hReach : IpcManager.Reaches mgr (e.request sid) s)
    (hControl :
      ((e.request sid).parsed s.isDomain).isControl = true)
    (hNot : ¬ e.Converts sid s) :
    (e.outcome sid mgr).manager = mgr := by
  have hFate :
      IpcManager.replyFate e.host e.serve mgr (e.request sid)
        s ≠ .object := by
    simp [IpcManager.replyFate, hControl]
  have hCommand :
      ¬ ((e.request sid).parsed s.isDomain).command.cmdId =
        0 :=
    fun hZero => hNot ⟨hControl, hZero⟩
  rw [manager_eq_dispatched hReach fun _ => hFate]
  unfold IpcManager.dispatched IpcManager.dispatch
    Answer.ofControl
  rw [if_pos hControl, if_neg hCommand]
  split <;> rfl

/- A request that does not close the session keeps it. -/
theorem findSession_of_request
    (hReach : IpcManager.Reaches mgr (e.request sid) s)
    (hRequest :
      ((e.request sid).parsed s.isDomain).isControl = false)
    (hFate :
      (IpcManager.dispatched e.host e.serve mgr
          (e.request sid) s).handled = true →
        IpcManager.replyFate e.host e.serve mgr
          (e.request sid) s ≠ .object)
    (hOpen : e.closes sid mgr = false) :
    (e.outcome sid mgr).manager.findSession sid = some s := by
  have hFind : mgr.findSession sid = some s := hReach.found
  rw [manager_eq_dispatched hReach hFate]
  cases hTarget :
      IpcManager.target mgr (e.request sid) s with
  | none =>
      unfold IpcManager.target at hTarget
      unfold IpcManager.dispatched IpcManager.dispatch
        Answer.ofService
      rw [hRequest, hTarget]
      exact hFind
  | some svc =>
      rw [(IpcManager.dispatched_service hRequest
        hTarget).2.2.2]
      apply IpcManager.findSession_performAll hFind
      intro hClose
      have hCalls :
          (e.outcome sid mgr).calls =
            [IpcManager.serviceCall e.host (e.request sid) s
              svc] :=
        hReach.calls_eq hRequest hTarget e.host e.serve
      unfold closes at hOpen
      rw [hCalls] at hOpen
      simp [hClose] at hOpen

end Exchange

namespace Client

variable {sid : U32} {c : Client} {e : Exchange}

/-
  The client of a session has no id before the conversion, and
  then one, for the session's own object.  No other object is
  kept for the session.
-/
structure Valid (sid : U32) (c : Client) : Prop where
  few : c.handed.length ≤ 1
  session :
    c.live = true →
      ∃ s, c.manager.findSession sid = some s ∧
        (∀ k, s.domainObjects k = none) ∧
        ((s.isDomain = false ∧ c.handed = []) ∨
          (s.isDomain = true ∧
            ∃ svc, s.service = some svc ∧
              c.handed = [(1, svc)]))

/- A request that does not convert hands out nothing. -/
theorem step_handed
    (hConverted : e.converted sid c.manager = [])
    (hCreated : e.created sid c.manager = []) :
    (c.step sid e).handed = c.handed := by
  unfold step
  split
  · simp [hConverted, hCreated]
  · rfl

theorem Valid.of_same
    (hValid : c.Valid sid)
    (hHanded : (c.step sid e).handed = c.handed)
    (hFind :
      (c.step sid e).live = true →
        (c.step sid e).manager.findSession sid =
          c.manager.findSession sid) :
    (c.step sid e).Valid sid := by
  refine ⟨by rw [hHanded]; exact hValid.few, ?_⟩
  intro hLive
  have hBefore : c.live = true := by
    unfold step at hLive
    simp only [Bool.and_eq_true] at hLive
    exact hLive.1
  rw [hFind hLive, hHanded]
  exact hValid.session hBefore

/- A first conversion hands out the one id. -/
theorem Valid.of_converts
    {s : Session}
    (hLive : c.live = true)
    (hReach :
      IpcManager.Reaches c.manager (e.request sid) s)
    (hConverts : e.Converts sid s)
    (hRoom : e.HasRoom sid s)
    (hEmpty : ∀ k, s.domainObjects k = none)
    (hNone : c.handed = [])
    (hCreated : e.created sid c.manager = []) :
    (c.step sid e).Valid sid := by
  have hFind : c.manager.findSession sid = some s :=
    hReach.found
  rcases Option.isSome_iff_exists.1 hReach.service with
    ⟨svc, hService⟩
  have hConverted :
      e.converted sid c.manager = [(1, svc)] := by
    unfold Exchange.converted
    rw [hFind]
    simp only [hService]
    exact
      if_pos
        ⟨hReach.message, hReach.open_, hReach.room, hConverts,
          hRoom⟩
  have hHanded : (c.step sid e).handed = [(1, svc)] := by
    simp [Client.step, hLive, hNone, hConverted, hCreated]
  have hAfter :
      (c.step sid e).manager.findSession sid =
        some { s with isDomain := true } := by
    have hId :
        ∀ s : Session,
          { s with isDomain := true }.id = s.id :=
      fun _ => rfl
    unfold Client.step
    rw [Exchange.manager_of_converts hReach hConverts,
      IpcManager.findSession_updateSession hId, if_pos rfl,
      hFind]
    rfl
  refine ⟨by rw [hHanded]; exact Nat.le_refl 1, ?_⟩
  intro _
  refine ⟨_, hAfter, hEmpty, Or.inr ⟨rfl, svc, hService, ?_⟩⟩
  exact hHanded

/- An answered request hands out an id only to convert. -/
theorem Valid.of_answered
    {s : Session}
    (hValid : c.Valid sid)
    (hLive : c.live = true)
    (hOrderly : c.Orderly sid e)
    (hReach :
      IpcManager.Reaches c.manager (e.request sid) s) :
    (c.step sid e).Valid sid := by
  have hFind : c.manager.findSession sid = some s := hReach.found
  rcases hValid.session hLive with ⟨s', hFind', hEmpty, hState⟩
  have hSame : s' = s :=
    Option.some.inj (hFind'.symm.trans hFind)
  subst hSame
  rcases hOrderly hLive s' hFind with ⟨hOnce, -, hFate⟩
  have hCreated : e.created sid c.manager = [] :=
    Exchange.created_eq_nil
      (Exchange.objects_eq_nil hReach hFate)
  by_cases hConverts : e.Converts sid s'
  · rcases hOnce hConverts with ⟨hPlain, hRoom⟩
    have hNone : c.handed = [] := by
      rcases hState with ⟨-, hNone⟩ | ⟨hDomain, -⟩
      · exact hNone
      · rw [hPlain] at hDomain
        cases hDomain
    exact
      Valid.of_converts hLive hReach hConverts hRoom hEmpty
        hNone hCreated
  · have hConverted : e.converted sid c.manager = [] := by
      apply Exchange.converted_eq_nil
      rintro s'' hFind'' ⟨-, hOther⟩
      have hIs : s'' = s' :=
        Option.some.inj (hFind''.symm.trans hFind)
      rw [hIs] at hOther
      exact hConverts hOther
    apply hValid.of_same
    · exact step_handed hConverted hCreated
    · intro hAfter
      cases hControl :
          ((e.request sid).parsed s'.isDomain).isControl with
      | true =>
          exact
            congrArg (fun m => m.findSession sid)
              (Exchange.manager_of_control hReach hControl
                hConverts)
      | false =>
          have hOpen : e.closes sid c.manager = false := by
            simpa [Client.step, hLive] using hAfter
          exact
            (Exchange.findSession_of_request hReach hControl
              hFate hOpen).trans hFind.symm

/- A close hands out nothing, and the client is done. -/
theorem Valid.of_close
    {s : Session}
    (hValid : c.Valid sid)
    (hFind :
      c.manager.findSession (e.request sid).session = some s)
    (hSize : 8 ≤ (e.request sid).message.size)
    (hClose : (e.request sid).IsClose) :
    (c.step sid e).Valid sid := by
  rcases @IpcManager.handleRequest_of_close e.host e.serve
      c.manager (e.request sid) s hFind hSize hClose with
    ⟨-, -, -, -, hObjects⟩
  apply hValid.of_same
  · apply step_handed
    · apply Exchange.converted_eq_nil
      rintro s' - ⟨hReach, -⟩
      exact hReach.open_ hClose
    · exact Exchange.created_eq_nil hObjects
  · intro hAfter
    have hCloses : e.closes sid c.manager = true := by
      have hSize' : 8 ≤ e.message.size := hSize
      simp [Exchange.closes, hSize', hClose]
    simp [Client.step, hCloses] at hAfter

/- A request that is not answered does nothing. -/
theorem Valid.of_refused
    (hValid : c.Valid sid)
    (hNot :
      ∀ s, ¬ IpcManager.Reaches c.manager (e.request sid) s)
    (hOpen :
      ∀ s,
        c.manager.findSession (e.request sid).session =
            some s →
          8 ≤ (e.request sid).message.size →
            ¬ (e.request sid).IsClose) :
    (c.step sid e).Valid sid := by
  rcases @IpcManager.handleRequest_of_not_reaches e.host e.serve
      c.manager (e.request sid) hNot hOpen with
    ⟨-, -, hManager, -, hObjects⟩
  apply hValid.of_same
  · apply step_handed
    · apply Exchange.converted_eq_nil
      rintro s - ⟨hReach, -⟩
      exact hNot s hReach
    · exact Exchange.created_eq_nil hObjects
  · intro _
    exact congrArg (fun m => m.findSession sid) hManager

/- Orderly exchanges keep the client's ids. -/
theorem Valid.step
    (hValid : c.Valid sid)
    (hOrderly : c.Orderly sid e) :
    (c.step sid e).Valid sid := by
  cases hLive : c.live with
  | false =>
      have hHanded : (c.step sid e).handed = c.handed := by
        simp [Client.step, hLive]
      refine ⟨by rw [hHanded]; exact hValid.few, ?_⟩
      intro hAfter
      simp [Client.step, hLive] at hAfter
  | true =>
      rcases IpcManager.reaches_cases c.manager
          (e.request sid) with
        ⟨s, hReach⟩ | ⟨s, hFind, hSize, hClose⟩ |
          ⟨hNot, hOpen⟩
      · exact hValid.of_answered hLive hOrderly hReach
      · exact hValid.of_close hFind hSize hClose
      · exact hValid.of_refused hNot hOpen

/- With these ids every request goes where it should. -/
theorem Valid.routed
    (hValid : c.Valid sid)
    (hOrderly : c.Orderly sid e) :
    c.Routed sid e := by
  intro hLive k hNamed
  rcases hValid.session hLive with ⟨s, hFind, hEmpty, hState⟩
  rcases hOrderly hLive s hFind with ⟨-, hOwn, -⟩
  rcases hOwn k hNamed with ⟨hOne, hRoom⟩
  unfold Exchange.named at hNamed
  rw [hFind] at hNamed
  simp only at hNamed
  split at hNamed
  next hNames =>
    rcases hNames with ⟨hSize, hOpen, hRequest, hDomain, -⟩
    have hId :
        ((e.request sid).parsed s.isDomain).domainObjectId =
          1 := by
      rw [Option.some.inj hNamed]
      exact hOne
    rcases hState with ⟨hPlain, -⟩ | ⟨-, svc, hService, hHas⟩
    · rw [hDomain] at hPlain
      cases hPlain
    · have hReach :
          IpcManager.Reaches c.manager (e.request sid) s :=
        ⟨hFind, hSize, hOpen, hRoom, by simp [hService]⟩
      have hTarget :
          IpcManager.target c.manager (e.request sid) s =
            some svc := by
        unfold IpcManager.target Answer.targetService
        rw [hId]
        simp [Exchange.request, hFind, hEmpty, hService]
      have hCalls :=
        hReach.calls_eq hRequest hTarget e.host e.serve
      refine ⟨?_, ?_⟩
      · intro svc' hMember
        rw [hHas, List.mem_singleton] at hMember
        have hSvc : svc' = svc := (Prod.mk.inj hMember).2
        unfold Exchange.outcome
        rw [hCalls, hSvc]
        rfl
      · intro hNever
        refine absurd ?_ (hNever svc)
        rw [hHas, hOne]
        exact List.mem_singleton_self _
  next => cases hNamed

------
-- All Exchanges on a Session
------

variable {mgr : IpcManager} {s : Session}
variable {events : List Exchange}

/- The client of a session that was just opened. -/
def start (mgr : IpcManager) : Client :=
  { manager := mgr }

theorem start_valid
    (hFind : mgr.findSession sid = some s)
    (hPlain : s.isDomain = false)
    (hEmpty : ∀ k, s.domainObjects k = none) :
    (start mgr).Valid sid := by
  refine ⟨Nat.zero_le 1, ?_⟩
  intro _
  exact ⟨s, hFind, hEmpty, Or.inl ⟨hPlain, rfl⟩⟩

theorem valid_run
    (hStart : (start mgr).Valid sid)
    (hOrderly :
      EventRun.Guarded (step sid) (Orderly sid) (start mgr)
        events) :
    (EventRun.stateAfter (step sid) (start mgr)
      events).Valid sid :=
  EventRun.Guarded.invariant
    (I := fun _ c => Valid sid c)
    hStart (fun _ _ hValid hStep => hValid.step hStep)
    hOrderly

/- Make the sample session a domain. -/
def convertExchange : Exchange :=
  { message :=
      IpcManager.sampleMessage
        [5, 6, 0, 0, CMIF_IN_MAGIC, 0, 0, 0] 256
    response := fun _ => 0
    respSize := 256
    host := IpcManager.sampleHost
    serve := fun _ => {} }

/- Send command 42 to object 1. -/
def commandExchange
    (serve : ServiceCall → ServiceReply) : Exchange :=
  { message := IpcManager.domainRequest.message
    response := fun _ => 0
    respSize := 256
    host := IpcManager.sampleHost
    serve := serve }

theorem convertExchange_orderly :
    (start IpcManager.sampleManager).Orderly 0x1000
      convertExchange := by
  intro _ s hFind
  have hSession : s = IpcManager.sampleSession :=
    (Option.some.inj hFind).symm
  subst hSession
  refine ⟨fun _ => ⟨rfl, by decide⟩, ?_, fun _ => ?_⟩
  · intro k hNamed
    have hNone :
        convertExchange.named 0x1000
          IpcManager.sampleManager = none := by
      decide
    cases hNone.symm.trans hNamed
  · decide

theorem convertExchange_reaches :
    IpcManager.Reaches IpcManager.sampleManager
      (convertExchange.request 0x1000)
      IpcManager.sampleSession :=
  ⟨rfl, by decide, by decide,
    by decide, rfl⟩

theorem convertExchange_converts :
    convertExchange.Converts 0x1000 IpcManager.sampleSession :=
  ⟨by decide, by decide⟩

/- The manager once the sample session is a domain. -/
theorem convertExchange_manager :
    ((start IpcManager.sampleManager).step 0x1000
      convertExchange).manager = IpcManager.domainManager :=
  Exchange.manager_of_converts convertExchange_reaches
    convertExchange_converts

theorem conversion_received_sample :
    let req := convertExchange.request 0x1000
    let o :=
      convertExchange.outcome 0x1000 IpcManager.sampleManager
    IpcManager.Recovered req o false
        (req.parsed
          IpcManager.sampleSession.isDomain).command.cmifToken
        (Bytes.ofWord 1) ∧
      o.respSize =
        IpcManager.commandPlace
          (IpcManager.responseMessage req o) false + 16 + 4 :=
  Exchange.conversion_received convertExchange_reaches
    convertExchange_converts (by decide)
    (by decide)

theorem commandExchange_orderly :
    ((start IpcManager.sampleManager).step 0x1000
      convertExchange).Orderly 0x1000
        (commandExchange (IpcManager.serveWord 5)) := by
  intro _ s hFind
  rw [convertExchange_manager] at hFind ⊢
  have hSession : s = IpcManager.domainSession :=
    (Option.some.inj hFind).symm
  subst hSession
  refine ⟨?_, ?_, fun _ => by decide⟩
  · intro hConverts
    revert hConverts
    decide
  · intro k hNamed
    have hOne :
        (commandExchange (IpcManager.serveWord 5)).named 0x1000
          IpcManager.domainManager = some 1 := by
      decide
    exact
      ⟨Option.some.inj (hNamed.symm.trans hOne),
        by decide⟩

/- A service that opens a session on service 9. -/
def serveSession (call : ServiceCall) : ServiceReply :=
  { written := (Bytes.ofWord 0x1001).take call.outMax
    outSize := 4
    calls := [.createSession (some 9)] }

/- The service's new object is received. -/
theorem object_received_session :
    let e := commandExchange serveSession
    let o := e.outcome 0x1000 IpcManager.domainManager
    let m := IpcManager.responseMessage (e.request 0x1000) o
    o.objects.length = 1 ∧
      o.response.bytes.word (calcCmifAlign m.wireOffset) = 1 ∧
      IpcManager.Recovered (e.request 0x1000) o true
        ((e.request 0x1000).parsed
          IpcManager.domainSession.isDomain).command.cmifToken
        (Bytes.ofWords o.objects) :=
  Exchange.object_received
    ⟨rfl, by decide, by decide,
      by decide, rfl⟩
    rfl (by decide) (by decide)
    (by decide)

end Client

end M1Switch
