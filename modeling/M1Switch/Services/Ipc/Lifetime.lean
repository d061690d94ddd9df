import Mathlib.Data.List.Nodup
import M1Switch.Services.Ipc.Domains

/-
  The life of services.

  A session that owns its service deletes it when it is closed.
  The registry, other sessions and domains may still have the
  service: nobody counts who does.  A service that is deleted
  takes others along, which its destructor deletes or which
  are parts of it.

  Key definitions include:
    * `IpcManager.Change`
    * `changes`

  Main results:
    * `stateAfter_changes`
    * `sound_iff`
    * `serviceLifetimes_iff`
-/

------
-- Changes of the Manager
------

namespace M1Switch

namespace IpcManager

/- A call, a session that becomes a domain, and a session's
service as an object of a domain. -/
inductive Change where
  | call (c : Call)
  | convert (sid : U32)
  | addObject (sid handle : U32)
deriving DecidableEq

def change (mgr : IpcManager) : Change → IpcManager
  | .call c => mgr.perform c
  | .convert sid =>
      mgr.updateSession sid fun s => { s with isDomain := true }
  | .addObject sid handle =>
      match mgr.getServiceBySession handle with
      | some svc => mgr.updateSession sid (Answer.addObject svc)
      | none => mgr

/- What a service does to the manager in a request. -/
def serviceChanges
    (sid : U32)
    (e : Exchange)
    (mgr : IpcManager)
    (s : Session) : List Change :=
  let req := e.request sid
  let a := dispatched e.host e.serve mgr req s
  (match target mgr req s with
    | some svc =>
        (e.serve (serviceCall e.host req s svc)).calls.map
          Change.call
    | none => []) ++
    if a.handled ∧
        replyFate e.host e.serve mgr req s = .object then
      [.addObject sid
        (a.response.bytes.word
          (reservation e.host req s).rawOff)]
    else []

/- All changes in a request, in order. -/
def requestChanges
    (sid : U32)
    (e : Exchange)
    (mgr : IpcManager) : List Change :=
  match mgr.findSession sid with
  | none => []
  | some s =>
      let req := e.request sid
      if e.message.size < 8 then []
      else if req.IsClose then [.call (.closeSession sid)]
      else if e.respSize < 8 ∨ s.service.isNone then []
      else if (req.parsed s.isDomain).isControl then
        if (req.parsed s.isDomain).command.cmdId = 0 then
          [.convert sid]
        else []
      else serviceChanges sid e mgr s

/- A call from outside a request, or a request. -/
inductive Event where
  | call (c : Call)
  | request (sid : U32) (e : Exchange)

def step (mgr : IpcManager) : Event → IpcManager
  | .call c => mgr.perform c
  | .request sid e => (e.outcome sid mgr).manager

def changes (mgr : IpcManager) : Event → List Change
  | .call c => [.call c]
  | .request sid e => requestChanges sid e mgr

/- All changes of a run. -/
def runChanges : IpcManager → List Event → List Change
  | _, [] => []
  | mgr, e :: events =>
      changes mgr e ++ runChanges (mgr.step e) events

end IpcManager

------
-- References
------

/- The session can call the service, or an object of its
domain can. -/
def Session.Has (s : Session) (svc : ServiceRef) : Prop :=
  s.service = some svc ∨ ∃ k, s.domainObjects k = some svc

namespace IpcManager

/- Somebody can call the service. -/
def Refers (mgr : IpcManager) (svc : ServiceRef) : Prop :=
  (∃ name, mgr.services name = some svc) ∨
    ∃ s ∈ mgr.sessions, s.Has svc

variable (parts : ServiceRef → List ServiceRef)

/- A service, and those that go with it. -/
def whole (svc : ServiceRef) : List ServiceRef :=
  svc :: parts svc

/- All services deleted so far, in order. -/
def gone (mgr : IpcManager) : List ServiceRef :=
  mgr.deleted.flatMap (whole parts)

/- No service was deleted twice, and nobody has a service that
was deleted. -/
structure Sound (mgr : IpcManager) : Prop where
  once : (mgr.gone parts).Nodup
  live : ∀ svc ∈ mgr.gone parts, ¬ mgr.Refers svc

/-
  A service is registered, or given to a session, while it
  exists.  A session that owns its service is closed when that
  service, and what goes with it, is nobody else's.
-/
def Admits (mgr : IpcManager) : Change → Prop
  | .call (.registerService _ svc) => svc ∉ mgr.gone parts
  | .call (.createSession (some svc)) => svc ∉ mgr.gone parts
  | .call (.closeSession sid) =>
      ∀ s svc,
        mgr.findSession sid = some s → s.ownsService = true →
          s.service = some svc →
            (whole parts svc).Nodup ∧
              ∀ d ∈ whole parts svc,
                d ∉ mgr.gone parts ∧
                  ¬ { mgr with
                      sessions :=
                        mgr.sessions.eraseP
                          fun s => s.id = sid }.Refers d
  | _ => True

------
-- Requests and Their Changes
------

variable {mgr : IpcManager} {sid : U32} {e : Exchange}
variable {s : Session}

theorem stateAfter_calls
    (mgr : IpcManager)
    (calls : List Call) :
    EventRun.stateAfter change mgr (calls.map .call) =
      calls.foldl perform mgr := by
  unfold EventRun.stateAfter
  rw [List.foldl_map]
  rfl

/- A handle that is taken out is that of a session. -/
theorem manager_of_object
    (hReach : Reaches mgr (e.request sid) s)
    (hControl :
      ((e.request sid).parsed s.isDomain).isControl = false)
    (hHandled :
      (dispatched e.host e.serve mgr (e.request sid)
        s).handled = true)
    (hFate :
      replyFate e.host e.serve mgr (e.request sid) s =
        .object) :
    (e.outcome sid mgr).manager =
      (dispatched e.host e.serve mgr (e.request sid)
        s).manager.change
        (.addObject sid
          ((dispatched e.host e.serve mgr (e.request sid)
            s).response.bytes.word
              (reservation e.host (e.request sid) s).rawOff)) := by
  rcases hReach.effects e.host e.serve with ⟨hManager, -, -⟩
  refine hManager.trans ?_
  rcases @Answer.extract_spec (e.request sid).session
      (reservation e.host (e.request sid) s).rawOff
      (reservation e.host (e.request sid) s).handlePos
      (dispatched e.host e.serve mgr (e.request sid) s)
      hHandled with
    ⟨-, -, -, -, -, -, hObject, -⟩
  unfold replyFate at hFate
  rw [hControl] at hFate
  rcases hObject hFate with ⟨svc, hService, hAdded⟩
  unfold answered
  rw [hControl, hAdded]
  simp only [change, hService]
  rfl

/- A request to a service changes what the service does, and
the domain. -/
theorem stateAfter_serviceChanges
    (hReach : Reaches mgr (e.request sid) s)
    (hControl :
      ((e.request sid).parsed s.isDomain).isControl = false) :
    EventRun.stateAfter change mgr
        (serviceChanges sid e mgr s) =
      (e.outcome sid mgr).manager := by
  have hCalls :
      EventRun.stateAfter change mgr
          (match target mgr (e.request sid) s with
            | some svc =>
                (e.serve (serviceCall e.host (e.request sid) s
                  svc)).calls.map Change.call
            | none => []) =
        (dispatched e.host e.serve mgr (e.request sid)
          s).manager := by
    cases hTarget : target mgr (e.request sid) s with
    | some svc =>
        rcases @dispatched_service e.host e.serve mgr
            (e.request sid) s svc hControl hTarget with
          ⟨-, -, -, hManager⟩
        rw [hManager]
        exact stateAfter_calls mgr _
    | none =>
        unfold target at hTarget
        unfold dispatched dispatch Answer.ofService
        rw [hControl, hTarget]
        rfl
  unfold serviceChanges
  rw [EventRun.stateAfter_append, hCalls]
  split
  · next hBoth =>
      exact
        (manager_of_object hReach hControl hBoth.1
          hBoth.2).symm
  · next hNot =>
      have hSame :
          (e.outcome sid mgr).manager =
            (dispatched e.host e.serve mgr (e.request sid)
              s).manager := by
        by_cases hFate :
            replyFate e.host e.serve mgr (e.request sid) s =
              .object
        · have hUnhandled :
              (dispatched e.host e.serve mgr (e.request sid)
                s).handled = false := by
            rw [Bool.eq_false_iff]
            exact fun hHandled => hNot ⟨hHandled, hFate⟩
          rcases hReach.effects e.host e.serve with
            ⟨hManager, -, -⟩
          exact
            hManager.trans
              (congrArg Answer.manager
                (Answer.extract_unhandled hUnhandled))
        · exact
            Exchange.manager_eq_dispatched hReach fun _ => hFate
      exact hSame.symm

/- A request that no service gets, and that closes nothing,
changes nothing. -/
theorem requestChanges_of_not_reaches
    (hNot : ∀ s, ¬ Reaches mgr (e.request sid) s)
    (hOpen :
      ∀ s, mgr.findSession sid = some s →
        8 ≤ e.message.size →
          ¬ (e.request sid).IsClose) :
    requestChanges sid e mgr = [] := by
  unfold requestChanges
  split
  · rfl
  · next s hFind =>
      dsimp only
      split
      · rfl
      · next hSize =>
          rw [if_neg (hOpen s hFind (Nat.le_of_not_lt hSize))]
          split
          · rfl
          · next hRest =>
              rw [not_or] at hRest
              refine absurd ?_ (hNot s)
              refine
                ⟨hFind, Nat.le_of_not_lt hSize,
                  hOpen s hFind (Nat.le_of_not_lt hSize),
                  Nat.le_of_not_lt hRest.1, ?_⟩
              cases hService : s.service with
              | none =>
                  rw [hService] at hRest
                  exact absurd rfl hRest.2
              | some svc => rfl

/- The changes of a request lead where the request leads. -/
theorem stateAfter_requestChanges
    (sid : U32)
    (e : Exchange)
    (mgr : IpcManager) :
    EventRun.stateAfter change mgr (requestChanges sid e mgr) =
      (e.outcome sid mgr).manager := by
  rcases reaches_cases mgr (e.request sid) with
    ⟨s, hReach⟩ | ⟨s, hFind, hSize, hClose⟩ | ⟨hNot, hOpen⟩
  · have hFind : mgr.findSession sid = some s := hReach.found
    have hSize : ¬ e.message.size < 8 :=
      Nat.not_lt.mpr hReach.message
    have hRest : ¬ (e.respSize < 8 ∨ s.service.isNone) := by
      rintro (hSmall | hNone)
      · exact Nat.not_lt.mpr hReach.room hSmall
      · have hSome := hReach.service
        rw [Option.isNone_iff_eq_none] at hNone
        rw [hNone] at hSome
        cases hSome
    unfold requestChanges
    rw [hFind]
    simp only [if_neg hSize, if_neg hReach.open_,
      if_neg hRest]
    cases hControl :
        ((e.request sid).parsed s.isDomain).isControl with
    | true =>
        simp only [if_true]
        split
        · next hZero =>
            exact
              (Exchange.manager_of_converts hReach
                ⟨hControl, hZero⟩).symm
        · next hOther =>
            exact
              (Exchange.manager_of_control hReach hControl
                fun hConverts => hOther hConverts.2).symm
    | false => exact stateAfter_serviceChanges hReach hControl
  · have hFind' : mgr.findSession sid = some s := hFind
    have hSize' : ¬ e.message.size < 8 := Nat.not_lt.mpr hSize
    rcases @handleRequest_of_close e.host e.serve mgr
        (e.request sid) s hFind hSize hClose with
      ⟨-, -, hManager, -⟩
    unfold requestChanges
    rw [hFind']
    simp only [if_neg hSize', if_pos hClose]
    exact hManager.symm
  · rcases @handleRequest_of_not_reaches e.host e.serve mgr
        (e.request sid) hNot hOpen with
      ⟨-, -, hManager, -⟩
    rw [requestChanges_of_not_reaches hNot hOpen]
    exact hManager.symm

theorem stateAfter_changes
    (mgr : IpcManager)
    (ev : Event) :
    EventRun.stateAfter change mgr (changes mgr ev) =
      mgr.step ev := by
  cases ev with
  | call c => rfl
  | request sid e => exact stateAfter_requestChanges sid e mgr

/- A run and its changes lead to the same state. -/
theorem stateAfter_runChanges
    (mgr : IpcManager)
    (events : List Event) :
    EventRun.stateAfter change mgr (runChanges mgr events) =
      EventRun.stateAfter step mgr events := by
  induction events generalizing mgr with
  | nil => rfl
  | cons ev events ih =>
      unfold runChanges
      rw [EventRun.stateAfter_append, stateAfter_changes, ih]
      rfl

------
-- When a Change Is Sound
------

variable {parts : ServiceRef → List ServiceRef}
variable {mgr mgr' : IpcManager} {svc d : ServiceRef}

/- Nothing is deleted, and nobody gets a service. -/
theorem Sound.of_refers
    (hSound : mgr.Sound parts)
    (hDeleted : mgr'.deleted = mgr.deleted)
    (hRefers : ∀ d, mgr'.Refers d → mgr.Refers d) :
    mgr'.Sound parts := by
  have hGone : mgr'.gone parts = mgr.gone parts := by
    unfold gone
    rw [hDeleted]
  constructor
  · rw [hGone]
    exact hSound.once
  · intro d hD hRefers'
    rw [hGone] at hD
    exact hSound.live d hD (hRefers d hRefers')

/- Nothing is deleted, and somebody gets a service. -/
theorem Sound.iff_of_given
    (hSound : mgr.Sound parts)
    (hDeleted : mgr'.deleted = mgr.deleted)
    (hGiven : mgr'.Refers svc)
    (hRefers :
      ∀ d, mgr'.Refers d → d = svc ∨ mgr.Refers d) :
    mgr'.Sound parts ↔ svc ∉ mgr.gone parts := by
  have hGone : mgr'.gone parts = mgr.gone parts := by
    unfold gone
    rw [hDeleted]
  constructor
  · intro hSound' hMem
    rw [← hGone] at hMem
    exact hSound'.live svc hMem hGiven
  · intro hNot
    constructor
    · rw [hGone]
      exact hSound.once
    · intro d hD hRefers'
      rw [hGone] at hD
      rcases hRefers d hRefers' with rfl | hOld
      · exact hNot hD
      · exact hSound.live d hD hOld

/- Who has a service once there is another session. -/
theorem refers_append
    {next : U32} :
    { mgr with
        nextSession := next
        sessions := mgr.sessions ++ [s] }.Refers d ↔
      mgr.Refers d ∨ s.Has d := by
  unfold Refers
  simp only [List.mem_append, List.mem_singleton]
  constructor
  · rintro (hName | ⟨s', hMem | rfl, hHas⟩)
    · exact Or.inl (Or.inl hName)
    · exact Or.inl (Or.inr ⟨s', hMem, hHas⟩)
    · exact Or.inr hHas
  · rintro ((hName | ⟨s', hMem, hHas⟩) | hHas)
    · exact Or.inl hName
    · exact Or.inr ⟨s', Or.inl hMem, hHas⟩
    · exact Or.inr ⟨s, Or.inr rfl, hHas⟩

/- A session that is found is one of the manager's. -/
theorem mem_of_findSession
    (hFind : mgr.findSession sid = some s) :
    s ∈ mgr.sessions :=
  List.mem_of_find?_eq_some hFind

theorem refers_of_getServiceBySession
    (hService : mgr.getServiceBySession sid = some svc) :
    mgr.Refers svc := by
  rcases Option.bind_eq_some_iff.mp hService with
    ⟨s, hFind, hSvc⟩
  exact Or.inr ⟨s, mem_of_findSession hFind, Or.inl hSvc⟩

/- The sessions of a list with one of them changed. -/
theorem mem_updateFirst
    {f : Session → Session}
    {sessions : List Session}
    (hMem : s ∈ updateFirst sid f sessions) :
    s ∈ sessions ∨ ∃ s' ∈ sessions, s = f s' := by
  induction sessions with
  | nil => cases hMem
  | cons first rest ih =>
      unfold updateFirst at hMem
      split at hMem
      · rcases List.mem_cons.mp hMem with rfl | hRest
        · exact Or.inr ⟨first, List.mem_cons_self, rfl⟩
        · exact Or.inl (List.mem_cons_of_mem first hRest)
      · rcases List.mem_cons.mp hMem with rfl | hRest
        · exact Or.inl List.mem_cons_self
        · rcases ih hRest with hOld | ⟨s', hOld, hEq⟩
          · exact Or.inl (List.mem_cons_of_mem first hOld)
          · exact
              Or.inr
                ⟨s', List.mem_cons_of_mem first hOld, hEq⟩

/- A session that gets what somebody has already. -/
theorem refers_of_updateSession
    {f : Session → Session}
    (hHas :
      ∀ s d, (f s).Has d → s.Has d ∨ mgr.Refers d)
    (hRefers : (mgr.updateSession sid f).Refers d) :
    mgr.Refers d := by
  rcases hRefers with hName | ⟨s, hMem, hS⟩
  · exact Or.inl hName
  · rcases mem_updateFirst hMem with hOld | ⟨s', hOld, rfl⟩
    · exact Or.inr ⟨s, hOld, hS⟩
    · rcases hHas s' d hS with hHad | hElse
      · exact Or.inr ⟨s', hOld, hHad⟩
      · exact hElse

/- A session that is opened has one service, or none. -/
theorem has_of_new
    (hDomain : s.domainObjects = fun _ => none) :
    s.Has d ↔ s.service = some d := by
  unfold Session.Has
  simp [hDomain]

theorem sound_registerService
    (hSound : mgr.Sound parts)
    (name : ServiceName) :
    (mgr.registerService name svc).Sound parts ↔
      svc ∉ mgr.gone parts := by
  apply hSound.iff_of_given
  · rfl
  · refine Or.inl ⟨name, ?_⟩
    unfold registerService
    simp
  · rintro d (⟨n, hName⟩ | hSession)
    · unfold registerService at hName
      dsimp only at hName
      split at hName
      · exact Or.inl (Option.some.inj hName).symm
      · exact Or.inr (Or.inl ⟨n, hName⟩)
    · exact Or.inr (Or.inr hSession)

theorem sound_connect
    (hSound : mgr.Sound parts)
    (name : ServiceName) :
    (mgr.connect name).2.Sound parts := by
  apply hSound.of_refers
  · rfl
  · intro d hRefers
    rcases refers_append.mp hRefers with hOld | hHas
    · exact hOld
    · rw [has_of_new rfl, Option.or_eq_some_iff] at hHas
      rcases hHas with hName | ⟨-, hColon⟩
      · exact Or.inl ⟨_, hName⟩
      · exact Or.inl ⟨_, hColon⟩

theorem sound_createSession
    (hSound : mgr.Sound parts) :
    (mgr.createSession (some svc)).2.Sound parts ↔
      svc ∉ mgr.gone parts := by
  apply hSound.iff_of_given
  · rfl
  · apply refers_append.mpr
    exact Or.inr (Or.inl rfl)
  · intro d hRefers
    rcases refers_append.mp hRefers with hOld | hHas
    · exact Or.inr hOld
    · rw [has_of_new rfl] at hHas
      exact Or.inl (Option.some.inj hHas).symm

theorem sound_createSession_none
    (hSound : mgr.Sound parts) :
    (mgr.createSession none).2.Sound parts := by
  apply hSound.of_refers
  · rfl
  · intro d hRefers
    rcases refers_append.mp hRefers with hOld | hHas
    · exact hOld
    · rw [has_of_new rfl] at hHas
      cases hHas

/- What is registered has not been deleted. -/
theorem sound_openSessionFor
    (hSound : mgr.Sound parts)
    (name : ServiceName) :
    (mgr.openSessionFor name).2.Sound parts := by
  unfold openSessionFor
  split
  · next svc hName =>
      rw [sound_createSession hSound]
      exact fun hMem =>
        hSound.live svc hMem (Or.inl ⟨name, hName⟩)
  · exact hSound

/- Fewer sessions have fewer services. -/
theorem refers_eraseP
    {p : Session → Bool}
    (hRefers :
      { mgr with sessions := mgr.sessions.eraseP p }.Refers d) :
    mgr.Refers d := by
  rcases hRefers with hName | ⟨s, hMem, hHas⟩
  · exact Or.inl hName
  · exact Or.inr ⟨s, List.mem_of_mem_eraseP hMem, hHas⟩

/- A service is deleted with what belongs to it. -/
theorem sound_delete
    {p : Session → Bool}
    (hSound : mgr.Sound parts) :
    { mgr with
        sessions := mgr.sessions.eraseP p
        deleted := mgr.deleted ++ [svc] }.Sound parts ↔
      (whole parts svc).Nodup ∧
        ∀ d ∈ whole parts svc,
          d ∉ mgr.gone parts ∧
            ¬ { mgr with
                sessions := mgr.sessions.eraseP p }.Refers
              d := by
  have hGone :
      { mgr with
          sessions := mgr.sessions.eraseP p
          deleted := mgr.deleted ++ [svc] }.gone parts =
        mgr.gone parts ++ whole parts svc := by
    unfold gone
    simp
  constructor
  · intro hSound'
    have hOnce := hSound'.once
    rw [hGone] at hOnce
    rcases List.nodup_append.mp hOnce with ⟨-, hWhole, hApart⟩
    refine ⟨hWhole, fun d hD => ⟨fun hOld => ?_, ?_⟩⟩
    · exact hApart d hOld d hD rfl
    · apply hSound'.live d
      rw [hGone]
      exact List.mem_append_right _ hD
  · rintro ⟨hWhole, hFree⟩
    constructor
    · rw [hGone]
      refine
        List.nodup_append.mpr ⟨hSound.once, hWhole, ?_⟩
      rintro a hA b hB rfl
      exact (hFree a hB).1 hA
    · intro d hD hRefers
      rw [hGone] at hD
      rcases List.mem_append.mp hD with hOld | hNew
      · exact hSound.live d hOld (refers_eraseP hRefers)
      · exact (hFree d hNew).2 hRefers

theorem sound_closeSession
    (hSound : mgr.Sound parts)
    (sid : U32) :
    (mgr.closeSession sid).Sound parts ↔
      mgr.Admits parts (.call (.closeSession sid)) := by
  unfold closeSession
  cases hFind : mgr.findSession sid with
  | none =>
      apply iff_of_true hSound
      intro s svc hSome
      rw [hFind] at hSome
      cases hSome
  | some s =>
      dsimp only
      by_cases hOwns :
          s.ownsService = true ∧ ∃ svc, s.service = some svc
      · rcases hOwns with ⟨hOwned, svc, hService⟩
        simp only [hOwned, hService, if_true,
          Option.toList_some]
        rw [sound_delete hSound]
        constructor
        · intro hHere s' svc' hFind' _ hService'
          obtain rfl : s = s' :=
            Option.some.inj (hFind.symm.trans hFind')
          obtain rfl : svc = svc' :=
            Option.some.inj (hService.symm.trans hService')
          exact hHere
        · exact fun hAll => hAll s svc hFind hOwned hService
      · have hNone :
            (if s.ownsService = true then s.service.toList
              else []) = [] := by
          split
          · next hOwned =>
              cases hService : s.service with
              | none => rfl
              | some svc =>
                  exact absurd ⟨hOwned, svc, hService⟩ hOwns
          · rfl
        apply iff_of_true
        · apply hSound.of_refers
          · rw [hNone, List.append_nil]
          · exact fun d hRefers => refers_eraseP hRefers
        · intro s' svc hFind' hOwned hService
          obtain rfl : s = s' :=
            Option.some.inj (hFind.symm.trans hFind')
          exact absurd ⟨hOwned, svc, hService⟩ hOwns

theorem sound_convert
    (hSound : mgr.Sound parts)
    (sid : U32) :
    (mgr.change (.convert sid)).Sound parts := by
  apply hSound.of_refers
  · rfl
  · exact fun d hRefers =>
      refers_of_updateSession
        (f := fun s => { s with isDomain := true })
        (fun _ _ hHas => Or.inl hHas) hRefers

/- An object of a domain is the service of a session. -/
theorem sound_addObject
    (hSound : mgr.Sound parts)
    (sid handle : U32) :
    (mgr.change (.addObject sid handle)).Sound parts := by
  unfold change
  dsimp only
  split
  · next svc hService =>
      apply hSound.of_refers
      · rfl
      · intro d hRefers
        refine refers_of_updateSession ?_ hRefers
        rintro s d (hHere | ⟨k, hObject⟩)
        · exact Or.inl (Or.inl hHere)
        · unfold Answer.addObject at hObject
          dsimp only at hObject
          split at hObject
          · rw [← Option.some.inj hObject]
            exact Or.inr (refers_of_getServiceBySession hService)
          · exact Or.inl (Or.inr ⟨k, hObject⟩)
  · exact hSound

/- When a change is sound, in a state that is. -/
theorem sound_iff
    (hSound : mgr.Sound parts)
    (c : Change) :
    (mgr.change c).Sound parts ↔ mgr.Admits parts c := by
  cases c with
  | call call =>
      cases call with
      | registerService name svc =>
          exact sound_registerService hSound name
      | connect name =>
          exact iff_of_true (sound_connect hSound name) trivial
      | createSession svc =>
          cases svc with
          | none =>
              exact
                iff_of_true (sound_createSession_none hSound)
                  trivial
          | some svc => exact sound_createSession hSound
      | openSessionFor name =>
          exact
            iff_of_true (sound_openSessionFor hSound name)
              trivial
      | closeSession sid => exact sound_closeSession hSound sid
  | convert sid =>
      exact iff_of_true (sound_convert hSound sid) trivial
  | addObject sid handle =>
      exact
        iff_of_true (sound_addObject hSound sid handle) trivial

------
-- Main Results
------

theorem sound_empty (parts : ServiceRef → List ServiceRef) :
    ({} : IpcManager).Sound parts := by
  constructor
  · exact List.nodup_nil
  · exact fun _ hMem => nomatch hMem

/- A change after which nothing was deleted twice, and nobody
has what was deleted. -/
def KeepsSound
    (parts : ServiceRef → List ServiceRef)
    (mgr : IpcManager)
    (c : Change) : Prop :=
  (mgr.change c).Sound parts

/-
  In a run of calls and requests, services are deleted once and
  when nobody has them, exactly if every change the run makes is
  admitted in the state it finds.
-/
theorem serviceLifetimes_iff
    (parts : ServiceRef → List ServiceRef)
    (events : List Event) :
    EventRun.stateAfter change {} (runChanges {} events) =
        EventRun.stateAfter step {} events ∧
      (EventRun.Guarded change (KeepsSound parts) {}
          (runChanges {} events) ↔
        EventRun.Guarded change (Admits parts) {}
          (runChanges {} events)) := by
  constructor
  · exact stateAfter_runChanges {} events
  · apply EventRun.guarded_congr
      (I := fun mgr => mgr.Sound parts)
    · exact fun _ _ _ hKeeps => hKeeps
    · exact fun mgr c hSound => sound_iff hSound c
    · exact sound_empty parts

/- A session is opened for a service that is registered, and
closed. -/
def openedAndClosed : List Event :=
  [.call (.registerService "apm:".toList 7),
    .call (.openSessionFor "apm:".toList),
    .call (.closeSession 0x1000)]

/- The registry still has the service, which is deleted. -/
theorem openedAndClosed_not_sound :
    ¬ EventRun.Guarded change (KeepsSound fun _ => []) {}
        (runChanges {} openedAndClosed) := by
  intro hKeeps
  have hLast :=
    hKeeps
      [.call (.registerService "apm:".toList 7),
        .call (.openSessionFor "apm:".toList)]
      (.call (.closeSession 0x1000)) (List.prefix_refl _)
  apply hLast.live 7
  · exact List.mem_cons_self
  · exact Or.inl ⟨"apm:".toList, rfl⟩

end IpcManager

end M1Switch
