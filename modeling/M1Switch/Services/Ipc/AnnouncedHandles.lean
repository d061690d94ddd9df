import M1Switch.Services.Ipc.DataWords

/-
  The handles a response announces.

  A place for a handle is reserved before the service runs, and
  announced whatever becomes of its output.  The special header
  is written only if the command was handled, and the place
  only if the output begins with a word that passes for a
  handle; else both keep what was in the buffer.

  Key definitions include:
    * `Answer.Taken`
    * `producedHandle`

  Main results:
    * `extract_response`
    * `handlesKept_iff`
-/

------
-- Handles Taken out of an Output
------

namespace M1Switch

namespace Answer

variable {sid : U32} {isControl : Bool} {rawOff : Nat}
variable {a : Answer}

/- The first word of an output is passed on as a handle. -/
def Taken
    (a : Answer)
    (sid : U32)
    (isControl : Bool)
    (rawOff : Nat) : Prop :=
  a.handled = true ∧ isControl = false ∧ 4 ≤ a.rawOutMax ∧
    a.manager.getIsDomain sid = false ∧
    a.response.bytes.word rawOff ≠ 0 ∧
    (a.response.bytes.word rawOff).toNat < pseudoHandles

instance
    (a : Answer)
    (sid : U32)
    (isControl : Bool)
    (rawOff : Nat) :
    Decidable (a.Taken sid isControl rawOff) :=
  inferInstanceAs (Decidable (_ ∧ _))

/- Nothing else is written to its place. -/
theorem extract_response (pos : Nat) :
    (a.extract sid isControl rawOff (some pos)).response =
      if a.Taken sid isControl rawOff then
        a.response.put pos
          (Bytes.ofWord (a.response.bytes.word rawOff))
      else a.response := by
  unfold extract
  simp only
  split
  · next hGuard =>
      rcases hGuard with
        ⟨hHandled, hRequest, hSize, -, hWord⟩
      split
      · next hPseudo =>
          have hNot : ¬ a.Taken sid isControl rawOff :=
            fun hTaken =>
              absurd hTaken.2.2.2.2.2 (Nat.not_lt.mpr hPseudo)
          rw [if_neg hNot]
      · next hReal =>
          split
          · next hDomain =>
              have hNot : ¬ a.Taken sid isControl rawOff := by
                intro hTaken
                rw [hTaken.2.2.2.1] at hDomain
                cases hDomain
              rw [if_neg hNot]
              split <;> rfl
          · next hPlain =>
              have hTaken : a.Taken sid isControl rawOff :=
                ⟨hHandled, by simpa using hRequest, hSize,
                  Bool.eq_false_iff.mpr hPlain, hWord,
                  Nat.not_le.mp hReal⟩
              rw [if_pos hTaken]
  · next hGuard =>
      have hNot : ¬ a.Taken sid isControl rawOff := by
        rintro ⟨hHandled, hRequest, hSize, -, hWord, -⟩
        exact
          hGuard
            ⟨hHandled, by simp [hRequest], hSize, .inl rfl,
              hWord⟩
      rw [if_neg hNot]

end Answer

------
-- Handles that are Announced
------

namespace Message

/- The number of handles in a message, and where they are. -/
def numHandles (m : Message) : Nat :=
  m.specialHeader.numCopyHandles.toNat +
    m.specialHeader.numMoveHandles.toNat

def handleOffset (m : Message) (k : Nat) : Nat :=
  12 + (if m.specialHeader.sendPid = 1 then 8 else 0) + 4 * k

end Message

namespace IpcManager

variable {host : Host} {serve : ServiceCall → ServiceReply}
variable {mgr : IpcManager} {req : Request} {s : Session}
variable {copied : Bool}

/- What came back from the service. -/
def targetReply
    (host : Host)
    (serve : ServiceCall → ServiceReply)
    (mgr : IpcManager)
    (req : Request)
    (s : Session) : ServiceReply :=
  match target mgr req s with
  | some svc => serve (serviceCall host req s svc)
  | none => {}

/- A word is taken for a handle. -/
def HandleTaken
    (host : Host)
    (serve : ServiceCall → ServiceReply)
    (mgr : IpcManager)
    (req : Request)
    (s : Session) : Prop :=
  (dispatched host serve mgr req s).Taken req.session
    (req.parsed s.isDomain).isControl
    (reservation host req s).rawOff

instance
    (host : Host)
    (serve : ServiceCall → ServiceReply)
    (mgr : IpcManager)
    (req : Request)
    (s : Session) :
    Decidable (HandleTaken host serve mgr req s) :=
  inferInstanceAs (Decidable (Answer.Taken ..))

/- The service has written all of it. -/
def HandleWritten
    (host : Host)
    (serve : ServiceCall → ServiceReply)
    (mgr : IpcManager)
    (req : Request)
    (s : Session) : Prop :=
  HandleTaken host serve mgr req s ∧
    4 ≤ (targetReply host serve mgr req s).written.length

instance
    (host : Host)
    (serve : ServiceCall → ServiceReply)
    (mgr : IpcManager)
    (req : Request)
    (s : Session) :
    Decidable (HandleWritten host serve mgr req s) :=
  inferInstanceAs (Decidable (_ ∧ _))

/- The handle a session answers with: the one its service has
put out, else its own if it is the service manager's. -/
def producedHandle
    (host : Host)
    (serve : ServiceCall → ServiceReply)
    (mgr : IpcManager)
    (req : Request)
    (s : Session) : Option U32 :=
  if HandleWritten host serve mgr req s then
    some
      (Bytes.word
        (fun i =>
          (targetReply host serve mgr req
            s).written.getD i 0) 0)
  else if OwnReserved req s then some req.session
  else none

/- That of the session a request is for. -/
def requestHandle
    (host : Host)
    (serve : ServiceCall → ServiceReply)
    (mgr : IpcManager)
    (req : Request) : Option U32 :=
  (mgr.findSession req.session).bind
    (producedHandle host serve mgr req)

/- The special header and the handles it announces have been
written, and are what has been produced. -/
structure HandlesWritten
    (req : Request)
    (o : Outcome)
    (produced : Option U32) : Prop where
  special : o.response.Wrote 8 4
  handles :
    ∀ k, k < (responseMessage req o).numHandles →
      o.response.Wrote
          ((responseMessage req o).handleOffset k) 4 ∧
        produced =
          some
            (o.response.bytes.word
              ((responseMessage req o).handleOffset k))

/- If a special header is announced, it is one of those. -/
def HandlesKept
    (host : Host)
    (serve : ServiceCall → ServiceReply)
    (mgr : IpcManager)
    (req : Request) : Prop :=
  let o := handleRequest host serve mgr req
  (responseMessage req o).header.hasSpecialHeader = 1 →
    HandlesWritten req o (requestHandle host serve mgr req)

/-
  Nothing is reserved, or one place which is filled: with what
  the service has put out, or with the session's own handle if
  nothing that was in the buffer is taken for another.
-/
def ReservedFilled
    (host : Host)
    (serve : ServiceCall → ServiceReply)
    (mgr : IpcManager)
    (req : Request)
    (s : Session) : Prop :=
  (¬ OwnReserved req s ∧ ¬ HandleReserved host req s) ∨
    (¬ OwnReserved req s ∧ HandleReserved host req s ∧
      HandleWritten host serve mgr req s) ∨
    (OwnReserved req s ∧ ¬ HandleReserved host req s ∧
      (dispatched host serve mgr req s).handled = true ∧
      (HandleTaken host serve mgr req s →
        4 ≤ (targetReply host serve mgr req
            s).written.length ∨
          (dispatched host serve mgr req
              s).response.bytes.word
            (reservation host req s).rawOff = req.session))

/- A request that is not answered finds no announcement in the
buffer. -/
def HandlesFilled
    (host : Host)
    (serve : ServiceCall → ServiceReply)
    (mgr : IpcManager)
    (req : Request) : Prop :=
  (∀ s, Reaches mgr req s →
      ReservedFilled host serve mgr req s) ∧
    ((∀ s, ¬ Reaches mgr req s) →
      (∀ s, mgr.findSession req.session = some s →
        8 ≤ req.message.size → ¬ req.IsClose) →
        ({ data := req.response
           size := req.respSize } :
              Message).header.hasSpecialHeader ≠ 1)

------
-- Places that are Filled
------

open Buffer (SameBefore)

/- What is not answered has at most the session's handle. -/
theorem response_of_not_reaches
    (hNot : ∀ s, ¬ Reaches mgr req s)
    (hOpen :
      ∀ s, mgr.findSession req.session = some s →
        8 ≤ req.message.size → ¬ req.IsClose) :
    SameBefore 12 { bytes := req.response }
      (handleRequest host serve mgr req).response := by
  have hNone := SameBefore.refl 12 { bytes := req.response }
  cases hFind : mgr.findSession req.session with
  | none =>
      unfold handleRequest
      rw [hFind]
      exact hNone
  | some s =>
      by_cases hSmall : req.message.size < 8
      · unfold handleRequest
        rw [hFind]
        simp only [if_pos hSmall]
        exact hNone
      · have hClose := hOpen s hFind (Nat.not_lt.mp hSmall)
        have hType := hClose
        unfold Request.IsClose at hType
        unfold handleRequest
        rw [hFind]
        simp only [if_neg hSmall, if_neg hType]
        unfold serveRequest
        split
        · exact hNone
        · next hRoom =>
            simp only
            split
            · exact initialResponse_before
            · next hService =>
                have hSome : s.service.isSome := by
                  rw [Option.isSome_iff_ne_none]
                  simpa using hService
                exact
                  absurd
                    ⟨hFind, Nat.not_lt.mp hSmall, hClose,
                      Nat.not_lt.mp hRoom, hSome⟩
                    (hNot s)

/- A command nobody knows is answered with a header alone. -/
theorem Reaches.response_unhandled
    (hReach : Reaches mgr req s)
    (hHandled :
      (dispatched host serve mgr req s).handled = false) :
    (handleRequest host serve mgr req).response =
      (dispatched host serve mgr req s).response.put 0
        (Bytes.ofWords
          (HipcHeader.toWords
            { hasSpecialHeader :=
                (reservation host req
                  s).hasSpecialHeader })) := by
  have hSame :
      answered host serve mgr req s =
        dispatched host serve mgr req s :=
    Answer.extract_unhandled hHandled
  rcases hReach.handleRequest_eq host serve with ⟨reads, hEq⟩
  rw [hEq, hSame]
  unfold respond
  simp only [hHandled, Bool.false_eq_true, if_false]

/- Whatever comes of a command, what is reserved for it is
announced. -/
theorem Reaches.hasSpecialHeader_eq
    (hReach : Reaches mgr req s) :
    (responseMessage req
        (handleRequest host serve mgr
          req)).header.hasSpecialHeader =
      (reservation host req s).hasSpecialHeader := by
  cases hHandled :
      (dispatched host serve mgr req s).handled with
  | false =>
      unfold responseMessage
      rw [hReach.response_unhandled hHandled, header_put]
  | true =>
      rw [hReach.header_eq hHandled]
      rfl

/- A word that the service has written. -/
theorem word_of_handleWritten
    (hWritten : HandleWritten host serve mgr req s) :
    Bytes.word
        (fun i =>
          (targetReply host serve mgr req
            s).written.getD i 0) 0 =
      (dispatched host serve mgr req s).response.bytes.word
        (reservation host req s).rawOff := by
  rcases hWritten with ⟨⟨-, hRequest, -⟩, hLong⟩
  unfold targetReply at hLong ⊢
  cases hTarget : target mgr req s with
  | none =>
      rw [hTarget] at hLong
      cases hLong
  | some svc =>
      rw [hTarget] at hLong
      simp only at hLong ⊢
      unfold target at hTarget
      unfold dispatched dispatch Answer.ofService
      rw [hRequest, hTarget]
      exact (Bytes.word_store_bytes hLong).symm

/- What is written to the one place that is reserved. -/
theorem answered_response
    (hOne : reservation host req s = oneHandle copied) :
    (answered host serve mgr req s).response =
      if HandleTaken host serve mgr req s then
        (dispatched host serve mgr req s).response.put 12
          (Bytes.ofWord
            ((dispatched host serve mgr req
                s).response.bytes.word
              (reservation host req s).rawOff))
      else (dispatched host serve mgr req s).response := by
  have hPos :
      (reservation host req s).handlePos = some 12 := by
    rw [hOne]
    rfl
  unfold answered
  rw [hPos]
  exact Answer.extract_response 12

/- Before the service is called the place is as it was. -/
theorem dispatched_place
    (hOne : reservation host req s = oneHandle copied) :
    SameBefore 16 (initialResponse req s)
      (dispatched host serve mgr req s).response := by
  have hBefore := @dispatched_before host serve mgr req s
  rw [hOne] at hBefore
  exact hBefore

/- The one special header is written last but for the header,
and the headers of the data words are behind it. -/
theorem built_of_one
    (hOne : reservation host req s = oneHandle copied) :
    ∃ headed,
      SameBefore 16 (answered host serve mgr req s).response
          headed ∧
        (built host serve mgr req s).1 =
          headed.put 8
            (Bytes.ofWord
              (HipcSpecialHeader.toWord
                { numCopyHandles := if copied then 1 else 0
                  numMoveHandles :=
                    if copied then 0 else 1 })) := by
  have hHeaders :=
    putHeaders_before (layout host serve mgr req s)
      (req.parsed s.isDomain).command.cmifToken
      (keptSize host serve mgr req s)
      (answered host serve mgr req s).objects
      (answered host serve mgr req s).response
  have hRaw : (layout host serve mgr req s).rawOff = 16 := by
    show (reservation host req s).rawOff = 16
    rw [hOne]
    rfl
  rw [hRaw] at hHeaders
  refine ⟨_, hHeaders, ?_⟩
  unfold built buildResponse putSpecialHeader
  rw [hOne]
  rfl

/- It announces one handle, right behind it. -/
theorem Reaches.specialHeader_of_one
    (hReach : Reaches mgr req s)
    (hHandled :
      (dispatched host serve mgr req s).handled = true)
    (hOne : reservation host req s = oneHandle copied) :
    let m :=
      responseMessage req (handleRequest host serve mgr req)
    m.numHandles = 1 ∧ m.handleOffset 0 = 12 := by
  intro m
  have hSpecial :
      m.specialHeader =
        HipcSpecialHeader.ofWord
          ((built host serve mgr req s).1.bytes.word 8) :=
    congrArg HipcSpecialHeader.ofWord
      (hReach.word_eq hHandled (Nat.le_refl 8))
  rw [built_special hOne] at hSpecial
  unfold Message.numHandles Message.handleOffset
  rw [hSpecial]
  cases copied <;> exact ⟨rfl, rfl⟩

/- The place has been written if it had been when a handle was
taken out, and has the same word. -/
theorem Reaches.place_of_one
    (hReach : Reaches mgr req s)
    (hHandled :
      (dispatched host serve mgr req s).handled = true)
    (hOne : reservation host req s = oneHandle copied) :
    let o := handleRequest host serve mgr req
    let a := answered host serve mgr req s
    o.response.Wrote 8 4 ∧
      (o.response.Wrote 12 4 ↔ a.response.Wrote 12 4) ∧
      o.response.bytes.word 12 = a.response.bytes.word 12 := by
  intro o a
  rcases @built_of_one host serve mgr req s copied hOne with
    ⟨headed, hBefore, hBuilt⟩
  have hResponse := hReach.response_built hHandled
  have hWord := hReach.word_eq hHandled (by decide : 8 ≤ 12)
  rw [hBuilt] at hResponse hWord
  refine ⟨?_, ?_, ?_⟩
  · simp only [o]
    rw [hResponse]
    exact (Buffer.wrote_put headed 8 _).put 0 _
  · rw [← hBefore.wrote_iff (by decide : 12 + 4 ≤ 16)]
    simp only [o]
    rw [hResponse]
    constructor
    · intro hWrote
      have hFramed :=
        hWrote.of_put (by rw [length_toWords]; decide)
      exact
        hFramed.of_put
          (by rw [Bytes.length_ofWord])
    · intro hWrote
      exact (hWrote.put 8 _).put 0 _
  · simp only [o]
    rw [hWord, Buffer.bytes_put, Bytes.word_store_apart,
      hBefore.word (by decide)]
    right
    rw [Bytes.length_ofWord]

/- A response with one special header and one handle. -/
theorem Reaches.handlesWritten_iff
    (hReach : Reaches mgr req s)
    (hHandled :
      (dispatched host serve mgr req s).handled = true)
    (hOne : reservation host req s = oneHandle copied)
    (produced : Option U32) :
    HandlesWritten req (handleRequest host serve mgr req)
        produced ↔
      (answered host serve mgr req s).response.Wrote 12 4 ∧
        produced =
          some
            ((answered host serve mgr req
              s).response.bytes.word 12) := by
  rcases hReach.specialHeader_of_one hHandled hOne with
    ⟨hCount, hOffset⟩
  rcases hReach.place_of_one hHandled hOne with
    ⟨hSpecial, hWrote, hWord⟩
  constructor
  · intro hHandles
    have hFirst := hHandles.handles 0 (by rw [hCount]; decide)
    rw [hOffset, hWrote, hWord] at hFirst
    exact hFirst
  · intro hPlace
    refine ⟨hSpecial, ?_⟩
    intro k hIn
    have hZero : k = 0 := by omega
    rw [hZero, hOffset, hWrote, hWord]
    exact hPlace

/- Nothing is written where the special header should be. -/
theorem Reaches.not_special_of_unhandled
    (hReach : Reaches mgr req s)
    (hHandled :
      (dispatched host serve mgr req s).handled = false)
    (hReserved : 12 ≤ (reservation host req s).rawOff) :
    ¬ (handleRequest host serve mgr req).response.Wrote 8
        4 := by
  intro hWrote
  rw [hReach.response_unhandled hHandled] at hWrote
  have hBefore :
      SameBefore 12 { bytes := req.response }
        (dispatched host serve mgr req s).response :=
    initialResponse_before.trans
      (dispatched_before.mono hReserved)
  have hOld :=
    (hBefore.wrote_iff (by decide : 8 + 4 ≤ 12)).mp
      (hWrote.of_put (by rw [length_toWords]))
  exact Buffer.not_wrote (by decide) hOld

/- Where one place is reserved, it is filled. -/
theorem Reaches.handlesKept_iff_one
    (hReach : Reaches mgr req s)
    (hOne : reservation host req s = oneHandle copied) :
    HandlesKept host serve mgr req ↔
      (dispatched host serve mgr req s).handled = true ∧
        (answered host serve mgr req s).response.Wrote 12 4 ∧
        producedHandle host serve mgr req s =
          some
            ((answered host serve mgr req
              s).response.bytes.word 12) := by
  have hHas :
      (responseMessage req
          (handleRequest host serve mgr
            req)).header.hasSpecialHeader = 1 := by
    rw [hReach.hasSpecialHeader_eq, hOne]
    rfl
  have hHandle :
      requestHandle host serve mgr req =
        producedHandle host serve mgr req s := by
    unfold requestHandle
    rw [hReach.found]
    rfl
  unfold HandlesKept
  simp only [hHas, forall_const, hHandle]
  cases hHandled :
      (dispatched host serve mgr req s).handled with
  | false =>
      have hReserved :
          12 ≤ (reservation host req s).rawOff := by
        rw [hOne]
        show 12 ≤ 16
        decide
      have hNot :=
        hReach.not_special_of_unhandled hHandled hReserved
      refine iff_of_false (fun hHandles => ?_) (by simp)
      exact hNot hHandles.special
  | true =>
      rw [hReach.handlesWritten_iff hHandled hOne]
      simp

/- A place for a handle of the service alone. -/
theorem Reaches.handlesKept_iff_service
    (hReach : Reaches mgr req s)
    (hOwn : ¬ OwnReserved req s)
    (hOne : reservation host req s = oneHandle copied) :
    HandlesKept host serve mgr req ↔
      HandleWritten host serve mgr req s := by
  rw [hReach.handlesKept_iff_one hOne,
    @answered_response host serve mgr req s _ hOne]
  constructor
  · rintro ⟨-, -, hProduced⟩
    by_contra hNot
    unfold producedHandle at hProduced
    rw [if_neg hNot, if_neg hOwn] at hProduced
    cases hProduced
  · intro hWritten
    have hTaken := hWritten.1
    refine ⟨hTaken.1, ?_, ?_⟩
    · rw [if_pos hTaken]
      exact Buffer.wrote_put _ 12 _
    · unfold producedHandle
      rw [if_pos hWritten, if_pos hTaken,
        word_of_handleWritten hWritten, Buffer.bytes_put,
        Bytes.word_store_word]

/- A place for the session's own handle alone. -/
theorem Reaches.handlesKept_iff_own
    (hReach : Reaches mgr req s)
    (hOwn : OwnReserved req s)
    (hOne : reservation host req s = oneHandle copied) :
    HandlesKept host serve mgr req ↔
      (dispatched host serve mgr req s).handled = true ∧
        (HandleTaken host serve mgr req s →
          4 ≤ (targetReply host serve mgr req
              s).written.length ∨
            (dispatched host serve mgr req
                s).response.bytes.word
              (reservation host req s).rawOff =
                req.session) := by
  have hInitial :
      initialResponse req s =
        Buffer.put { bytes := req.response } 12
          (Bytes.ofWord req.session) :=
    if_pos hOwn
  have hPlace := @dispatched_place host serve mgr req s _ hOne
  rw [hReach.handlesKept_iff_one hOne,
    @answered_response host serve mgr req s _ hOne]
  refine and_congr_right fun _ => ?_
  unfold producedHandle
  by_cases hTaken : HandleTaken host serve mgr req s
  · rw [if_pos hTaken, Buffer.bytes_put, Bytes.word_store_word]
    by_cases hLong :
        4 ≤ (targetReply host serve mgr req s).written.length
    · have hWritten : HandleWritten host serve mgr req s :=
        ⟨hTaken, hLong⟩
      rw [if_pos hWritten, word_of_handleWritten hWritten]
      exact
        iff_of_true ⟨Buffer.wrote_put _ 12 _, rfl⟩
          (fun _ => .inl hLong)
    · have hNot : ¬ HandleWritten host serve mgr req s :=
        fun hWritten => hLong hWritten.2
      rw [if_neg hNot, if_pos hOwn]
      constructor
      · rintro ⟨-, hSame⟩ _
        exact .inr (Option.some.inj hSame).symm
      · intro hSame
        refine ⟨Buffer.wrote_put _ 12 _, ?_⟩
        rw [(hSame hTaken).resolve_left hLong]
  · have hNot : ¬ HandleWritten host serve mgr req s :=
      fun hWritten => hTaken hWritten.1
    rw [if_neg hTaken, if_neg hNot, if_pos hOwn,
      hPlace.wrote_iff (by decide), hPlace.word (by decide),
      hInitial, Buffer.bytes_put, Bytes.word_store_word]
    exact
      iff_of_true ⟨Buffer.wrote_put _ 12 _, rfl⟩
        (fun hIs => absurd hIs hTaken)

/- Of two places the first has no special header. -/
theorem Reaches.not_handlesKept_of_two
    (hReach : Reaches mgr req s)
    (hOff : (reservation host req s).rawOff = 24)
    (hPos : (reservation host req s).shdrPos = some 16)
    (hHas : (reservation host req s).hasSpecialHeader = 1) :
    ¬ HandlesKept host serve mgr req := by
  intro hKept
  rw [← hReach.hasSpecialHeader_eq] at hHas
  have hSpecial := (hKept hHas).special
  cases hHandled :
      (dispatched host serve mgr req s).handled with
  | false =>
      exact
        hReach.not_special_of_unhandled hHandled (by omega)
          hSpecial
  | true =>
      have hBefore :
          SameBefore 12 { bytes := req.response }
            (answered host serve mgr req s).response :=
        answered_before_special (by omega)
      have hHeaders :=
        putHeaders_before (layout host serve mgr req s)
          (req.parsed s.isDomain).command.cmifToken
          (keptSize host serve mgr req s)
          (answered host serve mgr req s).objects
          (answered host serve mgr req s).response
      have hRaw :
          12 ≤ (layout host serve mgr req s).rawOff := by
        show 12 ≤ (reservation host req s).rawOff
        omega
      have hBuilt :
          SameBefore 12 { bytes := req.response }
            (built host serve mgr req s).1 := by
        unfold built buildResponse putSpecialHeader
        rw [hPos]
        exact
          (hBefore.trans (hHeaders.mono hRaw)).put (by decide) _
      rw [hReach.response_built hHandled] at hSpecial
      have hOld :=
        (hBuilt.wrote_iff (by decide : 8 + 4 ≤ 12)).mp
          (hSpecial.of_put (by rw [length_toWords]))
      exact Buffer.not_wrote (by decide) hOld

/- An answer announces what has been written and produced just
when what is reserved has been filled. -/
theorem Reaches.handlesKept_iff_filled
    (hReach : Reaches mgr req s) :
    HandlesKept host serve mgr req ↔
      ReservedFilled host serve mgr req s := by
  unfold ReservedFilled
  rcases reservation_cases host req s with
    ⟨hOwn, hHandle, hEq⟩ | ⟨hOwn, hHandle, hEq⟩ |
      ⟨hOwn, hHandle, hEq⟩ |
      ⟨hOwn, hHandle, hOff, hPos, -, hHas⟩
  · refine iff_of_true ?_ (.inl ⟨hOwn, hHandle⟩)
    intro hHas
    rw [hReach.hasSpecialHeader_eq, hEq] at hHas
    cases hHas
  · rw [hReach.handlesKept_iff_own hOwn hEq]
    simp only [hOwn, hHandle, not_true, not_false_iff,
      false_and, true_and, false_or]
  · rw [hReach.handlesKept_iff_service hOwn hEq]
    simp only [hOwn, hHandle, not_true, not_false_iff,
      false_and, true_and, false_or, and_false, or_false]
  · refine iff_of_false
      (hReach.not_handlesKept_of_two hOff hPos hHas) ?_
    simp [hOwn, hHandle]

/- The answer to a close is an empty header. -/
theorem handlesKept_of_close
    (hFind : mgr.findSession req.session = some s)
    (hSize : 8 ≤ req.message.size)
    (hClose : req.IsClose) :
    HandlesKept host serve mgr req := by
  have hSmall : ¬ req.message.size < 8 := Nat.not_lt.mpr hSize
  have hResponse :
      (handleRequest host serve mgr req).response =
        Buffer.put { bytes := req.response } 0
          (Bytes.ofWords (HipcHeader.toWords {})) := by
    unfold Request.IsClose at hClose
    unfold handleRequest
    rw [hFind]
    simp only [if_neg hSmall, if_pos hClose]
  unfold HandlesKept
  intro o hHas
  unfold responseMessage at hHas
  rw [hResponse, header_put] at hHas
  cases hHas

/-
  A response announces only handles that have been written for
  it, whatever is asked and whatever the service does, just
  when every place reserved for one is filled.
-/
theorem handlesKept_iff
    (host : Host)
    (serve : ServiceCall → ServiceReply)
    (mgr : IpcManager)
    (req : Request) :
    HandlesKept host serve mgr req ↔
      HandlesFilled host serve mgr req := by
  rcases reaches_cases mgr req with
    ⟨s, hReach⟩ | ⟨s, hFind, hSize, hClose⟩ | ⟨hNot, hOpen⟩
  · rw [hReach.handlesKept_iff_filled]
    constructor
    · intro hFilled
      refine ⟨?_, fun hNone => absurd hReach (hNone s)⟩
      intro s' hReach'
      have hSame : s' = s :=
        Option.some.inj
          (hReach'.found.symm.trans hReach.found)
      rw [hSame]
      exact hFilled
    · intro hFilled
      exact hFilled.1 s hReach
  · refine iff_of_true ?_ ⟨?_, ?_⟩
    · exact handlesKept_of_close hFind hSize hClose
    · intro s' hReach
      exact absurd hClose hReach.open_
    · intro _ hOpen
      exact absurd hClose (hOpen s hFind hSize)
  · have hBefore :
        SameBefore 12 { bytes := req.response }
          (handleRequest host serve mgr req).response :=
      response_of_not_reaches hNot hOpen
    have hHeader :
        (responseMessage req
            (handleRequest host serve mgr req)).header =
          ({ data := req.response
             size := req.respSize } : Message).header := by
      unfold responseMessage Message.header
      rw [hBefore.word (by decide), hBefore.word (by decide)]
    unfold HandlesKept
    simp only [hHeader]
    constructor
    · intro hKept
      refine ⟨fun s hReach => absurd hReach (hNot s), ?_⟩
      intro _ _ hHas
      have hSpecial := (hKept hHas).special
      have hOld :=
        (hBefore.wrote_iff (by decide : 8 + 4 ≤ 12)).mp
          hSpecial
      exact Buffer.not_wrote (by decide) hOld
    · intro hFilled hHas
      exact absurd hHas (hFilled.2 hNot hOpen)

/- Command 1 of the pads, which asks for their memory. -/
def memoryRequest : Request :=
  { sampleRequest with
    message :=
      sampleMessage [4, 6, 0, 0, CMIF_IN_MAGIC, 0, 1, 5] 256 }

def padManager : IpcManager :=
  ((registerService {} "hid:".toList 7).connect
    "hid:".toList).2

def padSession : Session :=
  { id := 0x1000
    serviceName := "hid:".toList
    service := some 7 }

/- The service puts out an address, where there is room. -/
def serveAddress (call : ServiceCall) : ServiceReply :=
  if 16 ≤ call.outMax then
    { written := Bytes.ofWords [0xE1000000, 0, 0, 0]
      outSize := 16 }
  else { outSize := call.outMax }

theorem memoryRequest_reaches :
    Reaches padManager memoryRequest padSession where
  found := rfl
  message := by decide
  open_ := by decide
  room := by decide
  service := rfl

/- The address is no handle, and one is announced. -/
theorem sharedMemory_not_kept :
    ¬ HandlesKept sampleHost serveAddress padManager
        memoryRequest := by
  intro hKept
  have hOne :
      reservation sampleHost memoryRequest padSession =
        oneHandle false := by
    rfl
  have hWritten :=
    (memoryRequest_reaches.handlesKept_iff_service
      (by decide) hOne).mp hKept
  revert hWritten
  decide

end IpcManager

end M1Switch
