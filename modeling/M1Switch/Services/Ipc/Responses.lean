import M1Switch.Services.Ipc.Requests

/-
  How a response is put together around the output of a
  service.

  The service may fill the whole rest of the buffer.  Headers
  are put in front of its output afterwards, and the first
  word of the output may be taken for a handle.

  Key definitions include:
    * `Reservation.Ordered`
    * `fate`

  Main results:
    * `buildResponse_reply`
    * `writes_within_iff`
    * `replyFate_kept_iff`
-/

------
-- Reserved Space
------

namespace M1Switch

namespace Reservation

/- Reserved space is behind the header and in the buffer. -/
structure Ordered (respSize : Nat) (r : Reservation) :
    Prop where
  start : 8 ≤ r.rawOff
  room : r.rawOff ≤ respSize
  header :
    ∀ pos, r.shdrPos = some pos →
      8 ≤ pos ∧ pos + 8 ≤ r.rawOff
  handle :
    ∀ pos, r.handlePos = some pos →
      8 ≤ pos ∧ pos + 4 ≤ r.rawOff

variable {respSize : Nat} {r : Reservation}

/- Eight bytes more, for a special header and a handle. -/
theorem Ordered.extend
    {r' : Reservation}
    (hR : r.Ordered respSize)
    (hRoom : r.rawOff + 8 ≤ respSize)
    (hOff : r'.rawOff = r.rawOff + 8)
    (hHeader : r'.shdrPos = some r.rawOff)
    (hHandle : r'.handlePos = some (r.rawOff + 4)) :
    r'.Ordered respSize := by
  have hStart := hR.start
  constructor
  · omega
  · omega
  · intro pos hPos
    rw [hHeader] at hPos
    cases hPos
    omega
  · intro pos hPos
    rw [hHandle] at hPos
    cases hPos
    omega

theorem reserveOwn_ordered
    (hR : r.Ordered respSize)
    (sname : ServiceName)
    (cmdId : U32) :
    (r.reserveOwn respSize sname cmdId).Ordered respSize := by
  unfold reserveOwn
  split
  next hRoom => exact hR.extend hRoom.2.2 rfl rfl rfl
  next => exact hR

theorem reserveHandle_ordered
    (hR : r.Ordered respSize)
    (need : HandleNeed)
    (isControl isDomain : Bool) :
    (r.reserveHandle respSize need isControl
      isDomain).Ordered respSize := by
  unfold reserveHandle
  split
  next hRoom => exact hR.extend hRoom.2.2.2 rfl rfl rfl
  next => exact hR

end Reservation

theorem reserve_ordered
    {respSize : Nat}
    (hRoom : 8 ≤ respSize)
    (host : Host)
    (s : Session)
    (p : ParsedRequest) :
    (reserve host s respSize p).Ordered respSize := by
  have hEmpty : Reservation.Ordered respSize {} := by
    constructor
    · exact Nat.le_refl 8
    · exact hRoom
    · intro pos hPos
      cases hPos
    · intro pos hPos
      cases hPos
  exact
    Reservation.reserveHandle_ordered
      (Reservation.reserveOwn_ordered hEmpty _ _) _ _ _

------
-- Handles in an Output
------

namespace Answer

/- What becomes of an output. -/
inductive Fate where
  | kept
  | dropped
  | object
deriving DecidableEq

/-
  The first word decides, where a handle is expected or the
  session is a domain.
-/
def fate
    (mgr : IpcManager)
    (sid : U32)
    (handlePos : Option Nat)
    (size : Nat)
    (w : U32) : Fate :=
  if size < 4 ∨ w = 0 ∨
      (handlePos.isNone ∧ !mgr.getIsDomain sid) then .kept
  else if pseudoHandles ≤ w.toNat then .dropped
  else if mgr.getIsDomain sid then
    if (mgr.getServiceBySession w).isSome then .object
    else .kept
  else .dropped

/- The session as a domain, to number a new object. -/
def nextId (mgr : IpcManager) (sid : U32) : U32 :=
  (mgr.findSession sid).elim 0 (·.nextObjectId)

variable {sid : U32} {rawOff : Nat} {handlePos : Option Nat}
variable {a : Answer}

/- The fate of the output of an answer. -/
def outputFate
    (a : Answer)
    (sid : U32)
    (rawOff : Nat)
    (handlePos : Option Nat) : Fate :=
  fate a.manager sid handlePos a.rawOutMax
    (a.response.bytes.word rawOff)

/- Where a handle may be looked for. -/
theorem outputFate_of_not_taken
    (hNot :
      ¬ (4 ≤ a.rawOutMax ∧
        (handlePos.isSome ∨ a.manager.getIsDomain sid) ∧
          a.response.bytes.word rawOff ≠ 0)) :
    a.outputFate sid rawOff handlePos = .kept := by
  unfold outputFate fate
  rw [if_pos]
  by_cases hShort : a.rawOutMax < 4
  · exact Or.inl hShort
  · by_cases hZero : a.response.bytes.word rawOff = 0
    · exact Or.inr (Or.inl hZero)
    · refine Or.inr (Or.inr ?_)
      have hNowhere :
          ¬ (handlePos.isSome ∨ a.manager.getIsDomain sid) :=
        fun hWhere => hNot ⟨by omega, hWhere, hZero⟩
      simpa using hNowhere

theorem outputFate_of_taken
    (hTaken :
      4 ≤ a.rawOutMax ∧
        (handlePos.isSome ∨ a.manager.getIsDomain sid) ∧
          a.response.bytes.word rawOff ≠ 0) :
    a.outputFate sid rawOff handlePos =
      if pseudoHandles ≤
          (a.response.bytes.word rawOff).toNat then .dropped
      else if a.manager.getIsDomain sid then
        if (a.manager.getServiceBySession
            (a.response.bytes.word rawOff)).isSome then
          .object
        else .kept
      else .dropped := by
  rcases hTaken with ⟨hSize, hWhere, hWord⟩
  unfold outputFate fate
  rw [if_neg]
  rintro (hShort | hZero | ⟨hNone, hPlain⟩)
  · omega
  · exact hWord hZero
  · rcases hWhere with hPos | hDomain
    · simp [Option.isNone_iff_eq_none.1 hNone] at hPos
    · simp [hDomain] at hPlain

/- A domain session can be found. -/
theorem exists_of_getIsDomain
    {mgr : IpcManager}
    (hDomain : mgr.getIsDomain sid = true) :
    ∃ s, mgr.findSession sid = some s ∧
      s.isDomain = true := by
  cases hFind : mgr.findSession sid with
  | none => simp [IpcManager.getIsDomain, hFind] at hDomain
  | some s =>
      refine ⟨s, rfl, ?_⟩
      simpa [IpcManager.getIsDomain, hFind] using hDomain

/-
  What is left of an answer: its output, the new object of a
  domain, and the handle in the response.
-/
theorem extract_spec
    (hHandled : a.handled = true) :
    let a' := a.extract sid false rawOff handlePos
    let outcome := a.outputFate sid rawOff handlePos
    a'.handled = true ∧
      a'.calls = a.calls ∧
      a'.rawOutMax =
        (if outcome = .kept then a.rawOutMax else 0) ∧
      a'.objects =
        (if outcome = .object then [nextId a.manager sid]
          else a.objects) ∧
      (outcome = .kept → a' = a) ∧
      (outcome ≠ .object → a'.manager = a.manager) ∧
      (outcome = .object →
        ∃ svc,
          a.manager.getServiceBySession
            (a.response.bytes.word rawOff) = some svc ∧
          a'.manager =
            a.manager.updateSession sid (addObject svc)) ∧
      (a'.response = a.response ∨
        ∃ pos w, handlePos = some pos ∧
          a'.response =
            a.response.put pos (Bytes.ofWord w)) := by
  intro a' outcome
  by_cases hTaken :
      4 ≤ a.rawOutMax ∧
        (handlePos.isSome ∨ a.manager.getIsDomain sid) ∧
          a.response.bytes.word rawOff ≠ 0
  · have hFate : outcome = _ := outputFate_of_taken hTaken
    have hGuard :
        a.handled ∧ !false ∧ 4 ≤ a.rawOutMax ∧
          (handlePos.isSome ∨ a.manager.getIsDomain sid) ∧
            a.response.bytes.word rawOff ≠ 0 :=
      ⟨hHandled, rfl, hTaken⟩
    have hExtract : a' = _ := if_pos hGuard
    by_cases hPseudo :
        pseudoHandles ≤ (a.response.bytes.word rawOff).toNat
    · rw [if_pos hPseudo] at hFate hExtract
      rw [hFate, hExtract]
      simp [hHandled]
    · rw [if_neg hPseudo] at hFate hExtract
      by_cases hDomain : a.manager.getIsDomain sid = true
      · rw [if_pos hDomain] at hFate hExtract
        rcases exists_of_getIsDomain hDomain with ⟨s, hFind, -⟩
        cases hLive :
            a.manager.getServiceBySession
              (a.response.bytes.word rawOff) with
        | none =>
            simp only [hLive, Option.isSome_none,
              Bool.false_eq_true, if_false] at hFate hExtract
            rw [hFate, hExtract]
            simp [hHandled]
        | some svc =>
            simp only [hLive, hFind, Option.isSome_some,
              if_true] at hFate hExtract
            rw [hFate, hExtract]
            simp [hHandled, nextId, hFind]
      · rw [if_neg hDomain] at hFate hExtract
        have hPos : handlePos.isSome := by
          rcases hTaken.2.1 with hPos | hIs
          · exact hPos
          · exact absurd hIs hDomain
        rcases Option.isSome_iff_exists.1 hPos with ⟨pos, hSome⟩
        simp only [hSome] at hExtract
        rw [hFate, hExtract, hSome]
        refine ⟨hHandled, rfl, rfl, rfl, ?_, fun _ => rfl, ?_, ?_⟩
        · intro hKept
          cases hKept
        · intro hObject
          cases hObject
        · exact Or.inr ⟨pos, _, rfl, rfl⟩
  · have hFate : outcome = .kept :=
      outputFate_of_not_taken hTaken
    have hSame : a' = a := by
      apply if_neg
      rintro ⟨-, -, hTake⟩
      exact hTaken hTake
    rw [hFate, hSame]
    simp [hHandled]

end Answer

------
-- Headers around an Output
------

namespace ResponseLayout

variable {l : ResponseLayout}

/- The headers follow the reserved space in order. -/
theorem offsets (l : ResponseLayout) :
    l.rawOff ≤ l.cmifOutOff ∧
      l.cmifOutOff < l.rawOff + 16 ∧
      l.cmifHdrOff =
        l.cmifOutOff + (if l.isDomainResp then 16 else 0) ∧
      l.cmifOutEnd = l.cmifHdrOff + 16 := by
  refine ⟨?_, ?_, rfl, rfl⟩
  · unfold cmifOutOff calcCmifAlign
    omega
  · unfold cmifOutOff calcCmifAlign
    omega

end ResponseLayout

section Building

variable {respSize : Nat} {l : ResponseLayout}
variable {r : Reservation} {token : U32} {rawOutMax : Nat}
variable {objects : List U32} {response : Buffer}

/- The special header is in front of everything else. -/
theorem special_apart
    (hR : r.Ordered respSize)
    (hOff : l.rawOff = r.rawOff)
    {pos : Nat}
    (hPos : r.shdrPos = some pos) :
    pos + 4 ≤ l.cmifOutOff := by
  have hHeader := hR.header pos hPos
  have hStart := l.offsets.1
  omega

theorem word_putSpecialHeader
    {pos : Nat}
    (hR : r.Ordered respSize)
    (hOff : l.rawOff = r.rawOff)
    (hBehind : l.cmifOutOff ≤ pos) :
    (putSpecialHeader r response).bytes.word pos =
      response.bytes.word pos := by
  unfold putSpecialHeader
  cases hPos : r.shdrPos with
  | none => rfl
  | some shdr =>
      have hApart := special_apart hR hOff hPos
      apply Bytes.word_store_apart
      right
      rw [Bytes.length_ofWord]
      omega

theorem slice_putSpecialHeader
    {pos count : Nat}
    (hR : r.Ordered respSize)
    (hOff : l.rawOff = r.rawOff)
    (hBehind : l.cmifOutOff ≤ pos) :
    (putSpecialHeader r response).bytes.slice pos count =
      response.bytes.slice pos count := by
  unfold putSpecialHeader
  cases hPos : r.shdrPos with
  | none => rfl
  | some shdr =>
      have hApart := special_apart hR hOff hPos
      apply Bytes.slice_store_apart
      right
      rw [Bytes.length_ofWord]
      omega

/- The command header is in front of the output. -/
theorem slice_putCommandHeader
    {pos count : Nat}
    (hBehind : l.cmifOutEnd ≤ pos) :
    (putCommandHeader l token response).bytes.slice pos
        count =
      response.bytes.slice pos count := by
  have hOffsets := l.offsets
  apply Bytes.slice_store_apart
  right
  rw [Bytes.length_ofWords]
  simp only [List.length_cons, List.length_nil]
  omega

theorem moveOutput_within_iff
    (n : Nat) :
    Span.Within n (moveOutput l rawOutMax response).writes ∧
        l.cmifOutEnd ≤ n ↔
      Span.Within n response.writes ∧
        l.cmifOutEnd + (rawOutMax) ≤ n := by
  unfold moveOutput
  have hBefore : l.rawOff < l.cmifOutEnd := by
    have hOffsets := l.offsets
    omega
  by_cases hOut : 0 < rawOutMax
  · rw [if_pos ⟨hOut, hBefore⟩]
    simp only [Buffer.writes_put, Bytes.length_slice,
      Span.within_append, Span.within_cons,
      Span.within_nil, and_true, and_assoc]
    refine and_congr_right fun _ => ?_
    omega
  · rw [if_neg fun hBoth => hOut hBoth.1]
    refine and_congr_right fun _ => ?_
    omega

theorem putDomainHeader_within_iff
    (n : Nat)
    (hEnd : l.cmifOutEnd + rawOutMax ≤ n) :
    Span.Within n
        (putDomainHeader l rawOutMax objects
          response).writes ↔
      Span.Within n response.writes ∧
        l.cmifOutEnd + rawOutMax +
          (if l.isDomainResp then objects.length * 4
            else 0) ≤ n := by
  have hOffsets := l.offsets
  unfold putDomainHeader
  cases hDomain : l.isDomainResp with
  | false =>
      simp only [Bool.false_eq_true, if_false]
      exact (and_iff_left hEnd).symm
  | true =>
      simp only [if_true, Buffer.writes_put,
        Bytes.length_ofWords, Span.within_append,
        Span.within_cons, Span.within_nil, and_true,
        List.length_cons, List.length_nil, and_assoc]
      refine and_congr_right fun _ => ?_
      omega

/- The two headers in front of an output end before it. -/
theorem putHeaders_within_iff
    (n : Nat)
    (hR : r.Ordered respSize)
    (hOff : l.rawOff = r.rawOff) :
    Span.Within n
        (putSpecialHeader r
          (putCommandHeader l token response)).writes ↔
      Span.Within n response.writes ∧ l.cmifOutEnd ≤ n := by
  have hOffsets := l.offsets
  have hHeader :
      Span.Within n
          (putCommandHeader l token response).writes ↔
        Span.Within n response.writes ∧
          l.cmifOutEnd ≤ n := by
    simp only [putCommandHeader, Buffer.writes_put,
      Bytes.length_ofWords, Span.within_append,
      Span.within_cons, Span.within_nil, and_true,
      List.length_cons, List.length_nil]
    refine and_congr_right fun _ => ?_
    omega
  rw [← hHeader]
  unfold putSpecialHeader
  cases hPos : r.shdrPos with
  | none => rfl
  | some pos =>
      have hApart := special_apart hR hOff hPos
      simp only [Buffer.writes_put, Bytes.length_ofWord,
        Span.within_append, Span.within_cons,
        Span.within_nil, and_true]
      refine and_iff_left_of_imp fun hWithin => ?_
      have hEnd := (hHeader.1 hWithin).2
      omega

/- A response is written in the buffer if it ends there. -/
theorem buildResponse_within_iff
    (n : Nat)
    (hR : r.Ordered respSize)
    (hOff : l.rawOff = r.rawOff) :
    let built :=
      buildResponse l r token rawOutMax objects response
    Span.Within n built.1.writes ↔
      Span.Within n response.writes ∧ built.2 ≤ n := by
  intro built
  have hSize :
      built.2 =
        l.cmifOutEnd + rawOutMax +
          (if l.isDomainResp then objects.length * 4
            else 0) :=
    rfl
  rw [hSize]
  refine (putHeaders_within_iff n hR hOff).trans ?_
  constructor
  · rintro ⟨hFramed, hHead⟩
    -- what is framed was written inside, so was the output
    have hMoved :
        Span.Within n
          (moveOutput l rawOutMax response).writes := by
      unfold putDomainHeader at hFramed
      split at hFramed
      · simp only [Buffer.writes_put,
          Span.within_append] at hFramed
        exact hFramed.1.1
      · exact hFramed
    have hOut := (moveOutput_within_iff n).1 ⟨hMoved, hHead⟩
    have hAll :=
      (putDomainHeader_within_iff n hOut.2).1 hFramed
    exact ⟨hOut.1, hAll.2⟩
  · rintro ⟨hResponse, hEnd⟩
    have hOut : l.cmifOutEnd + rawOutMax ≤ n := by omega
    have hMoved :=
      (moveOutput_within_iff n).2 ⟨hResponse, hOut⟩
    exact
      ⟨(putDomainHeader_within_iff n hOut).2
        ⟨hMoved.1, hEnd⟩, hMoved.2⟩

/- The words of the command header of a response. -/
theorem buildResponse_word
    {k : Nat}
    (hR : r.Ordered respSize)
    (hOff : l.rawOff = r.rawOff)
    (hK : k < 4) :
    let built :=
      buildResponse l r token rawOutMax objects response
    built.1.bytes.word (l.cmifHdrOff + 4 * k) =
      [CMIF_OUT_MAGIC, 0, 0, token].getD k 0 := by
  intro built
  have hOffsets := l.offsets
  have hBuilt :
      built.1 =
        putSpecialHeader r
          (putCommandHeader l token
            (putDomainHeader l rawOutMax objects
              (moveOutput l rawOutMax response))) :=
    rfl
  rw [hBuilt, word_putSpecialHeader hR hOff (by omega)]
  exact Bytes.word_store_words hK

/- The command header of a response has the token. -/
theorem buildResponse_token
    (hR : r.Ordered respSize)
    (hOff : l.rawOff = r.rawOff) :
    let built :=
      buildResponse l r token rawOutMax objects response
    built.1.bytes.word l.cmifHdrOff = CMIF_OUT_MAGIC ∧
      built.1.bytes.word (l.cmifHdrOff + 12) = token := by
  intro built
  have hWord :
      ∀ k < 4,
        built.1.bytes.word (l.cmifHdrOff + 4 * k) =
          [CMIF_OUT_MAGIC, 0, 0, token].getD k 0 :=
    fun k hK => buildResponse_word hR hOff hK
  have hMagic := hWord 0 (by decide)
  have hToken := hWord 3 (by decide)
  generalize built.1.bytes.word = word at hMagic hToken ⊢
  exact ⟨hMagic, hToken⟩

theorem moveOutput_reply :
    (moveOutput l rawOutMax response).bytes.slice
        l.cmifOutEnd rawOutMax =
      response.bytes.slice l.rawOff rawOutMax := by
  have hOffsets := l.offsets
  unfold moveOutput
  by_cases hOut : 0 < rawOutMax
  · rw [if_pos ⟨hOut, by omega⟩]
    have hSame :=
      Bytes.slice_store_same response.bytes l.cmifOutEnd
        (response.bytes.slice l.rawOff rawOutMax)
    rwa [Bytes.length_slice] at hSame
  · have hZero : rawOutMax = 0 := by omega
    subst hZero
    rfl

theorem putDomainHeader_reply :
    (putDomainHeader l rawOutMax objects
        response).bytes.slice l.cmifOutEnd rawOutMax =
      response.bytes.slice l.cmifOutEnd rawOutMax := by
  have hOffsets := l.offsets
  unfold putDomainHeader
  cases hDomain : l.isDomainResp with
  | false => rfl
  | true =>
      simp only [hDomain, if_true] at hOffsets
      simp only [if_true, Buffer.bytes_put]
      rw [Bytes.slice_store_apart (Or.inl (Nat.le_refl _)),
        Bytes.slice_store_apart]
      right
      rw [Bytes.length_ofWords]
      simp only [List.length_cons, List.length_nil]
      omega

/- The output is behind the command header. -/
theorem buildResponse_reply
    (hR : r.Ordered respSize)
    (hOff : l.rawOff = r.rawOff) :
    let built :=
      buildResponse l r token rawOutMax objects response
    built.1.bytes.slice l.cmifOutEnd rawOutMax =
      response.bytes.slice l.rawOff rawOutMax := by
  intro built
  have hOffsets := l.offsets
  let framed :=
    putDomainHeader l rawOutMax objects
      (moveOutput l rawOutMax response)
  have hFramed :
      framed.bytes.slice l.cmifOutEnd rawOutMax =
        response.bytes.slice l.rawOff rawOutMax :=
    putDomainHeader_reply.trans moveOutput_reply
  have hBuilt :
      built.1 =
        putSpecialHeader r
          (putCommandHeader l token framed) :=
    rfl
  rw [hBuilt, slice_putSpecialHeader hR hOff (by omega),
    slice_putCommandHeader (Nat.le_refl _)]
  exact hFramed

/- The header of a domain counts the objects, and their ids
come last. -/
theorem buildResponse_objects
    (hR : r.Ordered respSize)
    (hOff : l.rawOff = r.rawOff)
    (hDomain : l.isDomainResp = true) :
    let built :=
      buildResponse l r token rawOutMax objects response
    built.1.bytes.word l.cmifOutOff =
        BitVec.ofNat 32 objects.length ∧
      built.1.bytes.slice (l.cmifOutEnd + rawOutMax)
          (Bytes.ofWords objects).length =
        Bytes.ofWords objects := by
  intro built
  have hOffsets := l.offsets
  rw [hDomain] at hOffsets
  simp only [if_true] at hOffsets
  let framed :=
    putDomainHeader l rawOutMax objects
      (moveOutput l rawOutMax response)
  have hFramed :
      framed.bytes.word l.cmifOutOff =
          BitVec.ofNat 32 objects.length ∧
        framed.bytes.slice (l.cmifOutEnd + rawOutMax)
            (Bytes.ofWords objects).length =
          Bytes.ofWords objects := by
    simp only [framed, putDomainHeader, hDomain, if_true,
      Buffer.bytes_put]
    refine ⟨?_, Bytes.slice_store_same _ _ _⟩
    rw [Bytes.word_store_apart (Or.inl (by omega))]
    have hCount :
        ∀ mem : Bytes,
          (mem.store l.cmifOutOff
            (Bytes.ofWords
              [BitVec.ofNat 32 objects.length, 0, 0,
                0])).word (l.cmifOutOff + 4 * 0) =
            BitVec.ofNat 32 objects.length :=
      fun mem => Bytes.word_store_words (by simp)
    exact hCount _
  have hHeaded :
      (putCommandHeader l token framed).bytes.word
          l.cmifOutOff = framed.bytes.word l.cmifOutOff :=
    Bytes.word_store_apart (Or.inl (by omega))
  have hBuilt :
      built.1 =
        putSpecialHeader r
          (putCommandHeader l token framed) :=
    rfl
  rw [hBuilt, word_putSpecialHeader hR hOff (Nat.le_refl _),
    slice_putSpecialHeader hR hOff (by omega), hHeaded,
    slice_putCommandHeader (Nat.le_add_right _ _)]
  exact hFramed

end Building

------
-- Requests That Are Answered
------

namespace Request

/- What a request is parsed as. -/
def parsed (req : Request) (isDomain : Bool) :
    ParsedRequest :=
  let head := req.message.parseHeader.value
  (req.message.parseRequest head.1 head.2 isDomain).value

/- The request closes its session. -/
def IsClose (req : Request) : Prop :=
  req.message.parseHeader.value.1.type = 2

instance (req : Request) : Decidable req.IsClose :=
  inferInstanceAs (Decidable (_ = _))

end Request

namespace IpcManager

/- A request that is answered by its session. -/
structure Reaches
    (mgr : IpcManager)
    (req : Request)
    (s : Session) : Prop where
  found : mgr.findSession req.session = some s
  message : 8 ≤ req.message.size
  open_ : ¬ req.IsClose
  room : 8 ≤ req.respSize
  service : s.service.isSome

variable {host : Host} {serve : ServiceCall → ServiceReply}
variable {mgr : IpcManager} {req : Request} {s : Session}

/- The response when a service is called. -/
def initialResponse (req : Request) (s : Session) : Buffer :=
  writeOwnHandle s req.session req.respSize
    (req.parsed s.isDomain) { bytes := req.response }

/- The space reserved for a request. -/
def reservation
    (host : Host)
    (req : Request)
    (s : Session) : Reservation :=
  reserve host s req.respSize (req.parsed s.isDomain)

/- What comes back for a request. -/
def dispatched
    (host : Host)
    (serve : ServiceCall → ServiceReply)
    (mgr : IpcManager)
    (req : Request)
    (s : Session) : Answer :=
  dispatch serve mgr req (req.parsed s.isDomain)
    (reservation host req s) (initialResponse req s)

/- The answer a request is responded with. -/
def answered
    (host : Host)
    (serve : ServiceCall → ServiceReply)
    (mgr : IpcManager)
    (req : Request)
    (s : Session) : Answer :=
  (dispatched host serve mgr req s).extract req.session
    (req.parsed s.isDomain).isControl
    (reservation host req s).rawOff
    (reservation host req s).handlePos

/- A request that reaches its service is responded to. -/
theorem Reaches.handleRequest_eq
    (hReach : Reaches mgr req s)
    (host : Host)
    (serve : ServiceCall → ServiceReply) :
    ∃ reads,
      handleRequest host serve mgr req =
        respond host req (req.parsed s.isDomain)
          (reservation host req s) reads
          (answered host serve mgr req s) := by
  have hSmall : ¬ req.message.size < 8 := by
    have hSize := hReach.message
    omega
  have hRoom : ¬ req.respSize < 8 := by
    have hSize := hReach.room
    omega
  have hService : ¬ s.service.isNone := by
    have hSome := hReach.service
    cases hNone : s.service with
    | none => simp [hNone] at hSome
    | some svc => simp
  have hOpen := hReach.open_
  unfold Request.IsClose at hOpen
  unfold handleRequest
  rw [hReach.found]
  simp only [if_neg hSmall, if_neg hOpen]
  unfold serveRequest
  rw [if_neg hRoom, if_neg hService]
  exact ⟨_, rfl⟩

/- A request is answered, closes the session, or neither. -/
theorem reaches_cases
    (mgr : IpcManager)
    (req : Request) :
    (∃ s, Reaches mgr req s) ∨
      (∃ s, mgr.findSession req.session = some s ∧
        8 ≤ req.message.size ∧ req.IsClose) ∨
      ((∀ s, ¬ Reaches mgr req s) ∧
        (∀ s, mgr.findSession req.session = some s →
          8 ≤ req.message.size → ¬ req.IsClose)) := by
  by_cases hReach : ∃ s, Reaches mgr req s
  · exact Or.inl hReach
  · by_cases hClose :
        ∃ s, mgr.findSession req.session = some s ∧
          8 ≤ req.message.size ∧ req.IsClose
    · exact Or.inr (Or.inl hClose)
    · refine Or.inr (Or.inr ⟨fun s h => hReach ⟨s, h⟩, ?_⟩)
      intro s hFind hSize hIs
      exact hClose ⟨s, hFind, hSize, hIs⟩

/- A close is answered with an empty header. -/
theorem handleRequest_of_close
    (hFind : mgr.findSession req.session = some s)
    (hSize : 8 ≤ req.message.size)
    (hClose : req.IsClose) :
    let o := handleRequest host serve mgr req
    o.response.writes = [⟨0, 8⟩] ∧
      o.respSize = 8 ∧
      o.manager = mgr.closeSession req.session ∧
      o.calls = [] ∧ o.objects = [] := by
  have hSmall : ¬ req.message.size < 8 := by omega
  unfold Request.IsClose at hClose
  unfold handleRequest
  rw [hFind]
  simp only [if_neg hSmall, if_pos hClose]
  simp [HipcHeader.toWords, Bytes.length_ofWords]

/- Any other request does nothing to the manager. -/
theorem handleRequest_of_not_reaches
    (hNot : ∀ s, ¬ Reaches mgr req s)
    (hOpen :
      ∀ s, mgr.findSession req.session = some s →
        8 ≤ req.message.size → ¬ req.IsClose) :
    let o := handleRequest host serve mgr req
    Span.Within req.respSize o.response.writes ∧
      o.respSize ≤ req.respSize ∧
      o.manager = mgr ∧ o.calls = [] ∧ o.objects = [] := by
  intro o
  cases hFind : mgr.findSession req.session with
  | none => simp [o, handleRequest, hFind]
  | some s =>
      by_cases hSmall : req.message.size < 8
      · simp [o, handleRequest, hFind, hSmall]
      · have hClose := hOpen s hFind (by omega)
        unfold Request.IsClose at hClose
        have hServe :
            ∃ reads,
              o =
                serveRequest host serve mgr req s
                  (req.parsed s.isDomain) reads := by
          simp only [o, handleRequest, hFind, if_neg hSmall,
            if_neg hClose]
          exact ⟨_, rfl⟩
        rcases hServe with ⟨reads, hServe⟩
        rw [hServe]
        unfold serveRequest
        by_cases hRoom : req.respSize < 8
        · simp [hRoom]
        · have hNone : s.service.isNone = true := by
            cases hService : s.service with
            | none => rfl
            | some svc =>
                refine absurd ?_ (hNot s)
                exact
                  ⟨hFind, by omega, hClose, by omega,
                    by simp [hService]⟩
          rw [if_neg hRoom, if_pos hNone]
          have hOrdered :
              (reserve host s req.respSize
                (req.parsed s.isDomain)).Ordered
                  req.respSize :=
            reserve_ordered (by omega) _ _ _
          refine ⟨?_, hOrdered.room, rfl, rfl, rfl⟩
          unfold writeOwnHandle
          split
          next hOwn =>
            have hEnd := hOwn.2.2
            simp only [Buffer.writes_put, List.nil_append,
              Span.within_cons, Bytes.length_ofWord,
              Span.within_nil, and_true]
            omega
          next => simp

------
-- Sessions and Their Changes
------

variable {f : Session → Session}

theorem find_updateFirst
    (hId : ∀ s, (f s).id = s.id)
    (sid sid' : U32)
    (sessions : List Session) :
    (updateFirst sid f sessions).find?
        (fun s => decide (s.id = sid')) =
      if sid' = sid then
        (sessions.find? fun s => decide (s.id = sid)).map f
      else
        sessions.find? fun s => decide (s.id = sid') := by
  induction sessions with
  | nil => simp [updateFirst]
  | cons s rest ih =>
      unfold updateFirst
      by_cases hHere : s.id = sid
      · by_cases hSame : sid' = sid
        · simp [hHere, hSame, hId]
        · have hOther : ¬ sid = sid' :=
            fun hEq => hSame hEq.symm
          simp [hHere, hSame, hOther, hId]
      · rw [if_neg hHere, List.find?_cons]
        by_cases hSame : sid' = sid
        · rw [hSame] at ih ⊢
          simpa [hHere] using ih
        · rw [if_neg hSame] at ih ⊢
          rw [ih, List.find?_cons]

/- A change of one session is seen through its id. -/
theorem findSession_updateSession
    (hId : ∀ s, (f s).id = s.id)
    (sid sid' : U32) :
    (mgr.updateSession sid f).findSession sid' =
      if sid' = sid then (mgr.findSession sid).map f
      else mgr.findSession sid' :=
  find_updateFirst hId sid sid' mgr.sessions

/- A new object leaves the session a domain. -/
theorem getIsDomain_addObject
    (sid : U32)
    (svc : ServiceRef) :
    (mgr.updateSession sid
        (Answer.addObject svc)).getIsDomain sid =
      mgr.getIsDomain sid := by
  have hId :
      ∀ s, (Answer.addObject svc s).id = s.id :=
    fun _ => rfl
  unfold getIsDomain
  rw [findSession_updateSession hId, if_pos rfl]
  cases mgr.findSession sid with
  | none => rfl
  | some s => rfl

end IpcManager

namespace Answer

variable {sid : U32} {rawOff : Nat} {handlePos : Option Nat}
variable {a : Answer}

theorem extract_getIsDomain
    (hHandled : a.handled = true) :
    (a.extract sid false rawOff
        handlePos).manager.getIsDomain sid =
      a.manager.getIsDomain sid := by
  rcases @extract_spec sid rawOff handlePos a hHandled with
    ⟨-, -, -, -, -, hSame, hObject, -⟩
  by_cases hFate :
      a.outputFate sid rawOff handlePos = .object
  · rcases hObject hFate with ⟨svc, -, hManager⟩
    rw [hManager, IpcManager.getIsDomain_addObject]
  · rw [hSame hFate]

/- Control answers are left alone. -/
theorem extract_control :
    a.extract sid true rawOff handlePos = a := by
  unfold extract
  simp

/- So are commands the service does not know. -/
theorem extract_unhandled
    {isControl : Bool}
    (hHandled : a.handled = false) :
    a.extract sid isControl rawOff handlePos = a := by
  unfold extract
  simp [hHandled]

end Answer

------
-- Bytes Written by a Request
------

namespace IpcManager

variable {host : Host} {serve : ServiceCall → ServiceReply}
variable {mgr : IpcManager} {req : Request} {s : Session}

/- What becomes of the output that came back. -/
def replyFate
    (host : Host)
    (serve : ServiceCall → ServiceReply)
    (mgr : IpcManager)
    (req : Request)
    (s : Session) : Answer.Fate :=
  if (req.parsed s.isDomain).isControl then .kept
  else
    (dispatched host serve mgr req s).outputFate req.session
      (reservation host req s).rawOff
      (reservation host req s).handlePos

/- The output goes to a buffer the client offered. -/
def Redirected
    (host : Host)
    (req : Request)
    (s : Session) : Prop :=
  (req.parsed s.isDomain).recvList ≠ [] ∧ host.mem.isSome

instance
    (host : Host)
    (req : Request)
    (s : Session) : Decidable (Redirected host req s) :=
  inferInstanceAs (Decidable (_ ∧ _))

/- Where the headers of the response are. -/
def layout
    (host : Host)
    (serve : ServiceCall → ServiceReply)
    (mgr : IpcManager)
    (req : Request)
    (s : Session) : ResponseLayout :=
  { rawOff := (reservation host req s).rawOff
    isDomainResp :=
      (dispatched host serve mgr req s).manager.getIsDomain
        req.session && !(req.parsed s.isDomain).isControl }

/- Bytes of an output that stay in the response. -/
def keptSize
    (host : Host)
    (serve : ServiceCall → ServiceReply)
    (mgr : IpcManager)
    (req : Request)
    (s : Session) : Nat :=
  if replyFate host serve mgr req s = .kept ∧
      ¬ Redirected host req s then
    (dispatched host serve mgr req s).rawOutMax
  else 0

/-
  A close has room for its header.  An answer has room for
  the headers, what is kept of the output, and a new object.
-/
def ResponseFits
    (host : Host)
    (serve : ServiceCall → ServiceReply)
    (mgr : IpcManager)
    (req : Request) : Prop :=
  (∀ s, mgr.findSession req.session = some s →
    8 ≤ req.message.size → req.IsClose → 8 ≤ req.respSize) ∧
  (∀ s, Reaches mgr req s →
    (dispatched host serve mgr req s).handled = true →
      (layout host serve mgr req s).cmifOutEnd +
          keptSize host serve mgr req s +
          (if replyFate host serve mgr req s = .object then 4
            else 0) ≤ req.respSize)

/- No answer has objects before handles are taken out. -/
theorem dispatched_objects :
    (dispatched host serve mgr req s).objects = [] := by
  unfold dispatched dispatch Answer.ofControl Answer.ofService
  split
  · split
    · rfl
    · split <;> rfl
  · split <;> rfl

/- The answer, as its parts were decided. -/
theorem answered_spec
    (hHandled :
      (dispatched host serve mgr req s).handled = true) :
    let a := dispatched host serve mgr req s
    let a' := answered host serve mgr req s
    let outcome := replyFate host serve mgr req s
    a'.handled = true ∧
      a'.calls = a.calls ∧
      a'.rawOutMax =
        (if outcome = .kept then a.rawOutMax else 0) ∧
      a'.objects =
        (if outcome = .object then
          [Answer.nextId a.manager req.session] else []) ∧
      a'.manager.getIsDomain req.session =
        a.manager.getIsDomain req.session ∧
      (outcome = .kept → a' = a) ∧
      (a'.response = a.response ∨
        ∃ pos w,
          (reservation host req s).handlePos = some pos ∧
          a'.response =
            a.response.put pos (Bytes.ofWord w)) := by
  intro a a' outcome
  cases hControl : (req.parsed s.isDomain).isControl with
  | true =>
      have hFate : outcome = .kept := by
        simp [outcome, replyFate, hControl]
      have hSame : a' = a := by
        simp only [a', answered, hControl]
        exact Answer.extract_control
      rw [hFate, hSame]
      simp [a, hHandled, dispatched_objects]
  | false =>
      have hFate :
          outcome =
            a.outputFate req.session
              (reservation host req s).rawOff
              (reservation host req s).handlePos := by
        simp [outcome, replyFate, hControl, a]
      have hExtract :
          a' =
            a.extract req.session false
              (reservation host req s).rawOff
              (reservation host req s).handlePos := by
        simp only [a', answered, hControl, a]
      have hDomain :=
        @Answer.extract_getIsDomain req.session
          (reservation host req s).rawOff
          (reservation host req s).handlePos a hHandled
      rcases @Answer.extract_spec req.session
          (reservation host req s).rawOff
          (reservation host req s).handlePos a hHandled with
        ⟨hDone, hCalls, hSize, hObjects, hKept, -, -, hResponse⟩
      rw [← hExtract] at hDone hCalls hSize hObjects
      rw [← hExtract] at hKept hResponse hDomain
      rw [← hFate] at hSize hObjects hKept
      have hNone : a.objects = [] := dispatched_objects
      rw [hNone] at hObjects
      exact
        ⟨hDone, hCalls, hSize, hObjects, hDomain, hKept,
          hResponse⟩

/- Only a new object changes the manager further. -/
theorem answered_manager
    (hFate :
      (dispatched host serve mgr req s).handled = true →
        replyFate host serve mgr req s ≠ .object) :
    (answered host serve mgr req s).manager =
      (dispatched host serve mgr req s).manager := by
  cases hControl : (req.parsed s.isDomain).isControl with
  | true =>
      simp only [answered, hControl]
      rw [Answer.extract_control]
  | false =>
      cases hHandled :
          (dispatched host serve mgr req s).handled with
      | false =>
          exact
            congrArg Answer.manager
              (Answer.extract_unhandled hHandled)
      | true =>
          simp only [answered, hControl]
          rcases @Answer.extract_spec req.session
              (reservation host req s).rawOff
              (reservation host req s).handlePos
              (dispatched host serve mgr req s) hHandled with
            ⟨-, -, -, -, -, hSame, -⟩
          refine hSame ?_
          simpa [replyFate, hControl] using hFate hHandled

/- The reservation of a request that is answered. -/
theorem Reaches.ordered
    (hReach : Reaches mgr req s)
    (host : Host) :
    (reservation host req s).Ordered req.respSize :=
  reserve_ordered hReach.room host s _

/- A service that keeps to its output keeps to the buffer. -/
theorem dispatched_within
    (hReach : Reaches mgr req s)
    (hServe :
      ∀ call, (serve call).written.length ≤ call.outMax) :
    Span.Within req.respSize
      (dispatched host serve mgr req s).response.writes := by
  have hOrdered := hReach.ordered host
  have hRoom := hOrdered.room
  have hInitial :
      Span.Within req.respSize
        (initialResponse req s).writes := by
    unfold initialResponse writeOwnHandle
    split
    next hOwn =>
      have hEnd := hOwn.2.2
      simp only [Buffer.writes_put, List.nil_append,
        Span.within_cons, Bytes.length_ofWord,
        Span.within_nil, and_true]
      omega
    next => simp
  unfold dispatched dispatch
  cases hControl : (req.parsed s.isDomain).isControl with
  | true =>
    -- a control command writes two or four bytes
    simp only [if_true]
    unfold Answer.ofControl
    split
    · split
      · simp only [Buffer.writes_put, Span.within_append,
          Span.within_cons, Bytes.length_ofWord,
          Span.within_nil, and_true]
        exact ⟨hInitial, by omega⟩
      · exact hInitial
    · split
      · split
        · simp only [Buffer.writes_put, Span.within_append,
            Span.within_cons, List.length_cons,
            List.length_nil, Span.within_nil, and_true]
          exact ⟨hInitial, by omega⟩
        · exact hInitial
      · exact hInitial
  | false =>
    simp only [Bool.false_eq_true, if_false]
    unfold Answer.ofService
    split
    next svc _ =>
      let call : ServiceCall :=
        { service := svc
          cmdId := (req.parsed s.isDomain).command.cmdId
          rawIn :=
            req.message.input (req.parsed s.isDomain).command
          outMax :=
            req.respSize - (reservation host req s).rawOff }
      have hLength := hServe call
      simp only [call] at hLength
      simp only [Buffer.writes_put, Span.within_append,
        Span.within_cons, Span.within_nil, and_true]
      exact ⟨hInitial, by omega⟩
    next => exact hInitial

/- Taking a handle out writes only to its reserved place. -/
theorem answered_within
    (hReach : Reaches mgr req s)
    (hServe :
      ∀ call, (serve call).written.length ≤ call.outMax) :
    Span.Within req.respSize
      (answered host serve mgr req s).response.writes := by
  have hOrdered := hReach.ordered host
  have hRoom := hOrdered.room
  have hDispatched : Span.Within req.respSize
      (dispatched host serve mgr req s).response.writes :=
    dispatched_within hReach hServe
  cases hHandled :
      (dispatched host serve mgr req s).handled with
  | false =>
      have hSame :
          answered host serve mgr req s =
            dispatched host serve mgr req s :=
        Answer.extract_unhandled hHandled
      rw [hSame]
      exact hDispatched
  | true =>
      rcases answered_spec hHandled with
        ⟨-, -, -, -, -, -, hResponse⟩
      rcases hResponse with hSame | ⟨pos, w, hPos, hPut⟩
      · rw [hSame]
        exact hDispatched
      · have hHandle := hOrdered.handle pos hPos
        rw [hPut, Buffer.writes_put, Span.within_append]
        simp only [Span.within_cons, Bytes.length_ofWord,
          Span.within_nil, and_true]
        exact ⟨hDispatched, by omega⟩

/- The header of a response that is this long. -/
def responseHeader
    (r : Reservation)
    (size : Nat) : HipcHeader where
  numDataWords := BitVec.ofNat 10 ((size - r.rawOff + 3) / 4)
  hasSpecialHeader := r.hasSpecialHeader

/- What is sent of a handled answer. -/
theorem respond_of_handled
    {p : ParsedRequest}
    {r : Reservation}
    {reads : List Span}
    {a : Answer}
    {l : ResponseLayout}
    {out : Nat}
    (hHandled : a.handled = true)
    (hLayout :
      l =
        { rawOff := r.rawOff
          isDomainResp :=
            a.manager.getIsDomain req.session &&
              !p.isControl })
    (hOut :
      out =
        if redirects host p a.rawOutMax then 0
        else a.rawOutMax) :
    let o := respond host req p r reads a
    let built :=
      buildResponse l r p.command.cmifToken out a.objects
        a.response
    o.respSize = built.2 ∧
      o.rawOff = r.rawOff ∧
      o.response =
        built.1.put 0
          (Bytes.ofWords
            (responseHeader r built.2).toWords) := by
  subst hLayout hOut
  unfold respond
  rw [if_pos hHandled]
  exact ⟨rfl, rfl, rfl⟩

/- The output that is left goes into the response. -/
theorem keptSize_eq
    (hHandled :
      (dispatched host serve mgr req s).handled = true) :
    keptSize host serve mgr req s =
      if redirects host (req.parsed s.isDomain)
          (answered host serve mgr req s).rawOutMax then 0
      else (answered host serve mgr req s).rawOutMax := by
  rcases answered_spec hHandled with ⟨-, -, hSize, -⟩
  rw [hSize]
  unfold keptSize redirects Redirected
  by_cases hKept : replyFate host serve mgr req s = .kept
  · by_cases hSome :
        (req.parsed s.isDomain).recvList ≠ [] ∧
          host.mem.isSome
    · rcases Nat.eq_zero_or_pos
          (dispatched host serve mgr req s).rawOutMax with
        hZero | hPos
      · simp [hKept, hZero]
      · simp [hKept, hSome, hPos]
    · have hEither :
          ¬ ((req.parsed s.isDomain).recvList ≠ [] ∧
            0 < (dispatched host serve mgr req s).rawOutMax ∧
              host.mem.isSome) :=
        fun hAll => hSome ⟨hAll.1, hAll.2.2⟩
      simp [hKept, hSome, hEither]
  · simp [hKept]

/- The response to a command that was handled, whole. -/
theorem Reaches.response_eq
    (hReach : Reaches mgr req s)
    (hHandled :
      (dispatched host serve mgr req s).handled = true) :
    let r := reservation host req s
    let a := answered host serve mgr req s
    let o := handleRequest host serve mgr req
    let built :=
      buildResponse (layout host serve mgr req s) r
        (req.parsed s.isDomain).command.cmifToken
        (keptSize host serve mgr req s) a.objects a.response
    o.respSize = built.2 ∧
      o.rawOff = r.rawOff ∧
      o.response =
        built.1.put 0
          (Bytes.ofWords
            (responseHeader r built.2).toWords) := by
  intro r a o built
  rcases answered_spec hHandled with
    ⟨hDone, -, -, -, hDomain, -⟩
  rcases hReach.handleRequest_eq host serve with ⟨reads, hEq⟩
  simp only [o, hEq]
  refine respond_of_handled hDone ?_ (keptSize_eq hHandled)
  rw [hDomain]
  rfl

/- Its header is in front of what was built. -/
theorem Reaches.response_of_handled
    (hReach : Reaches mgr req s)
    (hHandled :
      (dispatched host serve mgr req s).handled = true) :
    let r := reservation host req s
    let a := answered host serve mgr req s
    let o := handleRequest host serve mgr req
    let built :=
      buildResponse (layout host serve mgr req s) r
        (req.parsed s.isDomain).command.cmifToken
        (keptSize host serve mgr req s) a.objects a.response
    o.respSize = built.2 ∧
      o.rawOff = r.rawOff ∧
      (∃ hdr : HipcHeader,
        o.response =
          built.1.put 0 (Bytes.ofWords hdr.toWords)) := by
  rcases hReach.response_eq hHandled with
    ⟨hLength, hRaw, hResponse⟩
  exact ⟨hLength, hRaw, _, hResponse⟩

/- Only a domain has new objects. -/
theorem isDomainResp_of_object
    (hFate : replyFate host serve mgr req s = .object) :
    (layout host serve mgr req s).isDomainResp = true := by
  unfold replyFate at hFate
  unfold layout
  cases hControl : (req.parsed s.isDomain).isControl with
  | true =>
      simp only [hControl, if_true] at hFate
      cases hFate
  | false =>
      simp only [hControl, Bool.false_eq_true,
        if_false] at hFate
      unfold Answer.outputFate Answer.fate at hFate
      split at hFate
      · cases hFate
      · split at hFate
        · cases hFate
        · split at hFate
          next hDomain => simp [hDomain]
          next => cases hFate

/- The object takes four bytes at the end of a response. -/
theorem objects_size
    (hHandled :
      (dispatched host serve mgr req s).handled = true) :
    (if (layout host serve mgr req s).isDomainResp then
        (answered host serve mgr req s).objects.length * 4
      else 0) =
      if replyFate host serve mgr req s = .object then 4
      else 0 := by
  rcases answered_spec hHandled with ⟨-, -, -, hObjects, -⟩
  rw [hObjects]
  by_cases hFate : replyFate host serve mgr req s = .object
  · rw [isDomainResp_of_object hFate]
    simp [hFate]
  · simp [hFate]

theorem length_toWords (hdr : HipcHeader) :
    (Bytes.ofWords hdr.toWords).length = 8 := by
  simp [Bytes.length_ofWords, HipcHeader.toWords]

/- What it takes for the answer of a session to fit. -/
theorem Reaches.responseFits_iff (hReach : Reaches mgr req s) :
    ResponseFits host serve mgr req ↔
      ((dispatched host serve mgr req s).handled = true →
        (layout host serve mgr req s).cmifOutEnd +
            keptSize host serve mgr req s +
            (if replyFate host serve mgr req s = .object then 4
              else 0) ≤ req.respSize) := by
  constructor
  · intro hFits
    exact hFits.2 s hReach
  · intro hAnswer
    refine ⟨fun _ _ _ _ => hReach.room, ?_⟩
    intro s' hReach'
    have hSame : s' = s :=
      Option.some.inj
        (hReach'.found.symm.trans hReach.found)
    rw [hSame]
    exact hAnswer

/- A close has its header to fit and nothing else. -/
theorem responseFits_iff_of_close
    (hFind : mgr.findSession req.session = some s)
    (hSize : 8 ≤ req.message.size)
    (hClose : req.IsClose) :
    ResponseFits host serve mgr req ↔ 8 ≤ req.respSize := by
  constructor
  · intro hFits
    exact hFits.1 s hFind hSize hClose
  · intro hRoom
    exact
      ⟨fun _ _ _ _ => hRoom,
        fun _ hReach => absurd hClose hReach.open_⟩

/- An answer nobody handled is a header, and that has room. -/
theorem Reaches.within_of_unhandled
    (hReach : Reaches mgr req s)
    (hServe :
      ∀ call, (serve call).written.length ≤ call.outMax)
    (hHandled :
      (dispatched host serve mgr req s).handled = false) :
    Span.Within req.respSize
        (handleRequest host serve mgr req).response.writes ∧
      (handleRequest host serve mgr req).respSize ≤
        req.respSize := by
  have hWithin :
      Span.Within req.respSize
        (answered host serve mgr req s).response.writes :=
    answered_within hReach hServe
  rcases hReach.handleRequest_eq host serve with ⟨reads, hEq⟩
  have hSame :
      answered host serve mgr req s =
        dispatched host serve mgr req s :=
    Answer.extract_unhandled hHandled
  rw [hSame] at hWithin hEq
  rw [hEq]
  unfold respond
  simp only [hHandled, Bool.false_eq_true, if_false,
    Buffer.writes_put, Span.within_append, Span.within_cons,
    Span.within_nil, and_true, length_toWords]
  exact ⟨⟨hWithin, hReach.room⟩, (hReach.ordered host).room⟩

/-
  A handled answer stays in its buffer if the built response
  ends there.
-/
theorem Reaches.within_iff_of_handled
    (hReach : Reaches mgr req s)
    (hServe :
      ∀ call, (serve call).written.length ≤ call.outMax)
    (hHandled :
      (dispatched host serve mgr req s).handled = true) :
    Span.Within req.respSize
          (handleRequest host serve mgr req).response.writes ∧
        (handleRequest host serve mgr req).respSize ≤
          req.respSize ↔
      (layout host serve mgr req s).cmifOutEnd +
          keptSize host serve mgr req s +
          (if replyFate host serve mgr req s = .object then 4
            else 0) ≤ req.respSize := by
  have hWithin :
      Span.Within req.respSize
        (answered host serve mgr req s).response.writes :=
    answered_within hReach hServe
  rcases hReach.response_of_handled hHandled with
    ⟨hLength, -, hdr, hResponse⟩
  have hObjects := objects_size hHandled
  have hRoom := hReach.room
  have hBuilt :=
    @buildResponse_within_iff req.respSize
      (layout host serve mgr req s)
      (reservation host req s)
      (req.parsed s.isDomain).command.cmifToken
      (keptSize host serve mgr req s)
      (answered host serve mgr req s).objects
      (answered host serve mgr req s).response
      req.respSize (hReach.ordered host) rfl
  rw [hResponse, hLength]
  simp only [Buffer.writes_put, Span.within_append,
    Span.within_cons, Span.within_nil, and_true,
    length_toWords, hBuilt, hWithin, true_and]
  unfold buildResponse
  simp only [hObjects]
  omega

/-
  With a service that keeps to its output, the response stays
  in its buffer exactly when everything put around the output
  fits there too.
-/
theorem writes_within_iff
    (host : Host)
    (mgr : IpcManager)
    (req : Request)
    (serve : ServiceCall → ServiceReply)
    (hServe :
      ∀ call, (serve call).written.length ≤ call.outMax) :
    Span.Within req.respSize
          (handleRequest host serve mgr req).response.writes ∧
        (handleRequest host serve mgr req).respSize ≤
          req.respSize ↔
      ResponseFits host serve mgr req := by
  rcases reaches_cases mgr req with
    ⟨s, hReach⟩ | ⟨s, hFind, hSize, hClose⟩ | ⟨hNot, hOpen⟩
  · rw [hReach.responseFits_iff]
    cases hHandled :
        (dispatched host serve mgr req s).handled with
    | false =>
        simp only [Bool.false_eq_true, false_imp_iff, iff_true]
        exact hReach.within_of_unhandled hServe hHandled
    | true =>
        simp only [true_imp_iff]
        exact hReach.within_iff_of_handled hServe hHandled
  · rcases handleRequest_of_close hFind hSize hClose with
      ⟨hWrites, hLength, -⟩
    rw [responseFits_iff_of_close hFind hSize hClose, hWrites,
      hLength]
    simp
  · rcases handleRequest_of_not_reaches hNot hOpen with
      ⟨hWrites, hLength, -⟩
    have hFits : ResponseFits host serve mgr req :=
      ⟨fun s hFind hSize hClose =>
          absurd hClose (hOpen s hFind hSize),
        fun s hReach => absurd hReach (hNot s)⟩
    exact ⟨fun _ => hFits, fun _ => ⟨hWrites, hLength⟩⟩

/- Command 42 with no input, in a buffer of 256 bytes. -/
def sampleRequest : Request :=
  { session := 0x1000
    message :=
      sampleMessage [4, 6, 0, 0, CMIF_IN_MAGIC, 0, 42, 5] 256
    response := fun _ => 0
    respSize := 256 }

/- A service that puts out one word, where there is room. -/
def serveWord (w : U32) (call : ServiceCall) : ServiceReply :=
  { written := (Bytes.ofWord w).take call.outMax
    outSize := 4 }

/- A service that fills all the output it is given. -/
def serveFull (call : ServiceCall) : ServiceReply :=
  { written := List.replicate call.outMax 0xFF
    outSize := call.outMax }

theorem serveWord_fits :
    ResponseFits sampleHost (serveWord 5) sampleManager
      sampleRequest := by
  refine (writes_within_iff _ _ _ _ ?_).1 (by decide)
  intro call
  exact List.length_take_le _ _

theorem serveFull_overruns :
    (∀ call, (serveFull call).written.length ≤ call.outMax) ∧
      ¬ (handleRequest sampleHost serveFull sampleManager
          sampleRequest).respSize ≤ sampleRequest.respSize := by
  refine ⟨?_, by decide⟩
  intro call
  simp [serveFull]

------
-- Replies and Handles
------

/- What a request leaves behind besides the response. -/
theorem Reaches.effects
    (hReach : Reaches mgr req s)
    (host : Host)
    (serve : ServiceCall → ServiceReply) :
    let a := answered host serve mgr req s
    let o := handleRequest host serve mgr req
    o.manager = a.manager ∧ o.calls = a.calls ∧
      o.objects = a.objects := by
  intro a o
  rcases hReach.handleRequest_eq host serve with ⟨reads, hEq⟩
  simp only [o, hEq]
  unfold respond
  split <;> exact ⟨rfl, rfl, rfl⟩

/- The reply, as the service left it. -/
def replyBytes
    (host : Host)
    (serve : ServiceCall → ServiceReply)
    (mgr : IpcManager)
    (req : Request)
    (s : Session) : List U8 :=
  (dispatched host serve mgr req s).response.bytes.slice
    (reservation host req s).rawOff
    (dispatched host serve mgr req s).rawOutMax

/- The first word of an output is not that of a handle. -/
def LooksLikeData (a : Answer) (rawOff : Nat) : Prop :=
  a.rawOutMax < 4 ∨ a.response.bytes.word rawOff = 0 ∨
    ((a.response.bytes.word rawOff).toNat <
        Answer.pseudoHandles ∧
      a.manager.getServiceBySession
        (a.response.bytes.word rawOff) = none)

instance (a : Answer) (rawOff : Nat) :
    Decidable (LooksLikeData a rawOff) :=
  inferInstanceAs (Decidable (_ ∨ _ ∨ _))

/- Where no handle is expected the first word does not
matter; in a domain it must not look like one. -/
theorem replyFate_kept_iff
    (hRequest : (req.parsed s.isDomain).isControl = false)
    (hMode :
      (dispatched host serve mgr req s).manager.getIsDomain
          req.session = true ∨
        (reservation host req s).handlePos = none) :
    replyFate host serve mgr req s = .kept ↔
      ((dispatched host serve mgr req s).manager.getIsDomain
          req.session = true →
        LooksLikeData (dispatched host serve mgr req s)
          (reservation host req s).rawOff) := by
  let a := dispatched host serve mgr req s
  let w :=
    a.response.bytes.word (reservation host req s).rawOff
  show _ ↔
    (a.manager.getIsDomain req.session = true →
      a.rawOutMax < 4 ∨ w = 0 ∨
        (w.toNat < Answer.pseudoHandles ∧
          a.manager.getServiceBySession w = none))
  have hFate :
      replyFate host serve mgr req s =
        Answer.fate a.manager req.session
          (reservation host req s).handlePos a.rawOutMax w := by
    simp [replyFate, hRequest, Answer.outputFate, a, w]
  rw [hFate]
  unfold Answer.fate
  cases hDomain : a.manager.getIsDomain req.session with
  | false =>
      have hNone :
          (reservation host req s).handlePos = none := by
        rcases hMode with hIs | hNone
        · simp only [a] at hDomain
          rw [hDomain] at hIs
          cases hIs
        · exact hNone
      simp [hNone]
  | true =>
      simp only [Bool.not_true, Bool.false_eq_true, and_false,
        or_false, if_true, true_imp_iff]
      by_cases hPlain : a.rawOutMax < 4 ∨ w = 0
      · simp only [hPlain, if_true, true_iff]
        rcases hPlain with hShort | hZero
        · exact Or.inl hShort
        · exact Or.inr (Or.inl hZero)
      · rw [if_neg hPlain]
        by_cases hPseudo : Answer.pseudoHandles ≤ w.toNat
        · have hNot : ¬ w.toNat < Answer.pseudoHandles := by
            omega
          simp only [hPseudo, if_true, hNot, false_and,
            or_false]
          refine ⟨fun h => (by cases h), ?_⟩
          exact fun h => absurd h hPlain
        · have hReal : w.toNat < Answer.pseudoHandles := by
            omega
          rw [if_neg hPseudo]
          cases hLive : a.manager.getServiceBySession w with
          | none => simp [hReal]
          | some svc =>
              simp only [Option.isSome_some, if_true]
              refine ⟨fun h => (by cases h), ?_⟩
              rintro (hShort | hZero | ⟨-, hDead⟩)
              · exact absurd (Or.inl hShort) hPlain
              · exact absurd (Or.inr hZero) hPlain
              · cases hDead

/- The sample session as a domain. -/
def domainManager : IpcManager :=
  sampleManager.updateSession 0x1000 fun s =>
    { s with isDomain := true }

def domainSession : Session :=
  { sampleSession with isDomain := true }

/- Command 42 for object 1 of a domain. -/
def domainRequest : Request :=
  { session := 0x1000
    message :=
      sampleMessage
        [4, 10, 0, 0, 1, 1, 0, 0, CMIF_IN_MAGIC, 0, 42, 5] 256
    response := fun _ => 0
    respSize := 256 }

theorem domainRequest_reaches :
    Reaches domainManager domainRequest domainSession where
  found := rfl
  message := by decide
  open_ := by decide
  room := by decide
  service := rfl

end IpcManager

end M1Switch
