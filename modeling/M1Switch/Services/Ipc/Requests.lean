import M1Switch.Services.Ipc

/-
  What a request message is read as.

  The bytes that are read stay inside the message only if the
  message is as long as its header says and has the 32 bytes
  that are always logged.

  Key definitions include:
    * `Message.PartsInside`
    * `IpcManager.ReadsFit`

  Main results:
    * `reads_within_iff`
-/

------
-- Bytes Read by the Parser
------

namespace M1Switch

namespace Message

variable {m : Message} {hdr : HipcHeader} {dwOff : Nat}

theorem calcDataWordsOffset_reads :
    Span.Within m.size m.calcDataWordsOffset.reads := by
  unfold calcDataWordsOffset
  by_cases hSmall : m.size < 8
  · simp [hSmall]
  · have hHeader : 8 ≤ m.size := by omega
    by_cases hSpecial : m.header.hasSpecialHeader = 1
    · by_cases hShort : 8 + 4 > m.size
      · simp [hSmall, hSpecial, hHeader, hShort]
      · have hRoom : 12 ≤ m.size := by omega
        have hLong : ¬ m.size < 12 := by omega
        simp [hSmall, hSpecial, hHeader, hRoom, hLong]
    · have hNone :
          ¬ m.header.hasSpecialHeader = 1#1 := hSpecial
      simp [hSmall, hNone, hHeader]

/- The header is found without leaving the message. -/
theorem parseHeader_reads
    (hSize : 8 ≤ m.size) :
    Span.Within m.size m.parseHeader.reads := by
  unfold parseHeader
  simp only [Traced.reads_bind, Traced.reads_ite,
    Span.within_append]
  refine ⟨by simpa using hSize, calcDataWordsOffset_reads, ?_⟩
  split
  next hCheck =>
    simp [hCheck.2]
  next => simp

theorem parseEntries_reads_iff
    (off n : Nat) :
    Span.Within m.size (m.parseEntries off n).reads ↔
      n = 0 ∨ off + 8 * n ≤ m.size := by
  induction n generalizing off with
  | zero => simp [parseEntries]
  | succ n ih =>
      simp only [parseEntries, Traced.reads_bind,
        Traced.reads_pure,
        Span.within_append, Span.within_cons,
        Span.within_nil, and_true, ih]
      omega

theorem parseObjectId_reads_iff
    (isDomain : Bool) :
    Span.Within m.size
        (m.parseObjectId hdr dwOff isDomain).reads ↔
      (isDomain → 0 < hdr.numDataWords.toNat →
        calcCmifAlign dwOff + 16 ≤ m.size) := by
  unfold parseObjectId
  by_cases hRead : isDomain ∧ 0 < hdr.numDataWords.toNat
  · simp [hRead]
  · have hNone :
        isDomain = true → ¬ 0 < hdr.numDataWords.toNat :=
      fun hDomain hWords => hRead ⟨hDomain, hWords⟩
    simp only [if_neg hRead, Traced.reads_pure,
      Span.within_nil, true_iff]
    intro hDomain hWords
    exact absurd hWords (hNone hDomain)

/- The data words are aligned forwards. -/
theorem le_calcCmifAlign (off : Nat) :
    off ≤ calcCmifAlign off := by
  unfold calcCmifAlign
  omega

theorem parseCommand_reads_iff
    (isDomain : Bool) :
    Span.Within m.size
        (m.parseCommand hdr dwOff isDomain).reads ↔
      (0 < hdr.numDataWords.toNat →
        calcCmifAlign dwOff + (if isDomain then 16 else 0) +
          16 ≤ m.size) := by
  have hAlign := le_calcCmifAlign dwOff
  unfold parseCommand
  generalize (if isDomain then 16 else 0) = skip
  by_cases hWords : 0 < hdr.numDataWords.toNat
  · simp only [hWords, if_true, Traced.reads_bind,
      Traced.reads_ite, Traced.reads_pure,
      Span.within_append, Span.within_cons,
      Span.within_nil, and_true, true_imp_iff]
    refine ⟨fun h => h.1, fun h => ⟨h, ?_⟩⟩
    -- the first data word is not behind the command header
    split
    · simp
    · split
      · have hWord : dwOff + 4 ≤ m.size := by omega
        simp [hWord]
      · simp
  · simp [hWords]

/- The parts of a message that are read in full. -/
def PartsInside
    (m : Message)
    (hdr : HipcHeader)
    (dwOff : Nat)
    (isDomain : Bool) : Prop :=
  32 ≤ m.size ∧
    (0 < recvEntries hdr →
      recvListStart hdr dwOff + 8 * recvEntries hdr ≤
        m.size) ∧
    (0 < hdr.numDataWords.toNat →
      calcCmifAlign dwOff + (if isDomain then 16 else 0) +
        16 ≤ m.size)

theorem parseRequest_reads_iff
    (isDomain : Bool) :
    Span.Within m.size
        (m.parseRequest hdr dwOff isDomain).reads ↔
      m.PartsInside hdr dwOff isDomain := by
  unfold parseRequest PartsInside parseRecvList
  simp only [Traced.reads_bind,
    Span.within_append, Span.within_cons, Span.within_nil,
    parseEntries_reads_iff, parseObjectId_reads_iff,
    parseCommand_reads_iff]
  constructor
  · rintro ⟨hList, -, hCommand, hLogged, -⟩
    refine ⟨by omega, ?_, hCommand⟩
    intro hEntries
    omega
  · rintro ⟨hLogged, hList, hCommand⟩
    refine ⟨by omega, ?_, hCommand, by omega, trivial⟩
    intro hDomain hWords
    have hHeader := hCommand hWords
    simp only [hDomain, if_true] at hHeader
    omega

------
-- Bytes Read by a Request
------

/- A command of the usual format with some input. -/
def HasInput
    (m : Message)
    (hdr : HipcHeader)
    (dwOff : Nat)
    (isDomain : Bool) : Prop :=
  0 < hdr.numDataWords.toNat ∧
    m.data.word
      (calcCmifAlign dwOff + if isDomain then 16 else 0) =
        CMIF_IN_MAGIC ∧
    calcCmifAlign dwOff + 16 <
      dwOff + hdr.numDataWords.toNat * 4

/- Input starts behind the first header. -/
theorem parseCommand_input
    (m : Message)
    (hdr : HipcHeader)
    (dwOff : Nat)
    (isDomain : Bool) :
    let c := (m.parseCommand hdr dwOff isDomain).value
    (0 < c.rawInSize ↔ m.HasInput hdr dwOff isDomain) ∧
      (0 < c.rawInSize →
        c.rawIn = calcCmifAlign dwOff + 16) := by
  intro c
  by_cases hWords : 0 < hdr.numDataWords.toNat
  · by_cases hMagic :
        m.data.word
          (calcCmifAlign dwOff +
            if isDomain then 16 else 0) = CMIF_IN_MAGIC
    · have hSize :
          c.rawInSize =
            dwOff + hdr.numDataWords.toNat * 4 -
              (calcCmifAlign dwOff + 16) := by
        simp [c, parseCommand, hWords, hMagic]
      have hStart :
          c.rawIn =
            if calcCmifAlign dwOff + 16 <
                dwOff + hdr.numDataWords.toNat * 4 then
              calcCmifAlign dwOff + 16
            else 0 := by
        simp [c, parseCommand, hWords, hMagic]
      refine ⟨?_, ?_⟩
      · simp only [HasInput, hSize, hWords, hMagic, true_and]
        omega
      · intro hInput
        rw [hStart, if_pos (by omega)]
    · have hNone : c.rawInSize = 0 := by
        simp only [c, parseCommand, hWords, if_true,
          Traced.value_bind, hMagic,
          if_false]
        split <;> rfl
      simp [HasInput, hNone, hMagic]
  · have hNone : c.rawInSize = 0 := by
      simp [c, parseCommand, hWords]
    simp [HasInput, hNone, hWords]

end Message

namespace IpcManager

/- The trace looks at the first eight bytes of the input. -/
def TraceInside
    (host : Host)
    (s : Session)
    (req : Request)
    (hdr : HipcHeader)
    (dwOff : Nat) : Prop :=
  host.tracing → 8 ≤ req.respSize → s.service.isSome →
    req.message.HasInput hdr dwOff s.isDomain →
      calcCmifAlign dwOff + 24 ≤ req.message.size

/-
  Nothing is read of a request that is refused, and of a close
  only its header.  Any other message holds all its parts.
-/
def ReadsFit
    (host : Host)
    (mgr : IpcManager)
    (req : Request) : Prop :=
  ∀ s, mgr.findSession req.session = some s →
    8 ≤ req.message.size →
    let head := req.message.parseHeader.value
    head.1.type ≠ 2 →
      req.message.PartsInside head.1 head.2 s.isDomain ∧
        TraceInside host s req head.1 head.2

variable {host : Host} {serve : ServiceCall → ServiceReply}
variable {mgr : IpcManager} {req : Request} {s : Session}

theorem respond_reads
    (p : ParsedRequest)
    (r : Reservation)
    (reads : List Span)
    (a : Answer) :
    (respond host req p r reads a).reads = reads := by
  unfold respond
  split <;> rfl

theorem serveRequest_reads
    (p : ParsedRequest)
    (reads : List Span) :
    (serveRequest host serve mgr req s p reads).reads =
      reads ++
        if 8 ≤ req.respSize ∧ s.service.isSome then
          diagnosticReads host s req.message p.command
        else [] := by
  unfold serveRequest
  by_cases hRoom : req.respSize < 8
  · simp [hRoom]
  · by_cases hNone : s.service.isNone
    · have hService : s.service.isSome = false := by
        simpa using hNone
      simp [hRoom, hNone, hService]
    · have hService : s.service.isSome = true := by
        simpa [Option.isNone_iff_eq_none,
          ← Option.isSome_iff_ne_none] using hNone
      have hSpace : 8 ≤ req.respSize := by omega
      simp [hRoom, hNone, hService, hSpace, respond_reads]

theorem diagnosticReads_within_iff
    (m : Message)
    (c : Message.Command) :
    Span.Within m.size (diagnosticReads host s m c) ↔
      (host.tracing → 0 < c.rawInSize →
        c.rawIn + 8 ≤ m.size) := by
  unfold diagnosticReads
  rw [Span.within_append]
  have hHid :
      Span.Within m.size
        (if "hid".toList <:+: baseName s.serviceName then
          [⟨0, min m.size 32⟩] else []) := by
    split
    · simp only [Span.within_cons, Span.within_nil, and_true]
      omega
    · simp
  constructor
  · rintro ⟨hTrace, -⟩ hTracing hInput
    simpa [hTracing, hInput] using hTrace
  · intro hTrace
    refine ⟨?_, hHid⟩
    split
    next hOn =>
      simpa using hTrace hOn.1 hOn.2
    next => simp

/- The fields of a parsed request are what was parsed. -/
theorem parseRequest_command
    (m : Message)
    (hdr : HipcHeader)
    (dwOff : Nat)
    (isDomain : Bool) :
    (m.parseRequest hdr dwOff isDomain).value.command =
      (m.parseCommand hdr dwOff isDomain).value :=
  rfl

theorem serveRequest_within_iff
    {hdr : HipcHeader}
    {dwOff : Nat}
    {reads : List Span} :
    Span.Within req.message.size
        (serveRequest host serve mgr req s
          (req.message.parseRequest hdr dwOff
            s.isDomain).value reads).reads ↔
      Span.Within req.message.size reads ∧
        TraceInside host s req hdr dwOff := by
  have hInput :=
    Message.parseCommand_input req.message hdr dwOff s.isDomain
  rw [serveRequest_reads, Span.within_append,
    and_congr_right_iff]
  intro _
  unfold TraceInside
  split
  next hOn =>
    rw [diagnosticReads_within_iff, parseRequest_command,
      hInput.1]
    constructor
    · intro hTrace hTracing _ _ hHas
      have hStart := hInput.2 (hInput.1.2 hHas)
      have hEnd := hTrace hTracing hHas
      omega
    · intro hTrace hTracing hHas
      have hStart := hInput.2 (hInput.1.2 hHas)
      have hEnd := hTrace hTracing hOn.1 hOn.2 hHas
      omega
  next hOff =>
    simp only [Span.within_nil, true_iff]
    intro _ hRoom hService
    exact absurd ⟨hRoom, hService⟩ hOff

/-
  A request is read inside its message exactly when the message
  is long enough for what its header announces.
-/
theorem reads_within_iff
    (host : Host)
    (serve : ServiceCall → ServiceReply)
    (mgr : IpcManager)
    (req : Request) :
    Span.Within req.message.size
        (handleRequest host serve mgr req).reads ↔
      ReadsFit host mgr req := by
  unfold handleRequest ReadsFit
  cases hFind : mgr.findSession req.session with
  | none => simp
  | some s =>
      by_cases hSmall : req.message.size < 8
      · have hNot : ¬ 8 ≤ req.message.size := by omega
        simp [hSmall, hNot]
      · have hSize : 8 ≤ req.message.size := by omega
        have hHead := Message.parseHeader_reads hSize
        by_cases hClose :
            req.message.parseHeader.value.1.type = 2
        · simp [hSmall, hClose, hHead]
        · simp only [hSmall, hClose, if_false,
            serveRequest_within_iff, Span.within_append,
            hHead, Message.parseRequest_reads_iff,
            true_and, Option.some.injEq, forall_eq',
            hSize, true_imp_iff, ne_eq, not_false_eq_true]

/- A message that starts with some words, zeros behind. -/
def sampleMessage (ws : List U32) (size : Nat) : Message :=
  { data := Bytes.store (fun _ => 0) 0 (Bytes.ofWords ws)
    size := size }

def sampleHost : Host :=
  { nameOf := fun _ => "test:".toList }

/- Service 7 and a session on it. -/
def sampleManager : IpcManager :=
  ((registerService {} "test:".toList 7).connect
    "test:".toList).2

def sampleSession : Session :=
  { id := 0x1000
    serviceName := "test:".toList
    service := some 7 }

/- The shortest message that may come in a user buffer. -/
def shortRequest : Request :=
  { session := 0x1000
    message := sampleMessage [4, 0] 16
    response := fun _ => 0
    respSize := 16 }

theorem shortRequest_reads_outside :
    ¬ Span.Within shortRequest.message.size
      (handleRequest sampleHost (fun _ => {}) sampleManager
        shortRequest).reads := by
  decide

end IpcManager

end M1Switch
