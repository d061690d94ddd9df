import M1Switch.Gpu.Engine.GPFifo
import Mathlib.Data.List.TakeWhile
import Mathlib.Tactic.SplitIfs

/-
  Correctness of the pushbuffer parser.

  The parser's loop is the run of the packet scanner, so its
  behaviour on packet streams and on split streams comes from
  the scanner results.

  Key definitions include:
    * `GPFifo.Packet`
    * `encode`

  Main results:
    * `process_enginePackets`
    * `resumable_iff`
    * `hostPacketsSkipped_iff`
-/

------
-- The Loop Is A Scanner Run
------

namespace M1Switch

namespace GPFifo

/-
  Reading `count` words by position is mapping over the
  unread words.
-/
theorem range_map_getD
    {γ : Type}
    (words : List U32)
    (start count : Nat)
    (hFit : start + count ≤ words.length)
    (f : Nat → U32 → γ) :
    (List.range count).map
        (fun i => f i (words.getD (start + i) 0)) =
      ((words.drop start).take count).mapIdx f := by
  apply List.ext_getElem
  · simp
    omega
  · intro i hi hi'
    have hRead : start + i < words.length := by
      simp at hi
      omega
    simp [hRead]

/- Mapping that ignores the index. -/
theorem mapIdx_const
    {γ δ : Type}
    (f : γ → δ)
    (l : List γ) :
    l.mapIdx (fun _ a => f a) = l.map f := by
  apply List.ext_getElem <;> simp

/- The words from a header on. -/
theorem drop_eq_cons_of_getElem?
    {words : List U32} {pos : Nat} {header : U32}
    (hHeader : words[pos]? = some header) :
    words.drop pos = header :: words.drop (pos + 1) := by
  rcases List.getElem?_eq_some_iff.mp hHeader with
    ⟨hLt, rfl⟩
  exact List.drop_eq_getElem_cons hLt

/- One iteration of the loop is one packet step. -/
theorem processLoop_succ
    (words : List U32)
    (fuel pos : Nat)
    (writes : List MethodWrite) :
    processLoop words (fuel + 1) pos writes =
      match packetStep (words.drop pos) with
      | none => ⟨pos, writes⟩
      | some (n, out) =>
          processLoop words fuel (pos + n)
            (writes ++ out) := by
  cases hHeader : words[pos]? with
  | none =>
      have hEnd : words.drop pos = [] := by
        simpa using hHeader
      simp [processLoop, hHeader, hEnd, packetStep]
  | some header =>
      rcases List.getElem?_eq_some_iff.mp hHeader with
        ⟨hLt, _⟩
      rw [drop_eq_cons_of_getElem? hHeader]
      simp only [processLoop, hHeader, packetStep,
        isHostHeader, decide_eq_true_eq, List.length_drop]
      by_cases hHost :
          getSubchannel header = 0 ∧
            GpfifoHandler.handle (getMethod header)
              (getArg header) = true
      · simp only [if_pos hHost, List.append_nil]
      · simp only [if_neg hHost]
        -- The remaining branches differ by mode only.
        cases hMode : getMode header with
        | none =>
            simp [payloadLength, headerWrites, hMode]
        | some mode =>
            cases mode with
            | Increasing =>
                by_cases hFit :
                    pos + 1 + getArg header > words.length
                · have hCut :
                      ¬ getArg header ≤
                        words.length - (pos + 1) := by
                    omega
                  simp [payloadLength, hMode, hFit, hCut]
                · have hAll :
                      getArg header ≤
                        words.length - (pos + 1) := by
                    omega
                  simp only [payloadLength, headerWrites,
                    hMode, hFit, hAll, if_true, if_false]
                  exact congrArg
                    (fun out => processLoop words fuel _
                      (writes ++ out))
                    (range_map_getD words (pos + 1) _
                      (by omega) fun i w =>
                        (⟨getSubchannel header,
                          getMethod header + i, w⟩ :
                            MethodWrite))
            | NonIncreasing =>
                by_cases hFit :
                    pos + 1 + getArg header > words.length
                · have hCut :
                      ¬ getArg header ≤
                        words.length - (pos + 1) := by
                    omega
                  simp [payloadLength, hMode, hFit, hCut]
                · have hAll :
                      getArg header ≤
                        words.length - (pos + 1) := by
                    omega
                  simp only [payloadLength, headerWrites,
                    hMode, hFit, hAll, if_true, if_false]
                  have hReads :=
                    range_map_getD words (pos + 1)
                      (getArg header) (by omega) fun _ w =>
                        (⟨getSubchannel header,
                          getMethod header, w⟩ :
                            MethodWrite)
                  rw [mapIdx_const] at hReads
                  exact congrArg
                    (fun out => processLoop words fuel _
                      (writes ++ out)) hReads
            | Inline =>
                simp [payloadLength, headerWrites, hMode]
            | IncreaseOnce =>
                by_cases hFit : pos + 2 > words.length
                · have hCut :
                      ¬ 1 ≤ words.length - (pos + 1) := by
                    omega
                  simp [payloadLength, hMode, hFit, hCut]
                · have hAll :
                      1 ≤ words.length - (pos + 1) := by
                    omega
                  have hRead : pos + 1 < words.length := by
                    omega
                  simp only [payloadLength, headerWrites,
                    hMode, hFit, hAll, if_true, if_false]
                  rw [List.drop_eq_getElem_cons hRead]
                  simp only [List.take_succ_cons,
                    List.take_zero, List.map_cons,
                    List.map_nil,
                    List.getD_eq_getElem?_getD,
                    List.getElem?_eq_getElem hRead,
                    Option.getD_some]

/-
  From any position the loop adds the run of the unread
  words to what it has done so far.
-/
theorem processLoop_eq_runFuel
    (words : List U32)
    (fuel pos : Nat)
    (writes : List MethodWrite) :
    processLoop words fuel pos writes =
      ⟨pos + (scanner.runFuel fuel (words.drop pos)).1,
        writes ++
          (scanner.runFuel fuel (words.drop pos)).2⟩ := by
  induction fuel generalizing pos writes with
  | zero => simp [processLoop, Scanner.runFuel]
  | succ fuel ih =>
      have hScan : scanner.step = packetStep := rfl
      rw [processLoop_succ]
      cases hStep : packetStep (words.drop pos) with
      | none => simp [Scanner.runFuel, hScan, hStep]
      | some r =>
          rcases r with ⟨n, out⟩
          simp [Scanner.runFuel, hScan, hStep, ih,
            List.drop_drop, Nat.add_assoc]

/- The parser is the run of the packet scanner. -/
theorem process_eq_run (words : List U32) :
    process words =
      ⟨(scanner.run words).1, (scanner.run words).2⟩ := by
  rw [process, processLoop_eq_runFuel]
  simp [Scanner.run]

------
-- Packets
------

/- Payload words that follow a packet header. -/
def Mode.payloadLength (mode : Mode) (arg : Nat) : Nat :=
  match mode with
  | .Increasing => arg
  | .NonIncreasing => arg
  | .Inline => 0
  | .IncreaseOnce => 1

/-
  A well-formed packet: 3-bit subchannel, 13-bit method and
  argument, and a payload of exactly the declared length.
-/
structure Packet where
  mode : Mode
  subch : Fin 8
  method : Fin 8192
  arg : Fin 8192
  payload : List U32
  payload_length :
    payload.length = mode.payloadLength arg

namespace Packet

/- The header word of a packet. -/
def header (p : Packet) : U32 :=
  makeHeader p.mode (BitVec.ofNat 32 p.method)
    (BitVec.ofNat 32 p.arg) (BitVec.ofNat 32 p.subch)

/- The words of a packet. -/
def encode (p : Packet) : List U32 :=
  p.header :: p.payload

/- A packet on subchannel 0 whose method the host takes. -/
def isHost (p : Packet) : Bool :=
  (p.subch : Nat) = 0 ∧
    GpfifoHandler.handle p.method p.arg

/- The method writes an engine packet denotes. -/
def writes (p : Packet) : List MethodWrite :=
  match p.mode with
  | .Increasing =>
      p.payload.mapIdx fun i w =>
        ⟨p.subch, p.method + i, w⟩
  | .NonIncreasing =>
      p.payload.map fun w => ⟨p.subch, p.method, w⟩
  | .Inline =>
      [⟨p.subch, p.method, BitVec.ofNat 32 p.arg⟩]
  | .IncreaseOnce =>
      p.payload.map fun w => ⟨p.subch, p.method, w⟩

/- A 13-bit field passes its mask. -/
theorem toNat_ofNat_and_mask13 (n : Fin 8192) :
    (BitVec.ofNat 32 n &&& 0x1FFF#32).toNat = n := by
  have hMask : (0x1FFF#32).toNat = 2 ^ 13 - 1 := rfl
  rw [BitVec.toNat_and, hMask,
    Nat.and_two_pow_sub_one_eq_mod, BitVec.toNat_ofNat]
  omega

/- A 3-bit field passes its mask. -/
theorem toNat_ofNat_and_mask3 (n : Fin 8) :
    (BitVec.ofNat 32 n &&& 0x7#32).toNat = n := by
  have hMask : (0x7#32).toNat = 2 ^ 3 - 1 := rfl
  rw [BitVec.toNat_and, hMask,
    Nat.and_two_pow_sub_one_eq_mod, BitVec.toNat_ofNat]
  omega

@[simp] theorem getMethod_header (p : Packet) :
    getMethod p.header = p.method := by
  rw [header, getMethod_makeHeader, toNat_ofNat_and_mask13]

@[simp] theorem getArg_header (p : Packet) :
    getArg p.header = p.arg := by
  rw [header, getArg_makeHeader, toNat_ofNat_and_mask13]

@[simp] theorem getSubchannel_header (p : Packet) :
    getSubchannel p.header = p.subch := by
  rw [header, getSubchannel_makeHeader,
    toNat_ofNat_and_mask3]

@[simp] theorem getMode_header (p : Packet) :
    getMode p.header = some p.mode := by
  simp [header]

/- The header says whether the host takes the packet. -/
@[simp] theorem isHostHeader_header (p : Packet) :
    isHostHeader p.header = p.isHost := by
  simp only [isHostHeader, isHost, getSubchannel_header,
    getMethod_header, getArg_header]

/- The header declares the payload the packet has. -/
@[simp] theorem payloadLength_header (p : Packet) :
    payloadLength p.header = p.payload.length := by
  rw [p.payload_length]
  simp only [payloadLength, Mode.payloadLength,
    getMode_header, getArg_header]
  cases p.mode <;> rfl

/- Header and payload give the writes of the packet. -/
@[simp] theorem headerWrites_header (p : Packet) :
    headerWrites p.header p.payload = p.writes := by
  simp only [headerWrites, writes, getMode_header,
    getArg_header, getMethod_header, getSubchannel_header]
  cases p.mode <;> rfl

/- An engine packet is one step. -/
theorem step_encode_of_engine
    (p : Packet)
    (hEngine : p.isHost = false)
    (more : List U32) :
    scanner.step (p.encode ++ more) =
      some (p.encode.length, p.writes) := by
  change packetStep (p.header :: (p.payload ++ more)) = _
  simp only [packetStep, isHostHeader_header, hEngine,
    Bool.false_eq_true, if_false, payloadLength_header,
    List.length_append]
  rw [if_pos (Nat.le_add_right _ _), List.take_left,
    headerWrites_header]
  simp [encode, Nat.add_comm]

/- A host packet's header is a step of its own. -/
theorem step_encode_of_host
    (p : Packet)
    (hHost : p.isHost = true)
    (more : List U32) :
    scanner.step (p.encode ++ more) = some (1, []) := by
  change packetStep (p.header :: (p.payload ++ more)) = _
  simp [packetStep, hHost]

end Packet

------
-- Engine Packet Streams
------

/- The words of a packet stream. -/
def encodePackets (ps : List Packet) : List U32 :=
  ps.flatMap Packet.encode

/-
  A stream of engine packets is consumed whole and makes
  exactly the callbacks its packets denote.
-/
theorem process_enginePackets
    (ps : List {p : Packet // p.isHost = false}) :
    process (encodePackets (ps.map Subtype.val)) =
      ⟨(encodePackets (ps.map Subtype.val)).length,
        ps.flatMap fun p => p.1.writes⟩ := by
  have hRun :=
    scanner.run_flatMap_append Packet.encode Packet.writes
      (ps.map Subtype.val)
      (by
        intro p hp more
        rcases List.mem_map.mp hp with ⟨q, _, rfl⟩
        exact q.1.step_encode_of_engine q.2 more)
      []
  rw [List.append_nil, Scanner.run_nil] at hRun
  rw [process_eq_run, encodePackets, hRun]
  simp

/- A zero is a header without a mode, which is skipped. -/
theorem step_zero (more : List U32) :
    scanner.step (0 :: more) = some (1, []) := by
  change packetStep (0 :: more) = _
  have hHost : isHostHeader 0 = false := by decide
  have hLength : payloadLength 0 = 0 := rfl
  have hWrites : headerWrites 0 [] = [] := rfl
  simp only [packetStep, hHost, Bool.false_eq_true, if_false,
    hLength, Nat.zero_le, if_true, List.take_zero, hWrites]

/- Zeros behind a stream of engine packets make no callback. -/
theorem process_enginePackets_zeros
    (ps : List {p : Packet // p.isHost = false})
    (n : Nat) :
    (process
        (encodePackets (ps.map Subtype.val) ++
          List.replicate n 0)).writes =
      ps.flatMap fun p => p.1.writes := by
  have hZeros :
      scanner.run (List.replicate n (0 : U32)) = (n, []) := by
    have hRun :=
      scanner.run_flatMap_append (fun w => [w]) (fun _ => [])
        (List.replicate n 0)
        (by
          intro w hw more
          rw [(List.mem_replicate.mp hw).2]
          exact step_zero more)
        []
    rw [List.append_nil, Scanner.run_nil,
      List.flatMap_singleton'] at hRun
    rw [hRun, List.length_replicate,
      List.flatMap_eq_nil_iff.mpr fun _ _ => rfl]
    rfl
  have hRun :=
    scanner.run_flatMap_append Packet.encode Packet.writes
      (ps.map Subtype.val)
      (by
        intro p hp more
        rcases List.mem_map.mp hp with ⟨q, _, rfl⟩
        exact q.1.step_encode_of_engine q.2 more)
      (List.replicate n 0)
  rw [process_eq_run, encodePackets, hRun, hZeros]
  simp

------
-- Split Streams
------

/- Positions whose word the loop reads as a header. -/
def headerPositions (words : List U32) : List Nat :=
  scanner.heads words

/- The payload of the packet at the position is cut off by the
end of the words. -/
def CutOffAt (words : List U32) (pos : Nat) : Prop :=
  words.length < pos + 1 + payloadLength (words.getD pos 0)

/-
  A pushbuffer may arrive in pieces: the words left over by
  the first call are processed again in front of the next
  piece.  A packet that the end of a piece cuts off makes no
  callback: the callbacks are those of the words in front.
-/
structure Resumable (a b : List U32) : Prop where
  consumed_le : (process a).consumed ≤ a.length
  writes :
    (process a).writes ++
        (process
          (a.drop (process a).consumed ++ b)).writes =
      (process (a ++ b)).writes
  consumed :
    (process a).consumed +
        (process
          (a.drop (process a).consumed ++ b)).consumed =
      (process (a ++ b)).consumed
  cutOff :
    ∀ pos ∈ headerPositions a, CutOffAt a pos →
      (process a).writes = (process (a.take pos)).writes

/-
  A word that is stepped over alone and makes no callback: a
  header of the host, one of an unknown mode, or one that
  counts no payload.
-/
def Silent (word : U32) : Prop :=
  isHostHeader word = true ∨ getMode word = none ∨
    (getMode word = some .Increasing ∨
        getMode word = some .NonIncreasing) ∧
      getArg word = 0

instance (word : U32) : Decidable (Silent word) := by
  unfold Silent
  infer_instance

/- The first word that is not silent, if there is one, asks for
more payload than is left. -/
def Quiet (words : List U32) : Prop :=
  match words.dropWhile fun word => decide (Silent word) with
  | [] => True
  | header :: rest => rest.length < payloadLength header

/- One iteration on a header and the words behind it. -/
theorem step_cons (header : U32) (rest : List U32) :
    scanner.step (header :: rest) =
      if isHostHeader header then some (1, [])
      else if payloadLength header ≤ rest.length then
        some (1 + payloadLength header,
          headerWrites header
            (rest.take (payloadLength header)))
      else none :=
  rfl

/- A silent word is a step. -/
theorem step_of_silent
    {word : U32}
    (hSilent : Silent word)
    (rest : List U32) :
    scanner.step (word :: rest) = some (1, []) := by
  rw [step_cons]
  by_cases hHost : isHostHeader word = true
  · simp [hHost]
  · have hEngine : isHostHeader word = false := by
      simpa using hHost
    rcases hSilent with hYes | hMode | ⟨hMode | hMode, hArg⟩
    · exact absurd hYes hHost
    · simp [hEngine, payloadLength, headerWrites,
        hMode]
    · simp [hEngine, payloadLength, headerWrites,
        hMode, hArg]
    · simp [hEngine, payloadLength, headerWrites,
        hMode, hArg]

/- Any other header whose payload is there makes a callback. -/
theorem headerWrites_ne_nil
    {header : U32} {rest : List U32}
    (hLoud : ¬ Silent header)
    (hFit : payloadLength header ≤ rest.length) :
    headerWrites header (rest.take (payloadLength header)) ≠
      [] := by
  unfold Silent at hLoud
  push Not at hLoud
  rcases hLoud with ⟨-, hMode, hArg⟩
  unfold payloadLength at hFit
  unfold headerWrites payloadLength
  cases h : getMode header with
  | none => exact absurd h hMode
  | some mode =>
      have hSome : rest.take (getArg header) = [] →
          getArg header ≤ rest.length →
            getArg header = 0 := by
        intro hNil hLe
        have hLength := congrArg List.length hNil
        rw [List.length_take, min_eq_left hLe] at hLength
        exact hLength
      cases mode with
      | Increasing =>
          simp only [h] at hFit ⊢
          intro hNil
          exact hArg (.inl h)
            (hSome (List.mapIdx_eq_nil_iff.mp hNil) hFit)
      | NonIncreasing =>
          simp only [h] at hFit ⊢
          intro hNil
          exact hArg (.inr h)
            (hSome (List.map_eq_nil_iff.mp hNil) hFit)
      | Inline => simp
      | IncreaseOnce =>
          simp only [h] at hFit ⊢
          cases rest with
          | nil => simp at hFit
          | cons word rest => simp

/- Words make no callback exactly if they are quiet. -/
theorem run_eq_nil_iff (words : List U32) :
    (scanner.run words).2 = [] ↔ Quiet words := by
  induction words with
  | nil => simp [Quiet]
  | cons word rest ih =>
      by_cases hSilent : Silent word
      · rw [scanner.run_of_step (step_of_silent hSilent rest)]
        simpa [Quiet, hSilent] using ih
      · have hHost : isHostHeader word = false := by
          simpa using fun hYes => hSilent (.inl hYes)
        by_cases hFit : payloadLength word ≤ rest.length
        · have hStep :
              scanner.step (word :: rest) =
                some (1 + payloadLength word,
                  headerWrites word
                    (rest.take (payloadLength word))) := by
            rw [step_cons]
            simp [hHost, hFit]
          rw [scanner.run_of_step hStep]
          have hSome := headerWrites_ne_nil hSilent hFit
          simp [Quiet, hSilent, hSome, hFit]
        · have hStep : scanner.step (word :: rest) = none := by
            rw [step_cons]
            simp [hHost, hFit]
          rw [scanner.run_of_stop hStep]
          simpa [Quiet, hSilent] using hFit

/- A packet of an engine that is cut off is not stepped over. -/
theorem step_of_cutOff
    {words : List U32} {pos : Nat} {header : U32}
    (hHeader : words[pos]? = some header)
    (hEngine : isHostHeader header = false)
    (hCut : CutOffAt words pos) :
    scanner.step (words.drop pos) = none := by
  have hLt := (List.getElem?_eq_some_iff.mp hHeader).1
  rw [drop_eq_cons_of_getElem? hHeader, step_cons]
  unfold CutOffAt at hCut
  simp only [List.getD_eq_getElem?_getD, hHeader,
    Option.getD_some] at hCut
  simp only [hEngine, Bool.false_eq_true, if_false,
    List.length_drop]
  exact if_neg (by omega)

/- What is behind a header makes the callbacks that those of
the words in front lack. -/
theorem writes_eq_take_iff
    {words : List U32} {pos : Nat}
    (hPos : pos ∈ headerPositions words) :
    (process words).writes =
        (process (words.take pos)).writes ↔
      (scanner.run (words.drop pos)).2 = [] := by
  simp only [process_eq_run]
  rw [scanner.run_of_mem_heads hPos]
  exact List.append_right_eq_self

/-
  A pushbuffer is resumable exactly if the words behind every
  header of the host whose payload is cut off are quiet.
-/
theorem resumable_iff (a b : List U32) :
    Resumable a b ↔
      ∀ pos ∈ headerPositions a, CutOffAt a pos →
        isHostHeader (a.getD pos 0) = true →
          Quiet (a.drop (pos + 1)) := by
  have hRest :
      ∀ pos ∈ headerPositions a,
        isHostHeader (a.getD pos 0) = true →
          ((scanner.run (a.drop pos)).2 = [] ↔
            Quiet (a.drop (pos + 1))) := by
    intro pos hPos hHost
    have hNe : a[pos]? ≠ none := by
      intro hNone
      rw [List.getD_eq_getElem?_getD, hNone] at hHost
      exact absurd hHost (by decide)
    rcases Option.ne_none_iff_exists'.mp hNe with
      ⟨header, hHeader⟩
    rw [List.getD_eq_getElem?_getD, hHeader,
      Option.getD_some] at hHost
    rw [drop_eq_cons_of_getElem? hHeader,
      scanner.run_of_step (step_of_silent (.inl hHost) _)]
    exact run_eq_nil_iff _
  constructor
  · intro hResumable pos hPos hCut hHost
    apply (hRest pos hPos hHost).mp
    exact (writes_eq_take_iff hPos).mp
      (hResumable.cutOff pos hPos hCut)
  · intro hQuiet
    refine ⟨?_, ?_, ?_, ?_⟩
    · rw [process_eq_run]
      exact scanner.run_consumed_le a
    · simp only [process_eq_run]
      rw [scanner.run_append a b]
    · simp only [process_eq_run]
      rw [scanner.run_append a b]
    · intro pos hPos hCut
      rw [writes_eq_take_iff hPos]
      by_cases hHost : isHostHeader (a.getD pos 0) = true
      · exact (hRest pos hPos hHost).mpr
          (hQuiet pos hPos hCut hHost)
      · cases hHeader : a[pos]? with
        | none =>
            have hNil : a.drop pos = [] := by
              simpa using hHeader
            rw [hNil, scanner.run_nil]
        | some header =>
            rw [List.getD_eq_getElem?_getD, hHeader,
              Option.getD_some] at hHost
            rw [scanner.run_of_stop
              (step_of_cutOff hHeader (by simpa using hHost)
                hCut)]

/- A semaphore release of two payload words, of which one is
there and reads as an inline write. -/
def cutRelease : List U32 :=
  [ makeHeader .Increasing 0x006 2 0,
    makeHeader .Inline 0x35E 3 1 ]

/- The word that is there is called back. -/
theorem not_resumable_cutRelease : ¬ Resumable cutRelease [] := by
  intro hResumable
  have hWrites :=
    hResumable.cutOff 0 (by decide)
      (by unfold CutOffAt; decide)
  revert hWrites
  decide

------
-- Host Packets
------

/- The position holds a payload word of a host packet. -/
def HostPayloadAt (ps : List Packet) (pos : Nat) : Prop :=
  ∃ before h after, ps = before ++ h :: after ∧
    h.isHost = true ∧
    ∃ i, i < h.payload.length ∧
      pos = (encodePackets before).length + 1 + i

/-
  No payload word of a host packet is read as a header, and
  the callbacks are those of the stream without its host
  packets.
-/
def HostPacketsSkipped (ps : List Packet) : Prop :=
  (∀ pos ∈ headerPositions (encodePackets ps),
      ¬ HostPayloadAt ps pos) ∧
    (process (encodePackets ps)).writes =
      (process (encodePackets
        (ps.filter fun p => !p.isHost))).writes

/- The callbacks a packet stream should make. -/
def engineWrites (p : Packet) : List MethodWrite :=
  if p.isHost then [] else p.writes

/- A packet the loop steps over as a whole. -/
def StepsOver (p : Packet) : Prop :=
  p.isHost = true → p.payload = []

instance (p : Packet) : Decidable (StepsOver p) := by
  unfold StepsOver
  infer_instance

/- Packets that are stepped over are one step each. -/
theorem step_of_stepsOver
    (p : Packet)
    (hOver : StepsOver p)
    (more : List U32) :
    scanner.step (p.encode ++ more) =
      some (p.encode.length, engineWrites p) := by
  by_cases hHost : p.isHost = true
  · have hEmpty := hOver hHost
    rw [p.step_encode_of_host hHost more]
    simp [Packet.encode, engineWrites, hEmpty, hHost]
  · have hEngine : p.isHost = false := by
      simpa using hHost
    rw [p.step_encode_of_engine hEngine more]
    simp [engineWrites, hEngine]

/- Streams that are stepped over make the engine callbacks. -/
theorem process_writes_of_stepsOver
    (ps : List Packet)
    (hOver : ∀ p ∈ ps, StepsOver p) :
    (process (encodePackets ps)).writes =
      ps.flatMap engineWrites := by
  have hRun :=
    scanner.run_flatMap_append Packet.encode engineWrites ps
      (fun p hp => step_of_stepsOver p (hOver p hp)) []
  rw [List.append_nil, Scanner.run_nil] at hRun
  rw [process_eq_run, encodePackets, hRun]
  simp

/- Host packets contribute no callback. -/
theorem flatMap_engineWrites_filter (ps : List Packet) :
    (ps.filter fun p => !p.isHost).flatMap engineWrites =
      ps.flatMap engineWrites := by
  induction ps with
  | nil => rfl
  | cons p ps ih =>
      by_cases hHost : p.isHost = true
      · simp [hHost, ih, engineWrites]
      · simp [hHost, ih]

/-
  The first packet that is not stepped over has its first
  payload word read as a header.
-/
theorem headerPositions_of_not_stepsOver
    (before : List Packet)
    (h : Packet)
    (after : List Packet)
    (hBefore : ∀ p ∈ before, StepsOver p)
    (hHost : h.isHost = true)
    (hPayload : h.payload ≠ []) :
    (encodePackets before).length + 1 ∈
      headerPositions
        (encodePackets (before ++ h :: after)) := by
  have hHeads :=
    scanner.heads_flatMap_append Packet.encode engineWrites
      before
      (fun p hp => step_of_stepsOver p (hBefore p hp))
      (h.encode ++ encodePackets after)
      ((encodePackets before).length + 1)
  have hSplit :
      encodePackets (before ++ h :: after) =
        before.flatMap Packet.encode ++
          (h.encode ++ encodePackets after) := by
    simp [encodePackets]
  rw [headerPositions, hSplit, hHeads]
  refine Or.inr ⟨1, ?_, rfl⟩
  rw [scanner.heads_of_step
    (h.step_encode_of_host hHost (encodePackets after))]
  have hRest :
      (h.encode ++ encodePackets after).drop 1 =
        h.payload ++ encodePackets after := by
    simp [Packet.encode]
  rw [hRest]
  have hZero :
      0 ∈ scanner.heads
        (h.payload ++ encodePackets after) :=
    scanner.zero_mem_heads (by simp [hPayload])
  exact List.mem_cons_of_mem _
    (List.mem_map.mpr ⟨0, hZero, rfl⟩)

/-
  Host packets are skipped exactly in the streams whose host
  packets carry no payload.
-/
theorem hostPacketsSkipped_iff (ps : List Packet) :
    HostPacketsSkipped ps ↔
      ∀ p ∈ ps, p.isHost = true → p.payload = [] := by
  constructor
  · intro hSkipped
    by_contra hNot
    -- Split at the first packet that is not stepped over.
    have hRest :
        ps.dropWhile (fun p => decide (StepsOver p)) ≠
          [] := by
      intro hNil
      apply hNot
      intro p hp
      exact of_decide_eq_true
        (List.dropWhile_eq_nil_iff.mp hNil p hp)
    rcases List.exists_cons_of_ne_nil hRest with
      ⟨h, after, hDrop⟩
    have hOver :
        ∀ p ∈ ps.takeWhile
          (fun p => decide (StepsOver p)), StepsOver p := by
      intro p hp
      simpa using List.mem_takeWhile_imp hp
    have hHead : ¬ StepsOver h := by
      have hFirst :=
        List.head_dropWhile_not
          (fun p => decide (StepsOver p)) hRest
      simpa [hDrop] using hFirst
    have hSplit :
        ps = ps.takeWhile (fun p => decide (StepsOver p)) ++
          h :: after := by
      rw [← hDrop, List.takeWhile_append_dropWhile]
    unfold StepsOver at hHead
    push Not at hHead
    have hRead :=
      headerPositions_of_not_stepsOver _ h after hOver
        hHead.1 hHead.2
    rw [← hSplit] at hRead
    apply hSkipped.1 _ hRead
    exact ⟨_, h, after, hSplit, hHead.1, 0,
      List.length_pos_iff.mpr hHead.2, rfl⟩
  · intro hEmpty
    constructor
    · rintro pos - ⟨before, h, after, rfl, hHost, i, hi, -⟩
      rw [hEmpty h (by simp) hHost] at hi
      simp at hi
    · rw [process_writes_of_stepsOver ps hEmpty,
        process_writes_of_stepsOver _
          (fun p hp => hEmpty p (List.mem_of_mem_filter hp)),
        flatMap_engineWrites_filter]

/-
  A semaphore release whose payload word reads as an inline
  write of method 0x35E on subchannel 1.
-/
def semaphoreStream : List Packet :=
  [{ mode := .Increasing
     subch := 0
     method := 0x006
     arg := 1
     payload := [makeHeader .Inline 0x35E 3 1]
     payload_length := rfl }]

/- The payload of the semaphore release reaches an engine. -/
theorem semaphoreStream_not_skipped :
    ¬ HostPacketsSkipped semaphoreStream := by
  intro hSkipped
  have hWrites := hSkipped.2
  revert hWrites
  decide

end GPFifo

end M1Switch
