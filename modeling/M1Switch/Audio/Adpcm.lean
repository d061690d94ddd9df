import Mathlib.Data.Int.Bitwise
import Mathlib.Data.List.Basic
import M1Switch.Audio.RingBuffer
import M1Switch.Library.LoggedRun
import M1Switch.Library.WriteList

/-
  The ADPCM decoder, and what it submits to the ring.

  A frame is eight bytes: an initial sample, a step index, a
  byte of padding, and four bytes with two nibbles each.  The
  loop over these bytes takes seven of them, so a frame gives
  fifteen samples and the three bytes behind it are read.  The
  loop over the frames counts with fourteen.

  Key definitions include:
    * `decodeFrame`
    * `decodeFrames`

  Main results:
    * `decodeFrames_eq`
    * `keepsToFrames_iff`
    * `reads_submitAdpcm`
-/

------
-- The Decoder
------

namespace M1Switch

abbrev S16 := BitVec 16

/- A byte of the frames is read, or a sample is written. -/
inductive PcmEvent where
| read (i : Nat)
| write (i : Nat) (v : S16)

namespace AdpcmDecoder

abbrev FRAME_SIZE : U32 := 8
abbrev SAMPLES_PER_FRAME : U32 := 14

theorem toNat_FRAME_SIZE : FRAME_SIZE.toNat = 8 :=
  rfl

theorem toNat_SAMPLES_PER_FRAME : SAMPLES_PER_FRAME.toNat = 14 :=
  rfl

def sStepTable : List Int :=
  [7, 8, 9, 10, 11, 12, 13, 14, 16, 17,
    19, 21, 23, 25, 28, 31, 34, 37, 41, 45,
    50, 55, 60, 66, 73, 80, 88, 97, 107, 118,
    130, 143, 157, 173, 190, 209, 230, 253, 279, 307,
    337, 371, 408, 449, 494, 544, 598, 658, 724, 796,
    876, 963, 1060, 1166, 1282, 1411, 1552, 1707, 1878, 2066,
    2272, 2499, 2749, 3024, 3327, 3660, 4026, 4428, 4871, 5358,
    5892, 6481, 7129, 7841, 8624, 9486, 10434, 11477, 12625,
    13887,
    15276, 16803, 18483, 20331, 22364, 24600, 27060, 29766,
    32742]

abbrev STEP_TABLE_SIZE : Int := sStepTable.length

def decodeNibble (nibble : U8) (step : Int) : Int :=
  let stepHalf := step >>> 1
  let diff := if nibble &&& 4 ≠ 0 then step else 0
  let diff := if nibble &&& 2 ≠ 0 then diff + stepHalf else diff
  let diff :=
    if nibble &&& 1 ≠ 0 then diff + (stepHalf >>> 1) else diff
  let diff := diff + (stepHalf >>> 2)
  if nibble &&& 8 ≠ 0 then -diff else diff

def stepTable : List Int := [-1, -1, -1, -1, 2, 4, 6, 8]

/- To the indices of the table of steps. -/
def clampStep (index : Int) : Int :=
  let index := if index < 0 then 0 else index
  if STEP_TABLE_SIZE ≤ index then STEP_TABLE_SIZE - 1 else index

def nextStep (nibble : U8) (stepIndex : Int) : Int :=
  clampStep
    (stepIndex + stepTable.getD (nibble &&& 7).toNat 0)

/- To the values of a sample. -/
def clampSample (predictor : Int) : Int :=
  let predictor := if 32767 < predictor then 32767 else predictor
  if predictor < -32768 then -32768 else predictor

/- What the decoder of a frame keeps between samples. -/
structure FrameState where
  predictor : Int
  stepIndex : Int
  outIdx : U32

/- A byte from the start of the frames on.  What is behind the
frames may be anything. -/
def readByte
    (frames : Nat → U8)
    (i : Nat) : Logged PcmEvent U8 := do
  Logged.emit (.read i)
  pure (frames i)

def writeSample (s : FrameState) : Logged PcmEvent FrameState := do
  Logged.emit
    (.write s.outIdx.toNat (BitVec.ofInt 16 s.predictor))
  pure { s with outIdx := s.outIdx + 1 }

/- The sample of the nibble `n` of a byte. -/
def decodeSample
    (byte : U8)
    (n : Nat)
    (s : FrameState) : Logged PcmEvent FrameState :=
  let nibble := (byte >>> (n * 4)) &&& 0xF
  let step := sStepTable.getD s.stepIndex.toNat 0
  let diff := decodeNibble nibble step
  writeSample
    { s with
      predictor := clampSample (s.predictor + diff)
      stepIndex := nextStep nibble s.stepIndex }

/- The bytes with the given numbers, high nibble first. -/
def decodeBytes
    (frames : Nat → U8)
    (frame : Nat) :
    List Nat → FrameState → Logged PcmEvent FrameState
| [], s => pure s
| i :: is, s => do
    let byte ← readByte frames (frame + 4 + i)
    let s ← decodeSample byte 1 s
    let s ← decodeSample byte 0 s
    decodeBytes frames frame is s

/- The frame that starts with the byte `frame`. -/
def decodeFrame
    (frames : Nat → U8)
    (frame : Nat)
    (outIdx : U32) : Logged PcmEvent U32 := do
  let low ← readByte frames frame
  let high ← readByte frames (frame + 1)
  let index ← readByte frames (frame + 2)
  let s ←
    writeSample
      { predictor := (high ++ low).toInt
        stepIndex := clampStep index.toInt
        outIdx := outIdx }
  let s ← decodeBytes frames frame [0, 1, 2, 3, 4, 5, 6] s
  pure s.outIdx

/- A round of the loop over the frames: the number of the next
frame, and the place of the next sample. -/
def frameRound
    (frames : Nat → U8)
    (count maxSamples : U32)
    (s : U32 × U32) :
    Logged PcmEvent (Round (U32 × U32) U32) :=
  if s.1 < count ∧ s.2 + SAMPLES_PER_FRAME ≤ maxSamples then do
    let outIdx ←
      decodeFrame frames (s.1 * FRAME_SIZE).toNat s.2
    pure (.again (s.1 + 1, outIdx))
  else pure (.done s.2)

/- There are no more rounds than frames. -/
def decodeFrames
    (frames : Nat → U8)
    (count maxSamples : U32) : Logged PcmEvent U32 :=
  Logged.loop (frameRound frames count maxSamples)
    (count.toNat + 1) (0, 0)

end AdpcmDecoder

------
-- What a Decoder Should Do
------

namespace PcmEvent

/- The places of the bytes that are read. -/
def reads (log : List PcmEvent) : List Nat :=
  log.filterMap fun
    | .read i => some i
    | .write _ _ => none

/- The samples that are written, with their places. -/
def writes (log : List PcmEvent) : List (Nat × S16) :=
  log.filterMap fun
    | .read _ => none
    | .write i v => some (i, v)

/- The places of the samples that are written. -/
def places (log : List PcmEvent) : List Nat :=
  (writes log).map Prod.fst

@[simp] theorem reads_append (log log' : List PcmEvent) :
    reads (log ++ log') = reads log ++ reads log' :=
  List.filterMap_append

@[simp] theorem places_append (log log' : List PcmEvent) :
    places (log ++ log') = places log ++ places log' := by
  unfold places writes
  rw [List.filterMap_append, List.map_append]

@[simp] theorem reads_read (i : Nat) (log : List PcmEvent) :
    reads (.read i :: log) = i :: reads log :=
  rfl

end PcmEvent

namespace AdpcmDecoder

open PcmEvent

/- The frame `k`, decoded from its own eight bytes to its own
fourteen samples. -/
structure DecodesFrame (k : Nat) (part : List PcmEvent) : Prop where
  reads :
    ∀ i ∈ reads part,
      k * FRAME_SIZE.toNat ≤ i ∧ i < (k + 1) * FRAME_SIZE.toNat
  places :
    places part =
      List.range' (k * SAMPLES_PER_FRAME.toNat)
        SAMPLES_PER_FRAME.toNat

/- How many frames there are, and room for. -/
def framesThatFit (count maxSamples : U32) : Nat :=
  min count.toNat (maxSamples.toNat / SAMPLES_PER_FRAME.toNat)

/-
  A run keeps to the frames and to the room for samples, gives
  fourteen samples for each frame that fits, and decodes these
  frames one by one.
-/
structure KeepsToFrames
    (count maxSamples : U32)
    (run : Logged PcmEvent U32) : Prop where
  reads : ∀ i ∈ reads run.log, i < count.toNat * FRAME_SIZE.toNat
  places : ∀ i ∈ places run.log, i < maxSamples.toNat
  returns :
    run.value.map BitVec.toNat =
      some
        (SAMPLES_PER_FRAME.toNat * framesThatFit count maxSamples)
  frames :
    ∃ parts : List (List PcmEvent),
      run.log = parts.flatten ∧
        parts.length = framesThatFit count maxSamples ∧
        ∀ k part, parts[k]? = some part → DecodesFrame k part

------
-- What a Frame Gives
------

open PcmEvent

/- The routine reads the given bytes, and writes `n` samples
from the place `start` on. -/
def Gives
    (start n : Nat)
    (bytes : List Nat)
    (x : Logged PcmEvent FrameState) : Prop :=
  ∃ s, x.value = some s ∧ s.outIdx.toNat = start + n ∧
    reads x.log = bytes ∧ places x.log = List.range' start n

variable {start n n' : Nat} {bytes bytes' : List Nat}

theorem Gives.bind
    {x : Logged PcmEvent FrameState}
    {f : FrameState → Logged PcmEvent FrameState}
    (hFirst : Gives start n bytes x)
    (hRest :
      ∀ s, s.outIdx.toNat = start + n →
        Gives (start + n) n' bytes' (f s)) :
    Gives start (n + n') (bytes ++ bytes') (x >>= f) := by
  rcases hFirst with ⟨s, hValue, hIdx, hReads, hPlaces⟩
  rcases hRest s hIdx with ⟨t, hValue', hIdx', hReads', hPlaces'⟩
  unfold Gives
  rw [Logged.bind_of_some hValue]
  refine ⟨t, hValue', by rw [hIdx', Nat.add_assoc], ?_, ?_⟩
  · rw [reads_append, hReads, hReads']
  · rw [places_append, hPlaces, hPlaces', List.range'_append_1]

theorem gives_pure
    {s : FrameState}
    (hIdx : s.outIdx.toNat = start) :
    Gives start 0 [] (pure s) :=
  ⟨s, rfl, hIdx, rfl, rfl⟩

/- A byte that is read comes before what is done with it. -/
theorem gives_readByte
    {frames : Nat → U8}
    {i : Nat}
    {f : U8 → Logged PcmEvent FrameState}
    (hRest : Gives start n bytes (f (frames i))) :
    Gives start n (i :: bytes) (readByte frames i >>= f) := by
  rcases hRest with ⟨s, hValue, hIdx, hReads, hPlaces⟩
  have hByte : readByte frames i = ⟨some (frames i), [.read i]⟩ :=
    rfl
  unfold Gives
  rw [hByte, Logged.bind_of_some rfl]
  refine ⟨s, hValue, hIdx, ?_, hPlaces⟩
  exact congrArg (i :: ·) hReads

theorem gives_writeSample
    {s : FrameState}
    (hIdx : s.outIdx.toNat = start)
    (hRoom : start + 1 < 2 ^ 32) :
    Gives start 1 [] (writeSample s) := by
  refine ⟨{ s with outIdx := s.outIdx + 1 }, rfl, ?_, rfl, ?_⟩
  · show (s.outIdx + 1).toNat = start + 1
    bv_omega
  · show [s.outIdx.toNat] = List.range' start 1
    rw [hIdx]
    rfl

theorem gives_decodeSample
    {byte : U8}
    {i : Nat}
    {s : FrameState}
    (hIdx : s.outIdx.toNat = start)
    (hRoom : start + 1 < 2 ^ 32) :
    Gives start 1 [] (decodeSample byte i s) :=
  gives_writeSample hIdx hRoom

/- A byte gives two samples. -/
theorem gives_decodeBytes
    {frames : Nat → U8}
    {frame : Nat}
    {is : List Nat}
    {s : FrameState}
    (hIdx : s.outIdx.toNat = start)
    (hRoom : start + 2 * is.length < 2 ^ 32) :
    Gives start (2 * is.length) (is.map (frame + 4 + ·))
      (decodeBytes frames frame is s) := by
  induction is generalizing start s with
  | nil => exact gives_pure hIdx
  | cons i is ih =>
      rw [List.length_cons] at hRoom
      rw [List.length_cons, List.map_cons,
        show 2 * (is.length + 1) = 1 + (1 + 2 * is.length) by
          omega]
      apply gives_readByte
      apply Gives.bind (gives_decodeSample hIdx (by omega))
      intro s hIdx
      apply Gives.bind (gives_decodeSample hIdx (by omega))
      intro s hIdx
      exact ih hIdx (by omega)

theorem decodeBytes_append
    (frames : Nat → U8)
    (frame : Nat)
    (is js : List Nat)
    (s : FrameState) :
    decodeBytes frames frame (is ++ js) s =
      decodeBytes frames frame is s >>=
        decodeBytes frames frame js := by
  induction is generalizing s with
  | nil => exact (Logged.pure_bind s _).symm
  | cons i is ih =>
      rw [List.cons_append]
      simp only [decodeBytes, Logged.bind_assoc, ih]

/- What a frame gives up to some of its bytes. -/
def frameSamples
    (frames : Nat → U8)
    (frame : Nat)
    (outIdx : U32)
    (is : List Nat) : Logged PcmEvent FrameState := do
  let low ← readByte frames frame
  let high ← readByte frames (frame + 1)
  let index ← readByte frames (frame + 2)
  let s ←
    writeSample
      { predictor := (high ++ low).toInt
        stepIndex := clampStep index.toInt
        outIdx := outIdx }
  decodeBytes frames frame is s

theorem decodeFrame_eq
    (frames : Nat → U8)
    (frame : Nat)
    (outIdx : U32) :
    decodeFrame frames frame outIdx =
      frameSamples frames frame outIdx [0, 1, 2, 3, 4, 5, 6] >>=
        fun s => pure s.outIdx := by
  unfold frameSamples
  simp only [Logged.bind_assoc]
  rfl

theorem frameSamples_append
    (frames : Nat → U8)
    (frame : Nat)
    (outIdx : U32)
    (is js : List Nat) :
    frameSamples frames frame outIdx (is ++ js) =
      frameSamples frames frame outIdx is >>=
        decodeBytes frames frame js := by
  unfold frameSamples
  simp only [Logged.bind_assoc, decodeBytes_append]

theorem gives_frameSamples
    (frames : Nat → U8)
    (frame : Nat)
    {outIdx : U32}
    (is : List Nat)
    (hRoom : outIdx.toNat + (1 + 2 * is.length) < 2 ^ 32) :
    Gives outIdx.toNat (1 + 2 * is.length)
      (frame :: (frame + 1) :: (frame + 2) ::
        is.map (frame + 4 + ·))
      (frameSamples frames frame outIdx is) := by
  apply gives_readByte
  apply gives_readByte
  apply gives_readByte
  apply Gives.bind (gives_writeSample rfl (by dsimp only; omega))
  intro s hIdx
  exact gives_decodeBytes hIdx (by dsimp only at hIdx ⊢; omega)

/- A frame gives fifteen samples, and takes eleven bytes with a
gap. -/
theorem gives_decodeFrame
    (frames : Nat → U8)
    (frame : Nat)
    {outIdx : U32}
    (hRoom : outIdx.toNat + 15 < 2 ^ 32) :
    (decodeFrame frames frame outIdx).value =
        some (outIdx + 15) ∧
      places (decodeFrame frames frame outIdx).log =
        List.range' outIdx.toNat 15 ∧
      reads (decodeFrame frames frame outIdx).log =
        [frame, frame + 1, frame + 2, frame + 4, frame + 5,
          frame + 6, frame + 7, frame + 8, frame + 9,
          frame + 10] := by
  rcases
    gives_frameSamples frames frame [0, 1, 2, 3, 4, 5, 6] hRoom with
    ⟨s, hValue, hIdx, hReads, hPlaces⟩
  have hEnd : s.outIdx = outIdx + 15 := by
    change s.outIdx.toNat = outIdx.toNat + 15 at hIdx
    bv_omega
  rw [decodeFrame_eq, Logged.bind_of_some hValue]
  simp only [Logged.value_pure, Logged.log_pure, List.append_nil]
  exact ⟨congrArg some hEnd, hPlaces, hReads⟩

theorem exists_read_first
    (frames : Nat → U8)
    (frame i : Nat)
    (is : List Nat)
    (s : FrameState) :
    ∃ behind,
      (decodeBytes frames frame (i :: is) s).log =
        .read (frame + 4 + i) :: behind :=
  ⟨_, rfl⟩

/- The last byte is read before the fourteenth sample is
written. -/
theorem exists_read_last
    (frames : Nat → U8)
    (frame : Nat)
    {outIdx : U32}
    (hRoom : outIdx.toNat + 15 < 2 ^ 32) :
    ∃ before behind,
      (decodeFrame frames frame outIdx).log =
          before ++ .read (frame + 10) :: behind ∧
        places before = List.range' outIdx.toNat 13 := by
  have hFewer :
      outIdx.toNat + (1 + 2 * [0, 1, 2, 3, 4, 5].length) < 2 ^ 32 :=
    Nat.lt_of_le_of_lt (Nat.add_le_add_left (by decide) _) hRoom
  rcases
    gives_frameSamples frames frame [0, 1, 2, 3, 4, 5] hFewer with
    ⟨s, hValue, -, -, hPlaces⟩
  rcases
    gives_frameSamples frames frame [0, 1, 2, 3, 4, 5, 6] hRoom with
    ⟨t, hValue', -⟩
  have hSplit :=
    frameSamples_append frames frame outIdx [0, 1, 2, 3, 4, 5] [6]
  rw [Logged.bind_of_some hValue] at hSplit
  rcases exists_read_first frames frame 6 [] s with
    ⟨behind, hBehind⟩
  rw [decodeFrame_eq, Logged.bind_of_some hValue']
  refine ⟨_, behind, ?_, hPlaces⟩
  rw [← hBehind]
  simp only [Logged.log_pure, List.append_nil]
  exact congrArg Logged.log hSplit

------
-- What the Frames Give
------

open PcmEvent

variable {frames : Nat → U8} {count maxSamples : U32}

/- The frames that are begun. -/
def framesBegun (count maxSamples : U32) : Nat :=
  min count.toNat ((maxSamples.toNat + 1) / 15)

/- The part of the log that the frame `k` is behind of. -/
def frameLog (frames : Nat → U8) (k : Nat) : List PcmEvent :=
  (decodeFrame frames (k * 8) (BitVec.ofNat 32 (k * 15))).log

theorem frameRound_of_lt
    (hCount : count.toNat * 28 < 2 ^ 32)
    {k : Nat}
    (hBegun : k < framesBegun count maxSamples) :
    frameRound frames count maxSamples
        (BitVec.ofNat 32 k, BitVec.ofNat 32 (k * 15)) =
      ⟨some
          (.again
            (BitVec.ofNat 32 (k + 1),
              BitVec.ofNat 32 ((k + 1) * 15))),
        frameLog frames k⟩ := by
  unfold framesBegun at hBegun
  have hIndex : (BitVec.ofNat 32 k).toNat = k := by
    rw [BitVec.toNat_ofNat]
    omega
  have hPlace : (BitVec.ofNat 32 (k * 15)).toNat = k * 15 := by
    rw [BitVec.toNat_ofNat]
    omega
  have hFrame :
      (BitVec.ofNat 32 k * FRAME_SIZE).toNat = k * 8 := by
    rw [BitVec.toNat_mul, hIndex, toNat_FRAME_SIZE]
    omega
  have hGoes :
      BitVec.ofNat 32 k < count ∧
        BitVec.ofNat 32 (k * 15) + SAMPLES_PER_FRAME ≤
          maxSamples := by
    refine ⟨?_, ?_⟩
    · rw [BitVec.lt_def, hIndex]
      omega
    · rw [BitVec.le_def, BitVec.toNat_add, hPlace,
        toNat_SAMPLES_PER_FRAME]
      omega
  have hRoom :
      (BitVec.ofNat 32 (k * 15)).toNat + 15 < 2 ^ 32 := by omega
  rcases gives_decodeFrame frames (k * 8) hRoom with ⟨hValue, -⟩
  unfold frameRound
  rw [if_pos hGoes, hFrame, Logged.bind_of_some hValue]
  have hNext :
      BitVec.ofNat 32 (k * 15) + 15 =
        BitVec.ofNat 32 ((k + 1) * 15) := by
    rw [Nat.succ_mul]
    exact (BitVec.ofNat_add _ _).symm
  have hIndexNext : BitVec.ofNat 32 k + 1 = BitVec.ofNat 32 (k + 1) :=
    (BitVec.ofNat_add _ _).symm
  simp only [Logged.value_pure, Logged.log_pure,
    List.append_nil, hNext, hIndexNext, frameLog]

theorem frameRound_framesBegun
    (hCount : count.toNat * 28 < 2 ^ 32) :
    frameRound frames count maxSamples
        (BitVec.ofNat 32 (framesBegun count maxSamples),
          BitVec.ofNat 32 (framesBegun count maxSamples * 15)) =
      ⟨some
          (.done
            (BitVec.ofNat 32
              (framesBegun count maxSamples * 15))),
        []⟩ := by
  have hStops :
      ¬ (BitVec.ofNat 32 (framesBegun count maxSamples) < count ∧
        BitVec.ofNat 32 (framesBegun count maxSamples * 15) +
          SAMPLES_PER_FRAME ≤ maxSamples) := by
    rintro ⟨hLess, hRoom⟩
    rw [BitVec.lt_def] at hLess
    rw [BitVec.le_def] at hRoom
    rw [BitVec.toNat_ofNat] at hLess
    rw [BitVec.toNat_add, toNat_SAMPLES_PER_FRAME,
      BitVec.toNat_ofNat] at hRoom
    unfold framesBegun at hLess hRoom
    omega
  unfold frameRound
  rw [if_neg hStops]
  rfl

theorem loop_frameRound
    (hCount : count.toNat * 28 < 2 ^ 32)
    {k n fuel : Nat}
    (hRest : k + n = framesBegun count maxSamples)
    (hFuel : n < fuel) :
    Logged.loop (frameRound frames count maxSamples) fuel
        (BitVec.ofNat 32 k, BitVec.ofNat 32 (k * 15)) =
      ⟨some
          (BitVec.ofNat 32 (framesBegun count maxSamples * 15)),
        (List.range' k n).flatMap (frameLog frames)⟩ := by
  induction n generalizing k fuel with
  | zero =>
      rw [Nat.add_zero] at hRest
      cases fuel with
      | zero => omega
      | succ fuel =>
          rw [Logged.loop, hRest, frameRound_framesBegun hCount,
            Logged.bind_of_some rfl]
          rfl
  | succ n ih =>
      cases fuel with
      | zero => omega
      | succ fuel =>
          rw [Logged.loop,
            frameRound_of_lt hCount (by omega),
            Logged.bind_of_some rfl]
          dsimp only
          rw [ih (k := k + 1) (by omega) (by omega),
            List.range'_succ, List.flatMap_cons]

/- Frame by frame, each from its first byte on, to the fifteen
places behind those of the frames before. -/
theorem decodeFrames_eq
    (hCount : count.toNat * 28 < 2 ^ 32) :
    decodeFrames frames count maxSamples =
      ⟨some
          (BitVec.ofNat 32 (framesBegun count maxSamples * 15)),
        (List.range' 0 (framesBegun count maxSamples)).flatMap
          (frameLog frames)⟩ := by
  have hFuel : framesBegun count maxSamples < count.toNat + 1 :=
    Nat.lt_succ_of_le (Nat.min_le_left _ _)
  exact loop_frameRound hCount (Nat.zero_add _) hFuel

/-
  A part with the first fourteen places has the byte before the
  fourteenth of them, which is not of the first frame.
-/
theorem not_decodesFrame_zero
    {part rest log : List PcmEvent}
    (hLog : frameLog frames 0 ++ log = part ++ rest) :
    ¬ DecodesFrame 0 part := by
  intro hFrame
  have hRoom : (0 : U32).toNat + 15 < 2 ^ 32 := by decide
  rcases exists_read_last frames 0 hRoom with
    ⟨before, behind, hSplit, hBefore⟩
  have hPlaces : places part = List.range' 0 14 := hFrame.places
  have hHead : frameLog frames 0 = before ++ .read 10 :: behind :=
    hSplit
  rw [hHead, List.append_assoc, List.cons_append] at hLog
  rcases List.append_eq_append_iff.mp hLog with
    ⟨more, hPart, hMore⟩ | ⟨more, hShort, -⟩
  · cases more with
    | nil =>
        rw [hPart, List.append_nil, hBefore] at hPlaces
        exact absurd hPlaces (by decide)
    | cons e more =>
        rw [List.cons_append] at hMore
        have hRead : e = .read 10 := (List.cons.inj hMore).1.symm
        have hTen : 10 ∈ reads part := by
          rw [hPart, hRead, reads_append, reads_read]
          exact List.mem_append_right _ List.mem_cons_self
        exact absurd (hFrame.reads 10 hTen).2 (by decide)
  · have hLength := congrArg places hShort
    rw [places_append, hPlaces, hBefore] at hLength
    have hSum := congrArg List.length hLength
    rw [List.length_append, List.length_range',
      List.length_range'] at hSum
    omega

/- A frame that is begun is decoded to one sample too many. -/
theorem not_keepsToFrames
    (hCount : count.toNat * 28 < 2 ^ 32)
    (hSome : count.toNat ≠ 0)
    (hRoom : 14 ≤ maxSamples.toNat) :
    ¬ KeepsToFrames count maxSamples
      (decodeFrames frames count maxSamples) := by
  intro hKeeps
  rw [decodeFrames_eq hCount] at hKeeps
  rcases hKeeps.frames with ⟨parts, hLog, hLength, hParts⟩
  rcases
    Nat.exists_eq_succ_of_ne_zero
      (n := framesBegun count maxSamples)
      (by unfold framesBegun; omega) with
    ⟨n, hN⟩
  cases parts with
  | nil =>
      unfold framesThatFit at hLength
      rw [toNat_SAMPLES_PER_FRAME, List.length_nil] at hLength
      omega
  | cons part parts =>
      rw [hN, List.range'_succ, List.flatMap_cons,
        List.flatten_cons] at hLog
      exact not_decodesFrame_zero hLog (hParts 0 part rfl)

/- Where no frame is begun, there is nothing to keep to. -/
theorem keepsToFrames_of_none
    (hCount : count.toNat * 28 < 2 ^ 32)
    (hNone : count.toNat = 0 ∨ maxSamples.toNat < 14) :
    KeepsToFrames count maxSamples
      (decodeFrames frames count maxSamples) := by
  have hNotBegun : framesBegun count maxSamples = 0 := by
    unfold framesBegun
    omega
  have hNotFit : framesThatFit count maxSamples = 0 := by
    unfold framesThatFit
    rw [toNat_SAMPLES_PER_FRAME]
    omega
  rw [decodeFrames_eq hCount, hNotBegun]
  refine ⟨?_, ?_, ?_, [], rfl, hNotFit.symm, ?_⟩
  · intro i hI
    cases hI
  · intro i hI
    cases hI
  · rw [hNotFit]
    rfl
  · intro k part hPart
    cases hPart

theorem keepsToFrames_iff
    (hCount : count.toNat * 28 < 2 ^ 32) :
    KeepsToFrames count maxSamples
        (decodeFrames frames count maxSamples) ↔
      count = 0 ∨ maxSamples < SAMPLES_PER_FRAME := by
  have hZero : count = 0 ↔ count.toNat = 0 :=
    BitVec.toNat_inj.symm
  rw [hZero, BitVec.lt_def, toNat_SAMPLES_PER_FRAME]
  refine ⟨?_, keepsToFrames_of_none hCount⟩
  intro hKeeps
  by_contra hBegun
  rw [not_or, Nat.not_lt] at hBegun
  exact not_keepsToFrames hCount hBegun.1 hBegun.2 hKeeps

theorem keepsToFrames_iff_two :
    KeepsToFrames 2 13 (decodeFrames (fun _ => 0) 2 13) :=
  (keepsToFrames_iff (by decide)).mpr (Or.inr (by decide))

/- A frame with room for its fourteen samples. -/
theorem not_keepsToFrames_one :
    ¬ KeepsToFrames 1 14 (decodeFrames (fun _ => 0) 1 14) :=
  not_keepsToFrames (by decide) (by decide) (by decide)

theorem reads_flatMap
    (f : Nat → List PcmEvent)
    (ks : List Nat) :
    reads (ks.flatMap f) = ks.flatMap fun k => reads (f k) :=
  List.filterMap_flatMap

/- The last byte that is read for a frame. -/
theorem mem_reads_decodeFrames
    (frames : Nat → U8)
    (hCount : count.toNat * 28 < 2 ^ 32)
    {k : Nat}
    (hBegun : k < framesBegun count maxSamples) :
    k * 8 + 10 ∈
      reads (decodeFrames frames count maxSamples).log := by
  have hPlace : (BitVec.ofNat 32 (k * 15)).toNat = k * 15 := by
    unfold framesBegun at hBegun
    rw [BitVec.toNat_ofNat]
    omega
  have hRoom :
      (BitVec.ofNat 32 (k * 15)).toNat + 15 < 2 ^ 32 := by
    unfold framesBegun at hBegun
    omega
  have hFrame : k * 8 + 10 ∈ reads (frameLog frames k) := by
    unfold frameLog
    rw [(gives_decodeFrame frames _ hRoom).2.2]
    simp only [List.mem_cons, true_or, or_true]
  rw [decodeFrames_eq hCount, reads_flatMap]
  exact
    List.mem_flatMap.mpr
      ⟨k, List.mem_range'_1.mpr (by omega), hFrame⟩

end AdpcmDecoder

------
-- What Is Submitted
------

namespace AudioManager

open AdpcmDecoder PcmEvent

abbrev CHANNELS : U32 := 2

/- Each sample, for the left and for the right. -/
def stereo (pcm : Nat → S16) (i : Nat) : S16 := pcm (i / 2)

/-
  The samples are decoded to a vector of zeros.  There is no
  second branch for one channel: there are two.
-/
def submitAdpcm
    (initialized : Bool)
    (ring : RingBuffer S16)
    (frames : Option (Nat → U8))
    (frameCount : U32) :
    Logged PcmEvent (RingBuffer S16 × U32) :=
  match frames with
  | none => pure (ring, 0)
  | some frames =>
      if initialized = false ∨ frameCount = 0 then pure (ring, 0)
      else
        let maxSamples := frameCount * SAMPLES_PER_FRAME * CHANNELS
        let run := decodeFrames frames frameCount maxSamples
        let pcm := WriteList.apply (writes run.log) fun _ => 0
        run >>= fun decoded =>
          if 0 < decoded then
            pure (ring.write (stereo pcm) (decoded * 2))
          else pure (ring.write pcm decoded)

/-
  All frames are decoded, and then the three bytes behind them
  are read.
-/
theorem reads_submitAdpcm
    {ring : RingBuffer S16}
    {frames : Nat → U8}
    {count : U32}
    (hCount : count.toNat * 28 < 2 ^ 32)
    (hSome : count ≠ 0) :
    count.toNat * 8 + 2 ∈
      reads (submitAdpcm true ring (some frames) count).log := by
  have hPositive : count.toNat ≠ 0 := by
    intro hZero
    exact hSome (BitVec.eq_of_toNat_eq hZero)
  have hMax :
      (count * SAMPLES_PER_FRAME * CHANNELS).toNat =
        count.toNat * 28 := by
    rw [BitVec.toNat_mul, BitVec.toNat_mul,
      toNat_SAMPLES_PER_FRAME,
      show CHANNELS.toNat = 2 from rfl]
    omega
  have hBegun :
      count.toNat - 1 <
        framesBegun count
          (count * SAMPLES_PER_FRAME * CHANNELS) := by
    unfold framesBegun
    omega
  have hRead := mem_reads_decodeFrames frames hCount hBegun
  have hLast :
      (count.toNat - 1) * 8 + 10 = count.toNat * 8 + 2 := by
    omega
  rw [hLast] at hRead
  have hStarted : ¬ (true = false ∨ count = 0) := by
    rintro (hOff | hZero)
    · cases hOff
    · exact hSome hZero
  unfold submitAdpcm
  dsimp only
  rw [if_neg hStarted,
    Logged.bind_of_some
      (congrArg Logged.value (decodeFrames_eq hCount))]
  dsimp only
  rw [reads_append]
  exact List.mem_append_left _ hRead

theorem reads_submitAdpcm_one :
    10 ∈
      reads
        (submitAdpcm true { buf := fun _ => 0 }
          (some fun _ => 0) 1).log :=
  reads_submitAdpcm (by decide) (by decide)

end AudioManager

end M1Switch
