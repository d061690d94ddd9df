import M1Switch.Common.Types
import M1Switch.Library.Scanner
import Mathlib.Tactic.IntervalCases

/-
  The pushbuffer parser.

  A pushbuffer is a list of 32-bit words.  A packet is one
  header word, which carries the submission mode in bits
  31:29, the argument in bits 28:16, the subchannel in bits
  15:13 and the method in bits 12:0, followed by the payload
  words its mode asks for.

  `process` is the parser's loop over word positions.
  `packetStep` is one iteration of it on the unread words,
  and `scanner` packages that iteration with the facts that
  make the loop resumable.

  Key definitions include:
    * `makeHeader`
    * `process`
-/

------
-- Header Words
------

namespace M1Switch

namespace GPFifo

/- Submission modes. -/
inductive Mode where
  | Increasing
  | NonIncreasing
  | Inline
  | IncreaseOnce
deriving DecidableEq, Repr

/- The mode's header code. -/
def Mode.code : Mode → U32
| .Increasing => 1
| .NonIncreasing => 3
| .Inline => 4
| .IncreaseOnce => 5

def makeHeader
    (mode : Mode)
    (method arg subch : U32) : U32 :=
  (method &&& 0x1FFF#32) |||
    ((subch &&& 0x7#32) <<< 13) |||
    ((arg &&& 0x1FFF#32) <<< 16) |||
    ((mode.code &&& 0x7#32) <<< 29)

def getMethod (header : U32) : Nat :=
  (header &&& 0x1FFF#32).toNat

def getSubchannel (header : U32) : Nat :=
  ((header >>> 13) &&& 0x7#32).toNat

def getArg (header : U32) : Nat :=
  ((header >>> 16) &&& 0x1FFF#32).toNat

/- A code that is no enumerator falls to `default`. -/
def getMode (header : U32) : Option Mode :=
  match ((header >>> 29) &&& 0x7#32).toNat with
  | 1 => some .Increasing
  | 3 => some .NonIncreasing
  | 4 => some .Inline
  | 5 => some .IncreaseOnce
  | _ => none

/- The method field survives a header round trip. -/
@[simp] theorem getMethod_makeHeader
    (mode : Mode)
    (method arg subch : U32) :
    getMethod (makeHeader mode method arg subch) =
      (method &&& 0x1FFF#32).toNat := by
  unfold getMethod makeHeader
  congr 1
  ext i hi
  simp only [BitVec.getElem_and, BitVec.getElem_or,
    BitVec.getElem_shiftLeft]
  interval_cases i <;> simp

/- The subchannel field survives a header round trip. -/
@[simp] theorem getSubchannel_makeHeader
    (mode : Mode)
    (method arg subch : U32) :
    getSubchannel (makeHeader mode method arg subch) =
      (subch &&& 0x7#32).toNat := by
  unfold getSubchannel makeHeader
  congr 1
  ext i hi
  simp only [BitVec.getElem_and, BitVec.getElem_ushiftRight,
    BitVec.getLsbD_or, BitVec.getLsbD_and,
    BitVec.getLsbD_shiftLeft]
  interval_cases i <;> simp

/- The argument field survives a header round trip. -/
@[simp] theorem getArg_makeHeader
    (mode : Mode)
    (method arg subch : U32) :
    getArg (makeHeader mode method arg subch) =
      (arg &&& 0x1FFF#32).toNat := by
  unfold getArg makeHeader
  congr 1
  ext i hi
  simp only [BitVec.getElem_and, BitVec.getElem_ushiftRight,
    BitVec.getLsbD_or, BitVec.getLsbD_and,
    BitVec.getLsbD_shiftLeft]
  interval_cases i <;> simp

/- The mode field survives a header round trip. -/
@[simp] theorem getMode_makeHeader
    (mode : Mode)
    (method arg subch : U32) :
    getMode (makeHeader mode method arg subch) =
      some mode := by
  have hCode :
      (makeHeader mode method arg subch >>> 29) &&&
          0x7#32 =
        mode.code &&& 0x7#32 := by
    unfold makeHeader
    ext i hi
    simp only [BitVec.getElem_and,
      BitVec.getElem_ushiftRight, BitVec.getLsbD_or,
      BitVec.getLsbD_and, BitVec.getLsbD_shiftLeft]
    interval_cases i <;> simp
  unfold getMode
  rw [hCode]
  cases mode <;> rfl

end GPFifo

------
-- Host-Channel Methods
------

/- Host-channel methods, by their method number. -/
namespace GpfifoMethod

def SemaphoreOffset : Nat := 0x004
def SemaphorePayload : Nat := 0x006
def Semaphore : Nat := 0x007
def SetReference : Nat := 0x014
def SyncpointPayload : Nat := 0x01C
def Syncpoint : Nat := 0x01D

end GpfifoMethod

/-
  `true` for the methods the host channel takes.  The
  argument is only logged.
-/
def GpfifoHandler.handle (method _arg : Nat) : Bool :=
  method == GpfifoMethod.SemaphoreOffset ||
    method == GpfifoMethod.SemaphorePayload ||
    method == GpfifoMethod.Semaphore ||
    method == GpfifoMethod.SetReference ||
    method == GpfifoMethod.SyncpointPayload ||
    method == GpfifoMethod.Syncpoint

------
-- The Parser Loop
------

namespace GPFifo

/- One decoded method write, as passed to the callback. -/
structure MethodWrite where
  subch : Nat
  method : Nat
  value : U32
deriving DecidableEq, Repr

/- The words consumed and the callbacks made, in order. -/
structure ProcessResult where
  consumed : Nat
  writes : List MethodWrite
deriving DecidableEq, Repr

/-
  The `while` loop.  Each iteration advances `pos`, so
  `words.length` iterations are enough.
-/
def processLoop
    (words : List U32) :
    Nat → Nat → List MethodWrite → ProcessResult
| 0, pos, writes => ⟨pos, writes⟩
| fuel + 1, pos, writes =>
    match words[pos]? with
    | none => ⟨pos, writes⟩
    | some header =>
        let mode := getMode header
        let method := getMethod header
        let arg := getArg header
        let subch := getSubchannel header
        -- Host-channel commands skip the header word only.
        if subch = 0 ∧ GpfifoHandler.handle method arg then
          processLoop words fuel (pos + 1) writes
        else
          match mode with
          | some .Increasing =>
              if pos + 1 + arg > words.length then
                ⟨pos, writes⟩
              else
                processLoop words fuel (pos + (1 + arg))
                  (writes ++ (List.range arg).map fun i =>
                    ⟨subch, method + i,
                      words.getD (pos + 1 + i) 0⟩)
          | some .NonIncreasing =>
              if pos + 1 + arg > words.length then
                ⟨pos, writes⟩
              else
                processLoop words fuel (pos + (1 + arg))
                  (writes ++ (List.range arg).map fun i =>
                    ⟨subch, method,
                      words.getD (pos + 1 + i) 0⟩)
          | some .Inline =>
              processLoop words fuel (pos + 1)
                (writes ++
                  [⟨subch, method, BitVec.ofNat 32 arg⟩])
          | some .IncreaseOnce =>
              if pos + 2 > words.length then
                ⟨pos, writes⟩
              else
                processLoop words fuel (pos + 2)
                  (writes ++
                    [⟨subch, method,
                      words.getD (pos + 1) 0⟩])
          | none =>
              processLoop words fuel (pos + 1) writes

/- Parse a pushbuffer from its first word. -/
def process (words : List U32) : ProcessResult :=
  processLoop words words.length 0 []

------
-- One Iteration On The Unread Words
------

/- The header at hand is taken by the host channel. -/
def isHostHeader (header : U32) : Bool :=
  getSubchannel header = 0 ∧
    GpfifoHandler.handle (getMethod header) (getArg header)

/- Payload words behind a header the engines receive. -/
def payloadLength (header : U32) : Nat :=
  match getMode header with
  | some .Increasing => getArg header
  | some .NonIncreasing => getArg header
  | some .Inline => 0
  | some .IncreaseOnce => 1
  | none => 0

/- Writes of an engine header and its payload. -/
def headerWrites
    (header : U32)
    (payload : List U32) : List MethodWrite :=
  let method := getMethod header
  let subch := getSubchannel header
  match getMode header with
  | some .Increasing =>
      payload.mapIdx fun i w => ⟨subch, method + i, w⟩
  | some .NonIncreasing =>
      payload.map fun w => ⟨subch, method, w⟩
  | some .Inline =>
      [⟨subch, method, BitVec.ofNat 32 (getArg header)⟩]
  | some .IncreaseOnce =>
      payload.map fun w => ⟨subch, method, w⟩
  | none => []

/- One iteration, on the words from the header on. -/
def packetStep :
    List U32 → Option (Nat × List MethodWrite)
| [] => none
| header :: rest =>
    if isHostHeader header then some (1, [])
    else if payloadLength header ≤ rest.length then
      some (1 + payloadLength header,
        headerWrites header
          (rest.take (payloadLength header)))
    else none

/- The iteration as a scanner. -/
def scanner : Scanner U32 MethodWrite where
  step := packetStep
  progress := by
    intro input n out hStep
    cases input with
    | nil => simp [packetStep] at hStep
    | cons header rest =>
        simp only [packetStep] at hStep
        split_ifs at hStep with hHost hFit
        · simp only [Option.some.injEq, Prod.mk.injEq]
            at hStep
          rcases hStep with ⟨rfl, rfl⟩
          simp
        · simp only [Option.some.injEq, Prod.mk.injEq]
            at hStep
          rcases hStep with ⟨rfl, rfl⟩
          simp only [List.length_cons]
          omega
  determined := by
    intro input n out hStep more
    cases input with
    | nil => simp [packetStep] at hStep
    | cons header rest =>
        simp only [packetStep] at hStep
        split_ifs at hStep with hHost hFit
        · simp only [Option.some.injEq, Prod.mk.injEq]
            at hStep
          rcases hStep with ⟨rfl, rfl⟩
          simp [packetStep, hHost]
        · simp only [Option.some.injEq, Prod.mk.injEq]
            at hStep
          rcases hStep with ⟨rfl, rfl⟩
          have hLen :
              (rest.take (payloadLength header)).length =
                payloadLength header := by
            simpa using hFit
          rw [Nat.add_comm, List.take_succ_cons,
            List.cons_append]
          simp only [packetStep, hHost, Bool.false_eq_true,
            if_false, List.length_append, hLen]
          rw [if_pos (Nat.le_add_right _ _),
            List.take_left' hLen, Nat.add_comm]

end GPFifo

end M1Switch
