import M1Switch.Library.RecordBytes
import M1Switch.Loader.Nro.Image
import M1Switch.Memory.Isolation

/-
  The NSO loader of src/loader/NsoLoader.cpp.

  An NSO has up to three segments.  Each is mapped, filled with
  what its data in the file is unpacked to, and patched if it
  is the text.  Zeroed memory is mapped behind the last.  The
  guest is reached through host pointers: a load that touches
  memory which is not mapped is stopped by the host.

  Key definitions include:
    * `decompressLz4`
    * `loadSegment`
-/

------
-- Host Memory
------

namespace M1Switch

namespace HostMemory

/- The host pointer of a guest address. -/
def pointer (address : U64) : Option U64 :=
  if address < ADDR_SPACE_SIZE then some (baseAddr + address)
  else none

/- Fill a range with bytes. -/
def fillRange
    (mem : HostMemory)
    (start count : Nat)
    (source : Bytes) : Option HostMemory :=
  if mem.Mapped start count then
    some
      { mem with
        bytes := fun i =>
          if start ≤ i ∧ i < start + count then
            some (source (i - start))
          else mem.bytes i }
  else none

end HostMemory

------
-- Decompression
------

namespace NsoLoader

/- The magic of an LZ4 frame, at the start of some data. -/
def isLZ4Compressed (data : Bytes) (size : Nat) : Bool :=
  4 ≤ size && data.word 0 == 0x184D2204

section

/- What is read, how much of it there is, and where it goes. -/
variable (input : Bytes) (inSize dst dstSize : Nat)

/- Further bytes of a length.  One is read in any case. -/
def readExtra : Nat → U32 → Nat → U32 × Nat
| 0, len, inPos => (len, inPos)
| n + 1, len, inPos =>
    let extra := input inPos
    let len := len + extra.setWidth 32
    if extra = 255 ∧ inPos + 1 < inSize then
      readExtra n len (inPos + 1)
    else (len, inPos + 1)

/- A length goes on in further bytes when it is `full`. -/
def readLen (len full : U32) (inPos : Nat) : U32 × Nat :=
  if len = full then readExtra input inSize (inSize + 1) len inPos
  else (len, inPos)

/- Repeat what was put out some bytes back. -/
def copyMatch (offset : Nat) :
    Nat → HostMemory → Nat → Option (HostMemory × Nat)
| 0, mem, outPos => some (mem, outPos)
| n + 1, mem, outPos =>
    if outPos < dstSize then do
      let b ← mem.bytes (dst + outPos - offset)
      let mem ← mem.fillRange (dst + outPos) 1 fun _ => b
      copyMatch offset n mem (outPos + 1)
    else some (mem, outPos)

/- How far the decoder has read and put out. -/
structure Lz4Run where
  mem : HostMemory
  inPos : Nat
  outPos : Nat

/- A sequence, and whether to go on behind it. -/
def sequence (run : Lz4Run) : Option (Bool × Lz4Run) :=
  let token := input run.inPos
  let lit :=
    readLen input inSize ((token.setWidth 32 >>> 4) &&& 0xF) 15
      (run.inPos + 1)
  let inPos := lit.2
  let toCopy := min lit.1.toNat (dstSize - run.outPos)
  if lit.1 > 0 ∧ inPos + toCopy > inSize then
    some (false, { run with inPos := inPos })
  else do
    let mem ←
      run.mem.fillRange (dst + run.outPos) toCopy
        fun k => input (inPos + k)
    let inPos := inPos + lit.1.toNat
    let outPos := run.outPos + toCopy
    if inPos ≥ inSize then some (false, ⟨mem, inPos, outPos⟩)
    else
      let offset :=
        (input inPos).toNat + 256 * (input (inPos + 1)).toNat
      if offset = 0 then
        some (false, ⟨mem, inPos + 2, outPos⟩)
      else do
        let len :=
          readLen input inSize
            ((token.setWidth 32 &&& 0xF) + 4) 19 (inPos + 2)
        let copied ←
          copyMatch dst dstSize offset len.1.toNat mem outPos
        some (true, ⟨copied.1, len.2, copied.2⟩)

/- Each sequence takes a byte at least, so `inSize` are enough. -/
def sequences : Nat → Lz4Run → Option Lz4Run
| 0, run => some run
| n + 1, run =>
    if run.inPos < inSize ∧ run.outPos < dstSize then do
      let next ← sequence input inSize dst dstSize run
      if next.1 then sequences n next.2 else some next.2
    else some run

end

/- Unpack some data, or copy it.  How much is written? -/
def decompressLz4
    (src : Bytes)
    (srcSize : Nat)
    (mem : HostMemory)
    (dst dstSize : Nat) : Option (HostMemory × Nat) :=
  if ¬ isLZ4Compressed src srcSize then do
    let copy := min srcSize dstSize
    let mem ← mem.fillRange dst copy src
    some (mem, copy)
  else do
    let inSize := srcSize - 4
    let run ←
      sequences (fun i => src (4 + i)) inSize dst dstSize inSize
        ⟨mem, 0, 0⟩
    some (run.mem, run.outPos)

end NsoLoader

------
-- The File
------

/- A file in memory.  No object is larger than half of it. -/
structure NsoBuffer where
  bytes : Bytes
  size : U64
  size_lt : size.toNat < 2 ^ 63

structure NsoHeader where
  textFileOff : U64
  textMemOff : U64
  textSize : U64
  roFileOff : U64
  roMemOff : U64
  roSize : U64
  dataFileOff : U64
  dataMemOff : U64
  dataSize : U64
  bssSize : U32
  modOffset : U32
  textCompSize : U32
  roCompSize : U32
  dataCompSize : U32
  buildId : List U8
deriving DecidableEq

structure NsoSegment where
  guestAddress : U64
  size : U64
  compressedSize : U64
  perm : Permission
  fileOffset : U64
deriving DecidableEq

structure NsoLoadInfo where
  segments : List NsoSegment := []
  entryPoint : U64 := 0
  baseAddress : U64 := 0
  bssAddress : U64 := 0
  bssSize : U64 := 0
  buildId : List Char := []
  modOffset : U32 := 0
deriving DecidableEq

namespace NsoLoader

/- A segment, as the header describes it. -/
structure SegDesc where
  fileOff : U64
  memOff : U64
  decompSize : U64
  compSize : U32
  perm : Permission
deriving DecidableEq

/- "NSO0" -/
def NSO0_MAGIC : U32 := 0x304F534E

def headerAt (bytes : Bytes) : NsoHeader :=
  { textFileOff := bytes.long 0x10
    textMemOff := bytes.long 0x18
    textSize := bytes.long 0x20
    roFileOff := bytes.long 0x28
    roMemOff := bytes.long 0x30
    roSize := bytes.long 0x38
    dataFileOff := bytes.long 0x40
    dataMemOff := bytes.long 0x48
    dataSize := bytes.long 0x50
    bssSize := bytes.word 0x58
    modOffset := bytes.word 0x5C
    textCompSize := bytes.word 0x64
    roCompSize := bytes.word 0x68
    dataCompSize := bytes.word 0x6C
    buildId := bytes.slice 0x80 0x20 }

def parseHeader (buf : NsoBuffer) : Option NsoHeader :=
  if buf.size < 0x100 then none
  else if buf.bytes.word 0 ≠ NSO0_MAGIC then none
  else some (headerAt buf.bytes)

def textSeg (header : NsoHeader) : SegDesc :=
  { fileOff := header.textFileOff
    memOff := header.textMemOff
    decompSize := header.textSize
    compSize := header.textCompSize
    perm := .RX }

def roSeg (header : NsoHeader) : SegDesc :=
  { fileOff := header.roFileOff
    memOff := header.roMemOff
    decompSize := header.roSize
    compSize := header.roCompSize
    perm := .R }

def dataSeg (header : NsoHeader) : SegDesc :=
  { fileOff := header.dataFileOff
    memOff := header.dataMemOff
    decompSize := header.dataSize
    compSize := header.dataCompSize
    perm := .RW }

/- The segments in order; code is marked. -/
def segs (header : NsoHeader) : List (Bool × SegDesc) :=
  [(true, textSeg header), (false, roSeg header),
    (false, dataSeg header)]

/- Where the last segment ends. -/
def totalEnd (header : NsoHeader) : U64 :=
  (segs header).foldl
    (fun total seg =>
      let segEnd := seg.2.memOff + seg.2.decompSize
      if segEnd > total then segEnd else total)
    0

------
-- Loading
------

/- A load: memory, the instructions' state, what is known. -/
structure NsoRun where
  mem : HostMemory
  exec : NativeExec
  info : NsoLoadInfo := {}

/- What a segment has in the file, as far as it is used. -/
def compDataSize (seg : SegDesc) : U64 :=
  if seg.compSize > 0 ∧
      seg.compSize.setWidth 64 < seg.decompSize then
    seg.compSize.setWidth 64
  else seg.decompSize

def mapSize (seg : SegDesc) : U64 :=
  alignUp seg.decompSize 0x1000

def bssMapSize (header : NsoHeader) : U64 :=
  alignUp (header.bssSize.setWidth 64) 0x1000

section

/- Which ranges the host maps, and which fixed addresses it has
for thread-local storage. -/
variable (hostMaps : U64 → U64 → Bool) (mmap : U64 → Bool)
variable (buf : NsoBuffer) (base : U64)

/- How much of the data lies before the end of the file. -/
def srcSize (seg : SegDesc) : Nat :=
  min (compDataSize seg).toNat (buf.size - seg.fileOff).toNat

def src (seg : SegDesc) : Bytes :=
  fun i => buf.bytes (seg.fileOff.toNat + i)

/- Replace the system calls of code that has been written. -/
def patchText
    (dst : U64)
    (size : U32)
    (run : NsoRun) : NsoRun :=
  let patched :=
    (NativeExec.patchSVCs mmap run.exec run.mem.contents dst.toNat
      dst (size.setWidth 64)).2
  { run with
    mem := run.mem.withContents patched.mem
    exec := patched.exec }

def record (seg : SegDesc) (run : NsoRun) : NsoRun :=
  { run with
    info :=
      { run.info with
        segments :=
          run.info.segments ++
            [{ guestAddress := base + seg.memOff
               size := seg.decompSize
               compressedSize := 0
               perm := seg.perm
               fileOffset := seg.fileOff }] } }

/- Unpack a segment to where it is mapped. -/
def unpackSegment
    (isText : Bool)
    (seg : SegDesc)
    (dst : U64)
    (run : NsoRun) : Option NsoRun := do
  let unpacked ←
    decompressLz4 (src buf seg) (srcSize buf seg) run.mem
      dst.toNat seg.decompSize.toNat
  let run := { run with mem := unpacked.1 }
  let run :=
    if isText ∧ unpacked.2 > 0 then
      patchText mmap dst
        (BitVec.ofNat 32
          (min unpacked.2 seg.decompSize.toNat)) run
    else run
  some (record base seg run)

/- Segments whose data starts behind the file are skipped. -/
def loadSegment
    (isText : Bool)
    (seg : SegDesc)
    (run : NsoRun) : Option (Result × NsoRun) :=
  if seg.decompSize = 0 ∨ seg.fileOff ≥ buf.size then
    some (.Success, run)
  else
    let guestAddr := base + seg.memOff
    let mapped :=
      run.mem.mapPhysical guestAddr (mapSize seg) .RW none
        (hostMaps guestAddr (mapSize seg))
    let run := { run with mem := mapped.2 }
    if mapped.1 ≠ .Success then some (mapped.1, run)
    else
      match HostMemory.pointer guestAddr with
      | none => some (.OutOfMemory, run)
      | some dst => do
          let run ← unpackSegment mmap buf base isText seg dst run
          some (.Success, run)

def loadSegments :
    List (Bool × SegDesc) → NsoRun → Option (Result × NsoRun)
| [], run => some (.Success, run)
| seg :: segs, run => do
    let loaded ←
      loadSegment hostMaps mmap buf base seg.1 seg.2 run
    if loaded.1 ≠ .Success then some loaded
    else loadSegments segs loaded.2

/- Zero memory that the guest can point to. -/
def zeroBss
    (bssAddr size : U64)
    (mem : HostMemory) : Option HostMemory :=
  match HostMemory.pointer bssAddr with
  | some ptr => mem.fillRange ptr.toNat size.toNat fun _ => 0
  | none => some mem

/- Zeroed memory behind the segments. -/
def mapBss
    (header : NsoHeader)
    (run : NsoRun) : Option (Result × NsoRun) :=
  if header.bssSize > 0 then
    let bssAddr := base + totalEnd header
    let mapped :=
      run.mem.mapPhysical bssAddr (bssMapSize header) .RW none
        (hostMaps bssAddr (bssMapSize header))
    if mapped.1 ≠ .Success then
      some (mapped.1, { run with mem := mapped.2 })
    else do
      let mem ← zeroBss bssAddr (bssMapSize header) mapped.2
      some
        (.Success,
          { run with
            mem := mem
            info :=
              { run.info with
                bssAddress := bssAddr
                bssSize := header.bssSize.setWidth 64 } })
  else some (.Success, run)

def finish (header : NsoHeader) (run : NsoRun) : NsoRun :=
  { run with
    info :=
      { run.info with
        entryPoint := base
        baseAddress := base
        modOffset := header.modOffset
        buildId := Bytes.hex header.buildId } }

def decompressAndMap
    (header : NsoHeader)
    (run : NsoRun) : Option (Result × NsoRun) := do
  let loaded ←
    loadSegments hostMaps mmap buf base (segs header) run
  if loaded.1 ≠ .Success then some loaded
  else do
    let zeroed ← mapBss hostMaps base header loaded.2
    if zeroed.1 ≠ .Success then some zeroed
    else some (.Success, finish base header zeroed.2)

def loadFromBuffer
    (mem : HostMemory)
    (exec : NativeExec) : Option (Result × NsoRun) :=
  let run : NsoRun := { mem := mem, exec := exec }
  match parseHeader buf with
  | none => some (.InvalidArgument, run)
  | some header =>
      decompressAndMap hostMaps mmap buf base header run

end

end NsoLoader

end M1Switch
