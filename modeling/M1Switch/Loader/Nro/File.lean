import M1Switch.Library.ByteBuffers
import M1Switch.Library.LoggedRun
import M1Switch.Memory.Mapping

/-
  The file that the NRO loader of src/loader/NroLoader.cpp is
  given, and what the loader reads from it and changes in it.

  What lies behind the end of the file is some bytes too: what
  is read or written there is in the log.  Offsets are added as
  the source adds them, with the width it adds them in.

  Key definitions include:
    * `NroBuffer`
    * `parseHeader`
-/

------
-- The File
------

namespace M1Switch

/- A file in memory.  No object is larger than half of it. -/
structure NroBuffer where
  bytes : Bytes
  size : U64
  size_lt : size.toNat < 2 ^ 63

/-
  What a load does: bytes of the file that it reads or writes,
  bytes of guest memory that it fills, and words that it
  patches there, with the regions it has mapped so far.
-/
inductive Access where
  | read (s : Span)
  | write (s : Span)
  | fill (regions : List Span) (s : Span)
  | patch (regions : List Span) (start : Nat) (bytes : List U8)
deriving DecidableEq

namespace NroLoader

/- A part of a load. -/
abbrev LoadRun := Logged Access

def read32 (buf : NroBuffer) (off : U64) : LoadRun U32 :=
  if off + 4 > buf.size then pure 0
  else
    { value := some (buf.bytes.word off.toNat)
      log := [.read ⟨off.toNat, 4⟩] }

def read64 (buf : NroBuffer) (off : U64) : LoadRun U64 :=
  if off + 8 > buf.size then pure 0
  else
    { value := some (buf.bytes.long off.toNat)
      log := [.read ⟨off.toNat, 8⟩] }

def write32
    (buf : NroBuffer)
    (off : U64)
    (val : U32) : LoadRun NroBuffer :=
  if off + 4 > buf.size then pure buf
  else
    { value :=
        some
          { buf with
            bytes :=
              buf.bytes.store off.toNat (Bytes.ofWord val) }
      log := [.write ⟨off.toNat, 4⟩] }

def write64
    (buf : NroBuffer)
    (off : U64)
    (val : U64) : LoadRun NroBuffer :=
  if off + 8 > buf.size then pure buf
  else
    { value :=
        some
          { buf with
            bytes :=
              buf.bytes.store off.toNat (Bytes.ofLong val) }
      log := [.write ⟨off.toNat, 8⟩] }

end NroLoader

------
-- Header and Dynamic Section
------

structure NroPackedHeader where
  magic : U32
  version : U32
  size : U32
  flags : U32
  textStart : U32
  textSize : U32
  rodataStart : U32
  rodataSize : U32
  dataStart : U32
  dataSize : U32
  bssSize : U32
  reserved0 : U32
  buildId : List U8

/- What is known of the dynamic section. -/
structure DynInfo where
  relaOff : U64 := 0
  relaSz : U64 := 0
  relaEnt : U64 := 0
  relrOff : U64 := 0
  relrSz : U64 := 0
  relrEnt : U64 := 0
  symtabOff : U64 := 0
  strtabOff : U64 := 0
  strtabSz : U64 := 0
  initFunc : U64 := -1
deriving DecidableEq

namespace NroLoader

def NRO0_MAGIC : U32 := 0x304F524E
def MOD0_MAGIC : U32 := 0x30444F4D

def DT_NULL : U64 := 0
def DT_STRTAB : U64 := 5
def DT_SYMTAB : U64 := 6
def DT_RELA : U64 := 7
def DT_RELASZ : U64 := 8
def DT_RELAENT : U64 := 9
def DT_STRSZ : U64 := 10
def DT_INIT : U64 := 12
def DT_FINI : U64 := 13
def DT_INIT_ARRAY : U64 := 25
def DT_FINI_ARRAY : U64 := 26
def DT_PREINIT_ARRAY : U64 := 32
def DT_RELRSZ : U64 := 0x23
def DT_RELR : U64 := 0x24
def DT_RELRENT : U64 := 0x25

/- The header lies behind the first instructions. -/
def headerOff : U64 := 0x10

def HEADER_SIZE : U64 := 0x100

/- The header, unless the file is too short or another one. -/
def parseHeader
    (buf : NroBuffer) : LoadRun (Option NroPackedHeader) :=
  if buf.size < HEADER_SIZE then pure none
  else if buf.size < 0x10 + HEADER_SIZE then pure none
  else do
    let magic ← read32 buf headerOff
    let version ← read32 buf (headerOff + 4)
    let size ← read32 buf (headerOff + 8)
    let flags ← read32 buf (headerOff + 12)
    let textStart ← read32 buf (headerOff + 16)
    let textSize ← read32 buf (headerOff + 20)
    let rodataStart ← read32 buf (headerOff + 24)
    let rodataSize ← read32 buf (headerOff + 28)
    let dataStart ← read32 buf (headerOff + 32)
    let dataSize ← read32 buf (headerOff + 36)
    let bssSize ← read32 buf (headerOff + 40)
    let reserved0 ← read32 buf (headerOff + 44)
    let buildId ← readBuildId buf
    if magic = NRO0_MAGIC then
      pure (some
        { magic := magic
          version := version
          size := size
          flags := flags
          textStart := textStart
          textSize := textSize
          rodataStart := rodataStart
          rodataSize := rodataSize
          dataStart := dataStart
          dataSize := dataSize
          bssSize := bssSize
          reserved0 := reserved0
          buildId := buildId })
    else pure none
where
  readBuildId (buf : NroBuffer) : LoadRun (List U8) :=
    { value := some (buf.bytes.slice 0x40 32)
      log := [.read ⟨0x40, 32⟩] }

/- A round of the search for the module header in the text. -/
def mod0Round
    (buf : NroBuffer)
    (header : NroPackedHeader)
    (i : U32) : LoadRun (Round U32 U32) :=
  if i + 0x20 ≤ header.textStart + header.textSize ∧
      (i + 0x20).setWidth 64 ≤ buf.size then do
    let word ← read32 buf (i.setWidth 64)
    if word = MOD0_MAGIC then pure (.done i)
    else pure (.again (i + 4))
  else pure (.done 0)

/- Where the module header is, or zero. -/
def findMod0
    (fuel : Nat)
    (buf : NroBuffer)
    (header : NroPackedHeader) : LoadRun U32 :=
  Logged.loop (mod0Round buf header) fuel header.textStart

/- Where the dynamic section is behind it, or zero. -/
def readDynOff
    (buf : NroBuffer)
    (mod0Off : U32) : LoadRun U32 :=
  if mod0Off > 0 then read32 buf ((mod0Off + 4).setWidth 64)
  else pure 0

/- A round of counting entries up to the end of the section. -/
def countRound
    (buf : NroBuffer)
    (dynAbs ndyns : U32) : LoadRun (Round U32 U32) :=
  if (dynAbs + (ndyns + 1) * 16).setWidth 64 ≤ buf.size then do
    let tag ← read64 buf ((dynAbs + ndyns * 16).setWidth 64)
    if tag = DT_NULL then pure (.done ndyns)
    else pure (.again (ndyns + 1))
  else pure (.done ndyns)

end NroLoader

open NroLoader in
/- What an entry says. -/
def DynInfo.entry (dyn : DynInfo) (tag val : U64) : DynInfo :=
  if tag = DT_INIT then { dyn with initFunc := val }
  else if tag = DT_RELA then { dyn with relaOff := val }
  else if tag = DT_RELASZ then { dyn with relaSz := val }
  else if tag = DT_RELAENT then { dyn with relaEnt := val }
  else if tag = DT_SYMTAB then { dyn with symtabOff := val }
  else if tag = DT_STRTAB then { dyn with strtabOff := val }
  else if tag = DT_STRSZ then { dyn with strtabSz := val }
  else if tag = DT_RELR then { dyn with relrOff := val }
  else if tag = DT_RELRSZ then { dyn with relrSz := val }
  else if tag = DT_RELRENT then { dyn with relrEnt := val }
  else dyn

namespace NroLoader

/- A round of reading the entries that were counted. -/
def entryRound
    (buf : NroBuffer)
    (dynAbs ndyns : U32)
    (s : U32 × DynInfo) :
    LoadRun (Round (U32 × DynInfo) DynInfo) :=
  if s.1 < ndyns then do
    let tag ← read64 buf ((dynAbs + s.1 * 16).setWidth 64)
    let val ← read64 buf ((dynAbs + s.1 * 16 + 8).setWidth 64)
    pure (.again (s.1 + 1, s.2.entry tag val))
  else pure (.done s.2)

/- Read the dynamic section, before anything is mapped. -/
def parseDynamic
    (fuel : Nat)
    (buf : NroBuffer)
    (mod0Off dynOff : U32) : LoadRun DynInfo :=
  let dynAbs := mod0Off + dynOff
  if dynOff > 0 ∧ (dynAbs + 16).setWidth 64 ≤ buf.size then do
    let ndyns ← Logged.loop (countRound buf dynAbs) fuel 0
    Logged.loop (entryRound buf dynAbs ndyns) fuel (0, {})
  else pure {}

------
-- The Layout
------

open HostMemory (HOST_PAGE)

def NRO_TEXT_BASE : U64 := 0x40000000

end NroLoader

namespace NroPackedHeader

open HostMemory (HOST_PAGE)
open NroLoader (NRO_TEXT_BASE)

variable (header : NroPackedHeader)

def textPageSz : U64 :=
  alignUp (header.textSize.setWidth 64) HOST_PAGE

def rodataAddr : U64 :=
  NRO_TEXT_BASE + header.rodataStart.setWidth 64

def dataOrigAddr : U64 :=
  NRO_TEXT_BASE + header.dataStart.setWidth 64

def dataPageSz : U64 :=
  alignUp (header.dataSize.setWidth 64) HOST_PAGE

/- Text and data share a host page. -/
def overlapping : Bool :=
  header.textStart = 0 ∧
    header.dataOrigAddr < NRO_TEXT_BASE + header.textPageSz ∧
    header.dataOrigAddr + header.dataSize.setWidth 64 >
      NRO_TEXT_BASE

/- The data goes to the host page behind the first one then. -/
def dataAddr : U64 :=
  if header.overlapping then
    alignUp NRO_TEXT_BASE HOST_PAGE + HOST_PAGE
  else header.dataOrigAddr

def shift : U64 :=
  header.dataAddr - header.dataOrigAddr

/- Text and data are mapped apart. -/
def split : Bool :=
  header.overlapping ∧ header.dataAddr ≠ header.dataOrigAddr

def bssAddr : U64 :=
  alignUp (header.dataAddr + header.dataPageSz) HOST_PAGE

def bssPageSz : U64 :=
  alignUp (header.bssSize.setWidth 64) HOST_PAGE

end NroPackedHeader

------
-- Patching the File
------

namespace NroLoader

open HostMemory (HOST_PAGE)

/- Add the shift to a field of the module header. -/
def shiftField
    (buf : NroBuffer)
    (off : U32)
    (shift : U32) : LoadRun NroBuffer := do
  let field ← read32 buf (off.setWidth 64)
  write32 buf (off.setWidth 64) (field + shift)

/- The offsets of the dynamic section, and of the start and the
end of the bss. -/
def patchMod0
    (buf : NroBuffer)
    (mod0Off : U32)
    (shift : U64) : LoadRun NroBuffer :=
  if mod0Off > 0 ∧
      (mod0Off + 0x20).setWidth 64 ≤ buf.size then do
    let buf ← shiftField buf (mod0Off + 4) (shift.setWidth 32)
    let buf ← shiftField buf (mod0Off + 8) (shift.setWidth 32)
    shiftField buf (mod0Off + 12) (shift.setWidth 32)
  else pure buf

/- The entries whose values are shifted. -/
def isShiftedTag (tag : U64) : Bool :=
  tag = DT_INIT_ARRAY ∨ tag = DT_FINI_ARRAY ∨
    tag = DT_PREINIT_ARRAY ∨ tag = DT_INIT ∨ tag = DT_FINI

/- Where an entry is. -/
def dynEntryOff (dynAbs di : U32) : U64 :=
  (dynAbs + di * 16).setWidth 64

def dynamicRound
    (dynAbs : U32)
    (shift : U64)
    (s : U32 × NroBuffer) :
    LoadRun (Round (U32 × NroBuffer) NroBuffer) :=
  if s.1 < 256 then
    let entryOff := dynEntryOff dynAbs s.1
    if entryOff + 16 > s.2.size then pure (.done s.2)
    else do
      let tag ← read64 s.2 entryOff
      let val ← read64 s.2 (entryOff + 8)
      if tag = DT_NULL then pure (.done s.2)
      else if isShiftedTag tag then do
        let buf ← write64 s.2 (entryOff + 8) (val + shift)
        pure (.again (s.1 + 1, buf))
      else pure (.again (s.1 + 1, s.2))
  else pure (.done s.2)

def patchDynamic
    (fuel : Nat)
    (buf : NroBuffer)
    (mod0Off dynOff : U32)
    (shift : U64) : LoadRun NroBuffer :=
  if dynOff > 0 then
    Logged.loop (dynamicRound (mod0Off + dynOff) shift) fuel
      (0, buf)
  else pure buf

def ADRP_MASK : U32 := 0x9F000000
def ADRP_MATCH : U32 := 0x90000000

def isAdrp (inst : U32) : Bool :=
  inst &&& ADRP_MASK = ADRP_MATCH

/- The distance in pages, as far as it is written. -/
def pageBits (inst : U32) : U32 :=
  (((inst >>> 5) &&& 0x7FFFF) <<< 2) ||| ((inst >>> 29) &&& 3)

/- The distance as it is extended. -/
def pageImm (inst : U32) : U64 :=
  let pages := (pageBits inst).setWidth 64
  if pages &&& 0x80000 ≠ 0 then pages ||| ~~~(0xFFFFF : U64)
  else pages

/- The page the instruction at an offset is taken to mean. -/
def targetPage (off : U64) (inst : U32) : U64 :=
  (off &&& ~~~(0xFFF : U64)) + pageImm inst * 0x1000

/- The instruction with another distance. -/
def withPages (inst : U32) (pages : U64) : U32 :=
  let newImm := pages &&& 0x1FFFFF
  (inst &&& 0x9F00001F) |||
    (((newImm >>> 2).setWidth 32 &&& 0x7FFFF) <<< 5) |||
    ((newImm &&& 3).setWidth 32 <<< 29)

/- The pages that are taken for those of the data. -/
def inDataPages (header : NroPackedHeader) (page : U64) : Bool :=
  header.dataStart.setWidth 64 ≤ page ∧
    page <
      header.dataStart.setWidth 64 +
        header.dataSize.setWidth 64 +
        header.bssSize.setWidth 64 + HOST_PAGE

/- What becomes of an instruction. -/
def retarget
    (header : NroPackedHeader)
    (shift off : U64)
    (inst : U32) : Option U32 :=
  if isAdrp inst ∧ inDataPages header (targetPage off inst) then
    some (withPages inst (pageImm inst + shift / 0x1000))
  else none

def adrpRound
    (header : NroPackedHeader)
    (shift : U64)
    (s : U64 × NroBuffer) :
    LoadRun (Round (U64 × NroBuffer) NroBuffer) :=
  if s.1 + 4 ≤
      (header.textStart + header.textSize).setWidth 64 then do
    let inst ← read32 s.2 s.1
    match retarget header shift s.1 inst with
    | none => pure (.again (s.1 + 4, s.2))
    | some inst =>
        let buf ← write32 s.2 s.1 inst
        pure (.again (s.1 + 4, buf))
  else pure (.done s.2)

def patchAdrp
    (fuel : Nat)
    (buf : NroBuffer)
    (header : NroPackedHeader)
    (shift : U64) : LoadRun NroBuffer :=
  Logged.loop (adrpRound header shift) fuel
    (header.textStart.setWidth 64, buf)

/- The addresses that are taken for those of the data. -/
def inRelrData (header : NroPackedHeader) (page : U64) : Bool :=
  header.dataStart.setWidth 64 ≤ page ∧
    page <
      header.dataStart.setWidth 64 +
        header.dataSize.setWidth 64 + 0x10000

def relrRound
    (header : NroPackedHeader)
    (dyn : DynInfo)
    (shift : U64)
    (s : U64 × NroBuffer) :
    LoadRun (Round (U64 × NroBuffer) NroBuffer) :=
  if s.1 < dyn.relrSz ∧ s.1 < 4096 then
    let entryOff :=
      header.textStart.setWidth 64 + dyn.relrOff + s.1
    let next := s.1 + (if dyn.relrEnt ≠ 0 then dyn.relrEnt else 8)
    if entryOff + 8 > s.2.size then pure (.done s.2)
    else do
      let entry ← read64 s.2 entryOff
      if entry &&& 1 = 0 ∧
          inRelrData header (entry &&& ~~~(1 : U64)) then do
        let buf ← write64 s.2 entryOff (entry + shift)
        pure (.again (next, buf))
      else pure (.again (next, s.2))
  else pure (.done s.2)

def patchRelr
    (fuel : Nat)
    (buf : NroBuffer)
    (header : NroPackedHeader)
    (dyn : DynInfo)
    (shift : U64) : LoadRun NroBuffer :=
  if dyn.relrOff > 0 ∧ dyn.relrSz > 0 then
    Logged.loop (relrRound header dyn shift) fuel (0, buf)
  else pure buf

/- The file as it is going to be copied. -/
def patchFile
    (fuel : Nat)
    (buf : NroBuffer)
    (header : NroPackedHeader)
    (mod0Off dynOff : U32)
    (dyn : DynInfo) : LoadRun NroBuffer :=
  if header.overlapping then do
    let buf ← patchMod0 buf mod0Off header.shift
    let buf ← patchDynamic fuel buf mod0Off dynOff header.shift
    let buf ← patchAdrp fuel buf header header.shift
    patchRelr fuel buf header dyn header.shift
  else pure buf

end NroLoader

------
-- Values and Sizes
------

namespace NroBuffer

/- What is read, if it is not past the end. -/
def get32 (buf : NroBuffer) (off : U64) : U32 :=
  if off + 4 > buf.size then 0 else buf.bytes.word off.toNat

def get64 (buf : NroBuffer) (off : U64) : U64 :=
  if off + 8 > buf.size then 0 else buf.bytes.long off.toNat

/- What is written, if it is not past the end. -/
def put32
    (buf : NroBuffer)
    (off : U64)
    (val : U32) : NroBuffer :=
  if off + 4 > buf.size then buf
  else
    { buf with
      bytes := buf.bytes.store off.toNat (Bytes.ofWord val) }

def put64
    (buf : NroBuffer)
    (off : U64)
    (val : U64) : NroBuffer :=
  if off + 8 > buf.size then buf
  else
    { buf with
      bytes := buf.bytes.store off.toNat (Bytes.ofLong val) }

@[simp] theorem size_put32
    (buf : NroBuffer)
    (off : U64)
    (val : U32) :
    (buf.put32 off val).size = buf.size := by
  unfold put32
  split <;> rfl

@[simp] theorem size_put64
    (buf : NroBuffer)
    (off : U64)
    (val : U64) :
    (buf.put64 off val).size = buf.size := by
  unfold put64
  split <;> rfl

end NroBuffer

namespace NroLoader

variable {buf : NroBuffer} {header : NroPackedHeader}
variable {fuel : Nat} {buf' : NroBuffer}

@[simp] theorem value_read32 (off : U64) :
    (read32 buf off).value = some (buf.get32 off) := by
  unfold read32 NroBuffer.get32
  split <;> rfl

@[simp] theorem value_read64 (off : U64) :
    (read64 buf off).value = some (buf.get64 off) := by
  unfold read64 NroBuffer.get64
  split <;> rfl

@[simp] theorem value_write32 (off : U64) (val : U32) :
    (write32 buf off val).value = some (buf.put32 off val) := by
  unfold write32 NroBuffer.put32
  split <;> rfl

@[simp] theorem value_write64 (off : U64) (val : U64) :
    (write64 buf off val).value = some (buf.put64 off val) := by
  unfold write64 NroBuffer.put64
  split <;> rfl

/- The field with the shift added. -/
theorem value_shiftField (off shift : U32) :
    (shiftField buf off shift).value =
      some
        (buf.put32 (off.setWidth 64)
          (buf.get32 (off.setWidth 64) + shift)) := by
  unfold shiftField
  rw [Logged.bind_of_some (value_read32 _), value_write32]

/- The search goes on at a position. -/
def Searches
    (buf : NroBuffer)
    (header : NroPackedHeader)
    (i : U32) : Prop :=
  (i + 0x20 ≤ header.textStart + header.textSize ∧
      (i + 0x20).setWidth 64 ≤ buf.size) ∧
    buf.get32 (i.setWidth 64) ≠ MOD0_MAGIC

instance (i : U32) : Decidable (Searches buf header i) :=
  inferInstanceAs (Decidable (_ ∧ _))

/- What the search gives where it ends. -/
def found
    (buf : NroBuffer)
    (header : NroPackedHeader)
    (i : U32) : U32 :=
  if i + 0x20 ≤ header.textStart + header.textSize ∧
      (i + 0x20).setWidth 64 ≤ buf.size then i
  else 0

theorem steps_mod0Round :
    Logged.Steps (mod0Round buf header) (Searches buf header)
      (· + 4) (found buf header) := by
  intro i
  unfold mod0Round found
  split
  · next hIn =>
      rw [Logged.bind_of_some (value_read32 _)]
      simp only
      split
      · next hMagic =>
          have hNot : ¬ Searches buf header i :=
            fun hBoth => hBoth.2 hMagic
          rw [if_neg hNot]
          rfl
      · next hOther =>
          have hOn : Searches buf header i := ⟨hIn, hOther⟩
          rw [if_pos hOn]
          rfl
  · next hOut =>
      have hNot : ¬ Searches buf header i :=
        fun hBoth => hOut hBoth.1
      rw [if_neg hNot]
      rfl

/- The count goes on at an entry. -/
def Counts (buf : NroBuffer) (dynAbs ndyns : U32) : Prop :=
  (dynAbs + (ndyns + 1) * 16).setWidth 64 ≤ buf.size ∧
    buf.get64 ((dynAbs + ndyns * 16).setWidth 64) ≠ DT_NULL

instance (dynAbs ndyns : U32) :
    Decidable (Counts buf dynAbs ndyns) :=
  inferInstanceAs (Decidable (_ ∧ _))

theorem steps_countRound (dynAbs : U32) :
    Logged.Steps (countRound buf dynAbs) (Counts buf dynAbs)
      (· + 1) id := by
  intro ndyns
  unfold countRound
  split
  · next hIn =>
      rw [Logged.bind_of_some (value_read64 _)]
      simp only
      split
      · next hNull =>
          have hNot : ¬ Counts buf dynAbs ndyns :=
            fun hBoth => hBoth.2 hNull
          rw [if_neg hNot]
          rfl
      · next hOther =>
          have hOn : Counts buf dynAbs ndyns := ⟨hIn, hOther⟩
          rw [if_pos hOn]
          rfl
  · next hOut =>
      have hNot : ¬ Counts buf dynAbs ndyns :=
        fun hBoth => hOut hBoth.1
      rw [if_neg hNot]
      rfl

theorem steps_entryRound (dynAbs ndyns : U32) :
    Logged.Steps (entryRound buf dynAbs ndyns)
      (fun s => s.1 < ndyns)
      (fun s =>
        (s.1 + 1,
          s.2.entry
            (buf.get64 ((dynAbs + s.1 * 16).setWidth 64))
            (buf.get64 ((dynAbs + s.1 * 16 + 8).setWidth 64))))
      Prod.snd := by
  intro s
  unfold entryRound
  split
  · rw [Logged.bind_of_some (value_read64 _),
      Logged.bind_of_some (value_read64 _)]
    rfl
  · rfl

/- The module header with its three fields shifted. -/
theorem value_patchMod0
    (buf : NroBuffer)
    (mod0Off : U32)
    (shift : U64) :
    ∃ buf', (patchMod0 buf mod0Off shift).value = some buf' ∧
      buf'.size = buf.size := by
  unfold patchMod0
  split
  · rw [Logged.bind_of_some (value_shiftField _ _),
      Logged.bind_of_some (value_shiftField _ _)]
    exact ⟨_, value_shiftField _ _, by simp⟩
  · exact ⟨buf, rfl, rfl⟩

/- What becomes of an entry of the dynamic section. -/
def shiftEntry
    (buf : NroBuffer)
    (entryOff shift : U64) : NroBuffer :=
  if isShiftedTag (buf.get64 entryOff) then
    buf.put64 (entryOff + 8) (buf.get64 (entryOff + 8) + shift)
  else buf

@[simp] theorem size_shiftEntry (entryOff shift : U64) :
    (shiftEntry buf entryOff shift).size = buf.size := by
  unfold shiftEntry
  split
  · simp
  · rfl

/- The patch of the dynamic section goes on at an entry. -/
def Patches (dynAbs : U32) (s : U32 × NroBuffer) : Prop :=
  s.1 < 256 ∧ ¬ dynEntryOff dynAbs s.1 + 16 > s.2.size ∧
    s.2.get64 (dynEntryOff dynAbs s.1) ≠ DT_NULL

instance (dynAbs : U32) (s : U32 × NroBuffer) :
    Decidable (Patches dynAbs s) :=
  inferInstanceAs (Decidable (_ ∧ _))

theorem steps_dynamicRound
    (dynAbs : U32)
    (shift : U64) :
    Logged.Steps (dynamicRound dynAbs shift) (Patches dynAbs)
      (fun s =>
        (s.1 + 1, shiftEntry s.2 (dynEntryOff dynAbs s.1) shift))
      Prod.snd := by
  intro s
  unfold dynamicRound
  simp only
  split
  · next hIn =>
      split
      · next hEnd =>
          have hNot : ¬ Patches dynAbs s :=
            fun hAll => hAll.2.1 hEnd
          rw [if_neg hNot]
          rfl
      · next hFits =>
          rw [Logged.bind_of_some (value_read64 _),
            Logged.bind_of_some (value_read64 _)]
          simp only
          split
          · next hNull =>
              have hNot : ¬ Patches dynAbs s :=
                fun hAll => hAll.2.2 hNull
              rw [if_neg hNot]
              rfl
          · next hOther =>
              have hOn : Patches dynAbs s :=
                ⟨hIn, hFits, hOther⟩
              rw [if_pos hOn]
              simp only [shiftEntry]
              split
              · rw [Logged.bind_of_some (value_write64 _ _)]
                rfl
              · rfl
  · next hOut =>
      have hNot : ¬ Patches dynAbs s :=
        fun hAll => hOut hAll.1
      rw [if_neg hNot]
      rfl

/- What becomes of the instruction at an offset. -/
def retargetAt
    (buf : NroBuffer)
    (header : NroPackedHeader)
    (shift off : U64) : NroBuffer :=
  match retarget header shift off (buf.get32 off) with
  | none => buf
  | some inst => buf.put32 off inst

@[simp] theorem size_retargetAt (shift off : U64) :
    (retargetAt buf header shift off).size = buf.size := by
  unfold retargetAt
  split
  · rfl
  · simp

theorem steps_adrpRound (shift : U64) :
    Logged.Steps (adrpRound header shift)
      (fun s =>
        s.1 + 4 ≤
          (header.textStart + header.textSize).setWidth 64)
      (fun s => (s.1 + 4, retargetAt s.2 header shift s.1))
      Prod.snd := by
  intro s
  unfold adrpRound retargetAt
  split
  · rw [Logged.bind_of_some (value_read32 _)]
    simp only
    split
    · rfl
    · rw [Logged.bind_of_some (value_write32 _ _)]
      rfl
  · rfl

/- What becomes of an entry of the packed relocations. -/
def shiftRelr
    (buf : NroBuffer)
    (header : NroPackedHeader)
    (shift entryOff : U64) : NroBuffer :=
  if buf.get64 entryOff &&& 1 = 0 ∧
      inRelrData header (buf.get64 entryOff &&& ~~~(1 : U64)) then
    buf.put64 entryOff (buf.get64 entryOff + shift)
  else buf

@[simp] theorem size_shiftRelr (shift entryOff : U64) :
    (shiftRelr buf header shift entryOff).size = buf.size := by
  unfold shiftRelr
  split
  · simp
  · rfl

/- How far the entries are apart. -/
def relrStep (dyn : DynInfo) : U64 :=
  if dyn.relrEnt ≠ 0 then dyn.relrEnt else 8

/- Where the first of them is. -/
def relrFileOff
    (header : NroPackedHeader)
    (dyn : DynInfo) : U64 :=
  header.textStart.setWidth 64 + dyn.relrOff

/- The patch goes on at an entry. -/
def Unpacks
    (header : NroPackedHeader)
    (dyn : DynInfo)
    (s : U64 × NroBuffer) : Prop :=
  (s.1 < dyn.relrSz ∧ s.1 < 4096) ∧
    ¬ relrFileOff header dyn + s.1 + 8 > s.2.size

instance (dyn : DynInfo) (s : U64 × NroBuffer) :
    Decidable (Unpacks header dyn s) :=
  inferInstanceAs (Decidable (_ ∧ _))

theorem steps_relrRound
    (dyn : DynInfo)
    (shift : U64) :
    Logged.Steps (relrRound header dyn shift)
      (Unpacks header dyn)
      (fun s =>
        (s.1 + relrStep dyn,
          shiftRelr s.2 header shift
            (relrFileOff header dyn + s.1)))
      Prod.snd := by
  intro s
  unfold relrRound
  simp only
  split
  · next hIn =>
      split
      · next hEnd =>
          have hNot : ¬ Unpacks header dyn s :=
            fun hBoth => hBoth.2 hEnd
          rw [if_neg hNot]
          rfl
      · next hFits =>
          have hOn : Unpacks header dyn s := ⟨hIn, hFits⟩
          rw [Logged.bind_of_some (value_read64 _), if_pos hOn]
          simp only
          unfold shiftRelr relrStep relrFileOff
          split
          · rw [Logged.bind_of_some (value_write64 _ _)]
            rfl
          · rfl
  · next hOut =>
      have hNot : ¬ Unpacks header dyn s :=
        fun hBoth => hOut hBoth.1
      rw [if_neg hNot]
      rfl

------
-- What Reading and Patching Give
------

/- The header a file has, if it has one. -/
def headerOf (buf : NroBuffer) : Option NroPackedHeader :=
  if 0x10 + HEADER_SIZE ≤ buf.size ∧
      buf.get32 headerOff = NRO0_MAGIC then
    some
      { magic := buf.get32 headerOff
        version := buf.get32 (headerOff + 4)
        size := buf.get32 (headerOff + 8)
        flags := buf.get32 (headerOff + 12)
        textStart := buf.get32 (headerOff + 16)
        textSize := buf.get32 (headerOff + 20)
        rodataStart := buf.get32 (headerOff + 24)
        rodataSize := buf.get32 (headerOff + 28)
        dataStart := buf.get32 (headerOff + 32)
        dataSize := buf.get32 (headerOff + 36)
        bssSize := buf.get32 (headerOff + 40)
        reserved0 := buf.get32 (headerOff + 44)
        buildId := buf.bytes.slice 0x40 32 }
  else none

theorem value_parseHeader :
    (parseHeader buf).value = some (headerOf buf) := by
  have hShort :
      buf.size < HEADER_SIZE → buf.size < 0x10 + HEADER_SIZE := by
    intro hLess
    rw [BitVec.lt_def] at hLess ⊢
    exact Nat.lt_of_lt_of_le hLess (by decide)
  unfold parseHeader
  by_cases hLong : 0x10 + HEADER_SIZE ≤ buf.size
  · rw [if_neg fun hLess =>
        BitVec.not_lt.mpr hLong (hShort hLess),
      if_neg (BitVec.not_lt.mpr hLong)]
    iterate 12 rw [Logged.bind_of_some (value_read32 _)]
    simp only
    rw [Logged.bind_of_some (a := buf.bytes.slice 0x40 32) rfl]
    unfold headerOf
    by_cases hMagic : buf.get32 headerOff = NRO0_MAGIC
    · simp only [hLong, hMagic, and_self, if_true]
      rfl
    · simp only [hMagic, and_false, if_false]
      rfl
  · have hNone : headerOf buf = none := by
      unfold headerOf
      rw [if_neg fun hBoth => hLong hBoth.1]
    rw [if_pos (BitVec.not_le.mp hLong), hNone]
    split <;> rfl

theorem stable_findMod0 :
    Logged.Stable fun fuel => findMod0 fuel buf header :=
  Logged.stable_loop _ _

theorem stable_parseDynamic (mod0Off dynOff : U32) :
    Logged.Stable fun fuel =>
      parseDynamic fuel buf mod0Off dynOff := by
  unfold parseDynamic
  apply Logged.stable_ite
  · exact
      Logged.stable_bind (Logged.stable_loop _ _)
        fun _ => Logged.stable_loop _ _
  · exact Logged.stable_const _

theorem stable_patchFile
    (mod0Off dynOff : U32)
    (dyn : DynInfo) :
    Logged.Stable fun fuel =>
      patchFile fuel buf header mod0Off dynOff dyn := by
  unfold patchFile
  apply Logged.stable_ite
  · apply Logged.stable_bind (Logged.stable_const _)
    intro buf
    apply Logged.stable_bind
    · unfold patchDynamic
      exact
        Logged.stable_ite (Logged.stable_loop _ _)
          (Logged.stable_const _)
    · intro buf
      apply Logged.stable_bind (Logged.stable_loop _ _)
      intro buf
      unfold patchRelr
      exact
        Logged.stable_ite (Logged.stable_loop _ _)
          (Logged.stable_const _)
  · exact Logged.stable_const _

theorem size_patchDynamic
    {mod0Off dynOff : U32}
    {shift : U64}
    (hValue :
      (patchDynamic fuel buf mod0Off dynOff shift).value =
        some buf') :
    buf'.size = buf.size := by
  unfold patchDynamic at hValue
  split at hValue
  · rcases (steps_dynamicRound _ _).invariant
        (I := fun t => t.2.size = buf.size)
        (fun s hS _ => (size_shiftEntry _ _).trans hS) rfl
        hValue with
      ⟨t, hSize, _, hOut⟩
    rw [hOut, hSize]
  · rw [← Option.some.inj hValue]

theorem size_patchAdrp
    {shift : U64}
    (hValue :
      (patchAdrp fuel buf header shift).value = some buf') :
    buf'.size = buf.size := by
  rcases (steps_adrpRound _).invariant
      (I := fun t => t.2.size = buf.size)
      (fun s hS _ => (size_retargetAt _ _).trans hS) rfl hValue
    with ⟨t, hSize, _, hOut⟩
  rw [hOut, hSize]

theorem size_patchRelr
    {dyn : DynInfo}
    {shift : U64}
    (hValue :
      (patchRelr fuel buf header dyn shift).value =
        some buf') :
    buf'.size = buf.size := by
  unfold patchRelr at hValue
  split at hValue
  · rcases (steps_relrRound _ _).invariant
        (I := fun t => t.2.size = buf.size)
        (fun s hS _ => (size_shiftRelr _ _).trans hS) rfl
        hValue with
      ⟨t, hSize, _, hOut⟩
    rw [hOut, hSize]
  · rw [← Option.some.inj hValue]

/- Patching does not make the file longer. -/
theorem size_patchFile
    {mod0Off dynOff : U32}
    {dyn : DynInfo}
    (hValue :
      (patchFile fuel buf header mod0Off dynOff dyn).value =
        some buf') :
    buf'.size = buf.size := by
  unfold patchFile at hValue
  split at hValue
  · rcases Logged.value_bind_eq_some.mp hValue with
      ⟨b₁, h₁, hValue⟩
    rcases Logged.value_bind_eq_some.mp hValue with
      ⟨b₂, h₂, hValue⟩
    rcases Logged.value_bind_eq_some.mp hValue with ⟨b₃, h₃, h₄⟩
    rcases value_patchMod0 buf mod0Off header.shift with
      ⟨b, hB, hSize⟩
    rw [hB, Option.some.injEq] at h₁
    rw [size_patchRelr h₄, size_patchAdrp h₃,
      size_patchDynamic h₂, ← h₁, hSize]
  · rw [← Option.some.inj hValue]

end NroLoader

end M1Switch
