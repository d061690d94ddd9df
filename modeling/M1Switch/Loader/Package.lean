import Mathlib.Data.List.Infix
import M1Switch.Common.Types
import M1Switch.Library.RecordBytes

/-
  The package loaders of src/loader/Loader.cpp.

  A package is read into memory as a whole.  The parsers are
  given pointers into it, so the bytes they read are recorded
  as spans.  Behind the end of the file every byte is taken for
  zero: a span that reaches there is on record already.

  Key definitions include:
    * `PackageFile`
    * `parsePfs0`
-/

------
-- Files
------

namespace M1Switch

/- A file in memory.  No object is larger than half of it. -/
structure PackageFile where
  bytes : List U8
  length_lt : bytes.length < 2 ^ 63

namespace PackageFile

def size (f : PackageFile) : U64 :=
  BitVec.ofNat 64 f.bytes.length

/- The bytes of the file, and zeros behind them. -/
def data (f : PackageFile) : Bytes :=
  Bytes.ofList f.bytes 0

def read8 (f : PackageFile) (pos : Nat) : Traced U8 :=
  Traced.read pos 1 (f.data pos)

def read32 (f : PackageFile) (pos : Nat) : Traced U32 :=
  Traced.read pos 4 (f.data.word pos)

def read64 (f : PackageFile) (pos : Nat) : Traced U64 :=
  Traced.read pos 8 (f.data.long pos)

def memcpy
    (f : PackageFile)
    (pos count : Nat) : Traced (List U8) :=
  Traced.read pos count (f.data.slice pos count)

/- The characters from `pos` on, up to the first zero. -/
def nameAt (f : PackageFile) (pos : Nat) : List U8 :=
  (f.bytes.drop pos).takeWhile (· ≠ 0)

/- The zero behind the characters is read as well. -/
def cString (f : PackageFile) (pos : Nat) : Traced (List U8) :=
  Traced.read pos ((f.nameAt pos).length + 1) (f.nameAt pos)

end PackageFile

------
-- PFS0 Archives
------

structure Pfs0Header where
  magic : U32
  numFiles : U32
  stringTableSize : U32
deriving DecidableEq

/- An entry of an archive, with its name. -/
structure Pfs0File where
  offset : U64
  size : U64
  name : List U8
deriving DecidableEq

namespace Loader

/- "PFS0" -/
def PFS0_MAGIC : U32 := 0x30534650

def pfs0Header (f : PackageFile) (base : Nat) : Pfs0Header :=
  { magic := f.data.word base
    numFiles := f.data.word (base + 4)
    stringTableSize := f.data.word (base + 8) }

/- Where the name of the next file starts. -/
def strOffset (files : List Pfs0File) : U32 :=
  files.foldl
    (fun off file => off + (BitVec.ofNat 32 file.name.length + 1))
    0

/- Where the data starts. -/
def needed (header : Pfs0Header) : U64 :=
  16 + (header.numFiles * 16).setWidth 64 +
    header.stringTableSize.setWidth 64

/- Where the entry with number `i` stands. -/
def entryPos (entryBase i : Nat) : Nat :=
  entryBase + (BitVec.ofNat 32 i * 16).toNat

/- The name behind those of `files`. -/
def readName
    (f : PackageFile)
    (entryBase : Nat)
    (header : Pfs0Header)
    (files : List Pfs0File) : Traced (List U8) :=
  let strtab := entryBase + (header.numFiles * 16).toNat
  let strOff := strOffset files
  if strOff < header.stringTableSize then
    f.cString (strtab + strOff.toNat)
  else pure []

/- Read `n` more files.  The entries start at `entryBase`. -/
def parseFiles
    (f : PackageFile)
    (entryBase : Nat)
    (header : Pfs0Header) :
    Nat → List Pfs0File → Traced (List Pfs0File)
| 0, files => pure files
| n + 1, files => do
    let pos := entryPos entryBase files.length
    let offset ← f.read64 pos
    let size ← f.read64 (pos + 8)
    let name ← readName f entryBase header files
    parseFiles f entryBase header n
      (files ++ [⟨offset + needed header, size, name⟩])

/- The archive at `base`, which is said to take `bufferSize`. -/
def parsePfs0
    (f : PackageFile)
    (base : Nat)
    (bufferSize : U64) : Traced (Option (List Pfs0File)) :=
  if bufferSize < 16 then pure none
  else do
    let header ← Traced.read base 16 (pfs0Header f base)
    if header.magic ≠ PFS0_MAGIC then pure none
    else if bufferSize < needed header then pure none
    else do
      let files ←
        parseFiles f (base + 16) header header.numFiles.toNat []
      pure (some files)

------
-- NCA Headers
------

structure NcaInfo where
  romfsOffset : U64 := 0
  romfsSize : U64 := 0
  exefsOffset : U64 := 0
  exefsSize : U64 := 0
  ncaSize : U64 := 0
deriving DecidableEq

/- "NCA3" or "NCA2" -/
def isNcaMagic (magic : U32) : Bool :=
  magic == 0x3341434E || magic == 0x3241434E

/- A section that the buffer reaches into: a header, RomFS. -/
def splitSection
    (bufferSize absOffset absSize : U64)
    (info : NcaInfo) : NcaInfo :=
  if bufferSize > absOffset + 0x200 then
    { info with
      exefsSize :=
        if absSize < 0x800000 then absSize else 0x800000
      romfsOffset := absOffset + 0x200
      romfsSize := absSize - 0x200 }
  else info

/- Otherwise the ExeFS is said to take up the section. -/
def wholeSection
    (absOffset absSize : U64)
    (info : NcaInfo) : NcaInfo :=
  if info.exefsSize = 0 then
    { info with
      exefsSize := absSize
      romfsOffset := absOffset + absSize
      romfsSize := 0 }
  else info

/- What an entry of the section table adds. -/
def addSection
    (bufferSize : U64)
    (info : NcaInfo)
    (secOffset secSize : U32)
    (secType : U8) : NcaInfo :=
  if secOffset = 0 ∨ secSize = 0 then info
  else
    let absOffset := secOffset.setWidth 64 * 512
    let absSize := secSize.setWidth 64 * 512
    if secType = 0 ∧ absOffset > 0 ∧ absSize > 0 then
      wholeSection absOffset absSize
        (splitSection bufferSize absOffset absSize info)
    else info

def parseSections
    (f : PackageFile)
    (base : Nat)
    (bufferSize : U64) :
    List Nat → NcaInfo → Traced NcaInfo
| [], info => pure info
| i :: is, info => do
    let sec := base + 0x200 + i * 16
    let secOffset ← f.read32 sec
    let secSize ← f.read32 (sec + 4)
    let secType ← f.read8 (sec + 12)
    parseSections f base bufferSize is
      (addSection bufferSize info secOffset secSize secType)

/- The NCA at `base`, which is said to take `bufferSize`. -/
def parseNca
    (f : PackageFile)
    (base : Nat)
    (bufferSize : U64) : Traced (Option NcaInfo) :=
  if bufferSize < 0x400 then pure none
  else do
    let magic ← f.read32 base
    if ¬ isNcaMagic magic then pure none
    else do
      let ncaSize ← f.read64 (base + 0x30)
      let _contentType ← f.read8 (base + 0x14)
      let info ←
        parseSections f base bufferSize [0, 1, 2, 3]
          { ncaSize := ncaSize }
      if info.exefsOffset > 0 ∨ info.romfsOffset > 0 then
        pure (some info)
      else pure none

------
-- Packages
------

/- ".nca" -/
def NCA_EXT : List U8 := [0x2E, 0x6E, 0x63, 0x61]

/- The last four characters of a name. -/
def hasNcaExt (name : List U8) : Bool :=
  4 ≤ name.length && name.drop (name.length - 4) == NCA_EXT

/- Anywhere in a name. -/
def hasNcaPart (name : List U8) : Bool :=
  decide (NCA_EXT <:+: name)

/- The span that the RomFS of an NCA takes up in the file. -/
def romFsSpan
    (f : PackageFile)
    (ncaOff : U64)
    (info : NcaInfo) : Option Span :=
  let romfsAbs := ncaOff + info.romfsOffset
  if info.romfsSize > 0 ∧ romfsAbs + info.romfsSize ≤ f.size then
    some ⟨romfsAbs.toNat, info.romfsSize.toNat⟩
  else none

/- Pass the RomFS of one NCA, if it has one. -/
def loadNcaRomFs
    (f : PackageFile)
    (ncaOff ncaSize : U64) : Traced (Option Span) := do
  match ← parseNca f ncaOff.toNat ncaSize with
  | none => pure none
  | some info => pure (romFsSpan f ncaOff info)

/- Look through the files until one of them gives its RomFS. -/
def firstRomFs
    (load : Pfs0File → Traced (Option Span)) :
    List Pfs0File → Traced (Option Span)
| [] => pure none
| file :: files => do
    match ← load file with
    | some span => pure (some span)
    | none => firstRomFs load files

def loadNspFile
    (f : PackageFile)
    (file : Pfs0File) : Traced (Option Span) :=
  if hasNcaExt file.name then
    if file.offset + file.size ≤ f.size then
      loadNcaRomFs f file.offset file.size
    else pure none
  else pure none

/- Positions in a partition are not checked. -/
def loadXciFile
    (f : PackageFile)
    (partOff : U64)
    (file : Pfs0File) : Traced (Option Span) :=
  if hasNcaPart file.name then
    loadNcaRomFs f (partOff + file.offset) file.size
  else pure none

/- The first RomFS of the files of an archive. -/
def archiveRomFs
    (f : PackageFile)
    (base : Nat)
    (bufferSize : U64)
    (load : Pfs0File → Traced (Option Span)) :
    Traced (Option Span) := do
  match ← parsePfs0 f base bufferSize with
  | none => pure none
  | some files => firstRomFs load files

/- "NRO0", "NSO0" and "HEAD" -/
def NRO_MAGIC : U32 := 0x304F524E
def NSO_MAGIC : U32 := 0x304F534E
def XCI_MAGIC : U32 := 0x44414548

/- The partition of a game card, by its position and size. -/
def partOff (f : PackageFile) : U64 := f.data.long 0x150
def partSz (f : PackageFile) : U64 := f.data.long 0x158

/- A game card. -/
def loadXci (f : PackageFile) : Traced (Option Span) :=
  if f.size < 0x200 then pure none
  else do
    let (partOff, partSz) ←
      Traced.read 0 0x160 (partOff f, partSz f)
    if partOff > 0 ∧ partOff + partSz ≤ f.size then
      archiveRomFs f partOff.toNat partSz (loadXciFile f partOff)
    else pure none

/- The span, if any, that is passed to the FS service. -/
def loadPackage (f : PackageFile) : Traced (Option Span) :=
  if f.size < 4 then pure none
  else do
    let magic ← f.read32 0
    if magic = NRO_MAGIC then pure none
    else if magic = PFS0_MAGIC then
      archiveRomFs f 0 f.size (loadNspFile f)
    else do
      let xciMagic ← f.read32 0
      if xciMagic = XCI_MAGIC then loadXci f
      else pure none

------
-- ExeFS Headers
------

/- A name of eight characters, where blanks count as its end. -/
def exeFsName (bytes : List U8) : List U8 :=
  (bytes.map fun c => if c = 0x20 then 0 else c).takeWhile
    (· ≠ 0)

/- Where an entry has the file, if that is its name. -/
def exeFsHit
    (exefsSize : U64)
    (targetName bytes : List U8)
    (fileOff fileSize : U32) : Option (U64 × U64) :=
  let name := exeFsName bytes
  if name = [] ∨ fileSize = 0 then none
  else
    let absOffset := (0x200 + fileOff).setWidth 64
    if name = targetName ∧
        absOffset + fileSize.setWidth 64 ≤ exefsSize then
      some (absOffset, fileSize.setWidth 64)
    else none

def scanExeFs
    (f : PackageFile)
    (base : Nat)
    (exefsSize : U64)
    (targetName : List U8) :
    List Nat → Traced (Option (U64 × U64))
| [] => pure none
| i :: is =>
    let entryOff := BitVec.ofNat 64 i * 16
    if exefsSize < entryOff + 16 then pure none
    else do
      let entry := base + entryOff.toNat
      let bytes ← f.memcpy entry 8
      let fileOff ← f.read32 (entry + 8)
      let fileSize ← f.read32 (entry + 12)
      match exeFsHit exefsSize targetName bytes fileOff fileSize with
      | some file => pure (some file)
      | none => scanExeFs f base exefsSize targetName is

/- Where the header at `base` has a file of this name. -/
def findExeFsEntry
    (f : PackageFile)
    (base : Nat)
    (exefsSize : U64)
    (targetName : List U8) : Traced (Option (U64 × U64)) :=
  if exefsSize < 0x200 then pure none
  else scanExeFs f base exefsSize targetName (List.range 32)

------
-- Executables
------

def isNSO (f : PackageFile) (offset : U64) : Traced Bool :=
  if offset + 4 > f.size then pure false
  else do
    let magic ← f.read32 offset.toNat
    pure (magic == NSO_MAGIC)

/- "main" -/
def MAIN : List U8 := [0x6D, 0x61, 0x69, 0x6E]

/-
  What a load has come to: the guest, the spans that were
  passed to the FS service and to the NSO loader, and whether
  the NSO loader succeeded.
-/
structure ExeRun (M : Type) where
  guest : M
  romFs : List Span := []
  nso : List Span := []
  loaded : Bool := false

section

variable {M : Type}

/- What the NSO loader does with a span, and if it succeeds. -/
variable (nsoLoad : M → Span → M × Bool)

def setRomFs
    (f : PackageFile)
    (ncaOff : U64)
    (info : NcaInfo)
    (run : ExeRun M) : ExeRun M :=
  { run with
    romFs := run.romFs ++ (romFsSpan f ncaOff info).toList }

def loadNso (span : Span) (run : ExeRun M) : ExeRun M :=
  let result := nsoLoad run.guest span
  { run with
    guest := result.1
    nso := run.nso ++ [span]
    loaded := result.2 }

/- Load the executable of an ExeFS. -/
def loadMain
    (f : PackageFile)
    (exefsAbs exefsSize : U64)
    (run : ExeRun M) : Traced (ExeRun M) := do
  match ← findExeFsEntry f exefsAbs.toNat exefsSize MAIN with
  | none => pure run
  | some (nsoOff, nsoSz) =>
      let nsoAbs := exefsAbs + nsoOff
      let found ← isNSO f nsoAbs
      if found then
        pure (loadNso nsoLoad ⟨nsoAbs.toNat, nsoSz.toNat⟩ run)
      else pure run

/- One file of an NSP. -/
def loadNspExecutable
    (f : PackageFile)
    (file : Pfs0File)
    (run : ExeRun M) : Traced (ExeRun M) :=
  if hasNcaExt file.name then
    let ncaOff := file.offset
    if ncaOff + 0x400 > f.size then pure run
    else do
      let ncaMagic ← f.read32 ncaOff.toNat
      if ¬ isNcaMagic ncaMagic then pure run
      else do
        let rest := f.size - ncaOff
        let ncaSize :=
          if rest < file.size then rest else file.size
        match ← parseNca f ncaOff.toNat ncaSize with
        | none => pure run
        | some info =>
            let run := setRomFs f ncaOff info run
            if info.exefsSize > 0 then
              let exefsAbs := ncaOff + info.exefsOffset
              if exefsAbs + 0x200 ≤ f.size then
                loadMain nsoLoad f exefsAbs info.exefsSize run
              else pure run
            else pure run
  else pure run

/- One file of the partition of an XCI. -/
def loadXciExecutable
    (f : PackageFile)
    (partOff : U64)
    (file : Pfs0File)
    (run : ExeRun M) : Traced (ExeRun M) :=
  if hasNcaPart file.name then do
    let ncaOff := partOff + file.offset
    match ← parseNca f ncaOff.toNat file.size with
    | none => pure run
    | some info =>
        let run := setRomFs f ncaOff info run
        if info.exefsSize > 0 then
          loadMain nsoLoad f (ncaOff + info.exefsOffset)
            info.exefsSize run
        else pure run
  else pure run

/- Look through the files until one of them is loaded. -/
def firstLoaded
    (load : Pfs0File → ExeRun M → Traced (ExeRun M)) :
    List Pfs0File → ExeRun M → Traced (ExeRun M)
| [], run => pure run
| file :: files, run => do
    let run ← load file run
    if run.loaded then pure run
    else firstLoaded load files run

/- The first executable of the files of an archive. -/
def archiveExecutable
    (f : PackageFile)
    (base : Nat)
    (bufferSize : U64)
    (load : Pfs0File → ExeRun M → Traced (ExeRun M))
    (run : ExeRun M) : Traced (ExeRun M) := do
  match ← parsePfs0 f base bufferSize with
  | none => pure run
  | some files => firstLoaded load files run

/- The executable of a game card. -/
def loadXciMain
    (f : PackageFile)
    (run : ExeRun M) : Traced (ExeRun M) :=
  if f.size < 0x200 then pure run
  else do
    let partOff ← f.read64 0x150
    let partSz ← f.read64 0x158
    if partOff + partSz > f.size then pure run
    else
      archiveExecutable f partOff.toNat partSz
        (loadXciExecutable nsoLoad f partOff) run

def loadExecutable
    (f : PackageFile)
    (guest : M) : Traced (ExeRun M) :=
  let run : ExeRun M := { guest := guest }
  if f.size < 4 then pure run
  else do
    let magic ← f.read32 0
    if magic = NRO_MAGIC then pure run
    else if magic = PFS0_MAGIC then
      archiveExecutable f 0 f.size (loadNspExecutable nsoLoad f)
        run
    else do
      let xciCheck ← f.read32 0
      if xciCheck = XCI_MAGIC then loadXciMain nsoLoad f run
      else if magic = NSO_MAGIC then
        pure (loadNso nsoLoad ⟨0, f.bytes.length⟩ run)
      else pure run

end

end Loader

end M1Switch
