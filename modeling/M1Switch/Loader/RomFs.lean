import Mathlib.Data.BitVec
import M1Switch.Common.Types
import M1Switch.Library.ByteBuffers

/-
  The RomFS reader of src/loader/RomFs.cpp.

  A span is the list of its bytes.  What C++ leaves undefined,
  an index outside the span or outside a table, ends the
  computation with `Stop.outside`.  Positions are 32-bit words
  and are added as the source adds them.

  Key definitions include:
    * `index`
    * `parseEntries`
-/

namespace M1Switch

------
-- Entries and Tables
------

structure RomFsDirEntry where
  parentOffset : U32
  siblingOffset : U32
  childDirOffset : U32
  childFileOffset : U32
  nameLen : U32
  name : List U8
deriving DecidableEq

structure RomFsFileEntry where
  parentOffset : U32
  siblingOffset : U32
  dataOffset : U64
  dataSize : U64
  nameLen : U32
  name : List U8
deriving DecidableEq

structure RomFs where
  dataOffset : U32 := 0
  dirTable : List RomFsDirEntry := []
  fileTable : List RomFsFileEntry := []
  romfsData : List U8 := []
deriving DecidableEq

namespace RomFs

------
-- Reading the Span
------

/- Why a computation has no result. -/
inductive Stop where
  /- It indexed outside the span or outside a table. -/
  | outside
  /- A loop was still running when the fuel was used up. -/
  | fuel
  /- A container did not grow, and an exception left. -/
  | thrown
deriving DecidableEq

/- `values[i]`, for a span or a table. -/
def index
    {α : Type}
    (values : List α)
    (i : Nat) : Except Stop α :=
  match values[i]? with
  | some value => .ok value
  | none => .error .outside

/- Copy `count` bytes from `start` on. -/
def copy
    (data : List U8)
    (start count : Nat) : Except Stop (List U8) :=
  if start + count ≤ data.length then
    .ok ((data.drop start).take count)
  else .error .outside

/- Four bytes, the lowest first. -/
def readU32
    (data : List U8)
    (pos : U32) : Except Stop U32 := do
  let b₀ ← index data pos.toNat
  let b₁ ← index data (pos + 1).toNat
  let b₂ ← index data (pos + 2).toNat
  let b₃ ← index data (pos + 3).toNat
  return b₃ ++ b₂ ++ b₁ ++ b₀

/- Eight bytes, the lowest first. -/
def readU64
    (data : List U8)
    (pos : U32) : Except Stop U64 := do
  let low ← readU32 data pos
  let high ← readU32 data (pos + 4)
  return high ++ low

def readName
    (data : List U8)
    (offset nameLen : U32) : Except Stop (List U8) :=
  if data.length < (offset + nameLen).toNat then .ok []
  else copy data offset.toNat nameLen.toNat

------
-- Reads inside the Span
------

@[simp] theorem ok_bind
    {α β : Type}
    (a : α)
    (f : α → Except Stop β) :
    (Except.ok a >>= f) = f a :=
  rfl

@[simp] theorem error_bind
    {α β : Type}
    (stop : Stop)
    (f : α → Except Stop β) :
    (Except.error stop >>= f) = .error stop :=
  rfl

/- Two steps have a result if both of them do. -/
theorem ok_of_bind
    {α β : Type}
    {x : Except Stop α}
    {f : α → Except Stop β}
    {b : β}
    (hBind : (x >>= f) = .ok b) :
    ∃ a, x = .ok a ∧ f a = .ok b := by
  cases x with
  | error stop => simp at hBind
  | ok a => exact ⟨a, rfl, hBind⟩

theorem index_of_lt
    {α : Type}
    {values : List α}
    {i : Nat}
    (hI : i < values.length) :
    index values i = .ok values[i] := by
  simp [index, hI]

theorem lt_of_index
    {α : Type}
    {values : List α}
    {i : Nat}
    {value : α}
    (hIndex : index values i = .ok value) :
    i < values.length := by
  by_contra hOut
  have hNone : values[i]? = none :=
    List.getElem?_eq_none (by omega)
  simp [index, hNone] at hIndex

variable {data : List U8}

theorem copy_of_inside
    {start count : Nat}
    (hInside : start + count ≤ data.length) :
    copy data start count =
      .ok ((data.drop start).take count) :=
  if_pos hInside

theorem inside_of_copy
    {data bytes : List U8}
    {start count : Nat}
    (hCopy : copy data start count = .ok bytes) :
    start + count ≤ data.length := by
  by_contra hOut
  simp [copy, hOut] at hCopy

/- The words of the span, at any offset. -/
def wordAt
    (data : List U8)
    (p : Nat) : U32 :=
  Bytes.word (fun i => data.getD i 0) p

def longAt
    (data : List U8)
    (p : Nat) : U64 :=
  wordAt data (p + 4) ++ wordAt data p

/- Below the end of the words, positions add up. -/
theorem toNat_add_of_le
    {pos k : U32}
    (hFits : pos.toNat + k.toNat < 2 ^ 32) :
    (pos + k).toNat = pos.toNat + k.toNat := by
  rw [BitVec.toNat_add, Nat.mod_eq_of_lt hFits]

theorem readU32_of_inside
    {pos : U32}
    (hFits : pos.toNat + 4 ≤ 2 ^ 32)
    (hInside : pos.toNat + 4 ≤ data.length) :
    readU32 data pos = .ok (wordAt data pos.toNat) := by
  have hByte :
      ∀ k : U32, k.toNat < 4 →
        index data (pos + k).toNat =
          .ok (data.getD (pos.toNat + k.toNat) 0) := by
    intro k hK
    rw [toNat_add_of_le (by omega),
      index_of_lt (by omega)]
    simp [show pos.toNat + k.toNat < data.length by omega]
  have hZero :
      index data pos.toNat =
        .ok (data.getD pos.toNat 0) := by
    simpa using hByte 0 (by decide)
  unfold readU32
  rw [hZero, hByte 1 (by decide), hByte 2 (by decide),
    hByte 3 (by decide)]
  rfl

theorem readU64_of_inside
    {pos : U32}
    (hFits : pos.toNat + 8 ≤ 2 ^ 32)
    (hInside : pos.toNat + 8 ≤ data.length) :
    readU64 data pos = .ok (longAt data pos.toNat) := by
  have hHigh : (pos + 4).toNat = pos.toNat + 4 :=
    toNat_add_of_le (by change _ + 4 < _; omega)
  unfold readU64
  rw [readU32_of_inside (by omega) (by omega), ok_bind,
    readU32_of_inside (by omega) (by omega), hHigh]
  rfl

/-
  A word that was read lies inside a span of less than 4 GiB:
  a position that wrapped around went past its end before.
-/
theorem inside_of_readU32
    {pos : U32}
    {w : U32}
    (hSmall : data.length < 2 ^ 32)
    (hRead : readU32 data pos = .ok w) :
    pos.toNat + 4 ≤ data.length := by
  rcases ok_of_bind hRead with ⟨b₀, h₀, hRead⟩
  rcases ok_of_bind hRead with ⟨b₁, h₁, hRead⟩
  rcases ok_of_bind hRead with ⟨b₂, h₂, hRead⟩
  rcases ok_of_bind hRead with ⟨b₃, h₃, hRead⟩
  have h₀ := lt_of_index h₀
  have h₁ := lt_of_index h₁
  have h₂ := lt_of_index h₂
  have h₃ := lt_of_index h₃
  rw [BitVec.toNat_add, show (1 : U32).toNat = 1 from rfl]
    at h₁
  rw [BitVec.toNat_add, show (2 : U32).toNat = 2 from rfl]
    at h₂
  rw [BitVec.toNat_add, show (3 : U32).toNat = 3 from rfl]
    at h₃
  omega

/- So does a word behind one that lies inside. -/
theorem inside_of_readU32_add
    {pos k : U32}
    {w : U32}
    (hSmall : data.length < 2 ^ 32)
    (hRead : readU32 data (pos + k) = .ok w)
    (hBefore : pos.toNat + k.toNat ≤ data.length) :
    pos.toNat + k.toNat + 4 ≤ data.length := by
  rw [← toNat_add_of_le (by omega)]
  exact inside_of_readU32 hSmall hRead

theorem inside_of_readU64_add
    {pos k : U32}
    {w : U64}
    (hSmall : data.length < 2 ^ 32)
    (hRead : readU64 data (pos + k) = .ok w)
    (hBefore : pos.toNat + k.toNat ≤ data.length) :
    pos.toNat + k.toNat + 8 ≤ data.length := by
  rcases ok_of_bind hRead with ⟨low, hLow, hRead⟩
  rcases ok_of_bind hRead with ⟨high, hHigh, hRead⟩
  have hAdd : (pos + k).toNat = pos.toNat + k.toNat :=
    toNat_add_of_le (by omega)
  have hLow := inside_of_readU32 hSmall hLow
  rw [← hAdd] at hBefore ⊢
  exact inside_of_readU32_add hSmall hHigh hLow

------
-- The Header
------

structure Header where
  dirTableOff : U32
  dirTableSize : U32
  fileTableOff : U32
  fileTableSize : U32
  dataOffset : U32

/- Nothing, where the function returns false. -/
def parseHeader
    (data : List U8) : Except Stop (Option Header) :=
  if data.length < 0x38 then .ok none
  else do
    let dirTableOff ← readU32 data 4
    let dirTableSize ← readU32 data 8
    let fileTableOff ← readU32 data 28
    let fileTableSize ← readU32 data 32
    let dataOffset ← readU32 data 36
    return some
      { dirTableOff := dirTableOff
        dirTableSize := dirTableSize
        fileTableOff := fileTableOff
        fileTableSize := fileTableSize
        dataOffset := dataOffset }

------
-- The Tables
------

/- What tells the two table loops apart. -/
structure EntryLayout (β : Type) where
  /- The bytes the loop condition asks for. -/
  check : U32
  /- The bytes in front of the name length. -/
  head : U32
  /- The fields in front of the name length. -/
  read : List U8 → U32 → Except Stop (U32 → List U8 → β)

def dirLayout : EntryLayout RomFsDirEntry where
  check := 16
  head := 16
  read := fun data pos => do
    let parentOffset ← readU32 data pos
    let siblingOffset ← readU32 data (pos + 4)
    let childDirOffset ← readU32 data (pos + 8)
    let childFileOffset ← readU32 data (pos + 12)
    return fun nameLen name =>
      { parentOffset := parentOffset
        siblingOffset := siblingOffset
        childDirOffset := childDirOffset
        childFileOffset := childFileOffset
        nameLen := nameLen
        name := name }

/- The loop asks for 20 bytes and reads 24. -/
def fileLayout : EntryLayout RomFsFileEntry where
  check := 20
  head := 24
  read := fun data pos => do
    let parentOffset ← readU32 data pos
    let siblingOffset ← readU32 data (pos + 4)
    let dataOffset ← readU64 data (pos + 8)
    let dataSize ← readU64 data (pos + 16)
    return fun nameLen name =>
      { parentOffset := parentOffset
        siblingOffset := siblingOffset
        dataOffset := dataOffset
        dataSize := dataSize
        nameLen := nameLen
        name := name }

section Loop

variable {β : Type}

/-
  One turn of a table loop: the entry and the position after
  it, or nothing when the loop ends.
-/
def parseEntry
    (layout : EntryLayout β)
    (data : List U8)
    (end_ pos : U32) : Except Stop (Option (β × U32)) :=
  if pos + layout.check ≤ end_ then do
    let entry ← layout.read data pos
    let pos := pos + layout.head
    if end_ < pos + 4 then
      return none
    else
      let nameLen ← readU32 data pos
      let pos := pos + 4
      if nameLen = 0 ∨ end_ < pos + nameLen then
        return none
      else
        let name ← readName data pos nameLen
        return some (entry nameLen name, pos + nameLen)
  else .ok none

def parseEntries
    (layout : EntryLayout β)
    (data : List U8)
    (end_ : U32) : Nat → U32 → Except Stop (List β)
  | 0, _ => .error .fuel
  | fuel + 1, pos => do
      match ← parseEntry layout data end_ pos with
      | none => return []
      | some (entry, pos) =>
          let entries ←
            parseEntries layout data end_ fuel pos
          return entry :: entries

/- Nothing, where the function returns false. -/
def parseTable
    (layout : EntryLayout β)
    (data : List U8)
    (fuel : Nat)
    (tableOff tableSize : U32) :
    Except Stop (Option (List β)) :=
  if data.length < (tableOff + tableSize).toNat then .ok none
  else do
    let entries ←
      parseEntries layout data (tableOff + tableSize) fuel
        tableOff
    return some entries

end Loop

def parseDirectoryEntries :=
  parseTable dirLayout

def parseFileEntries :=
  parseTable fileLayout

def parse
    (fs : RomFs)
    (data : List U8)
    (fuel : Nat) : Except Stop (Bool × RomFs) := do
  let fs :=
    { fs with
        dirTable := []
        fileTable := []
        romfsData := data }
  match ← parseHeader data with
  | none => return (false, fs)
  | some header =>
      let fs := { fs with dataOffset := header.dataOffset }
      match ← parseDirectoryEntries data fuel
          header.dirTableOff header.dirTableSize with
      | none => return (false, fs)
      | some dirs =>
          let fs := { fs with dirTable := dirs }
          match ← parseFileEntries data fuel
              header.fileTableOff header.fileTableSize with
          | none => return (false, fs)
          | some files =>
              return (true, { fs with fileTable := files })

------
-- Paths
------

/- The parent offset of an entry at the top. -/
def NO_PARENT : U32 := 0xFFFFFFFF

/- How far the path builder climbs. -/
def MAX_DEPTH : Nat := 100

/- "/" and "." -/
def SLASH : U8 := 0x2F
def DOT : U8 := 0x2E

/- A directory with a name of its own goes in front. -/
def inDirectory
    (dir : RomFsDirEntry)
    (path : List U8) : List U8 :=
  if dir.name ≠ [DOT] ∧ dir.name ≠ [] then
    dir.name ++ SLASH :: path
  else path

/-
  Climb from directory to directory.  Only the branch for
  files compares the index with the table first.
-/
def climb
    (dirs : List RomFsDirEntry)
    (isFile : Bool) :
    Nat → U32 → List U8 → Except Stop (List U8)
  | 0, _, path => .ok path
  | depth + 1, parent, path =>
      if parent = NO_PARENT then .ok path
      else if isFile ∧ dirs.length ≤ parent.toNat then .ok path
      else do
        let dir ← index dirs parent.toNat
        climb dirs isFile depth dir.parentOffset
          (inDirectory dir path)

def buildPath
    (fs : RomFs)
    (entryIndex : U32)
    (isFile : Bool) : Except Stop (List U8) :=
  if isFile then
    if fs.fileTable.length ≤ entryIndex.toNat then .ok []
    else do
      let e ← index fs.fileTable entryIndex.toNat
      climb fs.dirTable true MAX_DEPTH e.parentOffset e.name
  else
    if fs.dirTable.length ≤ entryIndex.toNat then .ok []
    else do
      let e ← index fs.dirTable entryIndex.toNat
      climb fs.dirTable false MAX_DEPTH e.parentOffset e.name

------
-- Files by Path
------

/- The first of some entries with a path as wanted. -/
def firstPath
    (fs : RomFs)
    (isFile : Bool)
    (wanted : List U8 → Bool) :
    List Nat → Except Stop (Option Nat)
  | [] => .ok none
  | i :: is => do
      let path ← buildPath fs (BitVec.ofNat 32 i) isFile
      if wanted path then return some i
      else firstPath fs isFile wanted is

def firstFile
    (fs : RomFs)
    (path : List U8) : Except Stop (Option Nat) :=
  firstPath fs true (fun fp => decide (fp = path))
    (List.range fs.fileTable.length)

/-
  The bytes of a file, or nothing where the function returns
  false.  `resizes` says whether a vector can be made that
  long: otherwise `resize` throws.
-/
def readFile
    (resizes : Nat → Bool)
    (fs : RomFs)
    (path : List U8) : Except Stop (Option (List U8)) := do
  match ← firstFile fs path with
  | none => return none
  | some i =>
      let e ← index fs.fileTable i
      let off := e.dataOffset + fs.dataOffset.setWidth 64
      let sz := e.dataSize
      if fs.romfsData.length < (off + sz).toNat then
        return none
      else if resizes sz.toNat then
        let bytes ← copy fs.romfsData off.toNat sz.toNat
        return some bytes
      else .error .thrown

def exists_
    (fs : RomFs)
    (path : List U8) : Except Stop Bool := do
  match ← firstFile fs path with
  | some _ => return true
  | none =>
      let dir ←
        firstPath fs false
          (fun dp => decide (dp = path ∨ dp = path ++ [SLASH]))
          (List.range fs.dirTable.length)
      return dir.isSome

def fileSize
    (fs : RomFs)
    (path : List U8) : Except Stop U64 := do
  match ← firstFile fs path with
  | none => return 0
  | some i =>
      let e ← index fs.fileTable i
      return e.dataSize

end RomFs

end M1Switch
