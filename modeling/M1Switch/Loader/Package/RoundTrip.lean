import M1Switch.Library.Text
import M1Switch.Loader.Package.Reads

/-
  Archives that are written in the documented format.

  An entry of an archive takes twenty-four bytes.  The parser
  goes on by sixteen from one to the next, and looks for the
  names and the data behind entries of that size.  So it places
  the data of every archive too early, unless that is empty.
  Archives with the smaller entries are read as they are.

  Key definitions include:
    * `ArchiveFile`
    * `EntryLayout`

  Main results:
    * `parsePfs0_packed`
    * `parsePfs0_encode_iff`
-/

------
-- Archives
------

namespace M1Switch

structure ArchiveFile where
  name : List U8
  data : List U8
deriving DecidableEq

/-
  What an entry has behind its offset: the size and a padding,
  as in the structure, or the size behind an offset of sixteen
  bytes, as in the comment.  The parser expects no padding.
-/
inductive EntryLayout where
  | padded
  | wide
  | packed
deriving DecidableEq

namespace EntryLayout

def size : EntryLayout → Nat
| .padded => 24
| .wide => 24
| .packed => 16

def behind (length : U64) : EntryLayout → List U8
| .padded => Bytes.ofLong length ++ Bytes.ofLong 0
| .wide => Bytes.ofLong 0 ++ Bytes.ofLong length
| .packed => Bytes.ofLong length

theorem length_behind (length : U64) (layout : EntryLayout) :
    (layout.behind length).length + 8 = layout.size := by
  cases layout <;> rfl

end EntryLayout

namespace Archive

open Loader

/- Entries of files whose data starts at `off`. -/
def entries
    (layout : EntryLayout) : Nat → List ArchiveFile → List U8
| _, [] => []
| off, file :: files =>
    Bytes.ofLong (BitVec.ofNat 64 off) ++
      (layout.behind (BitVec.ofNat 64 file.data.length) ++
        entries layout (off + file.data.length) files)

/- Names, each with a zero behind it. -/
def stringTable (files : List ArchiveFile) : List U8 :=
  files.flatMap fun file => file.name ++ [0]

def contents (files : List ArchiveFile) : List U8 :=
  files.flatMap ArchiveFile.data

def encode
    (layout : EntryLayout)
    (files : List ArchiveFile) : List U8 :=
  Bytes.ofWord PFS0_MAGIC ++
    (Bytes.ofWord (BitVec.ofNat 32 files.length) ++
      (Bytes.ofWord (BitVec.ofNat 32 (stringTable files).length) ++
        (Bytes.ofWord 0 ++
          (entries layout 0 files ++
            (stringTable files ++ contents files)))))

/- The files as they are listed if their data is at `start`. -/
def placed : Nat → List ArchiveFile → List Pfs0File
| _, [] => []
| start, file :: files =>
    { offset := BitVec.ofNat 64 start
      size := BitVec.ofNat 64 file.data.length
      name := file.name } ::
        placed (start + file.data.length) files

/- Where the data of the first file is. -/
def dataStart
    (layout : EntryLayout)
    (files : List ArchiveFile) : Nat :=
  16 + layout.size * files.length + (stringTable files).length

/- The files with the positions their data has. -/
def listing
    (layout : EntryLayout)
    (files : List ArchiveFile) : List Pfs0File :=
  placed (dataStart layout files) files

------
-- What Is Written Where
------

variable {layout : EntryLayout}
variable {files before after : List ArchiveFile}
variable {file : ArchiveFile} {f : PackageFile}

theorem length_entries (off : Nat) (files : List ArchiveFile) :
    (entries layout off files).length =
      layout.size * files.length := by
  induction files generalizing off with
  | nil => rfl
  | cons file files ih =>
      have hLong (l : U64) : (Bytes.ofLong l).length = 8 := rfl
      have hBehind :=
        layout.length_behind (BitVec.ofNat 64 file.data.length)
      rw [entries, List.length_append, List.length_append, ih,
        hLong, List.length_cons, Nat.mul_succ]
      omega

theorem length_encode
    (layout : EntryLayout)
    (files : List ArchiveFile) :
    (encode layout files).length =
      dataStart layout files + (contents files).length := by
  have hWord (w : U32) : (Bytes.ofWord w).length = 4 := rfl
  unfold encode dataStart
  simp only [List.length_append, hWord, length_entries]
  omega

/- What stands behind the header. -/
theorem drop_encode (k : Nat) :
    (encode layout files).drop (16 + k) =
      (entries layout 0 files ++
        (stringTable files ++ contents files)).drop k := by
  rw [← List.drop_drop]
  rfl

theorem pfs0Header_encode
    (hBytes : f.bytes = encode layout files) :
    pfs0Header f 0 =
      { magic := PFS0_MAGIC
        numFiles := BitVec.ofNat 32 files.length
        stringTableSize :=
          BitVec.ofNat 32 (stringTable files).length } := by
  have hMagic : f.data.word 0 = PFS0_MAGIC := by
    apply Bytes.word_of_drop
    rw [hBytes]
    rfl
  have hFiles :
      f.data.word 4 = BitVec.ofNat 32 files.length := by
    apply Bytes.word_of_drop
    rw [hBytes]
    rfl
  have hTable :
      f.data.word 8 =
        BitVec.ofNat 32 (stringTable files).length := by
    apply Bytes.word_of_drop
    rw [hBytes]
    rfl
  unfold pfs0Header
  rw [Nat.zero_add, Nat.zero_add, hMagic, hFiles, hTable]

theorem entries_append (off : Nat) :
    entries layout off (before ++ after) =
      entries layout off before ++
        entries layout (off + (contents before).length) after := by
  induction before generalizing off with
  | nil => rfl
  | cons file before ih =>
      have hContents :
          (contents (file :: before)).length =
            file.data.length + (contents before).length := by
        unfold contents
        rw [List.flatMap_cons, List.length_append]
      rw [List.cons_append, entries, entries, ih, hContents,
        List.append_assoc, List.append_assoc, Nat.add_assoc]

theorem placed_append (start : Nat) :
    placed start (before ++ after) =
      placed start before ++
        placed (start + (contents before).length) after := by
  induction before generalizing start with
  | nil => rfl
  | cons file before ih =>
      have hContents :
          (contents (file :: before)).length =
            file.data.length + (contents before).length := by
        unfold contents
        rw [List.flatMap_cons, List.length_append]
      rw [List.cons_append, placed, placed, ih, hContents,
        List.cons_append, Nat.add_assoc]

theorem length_placed (start : Nat) (files : List ArchiveFile) :
    (placed start files).length = files.length := by
  induction files generalizing start with
  | nil => rfl
  | cons file files ih =>
      rw [placed, List.length_cons, ih, List.length_cons]

/- Where the parser takes the data to start. -/
theorem toNat_needed (header : Pfs0Header) :
    (needed header).toNat =
      16 + (header.numFiles * 16).toNat +
        header.stringTableSize.toNat := by
  have hEntries := (header.numFiles * 16).isLt
  have hTable := header.stringTableSize.isLt
  unfold needed
  rw [BitVec.toNat_add, BitVec.toNat_add, BitVec.toNat_setWidth,
    BitVec.toNat_setWidth]
  show ((16 + _ % 2 ^ 64) % 2 ^ 64 + _ % 2 ^ 64) % 2 ^ 64 = _
  omega

------
-- Entries of Sixteen Bytes
------

/- The names of files that are listed. -/
theorem strOffset_placed (start : Nat) (files : List ArchiveFile) :
    strOffset (placed start files) =
      BitVec.ofNat 32 (stringTable files).length := by
  have hFold :
      ∀ off : U32,
        (placed start files).foldl
            (fun off file =>
              off + (BitVec.ofNat 32 file.name.length + 1))
            off =
          off + BitVec.ofNat 32 (stringTable files).length := by
    induction files generalizing start with
    | nil =>
        intro off
        exact (BitVec.add_zero off).symm
    | cons file files ih =>
        intro off
        have hLength :
            (stringTable (file :: files)).length =
              file.name.length + 1 + (stringTable files).length := by
          unfold stringTable
          rw [List.flatMap_cons, List.length_append,
            List.length_append, List.length_singleton]
        rw [placed, List.foldl_cons, ih, hLength,
          BitVec.ofNat_add, BitVec.ofNat_add, BitVec.add_assoc]
        rfl
  unfold strOffset
  exact (hFold 0).trans (BitVec.zero_add _)

/- The header of an archive with the smaller entries. -/
theorem needed_packed
    (hBytes : f.bytes = encode .packed files)
    (hCount : 16 * files.length < 2 ^ 32)
    (hTable : (stringTable files).length < 2 ^ 32) :
    ((pfs0Header f 0).numFiles * 16).toNat = 16 * files.length ∧
      needed (pfs0Header f 0) =
        BitVec.ofNat 64 (dataStart .packed files) := by
  have hNumFiles :
      ((pfs0Header f 0).numFiles * 16).toNat =
        16 * files.length := by
    rw [pfs0Header_encode hBytes, BitVec.toNat_mul,
      BitVec.toNat_ofNat]
    show _ % _ * 16 % _ = _
    omega
  refine ⟨hNumFiles, ?_⟩
  have hSize :
      (pfs0Header f 0).stringTableSize.toNat =
        (stringTable files).length := by
    rw [pfs0Header_encode hBytes]
    exact Nat.mod_eq_of_lt hTable
  apply BitVec.eq_of_toNat_eq
  rw [toNat_needed, hNumFiles, hSize, BitVec.toNat_ofNat]
  show _ = (16 + 16 * files.length + _) % _
  omega

/- The file behind those that are listed is the next one. -/
theorem nextFile_packed
    (hBytes : f.bytes = encode .packed files)
    (hFiles : files = before ++ file :: after)
    (hName : 0 ∉ file.name)
    (hCount : 16 * files.length < 2 ^ 32)
    (hTable : (stringTable files).length < 2 ^ 32) :
    nextFile f 16 (pfs0Header f 0)
        (placed (dataStart .packed files) before) =
      { offset :=
          BitVec.ofNat 64
            (dataStart .packed files + (contents before).length)
        size := BitVec.ofNat 64 file.data.length
        name := file.name } := by
  rcases needed_packed hBytes hCount hTable with
    ⟨hNumFiles, hNeeded⟩
  have hLength :
      files.length = before.length + (after.length + 1) := by
    rw [hFiles, List.length_append, List.length_cons]
  have hEntries (off : Nat) (l : List ArchiveFile) :
      (entries .packed off l).length = 16 * l.length :=
    length_entries off l
  -- The entry.
  have hPos : entryPos 16 before.length = 16 + 16 * before.length := by
    unfold entryPos
    rw [BitVec.toNat_mul, BitVec.toNat_ofNat]
    show 16 + _ % _ * 16 % _ = _
    omega
  have hEntry :
      f.bytes.drop (16 + 16 * before.length) =
        Bytes.ofLong (BitVec.ofNat 64 (contents before).length) ++
          (Bytes.ofLong (BitVec.ofNat 64 file.data.length) ++
            (entries .packed
                ((contents before).length + file.data.length)
                after ++
              (stringTable files ++ contents files))) := by
    rw [hBytes, drop_encode, hFiles, entries_append,
      List.append_assoc, Nat.zero_add,
      List.drop_left' (hEntries 0 before), entries,
      List.append_assoc, List.append_assoc]
    rfl
  have hOffset :
      f.data.long (16 + 16 * before.length) =
        BitVec.ofNat 64 (contents before).length := by
    apply Bytes.long_of_drop
    rw [Nat.zero_add]
    exact hEntry
  have hSize :
      f.data.long (16 + 16 * before.length + 8) =
        BitVec.ofNat 64 file.data.length := by
    apply Bytes.long_of_drop
    rw [Nat.zero_add, ← List.drop_drop, hEntry]
    rfl
  -- The name.
  have hTableSplit :
      stringTable files =
        stringTable before ++
          (file.name ++ 0 :: stringTable after) := by
    unfold stringTable
    rw [hFiles, List.flatMap_append, List.flatMap_cons,
      List.append_assoc, List.singleton_append]
  have hTableLength :
      (stringTable files).length =
        (stringTable before).length +
          (file.name.length + ((stringTable after).length + 1)) := by
    rw [hTableSplit, List.length_append, List.length_append,
      List.length_cons]
  have hStrOffset :
      (strOffset
          (placed (dataStart .packed files) before)).toNat =
        (stringTable before).length := by
    rw [strOffset_placed]
    exact Nat.mod_eq_of_lt (by omega)
  have hInTable :
      strOffset (placed (dataStart .packed files) before) <
        (pfs0Header f 0).stringTableSize := by
    rw [BitVec.lt_def, hStrOffset, pfs0Header_encode hBytes]
    show _ < _ % _
    omega
  have hNameAt :
      f.nameAt
          (namePos 16 (pfs0Header f 0)
            (placed (dataStart .packed files) before)) =
        file.name := by
    unfold namePos PackageFile.nameAt
    rw [hNumFiles, hStrOffset, hBytes, Nat.add_assoc, drop_encode,
      ← List.drop_drop,
      List.drop_left' (hEntries 0 files), hTableSplit,
      List.append_assoc, List.drop_left, List.append_assoc]
    exact Text.takeWhile_ne_append hName _
  unfold nextFile
  rw [length_placed, hPos, hOffset, hSize, hNeeded,
    if_pos hInTable, hNameAt, ← BitVec.ofNat_add, Nat.add_comm]

/- The files, as far as they are read. -/
theorem filesFrom_packed
    (hBytes : f.bytes = encode .packed files)
    (hNames : ∀ file ∈ files, 0 ∉ file.name)
    (hCount : 16 * files.length < 2 ^ 32)
    (hTable : (stringTable files).length < 2 ^ 32)
    (hFiles : files = before ++ after) :
    filesFrom f 16 (pfs0Header f 0) before.length =
      placed (dataStart .packed files) before := by
  induction before using List.reverseRecOn generalizing after with
  | nil => rfl
  | append_singleton before file ih =>
      have hSplit : files = before ++ file :: after := by
        rw [hFiles, List.append_assoc, List.singleton_append]
      have hMem : file ∈ files := by
        rw [hSplit]
        exact List.mem_append_right _ List.mem_cons_self
      have hNext :=
        nextFile_packed hBytes hSplit (hNames file hMem) hCount
          hTable
      rw [List.length_append, List.length_singleton, filesFrom,
        ih hSplit, hNext, placed_append]
      rfl

/- An archive with the smaller entries is read as it is. -/
theorem parsePfs0_packed
    (hBytes : f.bytes = encode .packed files)
    (hNames : ∀ file ∈ files, 0 ∉ file.name)
    (hCount : 16 * files.length < 2 ^ 32)
    (hTable : (stringTable files).length < 2 ^ 32) :
    (parsePfs0 f 0 f.size).value =
      some (listing .packed files) := by
  rcases needed_packed hBytes hCount hTable with
    ⟨hNumFiles, hNeeded⟩
  have hLength := length_encode .packed files
  have hFits := f.length_lt
  rw [hBytes] at hFits
  have hSize : f.size.toNat = dataStart .packed files +
      (contents files).length := by
    rw [PackageFile.toNat_size, hBytes, hLength]
  have hStart : 16 ≤ dataStart .packed files := by
    unfold dataStart
    omega
  have hLarge : ¬ f.size < 16 := by
    rw [BitVec.lt_def, hSize]
    show ¬ _ < 16
    omega
  have hReaches : ¬ f.size < needed (pfs0Header f 0) := by
    rw [BitVec.lt_def, hSize, hNeeded, BitVec.toNat_ofNat]
    omega
  have hMagic : (pfs0Header f 0).magic = PFS0_MAGIC := by
    rw [pfs0Header_encode hBytes]
  have hCountEq :
      (pfs0Header f 0).numFiles.toNat = files.length := by
    rw [pfs0Header_encode hBytes]
    exact Nat.mod_eq_of_lt (by omega)
  rw [value_parsePfs0]
  unfold pfs0
  dsimp only
  rw [if_neg, hCountEq]
  · exact
      congrArg some
        (filesFrom_packed hBytes hNames hCount hTable
          (List.append_nil files).symm)
  · rintro (hSmall | hBad | hShort)
    · exact hLarge hSmall
    · exact hBad hMagic
    · exact hReaches hShort

/- The archive of the files "a" and "bc". -/
def packedArchive : PackageFile where
  bytes := encode .packed [⟨[0x61], [7]⟩, ⟨[0x62, 0x63], [8, 9]⟩]
  length_lt := by decide

theorem parsePfs0_packed_two :
    (parsePfs0 packedArchive 0 packedArchive.size).value =
      some
        (listing .packed
          [⟨[0x61], [7]⟩, ⟨[0x62, 0x63], [8, 9]⟩]) :=
  parsePfs0_packed rfl (by decide) (by decide) (by decide)

------
-- Entries of Twenty-Four Bytes
------

/- The first of the files that are read. -/
theorem head?_filesFrom
    (entryBase : Nat)
    (header : Pfs0Header)
    (n : Nat) :
    (filesFrom f entryBase header (n + 1)).head? =
      some (nextFile f entryBase header []) := by
  induction n with
  | zero => rfl
  | succ n ih =>
      rw [filesFrom, List.head?_append, ih]
      rfl

/- The data of the first file is taken to be too far in front. -/
theorem nextFile_nil_ne
    (hLayout : layout.size = 24)
    (hBytes : f.bytes = encode layout (file :: after)) :
    (nextFile f 16 (pfs0Header f 0) []).offset ≠
      BitVec.ofNat 64 (dataStart layout (file :: after)) := by
  have hFits := f.length_lt
  rw [hBytes, length_encode] at hFits
  have hFirst : f.data.long 16 = 0 := by
    apply Bytes.long_of_drop
    rw [hBytes]
    exact drop_encode 0
  have hNumFiles :
      ((pfs0Header f 0).numFiles * 16).toNat ≤
        16 * (file :: after).length := by
    rw [pfs0Header_encode hBytes, BitVec.toNat_mul,
      BitVec.toNat_ofNat]
    show _ % _ * 16 % _ ≤ _
    omega
  have hSize :
      (pfs0Header f 0).stringTableSize.toNat ≤
        (stringTable (file :: after)).length := by
    rw [pfs0Header_encode hBytes]
    exact Nat.mod_le _ _
  have hSome : 0 < (file :: after).length := Nat.succ_pos _
  intro hEq
  have hOffset :
      (needed (pfs0Header f 0)).toNat =
        dataStart layout (file :: after) := by
    have hNeeded :
        (nextFile f 16 (pfs0Header f 0) []).offset =
          needed (pfs0Header f 0) := by
      show f.data.long 16 + _ = _
      rw [hFirst]
      exact BitVec.zero_add _
    rw [← hNeeded, hEq, BitVec.toNat_ofNat]
    exact Nat.mod_eq_of_lt (by omega)
  rw [toNat_needed] at hOffset
  unfold dataStart at hOffset
  rw [hLayout] at hOffset
  omega

/- The header of an empty archive is all there is. -/
theorem parsePfs0_nil
    (hBytes : f.bytes = encode layout []) :
    (parsePfs0 f 0 f.size).value = some [] := by
  have hHeader := pfs0Header_encode hBytes
  have hSize : f.size = 16 := by
    unfold PackageFile.size
    rw [hBytes]
    rfl
  rw [value_parsePfs0]
  unfold pfs0
  dsimp only
  rw [hHeader, hSize]
  rfl

/- An archive with a file is not read as it is. -/
theorem parsePfs0_cons_ne
    (hLayout : layout.size = 24)
    (hBytes : f.bytes = encode layout (file :: after)) :
    (parsePfs0 f 0 f.size).value ≠
      some (listing layout (file :: after)) := by
  rw [value_parsePfs0]
  intro hParse
  unfold pfs0 at hParse
  dsimp only at hParse
  split at hParse
  · cases hParse
  · rw [Option.some.injEq] at hParse
    cases hCount : (pfs0Header f 0).numFiles.toNat with
    | zero =>
        rw [hCount] at hParse
        cases hParse
    | succ n =>
        rw [hCount] at hParse
        have hHead := congrArg List.head? hParse
        rw [Nat.zero_add, head?_filesFrom] at hHead
        have hOffset :=
          congrArg Pfs0File.offset (Option.some.inj hHead)
        exact nextFile_nil_ne hLayout hBytes hOffset

/-
  An archive in the documented format is read as it is if and
  only if there are no files in it.
-/
theorem parsePfs0_encode_iff
    (hLayout : layout.size = 24)
    (hBytes : f.bytes = encode layout files) :
    (parsePfs0 f 0 f.size).value = some (listing layout files) ↔
      files = [] := by
  constructor
  · intro hParse
    cases files with
    | nil => rfl
    | cons file after =>
        exact absurd hParse (parsePfs0_cons_ne hLayout hBytes)
  · intro hNil
    rw [hNil] at hBytes ⊢
    exact parsePfs0_nil hBytes

/- An archive with no files. -/
def emptyArchive : PackageFile where
  bytes := encode .padded []
  length_lt := by decide

theorem parsePfs0_encode_iff_nil :
    (parsePfs0 emptyArchive 0 emptyArchive.size).value =
      some (listing .padded []) :=
  (@parsePfs0_encode_iff .padded [] emptyArchive rfl rfl).mpr rfl

/- An archive of this layout comes back. -/
def RoundTrips (layout : EntryLayout) : Prop :=
  ∀ files f,
    (∀ file ∈ files, 0 ∉ file.name) →
    f.bytes = encode layout files →
    (parsePfs0 f 0 f.size).value = some (listing layout files)

/- A file that is called "a" and has one byte. -/
theorem not_roundTrips :
    ¬ RoundTrips .padded ∧ ¬ RoundTrips .wide := by
  have hNot (layout : EntryLayout) (hLayout : layout.size = 24) :
      ¬ RoundTrips layout := by
    intro hRoundTrips
    have hFits : (encode layout [⟨[0x61], [7]⟩]).length < 2 ^ 63 := by
      rw [length_encode]
      unfold dataStart
      rw [hLayout]
      decide
    exact
      parsePfs0_cons_ne hLayout rfl
        (hRoundTrips [⟨[0x61], [7]⟩] ⟨_, hFits⟩ (by decide) rfl)
  exact ⟨hNot .padded rfl, hNot .wide rfl⟩

end Archive

end M1Switch
