import M1Switch.Loader.RomFs.Tables

/-
  For which spans the RomFS reader stays inside the span and
  inside its tables.

  The table loops are bound by the sums of the table walk.
  Behind them, a path follows parent offsets, which the branch
  for directories does not compare with the table, and the
  content of a file is found by a sum of 64-bit words.

  Key definitions include:
    * `RomFs.Accesses`
    * `RomFs.Safe`

  Main results:
    * `safe_of_sound`
    * `sound_of_safe`
    * `safe_iff`
-/

namespace M1Switch

namespace RomFs

------
-- Accesses
------

/- No function on a parsed image goes outside of anything. -/
structure Accesses
    (resizes : Nat → Bool)
    (fs : RomFs) : Prop where
  buildPath :
    ∀ i isFile, ∃ path, buildPath fs i isFile = .ok path
  readFile :
    ∀ path,
      (∃ found, readFile resizes fs path = .ok found) ∨
        readFile resizes fs path = .error .thrown
  exists_ : ∀ path, ∃ b, exists_ fs path = .ok b
  fileSize : ∀ path, ∃ n, fileSize fs path = .ok n

/- Parsing ends, inside the span, and so does all the rest. -/
def Safe
    (resizes : Nat → Bool)
    (fs : RomFs)
    (data : List U8) : Prop :=
  ∃ fuel result fs', parse fs data fuel = .ok (result, fs') ∧
    Accesses resizes fs'

------
-- Paths
------

/- The directories an entry lies in, the nearest first. -/
def ancestors
    (dirs : List RomFsDirEntry) :
    Nat → U32 → List RomFsDirEntry
  | 0, _ => []
  | depth + 1, parent =>
      if parent = NO_PARENT then []
      else
        match dirs[parent.toNat]? with
        | none => []
        | some dir =>
            dir :: ancestors dirs depth dir.parentOffset

def pathOf
    (dirs : List RomFsDirEntry)
    (parent : U32)
    (name : List U8) : List U8 :=
  (ancestors dirs MAX_DEPTH parent).foldl
    (fun path dir => inDirectory dir path) name

/- A parent offset that names a directory, or none. -/
def ParentIn
    (dirs : List RomFsDirEntry)
    (parent : U32) : Prop :=
  parent = NO_PARENT ∨ parent.toNat < dirs.length

instance
    (dirs : List RomFsDirEntry)
    (parent : U32) : Decidable (ParentIn dirs parent) :=
  inferInstanceAs (Decidable (_ ∨ _))

/- A file gets its path whatever its parents are. -/
theorem climb_file
    (dirs : List RomFsDirEntry)
    (depth : Nat)
    (parent : U32)
    (path : List U8) :
    climb dirs true depth parent path =
      .ok ((ancestors dirs depth parent).foldl
        (fun path dir => inDirectory dir path) path) := by
  induction depth generalizing parent path with
  | zero => rfl
  | succ depth ih =>
      rw [climb, ancestors]
      by_cases hTop : parent = NO_PARENT
      · rw [if_pos hTop, if_pos hTop]
        rfl
      · rw [if_neg hTop, if_neg hTop]
        by_cases hOut : dirs.length ≤ parent.toNat
        · rw [if_pos ⟨rfl, hOut⟩,
            List.getElem?_eq_none hOut]
          rfl
        · have hIn : parent.toNat < dirs.length := by omega
          rw [if_neg (fun h => hOut h.2), index_of_lt hIn,
            ok_bind, ih, List.getElem?_eq_getElem hIn]
          rfl

/- A directory does where each parent is in the table. -/
theorem climb_dir
    {dirs : List RomFsDirEntry}
    (hParents :
      ∀ dir ∈ dirs, ParentIn dirs dir.parentOffset)
    {parent : U32}
    (hParent : ParentIn dirs parent)
    (depth : Nat)
    (path : List U8) :
    climb dirs false depth parent path =
      .ok ((ancestors dirs depth parent).foldl
        (fun path dir => inDirectory dir path) path) := by
  induction depth generalizing parent path with
  | zero => rfl
  | succ depth ih =>
      rw [climb, ancestors]
      by_cases hTop : parent = NO_PARENT
      · rw [if_pos hTop, if_pos hTop]
        rfl
      · have hIn : parent.toNat < dirs.length :=
          hParent.resolve_left hTop
        have hNext :=
          hParents _ (List.getElem_mem hIn)
        rw [if_neg hTop, if_neg hTop,
          if_neg (by simp), index_of_lt hIn, ok_bind,
          ih hNext, List.getElem?_eq_getElem hIn]
        rfl

/- A climb that ended found its first parent. -/
theorem parentIn_of_climb
    {dirs : List RomFsDirEntry}
    {depth : Nat}
    {parent : U32}
    {path result : List U8}
    (hClimb :
      climb dirs false (depth + 1) parent path =
        .ok result) :
    ParentIn dirs parent := by
  by_cases hTop : parent = NO_PARENT
  · exact Or.inl hTop
  · rw [climb, if_neg hTop, if_neg (by simp)] at hClimb
    rcases ok_of_bind hClimb with ⟨dir, hIndex, _⟩
    exact Or.inr (lt_of_index hIndex)

variable {e : RomFsFileEntry}

theorem buildPath_file
    (fs : RomFs)
    {i : U32}
    (hEntry : fs.fileTable[i.toNat]? = some e) :
    buildPath fs i true =
      .ok (pathOf fs.dirTable e.parentOffset e.name) := by
  rcases List.getElem?_eq_some_iff.1 hEntry with ⟨hIn, rfl⟩
  rw [buildPath, if_pos rfl, if_neg (by omega),
    index_of_lt hIn, ok_bind, climb_file]
  rfl

theorem buildPath_file_ok
    (fs : RomFs)
    (i : U32) :
    ∃ path, buildPath fs i true = .ok path := by
  by_cases hIn : i.toNat < fs.fileTable.length
  · exact ⟨_, buildPath_file fs
      (List.getElem?_eq_getElem hIn)⟩
  · refine ⟨[], ?_⟩
    rw [buildPath, if_pos rfl, if_pos (by omega)]

theorem buildPath_dir_ok
    (fs : RomFs)
    (hParents :
      ∀ dir ∈ fs.dirTable,
        ParentIn fs.dirTable dir.parentOffset)
    (i : U32) :
    ∃ path, buildPath fs i false = .ok path := by
  rw [buildPath, if_neg (by simp)]
  by_cases hIn : i.toNat < fs.dirTable.length
  · have hParent := hParents _ (List.getElem_mem hIn)
    rw [if_neg (by omega), index_of_lt hIn, ok_bind,
      climb_dir hParents hParent]
    exact ⟨_, rfl⟩
  · rw [if_pos (by omega)]
    exact ⟨[], rfl⟩

/- Each directory is tried, so that each parent is needed. -/
theorem parents_of_buildPath
    {fs : RomFs}
    (hLength : fs.dirTable.length < 2 ^ 32)
    (hPath :
      ∀ i, ∃ path, buildPath fs i false = .ok path) :
    ∀ dir ∈ fs.dirTable,
      ParentIn fs.dirTable dir.parentOffset := by
  intro dir hDir
  rcases List.getElem_of_mem hDir with ⟨i, hI, rfl⟩
  rcases hPath (BitVec.ofNat 32 i) with ⟨path, hPath⟩
  have hNat : (BitVec.ofNat 32 i).toNat = i := by
    rw [BitVec.toNat_ofNat, Nat.mod_eq_of_lt (by omega)]
  rw [buildPath, if_neg (by simp), hNat, if_neg (by omega),
    index_of_lt hI, ok_bind] at hPath
  change climb fs.dirTable false (99 + 1) _ _ = _ at hPath
  exact parentIn_of_climb hPath

------
-- Files by Path
------

/- The path of a file, by its place in the table. -/
def filePath
    (dirs : List RomFsDirEntry)
    (files : List RomFsFileEntry)
    (i : Nat) : List U8 :=
  match files[i]? with
  | none => []
  | some e => pathOf dirs e.parentOffset e.name

theorem firstPath_eq
    {fs : RomFs}
    {isFile : Bool}
    {pathAt : Nat → List U8}
    (wanted : List U8 → Bool)
    {is : List Nat}
    (hPath :
      ∀ i ∈ is,
        buildPath fs (BitVec.ofNat 32 i) isFile =
          .ok (pathAt i)) :
    firstPath fs isFile wanted is =
      .ok (is.find? fun i => wanted (pathAt i)) := by
  induction is with
  | nil => rfl
  | cons i is ih =>
      rw [List.forall_mem_cons] at hPath
      rw [firstPath, hPath.1, ok_bind, ih hPath.2,
        List.find?_cons]
      cases wanted (pathAt i) <;> rfl

/- A search that ended found such an entry, or none is one. -/
theorem of_firstPath
    {fs : RomFs}
    {isFile : Bool}
    {wanted : List U8 → Bool}
    {is : List Nat}
    {found : Option Nat}
    (hFirst : firstPath fs isFile wanted is = .ok found) :
    (∀ i, found = some i →
        i ∈ is ∧ ∃ path,
          buildPath fs (BitVec.ofNat 32 i) isFile = .ok path ∧
            wanted path) ∧
      (found = none →
        ∀ i ∈ is, ∃ path,
          buildPath fs (BitVec.ofNat 32 i) isFile = .ok path ∧
            ¬ wanted path) := by
  induction is with
  | nil =>
      cases hFirst
      constructor
      · intro i hSome
        cases hSome
      · intro _ i hMem
        cases hMem
  | cons i is ih =>
      rw [firstPath] at hFirst
      rcases ok_of_bind hFirst with ⟨path, hPath, hFirst⟩
      by_cases hWanted : wanted path = true
      · rw [if_pos hWanted] at hFirst
        cases hFirst
        constructor
        · intro j hJ
          cases hJ
          exact ⟨List.mem_cons_self, path, hPath, hWanted⟩
        · intro hNone
          cases hNone
      · rw [if_neg hWanted] at hFirst
        rcases ih hFirst with ⟨hSome, hNone⟩
        constructor
        · intro j hJ
          rcases hSome j hJ with ⟨hMem, hRest⟩
          exact ⟨List.mem_cons_of_mem i hMem, hRest⟩
        · intro hEnd
          rw [List.forall_mem_cons]
          exact ⟨⟨path, hPath, hWanted⟩, hNone hEnd⟩

theorem firstPath_ok
    {fs : RomFs}
    {isFile : Bool}
    (hPath :
      ∀ i, ∃ path, buildPath fs i isFile = .ok path)
    (wanted : List U8 → Bool)
    (is : List Nat) :
    ∃ found, firstPath fs isFile wanted is = .ok found := by
  choose pathAt hPathAt using hPath
  exact ⟨_, firstPath_eq wanted fun i _ => hPathAt _⟩

/- The first file with the path, if there is one. -/
theorem firstFile_eq
    {fs : RomFs}
    (hLength : fs.fileTable.length < 2 ^ 32)
    (path : List U8) :
    firstFile fs path =
      .ok ((List.range fs.fileTable.length).find? fun i =>
        decide (filePath fs.dirTable fs.fileTable i = path)) := by
  apply firstPath_eq
  intro i hI
  have hIn : i < fs.fileTable.length := List.mem_range.1 hI
  have hNat : (BitVec.ofNat 32 i).toNat = i := by
    rw [BitVec.toNat_ofNat, Nat.mod_eq_of_lt (by omega)]
  have hEntry := List.getElem?_eq_getElem hIn
  rw [buildPath_file fs (by rw [hNat]; exact hEntry),
    filePath, hEntry]

/- A file that is found is one of the table. -/
theorem lt_of_firstFile
    {fs : RomFs}
    (hLength : fs.fileTable.length < 2 ^ 32)
    {path : List U8}
    {i : Nat}
    (hFirst : firstFile fs path = .ok (some i)) :
    i < fs.fileTable.length ∧
      filePath fs.dirTable fs.fileTable i = path ∧
        ∀ j < i,
          filePath fs.dirTable fs.fileTable j ≠ path := by
  rw [firstFile_eq hLength] at hFirst
  injection hFirst with hFirst
  rw [List.find?_range_eq_some] at hFirst
  rcases hFirst with ⟨hPath, hMem, hBefore⟩
  refine ⟨List.mem_range.1 hMem, of_decide_eq_true hPath, ?_⟩
  intro j hJ
  simpa using hBefore j hJ

------
-- Contents
------

/- Where the content of a file starts. -/
def contentOff
    (dataOffset : U32)
    (e : RomFsFileEntry) : U64 :=
  e.dataOffset + dataOffset.setWidth 64

/- No content passes for one inside by wrapping around. -/
def ContentsSound
    (resizes : Nat → Bool)
    (size : Nat)
    (dataOffset : U32)
    (dirs : List RomFsDirEntry)
    (files : List RomFsFileEntry) : Prop :=
  ∀ i e, files[i]? = some e →
    (∀ j < i, filePath dirs files j ≠ filePath dirs files i) →
      resizes e.dataSize.toNat = true →
        ¬ Wraps 64
          ((contentOff dataOffset e).toNat + e.dataSize.toNat)
          size

/- The content of a file that was found. -/
def content
    (resizes : Nat → Bool)
    (fs : RomFs)
    (e : RomFsFileEntry) : Except Stop (Option (List U8)) :=
  if fs.romfsData.length <
      (contentOff fs.dataOffset e + e.dataSize).toNat then
    return none
  else if resizes e.dataSize.toNat then do
    let bytes ←
      copy fs.romfsData (contentOff fs.dataOffset e).toNat
        e.dataSize.toNat
    return some bytes
  else .error .thrown

theorem readFile_eq
    {resizes : Nat → Bool}
    {fs : RomFs}
    {path : List U8}
    {i : Nat}
    (hFirst : firstFile fs path = .ok (some i))
    (hEntry : fs.fileTable[i]? = some e) :
    readFile resizes fs path = content resizes fs e := by
  rcases List.getElem?_eq_some_iff.1 hEntry with ⟨hIn, rfl⟩
  rw [readFile, hFirst, ok_bind]
  simp only [index_of_lt hIn, ok_bind]
  rfl

theorem content_of_not_wraps
    {resizes : Nat → Bool}
    {fs : RomFs}
    (hWraps :
      resizes e.dataSize.toNat = true →
        ¬ Wraps 64
          ((contentOff fs.dataOffset e).toNat +
            e.dataSize.toNat) fs.romfsData.length) :
    (∃ found, content resizes fs e = .ok found) ∨
      content resizes fs e = .error .thrown := by
  unfold content
  by_cases hLong :
      fs.romfsData.length <
        (contentOff fs.dataOffset e + e.dataSize).toNat
  · rw [if_pos hLong]
    exact Or.inl ⟨none, rfl⟩
  · rw [if_neg hLong]
    by_cases hRoom : resizes e.dataSize.toNat = true
    · have hInside :=
        ((toNat_add_le_iff _ _ _).1
          (Nat.not_lt.1 hLong)).resolve_right (hWraps hRoom)
      rw [if_pos hRoom, copy_of_inside hInside.2, ok_bind]
      exact Or.inl ⟨_, rfl⟩
    · rw [if_neg hRoom]
      exact Or.inr rfl

/- A sum that wrapped around reaches the copy. -/
theorem not_wraps_of_content
    {resizes : Nat → Bool}
    {fs : RomFs}
    (hSmall : fs.romfsData.length < 2 ^ 32)
    (hContent :
      (∃ found, content resizes fs e = .ok found) ∨
        content resizes fs e = .error .thrown)
    (hRoom : resizes e.dataSize.toNat = true) :
    ¬ Wraps 64
      ((contentOff fs.dataOffset e).toNat + e.dataSize.toNat)
      fs.romfsData.length := by
  intro hWraps
  have hLe := (toNat_add_le_iff _ _ _).2 (Or.inr hWraps)
  have hOver := hWraps.1
  have hCopy :
      copy fs.romfsData (contentOff fs.dataOffset e).toNat
        e.dataSize.toNat = .error .outside := by
    rw [copy, if_neg (by omega)]
  rw [content, if_neg (Nat.not_lt.2 hLe), if_pos hRoom, hCopy]
    at hContent
  rcases hContent with ⟨found, hFound⟩ | hThrown
  · cases hFound
  · cases hThrown

------
-- Images
------

/- A parsed image whose links and contents are in place. -/
structure Linked
    (resizes : Nat → Bool)
    (fs : RomFs) : Prop where
  parents :
    ∀ dir ∈ fs.dirTable,
      ParentIn fs.dirTable dir.parentOffset
  contents :
    ContentsSound resizes fs.romfsData.length fs.dataOffset
      fs.dirTable fs.fileTable

theorem accesses_of_linked
    {resizes : Nat → Bool}
    {fs : RomFs}
    (hFiles : fs.fileTable.length < 2 ^ 32)
    (hLinked : Linked resizes fs) :
    Accesses resizes fs := by
  have hDirPath := buildPath_dir_ok fs hLinked.parents
  have hFilePath := buildPath_file_ok fs
  refine ⟨?_, ?_, ?_, ?_⟩
  · intro i isFile
    cases isFile with
    | false => exact hDirPath i
    | true => exact hFilePath i
  · intro path
    rcases firstPath_ok hFilePath (fun fp => decide (fp = path))
        (List.range fs.fileTable.length) with
      ⟨found, hFound⟩
    cases found with
    | none =>
        refine Or.inl ⟨none, ?_⟩
        rw [readFile, firstFile, hFound]
        rfl
    | some i =>
        rcases lt_of_firstFile hFiles hFound with
          ⟨hIn, hPath, hFirst⟩
        have hEntry := List.getElem?_eq_getElem hIn
        rw [readFile_eq hFound hEntry]
        apply content_of_not_wraps
        apply hLinked.contents i _ hEntry
        rw [hPath]
        exact hFirst
  · intro path
    rcases firstPath_ok hFilePath (fun fp => decide (fp = path))
        (List.range fs.fileTable.length) with
      ⟨found, hFound⟩
    rcases firstPath_ok hDirPath
        (fun dp => decide (dp = path ∨ dp = path ++ [SLASH]))
        (List.range fs.dirTable.length) with
      ⟨dir, hDir⟩
    rw [exists_, firstFile, hFound, ok_bind]
    cases found with
    | some i => exact ⟨true, rfl⟩
    | none =>
        simp only [hDir, ok_bind]
        exact ⟨_, rfl⟩
  · intro path
    rcases firstPath_ok hFilePath (fun fp => decide (fp = path))
        (List.range fs.fileTable.length) with
      ⟨found, hFound⟩
    rw [fileSize, firstFile, hFound, ok_bind]
    cases found with
    | none => exact ⟨0, rfl⟩
    | some i =>
        have hIn := (lt_of_firstFile hFiles hFound).1
        simp only [index_of_lt hIn, ok_bind]
        exact ⟨_, rfl⟩

theorem linked_of_accesses
    {resizes : Nat → Bool}
    {fs : RomFs}
    (hSmall : fs.romfsData.length < 2 ^ 32)
    (hDirs : fs.dirTable.length < 2 ^ 32)
    (hFiles : fs.fileTable.length < 2 ^ 32)
    (hAccesses : Accesses resizes fs) :
    Linked resizes fs := by
  refine ⟨parents_of_buildPath hDirs
    fun i => hAccesses.buildPath i false, ?_⟩
  intro i e hEntry hBefore
  rcases List.getElem?_eq_some_iff.1 hEntry with ⟨hIn, -⟩
  have hFirst :
      firstFile fs (filePath fs.dirTable fs.fileTable i) =
        .ok (some i) := by
    rw [firstFile_eq hFiles, List.find?_range_eq_some.2]
    refine ⟨decide_eq_true rfl, List.mem_range.2 hIn, ?_⟩
    intro j hJ
    simpa using hBefore j hJ
  have hContent :=
    hAccesses.readFile (filePath fs.dirTable fs.fileTable i)
  rw [readFile_eq hFirst hEntry] at hContent
  exact not_wraps_of_content hSmall hContent

theorem linked_of_no_files
    {resizes : Nat → Bool}
    {fs : RomFs}
    (hParents :
      ∀ dir ∈ fs.dirTable,
        ParentIn fs.dirTable dir.parentOffset)
    (hFiles : fs.fileTable = []) :
    Linked resizes fs := by
  refine ⟨hParents, ?_⟩
  intro i e hEntry
  rw [hFiles] at hEntry
  cases hEntry

def headerOf (data : List U8) : Header where
  dirTableOff := wordAt data 4
  dirTableSize := wordAt data 8
  fileTableOff := wordAt data 28
  fileTableSize := wordAt data 32
  dataOffset := wordAt data 36

theorem parseHeader_of_long
    {data : List U8}
    (hLong : 0x38 ≤ data.length) :
    parseHeader data = .ok (some (headerOf data)) := by
  have hWord :
      ∀ pos : U32, pos.toNat ≤ 36 →
        readU32 data pos = .ok (wordAt data pos.toNat) :=
    fun pos hPos => readU32_of_inside (by omega) (by omega)
  rw [parseHeader, if_neg (by omega), hWord 4 (by decide),
    hWord 8 (by decide), hWord 28 (by decide),
    hWord 32 (by decide), hWord 36 (by decide)]
  rfl

def DirTableInside (data : List U8) : Prop :=
  TableInside data (headerOf data).dirTableOff
    (headerOf data).dirTableSize

def FileTableInside (data : List U8) : Prop :=
  TableInside data (headerOf data).fileTableOff
    (headerOf data).fileTableSize

instance (data : List U8) :
    Decidable (DirTableInside data) :=
  inferInstanceAs (Decidable (TableInside _ _ _))

instance (data : List U8) :
    Decidable (FileTableInside data) :=
  inferInstanceAs (Decidable (TableInside _ _ _))

/- What the two tables of a span hold. -/
def dirsOf (data : List U8) : List RomFsDirEntry :=
  tableEntries dirLayout dirFields data
    (headerOf data).dirTableOff (headerOf data).dirTableSize

def filesOf (data : List U8) : List RomFsFileEntry :=
  tableEntries fileLayout fileFields data
    (headerOf data).fileTableOff (headerOf data).fileTableSize

/-
  What keeps the reader inside a span.  A table is looked at
  only where the checks before it let the reader come to it.
-/
structure Sound
    (resizes : Nat → Bool)
    (data : List U8) : Prop where
  dirTable :
    0x38 ≤ data.length → DirTableInside data →
      TableSound dirLayout data (headerOf data).dirTableOff
        (headerOf data).dirTableSize
  parents :
    0x38 ≤ data.length → DirTableInside data →
      ∀ dir ∈ dirsOf data,
        ParentIn (dirsOf data) dir.parentOffset
  fileTable :
    0x38 ≤ data.length → DirTableInside data →
      FileTableInside data →
        TableSound fileLayout data
          (headerOf data).fileTableOff
          (headerOf data).fileTableSize
  contents :
    0x38 ≤ data.length → DirTableInside data →
      FileTableInside data →
        ContentsSound resizes data.length
          (headerOf data).dataOffset (dirsOf data)
          (filesOf data)

------
-- Safety of the Reader
------

/- The image before any table was read. -/
def cleared
    (fs : RomFs)
    (data : List U8) : RomFs :=
  { fs with
      dirTable := []
      fileTable := []
      romfsData := data }

/- The image with the header and some tables read. -/
def loaded
    (data : List U8)
    (dirs : List RomFsDirEntry)
    (files : List RomFsFileEntry) : RomFs where
  dataOffset := (headerOf data).dataOffset
  dirTable := dirs
  fileTable := files
  romfsData := data

section Parse

variable {resizes : Nat → Bool} {fs : RomFs}
variable {data : List U8}

theorem parse_of_short
    (fs : RomFs)
    (hShort : ¬ 0x38 ≤ data.length)
    (fuel : Nat) :
    parse fs data fuel = .ok (false, cleared fs data) := by
  rw [parse, parseHeader, if_pos (by omega)]
  rfl

theorem parse_of_long
    (fs : RomFs)
    (hLong : 0x38 ≤ data.length)
    (fuel : Nat) :
    parse fs data fuel = (do
      match ← parseDirectoryEntries data fuel
          (headerOf data).dirTableOff
          (headerOf data).dirTableSize with
      | none => return (false, loaded data [] [])
      | some dirs =>
          match ← parseFileEntries data fuel
              (headerOf data).fileTableOff
              (headerOf data).fileTableSize with
          | none => return (false, loaded data dirs [])
          | some files =>
              return (true, loaded data dirs files)) := by
  rw [parse, parseHeader_of_long hLong]
  rfl

/-
  The files of a parsed image are those of a file table, and
  an image that was not parsed has none.
-/
theorem fileTable_of_parse
    {fs fs' : RomFs}
    {parsed : Bool}
    {fuel : Nat}
    (hParse : parse fs data fuel = .ok (parsed, fs')) :
    (parsed = true →
        ∃ tableOff tableSize,
          parseFileEntries data fuel tableOff tableSize =
            .ok (some fs'.fileTable)) ∧
      (parsed = false → fs'.fileTable = []) := by
  by_cases hLong : 0x38 ≤ data.length
  · rw [parse_of_long fs hLong] at hParse
    rcases ok_of_bind hParse with ⟨dirs, _, hParse⟩
    cases dirs with
    | none =>
        cases hParse
        exact ⟨fun hParsed => (nomatch hParsed), fun _ => rfl⟩
    | some dirs =>
        rcases ok_of_bind hParse with ⟨files, hFiles, hParse⟩
        cases files with
        | none =>
            cases hParse
            exact ⟨fun hParsed => (nomatch hParsed),
              fun _ => rfl⟩
        | some files =>
            cases hParse
            exact ⟨fun _ => ⟨_, _, hFiles⟩,
              fun hParsed => (nomatch hParsed)⟩
  · rw [parse_of_short fs hLong] at hParse
    cases hParse
    exact ⟨fun hParsed => (nomatch hParsed), fun _ => rfl⟩

/- Whether an image is parsed depends on its bytes alone. -/
theorem parsed_congr
    (fs fs' : RomFs)
    (data : List U8)
    (fuel : Nat) :
    (parse fs data fuel).map Prod.fst =
      (parse fs' data fuel).map Prod.fst := by
  by_cases hLong : 0x38 ≤ data.length
  · rw [parse_of_long fs hLong, parse_of_long fs' hLong]
  · rw [parse_of_short fs hLong, parse_of_short fs' hLong]
    rfl

theorem safe_of_sound
    (fs : RomFs)
    (hSound : Sound resizes data) :
    Safe resizes fs data := by
  have hNone :
      ∀ fs' : RomFs, fs'.dirTable = [] → fs'.fileTable = [] →
        Accesses resizes fs' := by
    intro fs' hDirs hFiles
    apply accesses_of_linked (by rw [hFiles]; decide)
    exact linked_of_no_files (by simp [hDirs]) hFiles
  by_cases hLong : 0x38 ≤ data.length
  · by_cases hDir : DirTableInside data
    · have hDirs :=
        parseTable_of_sound dirLayout_reads hDir
          (hSound.dirTable hLong hDir) (Nat.le_refl (2 ^ 32))
      have hParents := hSound.parents hLong hDir
      by_cases hFile : FileTableInside data
      · have hFiles :=
          parseTable_of_sound fileLayout_reads hFile
            (hSound.fileTable hLong hDir hFile)
            (Nat.le_refl (2 ^ 32))
        refine ⟨2 ^ 32, true,
          loaded data (dirsOf data) (filesOf data), ?_, ?_⟩
        · rw [parse_of_long fs hLong, parseDirectoryEntries,
            hDirs, ok_bind]
          simp only [parseFileEntries, hFiles, ok_bind]
          rfl
        · apply accesses_of_linked
          · exact length_tableEntries_lt _ _ _ _ _
          · exact ⟨hParents, hSound.contents hLong hDir hFile⟩
      · refine ⟨2 ^ 32, false, loaded data (dirsOf data) [],
          ?_, ?_⟩
        · rw [parse_of_long fs hLong, parseDirectoryEntries,
            hDirs, ok_bind]
          simp only [parseFileEntries,
            parseTable_of_not_inside hFile, ok_bind]
          rfl
        · apply accesses_of_linked (by change 0 < _; decide)
          exact linked_of_no_files hParents rfl
    · refine ⟨0, false, loaded data [] [], ?_,
        hNone _ rfl rfl⟩
      rw [parse_of_long fs hLong, parseDirectoryEntries,
        parseTable_of_not_inside hDir]
      rfl
  · exact ⟨0, false, cleared fs data,
      parse_of_short fs hLong 0, hNone _ rfl rfl⟩

/- In a span of less than 4 GiB only a sound image is safe. -/
theorem sound_of_safe
    (hSmall : data.length < 2 ^ 32)
    (hSafe : Safe resizes fs data) :
    Sound resizes data := by
  rcases hSafe with ⟨fuel, result, fs', hParse, hAccesses⟩
  -- What the parse comes to, as far as it got.
  have hDirs :
      0x38 ≤ data.length → DirTableInside data →
        TableSound dirLayout data
            (headerOf data).dirTableOff
            (headerOf data).dirTableSize ∧
          (FileTableInside data →
            TableSound fileLayout data
                (headerOf data).fileTableOff
                (headerOf data).fileTableSize ∧
              fs' = loaded data (dirsOf data) (filesOf data)) ∧
          (¬ FileTableInside data →
            fs' = loaded data (dirsOf data) []) := by
    intro hLong hDir
    rw [parse_of_long fs hLong] at hParse
    rcases ok_of_bind hParse with ⟨dirs, hDirs, hParse⟩
    rcases sound_of_parseTable dirLayout_reads hSmall hDir hDirs
      with ⟨hSound, rfl⟩
    rcases ok_of_bind hParse with ⟨files, hFiles, hParse⟩
    refine ⟨hSound, ?_, ?_⟩
    · intro hFile
      rcases sound_of_parseTable fileLayout_reads hSmall hFile
          hFiles with
        ⟨hSound, rfl⟩
      cases hParse
      exact ⟨hSound, rfl⟩
    · intro hFile
      rw [parseFileEntries,
        parseTable_of_not_inside hFile] at hFiles
      cases hFiles
      cases hParse
      rfl
  have hLinked :
      ∀ files : List RomFsFileEntry, files.length < 2 ^ 32 →
        fs' = loaded data (dirsOf data) files →
          Linked resizes (loaded data (dirsOf data) files) := by
    intro files hFiles hEq
    apply linked_of_accesses hSmall _ hFiles
    · rw [← hEq]
      exact hAccesses
    · exact length_tableEntries_lt _ _ _ _ _
  refine ⟨fun hLong hDir => (hDirs hLong hDir).1, ?_,
    fun hLong hDir hFile => ((hDirs hLong hDir).2.1 hFile).1,
    ?_⟩
  · intro hLong hDir
    by_cases hFile : FileTableInside data
    · have hEq := ((hDirs hLong hDir).2.1 hFile).2
      exact (hLinked _ (length_tableEntries_lt _ _ _ _ _)
        hEq).parents
    · have hEq := (hDirs hLong hDir).2.2 hFile
      exact (hLinked [] (by decide) hEq).parents
  · intro hLong hDir hFile
    have hEq := ((hDirs hLong hDir).2.1 hFile).2
    exact (hLinked _ (length_tableEntries_lt _ _ _ _ _)
      hEq).contents

/-
  A sound image keeps the reader inside, and in a span of less
  than 4 GiB nothing else does.
-/
theorem safe_iff
    (resizes : Nat → Bool)
    (fs : RomFs)
    (data : List U8) :
    (Sound resizes data → Safe resizes fs data) ∧
      (data.length < 2 ^ 32 →
        (Safe resizes fs data ↔ Sound resizes data)) :=
  ⟨safe_of_sound fs,
    fun hSmall => ⟨sound_of_safe hSmall, safe_of_sound fs⟩⟩

end Parse

/- A directory "a", and in it a file "b" of two bytes. -/
def sample : List U8 :=
  [0, 0, 0, 0, 56, 0, 0, 0, 21, 0, 0, 0] ++
    List.replicate 16 0 ++
    [77, 0, 0, 0, 29, 0, 0, 0, 106, 0, 0, 0] ++
    List.replicate 16 0 ++
    [255, 255, 255, 255] ++ List.replicate 12 0 ++
    [1, 0, 0, 0, 97] ++
    List.replicate 16 0 ++ [2, 0, 0, 0, 0, 0, 0, 0] ++
    [1, 0, 0, 0, 98] ++ [1, 2]

theorem sample_starts :
    starts dirLayout sample 77 56 = [56, 77] ∧
      starts fileLayout sample 106 77 = [77, 106] := by
  constructor
  · rw [starts_of_whole (by decide),
      show nextStart dirLayout sample 56 = 77 by decide,
      starts_of_not_whole (by decide)]
  · rw [starts_of_whole (by decide),
      show nextStart fileLayout sample 77 = 106 by decide,
      starts_of_not_whole (by decide)]

theorem sample_tables :
    dirsOf sample = [entryAt dirLayout dirFields sample 56] ∧
      filesOf sample =
        [entryAt fileLayout fileFields sample 77] := by
  constructor
  · change ((starts dirLayout sample 77 56).filter _).map _ = _
    rw [sample_starts.1]
    rfl
  · change ((starts fileLayout sample 106 77).filter _).map _ =
      _
    rw [sample_starts.2]
    rfl

theorem sample_sound : Sound (fun _ => true) sample := by
  rcases sample_tables with ⟨hDirs, hFiles⟩
  refine ⟨fun _ _ => ?_, fun _ _ => ?_, fun _ _ _ => ?_,
    fun _ _ _ => ?_⟩
  · change ∀ q ∈ starts dirLayout sample 77 56,
      EntrySound dirLayout sample 77 q
    rw [sample_starts.1]
    decide
  · rw [hDirs]
    decide
  · change ∀ q ∈ starts fileLayout sample 106 77,
      EntrySound fileLayout sample 106 q
    rw [sample_starts.2]
    decide
  · intro i e hEntry _ _
    rw [hFiles] at hEntry
    rcases List.mem_singleton.1 (List.mem_of_getElem? hEntry)
      with rfl
    decide

theorem sample_safe : Safe (fun _ => true) {} sample :=
  (safe_iff (fun _ => true) {} sample).1 sample_sound

/- A table of 20 bytes at the end of the span. -/
def cutTable : List U8 :=
  ((List.replicate 76 0).set 28 56).set 32 20

/- The loop reads 24 bytes of it. -/
theorem cutTable_not_safe :
    ¬ Safe (fun _ => true) {} cutTable := by
  intro hSafe
  have hTable :=
    (sound_of_safe (by decide) hSafe).fileTable (by decide)
      (by decide) (by decide)
  have hEntry := hTable 56 (mem_starts fileLayout _ _ _)
  exact absurd (hEntry.head (by decide)) (by decide)

end RomFs

end M1Switch
