import M1Switch.Loader.RomFs.Safety
import M1Switch.Services.Fs

/-
  Paths of requests: what normalising makes of them, and what
  the service says they are.

  Slashes in front go before and after the mount name, which
  goes once.  A path is said to be a file wherever the image
  has something under it, and else a directory: this is right
  for the root and for files, and for nothing else.

  Key definitions include:
    * `RomFs.IsFile`
    * `RomFs.IsDirectory`

  Main results:
    * `normalizePath_idempotent_iff`
    * `normalizePath_spec`
    * `classified_iff`
-/

------
-- Normal Paths
------

namespace M1Switch

namespace FsService

open RomFs (SLASH Stop ok_bind ok_of_bind)

theorem dropSlashes_slash (p : List U8) :
    dropSlashes (SLASH :: p) = dropSlashes p :=
  rfl

theorem dropSlashes_replicate
    (k : Nat)
    (p : List U8) :
    dropSlashes (List.replicate k SLASH ++ p) =
      dropSlashes p := by
  induction k with
  | zero => rfl
  | succ k ih =>
      rw [List.replicate_succ, List.cons_append,
        dropSlashes_slash, ih]

/- No slash is left in front. -/
theorem head_dropSlashes (p : List U8) :
    (dropSlashes p).head? ≠ some SLASH := by
  induction p with
  | nil =>
      intro hHead
      cases hHead
  | cons c p ih =>
      by_cases hSlash : c = SLASH
      · rw [hSlash, dropSlashes_slash]
        exact ih
      · unfold dropSlashes
        rw [List.dropWhile_cons_of_neg (by simpa using hSlash)]
        intro hHead
        exact hSlash (Option.some.inj hHead)

variable {p : List U8}

theorem dropSlashes_of_head
    (hHead : p.head? ≠ some SLASH) :
    dropSlashes p = p := by
  cases p with
  | nil => rfl
  | cons c p =>
      have hSlash : c ≠ SLASH :=
        fun hEq => hHead (congrArg some hEq)
      unfold dropSlashes
      rw [List.dropWhile_cons_of_neg (by simpa using hSlash)]

theorem length_dropSlashes_le (p : List U8) :
    (dropSlashes p).length ≤ p.length :=
  (List.dropWhile_sublist _).length_le

/- Slashes in front make no difference. -/
theorem normalizePath_slashes
    (k : Nat)
    (p : List U8) :
    normalizePath (List.replicate k SLASH ++ p) =
      normalizePath p := by
  unfold normalizePath
  rw [dropSlashes_replicate]

theorem head_normalizePath (p : List U8) :
    (normalizePath p).head? ≠ some SLASH :=
  head_dropSlashes _

/- A path with nothing in front stays as it is. -/
theorem normalizePath_of_plain
    (hHead : p.head? ≠ some SLASH)
    (hMount : ¬ MOUNT <+: p) :
    normalizePath p = p := by
  unfold normalizePath dropMount
  rw [dropSlashes_of_head hHead, if_neg hMount,
    dropSlashes_of_head hHead]

/- A mount name is taken off. -/
theorem normalizePath_of_mount
    (hMount : MOUNT <+: dropSlashes p) :
    normalizePath p = dropSlashes ((dropSlashes p).drop 6) := by
  unfold normalizePath dropMount
  rw [if_pos hMount]

/- What starts with a mount name does not stay. -/
theorem normalizePath_ne
    (hHead : p.head? ≠ some SLASH)
    (hMount : MOUNT <+: p) :
    normalizePath p ≠ p := by
  have hLength := hMount.length_le
  have hSame := dropSlashes_of_head hHead
  have hLe := length_dropSlashes_le (p.drop 6)
  intro hEq
  rw [normalizePath_of_mount (by rw [hSame]; exact hMount),
    hSame] at hEq
  rw [hEq, List.length_drop] at hLe
  change 6 ≤ _ at hLength
  omega

/- A second pass changes nothing if no mount name is left. -/
theorem normalizePath_idempotent_iff (p : List U8) :
    normalizePath (normalizePath p) = normalizePath p ↔
      ¬ MOUNT <+: normalizePath p := by
  constructor
  · intro hSame hMount
    exact normalizePath_ne (head_normalizePath p) hMount hSame
  · intro hMount
    exact normalizePath_of_plain (head_normalizePath p) hMount

/- One is left where a second one follows the first. -/
theorem mount_normalizePath_iff (p : List U8) :
    MOUNT <+: normalizePath p ↔
      MOUNT <+: dropSlashes p ∧
        MOUNT <+: dropSlashes ((dropSlashes p).drop 6) := by
  by_cases hMount : MOUNT <+: dropSlashes p
  · rw [normalizePath_of_mount hMount]
    exact (and_iff_right hMount).symm
  · have hPlain : normalizePath p = dropSlashes p := by
      unfold normalizePath dropMount
      rw [if_neg hMount, dropSlashes_of_head
        (head_dropSlashes p)]
    rw [hPlain]
    constructor
    · intro hLeft
      exact absurd hLeft hMount
    · rintro ⟨hFirst, _⟩
      exact hFirst

/-
  Slashes in front make no difference and none is left.  One
  mount name is taken off, so that a second pass takes off
  more exactly where two of them stand behind each other.
-/
theorem normalizePath_spec (p : List U8) :
    (∀ k, normalizePath (List.replicate k SLASH ++ p) =
        normalizePath p) ∧
      (normalizePath p).head? ≠ some SLASH ∧
      (normalizePath (normalizePath p) = normalizePath p ↔
        ¬ MOUNT <+: normalizePath p) ∧
      (MOUNT <+: normalizePath p ↔
        MOUNT <+: dropSlashes p ∧
          MOUNT <+:
            dropSlashes ((dropSlashes p).drop 6)) :=
  ⟨fun k => normalizePath_slashes k p, head_normalizePath p,
    normalizePath_idempotent_iff p, mount_normalizePath_iff p⟩

/- "romfs:romfs:a" -/
def mountedTwice : List U8 :=
  MOUNT ++ MOUNT ++ [0x61]

theorem mountedTwice_again :
    normalizePath (normalizePath mountedTwice) ≠
        normalizePath mountedTwice ∧
      MOUNT <+: normalizePath mountedTwice := by
  decide

end FsService

------
-- Files and Directories of an Image
------

namespace RomFs

/- Some file has the path. -/
def IsFile (fs : RomFs) (path : List U8) : Prop :=
  ∃ i < fs.fileTable.length,
    fs.buildPath (BitVec.ofNat 32 i) true = .ok path

/- The root, or the path of some directory, as the reader
compares them. -/
def IsDirectory (fs : RomFs) (path : List U8) : Prop :=
  path = [] ∨
    ∃ i < fs.dirTable.length,
      fs.buildPath (BitVec.ofNat 32 i) false = .ok path ∨
        fs.buildPath (BitVec.ofNat 32 i) false =
          .ok (path ++ [SLASH])

instance (fs : RomFs) (path : List U8) :
    Decidable (fs.IsFile path) :=
  inferInstanceAs (Decidable (∃ i < _, _))

instance (fs : RomFs) (path : List U8) :
    Decidable (fs.IsDirectory path) :=
  inferInstanceAs (Decidable (_ ∨ ∃ i < _, _))

/- The image is one that was parsed from some span. -/
def Parsed (fs : RomFs) : Prop :=
  ∃ old data fuel, parse old data fuel = .ok (true, fs)

/- Directories in front leave a path what it was, or more. -/
theorem climb_ne_nil
    {dirs : List RomFsDirEntry}
    {isFile : Bool}
    {depth : Nat}
    {parent : U32}
    {path result : List U8}
    (hClimb :
      climb dirs isFile depth parent path = .ok result)
    (hPath : path ≠ []) :
    result ≠ [] := by
  induction depth generalizing parent path with
  | zero =>
      cases hClimb
      exact hPath
  | succ depth ih =>
      rw [climb] at hClimb
      split at hClimb
      · cases hClimb
        exact hPath
      · split at hClimb
        · cases hClimb
          exact hPath
        · rcases ok_of_bind hClimb with ⟨dir, _, hRest⟩
          apply ih hRest
          unfold inDirectory
          split
          · simp
          · exact hPath

variable {fs : RomFs}

/- No file of a parsed image has the path of the root. -/
theorem Parsed.not_isFile_nil
    (hParsed : fs.Parsed) :
    ¬ fs.IsFile [] := by
  rcases hParsed with ⟨old, data, fuel, hParse⟩
  rcases (fileTable_of_parse hParse).1 rfl with
    ⟨tableOff, tableSize, hTable⟩
  have hNames : ∀ e ∈ fs.fileTable, e.name ≠ [] := by
    apply name_of_parseTable _ hTable
    intro data pos entry hRead n bytes
    rcases ok_of_bind hRead with ⟨_, _, hRead⟩
    rcases ok_of_bind hRead with ⟨_, _, hRead⟩
    rcases ok_of_bind hRead with ⟨_, _, hRead⟩
    rcases ok_of_bind hRead with ⟨_, _, hRead⟩
    cases hRead
    rfl
  rintro ⟨i, hI, hPath⟩
  have hIn :
      (BitVec.ofNat 32 i).toNat < fs.fileTable.length := by
    rw [BitVec.toNat_ofNat]
    exact Nat.lt_of_le_of_lt (Nat.mod_le _ _) hI
  rw [buildPath, if_pos rfl, if_neg (by omega),
    index_of_lt hIn, ok_bind] at hPath
  exact climb_ne_nil hPath (hNames _ (List.getElem_mem hIn))
    rfl

/- A file is found, whatever the directories are. -/
theorem firstFile_isSome_iff
    (fs : RomFs)
    (path : List U8) :
    ∃ found, firstFile fs path = .ok found ∧
      (found.isSome ↔ fs.IsFile path) := by
  rcases firstPath_ok (buildPath_file_ok fs)
      (fun fp => decide (fp = path))
      (List.range fs.fileTable.length) with
    ⟨found, hFound⟩
  refine ⟨found, hFound, ?_⟩
  rcases of_firstPath hFound with ⟨hSome, hNone⟩
  constructor
  · intro hIsSome
    rcases Option.isSome_iff_exists.1 hIsSome with ⟨i, hI⟩
    rcases hSome i hI with ⟨hMem, fp, hPath, hWanted⟩
    refine ⟨i, List.mem_range.1 hMem, ?_⟩
    rw [hPath, of_decide_eq_true hWanted]
  · rintro ⟨i, hI, hPath⟩
    by_contra hEnd
    rcases hNone (by simpa using hEnd) i
        (List.mem_range.2 hI) with
      ⟨fp, hBuilt, hOther⟩
    rw [hPath] at hBuilt
    cases hBuilt
    exact hOther (decide_eq_true rfl)

/- What can be read is a file. -/
theorem isFile_of_readFile
    {resizes : Nat → Bool}
    {path bytes : List U8}
    (hRead : readFile resizes fs path = .ok (some bytes)) :
    fs.IsFile path := by
  rcases firstFile_isSome_iff fs path with
    ⟨found, hFound, hIff⟩
  rw [readFile, hFound, ok_bind] at hRead
  cases found with
  | none => cases hRead
  | some i => exact hIff.1 rfl

theorem exists_of_isFile
    {path : List U8}
    (hFile : fs.IsFile path) :
    fs.exists_ path = .ok true := by
  rcases firstFile_isSome_iff fs path with
    ⟨found, hFound, hIff⟩
  rcases Option.isSome_iff_exists.1 (hIff.2 hFile) with
    ⟨i, rfl⟩
  rw [exists_, hFound]
  rfl

/- Else what is there is a directory. -/
theorem isDirectory_of_exists
    {path : List U8}
    (hRoot : path ≠ [])
    (hFile : ¬ fs.IsFile path)
    {found : Bool}
    (hExists : fs.exists_ path = .ok found) :
    found = true ↔ fs.IsDirectory path := by
  rcases firstFile_isSome_iff fs path with
    ⟨file, hFound, hIff⟩
  have hNone : file = none := by
    cases file with
    | none => rfl
    | some i => exact absurd (hIff.1 rfl) hFile
  rw [hNone] at hFound
  rw [exists_, hFound, ok_bind] at hExists
  rcases ok_of_bind hExists with ⟨dir, hDir, hExists⟩
  cases hExists
  rcases of_firstPath hDir with ⟨hSome, hNone⟩
  constructor
  · intro hIsSome
    rcases Option.isSome_iff_exists.1 hIsSome with ⟨i, hI⟩
    rcases hSome i hI with ⟨hMem, dp, hPath, hWanted⟩
    refine Or.inr ⟨i, List.mem_range.1 hMem, ?_⟩
    rw [hPath]
    rcases of_decide_eq_true hWanted with rfl | rfl
    · exact Or.inl rfl
    · exact Or.inr rfl
  · rintro (hEmpty | ⟨i, hI, hDp⟩)
    · exact absurd hEmpty hRoot
    · by_contra hEnd
      rcases hNone (by simpa using hEnd) i
          (List.mem_range.2 hI) with
        ⟨dp, hBuilt, hOther⟩
      rw [hBuilt] at hDp
      rcases hDp with hSame | hSame
      · cases hSame
        exact hOther (decide_eq_true (Or.inl rfl))
      · cases hSame
        exact hOther (decide_eq_true (Or.inr rfl))

end RomFs

------
-- What a Path is Said to Be
------

namespace FsService

open RomFs (SLASH Stop ok_bind ok_of_bind)

/- The path a request names, made normal. -/
def requested (call : ServiceCall) : List U8 :=
  normalizePath (requestPath call.rawIn)

/-
  The reply says that the path is a file exactly where it is
  one, and that it is a directory exactly where it is one.
  Whatever can be read is a file.
-/
def Classified
    (fs : FsService)
    (call : ServiceCall) : Prop :=
  ∃ type : FsEntryType,
    fs.handleGetEntryType call =
        .ok (fs, call.replyBytes (Bytes.ofWord type.toU32)) ∧
      (type = .file ↔ fs.romfs.IsFile (requested call)) ∧
      (type = .directory ↔
        fs.romfs.IsDirectory (requested call)) ∧
      ∀ resizes bytes,
        fs.romfs.readFile resizes (requested call) =
            .ok (some bytes) →
          type = .file

section Classify

variable {fs : FsService} {call : ServiceCall}

theorem handleGetEntryType_eq
    (fs : FsService)
    (call : ServiceCall) :
    fs.handleGetEntryType call = (do
      let type ← fs.entryType (requested call)
      return (fs,
        call.replyBytes (Bytes.ofWord type.toU32))) :=
  rfl

/- With room for a word, a reply says one type only. -/
theorem type_of_reply
    (hRoom : 4 ≤ call.outMax)
    {type type' : FsEntryType}
    (hReply :
      call.replyBytes (Bytes.ofWord type.toU32) =
        call.replyBytes (Bytes.ofWord type'.toU32)) :
    type = type' := by
  have hBytes :
      ∀ t : FsEntryType,
        (call.replyBytes (Bytes.ofWord t.toU32)).written =
          Bytes.ofWord t.toU32 := by
    intro t
    unfold ServiceCall.replyBytes
    rw [if_pos (show (Bytes.ofWord t.toU32).length ≤ _
      from hRoom)]
  have hWritten := congrArg ServiceReply.written hReply
  rw [hBytes, hBytes] at hWritten
  cases type <;> cases type' <;>
    first
    | rfl
    | exact absurd hWritten (by decide)

theorem classified_of_entryType
    {type : FsEntryType}
    (hRoom : 4 ≤ call.outMax)
    (hType : fs.entryType (requested call) = .ok type) :
    Classified fs call ↔
      (type = .file ↔ fs.romfs.IsFile (requested call)) ∧
        (type = .directory ↔
          fs.romfs.IsDirectory (requested call)) := by
  have hReply :
      fs.handleGetEntryType call =
        .ok (fs,
          call.replyBytes (Bytes.ofWord type.toU32)) := by
    rw [handleGetEntryType_eq, hType]
    rfl
  constructor
  · rintro ⟨said, hSaid, hFile, hDirectory, _⟩
    rw [hReply] at hSaid
    have hSame := Prod.mk.inj (Except.ok.inj hSaid)
    rw [type_of_reply hRoom hSame.2]
    exact ⟨hFile, hDirectory⟩
  · rintro ⟨hFile, hDirectory⟩
    refine ⟨type, hReply, hFile, hDirectory, ?_⟩
    intro resizes bytes hRead
    exact hFile.2 (RomFs.isFile_of_readFile hRead)

theorem entryType_root
    (hRoot : requested call = []) :
    fs.entryType (requested call) = .ok .directory := by
  unfold entryType
  rw [if_pos (Or.inl hRoot)]

/- A path below the root is looked up in the image. -/
theorem entryType_below
    (hLoaded : fs.romfsLoaded = true)
    (hBelow : requested call ≠ []) :
    fs.entryType (requested call) = (do
      if ← fs.romfs.exists_ (requested call) then return .file
      else return .directory) := by
  have hSlash : requested call ≠ [SLASH] := by
    intro hEq
    have hHead :=
      head_normalizePath (requestPath call.rawIn)
    rw [show normalizePath (requestPath call.rawIn) = _
      from hEq] at hHead
    exact hHead rfl
  unfold entryType
  rw [if_neg (not_or.2 ⟨hBelow, hSlash⟩), if_pos hLoaded]

/-
  The reply is right for the root and for files that are not
  directories too, and for nothing else: a directory is said
  to be a file, and what is missing to be a directory.
-/
theorem classified_iff
    (hLoaded : fs.romfsLoaded = true)
    (hParsed : fs.romfs.Parsed)
    (hRoom : 4 ≤ call.outMax) :
    Classified fs call ↔
      requested call = [] ∨
        fs.romfs.IsFile (requested call) ∧
          ¬ fs.romfs.IsDirectory (requested call) := by
  by_cases hRoot : requested call = []
  · have hNoFile := hParsed.not_isFile_nil
    rw [classified_of_entryType hRoom (entryType_root hRoot),
      hRoot]
    simp [hNoFile, RomFs.IsDirectory]
  · have hType := entryType_below hLoaded hRoot
    by_cases hFile : fs.romfs.IsFile (requested call)
    · rw [RomFs.exists_of_isFile hFile, ok_bind] at hType
      rw [classified_of_entryType hRoom hType]
      simp [hRoot, hFile]
    · have hRight :
          ¬ (requested call = [] ∨
            fs.romfs.IsFile (requested call) ∧
              ¬ fs.romfs.IsDirectory (requested call)) := by
        rintro (hNil | ⟨hIs, _⟩)
        · exact hRoot hNil
        · exact hFile hIs
      rw [iff_false_right hRight]
      intro hClassified
      cases hExists : fs.romfs.exists_ (requested call) with
      | error stop =>
          rcases hClassified with ⟨said, hSaid, _⟩
          rw [handleGetEntryType_eq, hType, hExists] at hSaid
          cases hSaid
      | ok found =>
          have hDirectory :=
            RomFs.isDirectory_of_exists hRoot hFile hExists
          rw [hExists, ok_bind] at hType
          cases found with
          | true =>
              rw [classified_of_entryType hRoom hType]
                at hClassified
              exact hFile (hClassified.1.1 rfl)
          | false =>
              rw [classified_of_entryType hRoom hType]
                at hClassified
              have hMissing :=
                hDirectory.2 (hClassified.2.1 rfl)
              cases hMissing

end Classify

/- The directory "a" with the file "b" in it. -/
def sampleService : FsService :=
  match setRomFS {} RomFs.sample 4 with
  | .ok fs => fs
  | .error _ => {}

theorem sampleService_parsed :
    sampleService.romfs.Parsed :=
  ⟨{}, RomFs.sample, 4, by decide⟩

/- What a path is. -/
def askFor (path : List U8) : ServiceCall where
  service := 0
  cmdId := 0x04050000
  rawIn := Bytes.ofWord (BitVec.ofNat 32 path.length) ++ path
  outMax := 4

/- The directory is said to be a file. -/
theorem sample_directory :
    sampleService.handleGetEntryType (askFor [0x61]) =
        .ok (sampleService,
          { written := [1, 0, 0, 0], outSize := 4 }) ∧
      sampleService.romfs.IsDirectory
        (requested (askFor [0x61])) ∧
      ¬ Classified sampleService (askFor [0x61]) := by
  have hReply :
      sampleService.handleGetEntryType (askFor [0x61]) =
        .ok (sampleService,
          { written := [1, 0, 0, 0], outSize := 4 }) :=
    rfl
  have hNoFile :
      ¬ sampleService.romfs.IsFile
        (requested (askFor [0x61])) := by
    decide
  refine ⟨hReply, by decide, ?_⟩
  rintro ⟨type, hSaid, hFile, _⟩
  rw [hReply] at hSaid
  have hWord := (Prod.mk.inj (Except.ok.inj hSaid)).2
  cases type with
  | directory => exact absurd hWord (by decide)
  | file => exact hNoFile (hFile.1 rfl)

theorem sample_classified_iff :
    Classified sampleService (askFor [0x61, 0x2F, 0x62]) ↔
      requested (askFor [0x61, 0x2F, 0x62]) = [] ∨
        sampleService.romfs.IsFile
            (requested (askFor [0x61, 0x2F, 0x62])) ∧
          ¬ sampleService.romfs.IsDirectory
            (requested (askFor [0x61, 0x2F, 0x62])) :=
  classified_iff (by decide) sampleService_parsed (by decide)

end FsService

end M1Switch
