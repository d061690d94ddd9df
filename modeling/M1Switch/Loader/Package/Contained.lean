import M1Switch.Loader.Package.Reads

/-
  Package loaders that keep to the file.

  An archive says itself how many files it has and where they
  are.  Sums of what it says can wrap around and pass a check,
  and what stands in the partition of a game card is not
  checked at all.

  Key definitions include:
    * `Loader.PackageContained`
    * `Loader.ExecutableContained`

  Main results:
    * `loadersContained_iff`
-/

------
-- Spans of an NCA
------

namespace M1Switch

namespace Loader

variable {f : PackageFile} {info : NcaInfo}

/- What the section table can say. -/
structure NcaInfo.Bounded (info : NcaInfo) : Prop where
  romfsOffset : info.romfsOffset.toNat < 2 ^ 42
  romfsSize : info.romfsSize.toNat < 2 ^ 42
  exefsOffset : info.exefsOffset = 0

theorem toNat_mediaUnits (w : U32) :
    (w.setWidth 64 * 512 : U64).toNat = w.toNat * 512 := by
  have hW := w.isLt
  have hUnit : (512 : U64).toNat = 512 := rfl
  rw [BitVec.toNat_mul, BitVec.toNat_setWidth, hUnit]
  omega

theorem NcaInfo.Bounded.splitSection
    {absOffset absSize : U64}
    (hBounded : info.Bounded)
    (hOffset : absOffset.toNat < 2 ^ 41)
    (hSize : absSize.toNat < 2 ^ 41)
    (hHeader : 0x200 ≤ absSize.toNat)
    (bufferSize : U64) :
    (splitSection bufferSize absOffset absSize info).Bounded := by
  have hStep : (0x200 : U64).toNat = 0x200 := rfl
  unfold Loader.splitSection
  split
  · constructor
    · dsimp only
      rw [BitVec.toNat_add, hStep]
      omega
    · dsimp only
      rw [BitVec.toNat_sub, hStep]
      omega
    · exact hBounded.exefsOffset
  · exact hBounded

theorem NcaInfo.Bounded.wholeSection
    {absOffset absSize : U64}
    (hBounded : info.Bounded)
    (hOffset : absOffset.toNat < 2 ^ 41)
    (hSize : absSize.toNat < 2 ^ 41) :
    (wholeSection absOffset absSize info).Bounded := by
  unfold Loader.wholeSection
  split
  · constructor
    · dsimp only
      rw [BitVec.toNat_add]
      omega
    · exact Nat.two_pow_pos 42
    · exact hBounded.exefsOffset
  · exact hBounded

theorem NcaInfo.Bounded.addSection
    (hBounded : info.Bounded)
    (bufferSize : U64)
    (secOffset secSize : U32)
    (secType : U8) :
    (addSection bufferSize info secOffset secSize
      secType).Bounded := by
  unfold Loader.addSection
  split
  · exact hBounded
  · next hNone =>
      rcases not_or.1 hNone with ⟨-, hSome⟩
      have hOffset := toNat_mediaUnits secOffset
      have hSize := toNat_mediaUnits secSize
      have hOffsetLt := secOffset.isLt
      have hSizeLt := secSize.isLt
      have hPos : secSize.toNat ≠ 0 := fun hEq =>
        hSome (BitVec.eq_of_toNat_eq hEq)
      dsimp only
      split
      · apply NcaInfo.Bounded.wholeSection
        · apply hBounded.splitSection <;> omega
        · omega
        · omega
      · exact hBounded

theorem bounded_addSections
    (base : Nat)
    (bufferSize : U64)
    (is : List Nat)
    (hBounded : info.Bounded) :
    (addSections f base bufferSize is info).Bounded := by
  induction is generalizing info with
  | nil => exact hBounded
  | cons i is ih => exact ih (hBounded.addSection _ _ _ _)

/- What is known of an NCA that was found. -/
theorem nca_eq_some
    {base : Nat}
    {bufferSize : U64}
    (hNca : nca f base bufferSize = some info) :
    info.Bounded ∧ 0x400 ≤ bufferSize ∧
      isNcaMagic (f.data.word base) := by
  unfold nca at hNca
  dsimp only at hNca
  split at hNca
  · next hFound =>
      refine ⟨?_, hFound.1, hFound.2.1⟩
      cases hNca
      apply bounded_addSections
      exact
        { romfsOffset := Nat.two_pow_pos 42
          romfsSize := Nat.two_pow_pos 42
          exefsOffset := rfl }
  · cases hNca

/- The RomFS span is checked, and its sums do not wrap. -/
theorem romFsSpan_inside
    {ncaOff : U64}
    {span : Span}
    (hBounded : info.Bounded)
    (hOff : ncaOff.toNat ≤ f.bytes.length)
    (hSpan : romFsSpan f ncaOff info = some span) :
    span.Inside f.bytes.length := by
  unfold romFsSpan at hSpan
  dsimp only at hSpan
  split at hSpan
  · next hFits =>
      rcases hFits with ⟨-, hLe⟩
      cases hSpan
      have hLength := f.length_lt
      have hRom := hBounded.romfsOffset
      have hSize := hBounded.romfsSize
      rw [BitVec.le_def, BitVec.toNat_add,
        PackageFile.toNat_size] at hLe
      show (ncaOff + info.romfsOffset).toNat +
        info.romfsSize.toNat ≤ f.bytes.length
      rw [BitVec.toNat_add] at hLe ⊢
      omega
  · cases hSpan

/- A header that is read inside the file starts there. -/
theorem NcaSound.inside
    {base : Nat}
    {bufferSize : U64}
    (hSound : NcaSound f base bufferSize)
    (hNca : nca f base bufferSize = some info) :
    base + 0x23D ≤ f.bytes.length := by
  rcases nca_eq_some hNca with ⟨-, hSize, hMagic⟩
  exact (hSound hSize).2 hMagic

------
-- The File System of a Package
------

/- Up to the first file with a RomFS, all are read inside. -/
def FilesSound
    (ok : Pfs0File → Prop)
    (romFs : Pfs0File → Option Span) :
    List Pfs0File → Prop
| [] => True
| file :: files =>
    ok file ∧ (romFs file = none → FilesSound ok romFs files)

/- The RomFS of the NCA at an offset, as a span of the file. -/
def ncaRomFs
    (f : PackageFile)
    (ncaOff ncaSize : U64) : Option Span :=
  (nca f ncaOff.toNat ncaSize).bind (romFsSpan f ncaOff)

def NspOk (f : PackageFile) (file : Pfs0File) : Prop :=
  hasNcaExt file.name → file.offset + file.size ≤ f.size →
    NcaSound f file.offset.toNat file.size

def nspRomFs
    (f : PackageFile)
    (file : Pfs0File) : Option Span :=
  if hasNcaExt file.name ∧ file.offset + file.size ≤ f.size then
    ncaRomFs f file.offset file.size
  else none

def XciOk
    (f : PackageFile)
    (partOff : U64)
    (file : Pfs0File) : Prop :=
  hasNcaPart file.name →
    NcaSound f (partOff + file.offset).toNat file.size

def xciRomFs
    (f : PackageFile)
    (partOff : U64)
    (file : Pfs0File) : Option Span :=
  if hasNcaPart file.name then
    ncaRomFs f (partOff + file.offset) file.size
  else none

theorem value_loadNcaRomFs (ncaOff ncaSize : U64) :
    (loadNcaRomFs f ncaOff ncaSize).value =
      ncaRomFs f ncaOff ncaSize := by
  unfold loadNcaRomFs ncaRomFs
  rw [Traced.value_bind, value_parseNca]
  cases nca f ncaOff.toNat ncaSize <;> rfl

theorem reads_loadNcaRomFs (ncaOff ncaSize : U64) :
    f.Reads (loadNcaRomFs f ncaOff ncaSize) ↔
      NcaSound f ncaOff.toNat ncaSize := by
  unfold loadNcaRomFs
  rw [PackageFile.reads_bind, reads_parseNca]
  apply and_iff_left
  split <;> exact PackageFile.reads_pure _

theorem ncaRomFs_inside
    {ncaOff ncaSize : U64}
    {span : Span}
    (hSound : NcaSound f ncaOff.toNat ncaSize)
    (hSpan : ncaRomFs f ncaOff ncaSize = some span) :
    span.Inside f.bytes.length := by
  rcases Option.bind_eq_some_iff.1 hSpan with
    ⟨info, hNca, hRomFs⟩
  have hIn := hSound.inside hNca
  exact
    romFsSpan_inside (nca_eq_some hNca).1 (by omega) hRomFs

/- A file of a package, as the search looks at it. -/
structure FileLoad
    (f : PackageFile)
    (load : Pfs0File → Traced (Option Span))
    (ok : Pfs0File → Prop)
    (romFs : Pfs0File → Option Span) : Prop where
  value : ∀ file, (load file).value = romFs file
  reads : ∀ file, f.Reads (load file) ↔ ok file
  inside :
    ∀ file, ok file → ∀ span ∈ romFs file,
      span.Inside f.bytes.length

theorem fileLoad_nsp (f : PackageFile) :
    FileLoad f (loadNspFile f) (NspOk f) (nspRomFs f) where
  value file := by
    unfold loadNspFile nspRomFs
    by_cases hName : hasNcaExt file.name
    · by_cases hFits : file.offset + file.size ≤ f.size
      · rw [if_pos hName, if_pos hFits, if_pos ⟨hName, hFits⟩,
          value_loadNcaRomFs]
      · rw [if_pos hName, if_neg hFits,
          if_neg fun hBoth => hFits hBoth.2]
        rfl
    · rw [if_neg hName, if_neg fun hBoth => hName hBoth.1]
      rfl
  reads file := by
    unfold loadNspFile NspOk
    by_cases hName : hasNcaExt file.name
    · by_cases hFits : file.offset + file.size ≤ f.size
      · rw [if_pos hName, if_pos hFits, reads_loadNcaRomFs]
        exact ⟨fun hSound _ _ => hSound,
          fun hSound => hSound hName hFits⟩
      · rw [if_pos hName, if_neg hFits]
        exact ⟨fun _ _ hLe => absurd hLe hFits,
          fun _ => PackageFile.reads_pure _⟩
    · rw [if_neg hName]
      exact ⟨fun _ hYes => absurd hYes hName,
        fun _ => PackageFile.reads_pure _⟩
  inside file hOk span hSpan := by
    unfold nspRomFs at hSpan
    split at hSpan
    · next hBoth =>
        exact ncaRomFs_inside (hOk hBoth.1 hBoth.2) hSpan
    · cases hSpan

theorem fileLoad_xci (f : PackageFile) (partOff : U64) :
    FileLoad f (loadXciFile f partOff) (XciOk f partOff)
      (xciRomFs f partOff) where
  value file := by
    unfold loadXciFile xciRomFs
    split
    · exact value_loadNcaRomFs _ _
    · rfl
  reads file := by
    unfold loadXciFile XciOk
    split
    · next hName =>
        rw [reads_loadNcaRomFs]
        exact ⟨fun hSound _ => hSound,
          fun hSound => hSound hName⟩
    · next hName =>
        exact ⟨fun _ hYes => absurd hYes hName,
          fun _ => PackageFile.reads_pure _⟩
  inside file hOk span hSpan := by
    unfold xciRomFs at hSpan
    split at hSpan
    · next hName => exact ncaRomFs_inside (hOk hName) hSpan
    · cases hSpan

/- The loader reads inside the file and passes a span of it. -/
def PackageContained
    (f : PackageFile)
    (t : Traced (Option Span)) : Prop :=
  f.Reads t ∧ ∀ span ∈ t.value, span.Inside f.bytes.length

theorem packageContained_none :
    PackageContained f (pure none) :=
  ⟨PackageFile.reads_pure _, fun _ hSpan => by cases hSpan⟩

/- A part before a loader, from which it takes a value. -/
theorem packageContained_bind
    {α : Type}
    {t : Traced α}
    {next : α → Traced (Option Span)} :
    PackageContained f (t >>= next) ↔
      f.Reads t ∧ PackageContained f (next t.value) := by
  unfold PackageContained
  rw [PackageFile.reads_bind, Traced.value_bind, and_assoc]

/- The search through the files, by induction on them. -/
theorem packageContained_firstRomFs
    {load : Pfs0File → Traced (Option Span)}
    {ok : Pfs0File → Prop}
    {romFs : Pfs0File → Option Span}
    (hLoad : FileLoad f load ok romFs)
    (files : List Pfs0File) :
    PackageContained f (firstRomFs load files) ↔
      FilesSound ok romFs files := by
  induction files with
  | nil => exact ⟨fun _ => trivial, fun _ => packageContained_none⟩
  | cons file files ih =>
      unfold firstRomFs FilesSound
      rw [packageContained_bind, hLoad.reads, hLoad.value]
      apply and_congr_right
      intro hOk
      cases hRomFs : romFs file with
      | none =>
          rw [ih]
          exact ⟨fun hRest _ => hRest, fun hRest => hRest rfl⟩
      | some span =>
          have hInside := hLoad.inside file hOk span hRomFs
          constructor
          · intro _ hNone
            cases hNone
          intro _
          refine ⟨PackageFile.reads_pure _, fun span' hSpan => ?_⟩
          cases hSpan
          exact hInside

/- An archive and its files, as they are looked at. -/
def ArchiveSound
    (f : PackageFile)
    (base : Nat)
    (bufferSize : U64)
    (sound : List Pfs0File → Prop) : Prop :=
  Pfs0Sound f base bufferSize ∧
    ∀ files ∈ pfs0 f base bufferSize, sound files

/- When the file system of a package is found inside the file. -/
def PackageSound (f : PackageFile) : Prop :=
  4 ≤ f.size →
    (f.data.word 0 = PFS0_MAGIC →
      ArchiveSound f 0 f.size
        (FilesSound (NspOk f) (nspRomFs f))) ∧
    (f.data.word 0 = XCI_MAGIC → 0x200 ≤ f.size →
      partOff f > 0 → partOff f + partSz f ≤ f.size →
        ArchiveSound f (partOff f).toNat (partSz f)
          (FilesSound (XciOk f (partOff f))
            (xciRomFs f (partOff f))))

theorem four_le_iff : 4 ≤ f.size ↔ 4 ≤ f.bytes.length := by
  rw [BitVec.le_def, PackageFile.toNat_size]
  rfl

theorem packageContained_archive
    {load : Pfs0File → Traced (Option Span)}
    {ok : Pfs0File → Prop}
    {romFs : Pfs0File → Option Span}
    (hLoad : FileLoad f load ok romFs)
    (base : Nat)
    (bufferSize : U64) :
    PackageContained f (archiveRomFs f base bufferSize load) ↔
      ArchiveSound f base bufferSize (FilesSound ok romFs) := by
  unfold archiveRomFs ArchiveSound
  rw [packageContained_bind, reads_parsePfs0, value_parsePfs0]
  apply and_congr_right
  intro _
  cases pfs0 f base bufferSize with
  | none =>
      refine ⟨fun _ files hFiles => ?_,
        fun _ => packageContained_none⟩
      cases hFiles
  | some files =>
      rw [packageContained_firstRomFs hLoad]
      constructor
      · intro hSound files' hFiles
        cases hFiles
        exact hSound
      · intro hSound
        exact hSound files rfl

theorem header_le (hHead : 0x200 ≤ f.size) :
    0x200 ≤ f.bytes.length := by
  rw [BitVec.le_def, PackageFile.toNat_size] at hHead
  exact hHead

theorem packageContained_xci :
    PackageContained f (loadXci f) ↔
      (0x200 ≤ f.size → partOff f > 0 →
        partOff f + partSz f ≤ f.size →
          ArchiveSound f (partOff f).toNat (partSz f)
            (FilesSound (XciOk f (partOff f))
              (xciRomFs f (partOff f)))) := by
  unfold loadXci
  by_cases hHead : f.size < 0x200
  · rw [if_pos hHead]
    exact
      ⟨fun _ hYes => absurd hYes (BitVec.not_le.2 hHead),
        fun _ => packageContained_none⟩
  · have hLe : 0x200 ≤ f.size := BitVec.not_lt.1 hHead
    have hLength := header_le hLe
    have hHeader :
        f.Reads (Traced.read 0 0x160 (partOff f, partSz f)) := by
      rw [PackageFile.reads_read]
      omega
    rw [if_neg hHead, packageContained_bind,
      and_iff_right hHeader, forall_prop_of_true hLe]
    dsimp only
    by_cases hPart :
        partOff f > 0 ∧ partOff f + partSz f ≤ f.size
    · rw [if_pos hPart,
        packageContained_archive (fileLoad_xci f (partOff f)),
        forall_prop_of_true hPart.1, forall_prop_of_true hPart.2]
    · rw [if_neg hPart]
      exact
        ⟨fun _ hPos hFits => absurd ⟨hPos, hFits⟩ hPart,
          fun _ => packageContained_none⟩

/- The kinds of files have different first words. -/
theorem magic_ne :
    NRO_MAGIC ≠ PFS0_MAGIC ∧ NRO_MAGIC ≠ XCI_MAGIC ∧
      PFS0_MAGIC ≠ XCI_MAGIC ∧ NRO_MAGIC ≠ NSO_MAGIC ∧
      PFS0_MAGIC ≠ NSO_MAGIC ∧ XCI_MAGIC ≠ NSO_MAGIC := by
  decide

theorem packageContained_iff (f : PackageFile) :
    PackageContained f (loadPackage f) ↔ PackageSound f := by
  rcases magic_ne with ⟨hNroPfs, hNroXci, hPfsXci, -⟩
  unfold loadPackage PackageSound
  by_cases hFour : f.size < 4
  · rw [if_pos hFour]
    exact
      ⟨fun _ hLe => absurd hLe (BitVec.not_le.2 hFour),
        fun _ => packageContained_none⟩
  · have hLe : 4 ≤ f.size := BitVec.not_lt.1 hFour
    have hRead : f.Reads (f.read32 0) :=
      (PackageFile.reads_read32 0).2 (four_le_iff.1 hLe)
    rw [if_neg hFour, packageContained_bind,
      PackageFile.value_read32, forall_prop_of_true hLe,
      and_iff_right hRead]
    by_cases hNro : f.data.word 0 = NRO_MAGIC
    · rw [if_pos hNro, hNro, forall_prop_of_false hNroPfs,
        forall_prop_of_false hNroXci]
      exact ⟨fun _ => ⟨trivial, trivial⟩,
        fun _ => packageContained_none⟩
    · rw [if_neg hNro]
      by_cases hPfs : f.data.word 0 = PFS0_MAGIC
      · rw [if_pos hPfs, hPfs,
          packageContained_archive (fileLoad_nsp f),
          forall_prop_of_true rfl,
          forall_prop_of_false hPfsXci, and_true]
      · rw [if_neg hPfs, packageContained_bind,
          PackageFile.value_read32, and_iff_right hRead,
          forall_prop_of_false hPfs, true_and]
        by_cases hXci : f.data.word 0 = XCI_MAGIC
        · rw [if_pos hXci, packageContained_xci,
            forall_prop_of_true hXci]
        · rw [if_neg hXci, forall_prop_of_false hXci]
          exact ⟨fun _ => trivial, fun _ => packageContained_none⟩

------
-- The Executable of a Package
------

/- The main file of an ExeFS, if it starts like an NSO. -/
def mainSpan
    (f : PackageFile)
    (exefsAbs exefsSize : U64) : Option Span :=
  match exeFsFile f exefsAbs.toNat exefsSize MAIN with
  | none => none
  | some (nsoOff, nsoSz) =>
      let nsoAbs := exefsAbs + nsoOff
      if nsoAbs + 4 ≤ f.size ∧
          f.data.word nsoAbs.toNat = NSO_MAGIC then
        some ⟨nsoAbs.toNat, nsoSz.toNat⟩
      else none

theorem value_isNSO (offset : U64) :
    (isNSO f offset).value =
      decide
        (offset + 4 ≤ f.size ∧
          f.data.word offset.toNat = NSO_MAGIC) := by
  unfold isNSO
  by_cases hFits : offset + 4 > f.size
  · have hNot : ¬ offset + 4 ≤ f.size := BitVec.not_le.2 hFits
    rw [if_pos hFits, decide_eq_false fun hBoth => hNot hBoth.1]
    rfl
  · have hLe : offset + 4 ≤ f.size := BitVec.not_lt.1 hFits
    rw [if_neg hFits, Traced.value_bind,
      PackageFile.value_read32, Traced.value_pure]
    by_cases hMagic : f.data.word offset.toNat = NSO_MAGIC
    · rw [decide_eq_true ⟨hLe, hMagic⟩]
      exact beq_iff_eq.2 hMagic
    · rw [decide_eq_false fun hBoth => hMagic hBoth.2]
      exact beq_eq_false_iff_ne.2 hMagic

/- A position that does not wrap is checked. -/
theorem reads_isNSO
    {offset : U64}
    (hSmall : offset.toNat + 4 < 2 ^ 64) :
    f.Reads (isNSO f offset) := by
  unfold isNSO
  split
  · exact PackageFile.reads_pure _
  · next hFits =>
      have hLe : offset + 4 ≤ f.size := BitVec.not_lt.1 hFits
      have hFour : (4 : U64).toNat = 4 := rfl
      rw [BitVec.le_def, BitVec.toNat_add, hFour,
        PackageFile.toNat_size] at hLe
      rw [PackageFile.reads_bind]
      refine ⟨?_, PackageFile.reads_pure _⟩
      rw [PackageFile.reads_read32]
      omega

section

variable {M : Type} {nsoLoad : M → Span → M × Bool}
variable {file : Pfs0File}

theorem value_loadMain
    (exefsAbs exefsSize : U64)
    (run : ExeRun M) :
    (loadMain nsoLoad f exefsAbs exefsSize run).value =
      match mainSpan f exefsAbs exefsSize with
      | none => run
      | some span => loadNso nsoLoad span run := by
  unfold loadMain mainSpan
  rw [Traced.value_bind, value_findExeFsEntry]
  cases exeFsFile f exefsAbs.toNat exefsSize MAIN with
  | none => rfl
  | some file =>
      rcases file with ⟨nsoOff, nsoSz⟩
      dsimp only
      rw [Traced.value_bind, value_isNSO]
      by_cases hFound :
          exefsAbs + nsoOff + 4 ≤ f.size ∧
            f.data.word (exefsAbs + nsoOff).toNat = NSO_MAGIC
      · rw [decide_eq_true hFound, if_pos rfl, if_pos hFound]
        rfl
      · rw [decide_eq_false hFound, if_neg hFound]
        rfl

theorem reads_loadMain
    {exefsAbs : U64}
    (hIn : exefsAbs.toNat + 0x200 ≤ f.bytes.length)
    (exefsSize : U64)
    (run : ExeRun M) :
    f.Reads (loadMain nsoLoad f exefsAbs exefsSize run) := by
  unfold loadMain
  rw [PackageFile.reads_bind, value_findExeFsEntry]
  refine ⟨reads_findExeFsEntry hIn exefsSize MAIN, ?_⟩
  cases hFile : exeFsFile f exefsAbs.toNat exefsSize MAIN with
  | none => exact PackageFile.reads_pure _
  | some file =>
      rcases file with ⟨nsoOff, nsoSz⟩
      rcases exeFsFile_bounds hFile with ⟨hOff, -, -⟩
      have hLength := f.length_lt
      dsimp only
      rw [PackageFile.reads_bind]
      constructor
      · apply reads_isNSO
        rw [BitVec.toNat_add]
        omega
      · split <;> exact PackageFile.reads_pure _

/- What one file of an archive does to a run. -/
def afterFile
    (nsoLoad : M → Span → M × Bool)
    (romFs main : Option Span)
    (run : ExeRun M) : ExeRun M :=
  let run := { run with romFs := run.romFs ++ romFs.toList }
  match main with
  | none => run
  | some span => loadNso nsoLoad span run

/- The spans of a run lie inside the file. -/
def SpansInside (f : PackageFile) (run : ExeRun M) : Prop :=
  ∀ span ∈ run.romFs ++ run.nso, span.Inside f.bytes.length

/-
  Up to the first file that the NSO loader accepts, all are
  read inside, and main files end inside.
-/
def MainsSound
    (f : PackageFile)
    (nsoLoad : M → Span → M × Bool)
    (ok : Pfs0File → Prop)
    (main : Pfs0File → Option Span) :
    M → List Pfs0File → Prop
| _, [] => True
| guest, file :: files =>
    ok file ∧
      match main file with
      | none => MainsSound f nsoLoad ok main guest files
      | some span =>
          span.Inside f.bytes.length ∧
            ((nsoLoad guest span).2 = false →
              MainsSound f nsoLoad ok main
                (nsoLoad guest span).1 files)

/- A file of a package, as the search for a main looks at it. -/
structure MainLoad
    (f : PackageFile)
    (nsoLoad : M → Span → M × Bool)
    (load : Pfs0File → ExeRun M → Traced (ExeRun M))
    (ok : Pfs0File → Prop)
    (romFs main : Pfs0File → Option Span) : Prop where
  value :
    ∀ file run,
      (load file run).value =
        afterFile nsoLoad (romFs file) (main file) run
  reads : ∀ file run, f.Reads (load file run) ↔ ok file
  inside :
    ∀ file, ok file → ∀ span ∈ romFs file,
      span.Inside f.bytes.length

/- The loader reads inside the file and passes spans of it. -/
def ExecutableContained
    (f : PackageFile)
    (t : Traced (ExeRun M)) : Prop :=
  f.Reads t ∧ SpansInside f t.value

theorem executableContained_pure
    {run : ExeRun M} :
    ExecutableContained f (pure run) ↔ SpansInside f run :=
  and_iff_right (PackageFile.reads_pure _)

theorem executableContained_bind
    {α : Type}
    {t : Traced α}
    {next : α → Traced (ExeRun M)} :
    ExecutableContained f (t >>= next) ↔
      f.Reads t ∧ ExecutableContained f (next t.value) := by
  unfold ExecutableContained
  rw [PackageFile.reads_bind, Traced.value_bind, and_assoc]

theorem spansInside_romFs
    {run : ExeRun M}
    {romFs : Option Span}
    (hRomFs : ∀ span ∈ romFs, span.Inside f.bytes.length) :
    SpansInside f
        { run with romFs := run.romFs ++ romFs.toList } ↔
      SpansInside f run := by
  unfold SpansInside
  constructor
  · intro hAll span hSpan
    apply hAll span
    rcases List.mem_append.1 hSpan with hRom | hNso
    · exact List.mem_append_left _ (List.mem_append_left _ hRom)
    · exact List.mem_append_right _ hNso
  · intro hAll span hSpan
    rcases List.mem_append.1 hSpan with hRom | hNso
    · rcases List.mem_append.1 hRom with hOld | hNew
      · exact hAll span (List.mem_append_left _ hOld)
      · exact hRomFs span (Option.mem_toList.1 hNew)
    · exact hAll span (List.mem_append_right _ hNso)

theorem spansInside_loadNso
    {run : ExeRun M}
    {span : Span} :
    SpansInside f (loadNso nsoLoad span run) ↔
      SpansInside f run ∧ span.Inside f.bytes.length := by
  unfold SpansInside loadNso
  dsimp only
  rw [← List.append_assoc]
  simp only [List.mem_append, List.mem_singleton, or_imp,
    forall_and, forall_eq]

/- The search for a main file, by induction on the files. -/
theorem executableContained_firstLoaded
    {load : Pfs0File → ExeRun M → Traced (ExeRun M)}
    {ok : Pfs0File → Prop}
    {romFs main : Pfs0File → Option Span}
    (hLoad : MainLoad f nsoLoad load ok romFs main)
    (files : List Pfs0File)
    {run : ExeRun M}
    (hRun : run.loaded = false) :
    ExecutableContained f (firstLoaded load files run) ↔
      SpansInside f run ∧
        MainsSound f nsoLoad ok main run.guest files := by
  induction files generalizing run with
  | nil =>
      unfold firstLoaded MainsSound
      rw [executableContained_pure, and_true]
  | cons file files ih =>
      unfold firstLoaded MainsSound
      rw [executableContained_bind, hLoad.reads, hLoad.value]
      rw [and_left_comm]
      apply and_congr_right
      intro hOk
      have hInside := hLoad.inside file hOk
      unfold afterFile
      cases hMain : main file with
      | none =>
          have hGo :
              ({ run with
                romFs :=
                  run.romFs ++
                    (romFs file).toList } : ExeRun M).loaded =
                false :=
            hRun
          dsimp only
          rw [if_neg (by rw [hRun]; exact Bool.false_ne_true),
            ih hGo, spansInside_romFs hInside]
      | some span =>
          dsimp only
          cases hLoaded : (nsoLoad run.guest span).2 with
          | true =>
              have hStop :
                  (loadNso nsoLoad span
                    { run with
                      romFs :=
                        run.romFs ++
                          (romFs file).toList }).loaded = true :=
                hLoaded
              rw [if_pos hStop, executableContained_pure,
                spansInside_loadNso, spansInside_romFs hInside]
              simp
          | false =>
              have hGo :
                  (loadNso nsoLoad span
                    { run with
                      romFs :=
                        run.romFs ++
                          (romFs file).toList }).loaded =
                    false :=
                hLoaded
              rw [if_neg (by rw [hGo]; exact Bool.false_ne_true),
                ih hGo, spansInside_loadNso,
                spansInside_romFs hInside, and_assoc,
                forall_prop_of_true rfl]
              rfl

/- How much of an NCA of an NSP lies before the file's end. -/
def ncaRest (f : PackageFile) (file : Pfs0File) : U64 :=
  let rest := f.size - file.offset
  if rest < file.size then rest else file.size

def nspNca
    (f : PackageFile)
    (file : Pfs0File) : Option NcaInfo :=
  if hasNcaExt file.name ∧ file.offset + 0x400 ≤ f.size ∧
      isNcaMagic (f.data.word file.offset.toNat) then
    nca f file.offset.toNat (ncaRest f file)
  else none

def nspMain
    (f : PackageFile)
    (file : Pfs0File) : Option Span :=
  (nspNca f file).bind fun info =>
    let exefsAbs := file.offset + info.exefsOffset
    if info.exefsSize > 0 ∧ exefsAbs + 0x200 ≤ f.size then
      mainSpan f exefsAbs info.exefsSize
    else none

/- The check of the position does not wrap around. -/
def NspMainOk (f : PackageFile) (file : Pfs0File) : Prop :=
  hasNcaExt file.name → file.offset + 0x400 ≤ f.size →
    file.offset.toNat + 4 ≤ f.bytes.length

def xciNca
    (f : PackageFile)
    (partOff : U64)
    (file : Pfs0File) : Option NcaInfo :=
  if hasNcaPart file.name then
    nca f (partOff + file.offset).toNat file.size
  else none

def xciMain
    (f : PackageFile)
    (partOff : U64)
    (file : Pfs0File) : Option Span :=
  (xciNca f partOff file).bind fun info =>
    if info.exefsSize > 0 then
      mainSpan f (partOff + file.offset + info.exefsOffset)
        info.exefsSize
    else none

theorem nspMainOk_iff
    (hName : hasNcaExt file.name)
    (hFits : file.offset + 0x400 ≤ f.size) :
    NspMainOk f file ↔
      file.offset.toNat + 0x400 ≤ f.bytes.length := by
  have hLength := f.length_lt
  have hHeader : (0x400 : U64).toNat = 0x400 := rfl
  unfold NspMainOk
  rw [forall_prop_of_true hName, forall_prop_of_true hFits]
  rw [BitVec.le_def, BitVec.toNat_add, hHeader,
    PackageFile.toNat_size] at hFits
  omega

theorem loadNspExecutable_skip
    (hSkip :
      ¬ (hasNcaExt file.name ∧ file.offset + 0x400 ≤ f.size))
    (run : ExeRun M) :
    loadNspExecutable nsoLoad f file run = pure run := by
  unfold loadNspExecutable
  by_cases hName : hasNcaExt file.name
  · have hPast : file.offset + 0x400 > f.size :=
      BitVec.not_le.1 fun hFits => hSkip ⟨hName, hFits⟩
    rw [if_pos hName]
    dsimp only
    rw [if_pos hPast]
  · rw [if_neg hName]

theorem afterFile_none (run : ExeRun M) :
    afterFile nsoLoad none none run = run := by
  unfold afterFile
  simp

/- What is done with the header of an NCA of an NSP. -/
def afterNspNca
    (nsoLoad : M → Span → M × Bool)
    (f : PackageFile)
    (file : Pfs0File)
    (run : ExeRun M) : Option NcaInfo → Traced (ExeRun M)
| none => pure run
| some info =>
    let run := setRomFs f file.offset info run
    let exefsAbs := file.offset + info.exefsOffset
    if info.exefsSize > 0 then
      if exefsAbs + 0x200 ≤ f.size then
        loadMain nsoLoad f exefsAbs info.exefsSize run
      else pure run
    else pure run

theorem loadNspExecutable_read
    (hName : hasNcaExt file.name)
    (hFits : file.offset + 0x400 ≤ f.size)
    (run : ExeRun M) :
    loadNspExecutable nsoLoad f file run =
      f.read32 file.offset.toNat >>= fun magic =>
        if ¬ isNcaMagic magic then pure run
        else
          parseNca f file.offset.toNat (ncaRest f file) >>=
            afterNspNca nsoLoad f file run := by
  unfold loadNspExecutable
  dsimp only
  rw [if_pos hName, if_neg (BitVec.not_lt.2 hFits)]
  rfl

theorem value_afterNspNca
    (file : Pfs0File)
    (run : ExeRun M)
    (info : Option NcaInfo) :
    (afterNspNca nsoLoad f file run info).value =
      afterFile nsoLoad (info.bind (romFsSpan f file.offset))
        (info.bind fun info =>
          let exefsAbs := file.offset + info.exefsOffset
          if info.exefsSize > 0 ∧ exefsAbs + 0x200 ≤ f.size then
            mainSpan f exefsAbs info.exefsSize
          else none)
        run := by
  cases info with
  | none => exact (afterFile_none run).symm
  | some info =>
      unfold afterNspNca
      dsimp only [Option.bind_some]
      by_cases hExe : info.exefsSize > 0
      · by_cases hAbs :
            file.offset + info.exefsOffset + 0x200 ≤ f.size
        · rw [if_pos hExe, if_pos hAbs, if_pos ⟨hExe, hAbs⟩,
            value_loadMain]
          rfl
        · rw [if_pos hExe, if_neg hAbs,
            if_neg fun hBoth => hAbs hBoth.2]
          rfl
      · rw [if_neg hExe, if_neg fun hBoth => hExe hBoth.1]
        rfl

/- The ExeFS starts with its NCA. -/
theorem reads_afterNspNca
    (hIn : file.offset.toNat + 0x400 ≤ f.bytes.length)
    (bufferSize : U64)
    (run : ExeRun M) :
    f.Reads
      (afterNspNca nsoLoad f file run
        (nca f file.offset.toNat bufferSize)) := by
  cases hNca : nca f file.offset.toNat bufferSize with
  | none => exact PackageFile.reads_pure _
  | some info =>
      have hStart : file.offset + info.exefsOffset = file.offset := by
        rw [(nca_eq_some hNca).1.exefsOffset]
        exact BitVec.add_zero _
      unfold afterNspNca
      dsimp only
      rw [hStart]
      split
      · split
        · apply reads_loadMain
          omega
        · exact PackageFile.reads_pure _
      · exact PackageFile.reads_pure _

theorem mainLoad_nsp :
    MainLoad f nsoLoad (loadNspExecutable nsoLoad f)
      (NspMainOk f)
      (fun file => (nspNca f file).bind (romFsSpan f file.offset))
      (nspMain f) where
  value file run := by
    unfold nspMain
    by_cases hRead :
        hasNcaExt file.name ∧ file.offset + 0x400 ≤ f.size
    · rcases hRead with ⟨hName, hFits⟩
      rw [loadNspExecutable_read hName hFits,
        Traced.value_bind, PackageFile.value_read32]
      unfold nspNca
      by_cases hMagic :
          isNcaMagic (f.data.word file.offset.toNat)
      · rw [if_neg (not_not.2 hMagic), Traced.value_bind,
          value_parseNca, value_afterNspNca,
          if_pos ⟨hName, hFits, hMagic⟩]
      · rw [if_pos hMagic, if_neg fun hAll => hMagic hAll.2.2]
        exact (afterFile_none run).symm
    · have hNone : nspNca f file = none :=
        if_neg fun hAll => hRead ⟨hAll.1, hAll.2.1⟩
      rw [loadNspExecutable_skip hRead, hNone]
      exact (afterFile_none run).symm
  reads file run := by
    by_cases hRead :
        hasNcaExt file.name ∧ file.offset + 0x400 ≤ f.size
    · rcases hRead with ⟨hName, hFits⟩
      rw [loadNspExecutable_read hName hFits,
        PackageFile.reads_bind, PackageFile.reads_read32,
        PackageFile.value_read32]
      constructor
      · intro hBoth _ _
        exact hBoth.1
      · intro hOk
        have hIn := (nspMainOk_iff hName hFits).1 hOk
        refine ⟨by omega, ?_⟩
        split
        · exact PackageFile.reads_pure _
        · rw [PackageFile.reads_bind, reads_parseNca,
            value_parseNca]
          exact ⟨fun _ => ⟨by omega, fun _ => by omega⟩,
            reads_afterNspNca hIn _ run⟩
    · rw [loadNspExecutable_skip hRead]
      exact
        ⟨fun _ hName hFits => absurd ⟨hName, hFits⟩ hRead,
          fun _ => PackageFile.reads_pure _⟩
  inside file hOk span hSpan := by
    rcases Option.bind_eq_some_iff.1 hSpan with
      ⟨info, hNca, hRomFs⟩
    unfold nspNca at hNca
    split at hNca
    · next hAll =>
        rcases hAll with ⟨hName, hFits, -⟩
        have hIn := (nspMainOk_iff hName hFits).1 hOk
        exact
          romFsSpan_inside (nca_eq_some hNca).1 (by omega) hRomFs
    · cases hNca

/- What is done with the header of an NCA of an XCI. -/
def afterXciNca
    (nsoLoad : M → Span → M × Bool)
    (f : PackageFile)
    (ncaOff : U64)
    (run : ExeRun M) : Option NcaInfo → Traced (ExeRun M)
| none => pure run
| some info =>
    let run := setRomFs f ncaOff info run
    if info.exefsSize > 0 then
      loadMain nsoLoad f (ncaOff + info.exefsOffset)
        info.exefsSize run
    else pure run

theorem loadXciExecutable_eq
    (partOff : U64)
    (file : Pfs0File)
    (run : ExeRun M) :
    loadXciExecutable nsoLoad f partOff file run =
      if hasNcaPart file.name then
        parseNca f (partOff + file.offset).toNat file.size >>=
          afterXciNca nsoLoad f (partOff + file.offset) run
      else pure run :=
  rfl

theorem value_afterXciNca
    (ncaOff : U64)
    (run : ExeRun M)
    (info : Option NcaInfo) :
    (afterXciNca nsoLoad f ncaOff run info).value =
      afterFile nsoLoad (info.bind (romFsSpan f ncaOff))
        (info.bind fun info =>
          if info.exefsSize > 0 then
            mainSpan f (ncaOff + info.exefsOffset) info.exefsSize
          else none)
        run := by
  cases info with
  | none => exact (afterFile_none run).symm
  | some info =>
      unfold afterXciNca
      dsimp only [Option.bind_some]
      split
      · rw [value_loadMain]
        rfl
      · rfl

theorem reads_afterXciNca
    {ncaOff bufferSize : U64}
    (hSound : NcaSound f ncaOff.toNat bufferSize)
    (run : ExeRun M) :
    f.Reads
      (afterXciNca nsoLoad f ncaOff run
        (nca f ncaOff.toNat bufferSize)) := by
  cases hNca : nca f ncaOff.toNat bufferSize with
  | none => exact PackageFile.reads_pure _
  | some info =>
      have hIn := hSound.inside hNca
      have hStart : ncaOff + info.exefsOffset = ncaOff := by
        rw [(nca_eq_some hNca).1.exefsOffset]
        exact BitVec.add_zero _
      unfold afterXciNca
      dsimp only
      rw [hStart]
      split
      · apply reads_loadMain
        omega
      · exact PackageFile.reads_pure _

theorem mainLoad_xci (partOff : U64) :
    MainLoad f nsoLoad (loadXciExecutable nsoLoad f partOff)
      (XciOk f partOff)
      (fun file =>
        (xciNca f partOff file).bind
          (romFsSpan f (partOff + file.offset)))
      (xciMain f partOff) where
  value file run := by
    unfold xciMain xciNca
    rw [loadXciExecutable_eq]
    split
    · rw [Traced.value_bind, value_parseNca, value_afterXciNca]
    · exact (afterFile_none run).symm
  reads file run := by
    unfold XciOk
    rw [loadXciExecutable_eq]
    split
    · next hName =>
        rw [PackageFile.reads_bind, reads_parseNca,
          value_parseNca, forall_prop_of_true hName]
        exact and_iff_left_of_imp fun hSound =>
          reads_afterXciNca hSound run
    · next hName =>
        exact ⟨fun _ hYes => absurd hYes hName,
          fun _ => PackageFile.reads_pure _⟩
  inside file hOk span hSpan := by
    rcases Option.bind_eq_some_iff.1 hSpan with
      ⟨info, hNca, hRomFs⟩
    unfold xciNca at hNca
    split at hNca
    · next hName =>
        have hIn := (hOk hName).inside hNca
        exact
          romFsSpan_inside (nca_eq_some hNca).1 (by omega) hRomFs
    · cases hNca

/- When the executable of a package is found inside the file. -/
def ExecutableSound
    (nsoLoad : M → Span → M × Bool)
    (f : PackageFile)
    (guest : M) : Prop :=
  4 ≤ f.size →
    (f.data.word 0 = PFS0_MAGIC →
      ArchiveSound f 0 f.size
        (MainsSound f nsoLoad (NspMainOk f) (nspMain f) guest)) ∧
    (f.data.word 0 = XCI_MAGIC → 0x200 ≤ f.size →
      partOff f + partSz f ≤ f.size →
        ArchiveSound f (partOff f).toNat (partSz f)
          (MainsSound f nsoLoad (XciOk f (partOff f))
            (xciMain f (partOff f)) guest))

/- A run that has not passed any spans. -/
def ExeRun.start (guest : M) : ExeRun M := { guest := guest }

theorem spansInside_start (guest : M) :
    SpansInside f (ExeRun.start guest) := by
  intro span hSpan
  cases hSpan

theorem executableContained_start (guest : M) :
    ExecutableContained f (pure (ExeRun.start guest)) :=
  executableContained_pure.2 (spansInside_start guest)

theorem executableContained_archive
    {load : Pfs0File → ExeRun M → Traced (ExeRun M)}
    {ok : Pfs0File → Prop}
    {romFs main : Pfs0File → Option Span}
    (hLoad : MainLoad f nsoLoad load ok romFs main)
    (base : Nat)
    (bufferSize : U64)
    (guest : M) :
    ExecutableContained f
        (archiveExecutable f base bufferSize load
          (ExeRun.start guest)) ↔
      ArchiveSound f base bufferSize
        (MainsSound f nsoLoad ok main guest) := by
  unfold archiveExecutable ArchiveSound
  rw [executableContained_bind, reads_parsePfs0, value_parsePfs0]
  apply and_congr_right
  intro _
  cases pfs0 f base bufferSize with
  | none =>
      refine ⟨fun _ files hFiles => ?_,
        fun _ => executableContained_start guest⟩
      cases hFiles
  | some files =>
      rw [executableContained_firstLoaded hLoad files rfl,
        and_iff_right (spansInside_start guest)]
      constructor
      · intro hSound files' hFiles
        cases hFiles
        exact hSound
      · intro hSound
        exact hSound files rfl

theorem executableContained_xci (guest : M) :
    ExecutableContained f
        (loadXciMain nsoLoad f (ExeRun.start guest)) ↔
      (0x200 ≤ f.size → partOff f + partSz f ≤ f.size →
        ArchiveSound f (partOff f).toNat (partSz f)
          (MainsSound f nsoLoad (XciOk f (partOff f))
            (xciMain f (partOff f)) guest)) := by
  unfold loadXciMain
  by_cases hHead : f.size < 0x200
  · rw [if_pos hHead]
    exact
      ⟨fun _ hYes => absurd hYes (BitVec.not_le.2 hHead),
        fun _ => executableContained_start guest⟩
  · have hLe : 0x200 ≤ f.size := BitVec.not_lt.1 hHead
    have hLength := header_le hLe
    have hOff : f.Reads (f.read64 0x150) := by
      rw [PackageFile.reads_read64]
      omega
    have hSz : f.Reads (f.read64 0x158) := by
      rw [PackageFile.reads_read64]
      omega
    rw [if_neg hHead, executableContained_bind,
      and_iff_right hOff, executableContained_bind,
      and_iff_right hSz, forall_prop_of_true hLe]
    change ExecutableContained f
      (if partOff f + partSz f > f.size then _ else _) ↔ _
    by_cases hPart : partOff f + partSz f > f.size
    · rw [if_pos hPart]
      exact
        ⟨fun _ hFits => absurd hPart (BitVec.not_lt.2 hFits),
          fun _ => executableContained_start guest⟩
    · rw [if_neg hPart,
        forall_prop_of_true (BitVec.not_lt.1 hPart)]
      exact executableContained_archive (mainLoad_xci _) _ _ _

theorem executableContained_nso (guest : M) :
    ExecutableContained f
      (pure
        (loadNso nsoLoad ⟨0, f.bytes.length⟩
          (ExeRun.start guest))) := by
  rw [executableContained_pure, spansInside_loadNso]
  refine ⟨spansInside_start guest, ?_⟩
  show 0 + f.bytes.length ≤ f.bytes.length
  omega

theorem executableContained_iff
    (nsoLoad : M → Span → M × Bool)
    (f : PackageFile)
    (guest : M) :
    ExecutableContained f (loadExecutable nsoLoad f guest) ↔
      ExecutableSound nsoLoad f guest := by
  rcases magic_ne with ⟨hNroPfs, hNroXci, hPfsXci, -⟩
  unfold loadExecutable ExecutableSound
  change ExecutableContained f
    (if f.size < 4 then pure (ExeRun.start guest) else _) ↔ _
  by_cases hFour : f.size < 4
  · rw [if_pos hFour]
    exact
      ⟨fun _ hLe => absurd hLe (BitVec.not_le.2 hFour),
        fun _ => executableContained_start guest⟩
  · have hLe : 4 ≤ f.size := BitVec.not_lt.1 hFour
    have hRead : f.Reads (f.read32 0) :=
      (PackageFile.reads_read32 0).2 (four_le_iff.1 hLe)
    rw [if_neg hFour, executableContained_bind,
      PackageFile.value_read32, forall_prop_of_true hLe,
      and_iff_right hRead]
    by_cases hNro : f.data.word 0 = NRO_MAGIC
    · rw [if_pos hNro, hNro, forall_prop_of_false hNroPfs,
        forall_prop_of_false hNroXci]
      exact ⟨fun _ => ⟨trivial, trivial⟩,
        fun _ => executableContained_start guest⟩
    · rw [if_neg hNro]
      by_cases hPfs : f.data.word 0 = PFS0_MAGIC
      · rw [if_pos hPfs, hPfs, forall_prop_of_true rfl,
          forall_prop_of_false hPfsXci, and_true]
        exact executableContained_archive mainLoad_nsp _ _ _
      · rw [if_neg hPfs, executableContained_bind,
          PackageFile.value_read32, and_iff_right hRead,
          forall_prop_of_false hPfs, true_and]
        by_cases hXci : f.data.word 0 = XCI_MAGIC
        · rw [if_pos hXci, forall_prop_of_true hXci]
          exact executableContained_xci guest
        · rw [if_neg hXci, forall_prop_of_false hXci,
            iff_true]
          split
          · exact executableContained_nso guest
          · exact executableContained_start guest

/-
  Both loaders keep to the file exactly when the archive, the
  headers and the names they meet lie inside it.
-/
theorem loadersContained_iff
    (nsoLoad : M → Span → M × Bool)
    (f : PackageFile)
    (guest : M) :
    PackageContained f (loadPackage f) ∧
        ExecutableContained f (loadExecutable nsoLoad f guest) ↔
      PackageSound f ∧ ExecutableSound nsoLoad f guest :=
  and_congr (packageContained_iff f)
    (executableContained_iff nsoLoad f guest)

/- An archive of one file, whose name takes the last byte. -/
def unterminated : PackageFile where
  bytes :=
    [0x50, 0x46, 0x53, 0x30, 1, 0, 0, 0, 1, 0, 0, 0] ++
      List.replicate 20 0 ++ [0x61]
  length_lt := by decide

/- The name is read up to a zero behind the file. -/
theorem unterminated_not_contained :
    ¬ (PackageContained unterminated (loadPackage unterminated) ∧
      ExecutableContained unterminated
        (loadExecutable (fun (_ : Unit) _ => ((), true))
          unterminated ())) := by
  intro hBoth
  have hRead :
      (⟨32, 2⟩ : Span) ∈ (loadPackage unterminated).reads := by
    decide
  have hIn := hBoth.1.1 _ hRead
  revert hIn
  decide

end

end Loader

end M1Switch
