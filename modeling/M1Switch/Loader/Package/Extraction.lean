import M1Switch.Loader.Package.Contained

/-
  The executable of an NSP.

  An NCA has its files in sections, behind its header.  The
  parser takes the size of the ExeFS from the section table,
  and leaves its offset at zero, so the ExeFS is looked for in
  the header of the NCA.

  Key definitions include:
    * `Loader.MainNsp`
    * `Loader.Extracted`

  Main results:
    * `not_extracted`
-/

------
-- What an NSP Lists
------

namespace M1Switch

namespace Loader

variable {f : PackageFile} {info : NcaInfo}

/- The bytes of a span. -/
def Covers (start count pos : Nat) : Prop :=
  start ≤ pos ∧ pos < start + count

/-
  An entry with number `k` of the section table, of type 0,
  says that the section takes `size` bytes from `off` on.
-/
structure ProgramSection
    (f : PackageFile)
    (base k off size : Nat) : Prop where
  index : k < 4
  type : f.data (base + 0x200 + k * 16 + 12) = 0
  offset :
    (f.data.word (base + 0x200 + k * 16)).toNat * 512 = off
  length :
    (f.data.word (base + 0x200 + k * 16 + 4)).toNat * 512 = size
  offset_pos : 0 < off
  header_le : 0x200 ≤ size

/-
  The ExeFS header at `base` lists a file `main`, an NSO within
  the first 8 MiB of `size` bytes.
-/
structure ListsMain
    (f : PackageFile)
    (base size : Nat)
    (main : Span) : Prop where
  entry :
    ∃ i < 32,
      exeFsName (f.data.slice (base + i * 16) 8) = MAIN ∧
        main.start =
          base + 0x200 + (f.data.word (base + i * 16 + 8)).toNat ∧
        main.count = (f.data.word (base + i * 16 + 12)).toNat
  magic : f.data.word main.start = NSO_MAGIC
  magic_le : 4 ≤ main.count
  fits : main.start + main.count ≤ base + min size 0x800000

/-
  An NSP whose first NCA is `file`, with a section of `size`
  bytes at `off` that lists the file `main`.
-/
structure MainNsp
    (f : PackageFile)
    (file : Pfs0File)
    (off size : Nat)
    (main : Span) : Prop where
  magic : f.data.word 0 = PFS0_MAGIC
  files :
    ∃ before after,
      (parsePfs0 f 0 f.size).value =
          some (before ++ file :: after) ∧
        ∀ other ∈ before, ¬ hasNcaExt other.name
  name : hasNcaExt file.name
  inside :
    file.offset.toNat + file.size.toNat ≤ f.bytes.length
  ncaMagic : isNcaMagic (f.data.word file.offset.toNat)
  program : ∃ k, ProgramSection f file.offset.toNat k off size
  lists : ListsMain f (file.offset.toNat + off) size main
  main_le :
    main.start + main.count ≤
      file.offset.toNat + file.size.toNat

/-
  The main file is passed to the NSO loader, and what is said
  of the NCA is inside the section, without overlap.
-/
structure Extracted
    {M : Type}
    (nsoLoad : M → Span → M × Bool)
    (f : PackageFile)
    (guest : M)
    (file : Pfs0File)
    (off size : Nat)
    (main : Span) : Prop where
  loaded : main ∈ (loadExecutable nsoLoad f guest).value.nso
  exefs_inside :
    ∀ info,
      (parseNca f file.offset.toNat (ncaRest f file)).value =
          some info →
        ∀ pos,
          Covers info.exefsOffset.toNat info.exefsSize.toNat pos →
            Covers off size pos
  romfs_inside :
    ∀ info,
      (parseNca f file.offset.toNat (ncaRest f file)).value =
          some info →
        ∀ pos,
          Covers info.romfsOffset.toNat info.romfsSize.toNat pos →
            Covers off size pos
  disjoint :
    ∀ info,
      (parseNca f file.offset.toNat (ncaRest f file)).value =
          some info →
        ∀ pos,
          Covers info.exefsOffset.toNat info.exefsSize.toNat pos →
            ¬ Covers info.romfsOffset.toNat info.romfsSize.toNat
              pos

------
-- What the Parser Says
------

/- An ExeFS comes with a position for a RomFS. -/
def NcaInfo.Coherent (info : NcaInfo) : Prop :=
  info.exefsSize ≠ 0 → info.romfsOffset ≠ 0

def NcaInfo.HasExeFs (info : NcaInfo) : Prop :=
  info.exefsSize ≠ 0 ∧ info.romfsOffset ≠ 0

theorem NcaInfo.HasExeFs.coherent
    (hExeFs : info.HasExeFs) :
    info.Coherent :=
  fun _ => hExeFs.2

theorem add_ne_zero
    {a b : U64}
    (hPos : a ≠ 0)
    (hA : a.toNat < 2 ^ 41)
    (hB : b.toNat < 2 ^ 41) :
    a + b ≠ 0 := by
  intro hEq
  apply hPos
  apply BitVec.eq_of_toNat_eq
  have hSum := congrArg BitVec.toNat hEq
  have hZero : (0 : U64).toNat = 0 := rfl
  rw [BitVec.toNat_add, hZero] at hSum
  rw [hZero]
  omega

/- A section of type 0 gives an ExeFS, whatever was there. -/
theorem hasExeFs_section
    {absOffset absSize : U64}
    (hCoherent : info.Coherent)
    (hOffset : absOffset ≠ 0)
    (hSize : absSize ≠ 0)
    (hOffsetLt : absOffset.toNat < 2 ^ 41)
    (hSizeLt : absSize.toNat < 2 ^ 41)
    (bufferSize : U64) :
    (wholeSection absOffset absSize
      (splitSection bufferSize absOffset absSize
        info)).HasExeFs := by
  have hHeader : (0x200 : U64).toNat < 2 ^ 41 := by decide
  have hRomFs := add_ne_zero hOffset hOffsetLt hHeader
  have hBehind := add_ne_zero hOffset hOffsetLt hSizeLt
  unfold splitSection
  split
  · have hExeFs :
        (if absSize < 0x800000 then absSize
          else (0x800000 : U64)) ≠ 0 := by
      split
      · exact hSize
      · decide
    unfold wholeSection
    rw [if_neg hExeFs]
    exact ⟨hExeFs, hRomFs⟩
  · unfold wholeSection
    split
    · exact ⟨hSize, hBehind⟩
    · next hExeFs => exact ⟨hExeFs, hCoherent hExeFs⟩

theorem addSection_cases
    (bufferSize : U64)
    (info : NcaInfo)
    (secOffset secSize : U32)
    (secType : U8)
    (hCoherent : info.Coherent) :
    addSection bufferSize info secOffset secSize secType = info ∨
      (addSection bufferSize info secOffset secSize
        secType).HasExeFs := by
  unfold addSection
  split
  · exact Or.inl rfl
  · dsimp only
    split
    · next hNone hType =>
        rcases hType with ⟨-, hOffset, hSize⟩
        have hOffsetLt := secOffset.isLt
        have hSizeLt := secSize.isLt
        refine Or.inr (hasExeFs_section hCoherent ?_ ?_ ?_ ?_ _)
        · exact (BitVec.pos_iff_ne_zero _).1 hOffset
        · exact (BitVec.pos_iff_ne_zero _).1 hSize
        · rw [toNat_mediaUnits]
          omega
        · rw [toNat_mediaUnits]
          omega
    · exact Or.inl rfl

theorem addSection_program
    {secOffset secSize : U32}
    (hCoherent : info.Coherent)
    (hOffset : 0 < secOffset.toNat)
    (hSize : 0 < secSize.toNat)
    (bufferSize : U64) :
    (addSection bufferSize info secOffset secSize 0).HasExeFs := by
  have hOffsetLt := secOffset.isLt
  have hSizeLt := secSize.isLt
  have hUnits :
      ∀ w : U32, 0 < w.toNat → (w.setWidth 64 * 512 : U64) > 0 := by
    intro w hW
    have hZero : (0 : U64).toNat = 0 := rfl
    rw [gt_iff_lt, BitVec.lt_def, toNat_mediaUnits, hZero]
    omega
  have hSome : ¬ (secOffset = 0 ∨ secSize = 0) := by
    rintro (rfl | rfl)
    · exact absurd hOffset (by decide)
    · exact absurd hSize (by decide)
  unfold addSection
  dsimp only
  rw [if_neg hSome,
    if_pos ⟨rfl, hUnits secOffset hOffset, hUnits secSize hSize⟩]
  apply hasExeFs_section hCoherent
  · exact (BitVec.pos_iff_ne_zero _).1 (hUnits secOffset hOffset)
  · exact (BitVec.pos_iff_ne_zero _).1 (hUnits secSize hSize)
  · rw [toNat_mediaUnits]
    omega
  · rw [toNat_mediaUnits]
    omega

/- What entry `i` of the section table adds. -/
def addSectionAt
    (f : PackageFile)
    (base : Nat)
    (bufferSize : U64)
    (info : NcaInfo)
    (i : Nat) : NcaInfo :=
  addSection bufferSize info
    (f.data.word (base + 0x200 + i * 16))
    (f.data.word (base + 0x200 + i * 16 + 4))
    (f.data (base + 0x200 + i * 16 + 12))

theorem addSections_cons
    (base : Nat)
    (bufferSize : U64)
    (i : Nat)
    (is : List Nat)
    (info : NcaInfo) :
    addSections f base bufferSize (i :: is) info =
      addSections f base bufferSize is
        (addSectionAt f base bufferSize info i) :=
  rfl

theorem addSectionAt_cases
    (base : Nat)
    (bufferSize : U64)
    (i : Nat)
    (hCoherent : info.Coherent) :
    addSectionAt f base bufferSize info i = info ∨
      (addSectionAt f base bufferSize info i).HasExeFs :=
  addSection_cases _ _ _ _ _ hCoherent

theorem hasExeFs_addSections_of
    {base : Nat}
    {bufferSize : U64}
    (is : List Nat)
    (hExeFs : info.HasExeFs) :
    (addSections f base bufferSize is info).HasExeFs := by
  induction is generalizing info with
  | nil => exact hExeFs
  | cons i is ih =>
      rw [addSections_cons]
      apply ih
      rcases addSectionAt_cases (f := f) base bufferSize i
          hExeFs.coherent with hSame | hNew
      · rw [hSame]
        exact hExeFs
      · exact hNew

/- One program section among those of the table is enough. -/
theorem hasExeFs_addSections
    {base k off size : Nat}
    {bufferSize : U64}
    {is : List Nat}
    (hSection : ProgramSection f base k off size)
    (hMem : k ∈ is)
    (hCoherent : info.Coherent) :
    (addSections f base bufferSize is info).HasExeFs := by
  induction is generalizing info with
  | nil => cases hMem
  | cons i is ih =>
      rw [addSections_cons]
      rcases List.mem_cons.1 hMem with hHead | hTail
      · subst hHead
        have hOffset := hSection.offset
        have hLength := hSection.length
        have hOffsetPos := hSection.offset_pos
        have hHeader := hSection.header_le
        apply hasExeFs_addSections_of
        unfold addSectionAt
        rw [hSection.type]
        apply addSection_program hCoherent <;> omega
      · apply ih hTail
        rcases addSectionAt_cases (f := f) base bufferSize i
            hCoherent with hSame | hNew
        · rw [hSame]
          exact hCoherent
        · exact hNew.coherent

------
-- The NCA of the Executable
------

section

variable {file : Pfs0File} {off size : Nat} {main : Span}

/- The NCA is large enough for its header. -/
theorem MainNsp.header_le
    (hNsp : MainNsp f file off size main) :
    0x400 ≤ (ncaRest f file).toNat := by
  rcases hNsp.program with ⟨k, hSection⟩
  rcases hNsp.lists.entry with ⟨i, -, -, hStart, -⟩
  have hOff := hSection.offset
  have hOffPos := hSection.offset_pos
  have hMain := hNsp.main_le
  have hCount := hNsp.lists.magic_le
  have hInside := hNsp.inside
  have hLength := f.length_lt
  have hRest :
      (f.size - file.offset).toNat =
        f.bytes.length - file.offset.toNat := by
    rw [BitVec.toNat_sub, PackageFile.toNat_size]
    omega
  unfold ncaRest
  dsimp only
  split
  · rw [hRest]
    omega
  · omega

/- The ExeFS is said to start with the NCA. -/
theorem MainNsp.exefs_at_start
    (hNsp : MainNsp f file off size main) :
    ∃ info,
      (parseNca f file.offset.toNat (ncaRest f file)).value =
          some info ∧
        info.exefsOffset = 0 ∧ 0 < info.exefsSize.toNat := by
  rcases hNsp.program with ⟨k, hSection⟩
  have hHeader : 0x400 ≤ ncaRest f file := hNsp.header_le
  have hIndex : k ∈ [0, 1, 2, 3] := by
    have hLt := hSection.index
    simp only [List.mem_cons, List.not_mem_nil, or_false]
    omega
  have hExeFs :
      (addSections f file.offset.toNat (ncaRest f file)
        [0, 1, 2, 3]
        { ncaSize :=
            f.data.long
              (file.offset.toNat + 0x30) }).HasExeFs :=
    hasExeFs_addSections hSection hIndex fun hSize =>
      absurd rfl hSize
  have hNca :
      nca f file.offset.toNat (ncaRest f file) =
        some
          (addSections f file.offset.toNat (ncaRest f file)
            [0, 1, 2, 3]
            { ncaSize :=
                f.data.long (file.offset.toNat + 0x30) }) :=
    if_pos
      ⟨hHeader, hNsp.ncaMagic,
        Or.inr ((BitVec.pos_iff_ne_zero _).2 hExeFs.2)⟩
  refine ⟨_, (value_parseNca _ _).trans hNca, ?_, ?_⟩
  · exact (nca_eq_some hNca).1.exefsOffset
  · exact Nat.pos_of_ne_zero fun hZero =>
      hExeFs.1 (BitVec.eq_of_toNat_eq hZero)

/- So its first byte lies in front of the section. -/
theorem MainNsp.exefs_not_inside
    (hNsp : MainNsp f file off size main) :
    ∃ info,
      (parseNca f file.offset.toNat (ncaRest f file)).value =
          some info ∧
        ¬ ∀ pos,
          Covers info.exefsOffset.toNat info.exefsSize.toNat pos →
            Covers off size pos := by
  rcases hNsp.exefs_at_start with ⟨info, hInfo, hStart, hSize⟩
  rcases hNsp.program with ⟨k, hSection⟩
  have hPos := hSection.offset_pos
  have hZero : info.exefsOffset.toNat = 0 := by
    rw [hStart]
    rfl
  refine ⟨info, hInfo, fun hInside => ?_⟩
  have hFirst := hInside 0 ⟨by omega, by omega⟩
  exact absurd hFirst.1 (by omega)

/-
  No main is extracted as the section table lays it out: the
  ExeFS is reported in front of every section.
-/
theorem not_extracted
    {M : Type}
    (nsoLoad : M → Span → M × Bool)
    (guest : M)
    (hNsp : MainNsp f file off size main) :
    ¬ Extracted nsoLoad f guest file off size main := by
  intro hExtracted
  rcases hNsp.exefs_not_inside with ⟨info, hInfo, hOutside⟩
  exact hOutside (hExtracted.exefs_inside info hInfo)

end

/-
  An NSP with one NCA, whose section takes two media units
  behind two of header and lists a main of four bytes.
-/
def mainSample : PackageFile where
  bytes :=
    [0x50, 0x46, 0x53, 0x30, 1, 0, 0, 0, 6, 0, 0, 0, 0, 0, 0, 0] ++
      [0, 0, 0, 0, 0, 0, 0, 0, 0, 8, 0, 0, 0, 0, 0, 0] ++
      [0x61, 0x2E, 0x6E, 0x63, 0x61, 0] ++
      [0x4E, 0x43, 0x41, 0x33] ++ List.replicate 508 0 ++
      [2, 0, 0, 0, 2, 0, 0, 0] ++ List.replicate 504 0 ++
      [0x6D, 0x61, 0x69, 0x6E, 0, 0, 0, 0, 0, 0, 0, 0, 4] ++
      List.replicate 499 0 ++ [0x4E, 0x53, 0x4F, 0x30] ++
      List.replicate 508 0
  length_lt := by decide +kernel

def mainSampleFile : Pfs0File :=
  ⟨38, 2048, [0x61, 0x2E, 0x6E, 0x63, 0x61]⟩

theorem mainNsp_sample :
    MainNsp mainSample mainSampleFile 1024 1024 ⟨1574, 4⟩ where
  magic := by decide
  files :=
    ⟨[], [], by decide +kernel, fun _ hOther => by cases hOther⟩
  name := by decide
  inside := by decide +kernel
  ncaMagic := by decide
  program := by
    refine ⟨0, by decide, ?_, ?_, ?_, by decide, by decide⟩
    · decide +kernel
    · decide +kernel
    · decide +kernel
  lists := by
    refine ⟨⟨0, by decide, ?_, ?_, ?_⟩, ?_, by decide, by decide⟩
    · decide +kernel
    · decide +kernel
    · decide +kernel
    · decide +kernel
  main_le := by decide

theorem not_extracted_sample :
    ¬ Extracted (fun (_ : Unit) _ => ((), true)) mainSample ()
        mainSampleFile 1024 1024 ⟨1574, 4⟩ :=
  not_extracted _ () mainNsp_sample

/- The main file of the sample is not found at all. -/
theorem mainSample_not_loaded :
    MainNsp mainSample mainSampleFile 1024 1024 ⟨1574, 4⟩ ∧
      ¬ Extracted (fun (_ : Unit) _ => ((), true)) mainSample ()
          mainSampleFile 1024 1024 ⟨1574, 4⟩ := by
  refine ⟨mainNsp_sample, fun hExtracted => ?_⟩
  have hNone :
      (loadExecutable (fun (_ : Unit) _ => ((), true))
        mainSample ()).value.nso = [] := by
    decide +kernel
  have hLoaded := hExtracted.loaded
  rw [hNone] at hLoaded
  cases hLoaded

end Loader

end M1Switch
