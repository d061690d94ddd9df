import M1Switch.Loader.Package

/-
  What the package loaders read.

  Each parser is given a value that does not mention reads, and
  the exact condition under which it reads inside the file.

  Key definitions include:
    * `filesFrom`
    * `pfs0`

  Main results:
    * `value_parseNca`
    * `within_parseNca`
    * `value_findExeFsEntry`
-/

------
-- Files
------

namespace M1Switch

namespace PackageFile

variable {f : PackageFile}

@[simp] theorem toNat_size (f : PackageFile) :
    f.size.toNat = f.bytes.length := by
  have hLt := f.length_lt
  unfold size
  rw [BitVec.toNat_ofNat]
  omega

/- What a parser reads lies inside the file. -/
def Reads {α : Type} (f : PackageFile) (t : Traced α) : Prop :=
  Span.Within f.bytes.length t.reads

section

variable {α β : Type}

@[simp] theorem reads_pure (a : α) :
    f.Reads (pure a) := by
  simp [Reads]

@[simp] theorem reads_bind
    (t : Traced α)
    (next : α → Traced β) :
    f.Reads (t >>= next) ↔
      f.Reads t ∧ f.Reads (next t.value) := by
  simp [Reads]

@[simp] theorem reads_read
    (start count : Nat)
    (a : α) :
    f.Reads (Traced.read start count a) ↔
      start + count ≤ f.bytes.length := by
  simp [Reads]

end

@[simp] theorem reads_read8 (pos : Nat) :
    f.Reads (f.read8 pos) ↔ pos + 1 ≤ f.bytes.length :=
  reads_read pos 1 _

@[simp] theorem reads_read32 (pos : Nat) :
    f.Reads (f.read32 pos) ↔ pos + 4 ≤ f.bytes.length :=
  reads_read pos 4 _

@[simp] theorem reads_read64 (pos : Nat) :
    f.Reads (f.read64 pos) ↔ pos + 8 ≤ f.bytes.length :=
  reads_read pos 8 _

@[simp] theorem reads_memcpy (pos count : Nat) :
    f.Reads (f.memcpy pos count) ↔
      pos + count ≤ f.bytes.length :=
  reads_read pos count _

@[simp] theorem value_read8 (pos : Nat) :
    (f.read8 pos).value = f.data pos :=
  rfl

@[simp] theorem value_read32 (pos : Nat) :
    (f.read32 pos).value = f.data.word pos :=
  rfl

@[simp] theorem value_read64 (pos : Nat) :
    (f.read64 pos).value = f.data.long pos :=
  rfl

@[simp] theorem value_memcpy (pos count : Nat) :
    (f.memcpy pos count).value = f.data.slice pos count :=
  rfl

@[simp] theorem value_cString (pos : Nat) :
    (f.cString pos).value = f.nameAt pos :=
  rfl

/- There is a zero behind the characters. -/
def NameEnds (f : PackageFile) (pos : Nat) : Prop :=
  0 ∈ f.bytes.drop pos

instance (f : PackageFile) (pos : Nat) :
    Decidable (f.NameEnds pos) :=
  inferInstanceAs (Decidable (_ ∈ _))

/- The characters stop in front of a zero, if there is one. -/
theorem length_takeWhile_lt_iff (cs : List U8) :
    (cs.takeWhile (· ≠ 0)).length < cs.length ↔ 0 ∈ cs := by
  induction cs with
  | nil => simp
  | cons c cs ih =>
      by_cases hZero : c = 0
      · have hStop : decide (c ≠ 0) = false := by
          simp [hZero]
        simp only [List.takeWhile_cons, hStop]
        simp [hZero]
      · have hGo : decide (c ≠ 0) = true := decide_eq_true hZero
        have hNe : (0 : U8) ≠ c := fun hEq => hZero hEq.symm
        simp only [List.takeWhile_cons, hGo, if_true,
          List.length_cons, Nat.add_lt_add_iff_right, ih,
          List.mem_cons, hNe, false_or]

@[simp] theorem reads_cString (pos : Nat) :
    f.Reads (f.cString pos) ↔ f.NameEnds pos := by
  unfold cString NameEnds
  rw [reads_read, ← length_takeWhile_lt_iff]
  unfold nameAt
  rw [List.length_drop]
  have hLe := List.takeWhile_prefix (· ≠ (0 : U8))
    (l := f.bytes.drop pos) |>.length_le
  rw [List.length_drop] at hLe
  omega

end PackageFile

------
-- Archives
------

namespace Loader

open PackageFile (NameEnds)

variable {f : PackageFile} {entryBase base : Nat}
variable {header : Pfs0Header} {bufferSize : U64}

/- Where the name behind those of `files` starts. -/
def namePos
    (entryBase : Nat)
    (header : Pfs0Header)
    (files : List Pfs0File) : Nat :=
  entryBase + (header.numFiles * 16).toNat +
    (strOffset files).toNat

/- The file that is listed behind others. -/
def nextFile
    (f : PackageFile)
    (entryBase : Nat)
    (header : Pfs0Header)
    (files : List Pfs0File) : Pfs0File :=
  { offset :=
      f.data.long (entryPos entryBase files.length) +
        needed header
    size := f.data.long (entryPos entryBase files.length + 8)
    name :=
      if strOffset files < header.stringTableSize then
        f.nameAt (namePos entryBase header files)
      else [] }

/- The first `n` files. -/
def filesFrom
    (f : PackageFile)
    (entryBase : Nat)
    (header : Pfs0Header) : Nat → List Pfs0File
| 0 => []
| n + 1 =>
    filesFrom f entryBase header n ++
      [nextFile f entryBase header
        (filesFrom f entryBase header n)]

@[simp] theorem length_filesFrom (n : Nat) :
    (filesFrom f entryBase header n).length = n := by
  induction n with
  | zero => rfl
  | succ n ih =>
      unfold filesFrom
      rw [List.length_append, ih]
      rfl

/- An entry lies inside the file, and its name ends there. -/
def FileInside
    (f : PackageFile)
    (entryBase : Nat)
    (header : Pfs0Header)
    (i : Nat) : Prop :=
  entryPos entryBase i + 16 ≤ f.bytes.length ∧
    (strOffset (filesFrom f entryBase header i) <
        header.stringTableSize →
      f.NameEnds
        (namePos entryBase header
          (filesFrom f entryBase header i)))

theorem value_readName (files : List Pfs0File) :
    (readName f entryBase header files).value =
      if strOffset files < header.stringTableSize then
        f.nameAt (namePos entryBase header files)
      else [] := by
  unfold readName
  dsimp only
  split <;> rfl

theorem reads_readName (files : List Pfs0File) :
    f.Reads (readName f entryBase header files) ↔
      (strOffset files < header.stringTableSize →
        f.NameEnds (namePos entryBase header files)) := by
  unfold readName
  dsimp only
  split
  · next hName =>
      rw [PackageFile.reads_cString]
      exact ⟨fun hEnds _ => hEnds, fun hEnds => hEnds hName⟩
  · next hNone =>
      exact
        ⟨fun _ hName => absurd hName hNone,
          fun _ => PackageFile.reads_pure _⟩

theorem value_parseFiles (n k : Nat) :
    (parseFiles f entryBase header n
        (filesFrom f entryBase header k)).value =
      filesFrom f entryBase header (k + n) := by
  induction n generalizing k with
  | zero => rfl
  | succ n ih =>
      have hNext :
          filesFrom f entryBase header (k + 1 + n) =
            filesFrom f entryBase header (k + (n + 1)) := by
        rw [Nat.add_right_comm, Nat.add_assoc]
      have hStep :
          filesFrom f entryBase header (k + 1) =
            filesFrom f entryBase header k ++
              [nextFile f entryBase header
                (filesFrom f entryBase header k)] :=
        rfl
      rw [← hNext, ← ih (k + 1), hStep]
      unfold nextFile
      rw [← value_readName]
      rfl

theorem reads_parseFiles (n k : Nat) :
    f.Reads
        (parseFiles f entryBase header n
          (filesFrom f entryBase header k)) ↔
      ∀ i, k ≤ i → i < k + n →
        FileInside f entryBase header i := by
  induction n generalizing k with
  | zero =>
      constructor
      · intro _ i hLow hHigh
        omega
      · intro _
        exact PackageFile.reads_pure _
  | succ n ih =>
      have hRound :
          f.Reads
              (parseFiles f entryBase header (n + 1)
                (filesFrom f entryBase header k)) ↔
            FileInside f entryBase header k ∧
              f.Reads
                (parseFiles f entryBase header n
                  (filesFrom f entryBase header (k + 1))) := by
        have hLength : (filesFrom f entryBase header k).length = k :=
          length_filesFrom k
        have hStep :
            filesFrom f entryBase header (k + 1) =
              filesFrom f entryBase header k ++
                [nextFile f entryBase header
                  (filesFrom f entryBase header k)] :=
          rfl
        rw [hStep, parseFiles]
        unfold FileInside nextFile
        rw [← reads_readName, ← value_readName]
        simp only [PackageFile.reads_bind,
          PackageFile.reads_read64, PackageFile.value_read64,
          hLength]
        constructor
        · rintro ⟨_, hEntry, hName, hRest⟩
          exact ⟨⟨hEntry, hName⟩, hRest⟩
        · rintro ⟨⟨hEntry, hName⟩, hRest⟩
          exact ⟨by omega, hEntry, hName, hRest⟩
      rw [hRound, ih (k + 1)]
      constructor
      · rintro ⟨hFirst, hRest⟩ i hLow hHigh
        by_cases hEq : i = k
        · rw [hEq]
          exact hFirst
        · exact hRest i (by omega) (by omega)
      · intro hAll
        exact
          ⟨hAll k (Nat.le_refl k) (by omega),
            fun i hLow hHigh => hAll i (by omega) (by omega)⟩

/- The files of the archive at `base`, if it is one. -/
def pfs0
    (f : PackageFile)
    (base : Nat)
    (bufferSize : U64) : Option (List Pfs0File) :=
  let header := pfs0Header f base
  if bufferSize < 16 ∨ header.magic ≠ PFS0_MAGIC ∨
      bufferSize < needed header then none
  else
    some
      (filesFrom f (base + 16) header header.numFiles.toNat)

/- The archive is read inside the file. -/
def Pfs0Sound
    (f : PackageFile)
    (base : Nat)
    (bufferSize : U64) : Prop :=
  let header := pfs0Header f base
  16 ≤ bufferSize →
    base + 16 ≤ f.bytes.length ∧
      (header.magic = PFS0_MAGIC → needed header ≤ bufferSize →
        ∀ i < header.numFiles.toNat,
          FileInside f (base + 16) header i)

theorem value_parsePfs0 (base : Nat) (bufferSize : U64) :
    (parsePfs0 f base bufferSize).value =
      pfs0 f base bufferSize := by
  unfold parsePfs0 pfs0
  by_cases hSmall : bufferSize < 16
  · simp only [hSmall, true_or, if_true, Traced.value_pure]
  · by_cases hMagic : (pfs0Header f base).magic = PFS0_MAGIC
    · by_cases hNeeded : bufferSize < needed (pfs0Header f base)
      · simp only [hSmall, hMagic, hNeeded, ne_eq, not_true,
          if_true, if_false, or_true, Traced.value_bind,
          Traced.value_pure]
      · have hFiles :
            (parseFiles f (base + 16) (pfs0Header f base)
                (pfs0Header f base).numFiles.toNat []).value =
              filesFrom f (base + 16) (pfs0Header f base)
                (0 + (pfs0Header f base).numFiles.toNat) :=
          value_parseFiles (pfs0Header f base).numFiles.toNat 0
        rw [Nat.zero_add] at hFiles
        simp only [hSmall, hMagic, hNeeded, ne_eq, not_true,
          if_false, or_self, Traced.value_bind, hFiles,
          Traced.value_pure]
    · simp only [hSmall, hMagic, ne_eq, not_false_iff, if_true,
        if_false, or_true, true_or, Traced.value_bind,
        Traced.value_pure]

theorem reads_parsePfs0 (base : Nat) (bufferSize : U64) :
    f.Reads (parsePfs0 f base bufferSize) ↔
      Pfs0Sound f base bufferSize := by
  unfold parsePfs0 Pfs0Sound
  by_cases hSmall : bufferSize < 16
  · have hNot : ¬ 16 ≤ bufferSize := by
      rw [BitVec.not_le]
      exact hSmall
    simp only [hSmall, if_true, PackageFile.reads_pure, hNot,
      false_implies]
  · have hLarge : 16 ≤ bufferSize := BitVec.not_lt.1 hSmall
    simp only [hSmall, if_false, PackageFile.reads_bind,
      PackageFile.reads_read, hLarge, true_implies]
    apply and_congr_right
    intro _
    by_cases hMagic : (pfs0Header f base).magic = PFS0_MAGIC
    · by_cases hNeeded : bufferSize < needed (pfs0Header f base)
      · have hNot :
            ¬ needed (pfs0Header f base) ≤ bufferSize := by
          rw [BitVec.not_le]
          exact hNeeded
        simp only [hMagic, hNeeded, ne_eq, not_true, if_true,
          if_false, PackageFile.reads_pure, hNot,
          false_implies, implies_true]
      · have hFits : needed (pfs0Header f base) ≤ bufferSize :=
          BitVec.not_lt.1 hNeeded
        have hFiles :
            f.Reads
                (parseFiles f (base + 16) (pfs0Header f base)
                  (pfs0Header f base).numFiles.toNat []) ↔ _ :=
          reads_parseFiles (pfs0Header f base).numFiles.toNat 0
        simp only [hMagic, hNeeded, ne_eq, not_true, if_false,
          PackageFile.reads_bind, hFiles, Nat.zero_le,
          Nat.zero_add, PackageFile.reads_pure, and_true,
          true_implies, hFits]
    · simp only [hMagic, ne_eq, not_false_iff, if_true,
        PackageFile.reads_pure, false_implies]

------
-- NCA Headers
------

/- What the sections add to what is known of an NCA. -/
def addSections
    (f : PackageFile)
    (base : Nat)
    (bufferSize : U64)
    (is : List Nat)
    (info : NcaInfo) : NcaInfo :=
  is.foldl
    (fun info i =>
      addSection bufferSize info
        (f.data.word (base + 0x200 + i * 16))
        (f.data.word (base + 0x200 + i * 16 + 4))
        (f.data (base + 0x200 + i * 16 + 12)))
    info

theorem value_parseSections
    (base : Nat)
    (bufferSize : U64)
    (is : List Nat)
    (info : NcaInfo) :
    (parseSections f base bufferSize is info).value =
      addSections f base bufferSize is info := by
  induction is generalizing info with
  | nil => rfl
  | cons i is ih =>
      unfold parseSections
      simp only [Traced.value_bind, PackageFile.value_read32,
        PackageFile.value_read8]
      exact ih _

theorem reads_parseSections
    (base : Nat)
    (bufferSize : U64)
    (is : List Nat)
    (info : NcaInfo) :
    f.Reads (parseSections f base bufferSize is info) ↔
      ∀ i ∈ is, base + 0x200 + i * 16 + 13 ≤ f.bytes.length := by
  induction is generalizing info with
  | nil =>
      unfold parseSections
      simp
  | cons i is ih =>
      unfold parseSections
      simp only [PackageFile.reads_bind,
        PackageFile.reads_read32, PackageFile.reads_read8, ih,
        List.forall_mem_cons]
      constructor
      · rintro ⟨_, _, hType, hRest⟩
        exact ⟨hType, hRest⟩
      · rintro ⟨hType, hRest⟩
        exact ⟨by omega, by omega, hType, hRest⟩

/- What is known of the NCA at `base`, if it is one. -/
def nca
    (f : PackageFile)
    (base : Nat)
    (bufferSize : U64) : Option NcaInfo :=
  let info :=
    addSections f base bufferSize [0, 1, 2, 3]
      { ncaSize := f.data.long (base + 0x30) }
  if 0x400 ≤ bufferSize ∧ isNcaMagic (f.data.word base) ∧
      (info.exefsOffset > 0 ∨ info.romfsOffset > 0) then
    some info
  else none

/- The header of an NCA is read inside the file. -/
def NcaSound
    (f : PackageFile)
    (base : Nat)
    (bufferSize : U64) : Prop :=
  0x400 ≤ bufferSize →
    base + 4 ≤ f.bytes.length ∧
      (isNcaMagic (f.data.word base) →
        base + 0x23D ≤ f.bytes.length)

theorem value_parseNca (base : Nat) (bufferSize : U64) :
    (parseNca f base bufferSize).value =
      nca f base bufferSize := by
  unfold parseNca nca
  by_cases hSmall : bufferSize < 0x400
  · have hNot : ¬ 0x400 ≤ bufferSize := by
      rw [BitVec.not_le]
      exact hSmall
    simp only [hSmall, if_true, hNot, false_and, if_false,
      Traced.value_pure]
  · have hLarge : 0x400 ≤ bufferSize := BitVec.not_lt.1 hSmall
    by_cases hMagic : isNcaMagic (f.data.word base)
    · simp only [hSmall, hLarge, hMagic, not_true, if_false,
        true_and, Traced.value_bind, Traced.value_ite,
        Traced.value_pure, PackageFile.value_read32,
        PackageFile.value_read64, value_parseSections]
    · simp only [hSmall, hMagic, Bool.false_eq_true,
        not_false_iff, if_true, if_false, false_and, and_false,
        Traced.value_bind, Traced.value_pure,
        PackageFile.value_read32]

theorem reads_parseNca (base : Nat) (bufferSize : U64) :
    f.Reads (parseNca f base bufferSize) ↔
      NcaSound f base bufferSize := by
  unfold parseNca NcaSound
  by_cases hSmall : bufferSize < 0x400
  · have hNot : ¬ 0x400 ≤ bufferSize := by
      rw [BitVec.not_le]
      exact hSmall
    simp only [hSmall, if_true, PackageFile.reads_pure, hNot,
      false_implies]
  · have hLarge : 0x400 ≤ bufferSize := BitVec.not_lt.1 hSmall
    simp only [hSmall, if_false, PackageFile.reads_bind,
      PackageFile.reads_read32, PackageFile.value_read32,
      hLarge, true_implies]
    apply and_congr_right
    intro _
    by_cases hMagic : isNcaMagic (f.data.word base)
    · simp only [hMagic, not_true, if_false, true_implies,
        PackageFile.reads_bind, PackageFile.reads_read64,
        PackageFile.reads_read8, reads_parseSections,
        List.forall_mem_cons]
      constructor
      · rintro ⟨_, _, ⟨_, _, _, hLast, _⟩, _⟩
        omega
      · intro hIn
        refine
          ⟨by omega, by omega,
            ⟨by omega, by omega, by omega, by omega, ?_⟩, ?_⟩
        · intro i hI
          cases hI
        · split <;> exact PackageFile.reads_pure _
    · simp only [hMagic, Bool.false_eq_true, not_false_iff,
        if_true, PackageFile.reads_pure, false_implies]

------
-- ExeFS Headers
------

/- Where entry `i` has a file of this name, if it has. -/
def exeFsEntry
    (f : PackageFile)
    (base : Nat)
    (exefsSize : U64)
    (targetName : List U8)
    (i : Nat) : Option (U64 × U64) :=
  exeFsHit exefsSize targetName
    (f.data.slice (base + i * 16) 8)
    (f.data.word (base + i * 16 + 8))
    (f.data.word (base + i * 16 + 12))

/- The first such file of the header at `base`. -/
def exeFsFile
    (f : PackageFile)
    (base : Nat)
    (exefsSize : U64)
    (targetName : List U8) : Option (U64 × U64) :=
  if exefsSize < 0x200 then none
  else
    (List.range 32).findSome?
      (exeFsEntry f base exefsSize targetName)

/- All the entries of a header lie in its 0x200 bytes. -/
theorem entryOff_of_lt
    {exefsSize : U64}
    {i : Nat}
    (hSize : 0x200 ≤ exefsSize)
    (hI : i < 32) :
    (BitVec.ofNat 64 i * 16).toNat = i * 16 ∧
      ¬ exefsSize < BitVec.ofNat 64 i * 16 + 16 := by
  have hOff : (BitVec.ofNat 64 i * 16).toNat = i * 16 := by
    have hSixteen : (16 : U64).toNat = 16 := rfl
    rw [BitVec.toNat_mul, BitVec.toNat_ofNat, hSixteen]
    omega
  refine ⟨hOff, ?_⟩
  rw [BitVec.lt_def, BitVec.toNat_add, hOff]
  rw [BitVec.le_def] at hSize
  have hSixteen : (16 : U64).toNat = 16 := rfl
  have hHeader : (0x200 : U64).toNat = 0x200 := rfl
  omega

theorem value_scanExeFs
    {exefsSize : U64}
    {is : List Nat}
    (hSize : 0x200 ≤ exefsSize)
    (hIs : ∀ i ∈ is, i < 32)
    (base : Nat)
    (targetName : List U8) :
    (scanExeFs f base exefsSize targetName is).value =
      is.findSome? (exeFsEntry f base exefsSize targetName) := by
  induction is with
  | nil => rfl
  | cons i is ih =>
      rcases List.forall_mem_cons.1 hIs with ⟨hI, hRest⟩
      rcases entryOff_of_lt hSize hI with ⟨hOff, hFits⟩
      have hRest' := ih hRest
      rw [scanExeFs, List.findSome?_cons, ← hRest']
      simp only [hFits, if_false, hOff, Traced.value_bind,
        PackageFile.value_memcpy, PackageFile.value_read32]
      unfold exeFsEntry
      split
      · next hHit => rw [hHit]; rfl
      · next hMiss => rw [hMiss]

theorem reads_scanExeFs
    {exefsSize : U64}
    {is : List Nat}
    (hSize : 0x200 ≤ exefsSize)
    (hIs : ∀ i ∈ is, i < 32)
    (hIn : base + 0x200 ≤ f.bytes.length)
    (targetName : List U8) :
    f.Reads (scanExeFs f base exefsSize targetName is) := by
  induction is with
  | nil => exact PackageFile.reads_pure _
  | cons i is ih =>
      rcases List.forall_mem_cons.1 hIs with ⟨hI, hRest⟩
      rcases entryOff_of_lt hSize hI with ⟨hOff, hFits⟩
      rw [scanExeFs]
      simp only [hFits, if_false, hOff, PackageFile.reads_bind,
        PackageFile.reads_memcpy, PackageFile.reads_read32]
      refine ⟨by omega, by omega, by omega, ?_⟩
      split
      · exact PackageFile.reads_pure _
      · exact ih hRest

theorem value_findExeFsEntry
    (base : Nat)
    (exefsSize : U64)
    (targetName : List U8) :
    (findExeFsEntry f base exefsSize targetName).value =
      exeFsFile f base exefsSize targetName := by
  unfold findExeFsEntry exeFsFile
  split
  · rfl
  · next hSize =>
      exact value_scanExeFs (BitVec.not_lt.1 hSize)
        (fun _ hI => List.mem_range.1 hI) base targetName

theorem reads_findExeFsEntry
    (hIn : base + 0x200 ≤ f.bytes.length)
    (exefsSize : U64)
    (targetName : List U8) :
    f.Reads (findExeFsEntry f base exefsSize targetName) := by
  unfold findExeFsEntry
  split
  · exact PackageFile.reads_pure _
  · next hSize =>
      exact reads_scanExeFs (BitVec.not_lt.1 hSize)
        (fun _ hI => List.mem_range.1 hI) hIn targetName

/- What is found lies in the ExeFS, which says its size. -/
theorem exeFsFile_bounds
    {exefsSize off size : U64}
    {targetName : List U8}
    (hFile :
      exeFsFile f base exefsSize targetName = some (off, size)) :
    off.toNat < 2 ^ 32 ∧ size.toNat < 2 ^ 32 ∧
      off.toNat + size.toNat ≤ exefsSize.toNat := by
  unfold exeFsFile at hFile
  split at hFile
  · cases hFile
  · rcases List.exists_of_findSome?_eq_some hFile with
      ⟨i, -, hEntry⟩
    unfold exeFsEntry exeFsHit at hEntry
    dsimp only at hEntry
    split at hEntry
    · cases hEntry
    · split at hEntry
      · next hHit =>
        rcases hHit with ⟨-, hFits⟩
        cases hEntry
        have hOff :=
          (0x200 + f.data.word (base + i * 16 + 8)).isLt
        have hLen := (f.data.word (base + i * 16 + 12)).isLt
        have hWide :
            ∀ w : U32, (w.setWidth 64).toNat = w.toNat := by
          intro w
          have hW := w.isLt
          rw [BitVec.toNat_setWidth]
          omega
        rw [BitVec.le_def, BitVec.toNat_add, hWide, hWide]
          at hFits
        rw [hWide, hWide]
        omega
      · cases hEntry

end Loader

end M1Switch
