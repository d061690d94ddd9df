import Mathlib.Data.List.GetD
import Mathlib.Data.List.TakeWhile
import M1Switch.Library.RecordBytes
import M1Switch.Loader.RomFs.Tables

/-
  Tables laid out entry by entry, and what the loops make of
  them.

  An entry without a name ends a loop: what is recovered are
  the entries in front of the first such one.  The directory
  at the top of an image has no name, and comes first.

  Key definitions include:
    * `RomFs.EntryLayout.Writes`
    * `RomFs.LaidOut`

  Main results:
    * `parseTable_laidOut`
    * `files_recovered`
    * `tables_not_recovered`
-/

namespace M1Switch

namespace RomFs

------
-- Words between other Bytes
------

section Words

variable (before after : List U8)

theorem getD_between
    {bytes : List U8}
    {j : Nat}
    (hJ : j < bytes.length) :
    (before ++ (bytes ++ after)).getD (before.length + j) 0 =
      bytes.getD j 0 := by
  rw [List.getD_append_right _ _ _ _ (Nat.le_add_right _ _),
    Nat.add_sub_cancel_left, List.getD_append _ _ _ _ hJ]

theorem wordAt_words
    {ws : List U32}
    {k : Nat}
    (hK : k < ws.length) :
    wordAt (before ++ (Bytes.ofWords ws ++ after))
      (before.length + 4 * k) = ws.getD k 0 := by
  rw [← Bytes.word_ofWords hK]
  apply Bytes.word_congr
  intro j hJ
  have hIn : 4 * k + j < (Bytes.ofWords ws).length := by
    rw [Bytes.length_ofWords]
    omega
  rw [Nat.add_assoc]
  exact getD_between before after hIn

theorem longAt_words
    {ws : List U32}
    {l : U64}
    {k : Nat}
    (hK : k + 1 < ws.length)
    (hLow : ws.getD k 0 = l.extractLsb' 0 32)
    (hHigh : ws.getD (k + 1) 0 = l.extractLsb' 32 32) :
    longAt (before ++ (Bytes.ofWords ws ++ after))
      (before.length + 4 * k) = l := by
  have hPos :
      before.length + 4 * k + 4 =
        before.length + 4 * (k + 1) := by
    omega
  unfold longAt
  rw [hPos, wordAt_words before after hK,
    wordAt_words before after (by omega), hLow, hHigh]
  exact Bytes.append_halves l

end Words

------
-- Entries Laid Out
------

section Table

variable {β : Type} {layout : EntryLayout β}
variable {fields : List U8 → Nat → U32 → List U8 → β}

/- The bytes of an entry in front of the name length, and that
the fields are read back from them. -/
structure EntryLayout.Writes
    (layout : EntryLayout β)
    (fields : List U8 → Nat → U32 → List U8 → β) where
  head : β → List U8
  nameLen : β → U32
  name : β → List U8
  asks : 0 < layout.check.toNat
  length_head : ∀ e, (head e).length = layout.head.toNat
  fields_head :
    ∀ (before after : List U8) e,
      fields (before ++ (head e ++ after)) before.length
        (nameLen e) (name e) = e

def dirWrites : dirLayout.Writes dirFields where
  head := fun e =>
    Bytes.ofWords
      [e.parentOffset, e.siblingOffset, e.childDirOffset,
        e.childFileOffset]
  nameLen := RomFsDirEntry.nameLen
  name := RomFsDirEntry.name
  asks := by decide
  length_head := by
    intro e
    rw [Bytes.length_ofWords]
    rfl
  fields_head := by
    intro before after e
    have hWord :
        ∀ k < 4, wordAt
          (before ++ (Bytes.ofWords
            [e.parentOffset, e.siblingOffset, e.childDirOffset,
              e.childFileOffset] ++ after))
          (before.length + 4 * k) =
            [e.parentOffset, e.siblingOffset, e.childDirOffset,
              e.childFileOffset].getD k 0 :=
      fun k hK => wordAt_words before after hK
    simp only [dirFields, hWord 1 (by decide),
      hWord 2 (by decide), hWord 3 (by decide),
      show wordAt _ before.length = _ from hWord 0 (by decide)]
    rfl

def fileWrites : fileLayout.Writes fileFields where
  head := fun e =>
    Bytes.ofWords
      [e.parentOffset, e.siblingOffset,
        e.dataOffset.extractLsb' 0 32,
        e.dataOffset.extractLsb' 32 32,
        e.dataSize.extractLsb' 0 32,
        e.dataSize.extractLsb' 32 32]
  nameLen := RomFsFileEntry.nameLen
  name := RomFsFileEntry.name
  asks := by decide
  length_head := by
    intro e
    rw [Bytes.length_ofWords]
    rfl
  fields_head := by
    intro before after e
    set ws :=
      [e.parentOffset, e.siblingOffset,
        e.dataOffset.extractLsb' 0 32,
        e.dataOffset.extractLsb' 32 32,
        e.dataSize.extractLsb' 0 32,
        e.dataSize.extractLsb' 32 32] with hWs
    have hLength : ws.length = 6 := by rw [hWs]; rfl
    have hWord :
        ∀ k < 6,
          wordAt (before ++ (Bytes.ofWords ws ++ after))
            (before.length + 4 * k) = ws.getD k 0 :=
      fun k hK => wordAt_words before after (by omega)
    have hLong :
        ∀ k < 5, ∀ l : U64,
          ws.getD k 0 = l.extractLsb' 0 32 →
            ws.getD (k + 1) 0 = l.extractLsb' 32 32 →
              longAt (before ++ (Bytes.ofWords ws ++ after))
                (before.length + 4 * k) = l :=
      fun k hK l hLow hHigh =>
        longAt_words before after (by omega) hLow hHigh
    have hParent := hWord 0 (by decide)
    have hSibling := hWord 1 (by decide)
    have hOffset := hLong 2 (by decide) e.dataOffset rfl rfl
    have hSize := hLong 4 (by decide) e.dataSize rfl rfl
    simp only [Nat.reduceMul, Nat.mul_zero, Nat.add_zero]
      at hParent hSibling hOffset hSize
    simp only [fileFields, hParent, hSibling, hOffset, hSize]
    rfl

/- An entry, its name length and its name behind its head. -/
def entryBytes
    (w : layout.Writes fields)
    (e : β) : List U8 :=
  w.head e ++ (Bytes.ofWord (w.nameLen e) ++ w.name e)

/- Entries one behind the other. -/
def tableBytes
    (w : layout.Writes fields)
    (es : List β) : List U8 :=
  es.flatMap (entryBytes w)

/- The table of a span holds just these entries, each with the
length of its name. -/
structure LaidOut
    (w : layout.Writes fields)
    (data : List U8)
    (tableOff tableSize : U32)
    (es : List β) : Prop where
  fits : tableOff.toNat + tableSize.toNat < 2 ^ 32
  bytes :
    (data.drop tableOff.toNat).take tableSize.toNat =
      tableBytes w es
  inside :
    tableOff.toNat + tableSize.toNat ≤ data.length
  nameLen :
    ∀ e ∈ es, (w.nameLen e).toNat = (w.name e).length

/- An entry that does not end the loop. -/
def named
    (w : layout.Writes fields)
    (e : β) : Bool :=
  w.name e ≠ []

variable (w : layout.Writes fields)

theorem length_entryBytes (e : β) :
    (entryBytes w e).length =
      layout.head.toNat + 4 + (w.name e).length := by
  unfold entryBytes
  rw [List.length_append, List.length_append, w.length_head,
    Bytes.length_ofWord]
  omega

theorem tableBytes_cons
    (e : β)
    (es : List β) :
    tableBytes w (e :: es) =
      entryBytes w e ++ tableBytes w es :=
  rfl

theorem nameLenAt_entry
    (before after : List U8)
    (e : β) :
    nameLenAt layout (before ++ (entryBytes w e ++ after))
      before.length = w.nameLen e := by
  have hSplit :
      before ++ (entryBytes w e ++ after) =
        (before ++ w.head e) ++
          (Bytes.ofWords [w.nameLen e] ++
            (w.name e ++ after)) := by
    simp [entryBytes, Bytes.ofWords]
  have hStart :
      before.length + layout.head.toNat =
        (before ++ w.head e).length + 4 * 0 := by
    rw [List.length_append, w.length_head, Nat.mul_zero,
      Nat.add_zero]
  unfold nameLenAt
  rw [hSplit, hStart]
  exact wordAt_words (before ++ w.head e) _ Nat.zero_lt_one

theorem nextStart_entry
    (before after : List U8)
    {e : β}
    (hLen : (w.nameLen e).toNat = (w.name e).length) :
    nextStart layout (before ++ (entryBytes w e ++ after))
      before.length =
        (before ++ entryBytes w e).length := by
  unfold nextStart nameStart
  rw [nameLenAt_entry, hLen, List.length_append,
    length_entryBytes]
  omega

theorem entryAt_entry
    (before after : List U8)
    {e : β}
    (hLen : (w.nameLen e).toNat = (w.name e).length) :
    entryAt layout fields
      (before ++ (entryBytes w e ++ after))
      before.length = e := by
  have hSplit :
      before ++ (entryBytes w e ++ after) =
        before ++ (w.head e ++
          (Bytes.ofWord (w.nameLen e) ++ w.name e ++
            after)) := by
    simp [entryBytes]
  have hName :
      ((before ++ (entryBytes w e ++ after)).drop
        (nameStart layout before.length)).take
          (w.nameLen e).toNat = w.name e := by
    have hFront :
        before ++ (entryBytes w e ++ after) =
          (before ++ (w.head e ++
            Bytes.ofWord (w.nameLen e))) ++
              (w.name e ++ after) := by
      simp [entryBytes]
    have hLength :
        nameStart layout before.length =
          (before ++ (w.head e ++
            Bytes.ofWord (w.nameLen e))).length := by
      unfold nameStart
      rw [List.length_append, List.length_append,
        w.length_head, Bytes.length_ofWord]
      omega
    rw [hFront, hLength, List.drop_left, hLen, List.take_left]
  unfold entryAt
  rw [nameLenAt_entry, hName, hSplit]
  exact w.fields_head before _ e

------
-- What the Loop Makes of Them
------

theorem whole_entry
    (before after : List U8)
    {e : β}
    (hLen : (w.nameLen e).toNat = (w.name e).length)
    {end_ : Nat}
    (hEnd : (before ++ entryBytes w e).length ≤ end_) :
    Whole layout (before ++ (entryBytes w e ++ after)) end_
      before.length ↔ named w e := by
  have hNext := nextStart_entry w before after hLen
  have hStart :
      nameStart layout before.length ≤
        (before ++ entryBytes w e).length := by
    unfold nameStart
    rw [List.length_append, length_entryBytes]
    omega
  have hZero : w.nameLen e = 0 ↔ w.name e = [] := by
    rw [← List.length_eq_zero_iff, ← hLen]
    exact BitVec.toNat_eq (y := 0)
  unfold Whole named
  rw [hNext, nameLenAt_entry, decide_eq_true_eq, ne_eq, hZero]
  constructor
  · rintro ⟨_, hName, _⟩
    exact hName
  · intro hName
    exact ⟨by omega, hName, hEnd⟩

/- The loop ends at the first entry without a name. -/
theorem entries_laid
    (before after : List U8)
    {es : List β}
    (hLen :
      ∀ e ∈ es, (w.nameLen e).toNat = (w.name e).length) :
    entries layout fields
      (before ++ (tableBytes w es ++ after))
      (before.length + (tableBytes w es).length)
      before.length = es.takeWhile (named w) := by
  induction es generalizing before with
  | nil =>
      apply entries_of_not_whole
      rintro ⟨hStart, _⟩
      have hEmpty :
          (tableBytes w ([] : List β)).length = 0 :=
        rfl
      unfold nameStart at hStart
      omega
  | cons e es ih =>
      rw [List.forall_mem_cons] at hLen
      have hSplit :
          before ++ (tableBytes w (e :: es) ++ after) =
            before ++ (entryBytes w e ++
              (tableBytes w es ++ after)) := by
        rw [tableBytes_cons, List.append_assoc]
      have hEnd :
          before.length + (tableBytes w (e :: es)).length =
            (before ++ entryBytes w e).length +
              (tableBytes w es).length := by
        rw [tableBytes_cons, List.length_append,
          List.length_append]
        omega
      have hWhole :=
        whole_entry w before (tableBytes w es ++ after)
          hLen.1
          (show _ ≤ (before ++ entryBytes w e).length +
            (tableBytes w es).length by omega)
      rw [hSplit, hEnd]
      by_cases hNamed : named w e = true
      · rw [entries_of_whole (hWhole.2 hNamed),
          entryAt_entry w before _ hLen.1,
          nextStart_entry w before _ hLen.1,
          ← List.append_assoc, ih _ hLen.2,
          List.takeWhile_cons, if_pos hNamed]
      · rw [entries_of_not_whole (mt hWhole.1 hNamed),
          List.takeWhile_cons, if_neg hNamed]

/-
  The loop keeps to the span, if it ends at an entry without
  a name, or if the condition it asks at the end of the table
  does not wrap around.
-/
theorem sound_laid
    (hReads : layout.Reads fields)
    (before after : List U8)
    {es : List β}
    (hLen :
      ∀ e ∈ es, (w.nameLen e).toNat = (w.name e).length)
    {end_ : Nat}
    (hEnd : end_ = before.length + (tableBytes w es).length)
    (hFits : end_ < 2 ^ 32)
    (hRoom :
      (∀ e ∈ es, named w e) →
        end_ + layout.check.toNat < 2 ^ 32) :
    ∀ q ∈ starts layout
        (before ++ (tableBytes w es ++ after)) end_
        before.length,
      EntrySound layout
        (before ++ (tableBytes w es ++ after)) end_ q := by
  induction es generalizing before with
  | nil =>
      have hEmpty :
          (tableBytes w ([] : List β)).length = 0 :=
        rfl
      have hAsks := w.asks
      have hNoWrap := hRoom (by simp)
      have hNot :
          ¬ Whole layout
            (before ++ (tableBytes w [] ++ after)) end_
            before.length := by
        rintro ⟨hStart, _⟩
        unfold nameStart at hStart
        omega
      rw [starts_of_not_whole hNot, List.forall_mem_singleton]
      refine ⟨?_, ?_, ?_, ?_⟩
      · unfold Wraps
        omega
      · intro hCheck
        omega
      · intro hCheck
        omega
      · intro hStart
        unfold nameStart at hStart
        omega
  | cons e es ih =>
      rw [List.forall_mem_cons] at hLen hRoom
      have hChecked := hReads.checked
      have hLength := length_entryBytes w e
      have hSplit :
          before ++ (tableBytes w (e :: es) ++ after) =
            before ++ (entryBytes w e ++
              (tableBytes w es ++ after)) := by
        rw [tableBytes_cons, List.append_assoc]
      rw [tableBytes_cons, List.length_append,
        ← Nat.add_assoc, ← List.length_append] at hEnd
      have hWhole :=
        whole_entry w before (tableBytes w es ++ after)
          hLen.1
          (show (before ++ entryBytes w e).length ≤ end_ by
            omega)
      have hNext :=
        nextStart_entry w before (tableBytes w es ++ after)
          hLen.1
      have hFront :
          (before ++ entryBytes w e).length =
            before.length + (entryBytes w e).length :=
        List.length_append
      have hSound :
          EntrySound layout
            (before ++ (entryBytes w e ++
              (tableBytes w es ++ after))) end_
            before.length := by
        refine ⟨?_, ?_, ?_, ?_⟩
        · unfold Wraps
          omega
        · intro _
          rw [List.length_append, List.length_append]
          omega
        · intro _
          unfold Wraps nameStart
          omega
        · intro _ _
          rw [hNext]
          unfold Wraps
          omega
      rw [hSplit]
      by_cases hNamed : named w e = true
      · rw [starts_of_whole (hWhole.2 hNamed),
          List.forall_mem_cons, hNext]
        refine ⟨hSound, ?_⟩
        rw [← List.append_assoc]
        exact ih _ hLen.2 hEnd
          fun hRest => hRoom ⟨hNamed, hRest⟩
      · rw [starts_of_not_whole (mt hWhole.1 hNamed),
          List.forall_mem_singleton]
        exact hSound

variable {w} {data : List U8} {tableOff tableSize : U32}
variable {es : List β}

/- The span around a table. -/
theorem LaidOut.split
    (hLaid : LaidOut w data tableOff tableSize es) :
    data =
      data.take tableOff.toNat ++ (tableBytes w es ++
        data.drop (tableOff.toNat + tableSize.toNat)) := by
  have hRest :
      tableBytes w es ++
          data.drop (tableOff.toNat + tableSize.toNat) =
        data.drop tableOff.toNat := by
    rw [← hLaid.bytes, ← List.drop_drop,
      List.take_append_drop]
  rw [hRest, List.take_append_drop]

theorem LaidOut.length_front
    (hLaid : LaidOut w data tableOff tableSize es) :
    (data.take tableOff.toNat).length = tableOff.toNat := by
  have hInside := hLaid.inside
  rw [List.length_take]
  omega

theorem LaidOut.length_table
    (hLaid : LaidOut w data tableOff tableSize es) :
    (tableBytes w es).length = tableSize.toNat := by
  have hInside := hLaid.inside
  rw [← hLaid.bytes, List.length_take, List.length_drop]
  omega

/-
  From a table laid out the entries in front of the first one
  without a name are recovered.
-/
theorem parseTable_laidOut
    (hReads : layout.Reads fields)
    (hLaid : LaidOut w data tableOff tableSize es)
    (hRoom :
      (∀ e ∈ es, named w e) →
        tableOff.toNat + tableSize.toNat +
          layout.check.toNat < 2 ^ 32)
    {fuel : Nat}
    (hFuel : 2 ^ 32 ≤ fuel) :
    parseTable layout data fuel tableOff tableSize =
      .ok (some (es.takeWhile (named w))) := by
  have hEnd :
      (tableOff + tableSize).toNat =
        (data.take tableOff.toNat).length +
          (tableBytes w es).length := by
    rw [toNat_add_of_le hLaid.fits, hLaid.length_front,
      hLaid.length_table]
  have hSum := toNat_add_of_le hLaid.fits
  have hInside := hLaid.inside
  have hSound : TableSound layout data tableOff tableSize := by
    have hStarts :=
      sound_laid w hReads (data.take tableOff.toNat)
        (data.drop (tableOff.toNat + tableSize.toNat))
        hLaid.nameLen hEnd (BitVec.isLt _)
        (fun hNamed => by have := hRoom hNamed; omega)
    rw [← hLaid.split, hLaid.length_front] at hStarts
    exact hStarts
  have hEntries :=
    entries_laid w (data.take tableOff.toNat)
      (data.drop (tableOff.toNat + tableSize.toNat))
      hLaid.nameLen
  rw [← hLaid.split, ← hEnd, hLaid.length_front] at hEntries
  rw [parseTable_of_sound hReads
    (by unfold TableInside; omega) hSound hFuel, tableEntries,
    hEntries]

end Table

------
-- Round Trip
------

/- Both tables give back what was laid out in them. -/
def TablesRecovered
    (data : List U8)
    (fuel : Nat)
    (dirOff dirSize : U32)
    (dirs : List RomFsDirEntry)
    (fileOff fileSize : U32)
    (files : List RomFsFileEntry) : Prop :=
  parseDirectoryEntries data fuel dirOff dirSize =
      .ok (some dirs) ∧
    parseFileEntries data fuel fileOff fileSize =
      .ok (some files)

instance
    (data : List U8)
    (fuel : Nat)
    (dirOff dirSize : U32)
    (dirs : List RomFsDirEntry)
    (fileOff fileSize : U32)
    (files : List RomFsFileEntry) :
    Decidable
      (TablesRecovered data fuel dirOff dirSize dirs fileOff
        fileSize files) :=
  inferInstanceAs (Decidable (_ ∧ _))

section Tables

variable {data : List U8}
variable {dirOff dirSize fileOff fileSize : U32}
variable {root : RomFsDirEntry} {dirs : List RomFsDirEntry}
variable {files : List RomFsFileEntry} {fuel : Nat}

/- Files are given back, as each of them has a name. -/
theorem files_recovered
    (hFiles : LaidOut fileWrites data fileOff fileSize files)
    (hNames : ∀ e ∈ files, e.name ≠ [])
    (hRoom :
      fileOff.toNat + fileSize.toNat + 20 < 2 ^ 32)
    (hFuel : 2 ^ 32 ≤ fuel) :
    parseFileEntries data fuel fileOff fileSize =
      .ok (some files) := by
  have hNamed :
      files.takeWhile (named fileWrites) = files := by
    rw [List.takeWhile_eq_self_iff]
    intro e hMem
    exact decide_eq_true (hNames e hMem)
  have hParse :=
    parseTable_laidOut fileLayout_reads hFiles
      (fun _ => hRoom) hFuel
  rw [hNamed] at hParse
  exact hParse

/-
  Directories are not: the loop ends at the one at the top,
  and the table comes out empty.
-/
theorem tables_not_recovered
    (hDirs :
      LaidOut dirWrites data dirOff dirSize (root :: dirs))
    (hRoot : root.name = [])
    (hFuel : 2 ^ 32 ≤ fuel) :
    parseDirectoryEntries data fuel dirOff dirSize =
        .ok (some []) ∧
      ¬ TablesRecovered data fuel dirOff dirSize
        (root :: dirs) fileOff fileSize files := by
  have hUnnamed : ¬ named dirWrites root = true := by
    intro hNamed
    exact of_decide_eq_true hNamed hRoot
  have hParse :=
    parseTable_laidOut dirLayout_reads hDirs
      (fun hNamed => absurd (hNamed root List.mem_cons_self)
        hUnnamed) hFuel
  rw [List.takeWhile_cons, if_neg hUnnamed] at hParse
  refine ⟨hParse, ?_⟩
  rintro ⟨hRecovered, _⟩
  rw [show parseDirectoryEntries data fuel dirOff dirSize = _
    from hParse] at hRecovered
  cases hRecovered

end Tables

/- The top of an image, a directory "a" in it, and a file. -/
def topDir : RomFsDirEntry where
  parentOffset := 0
  siblingOffset := 0xFFFFFFFF
  childDirOffset := 20
  childFileOffset := 0
  nameLen := 0
  name := []

def innerDir : RomFsDirEntry where
  parentOffset := 0
  siblingOffset := 0xFFFFFFFF
  childDirOffset := 0xFFFFFFFF
  childFileOffset := 0xFFFFFFFF
  nameLen := 1
  name := [0x61]

def oneFile : RomFsFileEntry where
  parentOffset := 0
  siblingOffset := 0xFFFFFFFF
  dataOffset := 0
  dataSize := 2
  nameLen := 1
  name := [0x62]

def twoTables : List U8 :=
  tableBytes dirWrites [topDir, innerDir] ++
    tableBytes fileWrites [oneFile]

theorem twoTables_dirs :
    LaidOut dirWrites twoTables 0 41 [topDir, innerDir] where
  fits := by decide
  bytes := by decide
  inside := by decide
  nameLen := by decide

theorem twoTables_files :
    LaidOut fileWrites twoTables 41 29 [oneFile] where
  fits := by decide
  bytes := by decide
  inside := by decide
  nameLen := by decide

/- A file with a longer name behind it. -/
def otherFile : RomFsFileEntry where
  parentOffset := 0
  siblingOffset := 0xFFFFFFFF
  dataOffset := 2
  dataSize := 1
  nameLen := 2
  name := [0x63, 0x64]

def twoFiles : List U8 :=
  tableBytes fileWrites [oneFile, otherFile]

theorem twoFiles_laidOut :
    LaidOut fileWrites twoFiles 0 59 [oneFile, otherFile] where
  fits := by decide
  bytes := by decide
  inside := by decide
  nameLen := by decide

theorem files_recovered_two :
    parseFileEntries twoFiles (2 ^ 32) 0 59 =
      .ok (some [oneFile, otherFile]) :=
  files_recovered twoFiles_laidOut (by decide) (by decide)
    (Nat.le_refl _)

theorem twoTables_lost :
    LaidOut dirWrites twoTables 0 41 [topDir, innerDir] ∧
      LaidOut fileWrites twoTables 41 29 [oneFile] ∧
      topDir.name = [] ∧
      parseDirectoryEntries twoTables 4 0 41 =
        .ok (some []) ∧
      ¬ TablesRecovered twoTables 4 0 41 [topDir, innerDir]
        41 29 [oneFile] :=
  ⟨twoTables_dirs, twoTables_files, rfl, by decide, by decide⟩

theorem twoTables_not_recovered :
    parseDirectoryEntries twoTables (2 ^ 32) 0 41 =
        .ok (some []) ∧
      ¬ TablesRecovered twoTables (2 ^ 32) 0 41
        [topDir, innerDir] 41 29 [oneFile] :=
  tables_not_recovered twoTables_dirs rfl (Nat.le_refl _)

end RomFs

end M1Switch
