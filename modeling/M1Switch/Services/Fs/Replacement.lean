import M1Switch.Services.Fs.Paths
import M1Switch.Services.Fs.Reads

/-
  A RomFS that cannot be parsed, where one was loaded before.

  The raw bytes are replaced before the parser is asked, the
  tables are cleared before it can fail, and the mark that a
  RomFS is loaded stays.  So what the service hands out
  afterwards are the bytes of the new span and no file.

  Key definitions include:
    * `FsService.Observed`
    * `FsService.SameResults`

  Main results:
    * `replies_readBack`
    * `findFile_of_failed`
    * `replacement_not_atomic`
-/

namespace M1Switch

namespace FsService

open RomFs (Stop ok_bind ok_of_bind)

------
-- Results that are Compared
------

/- An opening of a file or of the RomFS, or a read. -/
def Observed (call : ServiceCall) : Prop :=
  cmd call.cmdId = .openFile ∨ cmd call.cmdId = .openRomFS ∨
    cmd call.cmdId = .read

/- Commands of these kinds are answered alike. -/
def SameResults
    (resizes : Nat → Bool)
    (fs fs' : FsService) : Prop :=
  ∀ calls, (∀ call ∈ calls, Observed call) →
    replies resizes fs calls = replies resizes fs' calls

------
-- Reading the RomFS Back
------

/- Lists that are not the same differ somewhere first. -/
theorem exists_first_difference
    {xs ys : List U8}
    (hDiffer : xs ≠ ys) :
    ∃ i, i ≤ xs.length ∧ i ≤ ys.length ∧
      (xs.drop i).take 1 ≠ (ys.drop i).take 1 := by
  induction xs generalizing ys with
  | nil =>
      cases ys with
      | nil => exact absurd rfl hDiffer
      | cons y ys =>
          exact ⟨0, Nat.zero_le _, Nat.zero_le _,
            (List.cons_ne_nil _ _).symm⟩
  | cons x xs ih =>
      cases ys with
      | nil =>
          exact ⟨0, Nat.zero_le _, Nat.zero_le _,
            List.cons_ne_nil _ _⟩
      | cons y ys =>
          by_cases hHead : x = y
          · rcases ih (fun hTail =>
                hDiffer (by rw [hHead, hTail])) with
              ⟨i, hX, hY, hTake⟩
            exact ⟨i + 1, Nat.succ_le_succ hX,
              Nat.succ_le_succ hY, hTake⟩
          · refine ⟨0, Nat.zero_le _, Nat.zero_le _, ?_⟩
            intro hTake
            exact hHead (List.cons.inj hTake).1

/- Open the RomFS. -/
def openCall : ServiceCall where
  service := 0
  cmdId := 0x04020002
  rawIn := []
  outMax := 8

/- Read a byte of an open file. -/
def byteCall (fd : U32) (offset : U64) : ServiceCall where
  service := 0
  cmdId := 0x04060002
  rawIn :=
    Bytes.ofWords
      [fd, 0, offset.extractLsb' 0 32,
        offset.extractLsb' 32 32, 1]
  outMax := 9

section ByteCall

variable (fd : U32) (offset : U64)

theorem byteCall_word
    {k : Nat}
    (hK : k < 5) :
    (byteCall fd offset).readU32 (4 * k) =
      [fd, 0, offset.extractLsb' 0 32,
        offset.extractLsb' 32 32, 1].getD k 0 :=
  Bytes.word_ofWords hK

theorem byteCall_offset :
    readOffset (byteCall fd offset) = offset := by
  have hLow := byteCall_word fd offset (k := 2) (by decide)
  have hHigh := byteCall_word fd offset (k := 3) (by decide)
  unfold readOffset
  rw [show (12 : Nat) = 4 * 3 from rfl, hHigh,
    show (8 : Nat) = 4 * 2 from rfl, hLow]
  exact Bytes.append_halves offset

theorem byteCall_size :
    readSize (byteCall fd offset) = 1 := by
  unfold readSize
  rw [show (16 : Nat) = 4 * 4 from rfl,
    byteCall_word fd offset (by decide)]
  rfl

end ByteCall

/- Open the RomFS, and read a byte of what was opened. -/
def readBack (fs : FsService) (offset : U64) :
    List ServiceCall :=
  [openCall, byteCall fs.table.nextFd offset]

theorem readBack_observed
    (fs : FsService)
    (offset : U64) :
    ∀ call ∈ readBack fs offset, Observed call := by
  intro call hMem
  rcases List.mem_cons.1 hMem with rfl | hMem
  · exact Or.inr (Or.inl rfl)
  · rcases List.mem_singleton.1 hMem with rfl
    exact Or.inr (Or.inr rfl)

/- What comes back is the byte of the raw bytes. -/
theorem replies_readBack
    (resizes : Nat → Bool)
    (fs : FsService)
    (hLoaded : fs.romfsLoaded = true)
    (hVector : fs.romfsRawData.length < 2 ^ 63)
    {offset : U64}
    (hInside : offset.toNat ≤ fs.romfsRawData.length) :
    replies resizes fs (readBack fs offset) =
      .ok
        [writeHandle openCall fs.table.nextFd,
          readReply fs.romfsRawData offset 1] := by
  have hOpen :
      handleCommand resizes fs openCall =
        .ok (fs.openData openCall fs.romfsRawData) := by
    change Except.ok (fs.handleOpenRomFS openCall) = _
    unfold handleOpenRomFS
    rw [if_pos hLoaded]
  have hFd :
      (byteCall fs.table.nextFd offset).readU32 0 =
        fs.table.nextFd :=
    byteCall_word fs.table.nextFd offset (k := 0) (by decide)
  set opened := (fs.openData openCall fs.romfsRawData).1
    with hOpened
  have hEntry :
      opened.table.entries
          ((byteCall fs.table.nextFd offset).readU32 0) =
        some { data := fs.romfsRawData } := by
    rw [hFd, hOpened]
    exact if_pos rfl
  have hInput :
      20 ≤ (byteCall fs.table.nextFd offset).rawIn.length := by
    change 20 ≤ (Bytes.ofWords _).length
    rw [Bytes.length_ofWords]
    exact Nat.le_refl 20
  have hRoom :
      8 + readable fs.romfsRawData offset 1 ≤
        (byteCall fs.table.nextFd offset).outMax := by
    unfold readable
    rw [show (1 : U64).toNat = 1 from rfl]
    change _ ≤ 9
    omega
  have hRead :
      handleCommand resizes opened
          (byteCall fs.table.nextFd offset) =
        .ok (opened, readReply fs.romfsRawData offset 1) := by
    change opened.handleRead _ = _
    rw [handleRead_file hInput hEntry rfl,
      byteCall_offset, byteCall_size,
      readData_inside hVector (by decide) hInside,
      if_pos hRoom]
    rfl
  unfold readBack
  rw [replies, hOpen, ok_bind]
  change (do
    let rest ← replies resizes opened
      [byteCall fs.table.nextFd offset]
    return writeHandle openCall fs.table.nextFd :: rest) = _
  rw [replies, hRead]
  rfl

/- From a byte read back, the byte that was there is known. -/
theorem take_of_readReply
    {xs ys : List U8}
    {offset : U64}
    (hX : offset.toNat ≤ xs.length)
    (hY : offset.toNat ≤ ys.length)
    (hReply : readReply xs offset 1 = readReply ys offset 1) :
    (xs.drop offset.toNat).take 1 =
      (ys.drop offset.toNat).take 1 := by
  have hTake :
      ∀ zs : List U8, offset.toNat ≤ zs.length →
        (zs.drop offset.toNat).take (readable zs offset 1) =
          (zs.drop offset.toNat).take 1 := by
    intro zs hZ
    have hMin :
        readable zs offset 1 =
          min 1 (zs.drop offset.toNat).length := by
      unfold readable
      rw [List.length_drop, show (1 : U64).toNat = 1 from rfl]
      omega
    rw [hMin, ← List.take_take, List.take_length]
  have hWritten := congrArg ServiceReply.written hReply
  have hBytes := (List.append_inj hWritten rfl).2
  rw [hTake xs hX, hTake ys hY] at hBytes
  exact hBytes

------
-- A Replacement that Fails
------

section Failed

variable {fs : FsService} {old romfs' : RomFs}
variable {data : List U8} {fuel : Nat}

theorem setRomFS_of_parse
    {parsed : Bool}
    (hParse : fs.romfs.parse data fuel = .ok (parsed, romfs')) :
    fs.setRomFS data fuel =
      .ok
        { fs with
          romfs := romfs'
          romfsLoaded := parsed || fs.romfsLoaded
          romfsRawData := data } := by
  unfold setRomFS
  rw [hParse]
  rfl

/- No file is left to be opened. -/
theorem findFile_of_failed
    (resizes : Nat → Bool)
    (hParse : fs.romfs.parse data fuel = .ok (false, romfs'))
    {fs' : FsService}
    (hSet : fs.setRomFS data fuel = .ok fs')
    (norm bytes : List U8) :
    findFile resizes fs' norm ≠ .ok (some bytes) := by
  rw [setRomFS_of_parse hParse] at hSet
  cases hSet
  have hTable := (RomFs.fileTable_of_parse hParse).2 rfl
  have hFirst : RomFs.firstFile romfs' norm = .ok none := by
    unfold RomFs.firstFile
    rw [hTable]
    rfl
  intro hFound
  unfold findFile at hFound
  split at hFound
  · cases hFound
  · rcases ok_of_bind hFound with ⟨found, _, hFound⟩
    split at hFound
    · change RomFs.readFile resizes romfs' norm = _ at hFound
      rw [RomFs.readFile, hFirst] at hFound
      cases hFound
    · cases hFound

/- What failed is not what was parsed before. -/
theorem raw_ne_of_failed
    (hOld :
      RomFs.parse old fs.romfsRawData fuel =
        .ok (true, fs.romfs))
    (hParse : fs.romfs.parse data fuel = .ok (false, romfs')) :
    fs.romfsRawData ≠ data := by
  intro hSame
  have hCongr := RomFs.parsed_congr old fs.romfs data fuel
  rw [← hSame, hOld, hSame, hParse] at hCongr
  cases hCongr

/-
  After a replacement that failed some byte of the RomFS is
  read back as another one, or is no longer there.
-/
theorem replacement_not_atomic
    (resizes : Nat → Bool)
    (hLoaded : fs.romfsLoaded = true)
    (hOld :
      RomFs.parse old fs.romfsRawData fuel =
        .ok (true, fs.romfs))
    (hParse : fs.romfs.parse data fuel = .ok (false, romfs'))
    (hVector : fs.romfsRawData.length < 2 ^ 63)
    (hSpan : data.length < 2 ^ 63) :
    ∃ fs', fs.setRomFS data fuel = .ok fs' ∧
      ¬ SameResults resizes fs fs' := by
  refine ⟨_, setRomFS_of_parse hParse, ?_⟩
  intro hSame
  rcases exists_first_difference
      (raw_ne_of_failed hOld hParse) with
    ⟨i, hRaw, hData, hTake⟩
  set fs' : FsService :=
    { fs with
      romfs := romfs'
      romfsLoaded := false || fs.romfsLoaded
      romfsRawData := data } with hNew
  have hOffset : (BitVec.ofNat 64 i).toNat = i := by
    rw [BitVec.toNat_ofNat, Nat.mod_eq_of_lt (by omega)]
  rw [← hOffset] at hRaw hData hTake
  have hBefore :=
    replies_readBack resizes fs hLoaded hVector hRaw
  have hAfter :
      replies resizes fs'
          (readBack fs (BitVec.ofNat 64 i)) = _ :=
    replies_readBack resizes fs' hLoaded hSpan hData
  have hReplies :=
    hSame _ (readBack_observed fs (BitVec.ofNat 64 i))
  rw [hBefore, hAfter] at hReplies
  have hLists := (List.cons.inj (Except.ok.inj hReplies)).2
  exact hTake
    (take_of_readReply hRaw hData (List.cons.inj hLists).1)

end Failed

/- The sample once an empty span was to take its place. -/
def emptied : FsService where
  table := sampleService.table
  romfs := { sampleService.romfs with
    dirTable := []
    fileTable := []
    romfsData := [] }
  romfsLoaded := true
  romfsRawData := []

/- The file "b" in the directory "a" had two bytes. -/
theorem findFile_of_failed_sample :
    findFile (fun _ => true) sampleService [0x61, 0x2F, 0x62] =
        .ok (some [1, 2]) ∧
      findFile (fun _ => true) emptied [0x61, 0x2F, 0x62] ≠
        .ok (some [1, 2]) :=
  ⟨by decide,
    findFile_of_failed (fun _ => true)
      (show sampleService.romfs.parse [] 4 =
        .ok (false, emptied.romfs) from rfl)
      rfl _ _⟩

/- Open the file "b" in the directory "a". -/
def openSample : ServiceCall where
  service := 0
  cmdId := 0x08020000
  rawIn := Bytes.ofWord 3 ++ [0x61, 0x2F, 0x62]
  outMax := 8

/- The file that was there is no longer opened. -/
theorem emptied_differs :
    sampleService.setRomFS [] 4 = .ok emptied ∧
      replies (fun _ => true) sampleService [openSample] =
        .ok [writeHandle openSample 0x1000] ∧
      replies (fun _ => true) emptied [openSample] =
        .ok [{}] ∧
      ¬ SameResults (fun _ => true) sampleService emptied := by
  refine ⟨rfl, by decide, by decide, ?_⟩
  intro hSame
  have hOpen := hSame [openSample] (by
    intro call hMem
    rcases List.mem_singleton.1 hMem with rfl
    exact Or.inl rfl)
  exact absurd hOpen (by decide)

theorem sample_not_atomic :
    ∃ fs', sampleService.setRomFS [] 4 = .ok fs' ∧
      ¬ SameResults (fun _ => true) sampleService fs' :=
  replacement_not_atomic (fun _ => true) (by decide)
    (show RomFs.parse {} sampleService.romfsRawData 4 =
      .ok (true, sampleService.romfs) by decide)
    (RomFs.parse_of_short sampleService.romfs (by decide) 4)
    (by decide) (by decide)

end FsService

end M1Switch
