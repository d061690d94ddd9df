import M1Switch.Library.RecordBytes
import M1Switch.Services.Fs

/-
  What a read puts out.

  The end of a read is a sum of 64-bit words, and what is left
  of the file a difference of such words.  From an offset
  inside the file, or at its end, both are what they should
  be.  From an offset past the end the difference wraps
  around, and the copy leaves the file if the room that is
  compared with it wraps around as well.

  Key definitions include:
    * `readable`
    * `FsService.ReadExact`

  Main results:
    * `readData_inside`
    * `readData_past`
    * `readExact_iff`
-/

namespace M1Switch

namespace FsService

open RomFs (Stop ok_bind error_bind)

------
-- Reads by Plain Arithmetic
------

/- How many bytes there are to read. -/
def readable
    (data : List U8)
    (offset size : U64) : Nat :=
  min (offset.toNat + size.toNat) data.length - offset.toNat

/- The bytes that are read, behind their number. -/
def readReply
    (data : List U8)
    (offset size : U64) : ServiceReply :=
  let n := readable data offset size
  { written :=
      Bytes.ofLong (BitVec.ofNat 64 n) ++
        (data.drop offset.toNat).take n
    outSize := 8 + n }

/- The offset and the size a read asks for. -/
def readOffset (call : ServiceCall) : U64 :=
  call.readU32 12 ++ call.readU32 8

def readSize (call : ServiceCall) : U64 :=
  (call.readU32 16).setWidth 64

/-
  A read stays inside the file, and puts out what there is to
  read wherever there is room for it.
-/
def ReadExact
    (fs : FsService)
    (call : ServiceCall)
    (data : List U8) : Prop :=
  ∃ reply,
    fs.handleRead call = .ok (fs, reply) ∧
      (8 + readable data (readOffset call) (readSize call) ≤
          call.outMax →
        reply =
          readReply data (readOffset call) (readSize call))

/-
  The offset is not past the end of the file, or it is, and
  there is no room for a number and none for the room that is
  compared.
-/
def ReadGuarded
    (data : List U8)
    (offset : U64)
    (outMax : Nat) : Prop :=
  offset.toNat ≤ data.length ∨
    outMax < 8 ∧
      (data.length + 8 < offset.toNat ∨
        offset.toNat + outMax < data.length + 8)

------
-- Offsets inside the File
------

section Read

variable {data : List U8} {offset size : U64}
variable {call : ServiceCall}

theorem toNat_size64 (hVector : data.length < 2 ^ 63) :
    (size64 data).toNat = data.length := by
  unfold size64
  rw [BitVec.toNat_ofNat, Nat.mod_eq_of_lt (by omega)]

/- A size is a 32-bit number. -/
theorem readSize_lt (call : ServiceCall) :
    (readSize call).toNat < 2 ^ 32 := by
  have hSize := (call.readU32 16).isLt
  unfold readSize
  rw [BitVec.toNat_setWidth_of_le (by decide)]
  exact hSize

theorem readable_le
    (data : List U8)
    (offset size : U64) :
    readable data offset size ≤ data.length := by
  unfold readable
  omega

theorem readCount_inside
    (hVector : data.length < 2 ^ 63)
    (hSize : size.toNat < 2 ^ 32)
    (hInside : offset.toNat ≤ data.length) :
    (readCount data offset size).toNat =
      readable data offset size := by
  have hLength := toNat_size64 hVector
  have hSum :
      (offset + size).toNat = offset.toNat + size.toNat := by
    rw [BitVec.toNat_add, Nat.mod_eq_of_lt (by omega)]
  have hMore :
      size64 data < offset + size ↔
        data.length < offset.toNat + size.toNat := by
    rw [BitVec.lt_def, hSum, hLength]
  unfold readCount readable
  by_cases hPast : size64 data < offset + size
  · have hEnd := hMore.1 hPast
    rw [if_pos hPast, BitVec.toNat_sub_of_le
      (by rw [BitVec.le_def, hLength]; exact hInside),
      hLength, Nat.min_eq_right (Nat.le_of_lt hEnd)]
  · have hEnd := mt hMore.2 hPast
    rw [if_neg hPast, Nat.min_eq_left (by omega)]
    omega

/- From inside the file a read is exact. -/
theorem readData_inside
    (hVector : data.length < 2 ^ 63)
    (hSize : size.toNat < 2 ^ 32)
    (hInside : offset.toNat ≤ data.length) :
    readData call data offset size =
      .ok
        (if 8 + readable data offset size ≤ call.outMax then
          readReply data offset size
        else { outSize := call.outMax }) := by
  have hCount := readCount_inside hVector hSize hInside
  have hLe := readable_le data offset size
  have hWord :
      readCount data offset size =
        BitVec.ofNat 64 (readable data offset size) := by
    rw [← hCount, BitVec.ofNat_toNat, BitVec.setWidth_eq]
  have hRoom :
      (8 + readCount data offset size).toNat =
        8 + readable data offset size := by
    rw [BitVec.toNat_add, hCount, Nat.mod_eq_of_lt]
    · rfl
    · change 8 + _ < _
      omega
  have hCopy :
      copyOut data offset (readCount data offset size) =
        .ok ((data.drop offset.toNat).take
          (readable data offset size)) := by
    unfold copyOut
    by_cases hPos : 0 < readCount data offset size
    · rw [if_pos hPos, hCount, RomFs.copy_of_inside]
      rw [BitVec.lt_def, hCount] at hPos
      unfold readable at hPos ⊢
      change 0 < _ at hPos
      omega
    · rw [BitVec.lt_def, hCount] at hPos
      change ¬ 0 < _ at hPos
      rw [if_neg (by rw [BitVec.lt_def, hCount]; exact hPos),
        Nat.eq_zero_of_not_pos hPos, List.take_zero]
  unfold readData
  simp only [hRoom]
  by_cases hFits :
      8 + readable data offset size ≤ call.outMax
  · rw [if_pos hFits, if_pos hFits, hCopy, ok_bind, hWord]
    rfl
  · rw [if_neg hFits, if_neg hFits]

------
-- Offsets past the End
------

/- Past the end the number of bytes is never right. -/
theorem readCount_past
    (size : U64)
    (hVector : data.length < 2 ^ 63)
    (hPast : data.length < offset.toNat) :
    0 < (readCount data offset size).toNat ∧
      ((readCount data offset size).toNat + offset.toNat =
          2 ^ 64 + data.length ∨
        2 ^ 64 ≤ offset.toNat + size.toNat ∧
          (readCount data offset size).toNat =
            size.toNat) := by
  have hLength := toNat_size64 hVector
  have hOffset := offset.isLt
  have hSize := size.isLt
  have hMore :
      size64 data < offset + size ↔
        data.length <
          (offset.toNat + size.toNat) % 2 ^ 64 := by
    rw [BitVec.lt_def, BitVec.toNat_add, hLength]
  unfold readCount
  by_cases hSum : size64 data < offset + size
  · have hLeft := BitVec.toNat_sub (size64 data) offset
    rw [hLength] at hLeft
    rw [if_pos hSum]
    omega
  · have hEnd := mt hMore.2 hSum
    rw [if_neg hSum]
    omega

/- It leaves the file, if there seems to be room for it. -/
theorem readData_past
    (hVector : data.length < 2 ^ 63)
    (hPast : data.length < offset.toNat) :
    readData call data offset size =
      if (8 + readCount data offset size).toNat ≤ call.outMax
      then .error .outside
      else .ok { outSize := call.outMax } := by
  have hCount :=
    readCount_past size hVector hPast
  have hPos : 0 < readCount data offset size := by
    rw [BitVec.lt_def]
    exact hCount.1
  have hCopy :
      copyOut data offset (readCount data offset size) =
        .error .outside := by
    unfold copyOut RomFs.copy
    rw [if_pos hPos, if_neg (by omega)]
  unfold readData
  simp only [hCopy, error_bind]

/- When there seems to be none, with less than a number's. -/
theorem room_past_iff
    (hVector : data.length < 2 ^ 63)
    (hSize : size.toNat < 2 ^ 32)
    (hPast : data.length < offset.toNat)
    {outMax : Nat}
    (hSmall : outMax < 8) :
    outMax < (8 + readCount data offset size).toNat ↔
      data.length + 8 < offset.toNat ∨
        offset.toNat + outMax < data.length + 8 := by
  have hCount :=
    readCount_past size hVector hPast
  have hOffset := offset.isLt
  rw [BitVec.toNat_add, show (8 : U64).toNat = 8 from rfl]
  omega

------
-- Reads of an Open File
------

variable {fs : FsService} {e : FileTable.Entry}

/- A read of an open file is a read of its bytes. -/
theorem handleRead_file
    (hInput : 20 ≤ call.rawIn.length)
    (hEntry : fs.table.entries (call.readU32 0) = some e)
    (hFile : e.dir = false) :
    fs.handleRead call = (do
      let reply ←
        readData call e.data (readOffset call) (readSize call)
      return (fs, reply)) := by
  unfold handleRead
  rw [if_neg (by omega)]
  simp only [hEntry, hFile]
  rfl

theorem readExact_inside
    (hInput : 20 ≤ call.rawIn.length)
    (hEntry : fs.table.entries (call.readU32 0) = some e)
    (hFile : e.dir = false)
    (hVector : e.data.length < 2 ^ 63)
    (hInside : (readOffset call).toNat ≤ e.data.length) :
    ReadExact fs call e.data := by
  have hRead :
      fs.handleRead call = _ :=
    (handleRead_file hInput hEntry hFile).trans
      (by rw [readData_inside hVector (readSize_lt call)
        hInside, ok_bind])
  exact ⟨_, hRead, fun hRoom => if_pos hRoom⟩

theorem readExact_past
    (hInput : 20 ≤ call.rawIn.length)
    (hEntry : fs.table.entries (call.readU32 0) = some e)
    (hFile : e.dir = false)
    (hVector : e.data.length < 2 ^ 63)
    (hPast : e.data.length < (readOffset call).toNat) :
    ReadExact fs call e.data ↔
      call.outMax < 8 ∧
        call.outMax <
          (8 + readCount e.data (readOffset call)
            (readSize call)).toNat := by
  have hEmpty :
      readable e.data (readOffset call) (readSize call) =
        0 := by
    unfold readable
    omega
  unfold ReadExact
  rw [handleRead_file hInput hEntry hFile,
    readData_past hVector hPast, hEmpty]
  by_cases hRoom :
      (8 + readCount e.data (readOffset call)
        (readSize call)).toNat ≤ call.outMax
  · rw [if_pos hRoom, error_bind]
    constructor
    · rintro ⟨reply, hOk, _⟩
      cases hOk
    · intro hNone
      omega
  · rw [if_neg hRoom, ok_bind]
    constructor
    · rintro ⟨reply, hOk, hReply⟩
      cases hOk
      refine ⟨?_, by omega⟩
      by_contra hNumber
      have hWritten :=
        congrArg ServiceReply.written (hReply (by omega))
      cases hWritten
    · rintro ⟨hSmall, _⟩
      exact ⟨_, rfl, fun hFits => by omega⟩

/- Exactly then a read of an open file is as it should be. -/
theorem readExact_iff
    (hInput : 20 ≤ call.rawIn.length)
    (hEntry : fs.table.entries (call.readU32 0) = some e)
    (hFile : e.dir = false)
    (hVector : e.data.length < 2 ^ 63) :
    ReadExact fs call e.data ↔
      ReadGuarded e.data (readOffset call) call.outMax := by
  unfold ReadGuarded
  by_cases hInside :
      (readOffset call).toNat ≤ e.data.length
  · constructor
    · intro _
      exact Or.inl hInside
    · intro _
      exact readExact_inside hInput hEntry hFile hVector
        hInside
  · rw [readExact_past hInput hEntry hFile hVector (by omega)]
    constructor
    · rintro ⟨hSmall, hRoom⟩
      rw [room_past_iff hVector (readSize_lt call) (by omega)
        hSmall] at hRoom
      exact Or.inr ⟨hSmall, hRoom⟩
    · rintro (hIn | ⟨hSmall, hRoom⟩)
      · exact absurd hIn hInside
      · refine ⟨hSmall, ?_⟩
        rw [room_past_iff hVector (readSize_lt call) (by omega)
          hSmall]
        exact hRoom

end Read

/- A file of four bytes, and a read one byte past its end. -/
def fourBytes : FsService where
  table := (FileTable.open_ {} [10, 20, 30, 40]).2

def readPast : ServiceCall where
  service := 0
  cmdId := 0x04060002
  rawIn := Bytes.ofWords [0x1000, 0, 5, 0, 1]
  outMax := 16

/- Nothing is there to read, and the copy leaves the file. -/
theorem readPast_outside :
    readable [10, 20, 30, 40] (readOffset readPast)
        (readSize readPast) = 0 ∧
      fourBytes.handleRead readPast = .error .outside ∧
      ¬ ReadExact fourBytes readPast [10, 20, 30, 40] := by
  have hOutside :
      fourBytes.handleRead readPast = .error .outside :=
    rfl
  refine ⟨by decide, hOutside, ?_⟩
  rintro ⟨reply, hOk, _⟩
  rw [hOutside] at hOk
  cases hOk

theorem readPast_not_exact :
    ReadExact fourBytes readPast [10, 20, 30, 40] ↔
      ReadGuarded [10, 20, 30, 40] (readOffset readPast) 16 :=
  readExact_iff (e := { data := [10, 20, 30, 40] }) (by decide)
    rfl rfl (by decide)

end FsService

end M1Switch
