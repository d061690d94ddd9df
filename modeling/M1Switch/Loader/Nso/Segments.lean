import M1Switch.Library.Lz4Block
import M1Switch.Loader.Nso

/-
  What the NSO loader leaves of a segment.

  Unpacking and patching keep to the bytes of the segment; its
  mapping zeroes the host pages the segment touches, whoever's
  bytes were in them.

  Key definitions include:
    * `HostMemory.Confined`
    * `loadedBytes`

  Main results:
    * `confined_decompressLz4`
    * `byteAt_loadSegment_outside`
    * `byteAt_loadSegment_inside`
-/

------
-- Changes in a Range
------

namespace M1Switch

namespace HostMemory

/- Memory differs in a range only; the same of it is mapped. -/
structure Confined
    (start count : Nat)
    (mem mem' : HostMemory) : Prop where
  outside :
    ∀ i, ¬ (start ≤ i ∧ i < start + count) →
      mem'.bytes i = mem.bytes i
  isSome : ∀ i, (mem'.bytes i).isSome = (mem.bytes i).isSome

variable {start count : Nat} {mem mem' mem'' : HostMemory}

theorem Confined.refl : Confined start count mem mem :=
  ⟨fun _ _ => rfl, fun _ => rfl⟩

theorem Confined.trans
    (hFirst : Confined start count mem mem')
    (hSecond : Confined start count mem' mem'') :
    Confined start count mem mem'' where
  outside i hOut :=
    (hSecond.outside i hOut).trans (hFirst.outside i hOut)
  isSome i := (hSecond.isSome i).trans (hFirst.isSome i)

theorem bytes_fillRange
    {source : Bytes}
    (hFill : mem.fillRange start count source = some mem')
    (i : Nat) :
    mem'.bytes i =
      if start ≤ i ∧ i < start + count then
        some (source (i - start))
      else mem.bytes i := by
  unfold fillRange at hFill
  split at hFill
  · cases hFill
    rfl
  · cases hFill

theorem mapped_of_fillRange
    {source : Bytes}
    (hFill : mem.fillRange start count source = some mem') :
    mem.Mapped start count := by
  unfold fillRange at hFill
  split at hFill
  · next hMapped => exact hMapped
  · cases hFill

theorem confined_fillRange
    {source : Bytes}
    {start' count' : Nat}
    (hFill : mem.fillRange start' count' source = some mem')
    (hLow : start ≤ start')
    (hHigh : start' + count' ≤ start + count) :
    Confined start count mem mem' where
  outside i hOut := by
    rw [bytes_fillRange hFill, if_neg (by omega)]
  isSome i := by
    rw [bytes_fillRange hFill]
    split
    · next hIn =>
        have hMapped :=
          mapped_of_fillRange hFill (i - start') (by omega)
        have hPos : start' + (i - start') = i := by omega
        rw [hPos] at hMapped
        exact hMapped.symm
    · rfl

end HostMemory

------
-- Unpacking
------

namespace NsoLoader

open HostMemory (Confined)

variable {input data : Bytes} {inSize dst dstSize : Nat}
variable {mem mem' : HostMemory}

/- A match is put out in the segment, byte by byte. -/
theorem confined_copyMatch
    {offset n outPos outPos' : Nat}
    (hOut : outPos ≤ dstSize)
    (hCopy :
      copyMatch dst dstSize offset n mem outPos =
        some (mem', outPos')) :
    Confined dst dstSize mem mem' ∧ outPos' ≤ dstSize := by
  induction n generalizing mem outPos with
  | zero =>
      cases hCopy
      exact ⟨Confined.refl, hOut⟩
  | succ n ih =>
      unfold copyMatch at hCopy
      split at hCopy
      · next hRoom =>
          rcases Option.bind_eq_some_iff.1 hCopy with
            ⟨b, -, hCopy⟩
          rcases Option.bind_eq_some_iff.1 hCopy with
            ⟨mem₁, hFill, hCopy⟩
          rcases ih hRoom hCopy with ⟨hRest, hEnd⟩
          have hFirst : Confined dst dstSize mem mem₁ :=
            HostMemory.confined_fillRange hFill (by omega)
              (by omega)
          exact ⟨hFirst.trans hRest, hEnd⟩
      · cases hCopy
        exact ⟨Confined.refl, hOut⟩

theorem confined_sequence
    {run run' : Lz4Run}
    {more : Bool}
    (hOut : run.outPos ≤ dstSize)
    (hStep :
      sequence input inSize dst dstSize run =
        some (more, run')) :
    Confined dst dstSize run.mem run'.mem ∧
      run'.outPos ≤ dstSize := by
  unfold sequence at hStep
  dsimp only at hStep
  split at hStep
  · cases hStep
    exact ⟨Confined.refl, hOut⟩
  · rcases Option.bind_eq_some_iff.1 hStep with
      ⟨mem₁, hFill, hStep⟩
    have hLiterals : Confined dst dstSize run.mem mem₁ :=
      HostMemory.confined_fillRange hFill (by omega) (by omega)
    split at hStep
    · cases hStep
      exact ⟨hLiterals, by dsimp only; omega⟩
    · split at hStep
      · cases hStep
        exact ⟨hLiterals, by dsimp only; omega⟩
      · rcases Option.bind_eq_some_iff.1 hStep with
          ⟨copied, hCopy, hStep⟩
        cases hStep
        rcases confined_copyMatch (by omega) hCopy with
          ⟨hMatch, hEnd⟩
        exact ⟨hLiterals.trans hMatch, hEnd⟩

theorem confined_sequences
    {n : Nat}
    {run run' : Lz4Run}
    (hOut : run.outPos ≤ dstSize)
    (hRun :
      sequences input inSize dst dstSize n run = some run') :
    Confined dst dstSize run.mem run'.mem ∧
      run'.outPos ≤ dstSize := by
  induction n generalizing run with
  | zero =>
      cases hRun
      exact ⟨Confined.refl, hOut⟩
  | succ n ih =>
      unfold sequences at hRun
      split at hRun
      · rcases Option.bind_eq_some_iff.1 hRun with
          ⟨⟨more, next⟩, hStep, hRun⟩
        rcases confined_sequence hOut hStep with ⟨hFirst, hNext⟩
        dsimp only at hRun
        split at hRun
        · rcases ih hNext hRun with ⟨hRest, hEnd⟩
          exact ⟨hFirst.trans hRest, hEnd⟩
        · cases hRun
          exact ⟨hFirst, hNext⟩
      · cases hRun
        exact ⟨Confined.refl, hOut⟩

/- Whatever the data is, only the segment is written to. -/
theorem confined_decompressLz4
    {srcSize written : Nat}
    (hUnpack :
      decompressLz4 data srcSize mem dst dstSize =
        some (mem', written)) :
    Confined dst dstSize mem mem' ∧ written ≤ dstSize := by
  unfold decompressLz4 at hUnpack
  split at hUnpack
  · rcases Option.bind_eq_some_iff.1 hUnpack with
      ⟨mem₁, hFill, hUnpack⟩
    cases hUnpack
    exact
      ⟨HostMemory.confined_fillRange hFill (by omega) (by omega),
        by omega⟩
  · rcases Option.bind_eq_some_iff.1 hUnpack with
      ⟨run, hRun, hUnpack⟩
    cases hUnpack
    exact confined_sequences (Nat.zero_le _) hRun

/- Data without the magic is copied. -/
theorem bytes_decompressLz4
    {srcSize written : Nat}
    (hPlain : isLZ4Compressed data srcSize = false)
    (hFits : srcSize ≤ dstSize)
    (hUnpack :
      decompressLz4 data srcSize mem dst dstSize =
        some (mem', written)) :
    written = srcSize ∧
      ∀ i, mem'.bytes i =
        if dst ≤ i ∧ i < dst + srcSize then some (data (i - dst))
        else mem.bytes i := by
  have hCopy : min srcSize dstSize = srcSize :=
    Nat.min_eq_left hFits
  unfold decompressLz4 at hUnpack
  rw [hPlain, if_pos Bool.false_ne_true, hCopy] at hUnpack
  rcases Option.bind_eq_some_iff.1 hUnpack with
    ⟨mem₁, hFill, hUnpack⟩
  cases hUnpack
  exact ⟨rfl, HostMemory.bytes_fillRange hFill⟩

------
-- Patching
------

/- What becomes of a byte of code. -/
def patchedByte
    (fixed : Bool × NativeExec)
    (code : Bytes) : Bytes :=
  fun k =>
    WordBytes.byte
      (NativeExec.patchedWord fixed.1 fixed.2.fixedTlsAddr
        (code.word (k / 4 * 4)))
      (k % 4)

theorem patchedByte_congr
    {fixed : Bool × NativeExec}
    {code code' : Bytes}
    {k n : Nat}
    (hSame : ∀ i < n, code i = code' i)
    (hK : k / 4 * 4 + 4 ≤ n) :
    patchedByte fixed code k = patchedByte fixed code' k := by
  have hWord : code.word (k / 4 * 4) = code'.word (k / 4 * 4) :=
    Bytes.word_congr fun j hJ => hSame _ (by omega)
  unfold patchedByte
  rw [hWord]

section

variable {mmap : U64 → Bool} {run : NsoRun}

/- A byte of the code, once its words have been patched. -/
theorem mem_patchFirst
    {hasFixedTls : Bool}
    {code : U64}
    {p : NativeExec.PatchRun}
    {start n i : Nat}
    (hFrom : start ≤ i)
    (hUntil : i < start + 4 * n) :
    (NativeExec.patchFirst hasFixedTls start code p n).mem i =
      patchedByte (hasFixedTls, p.exec)
        (fun j => p.mem (start + j)) (i - start) := by
  have hPos :
      i = start + 4 * ((i - start) / 4) + (i - start) % 4 := by
    omega
  have hReached : (i - start) / 4 < n := by omega
  have hByte :=
    Bytes.byte_word_at
      (NativeExec.patchFirst hasFixedTls start code p n).mem
      (start + 4 * ((i - start) / 4))
      (Nat.mod_lt (i - start) (by decide : 4 > 0))
  have hWord :
      Bytes.word (fun j => p.mem (start + j))
          ((i - start) / 4 * 4) =
        p.mem.word (start + 4 * ((i - start) / 4)) := by
    apply Bytes.word_congr
    intro j _
    rw [Nat.mul_comm, Nat.add_assoc]
  rw [← hPos, NativeExec.word_patchFirst, if_pos hReached]
    at hByte
  unfold patchedByte
  rw [hWord, hByte]

theorem contents_of_bytes
    {i : Nat}
    {b : U8}
    (hByte : mem.bytes i = some b) :
    mem.contents i = b := by
  unfold HostMemory.contents
  rw [hByte]
  rfl

/- Code is patched word by word, if it is made of words. -/
theorem bytes_patchText
    {dst : U64}
    (hDst : dst ≠ 0)
    (size : U32)
    (i : Nat) :
    (patchText mmap dst size run).mem.bytes i =
      (run.mem.bytes i).map fun b =>
        if size.toNat % 4 = 0 ∧ dst.toNat ≤ i ∧
            i < dst.toNat + size.toNat then
          patchedByte (NativeExec.ensureFixedTls mmap run.exec)
            (fun j => run.mem.contents (dst.toNat + j))
            (i - dst.toNat)
        else b := by
  have hSize : (size.setWidth 64 : U64).toNat = size.toNat := by
    have hLt := size.isLt
    rw [BitVec.toNat_setWidth]
    omega
  have hFour : (4 : U64).toNat = 4 := rfl
  unfold patchText HostMemory.withContents
  dsimp only
  cases hByte : run.mem.bytes i with
  | none => rfl
  | some b =>
      have hBefore := contents_of_bytes hByte
      rw [Option.map_some, Option.map_some]
      congr 1
      unfold NativeExec.patchSVCs
      split
      · next hBad =>
          have hNot :
              ¬ (size.toNat % 4 = 0 ∧ dst.toNat ≤ i ∧
                i < dst.toNat + size.toNat) := by
            rintro ⟨hWords, hFrom, hUntil⟩
            rcases hBad with hZero | hSmall | hRest
            · exact hDst hZero
            · rw [BitVec.lt_def, hSize, hFour] at hSmall
              omega
            · apply hRest
              apply BitVec.eq_of_toNat_eq
              rw [BitVec.toNat_umod, hSize, hFour]
              exact hWords
          rw [if_neg hNot]
          exact hBefore
      · next hGood =>
          have hWords : size.toNat % 4 = 0 := by
            have hRest :=
              not_not.1 fun hRest => hGood (Or.inr (Or.inr hRest))
            have hNat := congrArg BitVec.toNat hRest
            rw [BitVec.toNat_umod, hSize, hFour] at hNat
            exact hNat
          dsimp only
          rw [hSize]
          split
          · next hIn =>
              exact mem_patchFirst hIn.2.1 (by omega)
          · next hOut =>
              rw [NativeExec.mem_patchFirst_outside _ (by omega)]
              exact hBefore

/- Patching keeps to the code. -/
theorem confined_patchText
    {dst : U64}
    {count : Nat}
    (hDst : dst ≠ 0)
    {size : U32}
    (hSize : size.toNat ≤ count) :
    HostMemory.Confined dst.toNat count run.mem
      (patchText mmap dst size run).mem where
  outside i hOut := by
    rw [bytes_patchText hDst]
    have hNot :
        ¬ (size.toNat % 4 = 0 ∧ dst.toNat ≤ i ∧
          i < dst.toNat + size.toNat) := by
      omega
    cases run.mem.bytes i with
    | none => rfl
    | some b => rw [Option.map_some, if_neg hNot]
  isSome i := by
    rw [bytes_patchText hDst, Option.isSome_map]

------
-- Segments in Guest Memory
------

variable {hostMaps : U64 → U64 → Bool} {buf : NsoBuffer}
variable {base a : U64} {isText : Bool} {seg : SegDesc}
variable {run' : NsoRun}

open HostMemory
  (Requested Touches Copied Reaches ADDR_SPACE_SIZE baseAddr)

/- The segment is mapped. -/
def SegDesc.Used (buf : NsoBuffer) (seg : SegDesc) : Prop :=
  seg.decompSize ≠ 0 ∧ seg.fileOff < buf.size

instance (buf : NsoBuffer) (seg : SegDesc) :
    Decidable (SegDesc.Used buf seg) :=
  inferInstanceAs (Decidable (_ ∧ _))

/- The address is one of the segment. -/
def SegDesc.Covers (base : U64) (seg : SegDesc) (a : U64) : Prop :=
  Requested (base + seg.memOff) seg.decompSize a

/- The address is in a host page that the segment touches. -/
def SegDesc.Touches (base : U64) (seg : SegDesc) (a : U64) : Prop :=
  HostMemory.Touches (base + seg.memOff) (mapSize seg) a

instance (base : U64) (seg : SegDesc) (a : U64) :
    Decidable (SegDesc.Touches base seg a) :=
  inferInstanceAs (Decidable (HostMemory.Touches _ _ _))

/- A pointer to guest memory is one to the address. -/
theorem pointer_eq_some
    {address dst : U64}
    (hPointer : HostMemory.pointer address = some dst) :
    address.toNat < 2 ^ 32 ∧ dst = baseAddr + address ∧
      dst ≠ 0 := by
  unfold HostMemory.pointer at hPointer
  split at hPointer
  · next hLt =>
      have hSpace : ADDR_SPACE_SIZE.toNat = 2 ^ 32 := by decide
      have hBase : baseAddr.toNat = 0x300000000 := by decide
      rw [BitVec.lt_def, hSpace] at hLt
      cases hPointer
      refine ⟨hLt, rfl, fun hZero => ?_⟩
      have hNat := congrArg BitVec.toNat hZero
      rw [BitVec.toNat_add, hBase] at hNat
      change (0x300000000 + address.toNat) % 2 ^ 64 = 0 at hNat
      omega
  · cases hPointer

/- What lies in the bytes of a segment is addressed by it. -/
theorem requested_of_copied
    {address size : U64}
    (hCopied : Copied address size a) :
    Requested address size a := by
  rcases hCopied with ⟨hFrom, hUntil⟩
  have hDiff :
      a - address = (baseAddr + a) - (baseAddr + address) := by
    bv_omega
  unfold Requested
  rw [hDiff, BitVec.lt_def, BitVec.toNat_sub]
  generalize (baseAddr + a) = x at *
  generalize (baseAddr + address) = y at *
  omega

/- A mapping that succeeds leaves zeros in its host pages. -/
theorem byteAt_mapped
    {address size : U64}
    {hostMaps : Bool}
    (hSuccess :
      (mem.mapPhysical address size .RW none hostMaps).1 =
        .Success) :
    Reaches address size ∧
      ∀ a,
        (mem.mapPhysical address size .RW none
            hostMaps).2.byteAt a =
          if Touches address size a then some 0
          else mem.byteAt a := by
  have hReaches : Reaches address size := by
    by_contra hNot
    exact
      (HostMemory.byteAt_mapPhysical_of_not_reaches
        (a := 0) hNot).1 hSuccess
  refine ⟨hReaches, fun a => ?_⟩
  rcases @HostMemory.byteAt_mapPhysical mem address size a .RW
      none hostMaps hReaches with
    ⟨hResult, hByte⟩
  rw [hByte]
  cases hostMaps with
  | true => rfl
  | false =>
      rw [hResult] at hSuccess
      cases hSuccess

/- What a segment is unpacked into: zeroed host pages. -/
structure Mapped
    (base : U64)
    (seg : SegDesc)
    (run run₁ : NsoRun)
    (dst : U64) : Prop where
  below : (base + seg.memOff).toNat < 2 ^ 32
  reaches : Reaches (base + seg.memOff) (mapSize seg)
  pointer : dst = baseAddr + (base + seg.memOff)
  pointer_ne : dst ≠ 0
  exec : run₁.exec = run.exec
  bytes :
    ∀ a, run₁.mem.byteAt a =
      if SegDesc.Touches base seg a then some 0
      else run.mem.byteAt a

/- A segment that is loaded has been mapped and unpacked. -/
theorem mapped_of_loadSegment
    (hUsed : seg.Used buf)
    (hLoad :
      loadSegment hostMaps mmap buf base isText seg run =
        some (.Success, run')) :
    ∃ run₁ dst, Mapped base seg run run₁ dst ∧
      unpackSegment mmap buf base isText seg dst run₁ =
        some run' := by
  have hNotSkipped :
      ¬ (seg.decompSize = 0 ∨ seg.fileOff ≥ buf.size) := by
    rintro (hZero | hBehind)
    · exact hUsed.1 hZero
    · exact absurd hUsed.2 (BitVec.not_lt.2 hBehind)
  unfold loadSegment at hLoad
  rw [if_neg hNotSkipped] at hLoad
  dsimp only at hLoad
  split at hLoad
  · next hFailed =>
      have hResult := congrArg Prod.fst (Option.some.inj hLoad)
      exact absurd hResult hFailed
  · next hMapped =>
      rcases byteAt_mapped (not_not.1 hMapped) with
        ⟨hReaches, hBytes⟩
      split at hLoad
      · cases hLoad
      · next dst hPointer =>
          rcases pointer_eq_some hPointer with
            ⟨hBelow, hDst, hNe⟩
          rcases Option.bind_eq_some_iff.1 hLoad with
            ⟨final, hUnpack, hLoad⟩
          cases hLoad
          refine ⟨_, dst, ?_, hUnpack⟩
          exact ⟨hBelow, hReaches, hDst, hNe, rfl, hBytes⟩

theorem loadSegment_skipped
    (hSkipped : ¬ seg.Used buf) :
    loadSegment hostMaps mmap buf base isText seg run =
      some (.Success, run) := by
  unfold loadSegment
  refine if_pos ?_
  by_contra hNot
  rcases not_or.1 hNot with ⟨hSize, hBefore⟩
  exact hSkipped ⟨hSize, BitVec.not_le.1 hBefore⟩

/- Unpacking is confined to the bytes of the segment. -/
theorem confined_unpackSegment
    {dst : U64}
    (hDst : dst ≠ 0)
    (hUnpack :
      unpackSegment mmap buf base isText seg dst run =
        some run') :
    HostMemory.Confined dst.toNat seg.decompSize.toNat run.mem
      run'.mem := by
  unfold unpackSegment at hUnpack
  rcases Option.bind_eq_some_iff.1 hUnpack with
    ⟨⟨mem, written⟩, hBytes, hUnpack⟩
  rcases confined_decompressLz4 hBytes with
    ⟨hConfined, hWritten⟩
  cases hUnpack
  unfold record
  dsimp only
  split
  · apply hConfined.trans
    change HostMemory.Confined _ _
      ({ run with mem := mem } : NsoRun).mem _
    apply confined_patchText hDst
    rw [BitVec.toNat_ofNat, Nat.min_eq_left hWritten]
    exact Nat.le_trans (Nat.mod_le _ _) hWritten
  · exact hConfined

/- Elsewhere a segment leaves zeros in its host pages. -/
theorem byteAt_loadSegment_outside
    (hUsed : seg.Used buf)
    (hLoad :
      loadSegment hostMaps mmap buf base isText seg run =
        some (.Success, run'))
    (hOut : ¬ seg.Covers base a) :
    run'.mem.byteAt a =
      if SegDesc.Touches base seg a then some 0
      else run.mem.byteAt a := by
  rcases mapped_of_loadSegment hUsed hLoad with
    ⟨run₁, dst, hMapped, hUnpack⟩
  have hConfined :=
    confined_unpackSegment hMapped.pointer_ne hUnpack
  rw [← hMapped.bytes]
  apply hConfined.outside
  intro hIn
  apply hOut
  rw [hMapped.pointer] at hIn
  exact requested_of_copied hIn

/- The data of a segment, followed by zeros. -/
def storedBytes (data : Bytes) (count : Nat) : Bytes :=
  fun k => if k < count then data k else 0

/- What is loaded of data that is copied. -/
def loadedBytes
    (fixed : Bool × NativeExec)
    (isText : Bool)
    (data : Bytes)
    (count : Nat) : Bytes :=
  fun k =>
    if isText ∧ count % 4 = 0 ∧ count < 2 ^ 32 ∧ k < count then
      patchedByte fixed (storedBytes data count) k
    else storedBytes data count k

/- A segment of a size that can be in memory lies below 4 GiB. -/
theorem Mapped.segment_end_le
    {run₁ : NsoRun}
    {dst : U64}
    (hMapped : Mapped base seg run run₁ dst)
    (hSize : seg.decompSize.toNat < 2 ^ 63) :
    (base + seg.memOff).toNat + (mapSize seg).toNat ≤ 2 ^ 32 ∧
      seg.decompSize.toNat ≤ (mapSize seg).toNat := by
  have hBelow := hMapped.below
  have hEnd := hMapped.reaches.1.2.2
  have hSpace : ADDR_SPACE_SIZE.toNat = 2 ^ 32 := by decide
  have hPage : (0x1000 : U64).toNat = 0x1000 := by decide
  rcases alignUp_bounds (x := seg.decompSize) (a := 0x1000)
      (by decide) (by omega) with
    ⟨hLow, hHigh⟩
  change _ ≤ (mapSize seg).toNat at hLow
  change (mapSize seg).toNat < _ at hHigh
  rw [BitVec.le_def, BitVec.toNat_add, hSpace] at hEnd
  omega

theorem toNat_baseAddr_add
    {address : U64}
    (hBelow : address.toNat < 2 ^ 33) :
    (baseAddr + address).toNat = 0x300000000 + address.toNat := by
  have hBase : baseAddr.toNat = 0x300000000 := by decide
  rw [BitVec.toNat_add, hBase]
  omega

/- The bytes of a segment lie one behind the other. -/
theorem Mapped.toNat_byte
    {run₁ : NsoRun}
    {dst : U64}
    (hMapped : Mapped base seg run run₁ dst)
    {k : Nat}
    (hK : k < 2 ^ 32) :
    (baseAddr + (base + seg.memOff + BitVec.ofNat 64 k)).toNat =
      dst.toNat + k := by
  have hBelow := hMapped.below
  have hOffset : (BitVec.ofNat 64 k).toNat = k := by
    rw [BitVec.toNat_ofNat]
    omega
  have hAddress :
      (base + seg.memOff + BitVec.ofNat 64 k).toNat =
        (base + seg.memOff).toNat + k := by
    rw [BitVec.toNat_add, hOffset]
    omega
  rw [hMapped.pointer, toNat_baseAddr_add (by omega), hAddress,
    toNat_baseAddr_add (by omega)]
  omega

/- All of a segment lies in the zeroed host pages. -/
theorem Mapped.bytes_zero
    {run₁ : NsoRun}
    {dst : U64}
    (hMapped : Mapped base seg run run₁ dst)
    (hSize : seg.decompSize.toNat < 2 ^ 63)
    {k : Nat}
    (hK : k < seg.decompSize.toNat) :
    run₁.mem.bytes (dst.toNat + k) = some 0 := by
  rcases hMapped.segment_end_le hSize with ⟨hEnd, hPages⟩
  have hPos := hMapped.toNat_byte (k := k) (by omega)
  have hTouches :
      SegDesc.Touches base seg
        (base + seg.memOff + BitVec.ofNat 64 k) := by
    apply HostMemory.touches_of_copied
    · omega
    · unfold Copied
      rw [hPos, ← hMapped.pointer]
      omega
  have hByte :=
    hMapped.bytes (base + seg.memOff + BitVec.ofNat 64 k)
  rw [if_pos hTouches] at hByte
  unfold HostMemory.byteAt at hByte
  rw [hPos] at hByte
  exact hByte

theorem srcSize_le (buf : NsoBuffer) (seg : SegDesc) :
    srcSize buf seg ≤ seg.decompSize.toNat := by
  have hComp :
      (compDataSize seg).toNat ≤ seg.decompSize.toNat := by
    unfold compDataSize
    split
    · next hSmall =>
        have hLt := hSmall.2
        rw [BitVec.lt_def] at hLt
        omega
    · exact Nat.le_refl _
  unfold srcSize
  omega

/- Code that was copied, once it is patched. -/
theorem bytes_patchText_copied
    {dst : U64}
    {n size k : Nat}
    (hDst : dst ≠ 0)
    (hCopied :
      ∀ j < size,
        run.mem.bytes (dst.toNat + j) =
          some (storedBytes data n j))
    (hN : n ≤ size)
    (hSize : size ≤ 2 ^ 32)
    (hK : k < size) :
    (patchText mmap dst (BitVec.ofNat 32 n) run).mem.bytes
        (dst.toNat + k) =
      some
        (loadedBytes (NativeExec.ensureFixedTls mmap run.exec)
          true data n k) := by
  have hCount :
      (BitVec.ofNat 32 n).toNat = if n < 2 ^ 32 then n else 0 := by
    rw [BitVec.toNat_ofNat]
    split <;> omega
  have hOff : dst.toNat + k - dst.toNat = k := by omega
  unfold loadedBytes
  rw [bytes_patchText hDst, hCopied k hK, Option.map_some, hCount,
    hOff]
  congr 1
  by_cases hIn : n % 4 = 0 ∧ n < 2 ^ 32 ∧ k < n
  · rcases hIn with ⟨hWords, hLt, hBelow⟩
    rw [if_pos hLt, if_pos ⟨hWords, by omega, by omega⟩,
      if_pos ⟨rfl, hWords, hLt, hBelow⟩]
    exact
      patchedByte_congr
        (fun j hJ =>
          contents_of_bytes (hCopied j hJ))
        (by omega)
  · rw [if_neg, if_neg fun hAll => hIn hAll.2]
    rintro ⟨hWords, -, hUntil⟩
    split at hUntil
    · next hLt =>
        rw [if_pos hLt] at hWords
        exact hIn ⟨hWords, hLt, by omega⟩
    · omega

/- The data of a segment is found where it is mapped. -/
theorem byteAt_loadSegment_inside
    (hUsed : seg.Used buf)
    (hLoad :
      loadSegment hostMaps mmap buf base isText seg run =
        some (.Success, run'))
    (hSize : seg.decompSize.toNat < 2 ^ 63)
    (hPlain :
      isLZ4Compressed (src buf seg) (srcSize buf seg) = false)
    {k : Nat}
    (hK : k < seg.decompSize.toNat) :
    run'.mem.byteAt (base + seg.memOff + BitVec.ofNat 64 k) =
      some
        (loadedBytes (NativeExec.ensureFixedTls mmap run.exec)
          isText (src buf seg) (srcSize buf seg) k) := by
  rcases mapped_of_loadSegment hUsed hLoad with
    ⟨run₁, dst, hMapped, hUnpack⟩
  rcases hMapped.segment_end_le hSize with ⟨hEnd, hPages⟩
  have hFits := srcSize_le buf seg
  unfold unpackSegment at hUnpack
  rcases Option.bind_eq_some_iff.1 hUnpack with
    ⟨⟨mem, written⟩, hBytes, hUnpack⟩
  rcases bytes_decompressLz4 hPlain hFits hBytes with
    ⟨hWritten, hCopy⟩
  have hCopied :
      ∀ j < seg.decompSize.toNat,
        mem.bytes (dst.toNat + j) =
          some
            (storedBytes (src buf seg) (srcSize buf seg) j) := by
    intro j hJ
    have hOff : dst.toNat + j - dst.toNat = j := by omega
    rw [hCopy, hOff, hMapped.bytes_zero hSize hJ]
    unfold storedBytes
    by_cases hIn : j < srcSize buf seg
    · rw [if_pos hIn, if_pos (by omega)]
    · rw [if_neg hIn, if_neg (by omega)]
  cases hUnpack
  unfold HostMemory.byteAt record
  rw [hMapped.toNat_byte (by omega)]
  dsimp only
  rw [hWritten, Nat.min_eq_left hFits, ← hMapped.exec]
  by_cases hPatch : isText = true ∧ srcSize buf seg > 0
  · rw [if_pos hPatch, hPatch.1]
    exact
      bytes_patchText_copied hMapped.pointer_ne hCopied hFits
        (by omega) hK
  · rw [if_neg hPatch]
    dsimp only
    rw [hCopied k hK]
    unfold loadedBytes
    rw [if_neg]
    rintro ⟨hText, -, -, hBelow⟩
    exact hPatch ⟨hText, by omega⟩

end

end NsoLoader

end M1Switch
