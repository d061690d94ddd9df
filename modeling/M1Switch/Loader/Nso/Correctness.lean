import M1Switch.Loader.Nso.Segments

/-
  What guest memory holds once an NSO is loaded.

  Segments are mapped one behind the other, and each mapping
  zeroes whole host pages, in which earlier segments may lie.
  Whether a segment is compressed is told by its data, not by
  the sizes in the header.

  Key definitions include:
    * `NsoLoader.Content`
    * `NsoLoader.Wiped`

  Main results:
    * `byteAt_final`
    * `correct_iff`
-/

------
-- Runs Over the Segments
------

namespace M1Switch

namespace NsoLoader

open HostMemory (Requested)

variable {hostMaps : U64 → U64 → Bool} {mmap : U64 → Bool}
variable {buf : NsoBuffer} {base a : U64}
variable {header : NsoHeader} {run run' : NsoRun}
variable {mem : HostMemory} {exec : NativeExec}
variable {before later : List (Bool × SegDesc)}

theorem loadSegments_cons
    {seg : Bool × SegDesc}
    {segs : List (Bool × SegDesc)}
    (hLoad :
      loadSegments hostMaps mmap buf base (seg :: segs) run =
        some (.Success, run')) :
    ∃ run₁,
      loadSegment hostMaps mmap buf base seg.1 seg.2 run =
          some (.Success, run₁) ∧
        loadSegments hostMaps mmap buf base segs run₁ =
          some (.Success, run') := by
  unfold loadSegments at hLoad
  rcases Option.bind_eq_some_iff.1 hLoad with
    ⟨⟨result, run₁⟩, hFirst, hLoad⟩
  dsimp only at hLoad
  split at hLoad
  · next hFailed =>
      cases hLoad
      exact absurd rfl hFailed
  · next hSuccess =>
      rw [not_not] at hSuccess
      rw [hSuccess] at hFirst
      exact ⟨run₁, hFirst, hLoad⟩

/- A load of some segments, up to one of them and behind it. -/
theorem loadSegments_append
    {before segs : List (Bool × SegDesc)}
    (hLoad :
      loadSegments hostMaps mmap buf base (before ++ segs) run =
        some (.Success, run')) :
    ∃ run₁,
      loadSegments hostMaps mmap buf base before run =
          some (.Success, run₁) ∧
        loadSegments hostMaps mmap buf base segs run₁ =
          some (.Success, run') := by
  induction before generalizing run with
  | nil => exact ⟨run, rfl, hLoad⟩
  | cons seg before ih =>
      rcases loadSegments_cons hLoad with ⟨run₁, hFirst, hRest⟩
      rcases ih hRest with ⟨run₂, hBefore, hSegs⟩
      refine ⟨run₂, ?_, hSegs⟩
      unfold loadSegments
      rw [hFirst]
      exact hBefore

/- Some of the segments zeroes the address with its pages. -/
def Zeroed
    (buf : NsoBuffer)
    (base : U64)
    (segs : List (Bool × SegDesc))
    (a : U64) : Prop :=
  ∃ seg ∈ segs, seg.2.Used buf ∧ seg.2.Touches base a

instance
    (buf : NsoBuffer)
    (base : U64)
    (segs : List (Bool × SegDesc))
    (a : U64) :
    Decidable (Zeroed buf base segs a) :=
  inferInstanceAs (Decidable (∃ seg ∈ segs, _))

/- Where none of the segments is, by induction on them. -/
theorem byteAt_loadSegments
    {segs : List (Bool × SegDesc)}
    (hLoad :
      loadSegments hostMaps mmap buf base segs run =
        some (.Success, run'))
    (hOut : ∀ seg ∈ segs, ¬ seg.2.Covers base a) :
    run'.mem.byteAt a =
      if Zeroed buf base segs a then some 0
      else run.mem.byteAt a := by
  induction segs generalizing run with
  | nil =>
      cases hLoad
      rw [if_neg]
      rintro ⟨seg, hSeg, -⟩
      cases hSeg
  | cons seg segs ih =>
      rcases loadSegments_cons hLoad with ⟨run₁, hFirst, hRest⟩
      rcases List.forall_mem_cons.1 hOut with ⟨hHead, hTail⟩
      rw [ih hRest hTail]
      by_cases hLater : Zeroed buf base segs a
      · rcases hLater with ⟨other, hOther, hZero⟩
        rw [if_pos ⟨other, hOther, hZero⟩,
          if_pos ⟨other, List.mem_cons_of_mem _ hOther, hZero⟩]
      · rw [if_neg hLater]
        by_cases hUsed : seg.2.Used buf
        · rw [byteAt_loadSegment_outside hUsed hFirst hHead]
          by_cases hTouches : seg.2.Touches base a
          · rw [if_pos hTouches,
              if_pos
                ⟨seg, List.mem_cons_self, hUsed, hTouches⟩]
          · rw [if_neg hTouches, if_neg]
            rintro ⟨other, hOther, hZero⟩
            rcases List.mem_cons.1 hOther with rfl | hMem
            · exact hTouches hZero.2
            · exact hLater ⟨other, hMem, hZero⟩
        · rw [loadSegment_skipped hUsed] at hFirst
          cases hFirst
          rw [if_neg]
          rintro ⟨other, hOther, hZero⟩
          rcases List.mem_cons.1 hOther with rfl | hMem
          · exact hUsed hZero.1
          · exact hLater ⟨other, hMem, hZero⟩

------
-- The BSS
------

/- The BSS zeroes the address with its pages. -/
def BssTouches
    (base : U64)
    (header : NsoHeader)
    (a : U64) : Prop :=
  header.bssSize > 0 ∧
    HostMemory.Touches (base + totalEnd header)
      (bssMapSize header) a

instance (base : U64) (header : NsoHeader) (a : U64) :
    Decidable (BssTouches base header a) :=
  inferInstanceAs (Decidable (_ ∧ _))

theorem bssMapSize_bounds (header : NsoHeader) :
    header.bssSize.toNat ≤ (bssMapSize header).toNat ∧
      (bssMapSize header).toNat <
        header.bssSize.toNat + 0x1000 := by
  have hLt := header.bssSize.isLt
  have hWide :
      (header.bssSize.setWidth 64 : U64).toNat =
        header.bssSize.toNat := by
    rw [BitVec.toNat_setWidth]
    omega
  have hPage : (0x1000 : U64).toNat = 0x1000 := by decide
  have hBounds :=
    alignUp_bounds (x := header.bssSize.setWidth 64)
      (a := 0x1000) (by decide) (by omega)
  rw [hWide, hPage] at hBounds
  exact hBounds

/- Zeros are written to zeros. -/
theorem byteAt_zeroBss
    {address size : U64}
    {mem mem' : HostMemory}
    (hSize : size.toNat < 2 ^ 63)
    (hZero :
      ∀ a, HostMemory.Touches address size a →
        mem.byteAt a = some 0)
    (hFill : zeroBss address size mem = some mem')
    (a : U64) :
    mem'.byteAt a = mem.byteAt a := by
  unfold zeroBss at hFill
  split at hFill
  · next ptr hPointer =>
      rcases pointer_eq_some hPointer with ⟨-, hPtr, -⟩
      unfold HostMemory.byteAt
      rw [HostMemory.bytes_fillRange hFill]
      split
      · next hIn =>
          rw [hPtr] at hIn
          have hTouches : HostMemory.Touches address size a :=
            HostMemory.touches_of_copied (by omega) hIn
          exact (hZero a hTouches).symm
      · rfl
  · cases hFill
    rfl

theorem byteAt_mapBss
    (hLoad :
      mapBss hostMaps base header run = some (.Success, run')) :
    (header.bssSize > 0 →
        HostMemory.Reaches (base + totalEnd header)
            (bssMapSize header) ∧
          run'.info.bssAddress = base + totalEnd header) ∧
      ∀ a, run'.mem.byteAt a =
        if BssTouches base header a then some 0
        else run.mem.byteAt a := by
  unfold mapBss at hLoad
  split at hLoad
  · next hSome =>
      dsimp only at hLoad
      split at hLoad
      · next hFailed =>
          have hResult := congrArg Prod.fst (Option.some.inj hLoad)
          exact absurd hResult hFailed
      · next hMapped =>
          rcases byteAt_mapped (not_not.1 hMapped) with
            ⟨hReaches, hBytes⟩
          rcases Option.bind_eq_some_iff.1 hLoad with
            ⟨mem, hMem, hLoad⟩
          have hSize := (bssMapSize_bounds header).2
          have hLt := header.bssSize.isLt
          cases hLoad
          refine ⟨fun _ => ⟨hReaches, rfl⟩, fun a => ?_⟩
          have hTouches :
              BssTouches base header a ↔
                HostMemory.Touches (base + totalEnd header)
                  (bssMapSize header) a :=
            and_iff_right hSome
          have hSame :=
            byteAt_zeroBss
              (show (bssMapSize header).toNat < 2 ^ 63 by omega)
              (fun a hIn => by rw [hBytes, if_pos hIn]) hMem a
          dsimp only
          rw [hSame, hBytes]
          simp only [hTouches]
  · next hNone =>
      cases hLoad
      refine ⟨fun hSome => absurd hSome hNone, fun a => ?_⟩
      rw [if_neg fun hBoth => hNone hBoth.1]

------
-- The Bytes of a Segment
------

/- What zeroes bytes of a segment: later ones, and the BSS. -/
def Wiped
    (buf : NsoBuffer)
    (base : U64)
    (header : NsoHeader)
    (later : List (Bool × SegDesc))
    (a : U64) : Prop :=
  Zeroed buf base later a ∨ BssTouches base header a

instance
    (buf : NsoBuffer)
    (base : U64)
    (header : NsoHeader)
    (later : List (Bool × SegDesc))
    (a : U64) :
    Decidable (Wiped buf base header later a) :=
  inferInstanceAs (Decidable (_ ∨ _))

/- A load that succeeds, with what is left before the BSS. -/
theorem loaded_of_success
    (hHeader : parseHeader buf = some header)
    (hLoad :
      loadFromBuffer hostMaps mmap buf base mem exec =
        some (.Success, run')) :
    ∃ run₁ run₂,
      loadSegments hostMaps mmap buf base (segs header)
          { mem := mem, exec := exec } = some (.Success, run₁) ∧
        mapBss hostMaps base header run₁ =
            some (.Success, run₂) ∧
          run' = finish base header run₂ := by
  unfold loadFromBuffer at hLoad
  dsimp only at hLoad
  rw [hHeader] at hLoad
  dsimp only at hLoad
  unfold decompressAndMap at hLoad
  rcases Option.bind_eq_some_iff.1 hLoad with
    ⟨⟨result, run₁⟩, hSegs, hLoad⟩
  dsimp only at hLoad
  split at hLoad
  · next hFailed =>
      cases hLoad
      exact absurd rfl hFailed
  · next hSuccess =>
      rw [not_not] at hSuccess
      rcases Option.bind_eq_some_iff.1 hLoad with
        ⟨⟨result₂, run₂⟩, hBss, hLoad⟩
      dsimp only at hLoad
      split at hLoad
      · next hFailed =>
          cases hLoad
          exact absurd rfl hFailed
      · next hSuccess₂ =>
          rw [not_not] at hSuccess₂
          cases hLoad
          rw [hSuccess] at hSegs
          rw [hSuccess₂] at hBss
          exact ⟨run₁, run₂, hSegs, hBss, rfl⟩

/- Code is only the first of the segments. -/
theorem text_first
    {seg : Bool × SegDesc}
    (hSegs : segs header = before ++ seg :: later)
    (hText : seg.1 = true) :
    before = [] := by
  unfold segs at hSegs
  cases before with
  | nil => rfl
  | cons first before =>
      exfalso
      have hTail :
          [(false, roSeg header), (false, dataSeg header)] =
            before ++ seg :: later :=
        (List.cons.inj hSegs).2
      have hMem : seg ∈ before ++ seg :: later :=
        List.mem_append_right _ List.mem_cons_self
      rw [← hTail] at hMem
      rcases List.mem_cons.1 hMem with rfl | hMem
      · cases hText
      · rcases List.mem_cons.1 hMem with rfl | hMem
        · cases hText
        · cases hMem

theorem loadedBytes_data
    (fixed : Bool × NativeExec)
    (data : Bytes)
    (n : Nat) :
    loadedBytes fixed false data n = storedBytes data n := by
  funext k
  unfold loadedBytes
  rw [if_neg fun hAll => Bool.false_ne_true hAll.1]

/- No two segments have an address in common. -/
def Disjoint (s t : Bool × SegDesc) : Prop :=
  ∀ a, Requested s.2.memOff s.2.decompSize a →
    ¬ Requested t.2.memOff t.2.decompSize a

theorem covers_iff (seg : SegDesc) :
    seg.Covers base a ↔
      Requested seg.memOff seg.decompSize (a - base) := by
  have hDiff : a - (base + seg.memOff) = a - base - seg.memOff := by
    bv_omega
  unfold SegDesc.Covers Requested
  rw [hDiff]

theorem covers_byte
    (seg : SegDesc)
    {k : Nat}
    (hK : k < seg.decompSize.toNat) :
    seg.Covers base (base + seg.memOff + BitVec.ofNat 64 k) := by
  have hLt := seg.decompSize.isLt
  have hOff :
      base + seg.memOff + BitVec.ofNat 64 k - (base + seg.memOff) =
        BitVec.ofNat 64 k := by
    bv_omega
  unfold SegDesc.Covers Requested
  rw [hOff, BitVec.lt_def, BitVec.toNat_ofNat]
  omega

/-
  A byte of a segment, once all is loaded: what was loaded, as
  long as nothing later zeroed it.
-/
theorem byteAt_final
    {seg : Bool × SegDesc}
    (hHeader : parseHeader buf = some header)
    (hLoad :
      loadFromBuffer hostMaps mmap buf base mem exec =
        some (.Success, run'))
    (hSegs : segs header = before ++ seg :: later)
    (hDisjoint : (segs header).Pairwise Disjoint)
    (hUsed : seg.2.Used buf)
    (hSize : seg.2.decompSize.toNat < 2 ^ 63)
    (hPlain :
      isLZ4Compressed (src buf seg.2) (srcSize buf seg.2) = false)
    {k : Nat}
    (hK : k < seg.2.decompSize.toNat) :
    run'.mem.byteAt (base + seg.2.memOff + BitVec.ofNat 64 k) =
      some
        (if Wiped buf base header later
            (base + seg.2.memOff + BitVec.ofNat 64 k) then 0
        else
          loadedBytes (NativeExec.ensureFixedTls mmap exec) seg.1
            (src buf seg.2) (srcSize buf seg.2) k) := by
  rcases loaded_of_success hHeader hLoad with
    ⟨run₁, run₂, hAll, hBss, hFinal⟩
  have hMem : run'.mem = run₂.mem := by
    rw [hFinal]
    rfl
  rw [hSegs] at hAll hDisjoint
  rcases loadSegments_append hAll with ⟨run₃, hBefore, hRest⟩
  rcases loadSegments_cons hRest with ⟨run₄, hSeg, hLater⟩
  have hOut :
      ∀ other ∈ later,
        ¬ other.2.Covers base
          (base + seg.2.memOff + BitVec.ofNat 64 k) := by
    intro other hOther hCovers
    have hApart :=
      (List.pairwise_cons.1
        (List.pairwise_append.1 hDisjoint).2.1).1 other hOther
    exact
      hApart _ ((covers_iff _).1 (covers_byte seg.2 hK))
        ((covers_iff _).1 hCovers)
  have hByte :=
    byteAt_loadSegment_inside hUsed hSeg hSize hPlain hK
  have hLoaded :
      loadedBytes (NativeExec.ensureFixedTls mmap run₃.exec) seg.1
          (src buf seg.2) (srcSize buf seg.2) =
        loadedBytes (NativeExec.ensureFixedTls mmap exec) seg.1
          (src buf seg.2) (srcSize buf seg.2) := by
    cases hText : seg.1 with
    | false => rw [loadedBytes_data, loadedBytes_data]
    | true =>
        have hNil := text_first hSegs hText
        subst hNil
        cases hBefore
        rfl
  rw [hMem, (byteAt_mapBss hBss).2,
    byteAt_loadSegments hLater hOut, hByte, hLoaded]
  by_cases hZero :
      BssTouches base header
        (base + seg.2.memOff + BitVec.ofNat 64 k)
  · have hWiped :
        Wiped buf base header later
          (base + seg.2.memOff + BitVec.ofNat 64 k) :=
      Or.inr hZero
    rw [if_pos hZero, if_pos hWiped]
  · rw [if_neg hZero]
    by_cases hLaterZero :
        Zeroed buf base later
          (base + seg.2.memOff + BitVec.ofNat 64 k)
    · have hWiped :
          Wiped buf base header later
            (base + seg.2.memOff + BitVec.ofNat 64 k) :=
        Or.inl hLaterZero
      rw [if_pos hLaterZero, if_pos hWiped]
    · have hKept :
          ¬ Wiped buf base header later
            (base + seg.2.memOff + BitVec.ofNat 64 k) :=
        not_or.2 ⟨hLaterZero, hZero⟩
      rw [if_neg hLaterZero, if_neg hKept]

------
-- Correctness
------

/- The header says that the segment is compressed, or is not. -/
def Compressed (seg : SegDesc) : Prop :=
  0 < seg.compSize.toNat ∧
    seg.compSize.toNat < seg.decompSize.toNat

def Uncompressed (seg : SegDesc) : Prop :=
  seg.compSize.toNat = 0 ∨
    seg.compSize.toNat = seg.decompSize.toNat

instance (seg : SegDesc) : Decidable (Uncompressed seg) :=
  inferInstanceAs (Decidable (_ ∨ _))

/-
  What a segment stands for: its bytes in the file, or what the
  block in the file is decoded to.
-/
structure Content
    (buf : NsoBuffer)
    (seg : SegDesc)
    (content : List U8) : Prop where
  length : content.length = seg.decompSize.toNat
  bytes :
    Uncompressed seg ∧
        content =
          buf.bytes.slice seg.fileOff.toNat
            seg.decompSize.toNat ∨
      Compressed seg ∧
        Lz4Block.decode
            (buf.bytes.slice seg.fileOff.toNat
              seg.compSize.toNat) =
          some content

/- A byte of the content, or of its patched words if it is code. -/
def Allowed
    (fixed : Bool × NativeExec)
    (isText : Bool)
    (content : List U8)
    (k : Nat)
    (b : U8) : Prop :=
  b = content.getD k 0 ∨
    isText = true ∧ k / 4 * 4 + 4 ≤ content.length ∧
      b = patchedByte fixed (Bytes.ofList content 0) k

/- Segments in the file, at pages of 4 KiB, without overlap. -/
structure Wellformed
    (buf : NsoBuffer)
    (header : NsoHeader) : Prop where
  aligned : ∀ seg ∈ segs header, 0x1000 ∣ seg.2.memOff.toNat
  inside :
    ∀ seg ∈ segs header,
      seg.2.fileOff.toNat + (compDataSize seg.2).toNat ≤
        buf.size.toNat
  disjoint : (segs header).Pairwise Disjoint

/- Guest memory holds the segments, and zeros behind them. -/
structure Correct
    (fixed : Bool × NativeExec)
    (buf : NsoBuffer)
    (base : U64)
    (header : NsoHeader)
    (run : NsoRun) : Prop where
  segments :
    ∀ seg ∈ segs header,
      ∀ content, Content buf seg.2 content →
        ∀ k < seg.2.decompSize.toNat,
          ∃ b,
            run.mem.byteAt
                (base + seg.2.memOff + BitVec.ofNat 64 k) =
              some b ∧ Allowed fixed seg.1 content k b
  bss :
    ∀ k < header.bssSize.toNat,
      run.info.bssAddress = base + totalEnd header ∧
        run.mem.byteAt
            (run.info.bssAddress + BitVec.ofNat 64 k) =
          some 0

/- Segments that are not compressed do not look like they are. -/
def Plain (buf : NsoBuffer) (header : NsoHeader) : Prop :=
  ∀ seg ∈ segs header, Uncompressed seg.2 →
    isLZ4Compressed (src buf seg.2) (srcSize buf seg.2) = false

/-
  Bytes that are zeroed by a later segment or the BSS are zero,
  and the data of a compressed segment, which is copied, is
  what it is decoded to, as far as it is not zeroed.
-/
def Kept
    (fixed : Bool × NativeExec)
    (buf : NsoBuffer)
    (base : U64)
    (header : NsoHeader) : Prop :=
  ∀ before seg later, segs header = before ++ seg :: later →
    ∀ content, Content buf seg.2 content →
      ∀ k < seg.2.decompSize.toNat,
        if Wiped buf base header later
            (base + seg.2.memOff + BitVec.ofNat 64 k) then
          Allowed fixed seg.1 content k 0
        else
          Compressed seg.2 →
            Allowed fixed seg.1 content k
              (loadedBytes fixed seg.1 (src buf seg.2)
                (srcSize buf seg.2) k)

section

variable {seg : SegDesc} {content : List U8}
variable {fixed : Bool × NativeExec} {isText : Bool}

theorem toNat_compDataSize_of_compressed
    (hCompressed : Compressed seg) :
    (compDataSize seg).toNat = seg.compSize.toNat := by
  have hLt := seg.compSize.isLt
  have hWide :
      (seg.compSize.setWidth 64 : U64).toNat =
        seg.compSize.toNat := by
    rw [BitVec.toNat_setWidth]
    omega
  unfold compDataSize
  rw [if_pos]
  · exact hWide
  · rw [gt_iff_lt, BitVec.lt_def, BitVec.lt_def, hWide]
    exact hCompressed

theorem toNat_compDataSize_of_uncompressed
    (hUncompressed : Uncompressed seg) :
    compDataSize seg = seg.decompSize := by
  have hLt := seg.compSize.isLt
  have hWide :
      (seg.compSize.setWidth 64 : U64).toNat =
        seg.compSize.toNat := by
    rw [BitVec.toNat_setWidth]
    omega
  unfold compDataSize
  rw [if_neg]
  rw [gt_iff_lt, BitVec.lt_def, BitVec.lt_def, hWide]
  rintro ⟨hPos, hSmall⟩
  have hZero : (0 : U32).toNat = 0 := rfl
  rcases hUncompressed with hNone | hSame <;> omega

theorem srcSize_of_inside
    (hInside :
      seg.fileOff.toNat + (compDataSize seg).toNat ≤
        buf.size.toNat) :
    srcSize buf seg = (compDataSize seg).toNat := by
  have hRest :
      (buf.size - seg.fileOff).toNat =
        buf.size.toNat - seg.fileOff.toNat := by
    rw [BitVec.toNat_sub]
    omega
  unfold srcSize
  rw [hRest]
  omega

theorem Content.used
    (hContent : Content buf seg content)
    (hInside :
      seg.fileOff.toNat + (compDataSize seg).toNat ≤
        buf.size.toNat)
    (hPos : 0 < seg.decompSize.toNat) :
    seg.Used buf := by
  have hData : 0 < (compDataSize seg).toNat := by
    rcases hContent.bytes with ⟨hPlain, -⟩ | ⟨hCompressed, -⟩
    · rw [toNat_compDataSize_of_uncompressed hPlain]
      exact hPos
    · rw [toNat_compDataSize_of_compressed hCompressed]
      exact hCompressed.1
  constructor
  · intro hZero
    rw [hZero] at hPos
    exact absurd hPos (by decide)
  · rw [BitVec.lt_def]
    omega

/- A segment that has a content is no larger than memory. -/
theorem Content.size_lt
    (hContent : Content buf seg content)
    (hInside :
      seg.fileOff.toNat + (compDataSize seg).toNat ≤
        buf.size.toNat) :
    seg.decompSize.toNat < 2 ^ 63 := by
  have hFile := buf.size_lt
  rcases hContent.bytes with ⟨hPlain, -⟩ | ⟨hCompressed, hDecode⟩
  · rw [toNat_compDataSize_of_uncompressed hPlain] at hInside
    omega
  · have hLe := Lz4Block.length_decode_le hDecode
    have hLt := seg.compSize.isLt
    rw [hContent.length, Bytes.length_slice] at hLe
    omega

theorem slice_three
    (mem : Bytes)
    (start n : Nat) :
    mem.slice start (n + 3) =
      mem start :: mem (start + 1) :: mem (start + 2) ::
        mem.slice (start + 3) n := by
  have hParts :
      mem.slice start (n + 3) =
        mem.slice start 3 ++ mem.slice (start + 3) n := by
    unfold Bytes.slice
    rw [Nat.add_comm n 3, List.range_add, List.map_append,
      List.map_map]
    congr 1
    apply List.map_congr_left
    intro i _
    rw [Function.comp_apply, Nat.add_assoc]
  rw [hParts]
  rfl

/- No block starts with the magic: its first sequence would be
a match. -/
theorem Content.not_magic
    (hContent : Content buf seg content)
    (hInside :
      seg.fileOff.toNat + (compDataSize seg).toNat ≤
        buf.size.toNat)
    (hPlain :
      Uncompressed seg →
        isLZ4Compressed (src buf seg) (srcSize buf seg) = false) :
    isLZ4Compressed (src buf seg) (srcSize buf seg) = false := by
  rcases hContent.bytes with ⟨hData, -⟩ | ⟨hCompressed, hDecode⟩
  · exact hPlain hData
  · rw [← Bool.not_eq_true]
    intro hMagic
    unfold isLZ4Compressed at hMagic
    rw [Bool.and_eq_true, decide_eq_true_iff, beq_iff_eq,
      srcSize_of_inside hInside,
      toNat_compDataSize_of_compressed hCompressed] at hMagic
    rcases hMagic with ⟨hFour, hWord⟩
    have hToken :
        buf.bytes seg.fileOff.toNat = WordBytes.byte
          (0x184D2204 : U32) 0 := by
      rw [← hWord, Bytes.byte_word]
      rfl
    have hLength :
        seg.compSize.toNat = seg.compSize.toNat - 3 + 3 := by
      omega
    rw [hLength, slice_three,
      Lz4Block.decode_match_first (by rw [hToken]; decide)]
      at hDecode
    cases hDecode

theorem getD_slice
    (mem : Bytes)
    (start : Nat)
    {count k : Nat}
    (hK : k < count) :
    (mem.slice start count).getD k 0 = mem (start + k) := by
  rw [List.getD_eq_getElem?_getD, List.getElem?_eq_getElem
    (by rw [Bytes.length_slice]; exact hK), Bytes.getElem_slice]
  rfl

/- Data that is not compressed is loaded as it is in the file. -/
theorem Content.allowed
    (hContent : Content buf seg content)
    (hInside :
      seg.fileOff.toNat + (compDataSize seg).toNat ≤
        buf.size.toNat)
    (hNot : ¬ Compressed seg)
    {k : Nat}
    (hK : k < seg.decompSize.toNat) :
    Allowed fixed isText content k
      (loadedBytes fixed isText (src buf seg)
        (srcSize buf seg) k) := by
  have hLength := hContent.length
  rcases hContent.bytes with ⟨hPlain, hData⟩ | ⟨hCompressed, -⟩
  · have hCount : srcSize buf seg = seg.decompSize.toNat := by
      rw [srcSize_of_inside hInside,
        toNat_compDataSize_of_uncompressed hPlain]
    have hByte :
        ∀ j < seg.decompSize.toNat,
          storedBytes (src buf seg) (srcSize buf seg) j =
            Bytes.ofList content 0 j := by
      intro j hJ
      unfold storedBytes Bytes.ofList
      rw [if_pos (by omega), hData, Nat.zero_add, getD_slice _ _ hJ]
      rfl
    unfold loadedBytes
    split
    · next hPatched =>
        rcases hPatched with ⟨hText, hWords, -, hBelow⟩
        refine Or.inr ⟨hText, by omega, ?_⟩
        exact patchedByte_congr hByte (by omega)
    · left
      rw [hByte k hK]
      unfold Bytes.ofList
      rw [Nat.zero_add]
  · exact absurd hCompressed hNot

end

/- One byte of a segment is right exactly when it is kept. -/
theorem byte_iff
    {seg : Bool × SegDesc}
    {content : List U8}
    (hHeader : parseHeader buf = some header)
    (hLoad :
      loadFromBuffer hostMaps mmap buf base mem exec =
        some (.Success, run'))
    (hSegs : segs header = before ++ seg :: later)
    (hWell : Wellformed buf header)
    (hPlain : Plain buf header)
    (hContent : Content buf seg.2 content)
    {k : Nat}
    (hK : k < seg.2.decompSize.toNat) :
    (∃ b,
      run'.mem.byteAt
          (base + seg.2.memOff + BitVec.ofNat 64 k) = some b ∧
        Allowed (NativeExec.ensureFixedTls mmap exec) seg.1
          content k b) ↔
      if Wiped buf base header later
          (base + seg.2.memOff + BitVec.ofNat 64 k) then
        Allowed (NativeExec.ensureFixedTls mmap exec) seg.1
          content k 0
      else
        Compressed seg.2 →
          Allowed (NativeExec.ensureFixedTls mmap exec) seg.1
            content k
            (loadedBytes (NativeExec.ensureFixedTls mmap exec)
              seg.1 (src buf seg.2) (srcSize buf seg.2) k) := by
  have hMem : seg ∈ segs header := by
    rw [hSegs]
    exact List.mem_append_right _ List.mem_cons_self
  have hInside := hWell.inside seg hMem
  have hByte :=
    byteAt_final hHeader hLoad hSegs hWell.disjoint
      (hContent.used hInside (by omega))
      (hContent.size_lt hInside)
      (hContent.not_magic hInside (hPlain seg hMem)) hK
  rw [hByte]
  simp only [Option.some.injEq, exists_eq_left']
  split
  · rfl
  · constructor
    · intro hAllowed _
      exact hAllowed
    · intro hAllowed
      by_cases hCompressed : Compressed seg.2
      · exact hAllowed hCompressed
      · exact hContent.allowed hInside hCompressed hK

/- The BSS is zero in any case. -/
theorem bss_zero
    (hHeader : parseHeader buf = some header)
    (hLoad :
      loadFromBuffer hostMaps mmap buf base mem exec =
        some (.Success, run'))
    {k : Nat}
    (hK : k < header.bssSize.toNat) :
    run'.info.bssAddress = base + totalEnd header ∧
      run'.mem.byteAt
          (run'.info.bssAddress + BitVec.ofNat 64 k) =
        some 0 := by
  rcases loaded_of_success hHeader hLoad with
    ⟨run₁, run₂, -, hBss, hFinal⟩
  have hSome : header.bssSize > 0 := by
    have hZero : (0 : U32).toNat = 0 := rfl
    rw [gt_iff_lt, BitVec.lt_def, hZero]
    omega
  rcases byteAt_mapBss hBss with ⟨hMapped, hBytes⟩
  rcases hMapped hSome with ⟨hReaches, hAddress⟩
  rcases bssMapSize_bounds header with ⟨hLow, hHigh⟩
  have hLt := header.bssSize.isLt
  have hInfo : run'.info.bssAddress = base + totalEnd header := by
    rw [hFinal]
    exact hAddress
  have hTouches :
      BssTouches base header
        (base + totalEnd header + BitVec.ofNat 64 k) := by
    refine ⟨hSome, ?_⟩
    apply HostMemory.touches_of_copied (by omega)
    rw [← HostMemory.requested_iff_copied
      (HostMemory.end_le_of_accepts (by omega) hReaches.2)]
    have hOff :
        base + totalEnd header + BitVec.ofNat 64 k -
            (base + totalEnd header) = BitVec.ofNat 64 k := by
      bv_omega
    unfold Requested
    rw [hOff, BitVec.lt_def, BitVec.toNat_ofNat]
    omega
  refine ⟨hInfo, ?_⟩
  have hMem : run'.mem = run₂.mem := by
    rw [hFinal]
    rfl
  rw [hInfo, hMem, hBytes, if_pos hTouches]

/-
  Once an NSO is loaded, guest memory holds its segments and
  its BSS exactly when nothing is lost on the way.
-/
theorem correct_iff
    {mem : HostMemory}
    {exec : NativeExec}
    (hHeader : parseHeader buf = some header)
    (hWell : Wellformed buf header)
    (hPlain : Plain buf header)
    (hLoad :
      loadFromBuffer hostMaps mmap buf base mem exec =
        some (.Success, run')) :
    Correct (NativeExec.ensureFixedTls mmap exec) buf base header
        run' ↔
      Kept (NativeExec.ensureFixedTls mmap exec) buf base
        header := by
  constructor
  · intro hCorrect before seg later hSegs content hContent k hK
    have hMem : seg ∈ segs header := by
      rw [hSegs]
      exact List.mem_append_right _ List.mem_cons_self
    rw [← byte_iff hHeader hLoad hSegs hWell hPlain hContent hK]
    exact hCorrect.segments seg hMem content hContent k hK
  · intro hKept
    refine ⟨?_, fun k hK => bss_zero hHeader hLoad hK⟩
    intro seg hMem content hContent k hK
    rcases List.append_of_mem hMem with ⟨before, later, hSegs⟩
    rw [byte_iff hHeader hLoad hSegs hWell hPlain hContent hK]
    exact hKept before seg later hSegs content hContent k hK

/- Segments as they are in the file, in host pages of their own. -/
theorem kept_of_apart
    {fixed : Bool × NativeExec}
    (hUncompressed :
      ∀ seg ∈ segs header, Uncompressed seg.2)
    (hApart :
      ∀ before seg later, segs header = before ++ seg :: later →
        ∀ k < seg.2.decompSize.toNat,
          ¬ Wiped buf base header later
              (base + seg.2.memOff + BitVec.ofNat 64 k)) :
    Kept fixed buf base header := by
  intro before seg later hSegs content _ k hK
  rw [if_neg (hApart before seg later hSegs k hK)]
  intro hCompressed
  have hMem : seg ∈ segs header := by
    rw [hSegs]
    exact List.mem_append_right _ List.mem_cons_self
  have hBoth := hUncompressed seg hMem
  unfold Uncompressed at hBoth
  unfold Compressed at hCompressed
  omega

/- Segments one behind the other have no address in common. -/
theorem disjoint_of_le
    {s t : Bool × SegDesc}
    (hBelow :
      s.2.memOff.toNat + s.2.decompSize.toNat ≤
        t.2.memOff.toNat)
    (hEnd :
      t.2.memOff.toNat + t.2.decompSize.toNat < 2 ^ 64) :
    Disjoint s t := by
  intro a hIn hOther
  unfold Requested at hIn hOther
  rw [BitVec.lt_def, BitVec.toNat_sub] at hIn hOther
  omega

theorem segs_pairwise
    (hText :
      header.textMemOff.toNat + header.textSize.toNat ≤
        header.roMemOff.toNat)
    (hRo :
      header.roMemOff.toNat + header.roSize.toNat ≤
        header.dataMemOff.toNat)
    (hData :
      header.dataMemOff.toNat + header.dataSize.toNat <
        2 ^ 64) :
    (segs header).Pairwise Disjoint := by
  unfold segs
  refine List.Pairwise.cons ?_ (List.Pairwise.cons ?_
    (List.Pairwise.cons ?_ List.Pairwise.nil))
  · intro other hOther
    rcases List.mem_cons.1 hOther with rfl | hOther
    · refine disjoint_of_le hText ?_
      dsimp only [roSeg]
      omega
    · rcases List.mem_cons.1 hOther with rfl | hOther
      · refine disjoint_of_le ?_ hData
        dsimp only [textSeg, dataSeg]
        omega
      · cases hOther
  · intro other hOther
    rcases List.mem_cons.1 hOther with rfl | hOther
    · exact disjoint_of_le hRo hData
    · cases hOther
  · intro other hOther
    cases hOther

------
-- Two Segments in a Host Page
------

/- Code at the base, and a byte of data one page behind. -/
def sharedPageHeader : NsoHeader where
  textFileOff := 0x100
  textMemOff := 0
  textSize := 4
  roFileOff := 0x104
  roMemOff := 0x1000
  roSize := 1
  dataFileOff := 0x105
  dataMemOff := 0x2000
  dataSize := 0
  bssSize := 0
  modOffset := 0
  textCompSize := 0
  roCompSize := 0
  dataCompSize := 0
  buildId := List.replicate 0x20 0

def sharedPage : NsoBuffer where
  bytes :=
    Bytes.ofList
      ([0x4E, 0x53, 0x4F, 0x30] ++ List.replicate 12 0 ++
        [0x100, 0, 4, 0x104, 0x1000, 1, 0x105, 0x2000,
          0].flatMap Bytes.ofLong ++
        List.replicate 0xA8 0 ++
        [0x1F, 0x20, 0x03, 0xD5, 7])
      0
  size := 0x105
  size_lt := by decide

/- The load, where the host maps all that it is asked for. -/
def sharedPageLoad : Option (Result × NsoRun) :=
  loadFromBuffer (fun _ _ => true) (fun _ => true) sharedPage
    0x40000000 {} {}

theorem header_sharedPage :
    parseHeader sharedPage = some sharedPageHeader := by
  decide

theorem wellformed_sharedPage :
    Wellformed sharedPage sharedPageHeader where
  aligned := by decide
  inside := by decide
  disjoint := segs_pairwise (by decide) (by decide) (by decide)

theorem plain_sharedPage : Plain sharedPage sharedPageHeader := by
  intro seg hSeg _
  revert seg
  decide

theorem sharedPage_loads :
    ∃ run, sharedPageLoad = some (.Success, run) ∧
      run.mem.byteAt 0x40000000 = some 0 := by
  have hResult :
      sharedPageLoad.map
          (fun loaded =>
            (loaded.1, loaded.2.mem.byteAt 0x40000000)) =
        some (.Success, some 0) := by
    decide
  rcases Option.map_eq_some_iff.1 hResult with
    ⟨⟨result, run⟩, hLoad, hPair⟩
  rcases Prod.mk.inj hPair with ⟨hSuccess, hByte⟩
  dsimp only at hSuccess hByte
  rw [hSuccess] at hLoad
  exact ⟨run, hLoad, hByte⟩

/- The same segments, each in a host page of its own. -/
def ownPagesHeader : NsoHeader :=
  { sharedPageHeader with
    roMemOff := 0x4000
    dataMemOff := 0x8000 }

def ownPages : NsoBuffer where
  bytes :=
    Bytes.ofList
      ([0x4E, 0x53, 0x4F, 0x30] ++ List.replicate 12 0 ++
        [0x100, 0, 4, 0x104, 0x4000, 1, 0x105, 0x8000,
          0].flatMap Bytes.ofLong ++
        List.replicate 0xA8 0 ++
        [0x1F, 0x20, 0x03, 0xD5, 7])
      0
  size := 0x105
  size_lt := by decide

def ownPagesLoad : Option (Result × NsoRun) :=
  loadFromBuffer (fun _ _ => true) (fun _ => true) ownPages
    0x40000000 {} {}

theorem header_ownPages :
    parseHeader ownPages = some ownPagesHeader := by
  decide

theorem wellformed_ownPages :
    Wellformed ownPages ownPagesHeader where
  aligned := by decide
  inside := by decide
  disjoint := segs_pairwise (by decide) (by decide) (by decide)

theorem plain_ownPages : Plain ownPages ownPagesHeader := by
  intro seg hSeg _
  revert seg
  decide

theorem ownPages_loads :
    ∃ run, ownPagesLoad = some (.Success, run) := by
  have hResult :
      ownPagesLoad.map Prod.fst = some .Success := by
    decide
  rcases Option.map_eq_some_iff.1 hResult with
    ⟨⟨result, run⟩, hLoad, hSuccess⟩
  dsimp only at hSuccess
  rw [hSuccess] at hLoad
  exact ⟨run, hLoad⟩

theorem kept_ownPages (fixed : Bool × NativeExec) :
    Kept fixed ownPages 0x40000000 ownPagesHeader := by
  refine kept_of_apart (by decide) ?_
  intro before seg later hSegs
  unfold segs at hSegs
  rcases before with _ | ⟨s, _ | ⟨t, _ | ⟨u, before⟩⟩⟩
  · cases hSegs
    decide
  · cases hSegs
    decide
  · cases hSegs
    decide
  · injection hSegs with _ hSegs
    injection hSegs with _ hSegs
    injection hSegs with _ hSegs
    cases before <;> cases hSegs

theorem correct_iff_samples :
    (∃ run, sharedPageLoad = some (.Success, run) ∧
      (Correct
          (NativeExec.ensureFixedTls (fun _ => true) {})
          sharedPage 0x40000000 sharedPageHeader run ↔
        Kept (NativeExec.ensureFixedTls (fun _ => true) {})
          sharedPage 0x40000000 sharedPageHeader)) ∧
      ∃ run, ownPagesLoad = some (.Success, run) ∧
        Correct
          (NativeExec.ensureFixedTls (fun _ => true) {})
          ownPages 0x40000000 ownPagesHeader run := by
  constructor
  · rcases sharedPage_loads with ⟨run, hLoad, -⟩
    exact
      ⟨run, hLoad,
        correct_iff header_sharedPage wellformed_sharedPage
          plain_sharedPage hLoad⟩
  · rcases ownPages_loads with ⟨run, hLoad⟩
    refine ⟨run, hLoad, ?_⟩
    rw [correct_iff header_ownPages wellformed_ownPages
      plain_ownPages hLoad]
    exact kept_ownPages _

/- The code is zero once the data has been mapped. -/
theorem sharedPage_not_correct :
    ∃ run,
      parseHeader sharedPage = some sharedPageHeader ∧
        Wellformed sharedPage sharedPageHeader ∧
        sharedPageLoad = some (.Success, run) ∧
        ¬ Correct
            (NativeExec.ensureFixedTls (fun _ => true) {})
            sharedPage 0x40000000 sharedPageHeader run := by
  rcases sharedPage_loads with ⟨run, hLoad, hByte⟩
  refine
    ⟨run, header_sharedPage, wellformed_sharedPage, hLoad,
      fun hCorrect => ?_⟩
  have hContent :
      Content sharedPage (textSeg sharedPageHeader)
        [0x1F, 0x20, 0x03, 0xD5] :=
    ⟨rfl, Or.inl ⟨Or.inl rfl, by decide⟩⟩
  rcases hCorrect.segments (true, textSeg sharedPageHeader)
      List.mem_cons_self _ hContent 0 (by decide) with
    ⟨b, hFound, hAllowed⟩
  have hZero : b = 0 :=
    Option.some.inj (hFound.symm.trans hByte)
  rw [hZero] at hAllowed
  rcases hAllowed with hSame | ⟨-, -, hPatched⟩
  · exact absurd hSame (by decide)
  · exact absurd hPatched (by decide)

end NsoLoader

end M1Switch
