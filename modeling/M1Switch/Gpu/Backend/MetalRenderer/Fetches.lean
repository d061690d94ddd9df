import M1Switch.Gpu.Backend.MetalRenderer
import M1Switch.Gpu.Backend.MetalRenderer.Buffers

/-
  What a draw reads, and the buffers that are bound for it.

  The buffer of a vertex array is as long as the larger count
  of the draw asks for, from vertex 0 on; the index buffer is
  read from its start, in two bytes or in four.  Where a draw
  starts further on, or has indices of one byte, it reads
  something else.

  Key definitions include:
    * `BufferCache.Bound`
    * `MetalRenderer.Fetched`

  Main results:
    * `bound_iff`
    * `holdsVertex_iff`
    * `fetchesCovered_iff`
-/

------
-- Answers Of The Cache
------

namespace M1Switch

namespace BufferCache

open LruEviction
open MapTotals

variable {host : BufferHost} {address : U64} {minSize : U32}

/- What the cache of some run answers to a request. -/
def Answer
    (host : BufferHost)
    (address : U64)
    (minSize : U32)
    (answer : Option MTLBuffer) : Prop :=
  ∃ ops sorted,
    EventRun.Guarded step Admissible {} ops ∧
      answer =
        ((EventRun.stateAfter step {}
          ops).getOrCreateCachedBuffer host address minSize
            sorted).1

/- Whatever is answered is a buffer of `need` bytes. -/
def Bound
    (host : BufferHost)
    (address : U64)
    (minSize : U32)
    (need : Nat) : Prop :=
  ∀ answer, Answer host address minSize answer →
    ∃ buf, answer = some buf ∧ need ≤ buf.length.toNat

/- The cache promises what was asked for, and no more. -/
theorem bound_iff
    {need : Nat} :
    Bound host address minSize need ↔
      Supplies host address minSize ∧
        need ≤ minSize.toNat := by
  constructor
  · intro hBound
    have hFresh :=
      hBound _ ⟨[], [], EventRun.guarded_nil, rfl⟩
    rcases hFresh with ⟨buf, hBuf, hNeed⟩
    rw [EventRun.stateAfter_nil] at hBuf
    cases outcome {} host address minSize [] with
    | failed _ _ hNone =>
        rw [hNone] at hBuf
        cases hBuf
    | reused entry hFound => cases hFound
    | made hSupplies hOut =>
        rw [hOut] at hBuf
        cases hBuf
        exact ⟨hSupplies, hNeed⟩
  · rintro ⟨hSupplies, hNeed⟩ answer
      ⟨ops, sorted, hOrders, hAnswer⟩
    have hInv := inv_run ops hOrders
    rw [hAnswer]
    cases
      outcome (EventRun.stateAfter step {} ops) host address
        minSize sorted with
    | failed hNot => exact absurd hSupplies hNot
    | reused entry hFound hLarge hOut =>
        rw [hOut]
        refine ⟨entry.buffer, rfl, ?_⟩
        rw [← hInv.length address entry hFound]
        exact le_trans hNeed (BitVec.le_def.mp hLarge)
    | made _ hOut =>
        rw [hOut]
        exact ⟨_, rfl, hNeed⟩

/- Every entry wraps guest memory at its own address. -/
def Wraps (cache : BufferCache) : Prop :=
  ∀ k entry, cache.entries.lookup k = some entry →
    k ≠ 0 ∧ Memory.isValid k ∧ entry.buffer.address = k

theorem Wraps.of_lookup
    {cache after : BufferCache}
    (hWraps : Wraps cache)
    (hOld :
      ∀ k entry, after.entries.lookup k = some entry →
        cache.entries.lookup k = some entry) :
    Wraps after := by
  intro k entry hSome
  exact hWraps k entry (hOld k entry hSome)

theorem Wraps.inserted
    {cache : BufferCache}
    (hWraps : Wraps cache)
    (hSupplies : Supplies host address minSize) :
    Wraps (cache.inserted address minSize) := by
  intro k entry hSome
  rw [entries_inserted] at hSome
  rcases lookup_insert_cases hSome with ⟨hK, hE⟩ | ⟨_, hOld⟩
  · rw [hK, hE]
    exact ⟨hSupplies.nonzero, hSupplies.valid, rfl⟩
  · exact hWraps k entry (lookup_of_erase hOld)

/- An eviction only takes entries away. -/
theorem lookup_of_evictLRU
    {cache : BufferCache}
    {sorted : List U64}
    {k : U64}
    {entry : CachedBuffer}
    (hSome :
      (cache.evictLRU sorted).entries.lookup k = some entry) :
    cache.entries.lookup k = some entry := by
  unfold evictLRU at hSome
  split_ifs at hSome
  · exact hSome
  rw [entries_foldl_invalidate, lookup_eraseAll] at hSome
  split_ifs at hSome
  exact hSome

theorem Wraps.getOrCreate
    {cache : BufferCache}
    (hWraps : Wraps cache)
    (sorted : List U64) :
    Wraps
      (cache.getOrCreateCachedBuffer host address minSize
        sorted).2 := by
  cases outcome cache host address minSize sorted with
  | failed hNot hEntries hNone =>
      exact hWraps.of_lookup hEntries
  | reused entry hFound hLarge hOut =>
      rw [hOut]
      intro k e hSome
      rcases lookup_insert_cases hSome with
        ⟨hK, hE⟩ | ⟨_, hOld⟩
      · rw [hK, hE]
        exact hWraps address entry hFound
      · exact hWraps k e hOld
  | made hSupplies hOut =>
      rw [hOut]
      dsimp only
      split_ifs
      · exact (hWraps.inserted hSupplies).of_lookup
          (fun _ _ => lookup_of_evictLRU)
      · exact hWraps.inserted hSupplies

theorem wraps_run
    (ops : List BufferOp)
    (hOrders : EventRun.Guarded step Admissible {} ops) :
    Wraps (EventRun.stateAfter step {} ops) := by
  refine
    EventRun.Guarded.invariant
      (I := fun _ cache => Wraps cache)
      (fun _ _ hSome => nomatch hSome) ?_ hOrders
  intro _ op hWraps _
  cases op with
  | getOrCreate host address minSize sorted =>
      exact hWraps.getOrCreate sorted
  | invalidate address =>
      apply hWraps.of_lookup
      intro k entry hSome
      apply lookup_of_erase
      rw [← entries_invalidate]
      exact hSome
  | nextFrame => exact hWraps

/- What a buffer that is answered is like. -/
theorem Answer.of_some
    {buf : MTLBuffer}
    (hAnswer : Answer host address minSize (some buf)) :
    (address ≠ 0 ∧ Memory.isValid address) ∧
      buf.address = address ∧ minSize ≤ buf.length := by
  rcases hAnswer with ⟨ops, sorted, hOrders, hBuf⟩
  have hInv := inv_run ops hOrders
  have hWraps := wraps_run ops hOrders
  cases
    outcome (EventRun.stateAfter step {} ops) host address
      minSize sorted with
  | failed _ _ hNone =>
      rw [hNone] at hBuf
      cases hBuf
  | reused entry hFound hLarge hOut =>
      rw [hOut] at hBuf
      cases hBuf
      rcases hWraps address entry hFound with
        ⟨hNonzero, hValid, hAddress⟩
      rw [← hInv.length address entry hFound]
      exact ⟨⟨hNonzero, hValid⟩, hAddress, hLarge⟩
  | made hSupplies hOut =>
      rw [hOut] at hBuf
      cases hBuf
      exact
        ⟨⟨hSupplies.nonzero, hSupplies.valid⟩, rfl,
          BitVec.le_refl _⟩

theorem supplies_anyHost
    (hNonzero : address ≠ 0)
    (hValid : Memory.isValid address) :
    Supplies anyHost address minSize :=
  ⟨hNonzero, rfl, hValid, rfl⟩

/-
  For every guest address some run answers with a buffer as
  long as asked for: one that was made in an earlier frame.
-/
theorem exists_answer
    (host : BufferHost)
    (minSize : U32)
    (hNonzero : address ≠ 0)
    (hValid : Memory.isValid address) :
    ∃ buf, Answer host address minSize (some buf) ∧
      buf.length = minSize := by
  rcases exists_sorted
      (ages frameOf
        (inserted {} address minSize).entries) with
    ⟨rows, hPerm, hSorted⟩
  let op : BufferOp :=
    .getOrCreate anyHost address minSize (rows.map (·.1))
  have hOrders : EventRun.Guarded step Admissible {} [op] :=
    (EventRun.guarded_cons op).mpr
      ⟨⟨rows, ⟨hPerm, hSorted⟩, rfl⟩, EventRun.guarded_nil⟩
  have hCache :
      EventRun.stateAfter step {} [op] =
        inserted {} address minSize := by
    change
      (getOrCreateCachedBuffer {} anyHost address minSize
        (rows.map (·.1))).2 = _
    cases
      outcome {} anyHost address minSize (rows.map (·.1)) with
    | failed hNot =>
        exact absurd (supplies_anyHost hNonzero hValid) hNot
    | reused entry hFound => cases hFound
    | made _ hOut =>
        have hFew :
            ¬ (inserted {} address minSize).size >
              MAX_ENTRIES := by
          intro hOver
          have hFull :=
            ((overfull_iff (Nat.zero_le _)).mp hOver).2
          cases hFull
        rw [hOut, if_neg hFew]
  refine
    ⟨(newEntry {} address minSize).buffer,
      ⟨[op], [], hOrders, ?_⟩, rfl⟩
  rw [hCache]
  unfold getOrCreateCachedBuffer
  rw [if_neg hNonzero, lookup_inserted]
  have hLarge : minSize ≤ (newEntry {} address minSize).size :=
    BitVec.le_refl _
  simp only [if_pos hLarge]

end BufferCache

------
-- What Is Read
------

namespace MetalRenderer

open BufferCache

/- Bytes of an index, as the guest stores them. -/
def guestIndexSize (format : EnumCode) : Nat :=
  if format = IndexFormat.Uint8 then 1
  else if format = IndexFormat.Uint16 then 2
  else 4

/- Offsets and widths of the indices of a call. -/
def consumed
    (count : U32)
    (type : MTLIndexType) : List (Nat × Nat) :=
  (List.range count.toNat).map fun j =>
    (j * indexSize type, indexSize type)

/- Offsets and widths of the indices the guest draws. -/
def guestIndices (draw : PendingDraw) : List (Nat × Nat) :=
  (List.range draw.elementsCount.toNat).map fun j =>
    ((draw.elementsFirst.toNat + j) *
        guestIndexSize draw.indexFormat,
      guestIndexSize draw.indexFormat)

/- A little-endian number in guest memory. -/
def readIndex (mem : Memory) (start width : Nat) : Nat :=
  ((List.range width).map fun i =>
    (mem.bytes (start + i)).toNat * 256 ^ i).sum

/- The largest index starts a new strip; it is no vertex. -/
def Restarts
    (prim : MTLPrimitiveType)
    (width value : Nat) : Prop :=
  (prim = .LineStrip ∨ prim = .TriangleStrip) ∧
    value + 1 = 256 ^ width

/-
  The value is one of the first `count` indices.  Without guest
  memory a buffer may hold any.
-/
def Indexed
    (host : BufferHost)
    (prim : MTLPrimitiveType)
    (address : U64)
    (count width value : Nat) : Prop :=
  ∃ mem j,
    (∀ guest, host.memory = some guest → mem = guest) ∧
      j < count ∧
      value = readIndex mem (address.toNat + j * width) width ∧
        ¬ Restarts prim width value

/- The vertices a draw call fetches. -/
def Fetched (host : BufferHost) : DrawCall → Nat → Prop
| .arrays _ first count, v =>
    first.toNat ≤ v ∧ v < first.toNat + count.toNat
| .indexed prim count type buf, v =>
    Indexed host prim buf.address count.toNat (indexSize type) v

/-
  The vertex lies in the buffer bound for an array, whose
  length was computed without overflow.
-/
def HoldsVertex
    (host : BufferHost)
    (s : GpuState3D)
    (draw : PendingDraw)
    (i : Fin 16)
    (stride : U32)
    (v : Nat) : Prop :=
  stride.toNat * (vertexCount draw).toNat < 2 ^ 32 ∧
    ∃ b ∈ vertexBindings s (vertexCount draw),
      b.slot = i ∧
        Bound host b.address b.size (stride.toNat * (v + 1))

/- The guest's indices are read, from a buffer of them all. -/
def IndicesCovered (draw : PendingDraw) : DrawCall → Prop
| .arrays _ _ _ => True
| .indexed _ count type buf =>
    buf.address = draw.indexAddr ∧
      consumed count type = guestIndices draw ∧
        count.toNat * indexSize type ≤ buf.length.toNat

/-
  Every read of a draw is one the guest asked for, whatever the
  cache answers to the request for an index buffer.
-/
def FetchesCovered
    (host : BufferHost)
    (s : GpuState3D)
    (draw : PendingDraw) : Prop :=
  ∀ idxBuf call,
    Answer host draw.indexAddr (indexBufferSize draw) idxBuf →
      issueDraw idxBuf draw = some call →
    IndicesCovered draw call ∧
      ∀ i stride v,
        vertexLayout (s.vertexArrays i) =
            some ⟨stride, .PerVertex⟩ →
          Fetched host call v →
            HoldsVertex host s draw i stride v

------
-- When It Is Covered
------

/- The array is read once for each vertex. -/
def PerVertex (va : VertexArrayState) : Prop :=
  va.enabled ∧ va.stride ≠ 0 ∧ va.divisor = 0

/- The larger count of a draw. -/
def mostVertices (draw : PendingDraw) : Nat :=
  max draw.arraysCount.toNat draw.indexCount.toNat

/- A buffer of the larger count can be made for an array. -/
structure Fits
    (host : BufferHost)
    (draw : PendingDraw)
    (va : VertexArrayState) : Prop where
  noWrap : va.stride.toNat * mostVertices draw < 2 ^ 32
  supplied :
    Supplies host va.address
      (BitVec.ofNat 32 (va.stride.toNat * mostVertices draw))

/- The condition for a draw of vertices in a row. -/
def ArraysCovered
    (host : BufferHost)
    (s : GpuState3D)
    (draw : PendingDraw) : Prop :=
  ∀ i, PerVertex (s.vertexArrays i) →
    Fits host draw (s.vertexArrays i) ∧
      draw.arraysFirst.toNat + draw.arraysCount.toNat ≤
        mostVertices draw

/- The condition for a draw of indexed vertices that is made. -/
structure ElementsCovered
    (host : BufferHost)
    (s : GpuState3D)
    (draw : PendingDraw) : Prop where
  count : draw.indexCount = draw.elementsCount
  first : draw.elementsFirst = 0
  format : draw.indexFormat ≠ IndexFormat.Uint8
  noWrap :
    draw.indexCount.toNat * guestIndexSize draw.indexFormat <
      2 ^ 32
  vertices :
    ∀ i v, PerVertex (s.vertexArrays i) →
      Indexed host (toMetalPrimitive draw.primitiveType)
          draw.indexAddr draw.indexCount.toNat
          (guestIndexSize draw.indexFormat) v →
        Fits host draw (s.vertexArrays i) ∧
          v < mostVertices draw

/-
  The condition for a draw.  Indices behind the guest's address
  space are never drawn.
-/
def Covered
    (host : BufferHost)
    (s : GpuState3D)
    (draw : PendingDraw) : Prop :=
  (draw.indexCount ≠ 0 ∧ draw.indexAddr ≠ 0 ∧
      Memory.isValid draw.indexAddr →
    ElementsCovered host s draw) ∧
  (draw.arraysCount ≠ 0 ∧
      (draw.indexCount = 0 ∨ draw.indexAddr = 0) →
    ArraysCovered host s draw)

------
-- Arrays
------

variable {host : BufferHost} {s : GpuState3D}
variable {draw : PendingDraw}

theorem vertexLayout_eq_some_iff
    {va : VertexArrayState}
    {stride : U32} :
    vertexLayout va = some ⟨stride, .PerVertex⟩ ↔
      PerVertex va ∧ stride = va.stride := by
  have hActive :
      arrayActive va ↔ va.enabled ∧ va.stride ≠ 0 := by
    simp [arrayActive]
  unfold vertexLayout PerVertex
  by_cases hBoth : arrayActive va
  · rcases hActive.mp hBoth with ⟨hEnabled, hStride⟩
    rw [if_pos hBoth]
    by_cases hDivisor : va.divisor = 0
    · rw [if_neg (not_not_intro hDivisor)]
      constructor
      · intro hSome
        cases hSome
        exact ⟨⟨hEnabled, hStride, hDivisor⟩, rfl⟩
      · rintro ⟨_, hEq⟩
        rw [hEq]
    · rw [if_pos hDivisor]
      constructor
      · intro hSome
        cases hSome
      · rintro ⟨⟨_, _, hZero⟩, _⟩
        exact absurd hZero hDivisor
  · rw [if_neg hBoth]
    constructor
    · intro hSome
      cases hSome
    · rintro ⟨⟨hEnabled, hStride, _⟩, _⟩
      exact absurd (hActive.mpr ⟨hEnabled, hStride⟩) hBoth

theorem toNat_vertexCount (draw : PendingDraw) :
    (vertexCount draw).toNat = mostVertices draw := by
  unfold vertexCount mostVertices
  split_ifs with hLess
  · have hNat := BitVec.lt_def.mp hLess
    omega
  · have hNat := mt BitVec.lt_def.mpr hLess
    omega

/- The requests of a draw with vertices. -/
theorem mem_vertexBindings_iff
    {b : VertexBinding}
    (hSome : 0 < mostVertices draw) :
    b ∈ vertexBindings s (vertexCount draw) ↔
      (s.vertexArrays b.slot).enabled ∧
        (s.vertexArrays b.slot).address ≠ 0 ∧
          (s.vertexArrays b.slot).stride ≠ 0 ∧
            b.address = (s.vertexArrays b.slot).address ∧
              b.size =
                bufferSize (s.vertexArrays b.slot).stride
                  (vertexCount draw) := by
  have hCount : vertexCount draw ≠ 0 := by
    intro hZero
    rw [← toNat_vertexCount, hZero] at hSome
    exact absurd hSome (by decide)
  unfold vertexBindings
  simp only [if_neg hCount, List.mem_filterMap,
    List.mem_finRange, true_and, Option.ite_none_right_eq_some,
    Option.some.injEq]
  constructor
  · rintro ⟨i, ⟨hEnabled, hAddress, hStride⟩, hB⟩
    cases hB
    exact ⟨hEnabled, hAddress, hStride, rfl, rfl⟩
  · rintro ⟨hEnabled, hAddress, hStride, hEqA, hEqS⟩
    refine ⟨b.slot, ⟨hEnabled, hAddress, hStride⟩, ?_⟩
    rw [← hEqA, ← hEqS]

/- A product that does not wrap is the size asked for. -/
theorem bufferSize_of_lt
    {stride : U32}
    (hStride : stride ≠ 0)
    (hSome : 0 < mostVertices draw)
    (hNoWrap : stride.toNat * mostVertices draw < 2 ^ 32) :
    bufferSize stride (vertexCount draw) =
      BitVec.ofNat 32 (stride.toNat * mostVertices draw) := by
  have hProduct :
      stride * vertexCount draw =
        BitVec.ofNat 32 (stride.toNat * mostVertices draw) := by
    apply BitVec.eq_of_toNat_eq
    rw [BitVec.toNat_mul, toNat_vertexCount, BitVec.toNat_ofNat]
  have hPos : 0 < stride.toNat := by
    rcases Nat.eq_zero_or_pos stride.toNat with hZero | hPos
    · exact absurd (BitVec.eq_of_toNat_eq hZero) hStride
    · exact hPos
  have hNonzero : stride * vertexCount draw ≠ 0 := by
    intro hZero
    have hNat := congrArg BitVec.toNat hZero
    rw [hProduct, BitVec.toNat_ofNat, Nat.mod_eq_of_lt hNoWrap]
      at hNat
    have hMul := Nat.mul_pos hPos hSome
    change _ = 0 at hNat
    omega
  unfold bufferSize
  dsimp only
  rw [if_neg hNonzero, hProduct]

/- When the buffer of an array holds a vertex. -/
theorem holdsVertex_iff
    {i : Fin 16}
    {v : Nat}
    (hSome : 0 < mostVertices draw)
    (hArray : PerVertex (s.vertexArrays i)) :
    HoldsVertex host s draw i (s.vertexArrays i).stride v ↔
      Fits host draw (s.vertexArrays i) ∧
        v < mostVertices draw := by
  rcases hArray with ⟨hEnabled, hStride, _⟩
  unfold HoldsVertex
  rw [toNat_vertexCount]
  have hInside :
      ∀ n, (s.vertexArrays i).stride.toNat * n < 2 ^ 32 →
        ((s.vertexArrays i).stride.toNat * (v + 1) ≤
            (BitVec.ofNat 32
              ((s.vertexArrays i).stride.toNat * n)).toNat ↔
          v < n) := by
    intro n hNoWrap
    have hPos : 0 < (s.vertexArrays i).stride.toNat := by
      rcases Nat.eq_zero_or_pos
        (s.vertexArrays i).stride.toNat with hZero | hPos
      · exact absurd (BitVec.eq_of_toNat_eq hZero) hStride
      · exact hPos
    rw [BitVec.toNat_ofNat, Nat.mod_eq_of_lt hNoWrap,
      Nat.mul_le_mul_left_iff hPos]
    exact Nat.succ_le_iff
  constructor
  · rintro ⟨hNoWrap, b, hB, hSlot, hBound⟩
    rcases (mem_vertexBindings_iff hSome).mp hB with
      ⟨_, _, _, hAddress, hSize⟩
    rw [hSlot] at hAddress hSize
    rw [hAddress, hSize,
      bufferSize_of_lt hStride hSome hNoWrap, bound_iff,
      hInside _ hNoWrap] at hBound
    exact ⟨⟨hNoWrap, hBound.1⟩, hBound.2⟩
  · rintro ⟨⟨hNoWrap, hSupplied⟩, hLt⟩
    refine ⟨hNoWrap,
      ⟨i, (s.vertexArrays i).address,
        bufferSize (s.vertexArrays i).stride
          (vertexCount draw)⟩, ?_, rfl, ?_⟩
    · exact (mem_vertexBindings_iff hSome).mpr
        ⟨hEnabled, hSupplied.nonzero, hStride, rfl, rfl⟩
    · rw [bufferSize_of_lt hStride hSome hNoWrap, bound_iff,
        hInside _ hNoWrap]
      exact ⟨hSupplied, hLt⟩

------
-- Indices
------

theorem indexSize_pos (type : MTLIndexType) :
    0 < indexSize type := by
  cases type <;> decide

theorem indexSize_eq_iff (format : EnumCode) :
    indexSize (indexTypeOf format) = guestIndexSize format ↔
      format ≠ IndexFormat.Uint8 := by
  unfold indexTypeOf guestIndexSize
  by_cases hByte : format = IndexFormat.Uint8
  · rw [hByte]
    decide
  · rw [if_neg hByte]
    split_ifs <;> simp [indexSize, hByte]

/- What is read is what the guest draws. -/
theorem consumed_eq_iff
    (hCount : draw.indexCount ≠ 0) :
    consumed draw.indexCount (indexTypeOf draw.indexFormat) =
        guestIndices draw ↔
      draw.indexCount = draw.elementsCount ∧
        draw.elementsFirst = 0 ∧
          draw.indexFormat ≠ IndexFormat.Uint8 := by
  have hPos : 0 < draw.indexCount.toNat := by
    rcases Nat.eq_zero_or_pos draw.indexCount.toNat with
      hZero | hPos
    · exact absurd (BitVec.eq_of_toNat_eq hZero) hCount
    · exact hPos
  rw [← indexSize_eq_iff]
  constructor
  · intro hSame
    have hLength := congrArg List.length hSame
    unfold consumed guestIndices at hSame hLength
    rw [List.length_map, List.length_map, List.length_range,
      List.length_range] at hLength
    have hHead := congrArg (fun l => l[0]?) hSame
    rw [List.getElem?_map, List.getElem?_map,
      List.getElem?_range hPos,
      List.getElem?_range (by omega)] at hHead
    simp only [Option.map_some, Option.some.injEq,
      Prod.mk.injEq, Nat.zero_mul, Nat.add_zero] at hHead
    have hSize :=
      indexSize_pos (indexTypeOf draw.indexFormat)
    refine ⟨BitVec.eq_of_toNat_eq hLength, ?_, hHead.2⟩
    rcases Nat.mul_eq_zero.mp hHead.1.symm with hFirst | hNone
    · exact BitVec.eq_of_toNat_eq hFirst
    · omega
  · rintro ⟨hSame, hFirst, hSize⟩
    unfold consumed guestIndices
    rw [hSame, hFirst, hSize]
    apply List.map_congr_left
    intro j _
    have hZero : (0 : U32).toNat = 0 := rfl
    rw [hZero, Nat.zero_add]

theorem issueDraw_indexed
    (idxBuf : Option MTLBuffer)
    (hCount : draw.indexCount ≠ 0)
    (hAddress : draw.indexAddr ≠ 0) :
    issueDraw idxBuf draw =
      idxBuf.map fun buf =>
        .indexed (toMetalPrimitive draw.primitiveType)
          draw.indexCount (indexTypeOf draw.indexFormat) buf := by
  unfold issueDraw
  dsimp only
  rw [if_neg (fun hNone => hCount hNone.2),
    if_pos ⟨hCount, hAddress⟩]

/- No buffer is asked for where there are no indices. -/
theorem issueDraw_unindexed
    (idxBuf : Option MTLBuffer)
    (hNot : draw.indexCount = 0 ∨ draw.indexAddr = 0) :
    issueDraw idxBuf draw =
      if draw.arraysCount ≠ 0 then
        some (.arrays (toMetalPrimitive draw.primitiveType)
          draw.arraysFirst draw.arraysCount)
      else none := by
  have hIndexed :
      ¬ (draw.indexCount ≠ 0 ∧ draw.indexAddr ≠ 0) := by
    rintro ⟨hIndex, hAddress⟩
    rcases hNot with hZero | hZero
    · exact hIndex hZero
    · exact hAddress hZero
  unfold issueDraw
  dsimp only
  rw [if_neg hIndexed]
  by_cases hCount : draw.arraysCount = 0
  · rw [if_neg (not_not_intro hCount), ite_self]
  · rw [if_neg (fun hNone => hCount hNone.1), if_pos hCount]

------
-- Draws
------

theorem mostVertices_pos
    (hSome : draw.arraysCount ≠ 0 ∨ draw.indexCount ≠ 0) :
    0 < mostVertices draw := by
  unfold mostVertices
  by_contra hNone
  have hArrays : draw.arraysCount.toNat = 0 := by omega
  have hIndex : draw.indexCount.toNat = 0 := by omega
  rcases hSome with hCount | hCount
  · exact hCount (BitVec.eq_of_toNat_eq hArrays)
  · exact hCount (BitVec.eq_of_toNat_eq hIndex)

/- A fresh cache gives an answer. -/
theorem exists_answers
    (host : BufferHost)
    (address : U64)
    (minSize : U32) :
    ∃ idxBuf, Answer host address minSize idxBuf :=
  ⟨_, [], [], EventRun.guarded_nil, rfl⟩

/- A draw of vertices in a row. -/
theorem fetchesCovered_arrays_iff
    (hCount : draw.arraysCount ≠ 0)
    (hNot : draw.indexCount = 0 ∨ draw.indexAddr = 0) :
    FetchesCovered host s draw ↔ ArraysCovered host s draw := by
  have hSome := mostVertices_pos (Or.inl hCount)
  have hPos : 0 < draw.arraysCount.toNat := by
    rcases Nat.eq_zero_or_pos draw.arraysCount.toNat with
      hZero | hPos
    · exact absurd (BitVec.eq_of_toNat_eq hZero) hCount
    · exact hPos
  unfold FetchesCovered
  simp only [issueDraw_unindexed _ hNot, if_pos hCount]
  constructor
  · intro hAll i hArray
    rcases exists_answers host draw.indexAddr
      (indexBufferSize draw) with ⟨idxBuf, hAnswer⟩
    have hLayout :=
      vertexLayout_eq_some_iff.mpr ⟨hArray, rfl⟩
    -- The last vertex is the farthest.
    have hLast :=
      (hAll _ _ hAnswer rfl).2 i _
        (draw.arraysFirst.toNat + draw.arraysCount.toNat - 1)
        hLayout ⟨by omega, by omega⟩
    rw [holdsVertex_iff hSome hArray] at hLast
    exact ⟨hLast.1, by omega⟩
  · intro hAll _ call _ hCall
    cases hCall
    refine ⟨trivial, ?_⟩
    intro i stride v hLayout hFetched
    rcases vertexLayout_eq_some_iff.mp hLayout with
      ⟨hArray, hStride⟩
    rcases hAll i hArray with ⟨hFits, hEnd⟩
    have hLt : v < _ := hFetched.2
    rw [hStride, holdsVertex_iff hSome hArray]
    exact ⟨hFits, by omega⟩

/- A draw of indexed vertices, with a buffer as asked for. -/
theorem elementsCovered_of_fetches
    (hCount : draw.indexCount ≠ 0)
    (hAddress : draw.indexAddr ≠ 0)
    (hValid : Memory.isValid draw.indexAddr)
    (hAll : FetchesCovered host s draw) :
    ElementsCovered host s draw := by
  have hSome := mostVertices_pos (Or.inr hCount)
  rcases exists_answer host (indexBufferSize draw) hAddress
    hValid with ⟨buf, hAnswer, hLength⟩
  have hIssued := issueDraw_indexed (some buf) hCount hAddress
  rcases hAll _ _ hAnswer hIssued with
    ⟨⟨hAt, hConsumed, hHeld⟩, hVertices⟩
  rcases (consumed_eq_iff hCount).mp hConsumed with
    ⟨hSame, hFirst, hFormat⟩
  have hSize := (indexSize_eq_iff _).mpr hFormat
  refine ⟨hSame, hFirst, hFormat, ?_, ?_⟩
  · rw [hLength] at hHeld
    unfold indexBufferSize at hHeld
    rw [hSize, BitVec.toNat_ofNat] at hHeld
    have hMod :=
      Nat.mod_lt
        (draw.indexCount.toNat *
          guestIndexSize draw.indexFormat)
        (show 0 < 2 ^ 32 by decide)
    omega
  · intro i v hArray hIndexed
    have hLayout :=
      vertexLayout_eq_some_iff.mpr ⟨hArray, rfl⟩
    rw [← holdsVertex_iff hSome hArray]
    apply hVertices i _ v hLayout
    change
      Indexed host _ _ _
        (indexSize (indexTypeOf draw.indexFormat)) v
    rw [hSize, hAt]
    exact hIndexed

theorem fetchesCovered_of_elements
    (hCount : draw.indexCount ≠ 0)
    (hAddress : draw.indexAddr ≠ 0)
    (hAll :
      Memory.isValid draw.indexAddr →
        ElementsCovered host s draw) :
    FetchesCovered host s draw := by
  have hSome := mostVertices_pos (Or.inr hCount)
  intro idxBuf call hAnswer hCall
  rw [issueDraw_indexed idxBuf hCount hAddress] at hCall
  rcases Option.map_eq_some_iff.mp hCall with ⟨buf, hBuf, rfl⟩
  rw [hBuf] at hAnswer
  rcases hAnswer.of_some with ⟨⟨_, hValid⟩, hAt, hLength⟩
  have hElements := hAll hValid
  have hSize := (indexSize_eq_iff _).mpr hElements.format
  refine ⟨⟨hAt, ?_, ?_⟩, ?_⟩
  · exact (consumed_eq_iff hCount).mpr
      ⟨hElements.count, hElements.first, hElements.format⟩
  · have hAsked := BitVec.le_def.mp hLength
    unfold indexBufferSize at hAsked
    rw [hSize, BitVec.toNat_ofNat,
      Nat.mod_eq_of_lt hElements.noWrap] at hAsked
    rw [hSize]
    exact hAsked
  · intro i stride v hLayout hFetched
    rcases vertexLayout_eq_some_iff.mp hLayout with
      ⟨hArray, hStride⟩
    change
      Indexed host _ buf.address _
        (indexSize (indexTypeOf draw.indexFormat)) v
        at hFetched
    rw [hSize, hAt] at hFetched
    rw [hStride, holdsVertex_iff hSome hArray]
    exact hElements.vertices i v hArray hFetched

/-
  A draw reads what it was asked to, from buffers that hold
  it, exactly under the condition of its kind.
-/
theorem fetchesCovered_iff
    (host : BufferHost)
    (s : GpuState3D)
    (draw : PendingDraw) :
    FetchesCovered host s draw ↔ Covered host s draw := by
  unfold Covered
  by_cases hIndexed :
      draw.indexCount ≠ 0 ∧ draw.indexAddr ≠ 0
  · rcases hIndexed with ⟨hCount, hAddress⟩
    have hNot :
        ¬ (draw.indexCount = 0 ∨ draw.indexAddr = 0) := by
      rintro (hZero | hZero)
      · exact hCount hZero
      · exact hAddress hZero
    constructor
    · intro hAll
      refine ⟨?_, fun hBoth => absurd hBoth.2 hNot⟩
      rintro ⟨_, _, hValid⟩
      exact
        elementsCovered_of_fetches hCount hAddress hValid hAll
    · intro hBoth
      apply fetchesCovered_of_elements hCount hAddress
      intro hValid
      exact hBoth.1 ⟨hCount, hAddress, hValid⟩
  · have hNot :
        draw.indexCount = 0 ∨ draw.indexAddr = 0 := by
      by_contra hBoth
      exact hIndexed (not_or.mp hBoth)
    have hUnasked :
        ¬ (draw.indexCount ≠ 0 ∧ draw.indexAddr ≠ 0 ∧
          Memory.isValid draw.indexAddr) :=
      fun hAsked => hIndexed ⟨hAsked.1, hAsked.2.1⟩
    by_cases hArrays : draw.arraysCount = 0
    · constructor
      · intro _
        exact
          ⟨fun hAsked => absurd hAsked hUnasked,
            fun hBoth => absurd hArrays hBoth.1⟩
      · intro _ idxBuf call _ hCall
        rw [issueDraw_unindexed idxBuf hNot,
          if_neg (not_not_intro hArrays)] at hCall
        cases hCall
    · rw [fetchesCovered_arrays_iff hArrays hNot]
      constructor
      · intro hAll
        exact
          ⟨fun hAsked => absurd hAsked hUnasked,
            fun _ => hAll⟩
      · exact fun hBoth => hBoth.2 ⟨hArrays, hNot⟩

/- Three vertices, the second one first. -/
def laterVertices : PendingDraw :=
  { primitiveType := PrimitiveType.Triangles
    arraysFirst := 1
    arraysCount := 3
    elementsFirst := 0
    elementsCount := 0
    indexAddr := 0
    indexFormat := IndexFormat.Uint16
    indexCount := 0
    pipelineKey := 0 }

/- An array of vertices of sixteen bytes. -/
def oneArray : GpuState3D :=
  { vertexArrays := Function.update (fun _ => {}) 0
      { address := 0x10000, stride := 16, enabled := true } }

/- The fourth vertex lies behind the buffer of three. -/
theorem laterVertices_not_covered :
    ¬ FetchesCovered anyHost oneArray laterVertices := by
  intro hCovered
  have hArrays :=
    (fetchesCovered_arrays_iff (by decide) (by decide)).mp
      hCovered
  have hBoth := hArrays 0 ⟨rfl, by decide, rfl⟩
  exact absurd hBoth.2 (by decide)

end MetalRenderer

end M1Switch
