import M1Switch.Memory.Regions

/-
  Resizing the heap.

  A larger heap is mapped anew, over the pages of the old one;
  of a smaller one the tail is unmapped, by whole pages of the
  host.  So what was in the heap is lost whenever it grows, and
  its last host page may go with the tail when it shrinks.  The
  guest is told of success in every case.

  Key definitions include:
    * `GuestMemory.HeapFits`
    * `svcSetHeapSize`

  Main results:
    * `heapFits_stateAfter`
    * `heapResized_iff`
-/

------
-- Heap Calls
------

namespace M1Switch

/- The registers of a heap request: its size, and what it is
answered with. -/
structure HeapRegisters where
  x0 : U64
  x1 : U64
deriving DecidableEq

namespace GuestMemory

open HostMemory (PAGE_SIZE baseAddr)

/- The address returned is one of the host. -/
def svcSetHeapSize
    (g_mem : Option GuestMemory)
    (state : HeapRegisters)
    (hostUnmaps hostMaps hostRemaps : Bool) :
    Option GuestMemory × HeapRegisters :=
  match g_mem with
  | some m =>
      if state.x0 > 0 then
        let (_, m) :=
          m.setHeapSize state.x0 hostUnmaps hostMaps hostRemaps
        (some m,
          { x0 := 0
            x1 := baseAddr + m.heapAddr })
      else (some m, { state with x0 := 0 })
  | none => (none, { state with x0 := 0 })

/- What the guest has at an offset into its heap. -/
def heapByte (m : GuestMemory) (a : Nat) : Option U8 :=
  m.host.guestByte (HEAP_BASE.toNat + a)

/- The heap lies where it should and is not too large. -/
structure HeapFits (m : GuestMemory) : Prop where
  based : m.heapAddr = HEAP_BASE
  aligned : 0x1000 ∣ m.heapSize.toNat
  bounded : m.heapSize.toNat ≤ 0x40000000

/- A size in bytes, rounded up to pages of the guest. -/
def heapBytes (size : U64) : Nat :=
  (size.toNat + 0xfff) / 0x1000 * 0x1000

/-
  What resizing a heap promises: too large a size is refused,
  success gives the heap asked for with what there was in it,
  failure leaves the old one, and the guest learns which of
  the two it was.
-/
structure HeapResized
    (m : GuestMemory)
    (size : U64)
    (hostUnmaps hostMaps hostRemaps : Bool) : Prop where
  refused :
    size > 0x40000000 →
      (m.setHeapSize size hostUnmaps hostMaps hostRemaps).1 ≠
          .Success ∧
        (m.setHeapSize size hostUnmaps hostMaps hostRemaps).2 =
          m
  resized :
    size ≤ 0x40000000 →
      (m.setHeapSize size hostUnmaps hostMaps hostRemaps).1 =
          .Success →
        let m' :=
          (m.setHeapSize size hostUnmaps hostMaps hostRemaps).2
        m'.heapAddr = HEAP_BASE ∧
          m'.heapSize.toNat = heapBytes size ∧
          ∀ a, m.heapSize.toNat ≤ a → a < heapBytes size →
            (m'.heapByte a).isSome
  kept :
    size ≤ 0x40000000 →
      (m.setHeapSize size hostUnmaps hostMaps hostRemaps).1 =
          .Success →
        ∀ a, a < m.heapSize.toNat → a < heapBytes size →
          (m.setHeapSize size hostUnmaps hostMaps
              hostRemaps).2.heapByte a =
            m.heapByte a
  restored :
    size ≤ 0x40000000 →
      (m.setHeapSize size hostUnmaps hostMaps hostRemaps).1 ≠
          .Success →
        let m' :=
          (m.setHeapSize size hostUnmaps hostMaps hostRemaps).2
        m'.heapAddr = m.heapAddr ∧ m'.heapSize = m.heapSize ∧
          ∀ a, a < m.heapSize.toNat →
            m'.heapByte a = m.heapByte a
  reported :
    ∀ x1,
      (svcSetHeapSize (some m) { x0 := size, x1 := x1 }
          hostUnmaps hostMaps hostRemaps).2.x0 ≠ 0 ↔
        (m.setHeapSize size hostUnmaps hostMaps hostRemaps).1 ≠
          .Success

------
-- The Heap in Every State
------

open HostMemory (PAGE_SIZE)

variable {m : GuestMemory} {address size : U64}
variable {perm : Permission} {data : Option (Nat → U8)}
variable {hostUnmaps hostMaps hostRemaps : Bool}

/- A mapping does not say where the heap is. -/
theorem mapPhysical_heap :
    (m.mapPhysical address size perm data hostMaps).2.heapAddr =
        m.heapAddr ∧
      (m.mapPhysical address size perm data
          hostMaps).2.heapSize = m.heapSize := by
  unfold mapPhysical
  split <;> exact ⟨rfl, rfl⟩

theorem unmapPhysical_heap :
    (m.unmapPhysical address size hostUnmaps).2.heapAddr =
        m.heapAddr ∧
      (m.unmapPhysical address size hostUnmaps).2.heapSize =
        m.heapSize := by
  unfold unmapPhysical
  split <;> exact ⟨rfl, rfl⟩

theorem releaseHeap_heap :
    (m.releaseHeap hostUnmaps).heapAddr = m.heapAddr ∧
      (m.releaseHeap hostUnmaps).heapSize = m.heapSize := by
  unfold releaseHeap
  split
  · exact unmapPhysical_heap
  · exact ⟨rfl, rfl⟩

/- Fitting is about where the heap is alone. -/
theorem HeapFits.congr
    {m' : GuestMemory}
    (hFits : m.HeapFits)
    (hHeap :
      m'.heapAddr = m.heapAddr ∧ m'.heapSize = m.heapSize) :
    m'.HeapFits := by
  rcases hHeap with ⟨hAddr, hSize⟩
  refine ⟨?_, ?_, ?_⟩
  · rw [hAddr]
    exact hFits.based
  · rw [hSize]
    exact hFits.aligned
  · rw [hSize]
    exact hFits.bounded

theorem dvd_alignUp (size : U64) :
    0x1000 ∣ (alignUp size PAGE_SIZE).toNat :=
  (isAligned_iff (by decide : 12 < 64) _).mp
    (isAligned_alignUp size)

/- A heap that has been resized. -/
theorem heapFits_of_alignUp
    (hBase : m.heapAddr = HEAP_BASE)
    (hSize : m.heapSize = alignUp size PAGE_SIZE)
    (hSmall : ¬ alignUp size PAGE_SIZE > 0x40000000) :
    m.HeapFits := by
  refine ⟨hBase, ?_, ?_⟩
  · rw [hSize]
    exact dvd_alignUp size
  · rw [hSize]
    exact BitVec.not_lt.mp hSmall

theorem heapFits_setHeapSize
    (hFits : m.HeapFits) :
    (m.setHeapSize size hostUnmaps hostMaps
      hostRemaps).2.HeapFits := by
  unfold setHeapSize
  simp only
  split
  · exact hFits
  · next hSmall =>
      split
      · exact hFits
      · split
        · split
          · apply hFits.congr
            split
            · rw [mapPhysical_heap.1, mapPhysical_heap.2,
                mapPhysical_heap.1, mapPhysical_heap.2]
              exact releaseHeap_heap
            · rw [mapPhysical_heap.1, mapPhysical_heap.2]
              exact releaseHeap_heap
          · exact heapFits_of_alignUp rfl rfl hSmall
        · exact heapFits_of_alignUp rfl rfl hSmall

/- Nor does setting up the stack. -/
theorem mapStack_heap :
    (m.mapStack address size hostMaps).2.heapAddr =
        m.heapAddr ∧
      (m.mapStack address size hostMaps).2.heapSize =
        m.heapSize := by
  have hMap :=
    @mapPhysical_heap m address size .RW none hostMaps
  unfold mapStack
  split
  · next hEq =>
      rw [hEq] at hMap
      exact hMap
  · next hEq =>
      rw [hEq] at hMap
      exact hMap

theorem heapFits_step
    {c : Call}
    (hFits : m.HeapFits) :
    (m.step c).HeapFits := by
  unfold step
  cases c with
  | MapPhysical => exact hFits.congr mapPhysical_heap
  | UnmapPhysical => exact hFits.congr unmapPhysical_heap
  | SetHeapSize => exact heapFits_setHeapSize hFits
  | SetupStack => exact hFits.congr mapStack_heap

/- Whatever has been called, the heap fits. -/
theorem heapFits_stateAfter (calls : List Call) :
    (EventRun.stateAfter step {} calls).HeapFits := by
  have hStart : HeapFits {} := ⟨rfl, ⟨0, rfl⟩, by decide⟩
  exact
    EventRun.invariant hStart
      (fun _ _ hFits => heapFits_step hFits) calls

------
-- What Each Path Leaves
------

open HostMemory (PAGE_SIZE firstPage pageBytes)

theorem mapPhysical_host
    {data : Option (Nat → U8)} :
    (m.mapPhysical address size perm data hostMaps).2.host =
      (m.host.mapPhysical address size perm data
        hostMaps).2 := by
  unfold mapPhysical
  split
  · next hEq => rw [hEq]
  · next hEq => rw [hEq]

theorem unmapPhysical_host :
    (m.unmapPhysical address size hostUnmaps).2.host =
      (m.host.unmapPhysical address size hostUnmaps).2 := by
  unfold unmapPhysical
  split
  · next hEq => rw [hEq]
  · next hEq => rw [hEq]

/- Unmapping releases the pages of the host that are touched. -/
theorem unmapPhysical_guestByte
    (m : GuestMemory)
    (hostUnmaps : Bool)
    (hAligned : isAligned address PAGE_SIZE = true)
    (hSome : size ≠ 0)
    (hAddress : address.toNat < 2 ^ 33)
    (hSize : size.toNat < 2 ^ 33)
    (a : Nat) :
    (m.unmapPhysical address size
        hostUnmaps).2.host.guestByte a =
      if hostUnmaps = true ∧ firstPage address.toNat ≤ a ∧
          a < firstPage address.toNat +
            pageBytes address.toNat size.toNat then none
      else m.host.guestByte a := by
  have hTaken := HostMemory.hostAccepts_pages hAddress hSize
  have hIn := HostMemory.mem_pages_iff hAddress hSize
  rw [unmapPhysical_host, HostMemory.unmapPhysical,
    if_neg (by simp [hAligned])]
  cases hostUnmaps with
  | true =>
      simp only [if_true, if_neg hSome, HostMemory.guestByte,
        HostMemory.deallocate, hTaken, hIn, true_and]
  | false => simp

/- A small size is rounded up without running over. -/
theorem toNat_alignUp_size
    (hSmall : size ≤ 0x40000000) :
    (alignUp size PAGE_SIZE).toNat = heapBytes size := by
  have hSize : size.toNat ≤ 0x40000000 := hSmall
  exact toNat_alignUp (by decide : 12 < 64) (by omega)

theorem heapBytes_le
    (hSmall : size ≤ 0x40000000) :
    heapBytes size ≤ 0x40000000 := by
  have hSize : size.toNat ≤ 0x40000000 := hSmall
  unfold heapBytes
  omega

/- A small size stays small when it is rounded up. -/
theorem alignUp_not_large
    (hSmall : size ≤ 0x40000000) :
    ¬ alignUp size PAGE_SIZE > 0x40000000 := by
  apply BitVec.not_lt.mpr
  rw [BitVec.le_def, toNat_alignUp_size hSmall]
  exact heapBytes_le hSmall

/- The heap begins with a page of the host. -/
theorem mapPhysical_heapBase
    (m : GuestMemory)
    (hostMaps : Bool)
    (hAligned : 0x1000 ∣ size.toNat)
    (hSmall : size.toNat ≤ 0x40000000) :
    (m.mapPhysical HEAP_BASE size .RW none hostMaps).1 =
        (if hostMaps then .Success else .OutOfMemory) ∧
      ∀ a, a < size.toNat →
        (m.mapPhysical HEAP_BASE size .RW none
            hostMaps).2.heapByte a =
          if hostMaps then some 0 else none := by
  have hBase : HEAP_BASE.toNat = 0x80000000 := rfl
  have hEnd :
      HEAP_BASE + size ≤ HostMemory.ADDR_SPACE_SIZE := by
    rw [BitVec.le_def, BitVec.toNat_add, hBase]
    show _ ≤ 0x100000000
    omega
  have hMappable : HostMemory.Mappable HEAP_BASE size :=
    ⟨by decide,
      (isAligned_iff (by decide : 12 < 64) size).mpr hAligned,
      hEnd⟩
  have hMap :=
    @HostMemory.mapPhysical_of_mappable m.host _ _ .RW hostMaps
      hMappable (by rw [hBase]; decide) (by omega)
  rw [mapPhysical_fst]
  refine ⟨hMap.1, ?_⟩
  intro a hIn
  have hPage : firstPage HEAP_BASE.toNat = 0x80000000 := rfl
  have hWhole :
      size.toNat ≤ pageBytes HEAP_BASE.toNat size.toNat := by
    unfold pageBytes
    rw [hBase]
    omega
  unfold heapByte
  rw [mapPhysical_host, hMap.2, hPage, hBase]
  rw [hBase] at hWhole
  apply if_pos
  omega

/- A heap of the size asked for stays as it is. -/
theorem setHeapSize_same
    (hostUnmaps hostMaps hostRemaps : Bool)
    (hSmall : size ≤ 0x40000000)
    (hSame : heapBytes size = m.heapSize.toNat) :
    m.setHeapSize size hostUnmaps hostMaps hostRemaps =
      (.Success, m) := by
  have hSize := toNat_alignUp_size hSmall
  have hEq : alignUp size PAGE_SIZE = m.heapSize :=
    BitVec.eq_of_toNat_eq (hSize.trans hSame)
  unfold setHeapSize
  simp only [if_neg (alignUp_not_large hSmall), if_pos hEq]

/- A larger heap is mapped, or else the old one again. -/
theorem setHeapSize_larger
    (hSmall : size ≤ 0x40000000)
    (hGrows : m.heapSize.toNat < heapBytes size) :
    m.setHeapSize size hostUnmaps hostMaps hostRemaps =
      let (result, m') :=
        (m.releaseHeap hostUnmaps).mapPhysical HEAP_BASE
          (alignUp size PAGE_SIZE) .RW none hostMaps
      if result ≠ .Success then
        let m' :=
          if m.heapSize > 0 then
            (m'.mapPhysical HEAP_BASE m.heapSize .RW none
              hostRemaps).2
          else m'
        (result, m')
      else
        (.Success,
          { m' with
            heapAddr := HEAP_BASE
            heapSize := alignUp size PAGE_SIZE }) := by
  have hSize := toNat_alignUp_size hSmall
  have hDiffers : alignUp size PAGE_SIZE ≠ m.heapSize := by
    intro hSame
    rw [hSame] at hSize
    omega
  have hLarger : alignUp size PAGE_SIZE > m.heapSize := by
    show m.heapSize.toNat < (alignUp size PAGE_SIZE).toNat
    rw [hSize]
    exact hGrows
  unfold setHeapSize
  simp only [if_neg (alignUp_not_large hSmall),
    if_neg hDiffers, if_pos hLarger]

/-
  The pages a larger heap is mapped to are those of the old
  one: all of it is zero.
-/
theorem setHeapSize_grown
    (hostUnmaps hostRemaps : Bool)
    (hSmall : size ≤ 0x40000000)
    (hGrows : m.heapSize.toNat < heapBytes size) :
    let r := m.setHeapSize size hostUnmaps true hostRemaps
    r.1 = .Success ∧ r.2.heapAddr = HEAP_BASE ∧
      r.2.heapSize.toNat = heapBytes size ∧
      ∀ a, a < heapBytes size → r.2.heapByte a = some 0 := by
  have hSize := toNat_alignUp_size hSmall
  have hMap :=
    mapPhysical_heapBase (m.releaseHeap hostUnmaps) true
      (dvd_alignUp size)
      (hSize ▸ heapBytes_le hSmall)
  rw [setHeapSize_larger hSmall hGrows]
  simp only [hMap.1, if_true, ne_eq, not_true, if_false]
  refine ⟨trivial, trivial, hSize, ?_⟩
  intro a hIn
  rw [← hSize] at hIn
  exact hMap.2 a hIn

/-
  When the larger heap cannot be mapped the pages of the old
  one have been released: what is mapped again is zero.
-/
theorem setHeapSize_notGrown
    (hostUnmaps hostRemaps : Bool)
    (hFits : m.HeapFits)
    (hSmall : size ≤ 0x40000000)
    (hGrows : m.heapSize.toNat < heapBytes size) :
    let r := m.setHeapSize size hostUnmaps false hostRemaps
    r.1 = .OutOfMemory ∧ r.2.heapAddr = m.heapAddr ∧
      r.2.heapSize = m.heapSize ∧
      ∀ a, a < m.heapSize.toNat →
        r.2.heapByte a =
          if hostRemaps then some 0 else none := by
  have hSize := toNat_alignUp_size hSmall
  have hMap :=
    mapPhysical_heapBase (m.releaseHeap hostUnmaps) false
      (dvd_alignUp size)
      (hSize ▸ heapBytes_le hSmall)
  have hRemap (m' : GuestMemory) :=
    mapPhysical_heapBase m' hostRemaps hFits.aligned
      hFits.bounded
  have hFails : Result.OutOfMemory ≠ .Success := by decide
  rw [setHeapSize_larger hSmall hGrows]
  simp only [hMap.1, Bool.false_eq_true, if_false,
    if_pos hFails]
  split
  · rw [mapPhysical_heap.1, mapPhysical_heap.2,
      mapPhysical_heap.1, mapPhysical_heap.2]
    exact
      ⟨trivial, releaseHeap_heap.1, releaseHeap_heap.2,
        (hRemap _).2⟩
  · next hEmpty =>
      rw [mapPhysical_heap.1, mapPhysical_heap.2]
      refine
        ⟨trivial, releaseHeap_heap.1, releaseHeap_heap.2, ?_⟩
      intro a hIn
      exact absurd (Nat.zero_lt_of_lt hIn) hEmpty

/- The tail of a smaller heap goes by pages of the host. -/
theorem setHeapSize_shrunk
    (hostUnmaps hostMaps hostRemaps : Bool)
    (hFits : m.HeapFits)
    (hSmall : size ≤ 0x40000000)
    (hShrinks : heapBytes size < m.heapSize.toNat) :
    let r := m.setHeapSize size hostUnmaps hostMaps hostRemaps
    r.1 = .Success ∧ r.2.heapAddr = HEAP_BASE ∧
      r.2.heapSize.toNat = heapBytes size ∧
      ∀ a, a < heapBytes size →
        r.2.heapByte a =
          if hostUnmaps = true ∧
              firstPage (heapBytes size) ≤ a then none
          else m.heapByte a := by
  have hSize := toNat_alignUp_size hSmall
  have hBytes := heapBytes_le hSmall
  have hBounded := hFits.bounded
  have hBase : HEAP_BASE.toNat = 0x80000000 := rfl
  have hDiffers : alignUp size PAGE_SIZE ≠ m.heapSize := by
    intro hSame
    rw [hSame] at hSize
    omega
  have hNotLarger : ¬ alignUp size PAGE_SIZE > m.heapSize := by
    apply BitVec.not_lt.mpr
    rw [BitVec.le_def, hSize]
    exact Nat.le_of_lt hShrinks
  have hStart :
      (HEAP_BASE + alignUp size PAGE_SIZE).toNat =
        0x80000000 + heapBytes size := by
    rw [BitVec.toNat_add, hSize, hBase]
    omega
  have hTail :
      (m.heapSize - alignUp size PAGE_SIZE).toNat =
        m.heapSize.toNat - heapBytes size := by
    rw [BitVec.toNat_sub, hSize]
    omega
  have hSome : m.heapSize - alignUp size PAGE_SIZE ≠ 0 := by
    intro hZero
    rw [hZero] at hTail
    change 0 = _ at hTail
    omega
  unfold setHeapSize
  simp only [if_neg (alignUp_not_large hSmall),
    if_neg hDiffers, if_neg hNotLarger]
  refine ⟨trivial, trivial, hSize, ?_⟩
  intro a hIn
  have hByte :=
    unmapPhysical_guestByte m hostUnmaps (isAligned_heap size)
      hSome (by rw [hStart]; omega) (by rw [hTail]; omega)
      (HEAP_BASE.toNat + a)
  have hPage :
      (firstPage (0x80000000 + heapBytes size) ≤
          0x80000000 + a ∧
        0x80000000 + a <
          firstPage (0x80000000 + heapBytes size) +
            pageBytes (0x80000000 + heapBytes size)
              (m.heapSize.toNat - heapBytes size)) ↔
        firstPage (heapBytes size) ≤ a := by
    unfold firstPage pageBytes
    omega
  rw [hStart, hTail, hBase] at hByte
  unfold heapByte
  rw [hBase]
  simp only [hByte, hPage]

------
-- When Resizing Keeps Its Promise
------

open HostMemory (firstPage)

/-
  The size is not too large, and the heap has this size, or is
  mapped larger while it holds nothing but zeros, or is made
  smaller with nothing mapped in its last, partial page of the
  host.
-/
def ResizeKeeps
    (m : GuestMemory)
    (size : U64)
    (hostUnmaps hostMaps : Bool) : Prop :=
  size ≤ 0x40000000 ∧
    (heapBytes size = m.heapSize.toNat ∨
      (m.heapSize.toNat < heapBytes size ∧ hostMaps = true ∧
        ∀ a, a < m.heapSize.toNat → m.heapByte a = some 0) ∨
      (heapBytes size < m.heapSize.toNat ∧
        (hostUnmaps = true →
          ∀ a, firstPage (heapBytes size) ≤ a →
            a < heapBytes size → m.heapByte a = none)))

/- The guest is never told of a failure. -/
theorem svcSetHeapSize_x0
    (g_mem : Option GuestMemory)
    (state : HeapRegisters) :
    (svcSetHeapSize g_mem state hostUnmaps hostMaps
      hostRemaps).2.x0 = 0 := by
  unfold svcSetHeapSize
  split
  · split <;> rfl
  · rfl

/- So a resizing that keeps its promise has succeeded. -/
theorem HeapResized.success
    (hResized :
      m.HeapResized size hostUnmaps hostMaps hostRemaps) :
    (m.setHeapSize size hostUnmaps hostMaps hostRemaps).1 =
      .Success := by
  by_contra hFails
  exact
    (hResized.reported 0).mpr hFails (svcSetHeapSize_x0 _ _)

/- And the size asked for was not too large. -/
theorem HeapResized.small
    (hResized :
      m.HeapResized size hostUnmaps hostMaps hostRemaps) :
    size ≤ 0x40000000 := by
  by_contra hLarge
  exact
    (hResized.refused (BitVec.not_le.mp hLarge)).1
      hResized.success

/- A resizing that succeeds with the heap asked for. -/
theorem heapResized_of_success
    (hSmall : size ≤ 0x40000000)
    (hSuccess :
      (m.setHeapSize size hostUnmaps hostMaps hostRemaps).1 =
        .Success)
    (hResized :
      let m' :=
        (m.setHeapSize size hostUnmaps hostMaps hostRemaps).2
      m'.heapAddr = HEAP_BASE ∧
        m'.heapSize.toNat = heapBytes size ∧
        ∀ a, m.heapSize.toNat ≤ a → a < heapBytes size →
          (m'.heapByte a).isSome)
    (hKept :
      ∀ a, a < m.heapSize.toNat → a < heapBytes size →
        (m.setHeapSize size hostUnmaps hostMaps
            hostRemaps).2.heapByte a =
          m.heapByte a) :
    m.HeapResized size hostUnmaps hostMaps hostRemaps where
  refused := fun hLarge =>
    absurd hSmall (BitVec.not_le.mpr hLarge)
  resized := fun _ _ => hResized
  kept := fun _ _ => hKept
  restored := fun _ hFails => absurd hSuccess hFails
  reported := by
    intro x1
    rw [svcSetHeapSize_x0]
    exact iff_of_false (· rfl) (· hSuccess)

theorem heapResized_of_keeps
    (hFits : m.HeapFits)
    (hKeeps : m.ResizeKeeps size hostUnmaps hostMaps) :
    m.HeapResized size hostUnmaps hostMaps hostRemaps := by
  rcases hKeeps with ⟨hSmall, hSame | hGrows | hShrinks⟩
  · have hEq :=
      setHeapSize_same hostUnmaps hostMaps hostRemaps hSmall
        hSame
    apply heapResized_of_success hSmall
    · rw [hEq]
    · rw [hEq]
      refine ⟨hFits.based, hSame.symm, ?_⟩
      intro a hFrom hTo
      omega
    · rw [hEq]
      intro a hOld hNew
      rfl
  · rcases hGrows with ⟨hGrows, hMaps, hZero⟩
    subst hMaps
    rcases setHeapSize_grown hostUnmaps hostRemaps hSmall
        hGrows with
      ⟨hSuccess, hBase, hSize, hBytes⟩
    apply heapResized_of_success hSmall hSuccess
    · refine ⟨hBase, hSize, ?_⟩
      intro a hFrom hTo
      rw [hBytes a hTo]
      rfl
    · intro a hOld hNew
      rw [hBytes a hNew, hZero a hOld]
  · rcases hShrinks with ⟨hShrinks, hTail⟩
    rcases setHeapSize_shrunk hostUnmaps hostMaps hostRemaps
        hFits hSmall hShrinks with
      ⟨hSuccess, hBase, hSize, hBytes⟩
    apply heapResized_of_success hSmall hSuccess
    · refine ⟨hBase, hSize, ?_⟩
      intro a hFrom hTo
      omega
    · intro a hOld hNew
      rw [hBytes a hNew]
      split
      · next hGone => rw [hTail hGone.1 a hGone.2 hNew]
      · rfl

theorem heapResized_iff
    (hFits : m.HeapFits) :
    m.HeapResized size hostUnmaps hostMaps hostRemaps ↔
      m.ResizeKeeps size hostUnmaps hostMaps := by
  refine ⟨?_, heapResized_of_keeps hFits⟩
  intro hResized
  have hSmall := hResized.small
  have hSuccess := hResized.success
  have hKept := hResized.kept hSmall hSuccess
  refine ⟨hSmall, ?_⟩
  rcases
    Nat.lt_trichotomy (heapBytes size) m.heapSize.toNat with
    hShrinks | hSame | hGrows
  · right
    right
    refine ⟨hShrinks, ?_⟩
    intro hUnmaps a hPage hIn
    have hByte :=
      (setHeapSize_shrunk hostUnmaps hostMaps hostRemaps hFits
        hSmall hShrinks).2.2.2 a hIn
    rw [← hKept a (by omega) hIn, hByte,
      if_pos ⟨hUnmaps, hPage⟩]
  · exact .inl hSame
  · right
    left
    refine ⟨hGrows, ?_⟩
    cases hostMaps with
    | true =>
        refine ⟨rfl, ?_⟩
        intro a hIn
        have hNew : a < heapBytes size := by omega
        have hBytes :=
          (setHeapSize_grown hostUnmaps hostRemaps hSmall
            hGrows).2.2.2
        rw [← hKept a hIn hNew, hBytes a hNew]
    | false =>
        have hFails :=
          (setHeapSize_notGrown hostUnmaps hostRemaps hFits
            hSmall hGrows).1
        rw [hSuccess] at hFails
        cases hFails

/- A heap in which the guest has stored a byte. -/
def heapWithByte (size : U64) : GuestMemory :=
  let m :=
    (({} : GuestMemory).setHeapSize size true true true).2
  { m with host := m.host.store 0x80000000 1 }

theorem heapFits_heapWithByte (size : U64) :
    (heapWithByte size).HeapFits :=
  (heapFits_setHeapSize
    (⟨rfl, ⟨0, rfl⟩, by decide⟩ : HeapFits {})).congr
    ⟨rfl, rfl⟩

/- Two pages of the host are made one, and the byte is kept. -/
theorem largeHeap_resized :
    (heapWithByte 0x8000).heapByte 0 = some 1 ∧
      (heapWithByte 0x8000).HeapResized 0x4000 true true
        true := by
  refine
    ⟨by rfl,
      (heapResized_iff (heapFits_heapWithByte 0x8000)).mpr
        ⟨by decide, .inr (.inr ⟨by decide, ?_⟩)⟩⟩
  intro _ a hFrom hTo
  have hPage : firstPage (heapBytes 0x4000) = 0x4000 := by
    decide
  have hEnd : heapBytes 0x4000 = 0x4000 := by decide
  omega

/- A second page is added to it and the byte is zero. -/
theorem storedHeap_not_resized :
    (heapWithByte 0x1000).HeapFits ∧
      ¬ (heapWithByte 0x1000).HeapResized 0x2000 true true
        true := by
  refine ⟨heapFits_heapWithByte 0x1000, ?_⟩
  intro hResized
  have hKept := hResized.kept (by decide) hResized.success 0
    (by decide) (by decide)
  have hByte :=
    (@setHeapSize_grown (heapWithByte 0x1000) 0x2000 true true
      (by decide) (by decide)).2.2.2 0 (by decide)
  have hStored : (heapWithByte 0x1000).heapByte 0 = some 1 := by
    rfl
  rw [hByte, hStored] at hKept
  cases hKept

end GuestMemory

end M1Switch
