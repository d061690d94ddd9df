import M1Switch.Memory.Mapping

/-
  What a mapping does to the memory around it.

  A request is widened to the host pages it touches, so that
  memory of another request in these pages is released, and is
  zero afterwards.

  Key definitions include:
    * `HostMemory.Isolates`
    * `HostMemory.Spares`

  Main results:
    * `byteAt_mapPhysical`
    * `isolates_iff`
-/

------
-- Host Ranges
------

namespace M1Switch

namespace HostMemory

variable {mem : HostMemory} {address size a : U64}

/- The byte at a guest address. -/
def byteAt (mem : HostMemory) (a : U64) : Option U8 :=
  mem.bytes (baseAddr + a).toNat

/- The address is in one of the host pages of the request. -/
def Touches (address size a : U64) : Prop :=
  (mapAddr address).toNat ≤ (baseAddr + a).toNat ∧
    (baseAddr + a).toNat <
      (mapAddr address).toNat + (mapSize address size).toNat

instance (address size a : U64) :
    Decidable (Touches address size a) :=
  inferInstanceAs (Decidable (_ ∧ _))

/- The address is in what the data is copied to. -/
def Copied (address size a : U64) : Prop :=
  (baseAddr + address).toNat ≤ (baseAddr + a).toNat ∧
    (baseAddr + a).toNat <
      (baseAddr + address).toNat + size.toNat

instance (address size a : U64) :
    Decidable (Copied address size a) :=
  inferInstanceAs (Decidable (_ ∧ _))

/- The host pages start below the request. -/
theorem toNat_mapAddr_eq (address : U64) :
    (mapAddr address).toNat =
      (baseAddr + address).toNat -
        (baseAddr + address).toNat % 0x4000 := by
  have hPage : HOST_PAGE = BitVec.ofNat 64 (2 ^ 14) := by decide
  have hMask :=
    toNat_and_add_and_not (baseAddr + address) (HOST_PAGE - 1)
  rw [hPage, toNat_and_mask (by decide)] at hMask
  unfold mapAddr
  rw [hPage]
  omega

/- They hold all of it, unless their size overflows. -/
theorem toNat_mapSize_eq
    (hFits :
      size.toNat + (baseAddr + address).toNat % 0x4000 +
        0x4000 < 2 ^ 64) :
    (mapSize address size).toNat =
      (size.toNat + (baseAddr + address).toNat % 0x4000 +
        0x3fff) / 0x4000 * 0x4000 := by
  have hPage : HOST_PAGE = BitVec.ofNat 64 (2 ^ 14) := by decide
  have hOff :
      ((baseAddr + address) &&& (HOST_PAGE - 1)).toNat =
        (baseAddr + address).toNat % 0x4000 := by
    rw [hPage, toNat_and_mask (by decide)]
    rfl
  unfold mapSize
  rw [BitVec.toNat_mul, BitVec.toNat_udiv, BitVec.toNat_sub,
    BitVec.toNat_add, BitVec.toNat_add, hOff]
  show (2 ^ 64 - 1 + ((size.toNat + _) % 2 ^ 64 + 0x4000) %
    2 ^ 64) % 2 ^ 64 / 0x4000 * 0x4000 % 2 ^ 64 = _
  omega

/- Requested is what is copied to, if that does not wrap. -/
theorem requested_iff_copied
    (hEnd :
      (baseAddr + address).toNat + size.toNat ≤ 2 ^ 64) :
    Requested address size a ↔ Copied address size a := by
  have hDiff :
      a - address = (baseAddr + a) - (baseAddr + address) := by
    bv_omega
  unfold Requested Copied
  rw [hDiff, BitVec.lt_def, BitVec.toNat_sub]
  generalize (baseAddr + a) = x at *
  generalize (baseAddr + address) = y at *
  omega

/- What is copied to lies in the host pages. -/
theorem touches_of_copied
    (hFits :
      size.toNat + (baseAddr + address).toNat % 0x4000 +
        0x4000 < 2 ^ 64)
    (hCopied : Copied address size a) :
    Touches address size a := by
  rcases hCopied with ⟨hFrom, hUntil⟩
  unfold Touches
  rw [toNat_mapAddr_eq, toNat_mapSize_eq hFits]
  omega

/- The host takes a range whose size did not overflow only when
the request ends before the end of the host's space. -/
theorem end_le_of_accepts
    (hFits :
      size.toNat + (baseAddr + address).toNat % 0x4000 +
        0x4000 < 2 ^ 64)
    (hAccepts :
      hostAccepts (mapAddr address) (mapSize address size) =
        true) :
    (baseAddr + address).toNat + size.toNat ≤ 2 ^ 64 := by
  unfold hostAccepts at hAccepts
  rw [decide_eq_true_iff, toNat_mapAddr_eq,
    toNat_mapSize_eq hFits] at hAccepts
  omega

------
-- The Bytes Behind a Mapping
------

variable {perm : Permission} {data : Option (Nat → U8)}
variable {hostMaps : Bool}

/- The request reaches the host, which takes its range. -/
def Reaches (address size : U64) : Prop :=
  Mappable address size ∧
    hostAccepts (mapAddr address) (mapSize address size) = true

instance (address size : U64) :
    Decidable (Reaches address size) :=
  inferInstanceAs (Decidable (_ ∧ _))

/- What the host pages hold before the data is copied. -/
def fresh (mem : HostMemory) (address size : U64)
    (hostMaps : Bool) (a : U64) : Option U8 :=
  if Touches address size a then
    if hostMaps then some 0 else none
  else mem.byteAt a

/- A request that does not reach the host changes no byte. -/
theorem byteAt_mapPhysical_of_not_reaches
    (hNot : ¬ Reaches address size) :
    (mem.mapPhysical address size perm data hostMaps).1 ≠
        .Success ∧
      (mem.mapPhysical address size perm data hostMaps).2.byteAt
          a = mem.byteAt a := by
  by_cases hMappable : Mappable address size
  · have hRefuses :
        hostAccepts (mapAddr address)
          (mapSize address size) = false := by
      rw [← Bool.not_eq_true]
      exact fun hAccepts => hNot ⟨hMappable, hAccepts⟩
    rcases hMappable with ⟨hAligned, hAligned', hEnd⟩
    unfold mapPhysical
    rw [if_neg (by simp [hAligned, hAligned']),
      if_neg (BitVec.not_lt.mpr hEnd)]
    simp [hRefuses, deallocate]
  · rw [mapPhysical_of_not_mappable hMappable]
    exact ⟨by simp, rfl⟩

/- One that does leaves the data in fresh pages. -/
theorem byteAt_mapPhysical
    (hReaches : Reaches address size) :
    (mem.mapPhysical address size perm data hostMaps).1 =
        (if hostMaps then .Success else .OutOfMemory) ∧
      (mem.mapPhysical address size perm data hostMaps).2.byteAt
          a =
        match hostMaps, data with
        | true, some source =>
            if Copied address size a then
              some
                (source
                  ((baseAddr + a).toNat -
                    (baseAddr + address).toNat))
            else mem.fresh address size true a
        | _, _ => mem.fresh address size hostMaps a := by
  rcases hReaches with ⟨⟨hAligned, hAligned', hEnd⟩, hAccepts⟩
  unfold mapPhysical
  rw [if_neg (by simp [hAligned, hAligned']),
    if_neg (BitVec.not_lt.mpr hEnd)]
  cases hostMaps with
  | true =>
      rw [hAccepts, Bool.and_self, if_pos rfl]
      refine ⟨rfl, ?_⟩
      cases data with
      | some source =>
          simp only [hAccepts, if_true, byteAt, copyData,
            allocate, deallocate, fresh, Touches, Copied]
          split
          · rfl
          · split <;> rfl
      | none =>
          simp only [hAccepts, if_true, byteAt, copyData,
            allocate, deallocate, fresh, Touches]
          split <;> rfl
  | false =>
      refine ⟨by simp, ?_⟩
      rw [Bool.false_and, if_neg Bool.false_ne_true]
      show (mem.deallocate _ _).byteAt a = _
      rw [byteAt, bytes_deallocate hAccepts]
      rfl

------
-- Isolation
------

/- A tracked region that shares no address with a request. -/
def Neighbour
    (mem : HostMemory)
    (address size base rsize : U64) : Prop :=
  (∃ rperm, mem.pages base = some (rsize, rperm)) ∧
    ∀ a, Requested base rsize a → ¬ Requested address size a

/- What is to be found at an address of the request. -/
def wanted
    (address : U64)
    (data : Option (Nat → U8))
    (a : U64) : U8 :=
  match data with
  | some source => source (a - address).toNat
  | none => 0

/-
  A mapping leaves the bytes of its neighbours as they are, and
  when it succeeds the requested bytes are the data, or zero.
-/
def Isolates
    (mem : HostMemory)
    (address size : U64)
    (perm : Permission)
    (data : Option (Nat → U8))
    (hostMaps : Bool) : Prop :=
  let after := mem.mapPhysical address size perm data hostMaps
  (∀ base rsize, mem.Neighbour address size base rsize →
      ∀ a, Requested base rsize a →
        after.2.byteAt a = mem.byteAt a) ∧
    (after.1 = .Success →
      ∀ a, Requested address size a →
        after.2.byteAt a = some (wanted address data a))

/-
  The bytes of neighbours in the host pages of the request are
  already what the host leaves in these pages, and so are the
  requested bytes that the pages miss when their size overflows.
-/
def Spares
    (mem : HostMemory)
    (address size : U64)
    (data : Option (Nat → U8))
    (hostMaps : Bool) : Prop :=
  (∀ base rsize, mem.Neighbour address size base rsize →
      ∀ a, Requested base rsize a → Touches address size a →
        mem.byteAt a = if hostMaps then some 0 else none) ∧
    (hostMaps = true → data = none →
      ∀ a, Requested address size a →
        ¬ Touches address size a → mem.byteAt a = some 0)

/-
  The data of a request is an object of the host, which is
  smaller than half of the host's space.
-/
theorem requested_iff_copied_of_reaches
    (hReaches : Reaches address size)
    (hObject : size.toNat < 2 ^ 63) :
    Requested address size a ↔ Copied address size a := by
  have hFits :
      size.toNat + (baseAddr + address).toNat % 0x4000 +
        0x4000 < 2 ^ 64 := by
    omega
  exact
    requested_iff_copied (end_le_of_accepts hFits hReaches.2)

theorem copied_offset
    (hCopied : Copied address size a) :
    (baseAddr + a).toNat - (baseAddr + address).toNat =
      (a - address).toNat := by
  rcases hCopied with ⟨hFrom, _⟩
  have hDiff :
      a - address = (baseAddr + a) - (baseAddr + address) := by
    bv_omega
  rw [hDiff, BitVec.toNat_sub]
  generalize (baseAddr + a) = x at *
  generalize (baseAddr + address) = y at *
  omega

/- The requested bytes of a request that reaches the host. -/
theorem requested_bytes_iff
    (hReaches : Reaches address size)
    (hObject :
      ∀ source, data = some source → size.toNat < 2 ^ 63) :
    ((mem.mapPhysical address size perm data hostMaps).1 =
          .Success →
        ∀ a, Requested address size a →
          (mem.mapPhysical address size perm data
              hostMaps).2.byteAt a =
            some (wanted address data a)) ↔
      (hostMaps = true → data = none →
        ∀ a, Requested address size a →
          ¬ Touches address size a →
            mem.byteAt a = some 0) := by
  cases hostMaps with
  | false =>
      rw [(byteAt_mapPhysical (a := 0) hReaches).1]
      simp
  | true =>
      rw [(byteAt_mapPhysical (a := 0) hReaches).1]
      cases data with
      | none =>
          simp only [if_true, true_implies]
          refine forall_congr' fun a => forall_congr' fun _ => ?_
          rw [(byteAt_mapPhysical hReaches).2]
          show mem.fresh address size true a = some 0 ↔ _
          unfold fresh
          split
          · next hTouches => simp [hTouches]
          · next hMisses => simp [hMisses]
      | some source =>
          have hWanted :
              ∀ a, Requested address size a →
                (mem.mapPhysical address size perm (some source)
                    true).2.byteAt a =
                  some (wanted address (some source) a) := by
            intro a hRequested
            have hCopied :=
              (requested_iff_copied_of_reaches hReaches
                (hObject source rfl)).mp hRequested
            rw [(byteAt_mapPhysical hReaches).2]
            simp only [if_pos hCopied, wanted]
            rw [copied_offset hCopied]
          exact
            ⟨fun _ _ hNone => by simp at hNone,
              fun _ _ => hWanted⟩

/- The neighbours of a request that reaches the host. -/
theorem neighbour_bytes_iff
    (hReaches : Reaches address size)
    (hObject :
      ∀ source, data = some source → size.toNat < 2 ^ 63) :
    (∀ base rsize, mem.Neighbour address size base rsize →
        ∀ a, Requested base rsize a →
          (mem.mapPhysical address size perm data
            hostMaps).2.byteAt a = mem.byteAt a) ↔
      ∀ base rsize, mem.Neighbour address size base rsize →
        ∀ a, Requested base rsize a → Touches address size a →
          mem.byteAt a = if hostMaps then some 0 else none := by
  refine
    forall_congr' fun base => forall_congr' fun rsize =>
      forall_congr' fun hNeighbour => forall_congr' fun a =>
        forall_congr' fun hIn => ?_
  have hAway := hNeighbour.2 a hIn
  have hByte :
      (mem.mapPhysical address size perm data
          hostMaps).2.byteAt a =
        mem.fresh address size hostMaps a := by
    rw [(byteAt_mapPhysical hReaches).2]
    cases hostMaps with
    | false => cases data <;> rfl
    | true =>
        cases data with
        | none => rfl
        | some source =>
            have hNot : ¬ Copied address size a := by
              rw [← requested_iff_copied_of_reaches hReaches
                (hObject source rfl)]
              exact hAway
            exact if_neg hNot
  rw [hByte]
  unfold fresh
  split
  · next hTouches =>
      exact ⟨fun hEq _ => hEq.symm, fun hEq => (hEq hTouches).symm⟩
  · next hMisses => simp [hMisses]

/-
  A mapping isolates its neighbours exactly when it does not
  reach the host, or spares what is around it.
-/
theorem isolates_iff
    (mem : HostMemory)
    (address size : U64)
    (perm : Permission)
    (data : Option (Nat → U8))
    (hostMaps : Bool)
    (hObject :
      ∀ source, data = some source → size.toNat < 2 ^ 63) :
    mem.Isolates address size perm data hostMaps ↔
      (Reaches address size →
        mem.Spares address size data hostMaps) := by
  by_cases hReaches : Reaches address size
  · unfold Isolates Spares
    simp only [neighbour_bytes_iff hReaches hObject,
      requested_bytes_iff hReaches hObject, hReaches,
      true_implies]
  · refine ⟨fun _ hDoes => absurd hDoes hReaches, fun _ => ?_⟩
    constructor
    · intro base rsize _ a _
      exact (byteAt_mapPhysical_of_not_reaches hReaches).2
    · intro hSuccess
      exact
        absurd hSuccess
          (byteAt_mapPhysical_of_not_reaches (a := 0)
            hReaches).1

/- A page of nines. -/
def oneRegion : HostMemory :=
  (({} : HostMemory).mapPhysical 0x10000 0x1000 .RW
    (some fun _ => 9) true).2

theorem pages_oneRegion
    {base rsize : U64}
    {rperm : Permission}
    (hRegion : oneRegion.pages base = some (rsize, rperm)) :
    base = 0x10000 ∧ rsize = 0x1000 := by
  change
    (if base = 0x10000 then some (0x1000, Permission.RW)
      else none) = some (rsize, rperm) at hRegion
  by_cases hBase : base = 0x10000
  · rw [if_pos hBase] at hRegion
    cases hRegion
    exact ⟨hBase, rfl⟩
  · rw [if_neg hBase] at hRegion
    cases hRegion

/- Data that is mapped in another page of the host. -/
theorem isolates_oneRegion :
    oneRegion.byteAt 0x10000 = some 9 ∧
      oneRegion.Isolates 0x8000 0x1000 .RW
        (some fun _ => 7) true := by
  refine
    ⟨by decide, (isolates_iff _ _ _ _ _ _ ?_).mpr ?_⟩
  · intro _ _
    decide
  · rintro _
    constructor
    · rintro base rsize ⟨⟨rperm, hRegion⟩, _⟩ a hIn hTouches
      rcases pages_oneRegion hRegion with ⟨rfl, rfl⟩
      have hAddr : (mapAddr 0x8000).toNat = 0x300008000 := by
        decide
      have hSize : (mapSize 0x8000 0x1000).toNat = 0x4000 := by
        decide
      unfold Touches at hTouches
      rw [hAddr, hSize] at hTouches
      unfold Requested at hIn
      unfold baseAddr at hTouches
      bv_omega
    · intro _ hNone
      cases hNone

/- A page of data, and the next page of the same host page. -/
theorem not_isolates_next_page :
    ¬ ∀ (mem : HostMemory) (address size : U64)
        (perm : Permission) (data : Option (Nat → U8))
        (hostMaps : Bool),
        isAligned address PAGE_SIZE = true →
          isAligned size PAGE_SIZE = true →
            mem.Isolates address size perm data hostMaps := by
  intro hAll
  have hIsolates :=
    hAll
      (({} : HostMemory).mapPhysical 0x2000 0x1000 .RW
        (some fun _ => 7) true).2
      0x3000 0x1000 .RW none true (by decide) (by decide)
  have hApart :
      ∀ a, Requested 0x2000 0x1000 a →
        ¬ Requested 0x3000 0x1000 a := by
    intro a hIn hIn'
    unfold Requested at hIn hIn'
    bv_omega
  have hByte :=
    hIsolates.1 0x2000 0x1000 ⟨⟨.RW, by rfl⟩, hApart⟩ 0x2000
      (by decide)
  revert hByte
  decide

end HostMemory

end M1Switch
