import M1Switch.Services.Nv

/-
  Where memory objects lie, and what an allocation does to the
  memory of others.

  Objects are put one behind the other, so that they never
  share an address.  They may share a host page, which loses
  its bytes when the later of the two is mapped; and the place
  where an object is put need not have its alignment.

  Key definitions include:
    * `NvMapEntry.Covers`
    * `NvMap.Layout`

  Main results:
    * `step`
    * `allocates_iff`
    * `allocations_iff`
-/

------
-- Layout
------

namespace M1Switch

/- An address belongs to an object. -/
def NvMapEntry.Covers (e : NvMapEntry) (a : Nat) : Prop :=
  e.mapped = true ∧ e.addr.toNat ≤ a ∧
    a < e.addr.toNat + e.size.toNat

namespace NvMap

/- Objects lie apart, in their region, and aligned. -/
structure Layout (nv : NvMap) : Prop where
  disjoint :
    ∀ (i j : Nat) (e e' : NvMapEntry) (a : Nat), i ≠ j →
      nv.entries[i]? = some e → nv.entries[j]? = some e' →
        e.Covers a → ¬ e'.Covers a
  inside :
    ∀ e ∈ nv.entries, e.mapped = true →
      CARVEOUT_BASE.toNat ≤ e.addr.toNat ∧
        e.addr.toNat + e.size.toNat ≤
          CARVEOUT_BASE.toNat + CARVEOUT_SIZE.toNat
  aligned :
    ∀ e ∈ nv.entries, e.mapped = true →
      e.align.toNat ∣ e.addr.toNat

/- The request is for the object. -/
structure Found
    (nv : NvMap)
    (call : ServiceCall)
    (i : Nat)
    (entry : NvMapEntry) : Prop where
  long : 0x20 ≤ call.rawIn.length
  index : nv.handleIndex (call.readU32 0) = some i
  entry : nv.entries[i]? = some entry

/- The object is going to be mapped. -/
def Reaches (offset : U64) (entry : NvMapEntry) : Prop :=
  entry.addr = 0 ∧
    offset + allocSize entry ≤ CARVEOUT_SIZE ∧
    HostMemory.Mappable (CARVEOUT_BASE + offset)
      (allocSize entry)

instance (offset : U64) (entry : NvMapEntry) :
    Decidable (Reaches offset entry) :=
  inferInstanceAs (Decidable (_ ∧ _))

end NvMap

namespace NvDevice

/- What the guest has at an address. -/
def byteAt (dev : NvDevice) (a : Nat) : Option U8 :=
  dev.mem.bind fun m => m.guestByte a

/- An allocation leaves the bytes of other objects alone. -/
def Keeps
    (dev : NvDevice)
    (call : ServiceCall)
    (hostMaps : Bool) : Prop :=
  NvMap.ioctl call.cmdId = .alloc →
    ∀ i e a,
      dev.map.handleIndex (call.readU32 0) ≠ some i →
        dev.map.entries[i]? = some e → e.Covers a →
          (dev.step (.command call hostMaps)).byteAt a =
            dev.byteAt a

/- The layout is kept, and so are the bytes of others. -/
def Allocates (dev : NvDevice) (e : NvEvent) : Prop :=
  (dev.step e).map.Layout ∧
    match e with
    | .command call hostMaps => dev.Keeps call hostMaps
    | _ => True

/- What a mapping leaves in the pages it takes. -/
def fill (hostMaps : Bool) : Option U8 :=
  if hostMaps then some 0 else none

/-
  An object that has an address is asked for an alignment of
  it.  One that is mapped lies at an address with its
  alignment, in a host page without bytes of other objects,
  except for such as the mapping leaves there.
-/
def AdmitsObject
    (dev : NvDevice)
    (call : ServiceCall)
    (hostMaps : Bool)
    (i : Nat)
    (entry : NvMapEntry) : Prop :=
  let align := (NvMap.requested (call.readU32 12)).toNat
  let address :=
    (NvMap.CARVEOUT_BASE + dev.map.carveoutOffset).toNat
  (entry.addr ≠ 0 → align ∣ entry.addr.toNat) ∧
    (dev.mem.isSome = true →
      NvMap.Reaches dev.map.carveoutOffset
          (NvMap.configured call entry) →
        (hostMaps = true → align ∣ address) ∧
          ∀ j e a, j ≠ i → dev.map.entries[j]? = some e →
            e.Covers a → HostMemory.firstPage address ≤ a →
              dev.byteAt a = fill hostMaps)

def Admits (dev : NvDevice) : NvEvent → Prop
  | .command call hostMaps =>
      NvMap.ioctl call.cmdId = .alloc →
        ∀ i entry, dev.map.Found call i entry →
          dev.AdmitsObject call hostMaps i entry
  | _ => True

end NvDevice

------
-- Placing an Object
------

namespace NvMap

variable {offset : U64} {entry : NvMapEntry}
variable {hostMaps : Bool}

/- The alignment of a request is not zero. -/
theorem requested_bounds (align : U32) :
    0 < (requested align).toNat ∧
      (requested align).toNat < 2 ^ 32 := by
  unfold requested
  split
  · next hPos =>
      rw [BitVec.toNat_setWidth]
      have hPos' : 0 < align.toNat := hPos
      have hLt := align.isLt
      omega
  · decide

/- An object without memory, or without room, stays. -/
theorem place_of_not_reaches
    {mem : Option HostMemory}
    (hNot : mem.isSome = true → ¬ Reaches offset entry) :
    place offset entry mem hostMaps = (entry, offset, mem) := by
  unfold place
  split
  · rfl
  · next m =>
      split
      · rfl
      · next hAddr =>
          rw [not_not] at hAddr
          split
          · rfl
          · next hRoom =>
              have hRoom' := BitVec.not_lt.mp hRoom
              have hFails :
                  ¬ HostMemory.Mappable (CARVEOUT_BASE + offset)
                    (allocSize entry) :=
                fun hMaps => hNot rfl ⟨hAddr, hRoom', hMaps⟩
              dsimp only
              rw [HostMemory.mapPhysical_of_not_mappable hFails]
              rfl

/- The object behind a mapping. -/
def placedAt
    (offset : U64)
    (entry : NvMapEntry) : NvMapEntry :=
  { entry with
    addr := CARVEOUT_BASE + offset
    iova := CARVEOUT_BASE + offset
    mapped := true }

/- The numbers of an object that is going to be mapped. -/
structure Fits (offset : U64) (entry : NvMapEntry) : Prop where
  size : entry.size.toNat ≤ (allocSize entry).toNat
  small : (allocSize entry).toNat < 2 ^ 33
  next :
    (offset + allocSize entry).toNat =
      offset.toNat + (allocSize entry).toNat
  address :
    (CARVEOUT_BASE + offset).toNat =
      CARVEOUT_BASE.toNat + offset.toNat

theorem fits
    (hOffset : offset.toNat ≤ CARVEOUT_SIZE.toNat)
    (hSize : entry.size.toNat < 2 ^ 32)
    (hAlign : 0 < entry.align.toNat)
    (hAlign' : entry.align.toNat < 2 ^ 32) :
    Fits offset entry := by
  have hNonzero : entry.align ≠ 0 := by
    intro hZero
    rw [hZero] at hAlign
    exact absurd hAlign (by decide)
  have hBounds := alignUp_bounds hAlign (by omega :
    entry.size.toNat + entry.align.toNat < 2 ^ 64)
  have hAlloc :
      allocSize entry = alignUp entry.size entry.align := by
    unfold allocSize
    rw [if_pos hNonzero]
  change offset.toNat ≤ 0x10000000 at hOffset
  rw [← hAlloc] at hBounds
  constructor
  · exact hBounds.1
  · omega
  · rw [BitVec.toNat_add]
    exact Nat.mod_eq_of_lt (by omega)
  · rw [BitVec.toNat_add]
    apply Nat.mod_eq_of_lt
    show 0xD0000000 + offset.toNat < 2 ^ 64
    omega

theorem place_of_reaches
    {m : HostMemory}
    (hReaches : Reaches offset entry)
    (hFits : Fits offset entry)
    (hOffset : offset.toNat ≤ CARVEOUT_SIZE.toNat) :
    place offset entry (some m) hostMaps =
      if hostMaps then
        (placedAt offset entry, offset + allocSize entry,
          some (m.mapPhysical (CARVEOUT_BASE + offset)
            (allocSize entry) .RW none hostMaps).2)
      else
        (entry, offset,
          some (m.mapPhysical (CARVEOUT_BASE + offset)
            (allocSize entry) .RW none hostMaps).2) := by
  rcases hReaches with ⟨hAddr, hRoom, hMaps⟩
  change offset.toNat ≤ 0x10000000 at hOffset
  have hLow :
      (CARVEOUT_BASE + offset).toNat < 2 ^ 33 := by
    rw [hFits.address]
    show 0xD0000000 + offset.toNat < 2 ^ 33
    omega
  have hResult :
      (m.mapPhysical (CARVEOUT_BASE + offset)
          (allocSize entry) .RW none hostMaps).1 =
        if hostMaps then .Success else .OutOfMemory :=
    (HostMemory.mapPhysical_of_mappable hMaps hLow
      hFits.small).1
  unfold place
  simp only [hAddr, ne_eq, not_true_eq_false, if_false,
    gt_iff_lt, BitVec.not_lt.mpr hRoom, hResult]
  cases hostMaps <;> rfl

------
-- What Every Event Keeps
------

/- Objects are mapped where they have an address, and lie one
behind the other below the part that is not taken. -/
structure Inv (nv : NvMap) : Prop where
  marked : ∀ e ∈ nv.entries, e.mapped = true ↔ e.addr ≠ 0
  small : ∀ e ∈ nv.entries, e.size.toNat < 2 ^ 32
  room : nv.carveoutOffset.toNat ≤ CARVEOUT_SIZE.toNat
  below :
    ∀ e ∈ nv.entries, e.mapped = true →
      CARVEOUT_BASE.toNat ≤ e.addr.toNat ∧
        e.addr.toNat + e.size.toNat ≤
          CARVEOUT_BASE.toNat + nv.carveoutOffset.toNat
  disjoint :
    ∀ (i j : Nat) (e e' : NvMapEntry) (a : Nat), i ≠ j →
      nv.entries[i]? = some e → nv.entries[j]? = some e' →
        e.Covers a → ¬ e'.Covers a

/- The alignments of a layout. -/
def Aligned (nv : NvMap) : Prop :=
  ∀ e ∈ nv.entries, e.mapped = true →
    e.align.toNat ∣ e.addr.toNat

variable {nv : NvMap}

/- Where objects are apart, the alignments are all that is
left. -/
theorem Inv.layout_iff (hInv : nv.Inv) :
    nv.Layout ↔ nv.Aligned := by
  constructor
  · exact fun hLayout => hLayout.aligned
  · intro hAligned
    refine ⟨hInv.disjoint, ?_, hAligned⟩
    intro e hMem hMapped
    have hBelow := hInv.below e hMem hMapped
    have hRoom := hInv.room
    omega

theorem inv_init : ({} : NvMap).Inv := by
  constructor
  · exact fun _ hMem => nomatch hMem
  · exact fun _ hMem => nomatch hMem
  · exact Nat.zero_le _
  · exact fun _ hMem => nomatch hMem
  · intro i j e e' a _ hEntry
    simp at hEntry

/- A new object has no address. -/
theorem Inv.create
    (hInv : nv.Inv)
    (size : U32)
    (align : U64) :
    (nv.create size align).2.Inv := by
  have hMem :
      ∀ e ∈ (nv.create size align).2.entries,
        e ∈ nv.entries ∨
          e.mapped = false ∧ e.addr = 0 ∧
            e.size = size.setWidth 64 := by
    intro e hMem
    rcases List.mem_append.mp hMem with hOld | hNew
    · exact Or.inl hOld
    · rw [List.mem_singleton.mp hNew]
      exact Or.inr ⟨rfl, rfl, rfl⟩
  constructor
  · intro e hE
    rcases hMem e hE with hOld | ⟨hMapped, hAddr, -⟩
    · exact hInv.marked e hOld
    · simp [hMapped, hAddr]
  · intro e hE
    rcases hMem e hE with hOld | ⟨-, -, hSize⟩
    · exact hInv.small e hOld
    · rw [hSize, BitVec.toNat_setWidth]
      have hLt := size.isLt
      omega
  · exact hInv.room
  · intro e hE hMapped
    rcases hMem e hE with hOld | ⟨hNot, -⟩
    · exact hInv.below e hOld hMapped
    · rw [hNot] at hMapped
      cases hMapped
  · have hOld :
        ∀ (i : Nat) (e : NvMapEntry) (a : Nat),
          (nv.create size align).2.entries[i]? = some e →
            e.Covers a → nv.entries[i]? = some e := by
      intro i e a hEntry hCovers
      have hSplit :
          (nv.entries ++ [_])[i]? = some e := hEntry
      rw [List.getElem?_append] at hSplit
      split at hSplit
      · exact hSplit
      · rw [List.getElem?_singleton] at hSplit
        split at hSplit
        · rw [← Option.some.inj hSplit] at hCovers
          cases hCovers.1
        · cases hSplit
    intro i j e e' a hNe hE hE' hCovers hCovers'
    exact
      hInv.disjoint i j e e' a hNe (hOld i e a hE hCovers)
        (hOld j e' a hE' hCovers') hCovers hCovers'

/- An object is replaced; what is taken may grow. -/
theorem Inv.set
    (hInv : nv.Inv)
    {i : Nat}
    {entry' : NvMapEntry}
    (hMarked : entry'.mapped = true ↔ entry'.addr ≠ 0)
    (hSmall : entry'.size.toNat < 2 ^ 32)
    (hGrows : nv.carveoutOffset.toNat ≤ offset.toNat)
    (hRoom : offset.toNat ≤ CARVEOUT_SIZE.toNat)
    (hBelow :
      entry'.mapped = true →
        CARVEOUT_BASE.toNat ≤ entry'.addr.toNat ∧
          entry'.addr.toNat + entry'.size.toNat ≤
            CARVEOUT_BASE.toNat + offset.toNat)
    (hApart :
      ∀ (j : Nat) (e : NvMapEntry) (a : Nat), j ≠ i →
        nv.entries[j]? = some e → e.Covers a →
          ¬ entry'.Covers a) :
    { nv with
      entries := nv.entries.set i entry'
      carveoutOffset := offset }.Inv := by
  constructor
  · intro e hMem
    rcases List.mem_or_eq_of_mem_set hMem with hOld | rfl
    · exact hInv.marked e hOld
    · exact hMarked
  · intro e hMem
    rcases List.mem_or_eq_of_mem_set hMem with hOld | rfl
    · exact hInv.small e hOld
    · exact hSmall
  · exact hRoom
  · intro e hMem hMapped
    rcases List.mem_or_eq_of_mem_set hMem with hOld | rfl
    · have hOldBelow := hInv.below e hOld hMapped
      exact ⟨hOldBelow.1, by dsimp only; omega⟩
    · exact hBelow hMapped
  · intro j k e e' a hNe hE hE' hCovers hCovers'
    simp only [List.getElem?_set] at hE hE'
    split at hE
    · next hJ =>
        subst hJ
        rw [if_neg hNe] at hE'
        split at hE
        · rw [← Option.some.inj hE] at hCovers
          exact
            hApart k e' a (fun hEq => hNe hEq.symm) hE'
              hCovers' hCovers
        · cases hE
    · next hJ =>
        split at hE'
        · next hK =>
            subst hK
            split at hE'
            · rw [← Option.some.inj hE'] at hCovers'
              exact
                hApart j e a (fun hEq => hNe hEq) hE hCovers
                  hCovers'
            · cases hE'
        · exact
            hInv.disjoint j k e e' a hNe hE hE' hCovers
              hCovers'

theorem Inv.handleFree
    (hInv : nv.Inv)
    (call : ServiceCall) :
    (nv.handleFree call).Inv := by
  unfold NvMap.handleFree
  split
  · exact hInv
  · split
    · exact hInv
    · next entry hEntry =>
        have hMem := List.mem_of_getElem? hEntry
        apply hInv.set
        · simp
        · exact hInv.small entry hMem
        · exact Nat.le_refl _
        · exact hInv.room
        · exact fun hMapped => nomatch hMapped
        · exact fun _ _ _ _ _ _ hCovers => nomatch hCovers.1

/- What an allocation finds out about its object. -/
theorem Inv.fits_configured
    (hInv : nv.Inv)
    (hMem : entry ∈ nv.entries)
    (call : ServiceCall) :
    Fits nv.carveoutOffset (configured call entry) := by
  have hAlign := requested_bounds (call.readU32 12)
  exact fits hInv.room (hInv.small entry hMem) hAlign.1 hAlign.2

/- An object that is mapped lies behind all others. -/
theorem Inv.placed
    (hInv : nv.Inv)
    {i : Nat}
    (hEntry : nv.entries[i]? = some entry)
    {call : ServiceCall}
    (hReaches :
      Reaches nv.carveoutOffset (configured call entry)) :
    { nv with
      entries :=
        nv.entries.set i
          (placedAt nv.carveoutOffset (configured call entry))
      carveoutOffset :=
        nv.carveoutOffset +
          allocSize (configured call entry) }.Inv := by
  have hMem := List.mem_of_getElem? hEntry
  have hFits := hInv.fits_configured hMem call
  have hEnd := BitVec.le_def.mp hReaches.2.1
  have hNext := hFits.next
  have hAddress := hFits.address
  have hSize := hFits.size
  apply hInv.set
  · have hNonzero :
        CARVEOUT_BASE + nv.carveoutOffset ≠ 0 := by
      intro hZero
      rw [hZero] at hAddress
      have hBase : CARVEOUT_BASE.toNat = 0xD0000000 := rfl
      simp only [BitVec.ofNat_eq_ofNat, BitVec.toNat_ofNat]
        at hAddress
      omega
    exact iff_of_true rfl hNonzero
  · exact hInv.small entry hMem
  · omega
  · exact hEnd
  · intro _
    show
      CARVEOUT_BASE.toNat ≤
          (CARVEOUT_BASE + nv.carveoutOffset).toNat ∧
        (CARVEOUT_BASE + nv.carveoutOffset).toNat +
            (configured call entry).size.toNat ≤ _
    omega
  · rintro j e a - hE ⟨hMapped, -, hLt⟩ ⟨-, hLe, -⟩
    have hBelow :=
      (hInv.below e (List.mem_of_getElem? hE) hMapped).2
    change (CARVEOUT_BASE + nv.carveoutOffset).toNat ≤ a at hLe
    omega

/- An object that is not mapped only has a new alignment. -/
theorem Inv.configured
    (hInv : nv.Inv)
    {i : Nat}
    (hEntry : nv.entries[i]? = some entry)
    (call : ServiceCall) :
    { nv with
      entries :=
        nv.entries.set i (NvMap.configured call entry) }.Inv := by
  have hMem := List.mem_of_getElem? hEntry
  apply hInv.set
  · exact hInv.marked entry hMem
  · exact hInv.small entry hMem
  · exact Nat.le_refl _
  · exact hInv.room
  · exact hInv.below entry hMem
  · intro j e a hNe hE hCovers hCovers'
    exact
      hInv.disjoint j i e entry a hNe hE hEntry hCovers
        hCovers'

------
-- Allocations
------

variable {call : ServiceCall} {i : Nat}

/- Without an object, nothing happens. -/
theorem found_or
    (nv : NvMap)
    (mem : Option HostMemory)
    (call : ServiceCall)
    (hostMaps : Bool) :
    (∃ i entry, nv.Found call i entry) ∨
      ((∀ i entry, ¬ nv.Found call i entry) ∧
        nv.handleAlloc mem call hostMaps = (nv, mem)) := by
  unfold handleAlloc
  split
  · next hShort =>
      refine Or.inr ⟨fun _ _ hFound => ?_, rfl⟩
      have hLong := hFound.long
      omega
  · next hLong =>
      split
      · next hNone =>
          refine Or.inr ⟨fun _ _ hFound => ?_, rfl⟩
          rw [hFound.index] at hNone
          cases hNone
      · next i hIndex =>
          split
          · next hNone =>
              refine Or.inr ⟨fun j e hFound => ?_, rfl⟩
              obtain rfl : i = j :=
                Option.some.inj (hIndex.symm.trans hFound.index)
              rw [hFound.entry] at hNone
              cases hNone
          · next entry hEntry =>
              exact
                Or.inl ⟨i, entry, Nat.le_of_not_lt hLong, hIndex,
                  hEntry⟩

theorem handleAlloc_of_found
    (hFound : nv.Found call i entry)
    (mem : Option HostMemory) :
    nv.handleAlloc mem call hostMaps =
      ({ nv with
          entries :=
            nv.entries.set i
              (place nv.carveoutOffset (configured call entry)
                mem hostMaps).1
          carveoutOffset :=
            (place nv.carveoutOffset (configured call entry)
              mem hostMaps).2.1 },
        (place nv.carveoutOffset (configured call entry) mem
          hostMaps).2.2) := by
  unfold handleAlloc
  rw [if_neg (Nat.not_lt.mpr hFound.long)]
  simp only [hFound.index, hFound.entry]

/- The object only has a new alignment. -/
theorem handleAlloc_of_stays
    {mem : Option HostMemory}
    (hFound : nv.Found call i entry)
    (hNot :
      mem.isSome = true →
        ¬ Reaches nv.carveoutOffset (configured call entry)) :
    nv.handleAlloc mem call hostMaps =
      ({ nv with
          entries := nv.entries.set i (configured call entry) },
        mem) := by
  rw [handleAlloc_of_found hFound, place_of_not_reaches hNot]

/- The host is asked to map it. -/
theorem handleAlloc_of_reaches
    {m : HostMemory}
    (hInv : nv.Inv)
    (hFound : nv.Found call i entry)
    (hReaches :
      Reaches nv.carveoutOffset (configured call entry)) :
    nv.handleAlloc (some m) call hostMaps =
      (if hostMaps then
          { nv with
            entries :=
              nv.entries.set i
                (placedAt nv.carveoutOffset
                  (configured call entry))
            carveoutOffset :=
              nv.carveoutOffset +
                allocSize (configured call entry) }
        else
          { nv with
            entries :=
              nv.entries.set i (configured call entry) },
        some (m.mapPhysical (CARVEOUT_BASE + nv.carveoutOffset)
          (allocSize (configured call entry)) .RW none
            hostMaps).2) := by
  have hMem := List.mem_of_getElem? hFound.entry
  rw [handleAlloc_of_found hFound,
    place_of_reaches hReaches (hInv.fits_configured hMem call)
      hInv.room]
  cases hostMaps <;> rfl

theorem Inv.handleAlloc
    (hInv : nv.Inv)
    (mem : Option HostMemory)
    (call : ServiceCall)
    (hostMaps : Bool) :
    (nv.handleAlloc mem call hostMaps).1.Inv := by
  rcases found_or nv mem call hostMaps with
    ⟨i, entry, hFound⟩ | ⟨-, hSame⟩
  · by_cases hReaches :
        Reaches nv.carveoutOffset (NvMap.configured call entry)
    · cases mem with
      | none =>
          have hNot :
              (none : Option HostMemory).isSome = true →
                ¬ Reaches nv.carveoutOffset
                  (NvMap.configured call entry) :=
            fun hSome => nomatch hSome
          rw [handleAlloc_of_stays hFound hNot]
          exact hInv.configured hFound.entry call
      | some m =>
          rw [handleAlloc_of_reaches hInv hFound hReaches]
          cases hostMaps with
          | true => exact hInv.placed hFound.entry hReaches
          | false => exact hInv.configured hFound.entry call
    · rw [handleAlloc_of_stays hFound (fun _ => hReaches)]
      exact hInv.configured hFound.entry call
  · rw [hSame]
    exact hInv

/- Objects lie apart whatever happens. -/
theorem Inv.step
    {dev : NvDevice}
    (hInv : dev.map.Inv)
    (e : NvEvent) :
    (dev.step e).map.Inv := by
  cases e with
  | command call hostMaps =>
      show (dev.map.handleCommand _ _ _).1.Inv
      unfold NvMap.handleCommand
      cases ioctl call.cmdId with
      | create => exact hInv.create _ _
      | alloc => exact hInv.handleAlloc _ _ _
      | free => exact hInv.handleFree _
      | fromId => exact hInv
      | param => exact hInv
      | getId => exact hInv
      | getHandle => exact hInv
      | other => exact hInv
  | nvMapAlloc size align => exact hInv.create _ _
  | store address value => exact hInv

/- Alignments when one object is replaced. -/
theorem Aligned.set_iff
    (hAligned : nv.Aligned)
    (hEntry : nv.entries[i]? = some entry)
    {entry' : NvMapEntry}
    {offset : U64} :
    { nv with
        entries := nv.entries.set i entry'
        carveoutOffset := offset }.Aligned ↔
      (entry'.mapped = true →
        entry'.align.toNat ∣ entry'.addr.toNat) := by
  constructor
  · intro hAll
    apply hAll
    apply List.mem_set
    exact (List.getElem?_eq_some_iff.mp hEntry).1
  · intro hNew e hMem
    rcases List.mem_or_eq_of_mem_set hMem with hOld | rfl
    · exact hAligned e hOld
    · exact hNew

/- A new object, and one that loses its address. -/
theorem Aligned.create
    (hAligned : nv.Aligned)
    (size : U32)
    (align : U64) :
    (nv.create size align).2.Aligned := by
  intro e hMem hMapped
  rcases List.mem_append.mp hMem with hOld | hNew
  · exact hAligned e hOld hMapped
  · rw [List.mem_singleton.mp hNew] at hMapped
    cases hMapped

theorem Aligned.handleFree
    (hAligned : nv.Aligned)
    (call : ServiceCall) :
    (nv.handleFree call).Aligned := by
  unfold NvMap.handleFree
  split
  · exact hAligned
  · split
    · exact hAligned
    · next hEntry =>
        apply (hAligned.set_iff hEntry).mpr
        intro hMapped
        cases hMapped

end NvMap

------
-- When an Allocation Is Correct
------

namespace NvDevice

variable {dev : NvDevice} {call : ServiceCall}
variable {hostMaps : Bool} {i : Nat} {entry : NvMapEntry}

theorem step_alloc
    (hIoctl : NvMap.ioctl call.cmdId = .alloc) :
    dev.step (.command call hostMaps) =
      { map :=
          (dev.map.handleAlloc dev.mem call hostMaps).1
        mem :=
          (dev.map.handleAlloc dev.mem call hostMaps).2 } := by
  simp only [step, NvMap.handleCommand, hIoctl]

/- What the host leaves of the bytes below an object that is
mapped. -/
theorem byteAt_of_reaches
    (hInv : dev.map.Inv)
    (hIoctl : NvMap.ioctl call.cmdId = .alloc)
    (hFound : dev.map.Found call i entry)
    (hMem : dev.mem.isSome = true)
    (hReaches :
      NvMap.Reaches dev.map.carveoutOffset
        (NvMap.configured call entry))
    {a : Nat}
    (hBelow :
      a < (NvMap.CARVEOUT_BASE +
        dev.map.carveoutOffset).toNat) :
    (dev.step (.command call hostMaps)).byteAt a =
      if HostMemory.firstPage
          (NvMap.CARVEOUT_BASE +
            dev.map.carveoutOffset).toNat ≤ a then
        fill hostMaps
      else dev.byteAt a := by
  rcases Option.isSome_iff_exists.mp hMem with ⟨m, hSome⟩
  have hFits :=
    hInv.fits_configured (List.mem_of_getElem? hFound.entry)
      call
  have hAddress := hFits.address
  have hRoom := hInv.room
  have hBase : NvMap.CARVEOUT_BASE.toNat = 0xD0000000 := rfl
  have hEnd : NvMap.CARVEOUT_SIZE.toNat = 0x10000000 := rfl
  have hLow :
      (NvMap.CARVEOUT_BASE +
        dev.map.carveoutOffset).toNat < 2 ^ 33 := by
    omega
  rw [step_alloc hIoctl, hSome,
    NvMap.handleAlloc_of_reaches hInv hFound hReaches]
  unfold byteAt
  rw [hSome]
  show HostMemory.guestByte
    (m.mapPhysical _ _ .RW none hostMaps).2 a = _
  rw [(HostMemory.mapPhysical_of_mappable hReaches.2.2 hLow
    hFits.small).2 a]
  have hInside :
      a < HostMemory.firstPage
          (NvMap.CARVEOUT_BASE +
            dev.map.carveoutOffset).toNat +
        HostMemory.pageBytes
          (NvMap.CARVEOUT_BASE +
            dev.map.carveoutOffset).toNat
          (NvMap.allocSize
            (NvMap.configured call entry)).toNat := by
    unfold HostMemory.firstPage HostMemory.pageBytes
    omega
  simp only [hInside, and_true]
  rfl

/- An object that stays where it is. -/
theorem allocates_of_stays
    (hInv : dev.map.Inv)
    (hAligned : dev.map.Aligned)
    (hIoctl : NvMap.ioctl call.cmdId = .alloc)
    (hFound : dev.map.Found call i entry)
    (hNot :
      dev.mem.isSome = true →
        ¬ NvMap.Reaches dev.map.carveoutOffset
          (NvMap.configured call entry)) :
    dev.Allocates (.command call hostMaps) ↔
      dev.AdmitsObject call hostMaps i entry := by
  have hStep :
      dev.step (.command call hostMaps) =
        { map :=
            { dev.map with
              entries :=
                dev.map.entries.set i
                  (NvMap.configured call entry) }
          mem := dev.mem } := by
    rw [step_alloc hIoctl,
      NvMap.handleAlloc_of_stays hFound hNot]
  have hInv' := hInv.step (.command call hostMaps)
  have hKeeps : dev.Keeps call hostMaps := by
    intro _ j e a _ _ _
    rw [hStep]
    rfl
  have hMarked :=
    hInv.marked entry (List.mem_of_getElem? hFound.entry)
  unfold Allocates AdmitsObject
  rw [hInv'.layout_iff, hStep]
  rw [show (NvMap.Aligned _ ↔ _) from
    hAligned.set_iff hFound.entry]
  constructor
  · rintro ⟨hNew, -⟩
    refine ⟨fun hAddr => hNew (hMarked.mpr hAddr), ?_⟩
    exact fun hMem hReaches => absurd hReaches (hNot hMem)
  · rintro ⟨hOld, -⟩
    exact
      ⟨fun hMapped => hOld (hMarked.mp hMapped), hKeeps⟩

/- The layout that a mapping leaves. -/
theorem layout_of_reaches
    (hInv : dev.map.Inv)
    (hAligned : dev.map.Aligned)
    (hIoctl : NvMap.ioctl call.cmdId = .alloc)
    (hFound : dev.map.Found call i entry)
    (hMem : dev.mem.isSome = true)
    (hReaches :
      NvMap.Reaches dev.map.carveoutOffset
        (NvMap.configured call entry)) :
    (dev.step (.command call hostMaps)).map.Layout ↔
      (hostMaps = true →
        (NvMap.requested (call.readU32 12)).toNat ∣
          (NvMap.CARVEOUT_BASE +
            dev.map.carveoutOffset).toNat) := by
  have hInv' := hInv.step (.command call hostMaps)
  have hZero : entry.addr = 0 := hReaches.1
  have hMarked :=
    hInv.marked entry (List.mem_of_getElem? hFound.entry)
  rcases Option.isSome_iff_exists.mp hMem with ⟨m, hSome⟩
  rw [hInv'.layout_iff, step_alloc hIoctl, hSome,
    NvMap.handleAlloc_of_reaches hInv hFound hReaches]
  cases hostMaps with
  | true =>
      refine
        (hAligned.set_iff hFound.entry).trans ?_
      exact
        ⟨fun hNew _ => hNew rfl, fun hNew _ => hNew rfl⟩
  | false =>
      refine
        (hAligned.set_iff hFound.entry).trans ?_
      apply iff_of_true
      · intro hMapped
        exact absurd hZero (hMarked.mp hMapped)
      · exact fun hFalse => nomatch hFalse

/- The bytes of others are kept where their page is not taken,
or held what the mapping leaves. -/
theorem keeps_of_reaches
    (hInv : dev.map.Inv)
    (hIoctl : NvMap.ioctl call.cmdId = .alloc)
    (hFound : dev.map.Found call i entry)
    (hMem : dev.mem.isSome = true)
    (hReaches :
      NvMap.Reaches dev.map.carveoutOffset
        (NvMap.configured call entry)) :
    dev.Keeps call hostMaps ↔
      ∀ j e a, j ≠ i → dev.map.entries[j]? = some e →
        e.Covers a →
          HostMemory.firstPage
              (NvMap.CARVEOUT_BASE +
                dev.map.carveoutOffset).toNat ≤ a →
            dev.byteAt a = fill hostMaps := by
  have hFits :=
    hInv.fits_configured (List.mem_of_getElem? hFound.entry)
      call
  have hByte :
      ∀ (j : Nat) (e : NvMapEntry) (a : Nat),
        dev.map.entries[j]? = some e → e.Covers a →
          (dev.step (.command call hostMaps)).byteAt a =
            if HostMemory.firstPage
                (NvMap.CARVEOUT_BASE +
                  dev.map.carveoutOffset).toNat ≤ a then
              fill hostMaps
            else dev.byteAt a := by
    intro j e a hE hCovers
    apply byteAt_of_reaches hInv hIoctl hFound hMem hReaches
    have hBelow :=
      hInv.below e (List.mem_of_getElem? hE) hCovers.1
    have hLt := hCovers.2.2
    have hAddress := hFits.address
    omega
  constructor
  · intro hKeeps j e a hNe hE hCovers hPage
    have hOther :
        dev.map.handleIndex (call.readU32 0) ≠ some j := by
      rw [hFound.index]
      exact fun hEq => hNe (Option.some.inj hEq).symm
    rw [← hKeeps hIoctl j e a hOther hE hCovers,
      hByte j e a hE hCovers, if_pos hPage]
  · intro hFill _ j e a hOther hE hCovers
    rw [hByte j e a hE hCovers]
    split
    · next hPage =>
        rw [hFill j e a _ hE hCovers hPage]
        rintro rfl
        exact hOther hFound.index
    · rfl

/- An object that the host is asked to map. -/
theorem allocates_of_reaches
    (hInv : dev.map.Inv)
    (hAligned : dev.map.Aligned)
    (hIoctl : NvMap.ioctl call.cmdId = .alloc)
    (hFound : dev.map.Found call i entry)
    (hMem : dev.mem.isSome = true)
    (hReaches :
      NvMap.Reaches dev.map.carveoutOffset
        (NvMap.configured call entry)) :
    dev.Allocates (.command call hostMaps) ↔
      dev.AdmitsObject call hostMaps i entry := by
  have hZero : entry.addr = 0 := hReaches.1
  unfold AdmitsObject
  show _ ∧ dev.Keeps call hostMaps ↔ _
  rw [layout_of_reaches hInv hAligned hIoctl hFound hMem
      hReaches,
    keeps_of_reaches hInv hIoctl hFound hMem hReaches]
  constructor
  · rintro ⟨hNew, hFill⟩
    exact
      ⟨fun hAddr => absurd hZero hAddr,
        fun _ _ => ⟨hNew, hFill⟩⟩
  · rintro ⟨-, hBoth⟩
    exact hBoth hMem hReaches

/- A request is for one object at most. -/
theorem admits_iff_of_found
    (hIoctl : NvMap.ioctl call.cmdId = .alloc)
    (hFound : dev.map.Found call i entry) :
    dev.Admits (.command call hostMaps) ↔
      dev.AdmitsObject call hostMaps i entry := by
  constructor
  · exact fun hAll => hAll hIoctl i entry hFound
  · intro hHere _ j e hOther
    obtain rfl : i = j :=
      Option.some.inj
        (hFound.index.symm.trans hOther.index)
    obtain rfl : entry = e :=
      Option.some.inj
        (hFound.entry.symm.trans hOther.entry)
    exact hHere

/- The other commands leave objects where they are. -/
theorem aligned_of_not_alloc
    (hAligned : dev.map.Aligned)
    (hIoctl : NvMap.ioctl call.cmdId ≠ .alloc) :
    (dev.step (.command call hostMaps)).map.Aligned := by
  show (dev.map.handleCommand _ _ _).1.Aligned
  unfold NvMap.handleCommand
  cases hKind : NvMap.ioctl call.cmdId with
  | create => exact hAligned.create _ _
  | alloc => exact absurd hKind hIoctl
  | free => exact hAligned.handleFree _
  | fromId => exact hAligned
  | param => exact hAligned
  | getId => exact hAligned
  | getHandle => exact hAligned
  | other => exact hAligned

/- When an event is correct, where the objects are. -/
theorem allocates_iff
    (hInv : dev.map.Inv)
    (hAligned : dev.map.Aligned)
    (e : NvEvent) :
    dev.Allocates e ↔ dev.Admits e := by
  have hInv' := hInv.step e
  cases e with
  | command call hostMaps =>
      by_cases hIoctl : NvMap.ioctl call.cmdId = .alloc
      · rcases NvMap.found_or dev.map dev.mem call hostMaps with
          ⟨i, entry, hFound⟩ | ⟨hNone, hSame⟩
        · rw [admits_iff_of_found hIoctl hFound]
          by_cases hReaches :
              dev.mem.isSome = true ∧
                NvMap.Reaches dev.map.carveoutOffset
                  (NvMap.configured call entry)
          · exact
              allocates_of_reaches hInv hAligned hIoctl hFound
                hReaches.1 hReaches.2
          · exact
              allocates_of_stays hInv hAligned hIoctl hFound
                (fun hMem hThere => hReaches ⟨hMem, hThere⟩)
        · have hStep :
              dev.step (.command call hostMaps) = dev := by
            rw [step_alloc hIoctl, hSame]
          apply iff_of_true
          · refine ⟨?_, ?_⟩
            · rw [hStep, hInv.layout_iff]
              exact hAligned
            · intro _ j e a _ _ _
              rw [hStep]
          · exact fun _ i entry hFound =>
              absurd hFound (hNone i entry)
      · apply iff_of_true
        · exact
            ⟨hInv'.layout_iff.mpr
                (aligned_of_not_alloc hAligned hIoctl),
              fun hAlloc => absurd hAlloc hIoctl⟩
        · exact fun hAlloc => absurd hAlloc hIoctl
  | nvMapAlloc size align =>
      apply iff_of_true
      · exact
          ⟨hInv'.layout_iff.mpr (hAligned.create _ _), trivial⟩
      · trivial
  | store address value =>
      apply iff_of_true
      · exact ⟨hInv'.layout_iff.mpr hAligned, trivial⟩
      · trivial

/-
  In a run the layout is kept, and no allocation changes bytes
  of other objects, exactly if each of its events is admitted
  in the state it finds.
-/
theorem allocations_iff
    (mem : Option HostMemory)
    (events : List NvEvent) :
    EventRun.Guarded step Allocates { mem := mem } events ↔
      EventRun.Guarded step Admits { mem := mem } events := by
  apply EventRun.guarded_congr
    (I := fun dev => dev.map.Inv ∧ dev.map.Aligned)
  · rintro dev e ⟨hInv, -⟩ hAllocates
    exact ⟨hInv.step e, hAllocates.1.aligned⟩
  · rintro dev e ⟨hInv, hAligned⟩
    exact allocates_iff hInv hAligned e
  · exact
      ⟨NvMap.inv_init, fun _ hMem => nomatch hMem⟩

def createCall (size : U32) : ServiceCall :=
  { service := 0
    cmdId := 0xC0100001
    rawIn := Bytes.ofWord size
    outMax := 4 }

def allocCall (handle align : U32) : ServiceCall :=
  { service := 0
    cmdId := 0xC0200004
    rawIn := Bytes.ofWords [handle, 0, 0, align, 0, 0, 0, 0]
    outMax := 4 }

/- Two objects of a page; the first is mapped and written. -/
def sharedPage : List NvEvent :=
  [.command (createCall 0x1000) true,
    .command (createCall 0x1000) true,
    .command (allocCall 0xCAFE0001 0x1000) true,
    .store 0xD0000000 7]

/- The second shares its host page, which is emptied. -/
theorem sharedPage_not_allocates :
    ¬ EventRun.Guarded step Allocates { mem := some {} }
        (sharedPage ++
          [.command (allocCall 0xCAFE0002 0x1000) true]) := by
  intro hAllocates
  have hLast := hAllocates sharedPage _ (List.prefix_refl _)
  have hSame :=
    hLast.2 (by decide) 0
      (NvMap.placedAt 0
        { handle := 0xCAFE0001
          id := 1
          size := 0x1000
          align := 0x1000 })
      0xD0000000 (by decide) (by decide)
      ⟨by decide, by decide, by decide⟩
  revert hSame
  decide

end NvDevice

end M1Switch
