import M1Switch.Loader.Nro.Image
import M1Switch.Loader.Nro.Reads

/-
  What the NRO loader maps, and whether the segments fit.

  The regions of a load lie behind the text's address without a
  gap, so they are known by how far they go.

  Key definitions include:
    * `NroLoader.MapsExtent`
    * `extentOf`

  Main results:
    * `meets_mapSegments`
    * `mapEnds_segments`
-/

------
-- Mapped Regions
------

namespace M1Switch

namespace NroLoader

open HostMemory (Mappable baseAddr)
open NroGuest (KeepsMap pointer)

variable {hostMaps : U64 → U64 → Bool} {g g' : NroGuest}
variable {size extent : Nat} {ptr : U64}
variable {f : NroGuest → LoadRun (Result × NroGuest)}

/- The host address of the text. -/
def textHost : Nat := 0x340000000

/- The load has mapped what lies up to an extent from the text's
address on. -/
structure MapsExtent (g : NroGuest) (extent : Nat) : Prop where
  covered :
    ∀ a, Covered g.regions a ↔
      textHost ≤ a ∧ a < textHost + extent
  mapped :
    ∀ a, textHost ≤ a → a < textHost + extent →
      (g.mem.bytes a).isSome = true

/- A range lies in it. -/
def InExtent (extent start count : Nat) : Prop :=
  count > 0 →
    textHost ≤ start ∧ start + count ≤ textHost + extent

theorem MapsExtent.keeps
    (hMaps : MapsExtent g extent)
    (hKeeps : KeepsMap g g') :
    MapsExtent g' extent := by
  constructor
  · rw [hKeeps.regions]
    exact hMaps.covered
  · intro a hFrom hUntil
    rw [hKeeps.mapped]
    exact hMaps.mapped a hFrom hUntil

theorem coveredRange_iff
    (hMaps : MapsExtent g extent)
    (start count : Nat) :
    CoveredRange g.regions start count ↔
      InExtent extent start count := by
  unfold CoveredRange InExtent
  simp only [hMaps.covered]
  constructor
  · intro hAll hPos
    have hFirst := hAll 0 hPos
    have hLast := hAll (count - 1) (by omega)
    omega
  · intro hIn i hI
    have hBoth := hIn (by omega)
    omega

theorem mapped_of_inExtent
    (hMaps : MapsExtent g extent)
    {start count : Nat}
    (hIn : InExtent extent start count) :
    g.mem.Mapped start count := by
  intro i hI
  have hBoth := hIn (by omega)
  exact hMaps.mapped _ (by omega) (by omega)

/- Filling and patching are in bounds in the extent. -/
theorem meets_fill
    (hMaps : MapsExtent g extent)
    {count : Nat}
    {source : Nat → U8} :
    (g.fill ptr count source).Meets (Access.InBounds size) ↔
      InExtent extent ptr.toNat count := by
  rw [← coveredRange_iff hMaps]
  constructor
  · intro hMeets
    exact hMeets.2 _ (List.mem_singleton_self _)
  · intro hCovered
    have hMapped :=
      mapped_of_inExtent hMaps
        ((coveredRange_iff hMaps _ _).mp hCovered)
    refine ⟨?_, ?_⟩
    · unfold NroGuest.fill
      rw [if_pos hMapped]
      rfl
    · intro e hE
      rw [List.mem_singleton.mp hE]
      exact hCovered

theorem meets_patch
    (hMaps : MapsExtent g extent)
    {bytes : List U8} :
    (g.patch ptr bytes).Meets (Access.InBounds size) ↔
      InExtent extent ptr.toNat bytes.length := by
  rw [← coveredRange_iff hMaps]
  constructor
  · intro hMeets
    exact hMeets.2 _ (List.mem_singleton_self _)
  · intro hCovered
    have hMapped :=
      mapped_of_inExtent hMaps
        ((coveredRange_iff hMaps _ _).mp hCovered)
    refine ⟨?_, ?_⟩
    · unfold NroGuest.patch
      rw [if_pos hMapped]
      rfl
    · intro e hE
      rw [List.mem_singleton.mp hE]
      exact hCovered

/- A value is written in the extent, or refused. -/
def WriteInside (extent : Nat) (address : U64) (count : Nat) :
    Prop :=
  address < HostMemory.ADDR_SPACE_SIZE ∧
      address + BitVec.ofNat 64 count ≤
        HostMemory.ADDR_SPACE_SIZE →
    InExtent extent (pointer address).toNat count

theorem meets_write
    (hMaps : MapsExtent g extent)
    {address : U64}
    {bytes : List U8} :
    (g.write address bytes).Meets (Access.InBounds size) ↔
      WriteInside extent address bytes.length := by
  unfold NroGuest.write WriteInside
  by_cases hRefused :
      ¬ address < HostMemory.ADDR_SPACE_SIZE ∨
        address + BitVec.ofNat 64 bytes.length >
          HostMemory.ADDR_SPACE_SIZE
  · rw [if_pos hRefused]
    refine iff_of_true (Logged.meets_pure _) ?_
    rintro ⟨hValid, hEnd⟩
    rcases hRefused with hNot | hPast
    · exact absurd hValid hNot
    · exact absurd hPast (BitVec.not_lt.mpr hEnd)
  · rw [if_neg hRefused, meets_patch hMaps]
    rw [not_or, not_not] at hRefused
    have hTaken :
        address < HostMemory.ADDR_SPACE_SIZE ∧
          address + BitVec.ofNat 64 bytes.length ≤
            HostMemory.ADDR_SPACE_SIZE :=
      ⟨hRefused.1, BitVec.not_lt.mp hRefused.2⟩
    exact ⟨fun hIn _ => hIn, fun hAll => hAll hTaken⟩

/- A segment is copied from the file into the extent. -/
def CopyFits
    (size extent : Nat)
    (ptr : U64)
    (start count : U32) : Prop :=
  count > 0 →
    start.toNat + count.toNat ≤ size ∧
      InExtent extent ptr.toNat count.toNat

theorem meets_copy
    (hMaps : MapsExtent g extent)
    {buf : NroBuffer}
    {start count : U32} :
    (g.copy buf ptr start count).Meets (Access.InBounds size) ↔
      CopyFits size extent ptr start count := by
  unfold NroGuest.copy CopyFits
  by_cases hSome : count > 0
  · rw [if_pos hSome]
    refine
      (Logged.meets_bind_of_some (a := ()) rfl).trans ?_
    rw [meets_fill hMaps]
    have hRead :
        (Logged.emit
            (Access.read ⟨start.toNat, count.toNat⟩)).Meets
              (Access.InBounds size) ↔
          start.toNat + count.toNat ≤ size := by
      simp [Logged.Meets, Logged.emit, Access.InBounds,
        Span.Inside]
    rw [hRead]
    exact ⟨fun hBoth _ => hBoth, fun hAll => hAll hSome⟩
  · rw [if_neg hSome]
    exact
      iff_of_true (Logged.meets_pure _)
        fun hYes => absurd hYes hSome

/- A word can be read where it is mapped. -/
theorem meets_word
    {P : Access → Prop}
    {ptr : U64} :
    (g.word ptr).Meets P ↔ g.mem.Mapped ptr.toNat 4 := by
  unfold NroGuest.word Logged.Meets
  simp

/- The words that replacing system calls changes are in the
code. -/
theorem meets_patchCode
    (hMaps : MapsExtent g extent)
    {mmap : U64 → Bool}
    {ptr length : U64}
    (hIn : InExtent extent ptr.toNat length.toNat) :
    (g.patchCode mmap ptr length).Meets
      (Access.InBounds size) := by
  refine ⟨rfl, ?_⟩
  intro e hE
  rcases List.mem_filterMap.mp hE with ⟨k, hK, hPatch⟩
  have hLess := List.mem_range.mp hK
  have hBoth := hIn (by omega)
  dsimp only at hPatch
  split at hPatch
  · simp at hPatch
  · rw [← Option.some.inj hPatch]
    show CoveredRange _ _ _
    rw [coveredRange_iff hMaps, Bytes.length_ofWord]
    intro _
    omega

------
-- Mapping Segments
------

open NroGuest (Grants KeepsMap pointer)

variable {header : NroPackedHeader} {buf : NroBuffer}

/- The first region of a load. -/
theorem mapsExtent_first
    (hNone : g.regions = [])
    {length : U64}
    (hPages : NroGuest.InPages NRO_TEXT_BASE length)
    (hGrants : Grants hostMaps NRO_TEXT_BASE length) :
    MapsExtent (g.map hostMaps NRO_TEXT_BASE length).2
      length.toNat := by
  rcases NroGuest.map_snd (g := g) hPages hGrants with
    ⟨hRegions, _, hBytes⟩
  have hPtr : (pointer NRO_TEXT_BASE).toNat = textHost := by
    decide
  rw [hPtr] at hRegions
  constructor
  · intro a
    rw [hRegions, hNone]
    simp [Covered]
  · intro a hFrom hUntil
    rw [hBytes, hPtr, if_pos ⟨hFrom, hUntil⟩]
    rfl

/- The second one, behind the first page of the first. -/
theorem mapsExtent_second
    (hMaps : MapsExtent g extent)
    (hFirst : 0x4000 ≤ extent)
    {address length : U64}
    (hAddress : address = 0x40004000)
    (hPages : NroGuest.InPages address length)
    (hGrants : Grants hostMaps address length) :
    MapsExtent (g.map hostMaps address length).2
      (max extent (0x4000 + length.toNat)) := by
  rcases NroGuest.map_snd (g := g) hPages hGrants with
    ⟨hRegions, _, hBytes⟩
  have hPtr : (pointer address).toNat = textHost + 0x4000 := by
    rw [hAddress]
    decide
  rw [hPtr] at hRegions
  have hCovered :
      ∀ a, Covered
            (g.map hostMaps address length).2.regions a ↔
          textHost ≤ a ∧
            a < textHost + max extent (0x4000 + length.toNat) := by
    intro a
    have hOld := hMaps.covered a
    rw [hRegions]
    unfold Covered at hOld ⊢
    simp only [List.mem_append, List.mem_singleton, or_and_right,
      exists_or, exists_eq_left, hOld]
    omega
  constructor
  · exact hCovered
  · intro a hFrom hUntil
    rw [hBytes, hPtr]
    split
    · rfl
    · exact hMaps.mapped a hFrom (by omega)

/- How far the regions of a load go. -/
def extentOf (header : NroPackedHeader) : Nat :=
  if header.split then
    max (textRegionSz header).toNat
      (0x4000 + (dataRegionSz header).toNat)
  else (wholeSz header).toNat

/- The host maps all regions. -/
def GrantsAll
    (hostMaps : U64 → U64 → Bool)
    (header : NroPackedHeader) : Prop :=
  if header.split then
    Grants hostMaps NRO_TEXT_BASE (textRegionSz header) ∧
      Grants hostMaps header.dataAddr (dataRegionSz header)
  else Grants hostMaps NRO_TEXT_BASE (wholeSz header)

/- Segments that are copied are in the file, and fit. -/
def SegmentFits
    (size extent : Nat)
    (start count : U32)
    (place : Nat) : Prop :=
  count > 0 →
    start.toNat + count.toNat ≤ size ∧
      place + count.toNat ≤ extent

/-
  Text and rodata fit into the region that is mapped for them,
  once it is.  Data fits into what is mapped then.
-/
def SegmentsFit
    (hostMaps : U64 → U64 → Bool)
    (header : NroPackedHeader)
    (size : Nat) : Prop :=
  if header.split then
    Grants hostMaps NRO_TEXT_BASE (textRegionSz header) →
      SegmentFits size (textRegionSz header).toNat
          header.textStart header.textSize 0 ∧
        SegmentFits size (textRegionSz header).toNat
          header.rodataStart header.rodataSize
          header.rodataStart.toNat ∧
        (Grants hostMaps header.dataAddr (dataRegionSz header) →
          SegmentFits size (extentOf header) header.dataStart
            header.dataSize 0x4000)
  else
    Grants hostMaps NRO_TEXT_BASE (wholeSz header) →
      SegmentFits size (wholeSz header).toNat
          header.textStart header.textSize 0 ∧
        SegmentFits size (wholeSz header).toNat
          header.rodataStart header.rodataSize
          header.rodataStart.toNat ∧
        SegmentFits size (wholeSz header).toNat
          header.dataStart header.dataSize
          header.dataStart.toNat

/- A place in the text's region, as a pointer. -/
theorem copyFits_iff
    {start count : U32}
    (place : Nat)
    (hPtr : ptr.toNat = textHost + place) :
    CopyFits size extent ptr start count ↔
      SegmentFits size extent start count place := by
  unfold CopyFits SegmentFits InExtent
  rw [hPtr]
  apply forall_congr'
  intro hSome
  have hPos : count.toNat > 0 := hSome
  apply and_congr_right
  intro _
  omega

theorem toNat_textPtr :
    (pointer NRO_TEXT_BASE).toNat = textHost := by
  decide

/- A segment behind the text's address. -/
theorem toNat_segmentPtr
    {address : U64}
    {place : Nat}
    (hAddress : address.toNat = 0x40000000 + place)
    (hPlace : place < 2 ^ 33) :
    (pointer NRO_TEXT_BASE +
        (address - NRO_TEXT_BASE)).toNat =
      textHost + place := by
  have hBase : NRO_TEXT_BASE.toNat = 0x40000000 := by decide
  have hSub :
      (address - NRO_TEXT_BASE).toNat = place := by
    rw [BitVec.toNat_sub_of_le, hAddress, hBase]
    · omega
    · rw [BitVec.le_def, hAddress, hBase]
      omega
  rw [BitVec.toNat_add, hSub, toNat_textPtr]
  unfold textHost
  omega

theorem toNat_rodataPtr :
    (pointer NRO_TEXT_BASE +
        (header.rodataAddr - NRO_TEXT_BASE)).toNat =
      textHost + header.rodataStart.toNat :=
  toNat_segmentPtr toNat_rodataAddr
    (Nat.lt_trans header.rodataStart.isLt (by decide))

theorem toNat_dataPtr
    (hNot : header.split = false) :
    (pointer NRO_TEXT_BASE +
        (header.dataAddr - NRO_TEXT_BASE)).toNat =
      textHost + header.dataStart.toNat :=
  toNat_segmentPtr (toNat_dataAddr_of_not_split hNot)
    (Nat.lt_trans header.dataStart.isLt (by decide))

/- A sequence in an extent that its first part keeps. -/
theorem meets_then
    {α : Type}
    {P : Access → Prop}
    {x : LoadRun NroGuest}
    {f : NroGuest → LoadRun α}
    {first second : Prop}
    (hMaps : MapsExtent g extent)
    (hFirst : x.Meets P ↔ first)
    (hKeeps : ∀ g', x.value = some g' → KeepsMap g g')
    (hSecond :
      ∀ g', MapsExtent g' extent →
        ((f g').Meets P ↔ second)) :
    (x >>= f).Meets P ↔ first ∧ second := by
  rw [Logged.meets_bind, hFirst]
  constructor
  · rintro ⟨hHolds, hRest⟩
    rcases (hFirst.mpr hHolds).exists_value with ⟨g', hG⟩
    exact
      ⟨hHolds,
        (hSecond g' (hMaps.keeps (hKeeps g' hG))).mp
          (hRest g' hG)⟩
  · rintro ⟨hHolds, hRest⟩
    refine ⟨hHolds, fun g' hG => ?_⟩
    exact (hSecond g' (hMaps.keeps (hKeeps g' hG))).mpr hRest

/-
  A routine in an extent that is mapped: it is in bounds if its
  copies fit, and it succeeds.
-/
structure Lays
    (size extent : Nat)
    (x : LoadRun (Result × NroGuest))
    (fits : Prop) : Prop where
  meets : x.Meets (Access.InBounds size) ↔ fits
  ends :
    ∀ r, x.value = some r →
      r.1 = .Success ∧ MapsExtent r.2 extent

theorem lays_pure
    (hMaps : MapsExtent g extent) :
    Lays size extent (pure (.Success, g)) True := by
  refine ⟨iff_true_intro (Logged.meets_pure _), ?_⟩
  intro r hValue
  rw [← Option.some.inj hValue]
  exact ⟨rfl, hMaps⟩

/- A first step that keeps the extent. -/
theorem Lays.bind
    {x : LoadRun NroGuest}
    {first second : Prop}
    (hMaps : MapsExtent g extent)
    (hFirst : x.Meets (Access.InBounds size) ↔ first)
    (hKeeps : ∀ g', x.value = some g' → KeepsMap g g')
    (hSecond :
      ∀ g', MapsExtent g' extent →
        Lays size extent (f g') second) :
    Lays size extent (x >>= f) (first ∧ second) := by
  refine
    ⟨meets_then hMaps hFirst hKeeps fun g' hMaps' =>
      (hSecond g' hMaps').meets, ?_⟩
  intro r hValue
  rcases Logged.value_bind_eq_some.mp hValue with
    ⟨g', hG, hRest⟩
  exact (hSecond g' (hMaps.keeps (hKeeps g' hG))).ends r hRest

theorem Lays.copy
    {start count : U32}
    {place : Nat}
    {rest : Prop}
    (hMaps : MapsExtent g extent)
    (hPtr : ptr.toNat = textHost + place)
    (hRest :
      ∀ g', MapsExtent g' extent → Lays size extent (f g') rest) :
    Lays size extent (g.copy buf ptr start count >>= f)
      (SegmentFits size extent start count place ∧ rest) :=
  Lays.bind hMaps
    ((meets_copy hMaps).trans (copyFits_iff place hPtr))
    (fun _ => NroGuest.keepsMap_copy) hRest

/- Filling a whole region. -/
theorem Lays.fill
    {ptr length : U64}
    {source : Nat → U8}
    {rest : Prop}
    (place : Nat)
    (hMaps : MapsExtent g extent)
    (hPtr : ptr.toNat = textHost + place)
    (hFits : place + length.toNat ≤ extent)
    (hRest :
      ∀ g', MapsExtent g' extent → Lays size extent (f g') rest) :
    Lays size extent (g.fill ptr length.toNat source >>= f)
      rest := by
  have hIn : InExtent extent ptr.toNat length.toNat := by
    intro _
    omega
  have hLays :
      Lays size extent (g.fill ptr length.toNat source >>= f)
        (True ∧ rest) :=
    Lays.bind hMaps
      (iff_true_intro ((meets_fill hMaps).mpr hIn))
      (fun _ => NroGuest.keepsMap_fill) hRest
  rw [true_and] at hLays
  exact hLays

/- What a part of the mapping ends with. -/
structure MapEnds
    (grants : Prop)
    (extent : Nat)
    (r : Result × NroGuest) : Prop where
  success : r.1 = .Success ↔ grants
  maps : grants → MapsExtent r.2 extent

/- A part of the mapping, if the host grants its region. -/
structure MapPart
    (size extent : Nat)
    (x : LoadRun (Result × NroGuest))
    (grants fits : Prop) : Prop where
  meets : x.Meets (Access.InBounds size) ↔ (grants → fits)
  ends : ∀ r, x.value = some r → MapEnds grants extent r

theorem mapPart_of_lays
    {mapped : Result × NroGuest}
    {rest : LoadRun (Result × NroGuest)}
    {grants fits : Prop}
    (hMapped : mapped.1 = .Success ↔ grants)
    (hRest : grants → Lays size extent rest fits) :
    MapPart size extent
      (if mapped.1 ≠ .Success then pure mapped else rest)
      grants fits := by
  by_cases hGrants : grants
  · have hLays := hRest hGrants
    rw [if_neg (not_not.mpr (hMapped.mpr hGrants))]
    refine ⟨?_, fun r hValue => ?_⟩
    · rw [hLays.meets]
      exact ⟨fun hFits _ => hFits, fun hFits => hFits hGrants⟩
    · have hEnds := hLays.ends r hValue
      exact ⟨iff_of_true hEnds.1 hGrants, fun _ => hEnds.2⟩
  · have hFails := fun hYes => hGrants (hMapped.mp hYes)
    rw [if_pos hFails]
    refine ⟨?_, fun r hValue => ?_⟩
    · exact
        iff_of_true (Logged.meets_pure _)
          fun hYes => absurd hYes hGrants
    · rw [← Option.some.inj hValue]
      exact
        ⟨iff_of_false hFails hGrants,
          fun hYes => absurd hYes hGrants⟩

theorem mapPart_text
    (size : Nat)
    (hNone : g.regions = []) :
    MapPart size (textRegionSz header).toNat
      (mapText hostMaps header buf g)
      (Grants hostMaps NRO_TEXT_BASE (textRegionSz header))
      (SegmentFits size (textRegionSz header).toNat
          header.textStart header.textSize 0 ∧
        SegmentFits size (textRegionSz header).toNat
          header.rodataStart header.rodataSize
          header.rodataStart.toNat) := by
  apply
    mapPart_of_lays
      (NroGuest.map_fst hostMaps g (inPages_text header))
  intro hGrants
  have hMaps :=
    mapsExtent_first hNone (inPages_text header) hGrants
  apply Lays.fill 0 hMaps toNat_textPtr (Nat.zero_add _).le
  intro g₁ hMaps₁
  apply Lays.copy hMaps₁ toNat_textPtr
  intro g₂ hMaps₂
  rw [← and_true (SegmentFits _ _ _ _ _)]
  apply Lays.copy hMaps₂ toNat_rodataPtr
  intro g₃ hMaps₃
  exact lays_pure hMaps₃

/- The data's region, behind the first page of the text's. -/
theorem mapPart_data
    (size : Nat)
    (hSplit : header.split = true)
    (hMaps : MapsExtent g extent)
    (hFirst : 0x4000 ≤ extent) :
    MapPart size
      (max extent (0x4000 + (dataRegionSz header).toNat))
      (mapData hostMaps header buf g)
      (Grants hostMaps header.dataAddr (dataRegionSz header))
      (SegmentFits size
        (max extent (0x4000 + (dataRegionSz header).toNat))
        header.dataStart header.dataSize 0x4000) := by
  have hAddr := dataAddr_of_split hSplit
  have hPtr :
      (pointer header.dataAddr).toNat = textHost + 0x4000 := by
    rw [hAddr]
    decide
  apply
    mapPart_of_lays
      (NroGuest.map_fst hostMaps g (inPages_data hSplit))
  intro hGrants
  have hAfter :=
    mapsExtent_second hMaps hFirst hAddr (inPages_data hSplit)
      hGrants
  apply Lays.fill _ hAfter hPtr (Nat.le_max_right _ _)
  intro g₁ hMaps₁
  rw [← and_true (SegmentFits _ _ _ _ _)]
  apply Lays.copy hMaps₁ hPtr
  intro g₂ hMaps₂
  exact lays_pure hMaps₂

/- One region for all segments. -/
theorem mapPart_whole
    (size : Nat)
    (hNot : header.split = false)
    (hNone : g.regions = []) :
    MapPart size (wholeSz header).toNat
      (mapWhole hostMaps header buf g)
      (Grants hostMaps NRO_TEXT_BASE (wholeSz header))
      (SegmentFits size (wholeSz header).toNat
          header.textStart header.textSize 0 ∧
        SegmentFits size (wholeSz header).toNat
          header.rodataStart header.rodataSize
          header.rodataStart.toNat ∧
        SegmentFits size (wholeSz header).toNat
          header.dataStart header.dataSize
          header.dataStart.toNat) := by
  apply
    mapPart_of_lays
      (NroGuest.map_fst hostMaps g (inPages_whole hNot))
  intro hGrants
  have hMaps :=
    mapsExtent_first hNone (inPages_whole hNot) hGrants
  apply Lays.fill 0 hMaps toNat_textPtr (Nat.zero_add _).le
  intro g₁ hMaps₁
  apply Lays.copy hMaps₁ toNat_textPtr
  intro g₂ hMaps₂
  apply Lays.copy hMaps₂ toNat_rodataPtr
  intro g₃ hMaps₃
  rw [← and_true (SegmentFits _ _ _ _ _)]
  apply Lays.copy hMaps₃ (toNat_dataPtr hNot)
  intro g₄ hMaps₄
  exact lays_pure hMaps₄

theorem meets_mapSegments
    (hNone : g.regions = []) :
    (mapSegments hostMaps header buf g).Meets
        (Access.InBounds size) ↔
      SegmentsFit hostMaps header size := by
  unfold mapSegments SegmentsFit
  cases hSplit : header.split with
  | true =>
      simp only [if_true]
      rw [Logged.meets_bind, (mapPart_text size hNone).meets]
      have hFirst := (textRegionSz_bounds header).1
      have hExtent :
          extentOf header =
            max (textRegionSz header).toNat
              (0x4000 + (dataRegionSz header).toNat) := by
        unfold extentOf
        rw [if_pos hSplit]
      by_cases hGrants :
          Grants hostMaps NRO_TEXT_BASE (textRegionSz header)
      · simp only [hGrants, true_implies, hExtent, ← and_assoc]
        apply and_congr_right
        intro hFits
        have hMeets :
            (mapText hostMaps header buf g).Meets
              (Access.InBounds size) :=
          (mapPart_text size hNone).meets.mpr fun _ => hFits
        rcases hMeets.exists_value with ⟨r, hR⟩
        have hEnds := (mapPart_text size hNone).ends r hR
        rw [hR]
        simp only [Option.some.injEq, forall_eq']
        rw [if_neg (not_not.mpr (hEnds.success.mpr hGrants))]
        exact
          (mapPart_data size hSplit (hEnds.maps hGrants)
            hFirst).meets
      · simp only [hGrants, false_implies, true_and]
        refine iff_of_true ?_ trivial
        intro r hR
        have hEnds := (mapPart_text size hNone).ends r hR
        rw [if_pos fun hYes => hGrants (hEnds.success.mp hYes)]
        exact Logged.meets_pure _
  | false =>
      simp only [Bool.false_eq_true, if_false]
      exact (mapPart_whole size hSplit hNone).meets

theorem mapEnds_segments
    (hNone : g.regions = [])
    {r : Result × NroGuest}
    (hValue :
      (mapSegments hostMaps header buf g).value = some r) :
    MapEnds (GrantsAll hostMaps header) (extentOf header) r := by
  unfold mapSegments at hValue
  unfold GrantsAll extentOf
  cases hSplit : header.split with
  | true =>
      rw [if_pos hSplit] at hValue
      simp only [if_true]
      have hFirst := (textRegionSz_bounds header).1
      rcases Logged.value_bind_eq_some.mp hValue with
        ⟨text, hText, hRest⟩
      have hEnds := (mapPart_text 0 hNone).ends text hText
      by_cases hGrants :
          Grants hostMaps NRO_TEXT_BASE (textRegionSz header)
      · rw [if_neg (not_not.mpr (hEnds.success.mpr hGrants))]
          at hRest
        simp only [hGrants, true_and]
        exact
          (mapPart_data 0 hSplit (hEnds.maps hGrants)
            hFirst).ends r hRest
      · have hFails :=
          fun hYes => hGrants (hEnds.success.mp hYes)
        rw [if_pos hFails] at hRest
        simp only [hGrants, false_and]
        rw [← Option.some.inj hRest]
        exact ⟨iff_false_intro hFails, False.elim⟩
  | false =>
      rw [if_neg (by simp [hSplit])] at hValue
      simp only [Bool.false_eq_true, if_false]
      exact (mapPart_whole 0 hSplit hNone).ends r hValue

end NroLoader

end M1Switch
