import M1Switch.Cpu.NativeExec
import M1Switch.Loader.Nro.File

/-
  What the NRO loader puts into guest memory.

  The segments are mapped and copied, system calls are replaced,
  relocations are applied, and some instructions are patched at
  fixed offsets.  The guest is reached through host pointers; a
  load that touches memory which is not mapped is stopped by the
  host.

  Key definitions include:
    * `NroGuest`
    * `mapSegments`
-/

------
-- Guest Memory
------

namespace M1Switch

namespace HostMemory

/- The bytes of a range are mapped. -/
def Mapped (mem : HostMemory) (start count : Nat) : Prop :=
  ∀ i < count, (mem.bytes (start + i)).isSome = true

instance (mem : HostMemory) (start count : Nat) :
    Decidable (mem.Mapped start count) :=
  inferInstanceAs (Decidable (∀ i < count, _))

/- What is in memory, where it is mapped. -/
def contents (mem : HostMemory) : Bytes :=
  fun i => (mem.bytes i).getD 0

/- The same memory with other bytes in it. -/
def withContents
    (mem : HostMemory)
    (bytes : Bytes) : HostMemory :=
  { mem with
    bytes := fun i => (mem.bytes i).map fun _ => bytes i }

end HostMemory

/- Guest memory during a load: the ranges the load has mapped
are kept by their host addresses. -/
structure NroGuest where
  mem : HostMemory
  regions : List Span := []
  exec : NativeExec

namespace NroGuest

open HostMemory (baseAddr ADDR_SPACE_SIZE)

/- The host pointer of a guest address. -/
def pointer (address : U64) : U64 :=
  baseAddr + address

/- Map a range, if the host does. -/
def map
    (hostMaps : U64 → U64 → Bool)
    (g : NroGuest)
    (address size : U64) : Result × NroGuest :=
  let mapped :=
    g.mem.mapPhysical address size .RW none
      (hostMaps address size)
  if mapped.1 = .Success then
    (.Success,
      { g with
        mem := mapped.2
        regions :=
          g.regions ++
            [⟨(pointer address).toNat, size.toNat⟩] })
  else (mapped.1, { g with mem := mapped.2 })

/- Fill a range with bytes. -/
def fill
    (g : NroGuest)
    (ptr : U64)
    (count : Nat)
    (source : Nat → U8) : Logged Access NroGuest :=
  { value :=
      if g.mem.Mapped ptr.toNat count then
        some
          { g with
            mem :=
              g.mem.withContents fun i =>
                if ptr.toNat ≤ i ∧ i < ptr.toNat + count then
                  source (i - ptr.toNat)
                else g.mem.contents i }
      else none
    log := [.fill g.regions ⟨ptr.toNat, count⟩] }

/- Patch a word or two. -/
def patch
    (g : NroGuest)
    (ptr : U64)
    (bytes : List U8) : Logged Access NroGuest :=
  { value :=
      if g.mem.Mapped ptr.toNat bytes.length then
        some
          { g with
            mem :=
              g.mem.withContents
                (g.mem.contents.store ptr.toNat bytes) }
      else none
    log := [.patch g.regions ptr.toNat bytes] }

/- The word at a pointer. -/
def word (g : NroGuest) (ptr : U64) : Logged Access U32 :=
  { value :=
      if g.mem.Mapped ptr.toNat 4 then
        some (g.mem.contents.word ptr.toNat)
      else none }

/- Write a value; addresses out of range are refused. -/
def write
    (g : NroGuest)
    (address : U64)
    (bytes : List U8) : Logged Access NroGuest :=
  if ¬ address < ADDR_SPACE_SIZE ∨
      address + BitVec.ofNat 64 bytes.length >
        ADDR_SPACE_SIZE then pure g
  else g.patch (pointer address) bytes

/- Copy bytes of the file, if there are any. -/
def copy
    (g : NroGuest)
    (buf : NroBuffer)
    (ptr : U64)
    (start count : U32) : Logged Access NroGuest :=
  if count > 0 then do
    Logged.emit (.read ⟨start.toNat, count.toNat⟩)
    g.fill ptr count.toNat fun i => buf.bytes (start.toNat + i)
  else pure g

/- Replace the system calls of code; its words that are changed
are patched. -/
def patchCode
    (mmap : U64 → Bool)
    (g : NroGuest)
    (ptr size : U64) : Logged Access NroGuest :=
  let run :=
    (NativeExec.patchSVCs mmap g.exec g.mem.contents ptr.toNat
      ptr size).2
  { value :=
      some
        { g with
          mem := g.mem.withContents run.mem
          exec := run.exec }
    log :=
      (List.range (size.toNat / 4)).filterMap fun k =>
        let start := ptr.toNat + 4 * k
        if run.mem.word start = g.mem.contents.word start then
          none
        else
          some
            (.patch g.regions start
              (Bytes.ofWord (run.mem.word start))) }

end NroGuest

------
-- Segments
------

namespace NroLoader

open HostMemory (HOST_PAGE)
open NroGuest (pointer)

variable (hostMaps : U64 → U64 → Bool)
variable (header : NroPackedHeader)

/- A region is at least a page. -/
def regionSz (size : U32) : U64 :=
  if alignUp (size.setWidth 64) HOST_PAGE < HOST_PAGE then
    HOST_PAGE
  else alignUp (size.setWidth 64) HOST_PAGE

def textRegionSz : U64 :=
  regionSz (header.textSize +
    (if header.rodataSize > 0 then header.rodataSize else 0))

def dataRegionSz : U64 :=
  regionSz (header.dataSize + header.bssSize)

def wholeSz : U64 :=
  alignUp (header.bssAddr + header.bssPageSz) HOST_PAGE -
    NRO_TEXT_BASE

/- Text and rodata in one region. -/
def mapText
    (buf : NroBuffer)
    (g : NroGuest) : LoadRun (Result × NroGuest) :=
  let mapped :=
    g.map hostMaps NRO_TEXT_BASE (textRegionSz header)
  if mapped.1 ≠ .Success then pure mapped
  else do
    let textPtr := pointer NRO_TEXT_BASE
    let g ←
      mapped.2.fill textPtr (textRegionSz header).toNat fun _ => 0
    let g ← g.copy buf textPtr header.textStart header.textSize
    let g ←
      g.copy buf (textPtr + (header.rodataAddr - NRO_TEXT_BASE))
        header.rodataStart header.rodataSize
    pure (.Success, g)

/- Data and bss in another one. -/
def mapData
    (buf : NroBuffer)
    (g : NroGuest) : LoadRun (Result × NroGuest) :=
  let mapped :=
    g.map hostMaps header.dataAddr (dataRegionSz header)
  if mapped.1 ≠ .Success then pure mapped
  else do
    let dataPtr := pointer header.dataAddr
    let g ←
      mapped.2.fill dataPtr (dataRegionSz header).toNat fun _ => 0
    let g ← g.copy buf dataPtr header.dataStart header.dataSize
    pure (.Success, g)

/- All segments in one region. -/
def mapWhole
    (buf : NroBuffer)
    (g : NroGuest) : LoadRun (Result × NroGuest) :=
  let mapped := g.map hostMaps NRO_TEXT_BASE (wholeSz header)
  if mapped.1 ≠ .Success then pure mapped
  else do
    let basePtr := pointer NRO_TEXT_BASE
    let g ←
      mapped.2.fill basePtr (wholeSz header).toNat fun _ => 0
    let g ← g.copy buf basePtr header.textStart header.textSize
    let g ←
      g.copy buf (basePtr + (header.rodataAddr - NRO_TEXT_BASE))
        header.rodataStart header.rodataSize
    let g ←
      g.copy buf (basePtr + (header.dataAddr - NRO_TEXT_BASE))
        header.dataStart header.dataSize
    pure (.Success, g)

def mapSegments
    (buf : NroBuffer)
    (g : NroGuest) : LoadRun (Result × NroGuest) :=
  if header.split then do
    let text ← mapText hostMaps header buf g
    if text.1 ≠ .Success then pure text
    else mapData hostMaps header buf text.2
  else mapWhole hostMaps header buf g

------
-- Relocations
------

open HostMemory (baseAddr)

def R_AARCH64_ABS64 : U64 := 257
def R_AARCH64_GLOB_DAT : U64 := 1025
def R_AARCH64_RELATIVE : U64 := 1027

variable (dyn : DynInfo)

def symFileOff : U64 :=
  if dyn.symtabOff ≠ 0 then
    header.textStart.setWidth 64 + dyn.symtabOff
  else 0

def strFileOff : U64 :=
  if dyn.strtabOff ≠ 0 then
    header.textStart.setWidth 64 + dyn.strtabOff
  else 0

def nsyms : U64 :=
  if symFileOff header dyn ≠ 0 then
    (strFileOff header dyn - symFileOff header dyn) / 24
  else 0

/- What an entry has to write: an address, and a value. -/
def relocation
    (buf : NroBuffer)
    (rOff rInfo rAdd : U64) : LoadRun (Option (U64 × U64)) :=
  let type := rInfo &&& 0xFFFFFFFF
  let sym := rInfo >>> 32
  let patchAddr := NRO_TEXT_BASE + rOff
  if type = R_AARCH64_RELATIVE then
    pure (some (patchAddr, baseAddr + NRO_TEXT_BASE + rAdd))
  else if type = R_AARCH64_ABS64 ∨ type = R_AARCH64_GLOB_DAT then
    if symFileOff header dyn ≠ 0 ∧ sym < nsyms header dyn then do
      let val ← read64 buf (symFileOff header dyn + sym * 24 + 8)
      let sVal := baseAddr + NRO_TEXT_BASE + val
      pure (some
        (patchAddr,
          if type = R_AARCH64_ABS64 then sVal + rAdd else sVal))
    else pure none
  else pure none

/- Write it, if there is anything. -/
def applyRelocation
    (g : NroGuest)
    (reloc : Option (U64 × U64)) : LoadRun NroGuest :=
  match reloc with
  | none => pure g
  | some reloc => g.write reloc.1 (Bytes.ofLong reloc.2)

/- Where an entry is. -/
def relaEntryOff (ri : U64) : U64 :=
  header.textStart.setWidth 64 + dyn.relaOff + ri * dyn.relaEnt

def relaRound
    (buf : NroBuffer)
    (s : U64 × NroGuest) :
    LoadRun (Round (U64 × NroGuest) NroGuest) :=
  if s.1 < dyn.relaSz / dyn.relaEnt ∧ s.1 < 100000 then
    let ro := relaEntryOff header dyn s.1
    if ro + 24 > buf.size then pure (.done s.2)
    else do
      let rOff ← read64 buf ro
      let rInfo ← read64 buf (ro + 8)
      let rAdd ← read64 buf (ro + 16)
      let reloc ← relocation header dyn buf rOff rInfo rAdd
      let g ← applyRelocation s.2 reloc
      pure (.again (s.1 + 1, g))
  else pure (.done s.2)

/- Apply the relocations, in order. -/
def relocate
    (fuel : Nat)
    (buf : NroBuffer)
    (g : NroGuest) : LoadRun NroGuest :=
  if dyn.relaOff > 0 ∧ dyn.relaSz > 0 ∧ dyn.relaEnt ≥ 24 then
    Logged.loop (relaRound header dyn buf) fuel (0, g)
  else pure g

------
-- Patches at Fixed Offsets
------

open NroGuest (pointer)

def NOP : U32 := 0xD503201F

/- The start-up code does not call its own relocation. -/
def patchCrt0 (g : NroGuest) : LoadRun NroGuest :=
  if header.textStart = 0 then do
    let inst ← g.word (pointer NRO_TEXT_BASE + 0xD8)
    if inst &&& 0xFC000000 = 0x94000000 then
      g.patch (pointer NRO_TEXT_BASE + 0xD8) (Bytes.ofWord NOP)
    else pure g
  else pure g

/- Where an offset of the file is, from the text's pointer on. -/
def titlePtr (off : U32) : U64 :=
  pointer NRO_TEXT_BASE + (off - header.textStart).setWidth 64

/- A success that is returned is made a zero. -/
def patchReturn (g : NroGuest) : LoadRun NroGuest := do
  let inst ← g.word (titlePtr header 0x44bb28)
  if inst = 0x52800020 then
    g.patch (titlePtr header 0x44bb28) (Bytes.ofWord 0x52800000)
  else pure g

/- A failure too. -/
def patchFailure (g : NroGuest) : LoadRun NroGuest := do
  let inst ← g.word (titlePtr header 0x44b5ac)
  if inst &&& 0xFC000000 = 0x14000000 then do
    let g ←
      g.patch (titlePtr header 0x44b5a8)
        (Bytes.ofWord 0x52800000)
    g.patch (titlePtr header 0x44b5ac) (Bytes.ofWord 0xD65F03C0)
  else pure g

/- A check of the initialisation is dropped. -/
def patchCheck (g : NroGuest) : LoadRun NroGuest := do
  let inst ← g.word (pointer (NRO_TEXT_BASE + 0x45655c))
  if inst &&& 0xFE000000 = 0x34000000 ∨
      inst &&& 0xFE000000 = 0x35000000 then
    g.write (NRO_TEXT_BASE + 0x45655c) (Bytes.ofWord NOP)
  else pure g

/- Where the structure is that the data is made to point to. -/
def structAddr : U64 :=
  ((NRO_TEXT_BASE + header.textSize.setWidth 64 +
      header.rodataSize.setWidth 64 +
      header.dataSize.setWidth 64 + 0xFFF) &&&
    ~~~(0xFFF : U64)) + 0x100

/- The pointer in the data. -/
def dataSlot : U64 :=
  pointer NRO_TEXT_BASE +
    (header.dataStart - header.textStart).setWidth 64 + 0x7BD0

def patchData (g : NroGuest) : LoadRun NroGuest :=
  if header.dataSize > 0x4000 then do
    let g ←
      g.patch
        (pointer NRO_TEXT_BASE +
          (structAddr header - NRO_TEXT_BASE))
        (Bytes.ofWord 8)
    g.patch (dataSlot header) (Bytes.ofLong (structAddr header))
  else pure g

/- Patches for one title, which has much code. -/
def patchTitle (g : NroGuest) : LoadRun NroGuest :=
  if header.textSize > 0x400000 then do
    let g ← patchReturn header g
    let g ← patchFailure header g
    let g ← patchCheck g
    patchData header g
  else pure g

end NroLoader

------
-- What the Guest Keeps
------

namespace HostMemory

variable {mem : HostMemory} {address size : U64}
variable {perm : Permission} {hostMaps : Bool}

/- What is mapped stays mapped, whatever is written. -/
@[simp] theorem isSome_withContents
    (bytes : Bytes)
    (i : Nat) :
    ((mem.withContents bytes).bytes i).isSome =
      (mem.bytes i).isSome := by
  simp [withContents]

theorem mapPhysical_fst
    {data : Option (Nat → U8)} :
    (mem.mapPhysical address size perm data hostMaps).1 =
        .Success ↔
      Mappable address size ∧ hostMaps = true ∧
        hostAccepts (mapAddr address)
          (mapSize address size) = true := by
  by_cases hMappable : Mappable address size
  · rcases hMappable with ⟨hAligned, hAligned', hEnd⟩
    unfold mapPhysical
    rw [if_neg (by simp [hAligned, hAligned']),
      if_neg (BitVec.not_lt.mpr hEnd)]
    have hAll : Mappable address size :=
      ⟨hAligned, hAligned', hEnd⟩
    dsimp only
    split
    · next hTaken =>
        rw [Bool.and_eq_true] at hTaken
        simp [hAll, hTaken]
    · next hNot =>
        rw [Bool.and_eq_true] at hNot
        simp only [hAll, true_and, reduceCtorEq, hNot]
  · rw [mapPhysical_of_not_mappable hMappable]
    simp [hMappable]

/- A range that was mapped is empty, and nothing else changes. -/
theorem bytes_mapPhysical
    (hSuccess :
      (mem.mapPhysical address size perm none hostMaps).1 =
        .Success)
    (i : Nat) :
    (mem.mapPhysical address size perm none
        hostMaps).2.bytes i =
      if (mapAddr address).toNat ≤ i ∧
          i < (mapAddr address).toNat +
            (mapSize address size).toNat then some 0
      else mem.bytes i := by
  rcases mapPhysical_fst.mp hSuccess with
    ⟨⟨hAligned, hAligned', hEnd⟩, hMaps, hTaken⟩
  unfold mapPhysical
  rw [if_neg (by simp [hAligned, hAligned']),
    if_neg (BitVec.not_lt.mpr hEnd), hTaken, hMaps]
  simp only [Bool.and_self, if_true, copyData, allocate,
    deallocate, hTaken]
  split <;> rfl

end HostMemory

namespace NroGuest

variable {g g' g'' : NroGuest} {ptr : U64}

/- The load has mapped the same, and the same is mapped. -/
structure KeepsMap (g g' : NroGuest) : Prop where
  regions : g'.regions = g.regions
  mapped :
    ∀ i, (g'.mem.bytes i).isSome = (g.mem.bytes i).isSome

theorem KeepsMap.refl (g : NroGuest) : KeepsMap g g :=
  ⟨rfl, fun _ => rfl⟩

theorem KeepsMap.trans
    (hFirst : KeepsMap g g')
    (hSecond : KeepsMap g' g'') :
    KeepsMap g g'' :=
  ⟨hSecond.regions.trans hFirst.regions,
    fun i => (hSecond.mapped i).trans (hFirst.mapped i)⟩

theorem value_fill
    {count : Nat}
    {source : Nat → U8} :
    (g.fill ptr count source).value = some g' ↔
      g.mem.Mapped ptr.toNat count ∧
        g' =
          { g with
            mem :=
              g.mem.withContents fun i =>
                if ptr.toNat ≤ i ∧ i < ptr.toNat + count then
                  source (i - ptr.toNat)
                else g.mem.contents i } := by
  unfold fill
  simp only [Option.ite_none_right_eq_some, Option.some.injEq]
  exact and_congr_right fun _ => eq_comm

theorem value_patch
    {bytes : List U8} :
    (g.patch ptr bytes).value = some g' ↔
      g.mem.Mapped ptr.toNat bytes.length ∧
        g' =
          { g with
            mem :=
              g.mem.withContents
                (g.mem.contents.store ptr.toNat bytes) } := by
  unfold patch
  simp only [Option.ite_none_right_eq_some, Option.some.injEq]
  exact and_congr_right fun _ => eq_comm

theorem keepsMap_fill
    {count : Nat}
    {source : Nat → U8}
    (hValue : (g.fill ptr count source).value = some g') :
    KeepsMap g g' := by
  rcases value_fill.mp hValue with ⟨_, hG⟩
  rw [hG]
  exact ⟨rfl, HostMemory.isSome_withContents _⟩

theorem keepsMap_patch
    {bytes : List U8}
    (hValue : (g.patch ptr bytes).value = some g') :
    KeepsMap g g' := by
  rcases value_patch.mp hValue with ⟨_, hG⟩
  rw [hG]
  exact ⟨rfl, HostMemory.isSome_withContents _⟩

theorem keepsMap_write
    {address : U64}
    {bytes : List U8}
    (hValue : (g.write address bytes).value = some g') :
    KeepsMap g g' := by
  unfold write at hValue
  split at hValue
  · rw [← Option.some.inj hValue]
    exact .refl g
  · exact keepsMap_patch hValue

theorem keepsMap_copy
    {buf : NroBuffer}
    {start count : U32}
    (hValue : (g.copy buf ptr start count).value = some g') :
    KeepsMap g g' := by
  unfold copy at hValue
  split at hValue
  · rcases Logged.value_bind_eq_some.mp hValue with
      ⟨_, _, hFill⟩
    exact keepsMap_fill hFill
  · rw [← Option.some.inj hValue]
    exact .refl g

theorem keepsMap_patchCode
    {mmap : U64 → Bool}
    {ptr size : U64}
    (hValue : (g.patchCode mmap ptr size).value = some g') :
    KeepsMap g g' := by
  rw [← Option.some.inj hValue]
  exact ⟨rfl, HostMemory.isSome_withContents _⟩

end NroGuest

------
-- Patches Keep the Map
------

namespace NroLoader

open NroGuest (KeepsMap)

variable {header : NroPackedHeader} {dyn : DynInfo}
variable {buf : NroBuffer} {g g' : NroGuest}
variable {s : U64 × NroGuest}

/- The relocations go on at an entry. -/
def Relocates
    (header : NroPackedHeader)
    (dyn : DynInfo)
    (buf : NroBuffer)
    (ri : U64) : Prop :=
  (ri < dyn.relaSz / dyn.relaEnt ∧ ri < 100000) ∧
    ¬ relaEntryOff header dyn ri + 24 > buf.size

instance (ri : U64) :
    Decidable (Relocates header dyn buf ri) :=
  inferInstanceAs (Decidable (_ ∧ _))

/- What an entry has to write, without the log. -/
def relocated
    (header : NroPackedHeader)
    (dyn : DynInfo)
    (buf : NroBuffer)
    (rOff rInfo rAdd : U64) : Option (U64 × U64) :=
  let type := rInfo &&& 0xFFFFFFFF
  let sym := rInfo >>> 32
  let patchAddr := NRO_TEXT_BASE + rOff
  if type = R_AARCH64_RELATIVE then
    some (patchAddr, HostMemory.baseAddr + NRO_TEXT_BASE + rAdd)
  else if type = R_AARCH64_ABS64 ∨ type = R_AARCH64_GLOB_DAT then
    if symFileOff header dyn ≠ 0 ∧ sym < nsyms header dyn then
      let sVal :=
        HostMemory.baseAddr + NRO_TEXT_BASE +
          buf.get64 (symFileOff header dyn + sym * 24 + 8)
      some
        (patchAddr,
          if type = R_AARCH64_ABS64 then sVal + rAdd else sVal)
    else none
  else none

theorem value_relocation (rOff rInfo rAdd : U64) :
    (relocation header dyn buf rOff rInfo rAdd).value =
      some (relocated header dyn buf rOff rInfo rAdd) := by
  unfold relocation relocated
  dsimp only
  split
  · rfl
  · split
    · split
      · rw [Logged.bind_of_some (value_read64 _)]
        rfl
      · rfl
    · rfl

/- What the entry with a number has to write. -/
def relocationAt
    (header : NroPackedHeader)
    (dyn : DynInfo)
    (buf : NroBuffer)
    (ri : U64) : Option (U64 × U64) :=
  relocated header dyn buf
    (buf.get64 (relaEntryOff header dyn ri))
    (buf.get64 (relaEntryOff header dyn ri + 8))
    (buf.get64 (relaEntryOff header dyn ri + 16))

theorem relaRound_off
    (hOff : ¬ Relocates header dyn buf s.1) :
    relaRound header dyn buf s = pure (.done s.2) := by
  unfold relaRound
  dsimp only
  split
  · next hIn =>
      split
      · rfl
      · next hFits => exact absurd ⟨hIn, hFits⟩ hOff
  · rfl

/- A round that goes on: four reads, and what is written. -/
theorem relaRound_on
    (hOn : Relocates header dyn buf s.1) :
    relaRound header dyn buf s = (do
      let ro := relaEntryOff header dyn s.1
      let rOff ← read64 buf ro
      let rInfo ← read64 buf (ro + 8)
      let rAdd ← read64 buf (ro + 16)
      let reloc ← relocation header dyn buf rOff rInfo rAdd
      let g ← applyRelocation s.2 reloc
      pure (.again (s.1 + 1, g))) := by
  unfold relaRound
  rw [if_pos hOn.1]
  dsimp only
  rw [if_neg hOn.2]

theorem value_relaRound
    (hOn : Relocates header dyn buf s.1)
    {next : Round (U64 × NroGuest) NroGuest} :
    (relaRound header dyn buf s).value = some next ↔
      ∃ g,
        (applyRelocation s.2
            (relocationAt header dyn buf s.1)).value = some g ∧
          next = .again (s.1 + 1, g) := by
  rw [relaRound_on hOn]
  dsimp only
  rw [Logged.bind_of_some (value_read64 _),
    Logged.bind_of_some (value_read64 _),
    Logged.bind_of_some (value_read64 _),
    Logged.bind_of_some (value_relocation _ _ _)]
  refine Logged.value_bind_eq_some.trans ?_
  simp only [Logged.value_pure, Option.some.injEq]
  exact exists_congr fun g => and_congr_right fun _ => eq_comm

theorem keepsMap_applyRelocation
    {reloc : Option (U64 × U64)}
    (hValue : (applyRelocation g reloc).value = some g') :
    KeepsMap g g' := by
  cases reloc with
  | none =>
      rw [← Option.some.inj hValue]
      exact .refl g
  | some reloc => exact NroGuest.keepsMap_write hValue

theorem keepsMap_relocate
    {fuel : Nat}
    (hValue :
      (relocate header dyn fuel buf g).value = some g') :
    KeepsMap g g' := by
  unfold relocate at hValue
  split at hValue
  · apply
      Logged.loop_induct
        (T := fun s _ g' => KeepsMap s.2 g') ?_ ?_ hValue
    · intro s r hDone
      by_cases hOn : Relocates header dyn buf s.1
      · rcases (value_relaRound hOn).mp hDone with ⟨g, _, hNext⟩
        simp at hNext
      · rw [relaRound_off hOn] at hDone
        rw [← Round.done.inj (Option.some.inj hDone)]
        exact .refl s.2
    · intro s s' _ r hRound hRest
      by_cases hOn : Relocates header dyn buf s.1
      · rcases (value_relaRound hOn).mp hRound with
          ⟨g, hG, hNext⟩
        rw [Round.again.inj hNext] at hRest
        exact (keepsMap_applyRelocation hG).trans hRest
      · rw [relaRound_off hOn] at hRound
        simp at hRound
  · rw [← Option.some.inj hValue]
    exact .refl g

theorem keepsMap_patchCrt0
    (hValue : (patchCrt0 header g).value = some g') :
    KeepsMap g g' := by
  unfold patchCrt0 at hValue
  split at hValue
  · rcases Logged.value_bind_eq_some.mp hValue with
      ⟨inst, _, hRest⟩
    split at hRest
    · exact NroGuest.keepsMap_patch hRest
    · rw [← Option.some.inj hRest]
      exact .refl g
  · rw [← Option.some.inj hValue]
    exact .refl g

theorem keepsMap_patchReturn
    (hValue : (patchReturn header g).value = some g') :
    KeepsMap g g' := by
  rcases Logged.value_bind_eq_some.mp hValue with
    ⟨inst, _, hRest⟩
  split at hRest
  · exact NroGuest.keepsMap_patch hRest
  · rw [← Option.some.inj hRest]
    exact .refl g

theorem keepsMap_patchFailure
    (hValue : (patchFailure header g).value = some g') :
    KeepsMap g g' := by
  rcases Logged.value_bind_eq_some.mp hValue with
    ⟨inst, _, hRest⟩
  split at hRest
  · rcases Logged.value_bind_eq_some.mp hRest with
      ⟨g₁, hFirst, hSecond⟩
    exact
      (NroGuest.keepsMap_patch hFirst).trans
        (NroGuest.keepsMap_patch hSecond)
  · rw [← Option.some.inj hRest]
    exact .refl g

theorem keepsMap_patchCheck
    (hValue : (patchCheck g).value = some g') :
    KeepsMap g g' := by
  rcases Logged.value_bind_eq_some.mp hValue with
    ⟨inst, _, hRest⟩
  split at hRest
  · exact NroGuest.keepsMap_write hRest
  · rw [← Option.some.inj hRest]
    exact .refl g

------
-- Sizes in Pages
------

open HostMemory (HOST_PAGE)
open NroGuest (pointer)

/- A size in whole pages of the host. -/
def roundUp (n : Nat) : Nat :=
  (n + 0x3fff) / 0x4000 * 0x4000

theorem toNat_alignUp_page
    {x : U64}
    (hSmall : x.toNat < 2 ^ 63) :
    (alignUp x HOST_PAGE).toNat = roundUp x.toNat := by
  have hPage : HOST_PAGE = BitVec.ofNat 64 (2 ^ 14) := by decide
  rw [hPage, toNat_alignUp (by decide) (by omega)]
  rfl

theorem toNat_alignUp_word (x : U32) :
    (alignUp (x.setWidth 64) HOST_PAGE).toNat =
      roundUp x.toNat := by
  have hLess := x.isLt
  have hWord : (x.setWidth 64).toNat = x.toNat := by
    rw [BitVec.toNat_setWidth]
    omega
  rw [toNat_alignUp_page (by omega), hWord]

theorem toNat_regionSz (size : U32) :
    (regionSz size).toNat = max 0x4000 (roundUp size.toNat) := by
  have hAlign := toNat_alignUp_word size
  unfold regionSz
  split
  · next hLess =>
      rw [BitVec.lt_def, hAlign] at hLess
      change roundUp size.toNat < 0x4000 at hLess
      show 0x4000 = _
      omega
  · next hNot =>
      rw [BitVec.lt_def, hAlign] at hNot
      change ¬ roundUp size.toNat < 0x4000 at hNot
      rw [hAlign]
      omega

/- A region is at least a page, and a number of pages. -/
theorem regionSz_bounds (size : U32) :
    0x4000 ≤ (regionSz size).toNat ∧
      (regionSz size).toNat < 2 ^ 33 ∧
      0x4000 ∣ (regionSz size).toNat := by
  have hLess := size.isLt
  rw [toNat_regionSz]
  unfold roundUp
  omega

theorem textRegionSz_bounds (header : NroPackedHeader) :
    0x4000 ≤ (textRegionSz header).toNat ∧
      (textRegionSz header).toNat < 2 ^ 33 ∧
      0x4000 ∣ (textRegionSz header).toNat := by
  unfold textRegionSz
  exact regionSz_bounds _

theorem dataRegionSz_bounds (header : NroPackedHeader) :
    0x4000 ≤ (dataRegionSz header).toNat ∧
      (dataRegionSz header).toNat < 2 ^ 33 ∧
      0x4000 ∣ (dataRegionSz header).toNat := by
  unfold dataRegionSz
  exact regionSz_bounds _

theorem toNat_rodataAddr :
    header.rodataAddr.toNat =
      0x40000000 + header.rodataStart.toNat := by
  have hLess := header.rodataStart.isLt
  unfold NroPackedHeader.rodataAddr
  rw [BitVec.toNat_add, BitVec.toNat_setWidth]
  show (0x40000000 + _) % 2 ^ 64 = _
  omega

theorem toNat_dataOrigAddr :
    header.dataOrigAddr.toNat =
      0x40000000 + header.dataStart.toNat := by
  have hLess := header.dataStart.isLt
  unfold NroPackedHeader.dataOrigAddr
  rw [BitVec.toNat_add, BitVec.toNat_setWidth]
  show (0x40000000 + _) % 2 ^ 64 = _
  omega

theorem dataAddr_of_split
    (hSplit : header.split = true) :
    header.dataAddr = 0x40004000 := by
  have hBoth := of_decide_eq_true hSplit
  unfold NroPackedHeader.dataAddr
  rw [if_pos hBoth.1]
  decide

/- In one region the data is where the file has it. -/
theorem toNat_dataAddr_of_not_split
    (hNot : header.split = false) :
    header.dataAddr.toNat =
      0x40000000 + header.dataStart.toNat := by
  have hNot := of_decide_eq_false hNot
  rw [← toNat_dataOrigAddr]
  by_cases hOverlap : header.overlapping = true
  · have hSame : header.dataAddr = header.dataOrigAddr := by
      by_contra hNe
      exact hNot ⟨hOverlap, hNe⟩
    rw [hSame]
  · unfold NroPackedHeader.dataAddr
    rw [if_neg hOverlap]

theorem toNat_bssAddr (header : NroPackedHeader) :
    header.bssAddr.toNat =
      roundUp
        (header.dataAddr.toNat +
          roundUp header.dataSize.toNat) := by
  have hLess := header.dataSize.isLt
  have hAddr : header.dataAddr.toNat < 2 ^ 33 := by
    cases hSplit : header.split with
    | true =>
        rw [dataAddr_of_split hSplit]
        decide
    | false =>
        have hStart := header.dataStart.isLt
        rw [toNat_dataAddr_of_not_split hSplit]
        omega
  have hPage := toNat_alignUp_word header.dataSize
  have hSum :
      (header.dataAddr + header.dataPageSz).toNat =
        header.dataAddr.toNat +
          roundUp header.dataSize.toNat := by
    unfold NroPackedHeader.dataPageSz
    rw [BitVec.toNat_add, hPage]
    unfold roundUp
    omega
  unfold NroPackedHeader.bssAddr
  rw [toNat_alignUp_page, hSum]
  rw [hSum]
  unfold roundUp
  omega

/- The region of all segments. -/
theorem toNat_wholeSz
    (hNot : header.split = false) :
    (wholeSz header).toNat =
      roundUp
          (header.bssAddr.toNat +
            roundUp header.bssSize.toNat) -
        0x40000000 := by
  have hBss := header.bssSize.isLt
  have hPage := toNat_alignUp_word header.bssSize
  have hData := toNat_dataAddr_of_not_split hNot
  have hAddr := toNat_bssAddr header
  have hStart := header.dataStart.isLt
  have hSize := header.dataSize.isLt
  have hSum :
      (header.bssAddr + header.bssPageSz).toNat =
        header.bssAddr.toNat +
          roundUp header.bssSize.toNat := by
    unfold NroPackedHeader.bssPageSz
    rw [BitVec.toNat_add, hPage, hAddr, hData]
    unfold roundUp
    omega
  have hEnd :
      (alignUp (header.bssAddr + header.bssPageSz)
          HOST_PAGE).toNat =
        roundUp
          (header.bssAddr.toNat +
            roundUp header.bssSize.toNat) := by
    rw [toNat_alignUp_page, hSum]
    rw [hSum, hAddr, hData]
    unfold roundUp
    omega
  have hBase : NRO_TEXT_BASE.toNat = 0x40000000 := by decide
  unfold wholeSz
  rw [BitVec.toNat_sub_of_le, hEnd, hBase]
  rw [BitVec.le_def, hEnd, hBase, hAddr, hData]
  unfold roundUp
  omega

theorem wholeSz_bounds
    (hNot : header.split = false) :
    (wholeSz header).toNat < 2 ^ 35 ∧
      0x4000 ∣ (wholeSz header).toNat := by
  have hWhole := toNat_wholeSz hNot
  have hData := toNat_dataAddr_of_not_split hNot
  have hAddr := toNat_bssAddr header
  have hBss := header.bssSize.isLt
  have hStart := header.dataStart.isLt
  have hSize := header.dataSize.isLt
  rw [hWhole, hAddr, hData]
  unfold roundUp
  omega

end NroLoader

------
-- Mapping Regions
------

namespace NroGuest

open HostMemory (Mappable baseAddr firstPage pageBytes)

variable {hostMaps : U64 → U64 → Bool} {g : NroGuest}
variable {address size : U64}

/- The host maps a range. -/
def Grants
    (hostMaps : U64 → U64 → Bool)
    (address size : U64) : Prop :=
  Mappable address size ∧ hostMaps address size = true

instance : Decidable (Grants hostMaps address size) :=
  inferInstanceAs (Decidable (_ ∧ _))

/- A range in whole pages of the host. -/
structure InPages (address size : U64) : Prop where
  address_lt : address.toNat < 2 ^ 33
  size_lt : size.toNat < 2 ^ 35
  address_dvd : 0x4000 ∣ address.toNat
  size_dvd : 0x4000 ∣ size.toNat

theorem InPages.end_le
    (hPages : InPages address size)
    (hMappable : Mappable address size) :
    address.toNat + size.toNat ≤ 2 ^ 32 := by
  have hEnd := hMappable.2.2
  have hAddress := hPages.address_lt
  have hSize := hPages.size_lt
  rw [BitVec.le_def, BitVec.toNat_add,
    Nat.mod_eq_of_lt (by omega)] at hEnd
  exact hEnd

/- Such a range is not widened. -/
theorem InPages.toNat_map
    (hPages : InPages address size)
    (hMappable : Mappable address size) :
    (HostMemory.mapAddr address).toNat = (pointer address).toNat ∧
      (HostMemory.mapSize address size).toNat = size.toNat := by
  have hEnd := hPages.end_le hMappable
  have hAddress := hPages.address_dvd
  have hSize := hPages.size_dvd
  have hPtr :
      (pointer address).toNat = 0x300000000 + address.toNat := by
    unfold pointer
    rw [BitVec.toNat_add]
    show (0x300000000 + address.toNat) % 2 ^ 64 = _
    omega
  constructor
  · rw [HostMemory.toNat_mapAddr hPages.address_lt, hPtr]
    show 0x300000000 + address.toNat / 0x4000 * 0x4000 = _
    omega
  · rw [HostMemory.toNat_mapSize hPages.address_lt (by omega)]
    unfold pageBytes
    omega

theorem map_fst
    (hostMaps : U64 → U64 → Bool)
    (g : NroGuest)
    (hPages : InPages address size) :
    (g.map hostMaps address size).1 = .Success ↔
      Grants hostMaps address size := by
  have hFst :
      (g.map hostMaps address size).1 = .Success ↔
        (g.mem.mapPhysical address size .RW none
          (hostMaps address size)).1 = .Success := by
    unfold map
    dsimp only
    split
    · next hYes => simp [hYes]
    · rfl
  rw [hFst, HostMemory.mapPhysical_fst]
  constructor
  · rintro ⟨hMappable, hMaps, _⟩
    exact ⟨hMappable, hMaps⟩
  · rintro ⟨hMappable, hMaps⟩
    refine ⟨hMappable, hMaps, ?_⟩
    rcases hPages.toNat_map hMappable with ⟨hAddr, hSize⟩
    have hEnd := hPages.end_le hMappable
    have hPtr : (pointer address).toNat < 2 ^ 63 := by
      unfold pointer
      rw [BitVec.toNat_add]
      show (0x300000000 + address.toNat) % 2 ^ 64 < _
      omega
    unfold HostMemory.hostAccepts
    rw [decide_eq_true_iff, hAddr, hSize]
    omega

/- A range that is granted is empty, and one region more. -/
theorem map_snd
    (hPages : InPages address size)
    (hGrants : Grants hostMaps address size) :
    (g.map hostMaps address size).2.regions =
        g.regions ++ [⟨(pointer address).toNat, size.toNat⟩] ∧
      (g.map hostMaps address size).2.exec = g.exec ∧
      ∀ i, (g.map hostMaps address size).2.mem.bytes i =
        if (pointer address).toNat ≤ i ∧
            i < (pointer address).toNat + size.toNat then some 0
        else g.mem.bytes i := by
  have hSuccess := (map_fst hostMaps g hPages).mpr hGrants
  rcases hPages.toNat_map hGrants.1 with ⟨hAddr, hSize⟩
  unfold map at hSuccess ⊢
  dsimp only at hSuccess ⊢
  by_cases hYes :
      (g.mem.mapPhysical address size .RW none
        (hostMaps address size)).1 = .Success
  · rw [if_pos hYes]
    refine ⟨rfl, rfl, ?_⟩
    intro i
    dsimp only
    rw [HostMemory.bytes_mapPhysical hYes, hAddr, hSize]
  · rw [if_neg hYes] at hSuccess
    exact absurd hSuccess hYes

end NroGuest

namespace NroLoader

open NroGuest (InPages)

variable {header : NroPackedHeader}

theorem inPages_text (header : NroPackedHeader) :
    InPages NRO_TEXT_BASE (textRegionSz header) := by
  rcases textRegionSz_bounds header with ⟨_, hSize, hDvd⟩
  exact
    ⟨by decide, Nat.lt_trans hSize (by decide), by decide, hDvd⟩

theorem inPages_data
    (hSplit : header.split = true) :
    InPages header.dataAddr (dataRegionSz header) := by
  rcases dataRegionSz_bounds header with ⟨_, hSize, hDvd⟩
  rw [dataAddr_of_split hSplit]
  exact
    ⟨by decide, Nat.lt_trans hSize (by decide), by decide, hDvd⟩

theorem inPages_whole
    (hNot : header.split = false) :
    InPages NRO_TEXT_BASE (wholeSz header) := by
  rcases wholeSz_bounds hNot with ⟨hSize, hDvd⟩
  exact ⟨by decide, hSize, by decide, hDvd⟩

end NroLoader

end M1Switch
