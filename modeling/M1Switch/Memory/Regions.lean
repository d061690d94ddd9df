import M1Switch.Library.EventRun
import M1Switch.Memory.Mapping

/-
  Which guest memory is mapped, and what is said about it.

  Guest memory keeps one region for each address a mapping was
  requested at.  A query reports the first region it meets that
  holds the address, in the order the container happens to
  have.  Unmapping forgets the region of that base, whatever
  its size, so that the regions and the mapped addresses agree
  only while no request touches part of a region.

  Key definitions include:
    * `GuestMemory`
    * `call`

  Main results:
    * `call_effect`
    * `tracks_throughout_iff`
-/

------
-- Guest Memory
------

namespace M1Switch

/- What has been done to a range of addresses. -/
inductive MapAction where
  | mapped (address size : U64)
  | unmapped (address size : U64)
deriving DecidableEq

/- The host mappings, the heap, the stack, and everything that
has been mapped and unmapped, the latest first. -/
structure GuestMemory where
  host : HostMemory := {}
  heapSize : U64 := 0
  heapAddr : U64 := 0x80000000
  stackSize : U64 := 0
  stackTop : U64 := 0
  history : List MapAction := []

namespace HostMemory

/-
  The host releases the pages the range touches; the region
  that is forgotten is the one requested at this address.
-/
def unmapPhysical
    (mem : HostMemory)
    (address size : U64)
    (hostUnmaps : Bool) : Result × HostMemory :=
  if !isAligned address PAGE_SIZE then
    (.InvalidArgument, mem)
  else if hostUnmaps then
    let mem :=
      if size = 0 then mem
      else
        mem.deallocate (mapAddr address) (mapSize address size)
    (.Success,
      { mem with
        pages := fun a =>
          if a = address then none else mem.pages a })
  else (.InvalidArgument, mem)

end HostMemory

namespace GuestMemory

open HostMemory (PAGE_SIZE Requested)

def HEAP_BASE : U64 := 0x80000000
def STACK_BASE : U64 := 0xC0000000

def mapPhysical
    (m : GuestMemory)
    (address size : U64)
    (perm : Permission)
    (data : Option (Nat → U8))
    (hostMaps : Bool) : Result × GuestMemory :=
  match m.host.mapPhysical address size perm data hostMaps with
  | (.Success, host) =>
      (.Success,
        { m with
          host := host
          history := .mapped address size :: m.history })
  | (result, host) => (result, { m with host := host })

def unmapPhysical
    (m : GuestMemory)
    (address size : U64)
    (hostUnmaps : Bool) : Result × GuestMemory :=
  match m.host.unmapPhysical address size hostUnmaps with
  | (.Success, host) =>
      (.Success,
        { m with
          host := host
          history := .unmapped address size :: m.history })
  | (result, host) => (result, { m with host := host })

/- What there is of the heap is unmapped. -/
def releaseHeap
    (m : GuestMemory)
    (hostUnmaps : Bool) : GuestMemory :=
  if m.heapSize > 0 then
    (m.unmapPhysical HEAP_BASE m.heapSize hostUnmaps).2
  else m

/-
  A larger heap is mapped anew; of a smaller one the tail is
  unmapped.  The results of the unmappings are not looked at.
-/
def setHeapSize
    (m : GuestMemory)
    (size : U64)
    (hostUnmaps hostMaps hostRemaps : Bool) :
    Result × GuestMemory :=
  let aligned := alignUp size PAGE_SIZE
  if aligned > 0x40000000 then (.OutOfMemory, m)
  else if aligned = m.heapSize then (.Success, m)
  else if aligned > m.heapSize then
    let (result, m') :=
      (m.releaseHeap hostUnmaps).mapPhysical HEAP_BASE aligned
        .RW none hostMaps
    if result ≠ .Success then
      let m' :=
        if m.heapSize > 0 then
          (m'.mapPhysical HEAP_BASE m.heapSize .RW none
            hostRemaps).2
        else m'
      (result, m')
    else
      (.Success,
        { m' with heapAddr := HEAP_BASE, heapSize := aligned })
  else
    let m' :=
      (m.unmapPhysical (HEAP_BASE + aligned)
        (m.heapSize - aligned) hostUnmaps).2
    (.Success,
      { m' with heapAddr := HEAP_BASE, heapSize := aligned })

/- The stack has at most a mebibyte. -/
def stackBytes (size : U64) : U64 :=
  if alignUp size PAGE_SIZE < 0x100000 then
    alignUp size PAGE_SIZE
  else 0x100000

/- The stack is what has been mapped for it. -/
def mapStack
    (m : GuestMemory)
    (stackAddr aligned : U64)
    (hostMaps : Bool) : Result × GuestMemory :=
  match m.mapPhysical stackAddr aligned .RW none hostMaps with
  | (.Success, m) =>
      (.Success,
        { m with stackSize := aligned, stackTop := STACK_BASE })
  | (result, m) => (result, m)

def setupStack
    (m : GuestMemory)
    (size : U64)
    (hostMaps : Bool) : Result × GuestMemory :=
  let aligned := stackBytes size
  m.mapStack (STACK_BASE - aligned) aligned hostMaps

/- The calls that map and unmap guest memory, with what the
host answers to each of their requests. -/
inductive Call where
  | MapPhysical
      (address size : U64)
      (perm : Permission)
      (data : Option (Nat → U8))
      (hostMaps : Bool)
  | UnmapPhysical (address size : U64) (hostUnmaps : Bool)
  | SetHeapSize
      (size : U64)
      (hostUnmaps hostMaps hostRemaps : Bool)
  | SetupStack (size : U64) (hostMaps : Bool)

def call (m : GuestMemory) : Call → Result × GuestMemory
  | .MapPhysical address size perm data hostMaps =>
      m.mapPhysical address size perm data hostMaps
  | .UnmapPhysical address size hostUnmaps =>
      m.unmapPhysical address size hostUnmaps
  | .SetHeapSize size hostUnmaps hostMaps hostRemaps =>
      m.setHeapSize size hostUnmaps hostMaps hostRemaps
  | .SetupStack size hostMaps => m.setupStack size hostMaps

def step (m : GuestMemory) (c : Call) : GuestMemory :=
  (m.call c).2

/- The arguments are page-aligned. -/
def Call.Aligned : Call → Prop
  | .MapPhysical address size _ _ _ =>
      isAligned address PAGE_SIZE = true ∧
        isAligned size PAGE_SIZE = true
  | .UnmapPhysical address size _ =>
      isAligned address PAGE_SIZE = true ∧
        isAligned size PAGE_SIZE = true
  | .SetHeapSize size _ _ _ => isAligned size PAGE_SIZE = true
  | .SetupStack size _ => isAligned size PAGE_SIZE = true

instance : DecidablePred Call.Aligned := fun c => by
  cases c <;> unfold Call.Aligned <;> infer_instance

/- The call returns success on page-aligned arguments. -/
def Succeeds (m : GuestMemory) (c : Call) : Prop :=
  c.Aligned ∧ (m.call c).1 = .Success

instance (m : GuestMemory) (c : Call) :
    Decidable (m.Succeeds c) :=
  inferInstanceAs (Decidable (_ ∧ _))

end GuestMemory

------
-- Queries
------

def Permission.flags : Permission → U32
  | .None => 0
  | .R => 1
  | .W => 2
  | .RW => 3
  | .X => 4
  | .RX => 5
  | .RWX => 7

/- What a query answers. -/
structure RegionInfo where
  base : U64
  size : U64
  type : U32
deriving DecidableEq

namespace GuestMemory

open HostMemory (Requested)

/- The addresses a region answers for. -/
def Holds (base size a : U64) : Prop :=
  base ≤ a ∧ a < base + size

instance (base size a : U64) : Decidable (Holds base size a) :=
  inferInstanceAs (Decidable (_ ∧ _))

/- The type of a region; 3 is that of unmapped memory. -/
def regionType (base : U64) (perm : Permission) : U32 :=
  let type : U32 :=
    if perm.flags &&& Permission.X.flags ≠ 0 then 0
    else if perm.flags &&& Permission.W.flags ≠ 0 then 1
    else if perm.flags &&& Permission.R.flags ≠ 0 then 2
    else 3
  let type :=
    if base ≥ HEAP_BASE ∧ base < HEAP_BASE + 0x40000000 then 4
    else type
  if base ≥ STACK_BASE - 0x1000000 ∧ base < STACK_BASE then 5
  else type

/- The regions as the container enumerates them. -/
abbrev Enumeration := List (U64 × U64 × Permission)

def queryRegion
    (pages : Enumeration)
    (address : U64) : RegionInfo :=
  match pages.find? (fun p => Holds p.1 p.2.1 address) with
  | some (base, size, perm) =>
      { base := base
        size := size
        type := regionType base perm }
  | none => { base := address, size := 0x1000, type := 3 }

/- The container may enumerate its regions in any order. -/
def Enumerates
    (order : Enumeration)
    (pages : U64 → Option (U64 × Permission)) : Prop :=
  ∀ base size perm,
    (base, size, perm) ∈ order ↔
      pages base = some (size, perm)

/- What is in a range that was mapped and not unmapped since. -/
def Mapped : List MapAction → U64 → Prop
  | [], _ => False
  | .mapped address size :: earlier, a =>
      Requested address size a ∨ Mapped earlier a
  | .unmapped address size :: earlier, a =>
      ¬ Requested address size a ∧ Mapped earlier a

/-
  In every order a query reports mapped memory for the mapped
  addresses alone, and a range of mapped addresses around them.
-/
def Tracks (m : GuestMemory) : Prop :=
  ∀ order, Enumerates order m.host.pages → ∀ a,
    ((queryRegion order a).type ≠ 3 ↔ Mapped m.history a) ∧
      ((queryRegion order a).type ≠ 3 →
        Holds (queryRegion order a).base
            (queryRegion order a).size a ∧
          ∀ b,
            Holds (queryRegion order a).base
                (queryRegion order a).size b →
              Mapped m.history b)

end GuestMemory

------
-- Regions and Mapped Addresses
------

open HostMemory (Requested)
open GuestMemory (Holds regionType)

/- The regions by the address they were requested at. -/
abbrev Regions := U64 → Option (U64 × Permission)

/- A region answers only for what was requested. -/
theorem requested_of_holds
    {base size a : U64}
    (hHolds : Holds base size a) :
    Requested base size a := by
  rcases hHolds with ⟨hFrom, hUntil⟩
  unfold Requested
  bv_omega

namespace Regions

variable {regions : Regions} {mapped : U64 → Prop}

/- The region of this base answers for the address. -/
def HeldHere (regions : Regions) (base a : U64) : Prop :=
  ∃ size perm, regions base = some (size, perm) ∧
    Holds base size a

/- A region of another base does. -/
def HeldElsewhere (regions : Regions) (base a : U64) : Prop :=
  ∃ other, other ≠ base ∧ regions.HeldHere other a

/- The regions answer for the mapped addresses, and none of
them reports its addresses as unmapped. -/
structure Consistent
    (regions : Regions)
    (mapped : U64 → Prop) : Prop where
  typed :
    ∀ base size perm a, regions base = some (size, perm) →
      Holds base size a → regionType base perm ≠ 3
  held : ∀ base a, regions.HeldHere base a → mapped a
  covered : ∀ a, mapped a → ∃ base, regions.HeldHere base a

/- A mapped address is held at a given base or elsewhere. -/
theorem Consistent.cases
    (hConsistent : regions.Consistent mapped)
    {a : U64}
    (hMapped : mapped a)
    (base : U64) :
    regions.HeldHere base a ∨ regions.HeldElsewhere base a := by
  rcases hConsistent.covered a hMapped with ⟨other, hHeld⟩
  by_cases hSame : other = base
  · left
    rw [← hSame]
    exact hHeld
  · right
    exact ⟨other, hSame, hHeld⟩

end Regions

/- What a call does to the regions. -/
inductive RegionChange where
  | keep
  | map (address size : U64) (perm : Permission)
  | unmap (address size : U64)

namespace RegionChange

variable {regions : Regions} {mapped : U64 → Prop}
variable {address size : U64} {perm : Permission}

def apply (regions : Regions) : RegionChange → Regions
  | keep => regions
  | map address size perm => fun a =>
      if a = address then some (size, perm) else regions a
  | unmap address _ => fun a =>
      if a = address then none else regions a

/- What it does to the mapped addresses. -/
def mappedAfter (mapped : U64 → Prop) :
    RegionChange → U64 → Prop
  | keep, a => mapped a
  | map address size _, a =>
      Requested address size a ∨ mapped a
  | unmap address size, a =>
      ¬ Requested address size a ∧ mapped a

/-
  A new region reports mapped memory, and it or the others
  answer for what was requested and for what the region of its
  base answered for.  What is unmapped is held by no region of
  another base; what the region of this base held beyond it is
  held by others.
-/
def Admits (regions : Regions) : RegionChange → Prop
  | keep => True
  | map address size perm =>
      (∀ a, Holds address size a →
          regionType address perm ≠ 3) ∧
        ∀ a,
          Requested address size a ∨
              regions.HeldHere address a →
            Holds address size a ∨
              regions.HeldElsewhere address a
  | unmap address size =>
      (∀ a, regions.HeldElsewhere address a →
          ¬ Requested address size a) ∧
        ∀ a, regions.HeldHere address a →
          Requested address size a ∨
            regions.HeldElsewhere address a

theorem map_heldHere_self
    (a : U64) :
    Regions.HeldHere
        ((map address size perm).apply regions) address a ↔
      Holds address size a := by
  unfold Regions.HeldHere apply
  simp

theorem map_heldHere_other
    {base : U64}
    (hOther : base ≠ address)
    (a : U64) :
    Regions.HeldHere
        ((map address size perm).apply regions) base a ↔
      regions.HeldHere base a := by
  unfold Regions.HeldHere apply
  simp only [if_neg hOther]

theorem unmap_not_heldHere_self
    (a : U64) :
    ¬ Regions.HeldHere
        ((unmap address size).apply regions) address a := by
  unfold Regions.HeldHere apply
  simp

theorem unmap_heldHere_other
    {base : U64}
    (hOther : base ≠ address)
    (a : U64) :
    Regions.HeldHere
        ((unmap address size).apply regions) base a ↔
      regions.HeldHere base a := by
  unfold Regions.HeldHere apply
  simp only [if_neg hOther]

/- A mapping keeps regions and addresses in agreement. -/
theorem map_consistent
    (hConsistent : regions.Consistent mapped)
    (hAdmits : Admits regions (map address size perm)) :
    Regions.Consistent
      ((map address size perm).apply regions)
      ((map address size perm).mappedAfter mapped) := by
  rcases hAdmits with ⟨hTyped, hKept⟩
  constructor
  · intro base size' perm' a hRegion hHolds
    by_cases hSame : base = address
    · subst hSame
      simp only [apply, if_true, Option.some.injEq,
        Prod.mk.injEq] at hRegion
      rcases hRegion with ⟨rfl, rfl⟩
      exact hTyped a hHolds
    · simp only [apply, if_neg hSame] at hRegion
      exact
        hConsistent.typed base size' perm' a hRegion hHolds
  · intro base a hHeld
    by_cases hSame : base = address
    · subst hSame
      left
      exact requested_of_holds ((map_heldHere_self a).mp hHeld)
    · right
      exact
        hConsistent.held base a
          ((map_heldHere_other hSame a).mp hHeld)
  · intro a hMapped
    have hHeld :
        Holds address size a ∨
          regions.HeldElsewhere address a := by
      rcases hMapped with hRequested | hBefore
      · exact hKept a (.inl hRequested)
      · rcases hConsistent.cases hBefore address with
          hHere | hElsewhere
        · exact hKept a (.inr hHere)
        · exact .inr hElsewhere
    rcases hHeld with hHolds | ⟨other, hOther, hHeld⟩
    · exact ⟨address, (map_heldHere_self a).mpr hHolds⟩
    · exact ⟨other, (map_heldHere_other hOther a).mpr hHeld⟩

/- And only those that are admitted. -/
theorem admits_of_map_consistent
    (hConsistent : regions.Consistent mapped)
    (hAfter :
      Regions.Consistent
        ((map address size perm).apply regions)
        ((map address size perm).mappedAfter mapped)) :
    Admits regions (map address size perm) := by
  constructor
  · intro a hHolds
    exact
      hAfter.typed address size perm a (if_pos rfl) hHolds
  · intro a hKept
    have hMapped :
        (map address size perm).mappedAfter mapped a := by
      rcases hKept with hRequested | hHere
      · exact .inl hRequested
      · exact .inr (hConsistent.held address a hHere)
    rcases hAfter.cases hMapped address with
      hHere | ⟨other, hOther, hHeld⟩
    · exact .inl ((map_heldHere_self a).mp hHere)
    · exact
        .inr ⟨other, hOther,
          (map_heldHere_other hOther a).mp hHeld⟩

/- The same for unmapping. -/
theorem unmap_consistent
    (hConsistent : regions.Consistent mapped)
    (hAdmits : Admits regions (unmap address size)) :
    Regions.Consistent
      ((unmap address size).apply regions)
      ((unmap address size).mappedAfter mapped) := by
  rcases hAdmits with ⟨hOthers, hRest⟩
  constructor
  · intro base size' perm a hRegion hHolds
    by_cases hSame : base = address
    · simp [apply, hSame] at hRegion
    · simp only [apply, if_neg hSame] at hRegion
      exact hConsistent.typed base size' perm a hRegion hHolds
  · intro base a hHeld
    by_cases hSame : base = address
    · subst hSame
      exact absurd hHeld (unmap_not_heldHere_self a)
    · have hBefore := (unmap_heldHere_other hSame a).mp hHeld
      exact
        ⟨hOthers a ⟨base, hSame, hBefore⟩,
          hConsistent.held base a hBefore⟩
  · rintro a ⟨hNot, hBefore⟩
    have hElsewhere : regions.HeldElsewhere address a := by
      rcases hConsistent.cases hBefore address with
        hHere | hElsewhere
      · exact (hRest a hHere).resolve_left hNot
      · exact hElsewhere
    rcases hElsewhere with ⟨other, hOther, hHeld⟩
    exact ⟨other, (unmap_heldHere_other hOther a).mpr hHeld⟩

theorem admits_of_unmap_consistent
    (hConsistent : regions.Consistent mapped)
    (hAfter :
      Regions.Consistent
        ((unmap address size).apply regions)
        ((unmap address size).mappedAfter mapped)) :
    Admits regions (unmap address size) := by
  constructor
  · rintro a ⟨other, hOther, hHeld⟩
    exact
      (hAfter.held other a
        ((unmap_heldHere_other hOther a).mpr hHeld)).1
  · intro a hHere
    by_cases hRequested : Requested address size a
    · exact .inl hRequested
    · right
      have hMapped := hConsistent.held address a hHere
      rcases hAfter.cases ⟨hRequested, hMapped⟩ address with
        hHeld | ⟨other, hOther, hHeld⟩
      · exact absurd hHeld (unmap_not_heldHere_self a)
      · exact
          ⟨other, hOther,
            (unmap_heldHere_other hOther a).mp hHeld⟩

/- What is admitted, and nothing else, keeps them agreed. -/
theorem consistent_iff
    (change : RegionChange)
    (hConsistent : regions.Consistent mapped) :
    Regions.Consistent (change.apply regions)
        (change.mappedAfter mapped) ↔
      Admits regions change := by
  cases change with
  | keep => exact ⟨fun _ => trivial, fun _ => hConsistent⟩
  | map address size perm =>
      exact
        ⟨admits_of_map_consistent hConsistent,
          map_consistent hConsistent⟩
  | unmap address size =>
      exact
        ⟨admits_of_unmap_consistent hConsistent,
          unmap_consistent hConsistent⟩

end RegionChange

------
-- The Effect of a Call
------

namespace GuestMemory

open HostMemory (PAGE_SIZE Requested)

variable {m : GuestMemory} {address size : U64}
variable {perm : Permission} {data : Option (Nat → U8)}
variable {hostMaps hostUnmaps hostRemaps : Bool}
variable {m' m'' : GuestMemory} {c : Call}

/- What a call does to the regions when it succeeds. -/
def change (m : GuestMemory) : Call → RegionChange
  | .MapPhysical address size perm _ _ =>
      .map address size perm
  | .UnmapPhysical address size _ => .unmap address size
  | .SetHeapSize size hostUnmaps _ _ =>
      let aligned := alignUp size PAGE_SIZE
      if aligned = m.heapSize then .keep
      else if aligned > m.heapSize then
        .map HEAP_BASE aligned .RW
      else if hostUnmaps then
        .unmap (HEAP_BASE + aligned) (m.heapSize - aligned)
      else .keep
  | .SetupStack size _ =>
      .map (STACK_BASE - stackBytes size) (stackBytes size) .RW

/- The memory behind the call has that effect. -/
def HasEffect
    (m m' : GuestMemory)
    (change : RegionChange) : Prop :=
  m'.host.pages = change.apply m.host.pages ∧
    ∀ a, Mapped m'.history a ↔
      change.mappedAfter (Mapped m.history) a

theorem hasEffect_keep
    {m' : GuestMemory}
    (hPages : m'.host.pages = m.host.pages)
    (hHistory : m'.history = m.history) :
    m.HasEffect m' .keep := by
  refine ⟨hPages, ?_⟩
  intro a
  rw [hHistory]
  rfl

/- The bytes do not matter for the regions. -/
@[simp] theorem deallocate_pages
    (mem : HostMemory)
    (start size : U64) :
    (mem.deallocate start size).pages = mem.pages := by
  unfold HostMemory.deallocate
  split <;> rfl

@[simp] theorem copyData_pages
    (mem : HostMemory)
    (start size : U64)
    (data : Option (Nat → U8)) :
    (mem.copyData start size data).pages = mem.pages := by
  cases data <;> rfl

/- The host mapping of a request that succeeds. -/
theorem host_mapPhysical_pages
    {mem : HostMemory}
    (hSuccess :
      (mem.mapPhysical address size perm data hostMaps).1 =
        .Success) :
    (mem.mapPhysical address size perm data hostMaps).2.pages =
      (RegionChange.map address size perm).apply mem.pages := by
  unfold HostMemory.mapPhysical at hSuccess ⊢
  split at hSuccess
  · simp at hSuccess
  · next hAligned =>
      rw [if_neg hAligned]
      split at hSuccess
      · simp at hSuccess
      · next hEnd =>
          rw [if_neg hEnd]
          split at hSuccess
          · next hTaken =>
              rw [if_pos hTaken]
              funext a
              simp [RegionChange.apply, HostMemory.allocate]
          · simp at hSuccess

theorem mapPhysical_fst :
    (m.mapPhysical address size perm data hostMaps).1 =
      (m.host.mapPhysical address size perm data
        hostMaps).1 := by
  unfold mapPhysical
  split
  · next hEq => rw [hEq]
  · next hEq => rw [hEq]

/- A mapping that succeeds. -/
theorem mapPhysical_effect
    (hSuccess :
      (m.mapPhysical address size perm data hostMaps).1 =
        .Success) :
    m.HasEffect
      (m.mapPhysical address size perm data hostMaps).2
      (.map address size perm) := by
  rw [mapPhysical_fst] at hSuccess
  have hPages := host_mapPhysical_pages hSuccess
  unfold mapPhysical
  split
  · next hEq =>
      rw [hEq] at hPages
      exact ⟨hPages, fun a => Iff.rfl⟩
  · next hNot hEq =>
      exfalso
      rw [hEq] at hSuccess
      exact hNot hSuccess

/- Unmapping, when the host does it. -/
theorem unmapPhysical_effect
    (hAligned : isAligned address PAGE_SIZE = true) :
    m.HasEffect (m.unmapPhysical address size hostUnmaps).2
      (if hostUnmaps then .unmap address size else .keep) := by
  have hHost :
      m.host.unmapPhysical address size hostUnmaps =
        if hostUnmaps then
          (.Success,
            { (if size = 0 then m.host
                else
                  m.host.deallocate (HostMemory.mapAddr address)
                    (HostMemory.mapSize address size)) with
              pages := fun a =>
                if a = address then none else m.host.pages a })
        else (.InvalidArgument, m.host) := by
    unfold HostMemory.unmapPhysical
    rw [if_neg (by simp [hAligned])]
    split
    · split <;> simp
    · rfl
  unfold unmapPhysical
  rw [hHost]
  cases hostUnmaps with
  | true => exact ⟨rfl, fun a => Iff.rfl⟩
  | false => exact hasEffect_keep rfl rfl

/- Unmapping succeeds on what the host releases. -/
theorem unmapPhysical_success
    (hSuccess :
      (m.unmapPhysical address size hostUnmaps).1 =
        .Success) :
    isAligned address PAGE_SIZE = true ∧
      hostUnmaps = true := by
  unfold unmapPhysical HostMemory.unmapPhysical at hSuccess
  split at hSuccess
  · next hEq =>
      split at hEq
      · simp at hEq
      · next hAligned =>
          split at hEq
          · next hUnmaps =>
              simp only [Bool.not_eq_true', Bool.not_eq_false]
                at hAligned
              exact ⟨hAligned, hUnmaps⟩
          · simp at hEq
  · next hNot hEq => exact absurd hSuccess hNot

/- A size that has been rounded up is aligned. -/
theorem isAligned_alignUp (size : U64) :
    isAligned (alignUp size PAGE_SIZE) PAGE_SIZE = true := by
  unfold isAligned alignUp
  rw [decide_eq_true_iff]
  ext i hI
  simp only [BitVec.getElem_and, BitVec.getElem_not]
  cases (PAGE_SIZE - 1)[i] <;> simp

theorem isAligned_heap (size : U64) :
    isAligned (HEAP_BASE + alignUp size PAGE_SIZE) PAGE_SIZE =
      true := by
  have hSize := isAligned_alignUp size
  have hPage : PAGE_SIZE = BitVec.ofNat 64 (2 ^ 12) := by decide
  rw [hPage, isAligned_iff (by decide)] at hSize ⊢
  rw [BitVec.toNat_add]
  show _ ∣ (0x80000000 + _) % 2 ^ 64
  omega

/- The whole heap is a part of a larger one. -/
theorem requested_of_le
    {size' a : U64}
    (hLe : size ≤ size')
    (hRequested : Requested address size a) :
    Requested address size' a :=
  Nat.lt_of_lt_of_le hRequested hLe

/- Unmapping a part of what is then mapped changes nothing. -/
theorem HasEffect.map_of_unmap
    {size' : U64}
    (hLe : size' ≤ size)
    (hUnmap : m.HasEffect m' (.unmap address size'))
    (hMap : m'.HasEffect m'' (.map address size perm)) :
    m.HasEffect m'' (.map address size perm) := by
  rcases hUnmap with ⟨hPages, hMapped⟩
  rcases hMap with ⟨hPages', hMapped'⟩
  constructor
  · rw [hPages', hPages]
    funext a
    simp only [RegionChange.apply]
    split <;> rfl
  · intro a
    rw [hMapped']
    simp only [RegionChange.mappedAfter, hMapped]
    constructor
    · rintro (hRequested | ⟨_, hBefore⟩)
      · exact .inl hRequested
      · exact .inr hBefore
    · rintro (hRequested | hBefore)
      · exact .inl hRequested
      · by_cases hPart : Requested address size' a
        · exact .inl (requested_of_le hLe hPart)
        · exact .inr ⟨hPart, hBefore⟩

theorem HasEffect.of_keep
    {change : RegionChange}
    (hKeep : m.HasEffect m' .keep)
    (hChange : m'.HasEffect m'' change) :
    m.HasEffect m'' change := by
  rcases hKeep with ⟨hPages, hMapped⟩
  rcases hChange with ⟨hPages', hMapped'⟩
  have hSame : Mapped m'.history = Mapped m.history :=
    funext fun a => propext (hMapped a)
  constructor
  · rw [hPages', hPages]
    rfl
  · intro a
    rw [hMapped', hSame]

/- What the next fields of the memory say does not matter. -/
theorem HasEffect.congr
    {change : RegionChange}
    (hEffect : m.HasEffect m' change)
    (hHost : m''.host = m'.host)
    (hHistory : m''.history = m'.history) :
    m.HasEffect m'' change := by
  refine ⟨?_, ?_⟩
  · rw [hHost]
    exact hEffect.1
  · intro a
    rw [hHistory]
    exact hEffect.2 a

/- The heap is mapped behind what was unmapped of it. -/
theorem setHeapSize_grows
    (hGrows : size > m.heapSize)
    (hSuccess :
      ((m.releaseHeap hostUnmaps).mapPhysical HEAP_BASE size .RW
        none hostMaps).1 = .Success) :
    m.HasEffect
      ((m.releaseHeap hostUnmaps).mapPhysical HEAP_BASE size .RW
        none hostMaps).2
      (.map HEAP_BASE size .RW) := by
  have hMap := mapPhysical_effect hSuccess
  unfold releaseHeap at hMap ⊢
  split
  · next hHeap =>
      rw [if_pos hHeap] at hMap
      have hUnmap :
          m.HasEffect
            (m.unmapPhysical HEAP_BASE m.heapSize hostUnmaps).2
            (if hostUnmaps then .unmap HEAP_BASE m.heapSize
              else .keep) :=
        unmapPhysical_effect (by decide)
      cases hostUnmaps with
      | true =>
          exact hUnmap.map_of_unmap (BitVec.le_of_lt hGrows) hMap
      | false => exact hUnmap.of_keep hMap
  · next hHeap =>
      rw [if_neg hHeap] at hMap
      exact hMap

theorem setHeapSize_effect
    (hSuccess :
      (m.setHeapSize size hostUnmaps hostMaps hostRemaps).1 =
        .Success) :
    m.HasEffect
      (m.setHeapSize size hostUnmaps hostMaps hostRemaps).2
      (m.change
        (.SetHeapSize size hostUnmaps hostMaps
          hostRemaps)) := by
  unfold setHeapSize at hSuccess ⊢
  unfold change
  simp only at hSuccess ⊢
  split at hSuccess
  · simp at hSuccess
  · next hFits =>
      rw [if_neg hFits]
      split at hSuccess
      · next hSame =>
          rw [if_pos hSame, if_pos hSame]
          exact hasEffect_keep rfl rfl
      · next hDiffers =>
          rw [if_neg hDiffers, if_neg hDiffers]
          split at hSuccess
          · next hGrows =>
              rw [if_pos hGrows, if_pos hGrows]
              split at hSuccess
              · next hFails => exact absurd hSuccess hFails
              · next hMaps =>
                  rw [if_neg hMaps]
                  exact
                    (setHeapSize_grows hGrows
                      (not_not.mp hMaps)).congr rfl rfl
          · next hShrinks =>
              rw [if_neg hShrinks, if_neg hShrinks]
              exact
                (unmapPhysical_effect
                  (isAligned_heap size)).congr rfl rfl

theorem mapStack_effect
    (hSuccess : (m.mapStack address size hostMaps).1 = .Success) :
    m.HasEffect (m.mapStack address size hostMaps).2
      (.map address size .RW) := by
  unfold mapStack at hSuccess ⊢
  split at hSuccess
  · next m' hEq =>
      have hEffect :=
        mapPhysical_effect (congrArg Prod.fst hEq)
      rw [hEq] at hEffect
      exact hEffect.congr rfl rfl
  · next hNot hEq => exact absurd hSuccess hNot

/- Every call that succeeds does what its change says. -/
theorem call_effect
    (hSuccess : (m.call c).1 = .Success) :
    m.HasEffect (m.step c) (m.change c) := by
  unfold step
  cases c with
  | MapPhysical address size perm data hostMaps =>
      rw [call] at hSuccess ⊢
      exact mapPhysical_effect hSuccess
  | UnmapPhysical address size hostUnmaps =>
      rw [call] at hSuccess ⊢
      rcases unmapPhysical_success hSuccess with
        ⟨hAligned, hUnmaps⟩
      subst hUnmaps
      exact unmapPhysical_effect hAligned
  | SetHeapSize size hostUnmaps hostMaps hostRemaps =>
      rw [call] at hSuccess ⊢
      exact setHeapSize_effect hSuccess
  | SetupStack size hostMaps =>
      rw [call, setupStack] at hSuccess ⊢
      rw [change]
      exact mapStack_effect hSuccess

------
-- What Queries Report
------

variable {pages : Regions} {order : Enumeration}
variable {base size a : U64}

/- A query finds a region that holds the address, or none. -/
theorem queryRegion_cases
    (hOrder : Enumerates order pages)
    (a : U64) :
    (∃ base size perm,
        pages base = some (size, perm) ∧ Holds base size a ∧
          queryRegion order a =
            { base := base
              size := size
              type := regionType base perm }) ∨
      (¬ ∃ base, pages.HeldHere base a) ∧
        (queryRegion order a).type = 3 := by
  unfold queryRegion
  split
  · next base size perm hFind =>
      left
      have hHolds := List.find?_some hFind
      have hMem := List.mem_of_find?_eq_some hFind
      rw [decide_eq_true_iff] at hHolds
      exact
        ⟨base, size, perm, (hOrder base size perm).mp hMem,
          hHolds, rfl⟩
  · next hFind =>
      right
      refine ⟨?_, rfl⟩
      rintro ⟨base, size, perm, hRegion, hHolds⟩
      have hNot :=
        List.find?_eq_none.mp hFind (base, size, perm)
          ((hOrder base size perm).mpr hRegion)
      rw [decide_eq_true_iff] at hNot
      exact hNot hHolds

/- Some order has a given region first. -/
theorem Enumerates.cons
    (hOrder : Enumerates order pages)
    (hRegion : pages base = some (size, perm)) :
    Enumerates ((base, size, perm) :: order) pages := by
  intro base' size' perm'
  rw [List.mem_cons, hOrder]
  constructor
  · rintro (hEq | hIn)
    · cases hEq
      exact hRegion
    · exact hIn
  · exact .inr

theorem queryRegion_cons
    (hHolds : Holds base size a) :
    queryRegion ((base, size, perm) :: order) a =
      { base := base
        size := size
        type := regionType base perm } := by
  unfold queryRegion
  rw [List.find?_cons_of_pos (by simpa using hHolds)]

/- Consistent regions are reported as they should be. -/
theorem tracks_of_consistent
    (hConsistent :
      Regions.Consistent m.host.pages (Mapped m.history)) :
    m.Tracks := by
  intro order hOrder a
  rcases queryRegion_cases hOrder a with
    ⟨base, size, perm, hRegion, hHolds, hQuery⟩ |
      ⟨hNone, hType⟩
  · rw [hQuery]
    have hTyped :=
      hConsistent.typed base size perm a hRegion hHolds
    have hHeld :
        ∀ b, Holds base size b → Mapped m.history b :=
      fun b hB =>
        hConsistent.held base b ⟨size, perm, hRegion, hB⟩
    exact
      ⟨⟨fun _ => hHeld a hHolds, fun _ => hTyped⟩,
        fun _ => ⟨hHolds, hHeld⟩⟩
  · refine ⟨⟨?_, ?_⟩, ?_⟩
    · intro hReported
      exact absurd hType hReported
    · intro hMapped
      exact absurd (hConsistent.covered a hMapped) hNone
    · intro hReported
      exact absurd hType hReported

/-
  Regions that are reported as they should be are consistent,
  when there is an order to enumerate them in and none without
  a type answers for memory that is not mapped.
-/
theorem consistent_of_tracks
    (hTracks : m.Tracks)
    (hOrder : Enumerates order m.host.pages)
    (hTyped :
      ∀ base size perm a,
        m.host.pages base = some (size, perm) →
          Holds base size a → regionType base perm = 3 →
            Mapped m.history a) :
    Regions.Consistent m.host.pages (Mapped m.history) := by
  have hReported :
      ∀ base size perm a,
        m.host.pages base = some (size, perm) →
          Holds base size a →
            (regionType base perm ≠ 3 ↔
              Mapped m.history a) := by
    intro base size perm a hRegion hHolds
    have hFirst :=
      (hTracks _ (hOrder.cons hRegion) a).1
    rw [queryRegion_cons hHolds] at hFirst
    exact hFirst
  have hType :
      ∀ base size perm a,
        m.host.pages base = some (size, perm) →
          Holds base size a → regionType base perm ≠ 3 := by
    intro base size perm a hRegion hHolds hThree
    have hMapped := hTyped base size perm a hRegion hHolds hThree
    exact
      (hReported base size perm a hRegion hHolds).mpr hMapped
        hThree
  constructor
  · exact hType
  · rintro base a ⟨size, perm, hRegion, hHolds⟩
    exact
      (hReported base size perm a hRegion hHolds).mp
        (hType base size perm a hRegion hHolds)
  · intro a hMapped
    have hQuery := (hTracks order hOrder a).1.mpr hMapped
    rcases queryRegion_cases hOrder a with
      ⟨base, size, perm, hRegion, hHolds, _⟩ | ⟨_, hNone⟩
    · exact ⟨base, size, perm, hRegion, hHolds⟩
    · exact absurd hNone hQuery

------
-- Runs
------

/- A change to finitely many regions leaves finitely many. -/
theorem enumerates_apply
    (hOrder : Enumerates order pages)
    (change : RegionChange) :
    ∃ order', Enumerates order' (change.apply pages) := by
  cases change with
  | keep => exact ⟨order, hOrder⟩
  | map address size perm =>
      refine
        ⟨(address, size, perm) ::
          order.filter (fun p => p.1 ≠ address), ?_⟩
      intro base size' perm'
      by_cases hSame : base = address
      · subst hSame
        simp [RegionChange.apply, eq_comm]
      · simp [RegionChange.apply, hSame,
          hOrder base size' perm']
  | unmap address size =>
      refine ⟨order.filter (fun p => p.1 ≠ address), ?_⟩
      intro base size' perm'
      by_cases hSame : base = address
      · simp [RegionChange.apply, hSame]
      · simp [RegionChange.apply, hSame,
          hOrder base size' perm']

/- What holds behind every admitted call. -/
structure Sound (m : GuestMemory) : Prop where
  consistent :
    Regions.Consistent m.host.pages (Mapped m.history)
  finite : ∃ order, Enumerates order m.host.pages

theorem sound_start : Sound {} := by
  constructor
  · constructor
    · intro base size perm a hRegion
      simp at hRegion
    · rintro base a ⟨size, perm, hRegion, _⟩
      simp at hRegion
    · intro a hMapped
      exact hMapped.elim
  · refine ⟨[], ?_⟩
    intro base size perm
    simp

/- The regions before a call admit what it does to them. -/
def Admits (m : GuestMemory) (c : Call) : Prop :=
  (m.change c).Admits m.host.pages

theorem mapped_step
    (hSuccess : (m.call c).1 = .Success) :
    Mapped (m.step c).history =
      (m.change c).mappedAfter (Mapped m.history) :=
  funext fun a => propext ((call_effect hSuccess).2 a)

theorem Sound.step
    (hSound : m.Sound)
    (hSuccess : (m.call c).1 = .Success)
    (hAdmits : m.Admits c) :
    (m.step c).Sound := by
  rcases hSound.finite with ⟨order, hOrder⟩
  have hPages := (call_effect hSuccess).1
  constructor
  · rw [hPages, mapped_step hSuccess]
    exact
      ((m.change c).consistent_iff hSound.consistent).mpr
        hAdmits
  · rw [hPages]
    exact enumerates_apply hOrder (m.change c)

/- A region without a type is the one just mapped. -/
theorem typed_step
    (hSound : m.Sound)
    (hSuccess : (m.call c).1 = .Success) :
    ∀ base size perm a,
      (m.step c).host.pages base = some (size, perm) →
        Holds base size a → regionType base perm = 3 →
          Mapped (m.step c).history a := by
  intro base size perm a hRegion hHolds hThree
  rw [(call_effect hSuccess).1] at hRegion
  rw [mapped_step hSuccess]
  have hBefore :
      m.host.pages base = some (size, perm) → False :=
    fun hOld =>
      hSound.consistent.typed base size perm a hOld hHolds
        hThree
  cases hChange : m.change c with
  | keep =>
      rw [hChange] at hRegion
      exact (hBefore hRegion).elim
  | map address size' perm' =>
      rw [hChange] at hRegion
      simp only [RegionChange.apply] at hRegion
      split at hRegion
      · next hSame =>
          simp only [Option.some.injEq, Prod.mk.injEq]
            at hRegion
          rcases hRegion with ⟨rfl, rfl⟩
          subst hSame
          exact .inl (requested_of_holds hHolds)
      · exact (hBefore hRegion).elim
  | unmap address size' =>
      rw [hChange] at hRegion
      simp only [RegionChange.apply] at hRegion
      split at hRegion
      · simp at hRegion
      · exact (hBefore hRegion).elim

theorem admits_of_tracks
    (hSound : m.Sound)
    (hSuccess : (m.call c).1 = .Success)
    (hTracks : (m.step c).Tracks) :
    m.Admits c := by
  rcases hSound.finite with ⟨order, hOrder⟩
  have hPages := (call_effect hSuccess).1
  rcases enumerates_apply hOrder (m.change c) with
    ⟨order', hOrder'⟩
  rw [← hPages] at hOrder'
  have hConsistent :=
    consistent_of_tracks hTracks hOrder'
      (typed_step hSound hSuccess)
  rw [hPages, mapped_step hSuccess] at hConsistent
  exact
    ((m.change c).consistent_iff hSound.consistent).mp
      hConsistent

/-
  Queries and mappings agree throughout a run of calls that
  succeed exactly when the regions admit every call of it.
-/
theorem tracks_throughout_iff
    (calls : List Call)
    (hSucceed : EventRun.Guarded step Succeeds {} calls) :
    (∀ before, before <+: calls →
        (EventRun.stateAfter step {} before).Tracks) ↔
      EventRun.Guarded step Admits {} calls :=
  EventRun.throughout_iff_guarded (I := Sound)
    (fun _ hSound => tracks_of_consistent hSound.consistent)
    (fun _ _ hSound hCall hAdmits =>
      hSound.step hCall.2 hAdmits)
    (fun _ _ hSound hCall hTracks =>
      admits_of_tracks hSound hCall.2 hTracks)
    sound_start hSucceed

/- A heap of two pages, with a page of code. -/
theorem tracks_throughout_two_regions :
    EventRun.Guarded step Succeeds {}
        [.MapPhysical 0x40000000 0x1000 .RX none true,
          .SetHeapSize 0x2000 true true true] ∧
      ((∀ before,
          before <+:
            [.MapPhysical 0x40000000 0x1000 .RX none true,
              .SetHeapSize 0x2000 true true true] →
            (EventRun.stateAfter step {} before).Tracks) ↔
        EventRun.Guarded step Admits {}
          [.MapPhysical 0x40000000 0x1000 .RX none true,
            .SetHeapSize 0x2000 true true true]) :=
  ⟨by decide,
    tracks_throughout_iff _ (by decide)⟩

/-
  The heap shrinks from two pages to one: its region stays as
  it was and still reports the page that is gone.
-/
theorem not_tracks_shrunken_heap :
    ¬ ∀ calls, EventRun.Guarded step Succeeds {} calls →
        ∀ before, before <+: calls →
          (EventRun.stateAfter step {} before).Tracks := by
  intro hAll
  have hSucceed :
      EventRun.Guarded step Succeeds {}
        [.SetHeapSize 0x2000 true true true,
          .SetHeapSize 0x1000 true true true] := by
    decide
  have hAdmits :=
    (tracks_throughout_iff _ hSucceed).mp (hAll _ hSucceed)
      [.SetHeapSize 0x2000 true true true]
      (.SetHeapSize 0x1000 true true true)
      (List.prefix_refl _)
  have hChange :
      (step {} (.SetHeapSize 0x2000 true true true)).change
          (.SetHeapSize 0x1000 true true true) =
        .unmap 0x80001000 0x1000 := by
    rfl
  have hRegion :
      (step {} (.SetHeapSize 0x2000 true true true)).host.pages
          0x80000000 = some (0x2000, .RW) := by
    rfl
  change RegionChange.Admits _ (change _ _) at hAdmits
  rw [show EventRun.stateAfter step {}
      [.SetHeapSize 0x2000 true true true] =
        step {} (.SetHeapSize 0x2000 true true true) from rfl,
    hChange] at hAdmits
  exact
    hAdmits.1 0x80001000
      ⟨0x80000000, by decide, 0x2000, .RW, hRegion, by decide⟩
      (by decide)

end GuestMemory

end M1Switch
