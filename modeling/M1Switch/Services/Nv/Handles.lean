import Mathlib.Data.List.Nodup
import M1Switch.Services.Nv

/-
  What the handles of memory objects stand for.

  A handle is the number of its object with a mark in the
  upper half.  The mark has a bit in the place where numbers
  from `0x20000` on have one, so that later objects share the
  handles of earlier ones.

  Key definitions include:
    * `creations`
    * `NvMap.Identified`

  Main results:
    * `step`
    * `identified_iff`
-/

------
-- Numbers and Handles
------

namespace M1Switch

namespace NvDevice

/- Whether an event makes an object. -/
def isCreation : NvEvent → Bool
  | .command call _ => NvMap.ioctl call.cmdId = .create
  | .nvMapAlloc _ _ => true
  | .store _ _ => false

/- How many objects a run makes. -/
def creations (events : List NvEvent) : Nat :=
  events.countP isCreation

end NvDevice

namespace NvMap

/-
  Handles are distinct, lead to their objects, and are found
  again by the numbers of these.
-/
structure Identified (nv : NvMap) : Prop where
  distinct : (nv.entries.map (·.handle)).Nodup
  lookup :
    ∀ e ∈ nv.entries, nv.lookupByHandle e.handle = some e
  fromId :
    ∀ e ∈ nv.entries,
      nv.fromId (nv.getId e.handle) = e.handle
  getHandle :
    ∀ e ∈ nv.entries,
      NvMap.getHandle (nv.getId e.handle) = e.handle

/- The number of an object, and its handle. -/
def idAt (i : Nat) : U32 :=
  BitVec.ofNat 32 (i + 1)

def handleAt (i : Nat) : U32 :=
  idAt i ||| tag

/- The mark leaves the lower bits of a number alone. -/
theorem toNat_handleAt_mod (i : Nat) :
    (handleAt i).toNat % 2 ^ 17 = (i + 1) % 2 ^ 17 := by
  unfold handleAt idAt
  rw [BitVec.toNat_or, Nat.or_mod_two_pow, BitVec.toNat_ofNat]
  show (i + 1) % 2 ^ 32 % 2 ^ 17 ||| 0 = _
  rw [Nat.or_zero]
  omega

theorem handleAt_inj
    {i j : Nat}
    (hI : i < 0x20000)
    (hJ : j < 0x20000)
    (hSame : handleAt i = handleAt j) :
    i = j := by
  have hMod :=
    congrArg (fun h : U32 => h.toNat % 2 ^ 17) hSame
  simp only [toNat_handleAt_mod] at hMod
  omega

/-
  The objects behind a run: numbered from one on, each under
  the handle of its number, and each handle with the last
  object that has it.
-/
structure Numbered (n : Nat) (nv : NvMap) : Prop where
  next : nv.nextId = idAt n
  marks :
    nv.entries.map (fun e => (e.handle, e.id)) =
      (List.range n).map fun i => (handleAt i, idAt i)
  index :
    ∀ h, nv.handleIndex h =
      (List.range n).reverse.find? fun i => handleAt i = h

variable {n : Nat} {nv : NvMap}

theorem Numbered.length
    (hNumbered : nv.Numbered n) :
    nv.entries.length = n := by
  have hLength := congrArg List.length hNumbered.marks
  simpa using hLength

theorem Numbered.create
    (hNumbered : nv.Numbered n)
    (size : U32)
    (align : U64) :
    (nv.create size align).2.Numbered (n + 1) := by
  have hNext := hNumbered.next
  constructor
  · show nv.nextId + 1 = _
    rw [hNext]
    unfold idAt
    rw [BitVec.ofNat_add (n + 1) 1]
    rfl
  · unfold NvMap.create
    rw [List.map_append, hNumbered.marks, List.range_succ,
      List.map_append, hNext]
    rfl
  · intro h
    unfold NvMap.create
    simp only [hNext, hNumbered.length]
    rw [List.range_succ, List.reverse_append,
      List.reverse_singleton, List.singleton_append,
      List.find?_cons, hNumbered.index]
    by_cases hNew : h = handleAt n
    · simp [hNew, handleAt]
    · have hNew' : ¬ handleAt n = h := fun hEq =>
        hNew hEq.symm
      simp only [hNew', decide_false]
      exact if_neg hNew

/- What does not change numbers and handles. -/
theorem Numbered.of_same
    {nv' : NvMap}
    (hNumbered : nv.Numbered n)
    (hNext : nv'.nextId = nv.nextId)
    (hIndex : nv'.handleIndex = nv.handleIndex)
    (hMarks :
      nv'.entries.map (fun e => (e.handle, e.id)) =
        nv.entries.map fun e => (e.handle, e.id)) :
    nv'.Numbered n := by
  constructor
  · rw [hNext, hNumbered.next]
  · rw [hMarks, hNumbered.marks]
  · intro h
    rw [hIndex, hNumbered.index]

/- An object is replaced by one with its number. -/
theorem Numbered.set
    (hNumbered : nv.Numbered n)
    {i : Nat}
    {entry entry' : NvMapEntry}
    {offset : U64}
    (hEntry : nv.entries[i]? = some entry)
    (hHandle : entry'.handle = entry.handle)
    (hId : entry'.id = entry.id) :
    { nv with
      entries := nv.entries.set i entry'
      carveoutOffset := offset }.Numbered n := by
  refine hNumbered.of_same ?_ ?_ ?_
  · rfl
  · rfl
  · rw [List.map_set]
    apply List.ext_getElem?
    intro j
    rw [List.getElem?_set]
    split
    · next hSame =>
        subst hSame
        have hLt := (List.getElem?_eq_some_iff.mp hEntry).1
        simp only [List.length_map, hLt, if_true,
          List.getElem?_map, hEntry, Option.map_some, hHandle,
          hId]
    · rfl

/- An object keeps its number when it is placed. -/
theorem place_marks
    (offset : U64)
    (entry : NvMapEntry)
    (mem : Option HostMemory)
    (hostMaps : Bool) :
    (place offset entry mem hostMaps).1.handle = entry.handle ∧
      (place offset entry mem hostMaps).1.id = entry.id := by
  unfold place
  split
  · exact ⟨rfl, rfl⟩
  · split
    · exact ⟨rfl, rfl⟩
    · split
      · exact ⟨rfl, rfl⟩
      · dsimp only
        split <;> exact ⟨rfl, rfl⟩

theorem Numbered.handleAlloc
    (hNumbered : nv.Numbered n)
    (mem : Option HostMemory)
    (call : ServiceCall)
    (hostMaps : Bool) :
    (nv.handleAlloc mem call hostMaps).1.Numbered n := by
  unfold NvMap.handleAlloc
  split
  · exact hNumbered
  · split
    · exact hNumbered
    · split
      · exact hNumbered
      · next entry hEntry =>
          rcases place_marks nv.carveoutOffset
              (configured call entry) mem hostMaps with
            ⟨hHandle, hId⟩
          exact hNumbered.set hEntry hHandle hId

theorem Numbered.handleFree
    (hNumbered : nv.Numbered n)
    (call : ServiceCall) :
    (nv.handleFree call).Numbered n := by
  unfold NvMap.handleFree
  split
  · exact hNumbered
  · split
    · exact hNumbered
    · next hEntry => exact hNumbered.set hEntry rfl rfl

/- One event makes one object, or none. -/
theorem Numbered.step
    {dev : NvDevice}
    (hNumbered : dev.map.Numbered n)
    (e : NvEvent) :
    (dev.step e).map.Numbered
      (n + if NvDevice.isCreation e then 1 else 0) := by
  cases e with
  | command call hostMaps =>
      show (dev.map.handleCommand _ _ _).1.Numbered _
      unfold NvMap.handleCommand
      simp only [NvDevice.isCreation, decide_eq_true_iff]
      cases hIoctl : ioctl call.cmdId with
      | create =>
          rw [if_pos rfl]
          exact hNumbered.create _ _
      | alloc =>
          rw [if_neg (fun hEq => nomatch hEq)]
          exact hNumbered.handleAlloc _ _ _
      | free =>
          rw [if_neg (fun hEq => nomatch hEq)]
          exact hNumbered.handleFree _
      | fromId => exact hNumbered
      | param => exact hNumbered
      | getId => exact hNumbered
      | getHandle => exact hNumbered
      | other => exact hNumbered
  | nvMapAlloc size align => exact hNumbered.create _ _
  | store address value => exact hNumbered

theorem numbered_after
    (mem : Option HostMemory)
    (events : List NvEvent) :
    (NvDevice.after mem events).map.Numbered
      (NvDevice.creations events) := by
  refine
    EventRun.invariant
      (I := fun events (dev : NvDevice) =>
        dev.map.Numbered (NvDevice.creations events))
      ?_ ?_ events
  · constructor
    · rfl
    · rfl
    · exact fun _ => rfl
  · intro before e hNumbered
    have hStep := hNumbered.step e
    unfold NvDevice.creations at hStep ⊢
    rw [List.countP_append, List.countP_singleton]
    exact hStep

------
-- When Handles Stand for Their Objects
------

/- An object by its place. -/
theorem Numbered.getElem?
    (hNumbered : nv.Numbered n)
    {i : Nat}
    {e : NvMapEntry}
    (hEntry : nv.entries[i]? = some e) :
    i < n ∧ e.handle = handleAt i ∧ e.id = idAt i := by
  have hLt : i < n := by
    rw [← hNumbered.length]
    exact (List.getElem?_eq_some_iff.mp hEntry).1
  have hMark := congrArg (·[i]?) hNumbered.marks
  simp only [List.getElem?_map, hEntry, Option.map_some,
    List.getElem?_range hLt, Option.some.injEq,
    Prod.mk.injEq] at hMark
  exact ⟨hLt, hMark⟩

theorem Numbered.handles
    (hNumbered : nv.Numbered n) :
    nv.entries.map (·.handle) =
      (List.range n).map handleAt := by
  have hFirst := congrArg (List.map Prod.fst) hNumbered.marks
  simpa [List.map_map, Function.comp_def] using hFirst

/- Few objects have a handle each. -/
theorem Numbered.distinct
    (hNumbered : nv.Numbered n)
    (hFew : n ≤ 0x20000) :
    (nv.entries.map (·.handle)).Nodup := by
  rw [hNumbered.handles]
  apply List.Nodup.map_on _ List.nodup_range
  intro i hI j hJ hSame
  have hI' := List.mem_range.mp hI
  have hJ' := List.mem_range.mp hJ
  exact handleAt_inj (by omega) (by omega) hSame

/- The handle of a number leads to its place. -/
theorem Numbered.index_handleAt
    (hNumbered : nv.Numbered n)
    (hFew : n ≤ 0x20000)
    {i : Nat}
    (hI : i < n) :
    nv.handleIndex (handleAt i) = some i := by
  rw [hNumbered.index]
  cases hFind : (List.range n).reverse.find? fun j =>
      decide (handleAt j = handleAt i) with
  | none =>
      have hNot := List.find?_eq_none.mp hFind i (by simpa)
      simp at hNot
  | some j =>
      have hSame := List.find?_some hFind
      have hMem := List.mem_of_find?_eq_some hFind
      rw [List.mem_reverse, List.mem_range] at hMem
      rw [decide_eq_true_iff] at hSame
      rw [handleAt_inj (by omega) (by omega) hSame]

theorem Numbered.lookup
    (hNumbered : nv.Numbered n)
    (hFew : n ≤ 0x20000)
    {e : NvMapEntry}
    (hMem : e ∈ nv.entries) :
    nv.lookupByHandle e.handle = some e := by
  rcases List.mem_iff_getElem?.mp hMem with ⟨i, hEntry⟩
  rcases hNumbered.getElem? hEntry with ⟨hLt, hHandle, -⟩
  unfold lookupByHandle
  rw [hHandle, hNumbered.index_handleAt hFew hLt]
  exact hEntry

/- Whatever has a number has the handle of that number. -/
theorem Numbered.fromId
    (hNumbered : nv.Numbered n)
    (id : U32) :
    nv.fromId id = id ||| tag := by
  unfold NvMap.fromId
  split
  · next e hFind =>
      have hMem := List.mem_of_find?_eq_some hFind
      have hId := List.find?_some hFind
      rw [decide_eq_true_iff] at hId
      rcases List.mem_iff_getElem?.mp hMem with ⟨i, hEntry⟩
      rcases hNumbered.getElem? hEntry with ⟨-, hHandle, hIdAt⟩
      rw [hHandle, ← hId, hIdAt]
      rfl
  · rfl

theorem Numbered.identified
    (hNumbered : nv.Numbered n)
    (hFew : n ≤ 0x20000) :
    nv.Identified := by
  have hId :
      ∀ e ∈ nv.entries,
        nv.getId e.handle ||| tag = e.handle := by
    intro e hMem
    rcases List.mem_iff_getElem?.mp hMem with ⟨i, hEntry⟩
    rcases hNumbered.getElem? hEntry with ⟨-, hHandle, hIdAt⟩
    unfold getId
    rw [hNumbered.lookup hFew hMem, hHandle]
    show e.id ||| tag = _
    rw [hIdAt]
    rfl
  constructor
  · exact hNumbered.distinct hFew
  · exact fun e hMem => hNumbered.lookup hFew hMem
  · intro e hMem
    rw [hNumbered.fromId]
    exact hId e hMem
  · exact hId

/- The object with number `0x20001` has the first handle. -/
theorem Numbered.not_distinct
    (hNumbered : nv.Numbered n)
    (hMany : 0x20000 < n) :
    ¬ (nv.entries.map (·.handle)).Nodup := by
  intro hNodup
  rw [hNumbered.handles] at hNodup
  have hInj :=
    List.inj_on_of_nodup_map hNodup
      (List.mem_range.mpr (by omega : 0 < n))
      (List.mem_range.mpr hMany) (by decide)
  omega

/-
  Behind a run the handles stand for their objects exactly if
  it has made no more than `0x20000` of them.
-/
theorem identified_iff
    (mem : Option HostMemory)
    (events : List NvEvent) :
    (NvDevice.after mem events).map.Identified ↔
      NvDevice.creations events ≤ 0x20000 := by
  have hNumbered := numbered_after mem events
  constructor
  · intro hIdentified
    by_contra hMany
    exact
      hNumbered.not_distinct (by omega) hIdentified.distinct
  · exact hNumbered.identified

/- One object more than there are handles. -/
def manyObjects : List NvEvent :=
  List.replicate 0x20001 (.nvMapAlloc 0x1000 0)

theorem manyObjects_not_identified :
    ¬ (NvDevice.after none manyObjects).map.Identified := by
  have hCount :
      NvDevice.creations manyObjects = 0x20001 := by
    unfold NvDevice.creations manyObjects
    rw [List.countP_replicate]
    rfl
  intro hIdentified
  have hNumbered := numbered_after none manyObjects
  rw [hCount] at hNumbered
  exact
    hNumbered.not_distinct (by decide) hIdentified.distinct

end NvMap

end M1Switch
