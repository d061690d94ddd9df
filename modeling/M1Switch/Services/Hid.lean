import Mathlib.Data.List.Induction
import M1Switch.Common.Types

/-
  The controllers as they are written to shared memory.

  Each controller has a block with a ring of seventeen states
  and a header that says which of them is the newest.  An
  update writes the state to the entry the header names and
  leaves the header naming it, so that the ring keeps one
  state.  The front end writes to the same memory: when it does
  so for the first time it clears a section of its own, which
  the first blocks lie in.

  Key definitions include:
    * `NpadState`
    * `initNpadState`

  Main results:
    * `after_push`
    * `npads_updates`
    * `ringHolds_iff`
-/

------
-- Shared Memory
------

namespace M1Switch

/- What a controller reports; its sticks rest at 128. -/
structure HidInput where
  buttons : U32 := 0
  lx : U8 := 128
  ly : U8 := 128
  rx : U8 := 128
  ry : U8 := 128
deriving DecidableEq

structure NpadEntry where
  timestamp : U64
  buttons : U32
  leftStickX : U8
  leftStickY : U8
  rightStickX : U8
  rightStickY : U8
deriving DecidableEq

/- The block of a controller. -/
structure NpadState where
  timestamp : U64
  entryCount : U64
  lastEntryIndex : U64
  maxEntryCount : U64
  entries : Fin 17 → NpadEntry

namespace NpadEntry

/- The entry of a state; the clock stands at zero. -/
def ofInput (s : HidInput) : NpadEntry where
  timestamp := 0
  buttons := s.buttons
  leftStickX := s.lx
  leftStickY := s.ly
  rightStickX := s.rx
  rightStickY := s.ry

/- An entry has the buttons and the sticks of a state. -/
def Shows (entry : NpadEntry) (s : HidInput) : Prop :=
  entry.buttons = s.buttons ∧ entry.leftStickX = s.lx ∧
    entry.leftStickY = s.ly ∧ entry.rightStickX = s.rx ∧
    entry.rightStickY = s.ry

end NpadEntry

namespace NpadState

/- A block that has been activated. -/
def initial : NpadState where
  timestamp := 0
  entryCount := 1
  lastEntryIndex := 0
  maxEntryCount := 17
  entries := fun _ => .ofInput {}

/- A block of which every byte is zero. -/
def zero : NpadState where
  timestamp := 0
  entryCount := 0
  lastEntryIndex := 0
  maxEntryCount := 0
  entries := fun _ =>
    .ofInput { lx := 0, ly := 0, rx := 0, ry := 0 }

/- Where a block is written next. -/
def entryIdx (npad : NpadState) : Fin 17 :=
  Fin.ofNat 17 npad.lastEntryIndex.toNat

/- One more state in a block. -/
def push (npad : NpadState) (s : HidInput) : NpadState where
  timestamp := 0
  entryCount :=
    if 17 < npad.entryCount + 1 then 17 else npad.entryCount + 1
  lastEntryIndex := BitVec.ofNat 64 npad.entryIdx.val
  maxEntryCount := npad.maxEntryCount
  entries :=
    Function.update npad.entries npad.entryIdx (.ofInput s)

/- The entry `j` places before the one the header names. -/
def back (npad : NpadState) (j : Nat) : NpadEntry :=
  npad.entries
    (Fin.ofNat 17 (npad.lastEntryIndex.toNat % 17 + 17 - j))

/-
  The ring holds the most recent of the states, each before the
  next, and counts them.
-/
structure RingHolds
    (npad : NpadState)
    (ss : List HidInput) : Prop where
  recent :
    ∀ j s, j < 17 → ss.reverse[j]? = some s →
      (npad.back j).Shows s
  counted : npad.entryCount.toNat = min (ss.length + 1) 17

end NpadState

/- Whether the program has a window or runs without one. -/
inductive FrontEnd where
  | headless
  | window
deriving DecidableEq

/- The blocks of the controllers and that of the handheld, and
whether the front end has written its header. -/
structure HidMemory where
  npads : Fin 9 → NpadState
  headerInit : Bool := false

namespace HidMemory

def HID_NPAD_OFFSET : Nat := 0x3C00

/- Where a block is, and how much of it is used. -/
def npadOffset (idx : Fin 9) : Nat :=
  HID_NPAD_OFFSET + idx.val * 0x4500

def npadUsed : Nat := 0x20 + 17 * 24

/- The section the front end has for controllers. -/
def sectionOffset : Nat := 0x1000
def sectionSize : Nat := 0x14E8 * 9

/- A block lies in this section. -/
def Cleared (idx : Fin 9) : Prop :=
  sectionOffset ≤ npadOffset idx ∧
    npadOffset idx + npadUsed ≤ sectionOffset + sectionSize

instance : DecidablePred Cleared := fun _ =>
  inferInstanceAs (Decidable (_ ∧ _))

/- Activate a controller. -/
def initNpadState
    (mem : HidMemory)
    (controllerIdx : Fin 9) : HidMemory :=
  { mem with
    npads := Function.update mem.npads controllerIdx .initial }

/-
  The front end clears its section once.  What it writes later
  is at the start of the section, before the first block.
-/
def inputWrite
    (front : FrontEnd)
    (mem : HidMemory) : HidMemory :=
  match front with
  | .headless => mem
  | .window =>
      if mem.headerInit then mem
      else
        { npads := fun idx =>
            if Cleared idx then .zero else mem.npads idx
          headerInit := true }

/- The controllers that are updated: the first player's and
the handheld. -/
def updated : List (Fin 9) := [0, 8]

def updateSharedMemory
    (front : FrontEnd)
    (mem : HidMemory)
    (s : HidInput) : HidMemory :=
  updated.foldl
    (fun mem idx =>
      { mem with
        npads :=
          Function.update mem.npads idx
            ((mem.npads idx).push s) })
    (mem.inputWrite front)

/- The memory behind updates with these states. -/
def updates
    (front : FrontEnd)
    (mem : HidMemory)
    (ss : List HidInput) : HidMemory :=
  ss.foldl (updateSharedMemory front) mem

end HidMemory

------
-- What a Block Holds After Updates
------

namespace NpadState

variable {npad : NpadState} {ss : List HidInput}

/- A block behind these states. -/
def pushes
    (npad : NpadState)
    (ss : List HidInput) : NpadState :=
  ss.foldl push npad

theorem pushes_cons (s : HidInput) :
    npad.pushes (s :: ss) = (npad.push s).pushes ss :=
  rfl

theorem pushes_concat (s : HidInput) :
    npad.pushes (ss ++ [s]) = (npad.pushes ss).push s := by
  unfold pushes
  rw [List.foldl_append]
  rfl

/- A header that names the first entry goes on to name it, and
nothing else is written. -/
theorem after_push
    (hFirst : npad.lastEntryIndex = 0)
    (s : HidInput) :
    (npad.push s).lastEntryIndex = 0 ∧
      (npad.push s).entries =
        Function.update npad.entries 0 (.ofInput s) := by
  have hIdx : npad.entryIdx = 0 := by
    unfold entryIdx
    rw [hFirst]
    rfl
  unfold push
  rw [hIdx]
  exact ⟨rfl, rfl⟩

theorem entryCount_push
    (hCount : npad.entryCount.toNat ≤ 17)
    (s : HidInput) :
    (npad.push s).entryCount.toNat =
      min (npad.entryCount.toNat + 1) 17 := by
  have hNext :
      (npad.entryCount + 1).toNat =
        npad.entryCount.toNat + 1 := by
    rw [BitVec.toNat_add]
    show (npad.entryCount.toNat + 1) % 2 ^ 64 = _
    omega
  have hFull :
      17 < npad.entryCount + 1 ↔
        17 < npad.entryCount.toNat + 1 := by
    rw [BitVec.lt_def, hNext]
    rfl
  unfold push
  by_cases hOver : 17 < npad.entryCount + 1
  · rw [if_pos hOver]
    show 17 = _
    have hNat := hFull.mp hOver
    omega
  · rw [if_neg hOver, hNext]
    have hNat := (not_congr hFull).mp hOver
    omega

/-
  After any number of states the first entry has the newest
  one, and the others are as they were.
-/
theorem pushes_spec
    (hFirst : npad.lastEntryIndex = 0)
    (hCount : npad.entryCount.toNat ≤ 17)
    (ss : List HidInput) :
    (npad.pushes ss).lastEntryIndex = 0 ∧
      (npad.pushes ss).entryCount.toNat =
        min (npad.entryCount.toNat + ss.length) 17 ∧
      (∀ i, i ≠ 0 →
        (npad.pushes ss).entries i = npad.entries i) ∧
      ∀ s, ss.getLast? = some s →
        (npad.pushes ss).entries 0 = .ofInput s := by
  induction ss using List.reverseRecOn with
  | nil =>
      refine ⟨hFirst, ?_, fun i hI => rfl, ?_⟩
      · exact (Nat.min_eq_left hCount).symm
      · intro s hLast
        cases hLast
  | append_singleton ss s ih =>
      rcases ih with ⟨hLast, hNumber, hRest, hNewest⟩
      rcases after_push hLast s with ⟨hLast', hEntries⟩
      have hNumber' :=
        @entryCount_push (npad.pushes ss) (by omega) s
      rw [pushes_concat]
      refine ⟨hLast', ?_, ?_, ?_⟩
      · rw [hNumber', hNumber, List.length_append]
        show _ = min (_ + (ss.length + 1)) 17
        omega
      · intro i hI
        rw [hEntries, Function.update_of_ne hI]
        exact hRest i hI
      · intro t hT
        rw [List.getLast?_concat] at hT
        rw [hEntries, Function.update_self, Option.some.inj hT]

/- An entry shows one state. -/
theorem shows_ofInput_iff (v s : HidInput) :
    (NpadEntry.ofInput v).Shows s ↔ s = v := by
  constructor
  · rintro ⟨hButtons, hLx, hLy, hRx, hRy⟩
    cases v
    cases s
    cases hButtons
    cases hLx
    cases hLy
    cases hRx
    cases hRy
    rfl
  · intro hEq
    rw [hEq]
    exact ⟨rfl, rfl, rfl, rfl, rfl⟩

/- The states before the newest that the ring has room for. -/
def older (ss : List HidInput) : List HidInput :=
  (ss.reverse.take 17).drop 1

theorem mem_older_iff (s : HidInput) :
    s ∈ older ss ↔
      ∃ j, 0 < j ∧ j < 17 ∧ ss.reverse[j]? = some s := by
  unfold older
  rw [List.mem_iff_getElem?]
  constructor
  · rintro ⟨j, hAt⟩
    rw [List.getElem?_drop, List.getElem?_take] at hAt
    split at hAt
    · next hIn => exact ⟨1 + j, by omega, hIn, hAt⟩
    · cases hAt
  · rintro ⟨j, hPos, hIn, hAt⟩
    refine ⟨j - 1, ?_⟩
    have hIndex : 1 + (j - 1) = j := by omega
    rw [List.getElem?_drop, hIndex, List.getElem?_take,
      if_pos hIn]
    exact hAt

/-
  A block that has one state in all entries but the first is a
  ring of what was written if all of it that is not the newest
  is this state.
-/
theorem ringHolds_pushes_iff
    {v : HidInput}
    (hFirst : npad.lastEntryIndex = 0)
    (hCount : npad.entryCount.toNat ≤ 17)
    (hRest : ∀ i, i ≠ 0 → npad.entries i = .ofInput v) :
    (npad.pushes ss).RingHolds ss ↔
      min (npad.entryCount.toNat + ss.length) 17 =
          min (ss.length + 1) 17 ∧
        ∀ s ∈ older ss, s = v := by
  rcases pushes_spec hFirst hCount ss with
    ⟨hLast, hNumber, hOld, hNewest⟩
  have hBack :
      ∀ j, 0 < j → j < 17 →
        (npad.pushes ss).back j = .ofInput v := by
    intro j hPos hIn
    have hSlot : Fin.ofNat 17 (0 % 17 + 17 - j) ≠ 0 := by
      intro hZero
      have hVal := congrArg Fin.val hZero
      change (0 % 17 + 17 - j) % 17 = 0 at hVal
      omega
    unfold back
    rw [hLast]
    exact (hOld _ hSlot).trans (hRest _ hSlot)
  constructor
  · intro hRing
    refine ⟨hNumber.symm.trans hRing.counted, ?_⟩
    intro s hMem
    rcases (mem_older_iff s).mp hMem with ⟨j, hPos, hIn, hAt⟩
    have hShows := hRing.recent j s hIn hAt
    rw [hBack j hPos hIn] at hShows
    exact (shows_ofInput_iff v s).mp hShows
  · rintro ⟨hNumbers, hOlder⟩
    refine ⟨?_, hNumber.trans hNumbers⟩
    intro j s hIn hAt
    rcases Nat.eq_zero_or_pos j with hZero | hPos
    · have hEntry : (npad.pushes ss).back 0 = .ofInput s := by
        rw [hZero, ← List.head?_eq_getElem?,
          List.head?_reverse] at hAt
        unfold back
        rw [hLast]
        exact hNewest s hAt
      rw [hZero, hEntry]
      exact (shows_ofInput_iff s s).mpr rfl
    · rw [hBack j hPos hIn]
      exact
        (shows_ofInput_iff v s).mpr
          (hOlder s ((mem_older_iff s).mpr ⟨j, hPos, hIn, hAt⟩))

end NpadState

------
-- Updates of the Shared Memory
------

namespace HidMemory

open NpadState (older)

variable {front : FrontEnd} {mem : HidMemory} {idx : Fin 9}

/- The front end clears nothing twice. -/
theorem inputWrite_updateSharedMemory (s : HidInput) :
    (mem.updateSharedMemory front s).inputWrite front =
      mem.updateSharedMemory front s := by
  cases front with
  | headless => rfl
  | window =>
      have hDone :
          (mem.updateSharedMemory .window s).headerInit =
            true := by
        show (mem.inputWrite .window).headerInit = true
        unfold inputWrite
        simp only
        split
        · next hInit => exact hInit
        · rfl
      show ite _ _ _ = _
      rw [if_pos hDone]

/- An update writes to the blocks that are updated alike. -/
theorem npads_updateSharedMemory
    (front : FrontEnd)
    (mem : HidMemory)
    (hIdx : idx ∈ updated)
    (s : HidInput) :
    (mem.updateSharedMemory front s).npads idx =
      ((mem.inputWrite front).npads idx).push s := by
  have hCases : idx = 0 ∨ idx = 8 := by
    simpa [updated] using hIdx
  rcases hCases with rfl | rfl
  · rfl
  · rfl

theorem updates_cons
    (mem : HidMemory)
    (s : HidInput)
    (ss : List HidInput) :
    mem.updates front (s :: ss) =
      (mem.updateSharedMemory front s).updates front ss :=
  rfl

/- So does any number of them. -/
theorem npads_updates
    (mem : HidMemory)
    (hIdx : idx ∈ updated)
    (ss : List HidInput)
    (hSome : ss ≠ []) :
    (mem.updates front ss).npads idx =
      ((mem.inputWrite front).npads idx).pushes ss := by
  induction ss generalizing mem with
  | nil => exact absurd rfl hSome
  | cons s ss ih =>
      have hPush := npads_updateSharedMemory front mem hIdx s
      cases ss with
      | nil => exact hPush
      | cons s' ss =>
          have hRest :=
            ih (mem.updateSharedMemory front s)
              (List.cons_ne_nil s' ss)
          rw [inputWrite_updateSharedMemory, hPush] at hRest
          rw [updates_cons, NpadState.pushes_cons]
          exact hRest

/- The first update clears the block. -/
def Restarts
    (front : FrontEnd)
    (mem : HidMemory)
    (idx : Fin 9) : Prop :=
  front = .window ∧ mem.headerInit = false ∧ Cleared idx

instance (front : FrontEnd) (mem : HidMemory) (idx : Fin 9) :
    Decidable (Restarts front mem idx) :=
  inferInstanceAs (Decidable (_ ∧ _))

/-
  What was written before the newest state is what the block
  has in its other entries; when it has been cleared, enough
  has been written to count to seventeen again.
-/
def RingKeeps
    (front : FrontEnd)
    (mem : HidMemory)
    (idx : Fin 9)
    (ss : List HidInput) : Prop :=
  if Restarts front mem idx then
    ss = [] ∨
      17 ≤ ss.length ∧
        ∀ s ∈ older ss,
          s = { lx := 0, ly := 0, rx := 0, ry := 0 }
  else ∀ s ∈ older ss, s = {}

/- The block that the states are written to. -/
theorem npads_inputWrite :
    ((mem.initNpadState idx).inputWrite front).npads idx =
      if Restarts front mem idx then .zero else .initial := by
  have hBlock :
      (mem.initNpadState idx).npads idx = .initial :=
    Function.update_self ..
  cases front with
  | headless =>
      rw [if_neg fun hRestarts => nomatch hRestarts.1]
      exact hBlock
  | window =>
      by_cases hInit : mem.headerInit = true
      · have hOnce : ¬ Restarts .window mem idx := by
          intro hRestarts
          exact
            absurd hInit (Bool.eq_false_iff.mp hRestarts.2.1)
        have hInit' :
            (mem.initNpadState idx).headerInit = true :=
          hInit
        rw [if_neg hOnce]
        unfold inputWrite
        simp only [hInit', if_true]
        exact hBlock
      · have hFirst : mem.headerInit = false :=
          Bool.eq_false_iff.mpr hInit
        have hFirst' :
            (mem.initNpadState idx).headerInit = false :=
          hFirst
        unfold inputWrite Restarts
        simp only [hFirst, hFirst', Bool.false_eq_true,
          if_false, hBlock, true_and]

/- Nothing has been written to the ring, and it holds that. -/
theorem ringHolds_initial : NpadState.initial.RingHolds [] := by
  refine ⟨?_, rfl⟩
  intro j s hIn hAt
  cases hAt

theorem ringKeeps_nil : RingKeeps front mem idx [] := by
  unfold RingKeeps
  split
  · exact .inl rfl
  · intro s hMem
    cases hMem

/-
  Behind an activation, a ring has the most recent states after
  any number of updates just when all but the newest of them
  are what its entries had been filled with.
-/
theorem ringHolds_iff
    (front : FrontEnd)
    (mem : HidMemory)
    (idx : Fin 9)
    (hIdx : idx ∈ updated)
    (ss : List HidInput) :
    (((mem.initNpadState idx).updates front ss).npads
        idx).RingHolds ss ↔
      RingKeeps front mem idx ss := by
  by_cases hNone : ss = []
  · rw [hNone]
    have hBlock :
        ((mem.initNpadState idx).updates front []).npads idx =
          .initial :=
      Function.update_self ..
    rw [hBlock]
    exact iff_of_true ringHolds_initial ringKeeps_nil
  · rw [npads_updates _ hIdx ss hNone, npads_inputWrite]
    unfold RingKeeps
    by_cases hRestarts : Restarts front mem idx
    · have hCount :
          min (NpadState.zero.entryCount.toNat + ss.length) 17 =
              min (ss.length + 1) 17 ↔
            17 ≤ ss.length := by
        show min (0 + ss.length) 17 = _ ↔ _
        omega
      rw [if_pos hRestarts, if_pos hRestarts,
        NpadState.ringHolds_pushes_iff rfl (by decide)
          (fun _ _ => rfl),
        hCount, or_iff_right hNone]
    · have hCount :
          min (NpadState.initial.entryCount.toNat + ss.length)
              17 =
            min (ss.length + 1) 17 := by
        rw [Nat.add_comm]
        rfl
      rw [if_neg hRestarts, if_neg hRestarts,
        NpadState.ringHolds_pushes_iff rfl (by decide)
          (fun _ _ => rfl),
        and_iff_right hCount]

/- Blocks that have not been written to. -/
def freshMemory : HidMemory where
  npads := fun _ => .zero

/- A button pressed after two idle updates is in the ring. -/
theorem thirdState_held :
    (((freshMemory.initNpadState 0).updates .headless
        [{}, {}, { buttons := 1 }]).npads 0).RingHolds
      [{}, {}, { buttons := 1 }] :=
  (ringHolds_iff .headless freshMemory 0 (by decide)
    [{}, {}, { buttons := 1 }]).mpr
    (by decide : ∀ s ∈ older [{}, {}, { buttons := 1 }], s = {})

/- Two buttons pressed one after the other: the ring has lost
the first. -/
theorem secondState_lost :
    ¬ (((freshMemory.initNpadState 0).updates .headless
        [{ buttons := 1 }, { buttons := 2 }]).npads
          0).RingHolds
      [{ buttons := 1 }, { buttons := 2 }] := by
  intro hRing
  have hShows := hRing.recent 1 { buttons := 1 } (by decide) rfl
  cases hShows.1

end HidMemory

end M1Switch
