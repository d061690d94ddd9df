import M1Switch.Cpu.NativeExec
import M1Switch.Library.EventRun

/-
  Breakpoints in guest code.

  A breakpoint is an instruction that is written over the one
  at its address, which is saved in the breakpoint.  A saved
  instruction of zero counts as one that was not saved, and
  breakpoints that are dropped all at once are not taken out of
  the code.

  Key definitions include:
    * `Breakpoint`
    * `EmuDebugger`

  Main results:
    * `EmuDebugger.Inv.step`
    * `EmuDebugger.reversible_throughout_iff`
-/

------
-- The Debugger
------

namespace M1Switch

/- The registers of a guest thread that has trapped. -/
structure GuestThreadState where
  x : Fin 31 → U64
  sp : U64
  pc : U64
deriving DecidableEq

structure CpuRegisterSnapshot where
  x : Fin 31 → U64 := fun _ => 0
  sp : U64 := 0
  pc : U64 := 0
  pstate : U64 := 0
  tpidrroEl0 : U64 := 0
deriving DecidableEq

structure Breakpoint where
  enabled : Bool := true
  hitCount : U32 := 0
  temporary : Bool := false
  originalInst : U32 := 0
  patched : Bool := false
deriving DecidableEq

/- The debugger, with the guest memory it writes to. -/
structure EmuDebugger where
  hasMemory : Bool
  mem : Bytes
  breakpoints : U64 → Option Breakpoint := fun _ => none
  lastRegs : CpuRegisterSnapshot := {}
  paused : Bool := false
  stepping : Bool := false
  stepAddr : U64 := 0

namespace EmuDebugger

open HostMemory (baseAddr ADDR_SPACE_SIZE)

/- The instruction of a breakpoint carries its page offset. -/
def makeBrkDebug (addr : U64) : U32 :=
  let tag := BRK_TAG_DEBUG ||| (addr.setWidth 32 &&& 0xFFF)
  (0xD4200000 : U32) ||| (tag <<< 5)

/- Where an address of the host is in guest memory. -/
def pointer (d : EmuDebugger) (hostAddr : U64) : Option Nat :=
  if d.hasMemory ∧ hostAddr - baseAddr < ADDR_SPACE_SIZE then
    some (hostAddr - baseAddr).toNat
  else none

def writeInst
    (d : EmuDebugger)
    (ptr : Nat)
    (inst : U32) : EmuDebugger :=
  { d with mem := d.mem.store ptr (Bytes.ofWord inst) }

def update
    (d : EmuDebugger)
    (addr : U64)
    (bp : Option Breakpoint) : EmuDebugger :=
  { d with
    breakpoints := fun a =>
      if a = addr then bp else d.breakpoints a }

/- Save the instruction and put the breakpoint in its place. -/
def patch
    (d : EmuDebugger)
    (addr : U64)
    (bp : Breakpoint)
    (ptr : Nat) : EmuDebugger :=
  (d.writeInst ptr (makeBrkDebug addr)).update addr
    (some
      { bp with
        originalInst := d.mem.word ptr
        patched := true })

/- Put the saved instruction back. -/
def unpatch
    (d : EmuDebugger)
    (addr : U64)
    (bp : Breakpoint)
    (ptr : Nat) : EmuDebugger :=
  (d.writeInst ptr bp.originalInst).update addr
    (some { bp with patched := false })

def applyBreakpoint (d : EmuDebugger) (addr : U64) :
    EmuDebugger :=
  match d.breakpoints addr, d.pointer addr with
  | some bp, some ptr =>
      if bp.enabled ∧ !bp.patched then d.patch addr bp ptr
      else d
  | _, _ => d

def restoreBreakpoint (d : EmuDebugger) (addr : U64) :
    EmuDebugger :=
  match d.breakpoints addr, d.pointer addr with
  | some bp, some ptr =>
      if bp.patched ∧ bp.originalInst ≠ 0 then
        d.unpatch addr bp ptr
      else d
  | _, _ => d

/- The breakpoints are visited in the order of the container. -/
def applyBreakpoints
    (d : EmuDebugger)
    (order : List U64) : EmuDebugger :=
  order.foldl applyBreakpoint d

def restoreBreakpoints
    (d : EmuDebugger)
    (order : List U64) : EmuDebugger :=
  order.foldl restoreBreakpoint d

/- A new breakpoint is written at once, if there is memory. -/
def setBreakpoint (d : EmuDebugger) (hostAddr : U64) :
    EmuDebugger :=
  if hostAddr = 0 then d
  else
    match d.breakpoints hostAddr with
    | some bp => d.update hostAddr (some { bp with enabled := true })
    | none =>
        match d.pointer hostAddr with
        | some ptr => d.patch hostAddr {} ptr
        | none => d.update hostAddr (some {})

def removeBreakpoint (d : EmuDebugger) (hostAddr : U64) :
    EmuDebugger :=
  match d.breakpoints hostAddr with
  | none => d
  | some bp =>
      let d :=
        match d.pointer hostAddr with
        | some ptr =>
            if bp.patched ∧ bp.originalInst ≠ 0 then
              d.writeInst ptr bp.originalInst
            else d
        | none => d
      d.update hostAddr none

def clearAllBreakpoints (d : EmuDebugger) : EmuDebugger :=
  { d with breakpoints := fun _ => none }

def captureRegisters
    (d : EmuDebugger)
    (gs : GuestThreadState) : EmuDebugger :=
  { d with
    lastRegs :=
      { x := gs.x
        sp := gs.sp
        pc := gs.pc
        pstate := 0
        tpidrroEl0 := 0 } }

/- The breakpoint that was hit: it is counted, and taken out of
the code until execution goes on. -/
def hit
    (d : EmuDebugger)
    (hostAddr : U64)
    (bp : Breakpoint) : EmuDebugger :=
  let bp := { bp with hitCount := bp.hitCount + 1 }
  let d :=
    match d.pointer hostAddr with
    | some ptr =>
        if bp.patched ∧ bp.originalInst ≠ 0 then
          d.unpatch hostAddr bp ptr
        else d.update hostAddr (some bp)
    | none => d.update hostAddr (some bp)
  if bp.temporary then d.update hostAddr none else d

/- Whether there is an enabled breakpoint at the address. -/
def findHit
    (d : EmuDebugger)
    (hostAddr : U64) : Bool × EmuDebugger :=
  match d.breakpoints hostAddr with
  | some bp =>
      if bp.enabled then
        (true, { d.hit hostAddr bp with paused := true })
      else (false, d)
  | none => (false, d)

/- Whether the trap was a breakpoint, or the end of a step. -/
def onBreakpoint
    (d : EmuDebugger)
    (hostAddr : U64)
    (gs : GuestThreadState) : Bool × EmuDebugger :=
  let found := (d.captureRegisters gs).findHit hostAddr
  if found.2.stepping ∧ hostAddr = found.2.stepAddr then
    (true, { found.2 with paused := true, stepping := false })
  else found

def continue_ (d : EmuDebugger) (order : List U64) :
    EmuDebugger :=
  { d.applyBreakpoints order with
    paused := false
    stepping := false }

def stepOver (d : EmuDebugger) (order : List U64) :
    EmuDebugger :=
  let d := d.applyBreakpoints order
  { d with
    paused := false
    stepping := true
    stepAddr := d.lastRegs.pc + 4 }

end EmuDebugger

/- What is asked of the debugger. -/
inductive DebuggerOp where
  | SetBreakpoint (hostAddr : U64)
  | RemoveBreakpoint (hostAddr : U64)
  | ClearAllBreakpoints
  | ApplyBreakpoints (order : List U64)
  | RestoreBreakpoints (order : List U64)
  | OnBreakpoint (hostAddr : U64) (gs : GuestThreadState)
  | Continue (order : List U64)
  | StepOver (order : List U64)
deriving DecidableEq

namespace EmuDebugger

open HostMemory (baseAddr)

def step (d : EmuDebugger) : DebuggerOp → EmuDebugger
  | .SetBreakpoint hostAddr => d.setBreakpoint hostAddr
  | .RemoveBreakpoint hostAddr => d.removeBreakpoint hostAddr
  | .ClearAllBreakpoints => d.clearAllBreakpoints
  | .ApplyBreakpoints order => d.applyBreakpoints order
  | .RestoreBreakpoints order => d.restoreBreakpoints order
  | .OnBreakpoint hostAddr gs => (d.onBreakpoint hostAddr gs).2
  | .Continue order => d.continue_ order
  | .StepOver order => d.stepOver order

/- An aligned address of the host inside guest memory. -/
def InGuest (hostAddr : U64) : Prop :=
  baseAddr.toNat ≤ hostAddr.toNat ∧
    hostAddr.toNat < baseAddr.toNat + 2 ^ 32 ∧
    4 ∣ hostAddr.toNat

instance (hostAddr : U64) : Decidable (InGuest hostAddr) :=
  inferInstanceAs (Decidable (_ ∧ _))

/- Where it is in guest memory. -/
def offset (hostAddr : U64) : Nat :=
  hostAddr.toNat - baseAddr.toNat

/- The order has the addresses of all breakpoints. -/
def Enumerates (d : EmuDebugger) (order : List U64) : Prop :=
  ∀ a, a ∈ order ↔ (d.breakpoints a).isSome = true

/- Addresses are aligned and inside guest memory, and loops
visit all breakpoints. -/
def Allowed (d : EmuDebugger) : DebuggerOp → Prop
  | .SetBreakpoint hostAddr => InGuest hostAddr
  | .RemoveBreakpoint hostAddr => InGuest hostAddr
  | .ClearAllBreakpoints => True
  | .ApplyBreakpoints order => d.Enumerates order
  | .RestoreBreakpoints order => d.Enumerates order
  | .OnBreakpoint hostAddr _ => InGuest hostAddr
  | .Continue order => d.Enumerates order
  | .StepOver order => d.Enumerates order

/- The breakpoint of the address is marked as patched. -/
def Patched (d : EmuDebugger) (addr : U64) : Prop :=
  ∃ bp, d.breakpoints addr = some bp ∧ bp.patched = true

/-
  The code is the original one, but for the instructions of the
  breakpoints that are marked as patched.
-/
def Reversible (original : Bytes) (d : EmuDebugger) : Prop :=
  ∀ a, InGuest a →
    (d.Patched a → d.mem.word (offset a) = makeBrkDebug a) ∧
      (¬ d.Patched a →
        d.mem.word (offset a) = original.word (offset a))

/-
  A breakpoint is not removed while it stands for an
  instruction of zero, and breakpoints are not dropped together
  while one stands for another instruction than its own.
-/
def Admits (d : EmuDebugger) : DebuggerOp → Prop
  | .RemoveBreakpoint hostAddr =>
      ∀ bp, d.breakpoints hostAddr = some bp →
        bp.patched = true → bp.originalInst ≠ 0
  | .ClearAllBreakpoints =>
      ∀ a bp, d.breakpoints a = some bp →
        bp.patched = true → bp.originalInst = makeBrkDebug a
  | _ => True

------
-- Writing an Instruction
------

open HostMemory (baseAddr)

variable {original : Bytes} {d d' : EmuDebugger} {a b : U64}
variable {bp bp' : Breakpoint}

/- A breakpoint is not the instruction zero. -/
theorem makeBrkDebug_ne_zero (addr : U64) :
    makeBrkDebug addr ≠ 0 := by
  intro hZero
  have hBit := congrArg (fun w => w.getLsbD 21) hZero
  unfold makeBrkDebug at hBit
  simp only [BitVec.getLsbD_or] at hBit
  rw [show (0xD4200000 : U32).getLsbD 21 = true by decide]
    at hBit
  simp at hBit

theorem pointer_of_inGuest
    (hA : InGuest a) :
    d.pointer a =
      if d.hasMemory then some (offset a) else none := by
  rcases hA with ⟨hFrom, hUntil, _⟩
  have hSub : (a - baseAddr).toNat = offset a := by
    unfold offset
    rw [BitVec.toNat_sub_of_le hFrom]
  have hLow : a - baseAddr < HostMemory.ADDR_SPACE_SIZE := by
    rw [BitVec.lt_def, hSub]
    unfold offset
    show _ < 0x100000000
    omega
  unfold pointer
  rw [hSub]
  simp only [hLow, and_true]

theorem hasMemory_of_pointer
    {ptr : Nat}
    (hPtr : d.pointer a = some ptr) :
    d.hasMemory = true := by
  unfold pointer at hPtr
  split at hPtr
  · next hBoth => exact hBoth.1
  · simp at hPtr

theorem offset_of_pointer
    (hA : InGuest a)
    {ptr : Nat}
    (hPtr : d.pointer a = some ptr) :
    ptr = offset a := by
  have hHas := hasMemory_of_pointer hPtr
  rw [pointer_of_inGuest hA, if_pos hHas] at hPtr
  exact (Option.some.inj hPtr).symm

/- Aligned addresses are apart. -/
theorem offset_apart
    (hA : InGuest a)
    (hB : InGuest b)
    (hNe : b ≠ a) :
    offset b + 4 ≤ offset a ∨ offset a + 4 ≤ offset b := by
  rcases hA with ⟨hFrom, _, hAligned⟩
  rcases hB with ⟨hFrom', _, hAligned'⟩
  have hNat : b.toNat ≠ a.toNat :=
    fun hEq => hNe (BitVec.eq_of_toNat_eq hEq)
  unfold offset
  change 0x300000000 ≤ _ at hFrom hFrom'
  show b.toNat - 0x300000000 + 4 ≤ a.toNat - 0x300000000 ∨
    a.toNat - 0x300000000 + 4 ≤ b.toNat - 0x300000000
  omega

theorem word_store_offset
    {mem : Bytes}
    (hA : InGuest a)
    (hB : InGuest b)
    (inst : U32) :
    (mem.store (offset a) (Bytes.ofWord inst)).word (offset b) =
      if b = a then inst else mem.word (offset b) := by
  split
  · next hSame => rw [hSame, Bytes.word_store_word]
  · next hNe =>
      apply Bytes.word_store_apart
      rw [Bytes.length_ofWord]
      exact offset_apart hA hB hNe

/- Whether an address is patched, behind an update. -/
theorem patched_update
    {bp? : Option Breakpoint} :
    (d.update a bp?).Patched b ↔
      if b = a then ∃ bp, bp? = some bp ∧ bp.patched = true
      else d.Patched b := by
  unfold Patched update
  simp only
  split <;> rfl

------
-- What Operations Keep
------

/- The code is as it should be, breakpoints lie in guest memory,
and what they have saved is the original instruction. -/
structure Inv (original : Bytes) (d : EmuDebugger) : Prop where
  reversible : d.Reversible original
  inGuest :
    ∀ a bp, d.breakpoints a = some bp →
      InGuest a ∧ bp.temporary = false
  saved :
    ∀ a bp, d.breakpoints a = some bp → bp.patched = true →
      d.hasMemory = true ∧
        bp.originalInst = original.word (offset a)

/- The other fields do not matter. -/
theorem Inv.congr
    (hInv : d.Inv original)
    (hMem : d'.mem = d.mem)
    (hBreakpoints : d'.breakpoints = d.breakpoints)
    (hHas : d'.hasMemory = d.hasMemory) :
    d'.Inv original := by
  constructor
  · intro a hA
    unfold Patched
    rw [hMem, hBreakpoints]
    exact hInv.reversible a hA
  · rw [hBreakpoints]
    exact hInv.inGuest
  · rw [hBreakpoints, hHas]
    exact hInv.saved

/- An update of a breakpoint, with what it means for the code. -/
theorem Inv.update
    (hInv : d.Inv original)
    (mem : Bytes)
    {bp? : Option Breakpoint}
    (hA : InGuest a)
    (hTemporary : ∀ bp, bp? = some bp → bp.temporary = false)
    (hSaved :
      ∀ bp, bp? = some bp → bp.patched = true →
        d.hasMemory = true ∧
          bp.originalInst = original.word (offset a))
    (hWord :
      mem.word (offset a) =
        if ∃ bp, bp? = some bp ∧ bp.patched = true then
          makeBrkDebug a
        else original.word (offset a))
    (hOthers :
      ∀ b, InGuest b → b ≠ a →
        mem.word (offset b) = d.mem.word (offset b)) :
    (EmuDebugger.update { d with mem := mem } a bp?).Inv
      original := by
  constructor
  · intro b hB
    rw [patched_update]
    by_cases hSame : b = a
    · subst hSame
      simp only [if_true]
      show (_ → mem.word (offset b) = _) ∧
        (_ → mem.word (offset b) = _)
      rw [hWord]
      exact ⟨fun hYes => if_pos hYes, fun hNo => if_neg hNo⟩
    · rw [if_neg hSame]
      show (_ → mem.word (offset b) = _) ∧
        (_ → mem.word (offset b) = _)
      rw [hOthers b hB hSame]
      exact hInv.reversible b hB
  · intro b bp hBp
    simp only [EmuDebugger.update] at hBp
    split at hBp
    · next hSame =>
        rw [hSame]
        exact ⟨hA, hTemporary bp hBp⟩
    · exact hInv.inGuest b bp hBp
  · intro b bp hBp hPatched
    simp only [EmuDebugger.update] at hBp
    split at hBp
    · next hSame =>
        rw [hSame]
        exact hSaved bp hBp hPatched
    · exact hInv.saved b bp hBp hPatched

/- Patching a breakpoint that is not patched. -/
theorem Inv.patch
    (hInv : d.Inv original)
    (hA : InGuest a)
    (hNot : ¬ d.Patched a)
    (hTemporary : bp.temporary = false)
    {ptr : Nat}
    (hPtr : d.pointer a = some ptr) :
    (d.patch a bp ptr).Inv original := by
  rw [offset_of_pointer hA hPtr]
  apply hInv.update _ hA
  · rintro _ ⟨rfl⟩
    exact hTemporary
  · rintro _ ⟨rfl⟩ _
    exact
      ⟨hasMemory_of_pointer hPtr,
        (hInv.reversible a hA).2 hNot⟩
  · rw [if_pos ⟨_, rfl, rfl⟩, word_store_offset hA hA, if_pos rfl]
  · intro b hB hNe
    rw [word_store_offset hA hB, if_neg hNe]

/- Taking one out that is. -/
theorem Inv.unpatch
    (hInv : d.Inv original)
    (hBp : d.breakpoints a = some bp)
    (hPatched : bp.patched = true)
    (hSame : bp'.originalInst = bp.originalInst)
    (hTemporary : bp'.temporary = bp.temporary)
    {ptr : Nat}
    (hPtr : d.pointer a = some ptr) :
    (d.unpatch a bp' ptr).Inv original := by
  rcases hInv.inGuest a bp hBp with ⟨hA, hNever⟩
  rw [offset_of_pointer hA hPtr]
  have hSaved := (hInv.saved a bp hBp hPatched).2
  apply hInv.update _ hA
  · rintro _ ⟨rfl⟩
    exact hTemporary.trans hNever
  · rintro _ ⟨rfl⟩ hYes
    simp at hYes
  · rw [if_neg (by simp), word_store_offset hA hA, if_pos rfl,
      hSame, hSaved]
  · intro b hB hNe
    rw [word_store_offset hA hB, if_neg hNe]

/- What else changes in a breakpoint does not matter. -/
theorem Inv.touch
    (hInv : d.Inv original)
    (hBp : d.breakpoints a = some bp)
    (hPatched : bp'.patched = bp.patched)
    (hSame : bp'.originalInst = bp.originalInst)
    (hTemporary : bp'.temporary = bp.temporary) :
    (d.update a (some bp')).Inv original := by
  rcases hInv.inGuest a bp hBp with ⟨hA, hNever⟩
  have hIff :
      (∃ bp'', some bp' = some bp'' ∧ bp''.patched = true) ↔
        d.Patched a := by
    unfold Patched
    rw [hBp]
    simp [hPatched]
  apply hInv.update d.mem hA
  · rintro _ ⟨rfl⟩
    exact hTemporary.trans hNever
  · rintro _ ⟨rfl⟩ hYes
    rw [hSame]
    exact hInv.saved a bp hBp (hPatched ▸ hYes)
  · have hWord := hInv.reversible a hA
    split
    · next hYes => exact hWord.1 (hIff.mp hYes)
    · next hNo => exact hWord.2 fun hYes => hNo (hIff.mpr hYes)
  · intro _ _ _
    rfl

/- A breakpoint that comes or goes without being patched. -/
theorem Inv.unpatched
    (hInv : d.Inv original)
    (hA : InGuest a)
    (hNot : ¬ d.Patched a)
    {bp? : Option Breakpoint}
    (hTemporary : ∀ bp, bp? = some bp → bp.temporary = false)
    (hFresh : ∀ bp, bp? = some bp → bp.patched = false) :
    (d.update a bp?).Inv original := by
  apply hInv.update d.mem hA hTemporary
  · intro bp hBp hYes
    rw [hFresh bp hBp] at hYes
    simp at hYes
  · rw [if_neg ?_]
    · exact (hInv.reversible a hA).2 hNot
    · rintro ⟨bp, hBp, hYes⟩
      rw [hFresh bp hBp] at hYes
      simp at hYes
  · intro _ _ _
    rfl

/- An address with a breakpoint that is not marked. -/
theorem not_patched_of
    (hBp : d.breakpoints a = some bp)
    (hNot : bp.patched = false) :
    ¬ d.Patched a := by
  rintro ⟨bp', hBp', hYes⟩
  rw [hBp] at hBp'
  rw [← Option.some.inj hBp', hNot] at hYes
  simp at hYes

theorem not_patched_of_none
    (hNone : d.breakpoints a = none) :
    ¬ d.Patched a := by
  rintro ⟨bp, hBp, _⟩
  rw [hNone] at hBp
  simp at hBp

theorem Inv.applyBreakpoint
    (hInv : d.Inv original)
    (a : U64) :
    (d.applyBreakpoint a).Inv original := by
  unfold EmuDebugger.applyBreakpoint
  split
  · next bp ptr hBp hPtr =>
      split
      · next hApplies =>
          rcases hInv.inGuest a bp hBp with ⟨hA, hTemporary⟩
          have hNot : bp.patched = false := by
            simpa using hApplies.2
          exact
            hInv.patch hA (not_patched_of hBp hNot) hTemporary
              hPtr
      · exact hInv
  · exact hInv

theorem Inv.restoreBreakpoint
    (hInv : d.Inv original)
    (a : U64) :
    (d.restoreBreakpoint a).Inv original := by
  unfold EmuDebugger.restoreBreakpoint
  split
  · next bp ptr hBp hPtr =>
      split
      · next hRestores =>
          exact hInv.unpatch hBp hRestores.1 rfl rfl hPtr
      · exact hInv
  · exact hInv

theorem Inv.applyBreakpoints
    (hInv : d.Inv original)
    (order : List U64) :
    (d.applyBreakpoints order).Inv original := by
  unfold EmuDebugger.applyBreakpoints
  induction order generalizing d with
  | nil => exact hInv
  | cons a order ih => exact ih (hInv.applyBreakpoint a)

theorem Inv.restoreBreakpoints
    (hInv : d.Inv original)
    (order : List U64) :
    (d.restoreBreakpoints order).Inv original := by
  unfold EmuDebugger.restoreBreakpoints
  induction order generalizing d with
  | nil => exact hInv
  | cons a order ih => exact ih (hInv.restoreBreakpoint a)

theorem Inv.setBreakpoint
    (hInv : d.Inv original)
    (hA : InGuest a) :
    (d.setBreakpoint a).Inv original := by
  unfold EmuDebugger.setBreakpoint
  split
  · exact hInv
  · split
    · next bp hBp => exact hInv.touch hBp rfl rfl rfl
    · next hNone =>
        have hNot := not_patched_of_none hNone
        split
        · next ptr hPtr => exact hInv.patch hA hNot rfl hPtr
        · apply hInv.unpatched hA hNot
          · intro bp hBp
            rw [← Option.some.inj hBp]
          · intro bp hBp
            rw [← Option.some.inj hBp]

/- A breakpoint that has been taken out of the code can go. -/
theorem Inv.removed
    (hInv : d.Inv original)
    (hBp : d.breakpoints a = some bp)
    (hPatched : bp.patched = true)
    {ptr : Nat}
    (hPtr : d.pointer a = some ptr) :
    ((d.writeInst ptr bp.originalInst).update a none).Inv
      original := by
  rcases hInv.inGuest a bp hBp with ⟨hA, _⟩
  rw [offset_of_pointer hA hPtr]
  apply hInv.update _ hA
  · simp
  · simp
  · rw [if_neg (by simp), word_store_offset hA hA, if_pos rfl]
    exact (hInv.saved a bp hBp hPatched).2
  · intro b hB hNe
    rw [word_store_offset hA hB, if_neg hNe]

theorem Inv.removeBreakpoint
    (hInv : d.Inv original)
    (hAdmits : d.Admits (.RemoveBreakpoint a)) :
    (d.removeBreakpoint a).Inv original := by
  unfold EmuDebugger.removeBreakpoint
  split
  · exact hInv
  · next bp hBp =>
      rcases hInv.inGuest a bp hBp with ⟨hA, _⟩
      cases hPatched : bp.patched with
      | true =>
          have hNonzero := hAdmits bp hBp hPatched
          have hPtr : d.pointer a = some (offset a) := by
            rw [pointer_of_inGuest hA,
              if_pos (hInv.saved a bp hBp hPatched).1]
          rw [hPtr]
          simp only [true_and, ne_eq, hNonzero,
            not_false_eq_true, if_true]
          exact hInv.removed hBp hPatched hPtr
      | false =>
          have hNot := not_patched_of hBp hPatched
          have hKeeps :
              (match d.pointer a with
                | some ptr =>
                    if false = true ∧ bp.originalInst ≠ 0 then
                      d.writeInst ptr bp.originalInst
                    else d
                | none => d) = d := by
            split
            · simp
            · rfl
          rw [hKeeps]
          apply hInv.unpatched hA hNot
          · simp
          · simp

/- All breakpoints are dropped. -/
theorem Inv.clearAllBreakpoints
    (hInv : d.Inv original)
    (hAdmits : d.Admits .ClearAllBreakpoints) :
    (d.clearAllBreakpoints).Inv original := by
  constructor
  · intro a hA
    constructor
    · rintro ⟨bp, hBp, _⟩
      simp [EmuDebugger.clearAllBreakpoints] at hBp
    · intro _
      show d.mem.word (offset a) = _
      by_cases hPatched : d.Patched a
      · rw [(hInv.reversible a hA).1 hPatched]
        rcases hPatched with ⟨bp, hBp, hYes⟩
        rw [← hAdmits a bp hBp hYes]
        exact (hInv.saved a bp hBp hYes).2
      · exact (hInv.reversible a hA).2 hPatched
  · intro a bp hBp
    simp [EmuDebugger.clearAllBreakpoints] at hBp
  · intro a bp hBp
    simp [EmuDebugger.clearAllBreakpoints] at hBp

/- A breakpoint that was hit. -/
theorem Inv.hit
    (hInv : d.Inv original)
    (hBp : d.breakpoints a = some bp) :
    (d.hit a bp).Inv original := by
  rcases hInv.inGuest a bp hBp with ⟨_, hTemporary⟩
  unfold EmuDebugger.hit
  simp only
  rw [if_neg (by simp [hTemporary])]
  split
  · next ptr hPtr =>
      split
      · next hRestores =>
          refine hInv.unpatch hBp hRestores.1 ?_ ?_ hPtr
          · rfl
          · rfl
      · exact hInv.touch hBp rfl rfl rfl
  · exact hInv.touch hBp rfl rfl rfl

theorem Inv.findHit
    (hInv : d.Inv original)
    (a : U64) :
    (d.findHit a).2.Inv original := by
  unfold EmuDebugger.findHit
  split
  · next bp hBp =>
      split
      · exact (hInv.hit hBp).congr rfl rfl rfl
      · exact hInv
  · exact hInv

theorem Inv.onBreakpoint
    (hInv : d.Inv original)
    (a : U64)
    (gs : GuestThreadState) :
    (d.onBreakpoint a gs).2.Inv original := by
  have hCaptured : (d.captureRegisters gs).Inv original :=
    hInv.congr rfl rfl rfl
  have hFound := hCaptured.findHit a
  unfold EmuDebugger.onBreakpoint
  simp only
  split
  · exact hFound.congr rfl rfl rfl
  · exact hFound

/- Every admitted operation keeps the code as it should be. -/
theorem Inv.step
    (hInv : d.Inv original)
    {op : DebuggerOp}
    (hAllowed : d.Allowed op)
    (hAdmits : d.Admits op) :
    (d.step op).Inv original := by
  cases op with
  | SetBreakpoint a => exact hInv.setBreakpoint hAllowed
  | RemoveBreakpoint a => exact hInv.removeBreakpoint hAdmits
  | ClearAllBreakpoints => exact hInv.clearAllBreakpoints hAdmits
  | ApplyBreakpoints order => exact hInv.applyBreakpoints order
  | RestoreBreakpoints order =>
      exact hInv.restoreBreakpoints order
  | OnBreakpoint a gs => exact hInv.onBreakpoint a gs
  | Continue order =>
      exact (hInv.applyBreakpoints order).congr rfl rfl rfl
  | StepOver order =>
      exact (hInv.applyBreakpoints order).congr rfl rfl rfl

------
-- What Operations Break
------

/- A breakpoint that is gone from the list but not from the
code, in place of another instruction. -/
theorem not_reversible_of_left
    (hInv : d.Inv original)
    (hBp : d.breakpoints a = some bp)
    (hPatched : bp.patched = true)
    (hOther : bp.originalInst ≠ makeBrkDebug a)
    (hGone : ¬ d'.Patched a)
    (hLeft : d'.mem = d.mem) :
    ¬ d'.Reversible original := by
  intro hReversible
  rcases hInv.inGuest a bp hBp with ⟨hA, _⟩
  have hBrk := (hInv.reversible a hA).1 ⟨bp, hBp, hPatched⟩
  have hWord := (hReversible a hA).2 hGone
  rw [hLeft, hBrk, ← (hInv.saved a bp hBp hPatched).2] at hWord
  exact hOther hWord.symm

theorem admits_removeBreakpoint
    (hInv : d.Inv original)
    (hAfter : (d.removeBreakpoint a).Reversible original) :
    d.Admits (.RemoveBreakpoint a) := by
  intro bp hBp hPatched hZero
  apply
    not_reversible_of_left hInv hBp hPatched ?_ ?_ ?_ hAfter
  · rw [hZero]
    exact (makeBrkDebug_ne_zero a).symm
  · rintro ⟨bp', hBp', _⟩
    simp [removeBreakpoint, hBp, update] at hBp'
  · unfold removeBreakpoint
    rw [hBp]
    simp only [hZero, ne_eq, not_true_eq_false, and_false,
      if_false]
    split <;> rfl

theorem admits_clearAllBreakpoints
    (hInv : d.Inv original)
    (hAfter : (d.clearAllBreakpoints).Reversible original) :
    d.Admits .ClearAllBreakpoints := by
  intro a bp hBp hPatched
  by_contra hOther
  apply
    not_reversible_of_left hInv hBp hPatched hOther ?_ ?_ hAfter
  · rintro ⟨bp', hBp', _⟩
    simp [clearAllBreakpoints] at hBp'
  · rfl

theorem admits_of_reversible
    (hInv : d.Inv original)
    {op : DebuggerOp}
    (hAfter : (d.step op).Reversible original) :
    d.Admits op := by
  cases op with
  | RemoveBreakpoint a => exact admits_removeBreakpoint hInv hAfter
  | ClearAllBreakpoints =>
      exact admits_clearAllBreakpoints hInv hAfter
  | _ => trivial

/- A debugger without breakpoints, and the code it finds. -/
structure Starts (original : Bytes) (d : EmuDebugger) : Prop where
  mem : d.mem = original
  breakpoints : ∀ a, d.breakpoints a = none

theorem inv_start
    (hStarts : d.Starts original) :
    d.Inv original := by
  constructor
  · intro a _
    constructor
    · rintro ⟨bp, hBp, _⟩
      rw [hStarts.breakpoints] at hBp
      simp at hBp
    · intro _
      rw [hStarts.mem]
  · intro a bp hBp
    rw [hStarts.breakpoints] at hBp
    simp at hBp
  · intro a bp hBp
    rw [hStarts.breakpoints] at hBp
    simp at hBp

/-
  The code is the original one, apart from the breakpoints that
  are marked, throughout a run exactly when every operation of
  it is admitted.
-/
theorem reversible_throughout_iff
    (original : Bytes)
    (d : EmuDebugger)
    (hStarts : d.Starts original)
    (ops : List DebuggerOp)
    (hAllowed : EventRun.Guarded EmuDebugger.step Allowed d ops) :
    (∀ before, before <+: ops →
        (EventRun.stateAfter EmuDebugger.step d
          before).Reversible original) ↔
      EventRun.Guarded EmuDebugger.step Admits d ops :=
  EventRun.throughout_iff_guarded
    (I := fun d => d.Inv original)
    (fun _ hInv => hInv.reversible)
    (fun _ _ hInv hAllowed hAdmits =>
      hInv.step hAllowed hAdmits)
    (fun _ _ hInv _ hAfter => admits_of_reversible hInv hAfter)
    (inv_start hStarts) hAllowed

/- Code that does nothing, and a debugger for it. -/
def nops : Bytes :=
  fun i => (Bytes.ofWord 0xD503201F).getD (i % 4) 0

def onNops : EmuDebugger :=
  { hasMemory := true, mem := nops }

theorem onNops_starts : onNops.Starts nops :=
  ⟨rfl, fun _ => rfl⟩

theorem onNops_allowed
    (op : DebuggerOp)
    (hAllowed : ∀ d, Allowed d op) :
    EventRun.Guarded EmuDebugger.step Allowed onNops
      [.SetBreakpoint 0x340000000, op] := by
  rw [EventRun.guarded_cons, EventRun.guarded_cons]
  refine ⟨?_, hAllowed _, EventRun.guarded_nil⟩
  show InGuest 0x340000000
  decide

/- A breakpoint that is set and removed. -/
theorem reversible_set_remove :
    onNops.Starts nops ∧
      EventRun.Guarded EmuDebugger.step Allowed onNops
        [.SetBreakpoint 0x340000000,
          .RemoveBreakpoint 0x340000000] ∧
      ((∀ before,
          before <+:
              [.SetBreakpoint 0x340000000,
                .RemoveBreakpoint 0x340000000] →
            (EventRun.stateAfter EmuDebugger.step onNops
              before).Reversible nops) ↔
        EventRun.Guarded EmuDebugger.step Admits onNops
          [.SetBreakpoint 0x340000000,
            .RemoveBreakpoint 0x340000000]) := by
  have hAllowed :=
    onNops_allowed (.RemoveBreakpoint 0x340000000)
      fun _ => (by decide : InGuest 0x340000000)
  exact
    ⟨onNops_starts, hAllowed,
      reversible_throughout_iff _ _ onNops_starts _ hAllowed⟩

/- A breakpoint that is set, and dropped with all others. -/
theorem not_reversible_clear_all :
    ¬ ∀ (original : Bytes) (d : EmuDebugger),
        d.Starts original → ∀ ops,
          EventRun.Guarded EmuDebugger.step Allowed d ops →
            ∀ before, before <+: ops →
              (EventRun.stateAfter EmuDebugger.step d
                before).Reversible original := by
  intro hAll
  have hAllowed :=
    onNops_allowed .ClearAllBreakpoints fun _ => trivial
  have hReversible :=
    hAll nops onNops onNops_starts _ hAllowed _
      (List.prefix_refl _) 0x340000000 (by decide)
  have hWord :=
    hReversible.2 (by
      rintro ⟨bp, hBp, _⟩
      change none = some bp at hBp
      simp at hBp)
  revert hWord
  decide

end EmuDebugger

end M1Switch

