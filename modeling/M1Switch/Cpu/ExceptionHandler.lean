import M1Switch.Cpu.Debugger

/-
  The signal handler that guest code traps into.

  The handler does not read the instruction that trapped.  It
  looks up the address in the cache that patching fills, and
  takes the tag it finds for that of a system call, or of a
  breakpoint of the debugger.  Only patching enters addresses.

  Key definitions include:
    * `dispatch`
    * `trapHandler`

  Main results:
    * `patch_and_trap`
    * `not_delivered`
-/

------
-- System Calls
------

namespace M1Switch

/- The kernel behind the calls, and what it says of the guest. -/
structure GuestProcess (W : Type) where
  world : W
  guestExited : Bool := false
  guestCrashed : Bool := false
  svcCallCount : U64 := 0

/- A handler works on the registers of the guest. -/
abbrev SvcHandler (W : Type) :=
  GuestThreadState → GuestProcess W →
    GuestThreadState × GuestProcess W

/- The handlers that have been registered. -/
abbrev SvcTable (W : Type) := U32 → Option (SvcHandler W)

namespace SvcTable

variable {W : Type}

def MAX_SVC : U32 := 0x100

/- What a call without a handler returns. -/
def unhandled
    (svc : U32)
    (gs : GuestThreadState) : GuestThreadState :=
  { gs with
    x := fun i =>
      if i = 0 then 0xFFFF8000DEAD0000 ||| svc.setWidth 64
      else gs.x i }

def dispatch
    (table : SvcTable W)
    (svc : U32)
    (gs : GuestThreadState)
    (process : GuestProcess W) :
    GuestThreadState × GuestProcess W :=
  let process :=
    { process with svcCallCount := process.svcCallCount + 1 }
  if svc ≥ MAX_SVC then (unhandled svc gs, process)
  else
    match table svc with
    | none => (unhandled svc gs, process)
    | some handler => handler gs process

/-
  What a system call is to the guest: the handler's registers
  and stack pointer, behind the instruction; nothing once the
  guest has exited.
-/
def svcStep
    (table : SvcTable W)
    (svc : U32)
    (gs : GuestThreadState)
    (process : GuestProcess W) :
    Option GuestThreadState × GuestProcess W :=
  let handled := table.dispatch svc gs process
  (if handled.2.guestExited then none
    else some { handled.1 with pc := gs.pc + 4 },
    handled.2)

end SvcTable

------
-- The Trap Handler
------

/- The registers as the host saves them. -/
structure ThreadState where
  x : Fin 29 → U64
  fp : U64
  lr : U64
  sp : U64
  pc : U64

namespace ThreadState

/- The registers as handlers see them. -/
def guest (ss : ThreadState) : GuestThreadState :=
  { x := fun i =>
      if h : i.val < 29 then ss.x ⟨i.val, h⟩
      else if i.val = 29 then ss.fp
      else ss.lr
    sp := ss.sp
    pc := ss.pc }

/- Take the registers back; the program counter stays. -/
def restore
    (ss : ThreadState)
    (gs : GuestThreadState) : ThreadState :=
  { x := fun i => gs.x ⟨i.val, Nat.lt_trans i.isLt (by decide)⟩
    fp := gs.x 29
    lr := gs.x 30
    sp := gs.sp
    pc := ss.pc }

/- What is taken back is what handlers left. -/
theorem guest_restore
    (ss : ThreadState)
    (gs : GuestThreadState) :
    (ss.restore gs).guest = { gs with pc := ss.pc } := by
  have hX : (ss.restore gs).guest.x = gs.x := by
    funext i
    unfold guest restore
    simp only
    split
    · rfl
    · split
      · next hFp => exact congrArg gs.x (Fin.ext hFp.symm)
      · next hNot hFp =>
          have hLr : (30 : Fin 31) = i := by
            apply Fin.ext
            show 30 = i.val
            omega
          exact congrArg gs.x hLr
  have hEq :
      (ss.restore gs).guest =
        { x := (ss.restore gs).guest.x
          sp := gs.sp
          pc := ss.pc } :=
    rfl
  rw [hEq, hX]

/- The guest goes on elsewhere. -/
theorem guest_resume
    (ss : ThreadState)
    (gs : GuestThreadState)
    (pc : U64) :
    ThreadState.guest { ss.restore gs with pc := pc } =
      { gs with pc := pc } := by
  have hGuest := guest_restore { ss with pc := pc } gs
  exact hGuest

end ThreadState

/- The signals the handler is installed for. -/
inductive Signal where
  | SIGTRAP
  | fault (addr : U64)
deriving DecidableEq

/- What the handler works on; the calls of the debugger are
counted. -/
structure Cpu (W : Type) where
  exec : NativeExec := {}
  debugger : EmuDebugger
  process : GuestProcess W
  jitStart : U64 := 0
  jitEnd : U64 := 0
  breakpointCalls : Nat := 0

namespace Cpu

variable {W : Type}

/- A fault in the code that can be written is tried again. -/
def inJitRegion (cpu : Cpu W) (a : U64) : Bool :=
  cpu.jitStart ≤ a ∧ a < cpu.jitEnd

/- A trap with the tag of a breakpoint. -/
def breakpointTrap
    (cpu : Cpu W)
    (ss : ThreadState) : Option ThreadState × Cpu W :=
  let (handled, debugger) :=
    cpu.debugger.onBreakpoint ss.pc ss.guest
  let cpu :=
    { cpu with
      debugger := debugger
      breakpointCalls := cpu.breakpointCalls + 1 }
  if handled then (some (ss.restore ss.guest), cpu)
  else (some { ss with pc := ss.pc + 4 }, cpu)

/- A trap with the tag of a system call. -/
def svcTrap
    (table : SvcTable W)
    (cpu : Cpu W)
    (svc : U32)
    (ss : ThreadState) : Option ThreadState × Cpu W :=
  let handled := table.dispatch svc ss.guest cpu.process
  let cpu := { cpu with process := handled.2 }
  if handled.2.guestExited then (none, cpu)
  else
    (some { ss.restore handled.1 with pc := ss.pc + 4 }, cpu)

/- The registers to go on with, unless the guest is left. -/
def trapHandler
    (table : SvcTable W)
    (cpu : Cpu W)
    (sig : Signal)
    (ss : ThreadState) : Option ThreadState × Cpu W :=
  match sig with
  | .fault addr =>
      if cpu.jitStart ≠ 0 ∧ cpu.jitEnd ≠ 0 ∧
          (cpu.inJitRegion addr ∨ cpu.inJitRegion ss.pc) then
        (some ss, cpu)
      else
        (none,
          { cpu with
            process :=
              { cpu.process with
                guestCrashed := true
                guestExited := true } })
  | .SIGTRAP =>
      match cpu.exec.brkCache ss.pc with
      | some tag =>
          if tag &&& 0xF000 = BRK_TAG_DEBUG then
            cpu.breakpointTrap ss
          else svcTrap table cpu (tag - BRK_TAG_BASE) ss
      | none => (some { ss with pc := ss.pc + 4 }, cpu)

------
-- Patch and Trap
------

variable {table : SvcTable W} {cpu : Cpu W}
variable {ss : ThreadState}

/- The tag of a system call is not that of a breakpoint. -/
theorem call_tag
    {svc : U32}
    (hSvc : svc < NativeExec.MAX_SVC_ID) :
    (BRK_TAG_BASE + svc) &&& 0xF000 ≠ BRK_TAG_DEBUG := by
  intro hEq
  have hSmall : svc.toNat < 0x100 := hSvc
  have hSum : (BRK_TAG_BASE + svc).toNat < 2 ^ 13 := by
    rw [BitVec.toNat_add]
    show (0x1000 + svc.toNat) % 2 ^ 32 < 2 ^ 13
    omega
  -- Bit 13 is set in the tag of a breakpoint only.
  have hBit : (BRK_TAG_BASE + svc).getLsbD 13 = false :=
    Nat.testBit_lt_two_pow hSum
  have hDebug := congrArg (fun w => w.getLsbD 13) hEq
  simp only [BitVec.getLsbD_and, hBit, Bool.false_and] at hDebug
  revert hDebug
  decide

/- The number is what is left of the tag. -/
theorem trapHandler_svc
    {svc : U32}
    (hSvc : svc < NativeExec.MAX_SVC_ID)
    (hTag :
      cpu.exec.brkCache ss.pc = some (BRK_TAG_BASE + svc)) :
    trapHandler table cpu .SIGTRAP ss =
      svcTrap table cpu svc ss := by
  have hNum : BRK_TAG_BASE + svc - BRK_TAG_BASE = svc := by
    rw [BitVec.add_comm, BitVec.add_sub_cancel]
  unfold trapHandler
  simp only [hTag]
  rw [if_neg (call_tag hSvc), hNum]

/- A trap of a system call is that call to the guest. -/
theorem svcTrap_refines
    (svc : U32) :
    (svcTrap table cpu svc ss).1.map ThreadState.guest =
        (table.svcStep svc ss.guest cpu.process).1 ∧
      (svcTrap table cpu svc ss).2 =
        { cpu with
          process :=
            (table.svcStep svc ss.guest cpu.process).2 } := by
  unfold svcTrap SvcTable.svcStep
  simp only
  split
  · exact ⟨rfl, rfl⟩
  · refine ⟨?_, rfl⟩
    rw [Option.map_some]
    exact
      congrArg some
        (ThreadState.guest_resume ss
          (table.dispatch svc ss.guest cpu.process).1
          (ss.pc + 4))

/- Patching, written out for code that is not empty. -/
theorem patchSVCs_aligned
    {mmap : U64 → Bool}
    {exec : NativeExec}
    {mem : Bytes}
    {start : Nat}
    {code size : U64}
    (hCode : code ≠ 0)
    (hSize : size % 4 = 0)
    (hFour : 4 ≤ size.toNat) :
    let fixed := NativeExec.ensureFixedTls mmap exec
    NativeExec.patchSVCs mmap exec mem start code size =
      (.Success,
        NativeExec.patchFirst fixed.1 start code
          { mem := mem, exec := fixed.2 }
          (size.toNat / 4)) := by
  have hNot : ¬ (code = 0 ∨ size < 4 ∨ size % 4 ≠ 0) := by
    rintro (hZero | hShort | hOdd)
    · exact hCode hZero
    · have hLess : size.toNat < 4 := hShort
      omega
    · exact hOdd hSize
  unfold NativeExec.patchSVCs
  rw [if_neg hNot]

/- A kernel with one call, which adds to a register, and code
that makes it. -/
def addTable : SvcTable Unit := fun svc =>
  if svc = 0x26 then
    some fun gs process =>
      ({ gs with
          x := fun i => if i = 0 then gs.x 0 + 1 else gs.x i },
        process)
  else none

def callCode : Bytes :=
  fun i => (Bytes.ofWord 0xD40004C1).getD i 0

def calling : ThreadState :=
  { x := fun _ => 41
    fp := 0
    lr := 0
    sp := 0
    pc := 0x300000000 }

def patched : NativeExec.PatchRun :=
  (NativeExec.patchSVCs (fun _ => true) {} callCode 0 0x300000000
    4).2

def onCall : Cpu Unit :=
  { exec := patched.exec
    debugger := { hasMemory := true, mem := patched.mem }
    process := { world := () } }

end Cpu

------
-- Delivery of Breakpoints
------

/- Code that is patched, in the memory as it is then. -/
structure CodeSegment where
  mem : Bytes
  start : Nat
  code : U64
  size : U64

/- What happens between traps.  Loading a program patches its
code, and leaves some image in memory. -/
inductive CpuOp where
  | SetBreakpoint (hostAddr : U64)
  | RemoveBreakpoint (hostAddr : U64)
  | ProgramLoad (segments : List CodeSegment) (image : Bytes)

namespace Cpu

variable {W : Type}

def patchSegment
    (mmap : U64 → Bool)
    (exec : NativeExec)
    (segment : CodeSegment) : NativeExec :=
  (NativeExec.patchSVCs mmap exec segment.mem segment.start
    segment.code segment.size).2.exec

def step
    (mmap : U64 → Bool)
    (cpu : Cpu W) : CpuOp → Cpu W
  | .SetBreakpoint hostAddr =>
      { cpu with debugger := cpu.debugger.setBreakpoint hostAddr }
  | .RemoveBreakpoint hostAddr =>
      { cpu with
        debugger := cpu.debugger.removeBreakpoint hostAddr }
  | .ProgramLoad segments image =>
      { cpu with
        exec := segments.foldl (patchSegment mmap) cpu.exec
        debugger := { cpu.debugger with mem := image } }

/- There is an enabled breakpoint at the address, and its
instruction is in the code. -/
def Armed (cpu : Cpu W) (a : U64) : Prop :=
  ∃ bp ptr,
    cpu.debugger.breakpoints a = some bp ∧ bp.enabled = true ∧
      cpu.debugger.pointer a = some ptr ∧
        cpu.debugger.mem.word ptr = EmuDebugger.makeBrkDebug a

/- The trap reaches the debugger once, and the instruction is
run again. -/
def Delivered
    (table : SvcTable W)
    (cpu : Cpu W)
    (ss : ThreadState) : Prop :=
  (trapHandler table cpu .SIGTRAP ss).2.breakpointCalls =
      cpu.breakpointCalls + 1 ∧
    (trapHandler table cpu .SIGTRAP ss).1.map ThreadState.pc =
      some ss.pc

variable {table : SvcTable W} {mmap : U64 → Bool}
variable {cpu : Cpu W} {ss : ThreadState}

/- The debugger stops at an enabled breakpoint. -/
theorem onBreakpoint_enabled
    {d : EmuDebugger}
    {a : U64}
    {bp : Breakpoint}
    (hBp : d.breakpoints a = some bp)
    (hEnabled : bp.enabled = true)
    (gs : GuestThreadState) :
    (d.onBreakpoint a gs).1 = true := by
  have hCaptured :
      (d.captureRegisters gs).breakpoints a = some bp :=
    hBp
  have hFound : ((d.captureRegisters gs).findHit a).1 = true := by
    unfold EmuDebugger.findHit
    rw [hCaptured]
    simp only [hEnabled, if_true]
  unfold EmuDebugger.onBreakpoint
  simp only
  split
  · rfl
  · exact hFound

/- A system call does not call the debugger. -/
theorem breakpointCalls_svcTrap
    (svc : U32) :
    (svcTrap table cpu svc ss).2.breakpointCalls =
      cpu.breakpointCalls := by
  rw [(svcTrap_refines svc).2]

/-
  The handler itself is right about breakpoints: what reaches
  the debugger is what the cache has for a breakpoint.
-/
theorem delivered_iff
    (hArmed : cpu.Armed ss.pc) :
    Delivered table cpu ss ↔
      ∃ tag, cpu.exec.brkCache ss.pc = some tag ∧
        tag &&& 0xF000 = BRK_TAG_DEBUG := by
  rcases hArmed with ⟨bp, _, hBp, hEnabled, _⟩
  unfold Delivered trapHandler
  simp only
  cases hCache : cpu.exec.brkCache ss.pc with
  | none => simp
  | some tag =>
      simp only [Option.some.injEq, exists_eq_left']
      by_cases hDebug : tag &&& 0xF000 = BRK_TAG_DEBUG
      · have hHandled :=
          onBreakpoint_enabled hBp hEnabled ss.guest
        rw [if_pos hDebug]
        unfold breakpointTrap
        simp only [hHandled, if_true, Option.map_some, hDebug,
          iff_true]
        exact ⟨trivial, rfl⟩
      · have hCalls :
            (svcTrap table cpu (tag - BRK_TAG_BASE)
              ss).2.breakpointCalls ≠
                cpu.breakpointCalls + 1 := by
          rw [breakpointCalls_svcTrap]
          omega
        rw [if_neg hDebug]
        exact
          iff_of_false (fun hBoth => hCalls hBoth.1) hDebug

/- Patching enters nothing but system calls. -/
theorem callTags_patchSegment
    {exec : NativeExec}
    (hTags : exec.CallTags)
    (segment : CodeSegment) :
    (patchSegment mmap exec segment).CallTags := by
  have hFixed :
      (NativeExec.ensureFixedTls mmap exec).2.CallTags := by
    unfold NativeExec.ensureFixedTls
    split
    · exact hTags
    · split
      · exact hTags
      · exact hTags
  unfold patchSegment NativeExec.patchSVCs
  split
  · exact hTags
  · exact NativeExec.CallTags.patchFirst hFixed _

theorem callTags_step
    (hTags : cpu.exec.CallTags)
    (op : CpuOp) :
    (cpu.step mmap op).exec.CallTags := by
  cases op with
  | SetBreakpoint a => exact hTags
  | RemoveBreakpoint a => exact hTags
  | ProgramLoad segments image =>
      show (segments.foldl (patchSegment mmap) cpu.exec).CallTags
      generalize cpu.exec = exec at hTags
      induction segments generalizing exec with
      | nil => exact hTags
      | cons segment segments ih =>
          exact ih _ (callTags_patchSegment hTags segment)

theorem callTags_stateAfter
    (hTags : cpu.exec.CallTags)
    (ops : List CpuOp) :
    (EventRun.stateAfter (step mmap) cpu ops).exec.CallTags := by
  apply
    EventRun.invariant
      (I := fun _ (cpu : Cpu W) => cpu.exec.CallTags)
  · exact hTags
  · intro _ op hBefore
    exact callTags_step hBefore op

theorem not_delivered_of_callTags
    (hTags : cpu.exec.CallTags)
    (hArmed : cpu.Armed ss.pc) :
    ¬ Delivered table cpu ss := by
  rw [delivered_iff hArmed]
  rintro ⟨tag, hTag, hDebug⟩
  rcases hTags _ _ hTag with ⟨svc, hSvc, rfl⟩
  exact call_tag hSvc hDebug

/-
  In no run from an empty cache does a breakpoint reach the
  debugger, whichever it is and whatever it stands for.
-/
theorem not_delivered
    (table : SvcTable W)
    (mmap : U64 → Bool)
    (cpu : Cpu W)
    (hEmpty : ∀ a, cpu.exec.brkCache a = none)
    (ops : List CpuOp)
    (ss : ThreadState)
    (hArmed :
      (EventRun.stateAfter (step mmap) cpu ops).Armed ss.pc) :
    ¬ Delivered table (EventRun.stateAfter (step mmap) cpu ops)
        ss := by
  have hTags : cpu.exec.CallTags := by
    intro a tag hTag
    rw [hEmpty] at hTag
    simp at hTag
  exact
    not_delivered_of_callTags (callTags_stateAfter hTags ops)
      hArmed

/- A program with the call, and a breakpoint on it. -/
def breakOnCall : List CpuOp :=
  [.ProgramLoad [⟨callCode, 0, 0x300000000, 4⟩] patched.mem,
    .SetBreakpoint 0x300000000]

def idle : Cpu Unit :=
  { debugger := { hasMemory := true, mem := fun _ => 0 }
    process := { world := () } }

def atBreakpoint : Cpu Unit :=
  EventRun.stateAfter (step fun _ => true) idle breakOnCall

theorem atBreakpoint_armed :
    atBreakpoint.Armed calling.pc := by
  refine
    ⟨{ originalInst := 0xD42204C0, patched := true }, 0, ?_⟩
  decide

theorem atBreakpoint_callTags :
    atBreakpoint.exec.CallTags := by
  apply callTags_stateAfter
  intro a tag hTag
  simp [idle] at hTag

/- The breakpoint on the call does not stop the guest. -/
theorem not_delivered_on_call :
    (∀ a, idle.exec.brkCache a = none) ∧
      atBreakpoint.Armed calling.pc ∧
      ¬ Delivered addTable atBreakpoint calling :=
  ⟨fun _ => rfl, atBreakpoint_armed,
    not_delivered addTable (fun _ => true) idle (fun _ => rfl)
      breakOnCall calling atBreakpoint_armed⟩

theorem not_all_delivered :
    ¬ ∀ (cpu : Cpu Unit), (∀ a, cpu.exec.brkCache a = none) →
        ∀ (ops : List CpuOp) (ss : ThreadState),
          (EventRun.stateAfter (step fun _ => true) cpu
              ops).Armed ss.pc →
            Delivered addTable
              (EventRun.stateAfter (step fun _ => true) cpu ops)
              ss := by
  intro hAll
  exact
    not_delivered_of_callTags atBreakpoint_callTags
      atBreakpoint_armed
      (hAll idle (fun _ => rfl) breakOnCall calling
        atBreakpoint_armed)

end Cpu

end M1Switch
