import Mathlib.Data.List.Pairwise
import M1Switch.Kernel.Kernel
import M1Switch.Library.EventRun
import M1Switch.Memory.Mapping

/-
  The memory of guest threads.

  Every thread gets a block for its thread-local storage, and
  a stack if it comes without one.  Both are taken from a
  window of the address space by a counter that only grows.
  The blocks of thread-local storage are smaller than a page,
  so that requests to map them are refused; what a thread uses
  is the page of the main thread.

  Key definitions include:
    * `KThread`
    * `GuestThreads`

  Main results:
    * `separate_of_admitted`
-/

------
-- Threads
------

namespace M1Switch

structure KThread where
  entryPoint : U64 := 0
  stackTop : U64 := 0
  tlsBase : U64 := 0
  arg : U64 := 0
  priority : BitVec 32 := 0x10
  idealCore : U32 := 0
  threadId : U64 := 0
  kernelStack : Bool := false
deriving DecidableEq

namespace HostMemory

/-
  Clear memory through the pointer to it.  An address without
  a pointer is skipped; memory that is not mapped faults.
-/
def clear
    (mem : HostMemory)
    (address : U64)
    (size : Nat) : Bool × HostMemory :=
  if address < ADDR_SPACE_SIZE then
    (decide
        (∀ i < size,
          (mem.guestByte (address.toNat + i)).isSome = true),
      { mem with
        bytes := fun i =>
          if baseAddr.toNat + address.toNat ≤ i ∧
              i < baseAddr.toNat + address.toNat + size then
            (mem.bytes i).map fun _ => 0
          else mem.bytes i })
  else (true, mem)

/- Map a block, whatever comes of it, and clear it. -/
def mapCleared
    (mem : HostMemory)
    (address size : U64)
    (hostMaps : Bool) : Bool × HostMemory :=
  (mem.mapPhysical address size .RW none hostMaps).2.clear
    address size.toNat

end HostMemory

open HostMemory (baseAddr)

/- The counters, and the threads whose creation returned, the
latest first; the main thread is the last. -/
structure GuestThreads where
  mem : HostMemory
  stackNextSlot : U32 := 1
  tlsNextSlot : U32 := 1
  nextThreadId : U64 := 2
  handles : KHandleTable KThread := {}
  threads : List KThread

/- The arguments of the call, and what the host does. -/
structure CreateThread where
  entry : U64
  arg : U64
  sp : U64
  prio : BitVec 32
  core : BitVec 32
  hostMapsStack : Bool
  hostMapsTls : Bool
deriving DecidableEq

namespace GuestThreads

def TLS_PER_THREAD : U64 := 0x200
def TLS_SLOTS_BASE : U64 := 0xFD000000
def STACK_PER_THREAD : U64 := 0x100000
def STACK_SLOTS_BASE : U64 := 0xFB000000

def stackSlot (slot : U32) : U64 :=
  STACK_SLOTS_BASE + slot.setWidth 64 * STACK_PER_THREAD

def tlsSlot (slot : U32) : U64 :=
  TLS_SLOTS_BASE + slot.setWidth 64 * TLS_PER_THREAD

/- The thread with the stack of a slot. -/
def withStack
    (t : KThread)
    (slot : U32) : KThread :=
  { t with
    stackTop := baseAddr + (stackSlot slot + STACK_PER_THREAD)
    kernelStack := true }

/- The thread with its thread-local storage; without a handle
when clearing the storage faults. -/
def createTls
    (s : GuestThreads)
    (t : KThread)
    (hostMaps : Bool) : Option U32 × GuestThreads :=
  let t := { t with tlsBase := tlsSlot s.tlsNextSlot }
  let cleared :=
    s.mem.mapCleared t.tlsBase TLS_PER_THREAD hostMaps
  let s :=
    { s with
      mem := cleared.2
      tlsNextSlot := s.tlsNextSlot + 1 }
  if cleared.1 then
    let created := s.handles.create t
    (some created.1,
      { s with
        handles := created.2
        threads := t :: s.threads })
  else (none, s)

/- A stack at an address, and the next slot. -/
def createStackAt
    (s : GuestThreads)
    (address : U64)
    (hostMaps : Bool) : Bool × GuestThreads :=
  let cleared :=
    s.mem.mapCleared address STACK_PER_THREAD hostMaps
  (cleared.1,
    { s with
      mem := cleared.2
      stackNextSlot := s.stackNextSlot + 1 })

/- A stack from the window of stacks. -/
def createStack
    (s : GuestThreads)
    (hostMaps : Bool) : Bool × GuestThreads :=
  s.createStackAt (stackSlot s.stackNextSlot) hostMaps

/- The thread the call asks for, with the next number. -/
def newThread
    (s : GuestThreads)
    (call : CreateThread) : KThread × GuestThreads :=
  ({ entryPoint := baseAddr + call.entry
     arg := call.arg
     priority := call.prio
     idealCore := if call.core.msb then 0 else call.core
     threadId := s.nextThreadId },
    { s with nextThreadId := s.nextThreadId + 1 })

/- The call; it returns a handle unless it faults. -/
def createThread
    (s : GuestThreads)
    (call : CreateThread) : Option U32 × GuestThreads :=
  let t := (s.newThread call).1
  let s := (s.newThread call).2
  if call.sp = 0 then
    let t := withStack t s.stackNextSlot
    let stack := s.createStack call.hostMapsStack
    if stack.1 then stack.2.createTls t call.hostMapsTls
    else (none, stack.2)
  else
    let t := { t with stackTop := baseAddr + call.sp }
    s.createTls t call.hostMapsTls

def step (s : GuestThreads) (call : CreateThread) :
    GuestThreads :=
  (s.createThread call).2

end GuestThreads

------
-- Blocks
------

/- A range of guest addresses. -/
structure Block where
  start : Nat
  size : Nat
deriving DecidableEq

namespace Block

def Covers (b : Block) (a : Nat) : Prop :=
  b.start ≤ a ∧ a < b.start + b.size

def Apart (b b' : Block) : Prop :=
  b.start + b.size ≤ b'.start ∨ b'.start + b'.size ≤ b.start

theorem Covers.exists_offset
    {b : Block}
    {a : Nat}
    (hCovers : b.Covers a) :
    ∃ i < b.size, a = b.start + i := by
  rcases hCovers with ⟨hFrom, hUntil⟩
  exact ⟨a - b.start, by omega, by omega⟩

instance : Std.Symm Apart :=
  ⟨fun _ _ hApart => Or.symm hApart⟩

theorem Apart.not_covers
    {b b' : Block}
    (hApart : b.Apart b')
    {a : Nat}
    (hCovers : b'.Covers a) :
    ¬ b.Covers a := by
  unfold Apart at hApart
  unfold Covers at hCovers ⊢
  omega

end Block

namespace KThread

def tlsBlock (t : KThread) : Block :=
  { start := t.tlsBase.toNat, size := 0x200 }

def stackBlock (t : KThread) : Block :=
  { start := (t.stackTop - HostMemory.baseAddr).toNat - 0x100000
    size := 0x100000 }

def blocks (t : KThread) : List Block :=
  if t.kernelStack then [t.tlsBlock, t.stackBlock]
  else [t.tlsBlock]

end KThread

namespace GuestThreads

def blocks (s : GuestThreads) : List Block :=
  s.threads.flatMap KThread.blocks

/-
  The blocks of all threads are apart, end within the address
  space, and are mapped.
-/
structure Separate (s : GuestThreads) : Prop where
  apart : s.blocks.Pairwise Block.Apart
  low : ∀ b ∈ s.blocks, b.start + b.size ≤ 2 ^ 32
  mapped :
    ∀ b ∈ s.blocks, ∀ a, b.Covers a →
      (s.mem.guestByte a).isSome = true

/- Before the first call there is the main thread, whose page
of thread-local storage is mapped. -/
structure Starts (s : GuestThreads) : Prop where
  stackNextSlot : s.stackNextSlot = 1
  tlsNextSlot : s.tlsNextSlot = 1
  main :
    ∃ t : KThread, s.threads = [t] ∧
      t.tlsBase = TLS_SLOTS_BASE ∧ t.kernelStack = false
  mapped :
    ∀ i < 0x1000,
      (s.mem.guestByte (TLS_SLOTS_BASE.toNat + i)).isSome = true

/-
  There is a slot below the blocks of thread-local storage for
  a stack, and one below the end of the address space for the
  thread-local storage.
-/
def Admits (s : GuestThreads) (call : CreateThread) : Prop :=
  (call.sp = 0 → s.stackNextSlot.toNat < 32) ∧
    s.tlsNextSlot.toNat < 0x18000

instance (s : GuestThreads) (call : CreateThread) :
    Decidable (s.Admits call) :=
  inferInstanceAs (Decidable (_ ∧ _))

end GuestThreads

------
-- Clearing Memory
------

namespace HostMemory

variable {mem : HostMemory} {address size : U64}
variable {hostMaps : Bool}

/- Clearing maps nothing and unmaps nothing. -/
theorem clear_isSome
    (n a : Nat) :
    ((mem.clear address n).2.guestByte a).isSome =
      (mem.guestByte a).isSome := by
  unfold clear guestByte
  split
  · simp only
    split
    · exact Option.isSome_map
    · rfl
  · rfl

/- What has been cleared is mapped. -/
theorem clear_finished
    {n : Nat}
    (hLow : address < ADDR_SPACE_SIZE)
    (hFinished : (mem.clear address n).1 = true)
    {i : Nat}
    (hI : i < n) :
    ((mem.clear address n).2.guestByte
      (address.toNat + i)).isSome = true := by
  rw [clear_isSome]
  unfold clear at hFinished
  rw [if_pos hLow, decide_eq_true_iff] at hFinished
  exact hFinished i hI

/- A request that is refused leaves memory mapped as it was. -/
theorem mapCleared_refused
    (hRefused : ¬ Mappable address size)
    (a : Nat) :
    ((mem.mapCleared address size hostMaps).2.guestByte
      a).isSome = (mem.guestByte a).isSome := by
  unfold mapCleared
  rw [clear_isSome, mapPhysical_of_not_mappable hRefused]

/- One that is not, outside its host pages. -/
theorem mapCleared_outside
    (hMappable : Mappable address size)
    (hAddress : address.toNat < 2 ^ 33)
    (hSize : size.toNat < 2 ^ 33)
    {a : Nat}
    (hOutside :
      a < firstPage address.toNat ∨
        firstPage address.toNat +
          pageBytes address.toNat size.toNat ≤ a) :
    ((mem.mapCleared address size hostMaps).2.guestByte
      a).isSome = (mem.guestByte a).isSome := by
  unfold mapCleared
  rw [clear_isSome,
    (mapPhysical_of_mappable hMappable hAddress hSize).2 a,
    if_neg (by omega)]

end HostMemory

------
-- Slots
------

namespace GuestThreads

open HostMemory (Mappable)

variable {slot : U32}

theorem toNat_stackSlot :
    (stackSlot slot).toNat =
      0xFB000000 + 0x100000 * slot.toNat := by
  have hSlot := slot.isLt
  unfold stackSlot
  rw [BitVec.toNat_add, BitVec.toNat_mul, BitVec.toNat_setWidth]
  show (0xFB000000 + slot.toNat % 2 ^ 64 * 0x100000 % 2 ^ 64) %
    2 ^ 64 = _
  omega

theorem toNat_tlsSlot :
    (tlsSlot slot).toNat = 0xFD000000 + 0x200 * slot.toNat := by
  have hSlot := slot.isLt
  unfold tlsSlot
  rw [BitVec.toNat_add, BitVec.toNat_mul, BitVec.toNat_setWidth]
  show (0xFD000000 + slot.toNat % 2 ^ 64 * 0x200 % 2 ^ 64) %
    2 ^ 64 = _
  omega

/- A block of thread-local storage is never mapped alone. -/
theorem not_mappable_tlsSlot :
    ¬ Mappable (tlsSlot slot) TLS_PER_THREAD := by
  rintro ⟨_, hAligned, _⟩
  revert hAligned
  decide

------
-- What Every Call Keeps
------

variable {s : GuestThreads} {t : KThread} {hostMaps : Bool}
variable {b : Block} {mem : HostMemory}

/- The block lies in one of the windows, below its counter. -/
def Placed (nextStack nextTls : U32) (b : Block) : Prop :=
  (0xFB000000 ≤ b.start ∧
      b.start + b.size ≤ 0xFB000000 + 0x100000 * nextStack.toNat) ∨
    (0xFD000000 ≤ b.start ∧
      b.start + b.size ≤ 0xFD000000 + 0x200 * nextTls.toNat)

theorem Placed.mono
    {nextStack nextStack' nextTls nextTls' : U32}
    (hPlaced : Placed nextStack nextTls b)
    (hStacks : nextStack.toNat ≤ nextStack'.toNat)
    (hStorages : nextTls.toNat ≤ nextTls'.toNat) :
    Placed nextStack' nextTls' b := by
  unfold Placed at hPlaced ⊢
  omega

/- The memory of all threads is as it should be, and the
windows are not full. -/
structure Inv (s : GuestThreads) : Prop where
  apart : s.blocks.Pairwise Block.Apart
  placed : ∀ b ∈ s.blocks, Placed s.stackNextSlot s.tlsNextSlot b
  mapped :
    ∀ b ∈ s.blocks, ∀ a, b.Covers a →
      (s.mem.guestByte a).isSome = true
  stackSlots : s.stackNextSlot.toNat ≤ 32
  tlsSlots : s.tlsNextSlot.toNat ≤ 0x18000

/- A stack that has been mapped for a thread to come. -/
structure Reserved (s : GuestThreads) (b : Block) : Prop where
  apart : ∀ b' ∈ s.blocks, b.Apart b'
  placed : Placed s.stackNextSlot s.tlsNextSlot b
  mapped :
    ∀ a, b.Covers a → (s.mem.guestByte a).isSome = true

theorem Inv.separate (hInv : s.Inv) : s.Separate := by
  refine ⟨hInv.apart, ?_, hInv.mapped⟩
  intro b hB
  have hStack := hInv.stackSlots
  have hTls := hInv.tlsSlots
  rcases hInv.placed b hB with ⟨_, hEnd⟩ | ⟨_, hEnd⟩
  · omega
  · omega

theorem inv_start (hStarts : s.Starts) : s.Inv := by
  rcases hStarts.main with ⟨t, hThreads, hTls, hStack⟩
  have hBlocks :
      s.blocks = [{ start := 0xFD000000, size := 0x200 }] := by
    simp only [blocks, hThreads, List.flatMap_cons,
      List.flatMap_nil, List.append_nil, KThread.blocks, hStack,
      Bool.false_eq_true, if_false, KThread.tlsBlock, hTls]
    rfl
  constructor
  · rw [hBlocks]
    exact List.pairwise_singleton ..
  · intro b hB
    rw [hBlocks, List.mem_singleton] at hB
    subst hB
    right
    rw [hStarts.tlsNextSlot]
    decide
  · intro b hB a hCovers
    rw [hBlocks, List.mem_singleton] at hB
    subst hB
    rcases hCovers.exists_offset with ⟨i, hI, rfl⟩
    exact hStarts.mapped i (Nat.lt_trans hI (by decide))
  · rw [hStarts.stackNextSlot]
    decide
  · rw [hStarts.tlsNextSlot]
    decide

theorem toNat_next
    (hSlot : slot.toNat < 0x18000) :
    (slot + 1).toNat = slot.toNat + 1 := by
  rw [BitVec.toNat_add]
  show (slot.toNat + 1) % 2 ^ 32 = _
  omega

/- The blocks of a thread that has been given its storage. -/
theorem mem_blocks_withTls
    (hB : b ∈ ({ t with tlsBase := tlsSlot slot } : KThread).blocks) :
    b = { start := 0xFD000000 + 0x200 * slot.toNat
          size := 0x200 } ∨
      t.kernelStack = true ∧ b = t.stackBlock := by
  unfold KThread.blocks at hB
  split at hB
  · next hStack =>
      rcases List.mem_pair.mp hB with hTls | hStackBlock
      · left
        rw [hTls, KThread.tlsBlock, toNat_tlsSlot]
      · exact .inr ⟨hStack, hStackBlock⟩
  · left
    rw [List.mem_singleton.mp hB, KThread.tlsBlock,
      toNat_tlsSlot]

/- What is placed below the end of the stacks is apart from new
thread-local storage. -/
theorem Placed.apart_tls
    {nextStack nextTls : U32}
    (hPlaced : Placed nextStack nextTls b)
    (hStacks : nextStack.toNat ≤ 32) :
    Block.Apart
      { start := 0xFD000000 + 0x200 * nextTls.toNat
        size := 0x200 } b := by
  unfold Block.Apart
  rcases hPlaced with ⟨hFrom, hUntil⟩ | ⟨hFrom, hUntil⟩
  · right
    simp only
    omega
  · right
    simp only
    omega

/- The blocks of a thread with new storage, and all others. -/
theorem Inv.createTls_apart
    (hInv : s.Inv)
    (hStack : t.kernelStack = true → s.Reserved t.stackBlock) :
    ((KThread.blocks
        { t with tlsBase := tlsSlot s.tlsNextSlot }) ++
      s.blocks).Pairwise Block.Apart := by
  have hTls :
      ∀ b ∈ s.blocks,
        Block.Apart
          { start := 0xFD000000 + 0x200 * s.tlsNextSlot.toNat
            size := 0x200 } b :=
    fun b hB => (hInv.placed b hB).apart_tls hInv.stackSlots
  rw [List.pairwise_append]
  refine ⟨?_, hInv.apart, ?_⟩
  · unfold KThread.blocks
    split
    · next hKernel =>
        rw [List.pairwise_pair]
        have hApart :=
          (hStack hKernel).placed.apart_tls hInv.stackSlots
        rw [KThread.tlsBlock, toNat_tlsSlot]
        exact hApart
    · exact List.pairwise_singleton ..
  · intro b hB b' hB'
    rcases mem_blocks_withTls hB with hNew | ⟨hKernel, hNew⟩
    · rw [hNew]
      exact hTls b' hB'
    · rw [hNew]
      exact (hStack hKernel).apart b' hB'

/- Storage that has been cleared is mapped. -/
theorem mapCleared_tls
    (hRoom : slot.toNat < 0x18000)
    (hCleared :
      (mem.mapCleared (tlsSlot slot) TLS_PER_THREAD
        hostMaps).1 = true)
    {a : Nat}
    (hCovers :
      Block.Covers
        { start := 0xFD000000 + 0x200 * slot.toNat
          size := 0x200 } a) :
    ((mem.mapCleared (tlsSlot slot) TLS_PER_THREAD
      hostMaps).2.guestByte a).isSome = true := by
  have hLow : tlsSlot slot < HostMemory.ADDR_SPACE_SIZE := by
    rw [BitVec.lt_def, toNat_tlsSlot]
    show _ < 0x100000000
    omega
  rcases hCovers.exists_offset with ⟨i, hI, rfl⟩
  have hByte := HostMemory.clear_finished hLow hCleared hI
  rw [toNat_tlsSlot] at hByte
  exact hByte

/- Thread-local storage leaves all blocks apart and mapped. -/
theorem Inv.createTls
    (hInv : s.Inv)
    (hRoom : s.tlsNextSlot.toNat < 0x18000)
    (hStack : t.kernelStack = true → s.Reserved t.stackBlock) :
    (s.createTls t hostMaps).2.Inv := by
  have hNext := toNat_next hRoom
  have hSame :
      ∀ a,
        ((s.mem.mapCleared (tlsSlot s.tlsNextSlot)
            TLS_PER_THREAD hostMaps).2.guestByte a).isSome =
          (s.mem.guestByte a).isSome :=
    HostMemory.mapCleared_refused not_mappable_tlsSlot
  have hLater :
      ∀ b, Placed s.stackNextSlot s.tlsNextSlot b →
        Placed s.stackNextSlot (s.tlsNextSlot + 1) b :=
    fun b hPlaced =>
      hPlaced.mono (Nat.le_refl _) (by omega)
  have hOld :
      ∀ b ∈ s.blocks, ∀ a, b.Covers a →
        ((s.mem.mapCleared (tlsSlot s.tlsNextSlot)
          TLS_PER_THREAD hostMaps).2.guestByte a).isSome =
            true := by
    intro b hB a hCovers
    rw [hSame]
    exact hInv.mapped b hB a hCovers
  unfold GuestThreads.createTls
  simp only
  split
  · next hCleared =>
      constructor
      · exact hInv.createTls_apart hStack
      · intro b hB
        rcases List.mem_append.mp hB with hNew | hBefore
        · rcases mem_blocks_withTls hNew with
            hTls | ⟨hKernel, hBlock⟩
          · rw [hTls]
            right
            simp only
            omega
          · rw [hBlock]
            exact hLater _ (hStack hKernel).placed
        · exact hLater b (hInv.placed b hBefore)
      · intro b hB a hCovers
        rcases List.mem_append.mp hB with hNew | hBefore
        · rcases mem_blocks_withTls hNew with
            hTls | ⟨hKernel, hBlock⟩
          · rw [hTls] at hCovers
            exact
              mapCleared_tls hRoom hCleared hCovers
          · rw [hBlock] at hCovers
            simp only
            rw [hSame]
            exact (hStack hKernel).mapped a hCovers
        · exact hOld b hBefore a hCovers
      · exact hInv.stackSlots
      · simp only
        omega
  · constructor
    · exact hInv.apart
    · exact fun b hB => hLater b (hInv.placed b hB)
    · exact hOld
    · exact hInv.stackSlots
    · simp only
      omega

/- A slot below the thread-local storage can be mapped. -/
theorem mappable_stackSlot
    (hSlot : slot.toNat < 32) :
    Mappable (stackSlot slot) STACK_PER_THREAD := by
  have hPage : HostMemory.PAGE_SIZE = BitVec.ofNat 64 (2 ^ 12) := by
    decide
  refine ⟨?_, by decide, ?_⟩
  · rw [hPage, isAligned_iff (by decide), toNat_stackSlot]
    omega
  · rw [BitVec.le_def, BitVec.toNat_add, toNat_stackSlot]
    show (_ + 0x100000) % 2 ^ 64 ≤ 0x100000000
    omega

/- The block of a stack. -/
def stackBlockAt (slot : U32) : Block :=
  { start := 0xFB000000 + 0x100000 * slot.toNat
    size := 0x100000 }

/- Mapping a stack changes nothing else. -/
theorem mapCleared_stack_outside
    (hSlot : slot.toNat < 32)
    {a : Nat}
    (hOutside : ¬ (stackBlockAt slot).Covers a) :
    ((mem.mapCleared (stackSlot slot) STACK_PER_THREAD
        hostMaps).2.guestByte a).isSome =
      (mem.guestByte a).isSome := by
  have hAddress : (stackSlot slot).toNat < 2 ^ 33 := by
    rw [toNat_stackSlot]
    omega
  refine
    HostMemory.mapCleared_outside (mappable_stackSlot hSlot)
      hAddress (by decide) ?_
  rw [toNat_stackSlot]
  unfold HostMemory.firstPage HostMemory.pageBytes
  unfold Block.Covers stackBlockAt at hOutside
  simp only at hOutside
  show _ ∨ _ / 0x4000 * 0x4000 +
    (0x100000 + _ % 0x4000 + 0x3fff) / 0x4000 * 0x4000 ≤ a
  omega

/- A stack that has been cleared is mapped. -/
theorem mapCleared_stack
    (hSlot : slot.toNat < 32)
    (hCleared :
      (mem.mapCleared (stackSlot slot) STACK_PER_THREAD
        hostMaps).1 = true)
    {a : Nat}
    (hCovers : (stackBlockAt slot).Covers a) :
    ((mem.mapCleared (stackSlot slot) STACK_PER_THREAD
      hostMaps).2.guestByte a).isSome = true := by
  have hLow : stackSlot slot < HostMemory.ADDR_SPACE_SIZE := by
    rw [BitVec.lt_def, toNat_stackSlot]
    show _ < 0x100000000
    omega
  rcases hCovers.exists_offset with ⟨i, hI, rfl⟩
  have hByte := HostMemory.clear_finished hLow hCleared hI
  rw [toNat_stackSlot] at hByte
  exact hByte

/- What is placed is apart from the next stack. -/
theorem Placed.apart_stack
    {nextStack nextTls : U32}
    (hPlaced : Placed nextStack nextTls b)
    (hSlot : nextStack.toNat < 32) :
    (stackBlockAt nextStack).Apart b := by
  unfold Block.Apart stackBlockAt
  simp only
  unfold Placed at hPlaced
  omega

section

variable {address : U64}

theorem createStackAt_fst :
    (s.createStackAt address hostMaps).1 =
      (s.mem.mapCleared address STACK_PER_THREAD hostMaps).1 :=
  rfl

theorem createStackAt_mem :
    (s.createStackAt address hostMaps).2.mem =
      (s.mem.mapCleared address STACK_PER_THREAD hostMaps).2 :=
  rfl

theorem createStackAt_threads :
    (s.createStackAt address hostMaps).2.threads = s.threads :=
  rfl

theorem createStackAt_blocks :
    (s.createStackAt address hostMaps).2.blocks = s.blocks :=
  rfl

theorem createStackAt_stackNextSlot :
    (s.createStackAt address hostMaps).2.stackNextSlot =
      s.stackNextSlot + 1 :=
  rfl

theorem createStackAt_tlsNextSlot :
    (s.createStackAt address hostMaps).2.tlsNextSlot =
      s.tlsNextSlot :=
  rfl

end

theorem createStack_tlsNextSlot :
    (s.createStack hostMaps).2.tlsNextSlot = s.tlsNextSlot :=
  createStackAt_tlsNextSlot

/- A new stack leaves the blocks there are apart and mapped. -/
theorem Inv.createStack
    (hInv : s.Inv)
    (hRoom : s.stackNextSlot.toNat < 32) :
    (s.createStack hostMaps).2.Inv := by
  have hNext := toNat_next (Nat.lt_trans hRoom (by decide))
  unfold GuestThreads.createStack
  constructor
  · rw [createStackAt_blocks]
    exact hInv.apart
  · intro b hB
    rw [createStackAt_blocks] at hB
    rw [createStackAt_stackNextSlot, createStackAt_tlsNextSlot]
    exact
      (hInv.placed b hB).mono (by omega) (Nat.le_refl _)
  · intro b hB a hCovers
    rw [createStackAt_blocks] at hB
    have hApart := (hInv.placed b hB).apart_stack hRoom
    rw [createStackAt_mem,
      mapCleared_stack_outside hRoom
        (hApart.not_covers hCovers)]
    exact hInv.mapped b hB a hCovers
  · rw [createStackAt_stackNextSlot]
    omega
  · rw [createStackAt_tlsNextSlot]
    exact hInv.tlsSlots

/- And it is there for the thread. -/
theorem Inv.reserved
    (hInv : s.Inv)
    (hRoom : s.stackNextSlot.toNat < 32)
    (hCleared : (s.createStack hostMaps).1 = true) :
    (s.createStack hostMaps).2.Reserved
      (stackBlockAt s.stackNextSlot) := by
  have hNext := toNat_next (Nat.lt_trans hRoom (by decide))
  unfold GuestThreads.createStack at hCleared ⊢
  rw [createStackAt_fst] at hCleared
  constructor
  · intro b hB
    rw [createStackAt_blocks] at hB
    exact (hInv.placed b hB).apart_stack hRoom
  · rw [createStackAt_stackNextSlot, createStackAt_tlsNextSlot]
    left
    unfold stackBlockAt
    simp only
    omega
  · intro a hCovers
    rw [createStackAt_mem]
    exact mapCleared_stack hRoom hCleared hCovers

/- Where a thread finds the stack that was made for it. -/
theorem withStack_stackBlock
    (slot : U32) :
    (withStack t slot).stackBlock = stackBlockAt slot := by
  have hSlot := slot.isLt
  unfold KThread.stackBlock stackBlockAt withStack
  rw [BitVec.add_comm, BitVec.add_sub_cancel,
    BitVec.toNat_add, toNat_stackSlot, Block.mk.injEq]
  refine ⟨?_, rfl⟩
  show (_ + 0x100000) % 2 ^ 64 - 0x100000 = _
  omega

theorem stackBlock_withTls
    (tlsBase : U64) :
    ({ t with tlsBase := tlsBase } : KThread).stackBlock =
      t.stackBlock :=
  rfl

/- An admitted call keeps the memory of all threads. -/
theorem Inv.step
    (hInv : s.Inv)
    {call : CreateThread}
    (hAdmits : s.Admits call) :
    (s.step call).Inv := by
  rcases hAdmits with ⟨hStack, hTls⟩
  have hInv' : (s.newThread call).2.Inv :=
    ⟨hInv.apart, hInv.placed, hInv.mapped, hInv.stackSlots,
      hInv.tlsSlots⟩
  unfold GuestThreads.step createThread
  simp only
  split
  · next hKernel =>
      split
      · next hCleared =>
          refine
            (hInv'.createStack (hStack hKernel)).createTls ?_ ?_
          · rw [createStack_tlsNextSlot]
            exact hTls
          intro _
          rw [withStack_stackBlock]
          exact hInv'.reserved (hStack hKernel) hCleared
      · exact hInv'.createStack (hStack hKernel)
  · refine hInv'.createTls hTls ?_
    intro hNo
    simp [newThread] at hNo

/-
  The memory of threads is separate and mapped behind every
  run of calls that find a slot each.
-/
theorem separate_of_admitted
    (s : GuestThreads)
    (hStarts : s.Starts)
    (calls : List CreateThread)
    (hAdmits : EventRun.Guarded GuestThreads.step Admits s calls) :
    (EventRun.stateAfter GuestThreads.step s calls).Separate := by
  have hInv : (EventRun.stateAfter GuestThreads.step s calls).Inv :=
    hAdmits.invariant (I := fun _ s => s.Inv)
      (inv_start hStarts)
      (fun _ _ hInv hCall => hInv.step hCall)
  exact hInv.separate

/- The main thread, in memory that is mapped throughout. -/
def everMapped : GuestThreads :=
  { mem := { bytes := fun _ => some 0 }
    threads := [{ tlsBase := TLS_SLOTS_BASE, threadId := 1 }] }

theorem everMapped_starts : everMapped.Starts := by
  constructor
  · rfl
  · rfl
  · exact ⟨_, rfl, rfl, rfl⟩
  · intro i _
    rfl

/- A thread that comes without a stack. -/
def withoutStack : CreateThread :=
  { entry := 0x40000000
    arg := 0
    sp := 0
    prio := 0x2c
    core := 0
    hostMapsStack := true
    hostMapsTls := true }

theorem separate_one_thread :
    everMapped.Starts ∧
      EventRun.Guarded GuestThreads.step Admits everMapped
        [withoutStack] ∧
      (EventRun.stateAfter GuestThreads.step everMapped
        [withoutStack]).Separate := by
  have hAdmits :
      EventRun.Guarded GuestThreads.step Admits everMapped
        [withoutStack] := by
    rw [EventRun.guarded_cons]
    exact ⟨by decide, EventRun.guarded_nil⟩
  exact
    ⟨everMapped_starts, hAdmits,
      separate_of_admitted _ everMapped_starts _ hAdmits⟩

end GuestThreads

------
-- The Last Slot of the Stacks
------

namespace HostMemory

variable {mem : HostMemory} {address size : U64}

/- There is memory at every guest address. -/
def AllMapped (mem : HostMemory) : Prop :=
  ∀ a, (mem.guestByte a).isSome = true

/- A host that maps what it is asked for keeps it so. -/
theorem AllMapped.mapCleared
    (hAll : mem.AllMapped)
    (hAddress : address.toNat < 2 ^ 33)
    (hSize : size.toNat < 2 ^ 33) :
    (mem.mapCleared address size true).1 = true ∧
      (mem.mapCleared address size true).2.AllMapped := by
  have hMapped :
      (mem.mapPhysical address size .RW none
        true).2.AllMapped := by
    intro a
    by_cases hMappable : Mappable address size
    · rw [(mapPhysical_of_mappable hMappable hAddress hSize).2]
      split
      · rfl
      · exact hAll a
    · rw [mapPhysical_of_not_mappable hMappable]
      exact hAll a
  unfold HostMemory.mapCleared
  refine ⟨?_, ?_⟩
  · unfold clear
    split
    · rw [decide_eq_true_iff]
      exact fun i _ => hMapped _
    · rfl
  · intro a
    rw [clear_isSome]
    exact hMapped a

end HostMemory

namespace GuestThreads

variable {s : GuestThreads} {t : KThread}

/- In such memory every thread gets its storage. -/
theorem createTls_of_allMapped
    (hAll : s.mem.AllMapped)
    (hSlot : s.tlsNextSlot.toNat < 0x1000) :
    (s.createTls t true).2.mem.AllMapped ∧
      (s.createTls t true).2.stackNextSlot = s.stackNextSlot ∧
      (s.createTls t true).2.tlsNextSlot = s.tlsNextSlot + 1 ∧
      (s.createTls t true).2.threads =
        { t with tlsBase := tlsSlot s.tlsNextSlot } ::
          s.threads := by
  have hAddress : (tlsSlot s.tlsNextSlot).toNat < 2 ^ 33 := by
    rw [toNat_tlsSlot]
    omega
  rcases hAll.mapCleared hAddress
      (by decide : TLS_PER_THREAD.toNat < 2 ^ 33) with
    ⟨hCleared, hAfter⟩
  unfold createTls
  simp only
  rw [if_pos hCleared]
  exact ⟨hAfter, rfl, rfl, rfl⟩

/- In such memory every stack is there. -/
theorem createStack_of_allMapped
    (hAll : s.mem.AllMapped)
    (hSlot : s.stackNextSlot.toNat < 0x1000) :
    (s.createStack true).1 = true ∧
      (s.createStack true).2.mem.AllMapped := by
  have hAddress :
      (stackSlot s.stackNextSlot).toNat < 2 ^ 33 := by
    rw [toNat_stackSlot]
    omega
  unfold createStack
  rw [createStackAt_fst, createStackAt_mem]
  exact
    hAll.mapCleared hAddress
      (by decide : STACK_PER_THREAD.toNat < 2 ^ 33)

theorem createStack_threads
    {hostMaps : Bool} :
    (s.createStack hostMaps).2.threads = s.threads :=
  createStackAt_threads

theorem createStack_stackNextSlot
    {hostMaps : Bool} :
    (s.createStack hostMaps).2.stackNextSlot =
      s.stackNextSlot + 1 :=
  createStackAt_stackNextSlot

/- A thread whose stack is there goes on to its storage. -/
theorem step_of_stack
    {call : CreateThread}
    (hSp : call.sp = 0)
    (hCleared :
      ((s.newThread call).2.createStack
        call.hostMapsStack).1 = true) :
    s.step call =
      (((s.newThread call).2.createStack
        call.hostMapsStack).2.createTls
          (withStack (s.newThread call).1
            (s.newThread call).2.stackNextSlot)
          call.hostMapsTls).2 := by
  unfold step createThread
  simp only
  rw [if_pos hSp, if_pos hCleared]

/- A thread that comes without a stack gets one. -/
theorem step_of_allMapped
    (hAll : s.mem.AllMapped)
    (hStack : s.stackNextSlot.toNat < 0x1000)
    (hTls : s.tlsNextSlot.toNat < 0x1000) :
    (s.step withoutStack).mem.AllMapped ∧
      (s.step withoutStack).stackNextSlot =
        s.stackNextSlot + 1 ∧
      (s.step withoutStack).tlsNextSlot = s.tlsNextSlot + 1 ∧
      ∃ t : KThread, t.kernelStack = true ∧
        t.stackBlock = stackBlockAt s.stackNextSlot ∧
        (s.step withoutStack).threads = t :: s.threads := by
  have hAll' : (s.newThread withoutStack).2.mem.AllMapped := hAll
  rcases createStack_of_allMapped hAll' hStack with
    ⟨hCleared, hAfter⟩
  have hTls' :
      ((s.newThread withoutStack).2.createStack
        true).2.tlsNextSlot.toNat < 0x1000 := by
    rw [createStack_tlsNextSlot]
    exact hTls
  have hStep := step_of_stack (s := s) rfl hCleared
  rcases createTls_of_allMapped
      (t := withStack (s.newThread withoutStack).1
        (s.newThread withoutStack).2.stackNextSlot)
      hAfter hTls' with
    ⟨hMem, hStackSlot, hTlsSlot, hThreads⟩
  rw [createStack_stackNextSlot] at hStackSlot
  rw [createStack_tlsNextSlot] at hTlsSlot
  rw [createStack_threads] at hThreads
  rw [hStep]
  refine ⟨hMem, hStackSlot, hTlsSlot, _, ?_, ?_, hThreads⟩
  · rfl
  · rw [stackBlock_withTls]
    exact withStack_stackBlock s.stackNextSlot

/- Behind a number of such calls. -/
theorem after_withoutStack
    {n : Nat}
    (hN : n ≤ 32) :
    let s :=
      EventRun.stateAfter step everMapped
        (List.replicate n withoutStack)
    s.mem.AllMapped ∧
      s.stackNextSlot.toNat = n + 1 ∧
      s.tlsNextSlot.toNat = n + 1 ∧
      ∃ threads, s.threads = threads ++ everMapped.threads := by
  induction n with
  | zero =>
      refine ⟨fun a => rfl, rfl, rfl, [], rfl⟩
  | succ n ih =>
      rcases ih (by omega) with
        ⟨hAll, hStack, hTls, threads, hThreads⟩
      rw [List.replicate_succ', EventRun.stateAfter_concat]
      rcases step_of_allMapped hAll (by omega) (by omega) with
        ⟨hAll', hStack', hTls', t, _, _, hThreads'⟩
      refine ⟨hAll', ?_, ?_, t :: threads, ?_⟩
      · rw [hStack', toNat_next (by omega), hStack]
      · rw [hTls', toNat_next (by omega), hTls]
      · rw [hThreads', hThreads, List.cons_append]

/- The storage of the main thread. -/
theorem mem_blocks_main
    {threads : List KThread}
    (hThreads : s.threads = threads ++ everMapped.threads) :
    { start := 0xFD000000, size := 0x200 } ∈ s.blocks := by
  unfold blocks
  rw [hThreads, List.mem_flatMap]
  refine ⟨{ tlsBase := TLS_SLOTS_BASE, threadId := 1 }, ?_, ?_⟩
  · exact List.mem_append_right _ (List.mem_singleton_self _)
  · decide

/- A stack over that storage is not apart from it. -/
theorem not_apart_last_stack
    {slot : U32}
    (hSlot : slot.toNat = 32) :
    ¬ (stackBlockAt slot).Apart
        { start := 0xFD000000, size := 0x200 } := by
  unfold Block.Apart stackBlockAt
  simp only
  omega

/-
  The stack of the 32nd thread is mapped over the thread-local
  storage of the main thread.
-/
theorem not_separate_32_threads :
    ¬ ∀ s : GuestThreads, s.Starts → ∀ calls,
        (EventRun.stateAfter step s calls).Separate := by
  intro hAll
  have hSeparate :=
    hAll everMapped everMapped_starts
      (List.replicate 32 withoutStack)
  rcases after_withoutStack (by decide : 31 ≤ 32) with
    ⟨hMapped, hStack, hTls, threads, hThreads⟩
  rcases step_of_allMapped hMapped (by omega) (by omega) with
    ⟨_, _, _, t, hKernel, hBlock, hThreads'⟩
  rw [List.replicate_succ', EventRun.stateAfter_concat]
    at hSeparate
  generalize EventRun.stateAfter step everMapped
    (List.replicate 31 withoutStack) = s at *
  have hNew : t.stackBlock ∈ (s.step withoutStack).blocks := by
    unfold blocks
    rw [hThreads', List.mem_flatMap]
    refine ⟨t, List.mem_cons_self, ?_⟩
    unfold KThread.blocks
    rw [if_pos hKernel]
    exact List.mem_cons_of_mem _ (List.mem_singleton_self _)
  have hMain :
      { start := 0xFD000000, size := 0x200 } ∈
        (s.step withoutStack).blocks := by
    rw [hThreads, ← List.cons_append] at hThreads'
    exact mem_blocks_main hThreads'
  rw [hBlock] at hNew
  have hDiffer :
      stackBlockAt s.stackNextSlot ≠
        { start := 0xFD000000, size := 0x200 } := by
    intro hEq
    have hSize := congrArg Block.size hEq
    simp [stackBlockAt] at hSize
  exact
    not_apart_last_stack hStack
      (hSeparate.apart.forall hNew hMain hDiffer)

end GuestThreads

end M1Switch
