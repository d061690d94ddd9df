import M1Switch.Library.ByteBuffers
import M1Switch.Memory.Mapping

/-
  How guest code is made to trap.

  Before guest code runs, its system calls are replaced by
  breakpoint instructions whose immediate carries the number of
  the call, and the addresses of these are entered in a cache
  the signal handler looks into.  Reads of the thread-local
  storage register become loads of a fixed address.

  Key definitions include:
    * `NativeExec`
    * `patchSVCs`

  Main results:
    * `word_patchFirst`
    * `brkCache_patchFirst`
    * `patchFirst_again`
-/

------
-- Instructions
------

namespace M1Switch

def BRK_TAG_DEBUG : U32 := 0x6000
def BRK_TAG_BASE : U32 := 0x1000

namespace NativeExec

def SVC_MASK : U32 := 0xFFE0001E
def SVC_PATTERN : U32 := 0xD4000000
def BRK_BASE : U32 := 0xD4200000
def MAX_SVC_ID : U32 := 0x100
def MRS_TPIDRRO_MASK : U32 := 0xFFFFFFE0
def MRS_TPIDRRO_PATTERN : U32 := 0xD53BD060

def isSvc (inst : U32) : Bool :=
  inst &&& SVC_MASK = SVC_PATTERN

def svcNum (inst : U32) : U32 :=
  (inst >>> 5) &&& 0xFFFF

def isMrs (inst : U32) : Bool :=
  inst &&& MRS_TPIDRRO_MASK = MRS_TPIDRRO_PATTERN

/- The breakpoint that stands for a system call. -/
def brkInst (svc : U32) : U32 :=
  BRK_BASE ||| (((BRK_TAG_BASE + svc) &&& 0xFFFF) <<< 5)

/- Load the upper half of an address, the lower being zero. -/
def makeFixedTlsLoad (fixedTls : U64) (rd : U32) : U32 :=
  let imm16 := (fixedTls >>> 32).setWidth 32
  (0xD2800000 : U32) ||| ((2 : U32) <<< 21) ||| (imm16 <<< 5) |||
    rd

/- A system call that is replaced. -/
def Trapped (inst : U32) : Prop :=
  isSvc inst = true ∧ svcNum inst < MAX_SVC_ID

instance (inst : U32) : Decidable (Trapped inst) :=
  inferInstanceAs (Decidable (_ ∧ _))

/- What a mask leaves of an instruction says its bits. -/
theorem getLsbD_of_masked
    {inst mask pattern : U32}
    (hMasked : inst &&& mask = pattern)
    {i : Nat}
    (hMask : mask.getLsbD i = true) :
    inst.getLsbD i = pattern.getLsbD i := by
  rw [← hMasked, BitVec.getLsbD_and, hMask, Bool.and_true]

/- An instruction that differs from a pattern in one bit. -/
theorem not_masked
    {inst mask pattern : U32}
    (i : Nat)
    (hMask : mask.getLsbD i = true)
    (hBit : inst.getLsbD i ≠ pattern.getLsbD i) :
    decide (inst &&& mask = pattern) = false := by
  rw [decide_eq_false_iff_not]
  intro hMasked
  exact hBit (getLsbD_of_masked hMasked hMask)

/- System calls are no reads of the register. -/
theorem not_isMrs_of_isSvc
    {inst : U32}
    (hSvc : isSvc inst = true) :
    isMrs inst = false := by
  unfold isSvc at hSvc
  rw [decide_eq_true_iff] at hSvc
  have hBit : inst.getLsbD 24 = false :=
    getLsbD_of_masked hSvc (i := 24) (by decide)
  exact not_masked 24 (by decide) (by rw [hBit]; decide)

theorem getLsbD_brkInst
    (svc : U32)
    {i : Nat}
    (hI : 21 ≤ i) :
    (brkInst svc).getLsbD i = BRK_BASE.getLsbD i := by
  have hHigh :
      ((BRK_TAG_BASE + svc) &&& 0xFFFF).getLsbD (i - 5) =
        false := by
    rw [BitVec.getLsbD_and]
    have hOut : (0xFFFF : U32).getLsbD (i - 5) = false := by
      apply Nat.testBit_lt_two_pow
      exact
        Nat.lt_of_lt_of_le (by decide : 0xFFFF < 2 ^ 16)
          (Nat.pow_le_pow_right (by decide) (by omega))
    rw [hOut, Bool.and_false]
  unfold brkInst
  rw [BitVec.getLsbD_or, BitVec.getLsbD_shiftLeft, hHigh]
  simp

/- A breakpoint is neither of the two. -/
theorem not_isSvc_brkInst (svc : U32) :
    isSvc (brkInst svc) = false :=
  not_masked 21 (by decide)
    (by rw [getLsbD_brkInst svc (by decide)]; decide)

theorem not_isMrs_brkInst (svc : U32) :
    isMrs (brkInst svc) = false :=
  not_masked 24 (by decide)
    (by rw [getLsbD_brkInst svc (by decide)]; decide)

theorem getLsbD_makeFixedTlsLoad
    (fixedTls : U64)
    (rd : U32) :
    (makeFixedTlsLoad fixedTls rd).getLsbD 25 = true := by
  unfold makeFixedTlsLoad
  simp only [BitVec.getLsbD_or]
  have hBit : (0xD2800000 : U32).getLsbD 25 = true := by decide
  rw [hBit]
  simp

/- Neither is a load. -/
theorem not_isSvc_makeFixedTlsLoad
    (fixedTls : U64)
    (rd : U32) :
    isSvc (makeFixedTlsLoad fixedTls rd) = false :=
  not_masked 25 (by decide)
    (by rw [getLsbD_makeFixedTlsLoad]; decide)

theorem not_isMrs_makeFixedTlsLoad
    (fixedTls : U64)
    (rd : U32) :
    isMrs (makeFixedTlsLoad fixedTls rd) = false :=
  not_masked 25 (by decide)
    (by rw [getLsbD_makeFixedTlsLoad]; decide)

end NativeExec

------
-- Patching
------

/- The fixed address of thread-local storage, once there is
one, and the tags of the breakpoints by their addresses. -/
structure NativeExec where
  fixedTlsAddr : U64 := 0
  brkCache : U64 → Option U32 := fun _ => none

namespace NativeExec

/- Memory while it is patched, and the pairs of tags and
numbers found so far. -/
structure PatchRun where
  mem : Bytes
  exec : NativeExec
  outMap : List (U32 × U32) := []

def brkCacheAdd
    (exec : NativeExec)
    (hostAddr : U64)
    (svc : U32) : NativeExec :=
  { exec with
    brkCache := fun a =>
      if a = hostAddr then some (BRK_TAG_BASE + svc)
      else exec.brkCache a }

/- The addresses that a single load can give. -/
def fixedTlsAddrs : List U64 :=
  (List.range 15).map fun k =>
    0x100000000 * BitVec.ofNat 64 (k + 1)

/- Take the first address the host maps, unless there is one. -/
def ensureFixedTls
    (mmap : U64 → Bool)
    (exec : NativeExec) : Bool × NativeExec :=
  if exec.fixedTlsAddr ≠ 0 then (true, exec)
  else
    match fixedTlsAddrs.find? mmap with
    | some addr => (true, { exec with fixedTlsAddr := addr })
    | none => (false, exec)

section

variable (hasFixedTls : Bool) (start : Nat) (code : U64)

/- Patch the instruction at an offset. -/
def patchInst (p : PatchRun) (offset : Nat) : PatchRun :=
  let inst := p.mem.word (start + offset)
  if isSvc inst ∧ svcNum inst ≥ MAX_SVC_ID then p
  else
    let p :=
      if isSvc inst then
        { mem :=
            p.mem.store (start + offset)
              (Bytes.ofWord (brkInst (svcNum inst)))
          exec :=
            p.exec.brkCacheAdd
              (code + BitVec.ofNat 64 offset) (svcNum inst)
          outMap :=
            p.outMap ++
              [(BRK_TAG_BASE + svcNum inst, svcNum inst)] }
      else p
    if hasFixedTls ∧ isMrs inst then
      { p with
        mem :=
          p.mem.store (start + offset)
            (Bytes.ofWord
              (makeFixedTlsLoad p.exec.fixedTlsAddr
                (inst &&& 0x1F))) }
    else p

/- Patch a number of instructions, in order. -/
def patchFirst (p : PatchRun) : Nat → PatchRun
  | 0 => p
  | n + 1 =>
      patchInst hasFixedTls start code (patchFirst p n) (4 * n)

end

/-
  Patch the code of a size that lies at `start` of the memory
  and at `code` for the host.
-/
def patchSVCs
    (mmap : U64 → Bool)
    (exec : NativeExec)
    (mem : Bytes)
    (start : Nat)
    (code size : U64) : Result × PatchRun :=
  if code = 0 ∨ size < 4 ∨ size % 4 ≠ 0 then
    (.InvalidArgument, { mem := mem, exec := exec })
  else
    let fixed := ensureFixedTls mmap exec
    (.Success,
      patchFirst fixed.1 start code
        { mem := mem, exec := fixed.2 }
        (size.toNat / 4))

------
-- What Is Patched
------

open NativeExec (isSvc)

variable {hasFixedTls : Bool} {start : Nat} {code : U64}
variable {p : PatchRun}

/- What becomes of an instruction. -/
def patchedWord
    (hasFixedTls : Bool)
    (fixedTls : U64)
    (inst : U32) : U32 :=
  if Trapped inst then brkInst (svcNum inst)
  else if hasFixedTls ∧ isMrs inst then
    makeFixedTlsLoad fixedTls (inst &&& 0x1F)
  else inst

/- An instruction that stays as it is. -/
def Settled (hasFixedTls : Bool) (inst : U32) : Prop :=
  ¬ Trapped inst ∧ ¬ (hasFixedTls = true ∧ isMrs inst = true)

/- One patch, by the kind of the instruction. -/
theorem patchInst_trapped
    {offset : Nat}
    (hTrapped : Trapped (p.mem.word (start + offset))) :
    patchInst hasFixedTls start code p offset =
      { mem :=
          p.mem.store (start + offset)
            (Bytes.ofWord
              (brkInst (svcNum (p.mem.word (start + offset)))))
        exec :=
          p.exec.brkCacheAdd (code + BitVec.ofNat 64 offset)
            (svcNum (p.mem.word (start + offset)))
        outMap :=
          p.outMap ++
            [(BRK_TAG_BASE +
                svcNum (p.mem.word (start + offset)),
              svcNum (p.mem.word (start + offset)))] } := by
  rcases hTrapped with ⟨hSvc, hNum⟩
  have hNot : ¬ svcNum (p.mem.word (start + offset)) ≥
      MAX_SVC_ID :=
    BitVec.not_le.mpr hNum
  unfold patchInst
  simp only [hSvc, hNot, not_isMrs_of_isSvc hSvc, and_false,
    if_false, if_true, Bool.false_eq_true]

theorem patchInst_mrs
    {offset : Nat}
    (hTls : hasFixedTls = true)
    (hMrs : isMrs (p.mem.word (start + offset)) = true) :
    patchInst hasFixedTls start code p offset =
      { p with
        mem :=
          p.mem.store (start + offset)
            (Bytes.ofWord
              (makeFixedTlsLoad p.exec.fixedTlsAddr
                (p.mem.word (start + offset) &&& 0x1F))) } := by
  have hSvc : isSvc (p.mem.word (start + offset)) = false := by
    cases hCase : isSvc (p.mem.word (start + offset)) with
    | false => rfl
    | true =>
        rw [not_isMrs_of_isSvc hCase] at hMrs
        simp at hMrs
  unfold patchInst
  simp only [hSvc, hTls, hMrs, Bool.false_eq_true, false_and,
    if_false, and_self, if_true]

theorem patchInst_settled
    {offset : Nat}
    (hSettled :
      Settled hasFixedTls (p.mem.word (start + offset))) :
    patchInst hasFixedTls start code p offset = p := by
  rcases hSettled with ⟨hNot, hMrs⟩
  unfold patchInst
  simp only
  split
  · rfl
  · next hCall =>
      have hSvc :
          ¬ isSvc (p.mem.word (start + offset)) = true := by
        intro hSvc
        apply hNot
        refine ⟨hSvc, ?_⟩
        exact BitVec.not_le.mp fun hLarge =>
          hCall ⟨hSvc, hLarge⟩
      exact if_neg hSvc

/- The three kinds of instructions. -/
theorem inst_cases
    (hasFixedTls : Bool)
    (inst : U32) :
    Trapped inst ∨
      (hasFixedTls = true ∧ isMrs inst = true ∧
        ¬ Trapped inst) ∨
      Settled hasFixedTls inst := by
  by_cases hTrapped : Trapped inst
  · exact .inl hTrapped
  · by_cases hMrs : hasFixedTls = true ∧ isMrs inst = true
    · exact .inr (.inl ⟨hMrs.1, hMrs.2, hTrapped⟩)
    · exact .inr (.inr ⟨hTrapped, hMrs⟩)

/- A patch writes one word, and the word is the patched one. -/
theorem word_patchInst
    (offset from_ : Nat)
    (hFrom :
      from_ = start + offset ∨ from_ + 4 ≤ start + offset ∨
        start + offset + 4 ≤ from_) :
    (patchInst hasFixedTls start code p offset).mem.word from_ =
      if from_ = start + offset then
        patchedWord hasFixedTls p.exec.fixedTlsAddr
          (p.mem.word from_)
      else p.mem.word from_ := by
  have hApart :
      from_ ≠ start + offset →
        ∀ w,
          (p.mem.store (start + offset)
            (Bytes.ofWord w)).word from_ =
              p.mem.word from_ := by
    intro hNe w
    apply Bytes.word_store_apart
    rw [Bytes.length_ofWord]
    omega
  unfold patchedWord
  rcases inst_cases hasFixedTls (p.mem.word (start + offset))
    with hTrapped | ⟨hTls, hMrs, hNot⟩ | hSettled
  · rw [patchInst_trapped hTrapped]
    simp only
    split
    · next hSame =>
        rw [hSame, if_pos hTrapped, Bytes.word_store_word]
    · next hNe => exact hApart hNe _
  · rw [patchInst_mrs hTls hMrs]
    simp only
    split
    · next hSame =>
        rw [hSame, if_neg hNot, if_pos ⟨hTls, hMrs⟩,
          Bytes.word_store_word]
    · next hNe => exact hApart hNe _
  · rw [patchInst_settled hSettled]
    split
    · next hSame =>
        rw [hSame, if_neg hSettled.1, if_neg hSettled.2]
    · rfl

@[simp] theorem fixedTlsAddr_patchInst
    (offset : Nat) :
    (patchInst hasFixedTls start code p
      offset).exec.fixedTlsAddr = p.exec.fixedTlsAddr := by
  unfold patchInst brkCacheAdd
  simp only
  repeat' split
  all_goals rfl

@[simp] theorem fixedTlsAddr_patchFirst
    (n : Nat) :
    (patchFirst hasFixedTls start code p n).exec.fixedTlsAddr =
      p.exec.fixedTlsAddr := by
  induction n with
  | zero => rfl
  | succ n ih =>
      rw [patchFirst, fixedTlsAddr_patchInst, ih]

/-
  The words that have been reached are patched; the others, and
  those outside the code, are as they were.
-/
theorem word_patchFirst
    (n k : Nat) :
    (patchFirst hasFixedTls start code p n).mem.word
        (start + 4 * k) =
      if k < n then
        patchedWord hasFixedTls p.exec.fixedTlsAddr
          (p.mem.word (start + 4 * k))
      else p.mem.word (start + 4 * k) := by
  induction n with
  | zero => simp [patchFirst]
  | succ n ih =>
      rw [patchFirst, word_patchInst _ _ (by omega),
        fixedTlsAddr_patchFirst, ih]
      by_cases hLast : k = n
      · subst hLast
        simp
      · have hNe : start + 4 * k ≠ start + 4 * n := by omega
        rw [if_neg hNe]
        by_cases hBelow : k < n
        · rw [if_pos hBelow, if_pos (by omega)]
        · rw [if_neg hBelow, if_neg (by omega)]

/- Bytes outside the code are left alone. -/
theorem mem_patchFirst_outside
    (n : Nat)
    {i : Nat}
    (hOutside : i < start ∨ start + 4 * n ≤ i) :
    (patchFirst hasFixedTls start code p n).mem i = p.mem i := by
  induction n with
  | zero => rfl
  | succ n ih =>
      rw [patchFirst, ← ih (by omega)]
      generalize patchFirst hasFixedTls start code p n = p'
      have hApart :
          ∀ w,
            (p'.mem.store (start + 4 * n) (Bytes.ofWord w)) i =
              p'.mem i := by
        intro w
        apply Bytes.store_apart
        rw [Bytes.length_ofWord]
        omega
      rcases inst_cases hasFixedTls
          (p'.mem.word (start + 4 * n)) with
        hTrapped | ⟨hTls, hMrs, _⟩ | hSettled
      · rw [patchInst_trapped hTrapped]
        exact hApart _
      · rw [patchInst_mrs hTls hMrs]
        exact hApart _
      · rw [patchInst_settled hSettled]

/- A patch enters at most the tag of its own address. -/
theorem brkCache_patchInst
    (offset : Nat)
    (a : U64) :
    (patchInst hasFixedTls start code p offset).exec.brkCache a =
      if a = code + BitVec.ofNat 64 offset ∧
          Trapped (p.mem.word (start + offset)) then
        some
          (BRK_TAG_BASE + svcNum (p.mem.word (start + offset)))
      else p.exec.brkCache a := by
  rcases inst_cases hasFixedTls (p.mem.word (start + offset))
    with hTrapped | ⟨hTls, hMrs, hNot⟩ | hSettled
  · rw [patchInst_trapped hTrapped]
    simp only [brkCacheAdd, hTrapped, and_true]
  · rw [patchInst_mrs hTls hMrs, if_neg fun hBoth => hNot hBoth.2]
  · rw [patchInst_settled hSettled,
      if_neg fun hBoth => hSettled.1 hBoth.2]

theorem codeAddr_ne
    {i j : Nat}
    (hI : i < 2 ^ 64)
    (hJ : j < 2 ^ 64)
    (hNe : i ≠ j) :
    code + BitVec.ofNat 64 i ≠ code + BitVec.ofNat 64 j := by
  intro hEq
  have hOffset :
      BitVec.ofNat 64 i = BitVec.ofNat 64 j :=
    (BitVec.add_right_inj code).mp hEq
  have hNat := congrArg BitVec.toNat hOffset
  rw [BitVec.toNat_ofNat, BitVec.toNat_ofNat,
    Nat.mod_eq_of_lt hI, Nat.mod_eq_of_lt hJ] at hNat
  exact hNe hNat

/- The tag of every call that has been replaced is there. -/
theorem brkCache_patchFirst
    {n k : Nat}
    (hK : k < n)
    (hEnd : 4 * n ≤ 2 ^ 64)
    (hTrapped : Trapped (p.mem.word (start + 4 * k))) :
    (patchFirst hasFixedTls start code p n).exec.brkCache
        (code + BitVec.ofNat 64 (4 * k)) =
      some
        (BRK_TAG_BASE +
          svcNum (p.mem.word (start + 4 * k))) := by
  induction n with
  | zero => omega
  | succ n ih =>
      rw [patchFirst, brkCache_patchInst]
      by_cases hLast : k = n
      · subst hLast
        have hWord :
            (patchFirst hasFixedTls start code p k).mem.word
                (start + 4 * k) =
              p.mem.word (start + 4 * k) := by
          rw [word_patchFirst, if_neg (Nat.lt_irrefl k)]
        rw [hWord, if_pos ⟨rfl, hTrapped⟩]
      · have hNe :
            code + BitVec.ofNat 64 (4 * k) ≠
              code + BitVec.ofNat 64 (4 * n) :=
          codeAddr_ne (by omega) (by omega) (by omega)
        rw [if_neg fun hBoth => hNe hBoth.1]
        exact ih (by omega) (by omega)

/- The tags of the cache are those of system calls. -/
def CallTags (exec : NativeExec) : Prop :=
  ∀ a tag, exec.brkCache a = some tag →
    ∃ svc, svc < MAX_SVC_ID ∧ tag = BRK_TAG_BASE + svc

theorem CallTags.patchInst
    (hTags : p.exec.CallTags)
    (offset : Nat) :
    (patchInst hasFixedTls start code p
      offset).exec.CallTags := by
  intro a tag hTag
  rw [brkCache_patchInst] at hTag
  split at hTag
  · next hNew =>
      rw [Option.some.injEq] at hTag
      exact ⟨_, hNew.2.2, hTag.symm⟩
  · exact hTags a tag hTag

theorem CallTags.patchFirst
    (hTags : p.exec.CallTags)
    (n : Nat) :
    (patchFirst hasFixedTls start code p n).exec.CallTags := by
  induction n with
  | zero => exact hTags
  | succ n ih => exact ih.patchInst (4 * n)

/- What has been patched stays as it is. -/
theorem settled_patchedWord
    (fixedTls : U64)
    (inst : U32) :
    Settled hasFixedTls
      (patchedWord hasFixedTls fixedTls inst) := by
  have hBrk :
      ∀ svc, Settled hasFixedTls (brkInst svc) := by
    intro svc
    constructor
    · rintro ⟨hSvc, _⟩
      rw [not_isSvc_brkInst] at hSvc
      simp at hSvc
    · rintro ⟨_, hMrs⟩
      rw [not_isMrs_brkInst] at hMrs
      simp at hMrs
  have hLoad :
      ∀ rd, Settled hasFixedTls
        (makeFixedTlsLoad fixedTls rd) := by
    intro rd
    constructor
    · rintro ⟨hSvc, _⟩
      rw [not_isSvc_makeFixedTlsLoad] at hSvc
      simp at hSvc
    · rintro ⟨_, hMrs⟩
      rw [not_isMrs_makeFixedTlsLoad] at hMrs
      simp at hMrs
  unfold patchedWord
  split
  · exact hBrk _
  · next hNot =>
      split
      · exact hLoad _
      · next hMrs => exact ⟨hNot, hMrs⟩

/- Settled code is not patched. -/
theorem patchFirst_settled
    {n : Nat}
    (hSettled :
      ∀ k < n,
        Settled hasFixedTls (p.mem.word (start + 4 * k))) :
    patchFirst hasFixedTls start code p n = p := by
  induction n with
  | zero => rfl
  | succ n ih =>
      rw [patchFirst, ih fun k hK => hSettled k (by omega)]
      exact patchInst_settled (hSettled n (Nat.lt_succ_self n))

/- Code that has been patched is settled. -/
theorem settled_patchFirst
    {n k : Nat}
    (hK : k < n) :
    Settled hasFixedTls
      ((patchFirst hasFixedTls start code p n).mem.word
        (start + 4 * k)) := by
  rw [word_patchFirst, if_pos hK]
  exact settled_patchedWord _ _

------
-- Patching Again
------

variable {mmap : U64 → Bool} {exec : NativeExec}

theorem ne_zero_of_mem_fixedTlsAddrs :
    ∀ a ∈ fixedTlsAddrs, a ≠ 0 := by
  intro a hA hZero
  rcases List.mem_map.mp hA with ⟨k, hK, hAddr⟩
  have hSmall := List.mem_range.mp hK
  have hNat := congrArg BitVec.toNat (hAddr.trans hZero)
  rw [BitVec.toNat_mul, BitVec.toNat_ofNat] at hNat
  change 0x100000000 * ((k + 1) % 2 ^ 64) % 2 ^ 64 = 0 at hNat
  omega

theorem ensureFixedTls_there
    (hThere : exec.fixedTlsAddr ≠ 0) :
    ensureFixedTls mmap exec = (true, exec) := by
  unfold ensureFixedTls
  rw [if_pos hThere]

/- An address for thread-local storage is found once. -/
theorem ensureFixedTls_again :
    ensureFixedTls mmap (ensureFixedTls mmap exec).2 =
      ensureFixedTls mmap exec := by
  by_cases hThere : exec.fixedTlsAddr ≠ 0
  · rw [ensureFixedTls_there hThere]
    exact ensureFixedTls_there hThere
  · cases hFind : fixedTlsAddrs.find? mmap with
    | some addr =>
        have hFirst :
            ensureFixedTls mmap exec =
              (true, { exec with fixedTlsAddr := addr }) := by
          unfold ensureFixedTls
          rw [if_neg hThere, hFind]
        rw [hFirst]
        exact
          ensureFixedTls_there
            (ne_zero_of_mem_fixedTlsAddrs addr
              (List.mem_of_find?_eq_some hFind))
    | none =>
        have hFirst :
            ensureFixedTls mmap exec = (false, exec) := by
          unfold ensureFixedTls
          rw [if_neg hThere, hFind]
        rw [hFirst]
        exact hFirst

/- Patching leaves the bytes outside the code alone. -/
theorem mem_patchSVCs_outside
    {mem : Bytes}
    {start : Nat}
    {code size : U64}
    {i : Nat}
    (hOutside : i < start ∨ start + 4 * (size.toNat / 4) ≤ i) :
    (patchSVCs mmap exec mem start code size).2.mem i =
      mem i := by
  unfold patchSVCs
  split
  · rfl
  · exact mem_patchFirst_outside _ hOutside

/- Two system calls, the second with a number too large. -/
def twoCalls : Bytes :=
  Bytes.store
    (Bytes.store (fun _ => 0x7F) 4 (Bytes.ofWord 0xD4000021))
    8 (Bytes.ofWord 0xD4003001)

/- The first call is replaced, and its neighbours are kept. -/
theorem twoCalls_patched :
    let run :=
      (patchSVCs (fun _ => true) {} twoCalls 4 0x8000 8).2
    run.mem.word 4 = brkInst 1 ∧
      run.mem.word 8 = twoCalls.word 8 ∧
        run.mem 3 = 0x7F ∧ run.mem 12 = 0x7F :=
  ⟨by decide, by decide,
    mem_patchSVCs_outside (Or.inl (by decide)),
    mem_patchSVCs_outside (Or.inr (by decide))⟩

/- Whether there is one depends on the address alone. -/
theorem ensureFixedTls_fst
    {exec' : NativeExec}
    (hSame : exec'.fixedTlsAddr = exec.fixedTlsAddr) :
    (ensureFixedTls mmap exec').1 =
      (ensureFixedTls mmap exec).1 := by
  unfold ensureFixedTls
  rw [hSame]
  split
  · rfl
  · cases fixedTlsAddrs.find? mmap <;> rfl

/- Patching finds nothing to do the second time. -/
theorem patchSVCs_again
    (mem : Bytes)
    (start : Nat)
    (code size : U64) :
    let first := (patchSVCs mmap exec mem start code size).2
    (patchSVCs mmap first.exec first.mem start code
      size).2.mem = first.mem := by
  unfold patchSVCs
  split
  · rfl
  · simp only
    generalize size.toNat / 4 = n
    generalize hFixed : ensureFixedTls mmap exec = fixed
    generalize hFirst :
      patchFirst fixed.1 start code
        { mem := mem, exec := fixed.2 } n = first
    have hTls : (ensureFixedTls mmap first.exec).1 = fixed.1 := by
      have hSame :
          first.exec.fixedTlsAddr = fixed.2.fixedTlsAddr := by
        rw [← hFirst, fixedTlsAddr_patchFirst]
      rw [ensureFixedTls_fst hSame, ← hFixed,
        ensureFixedTls_again]
    have hSettled :
        ∀ k < n,
          Settled fixed.1 (first.mem.word (start + 4 * k)) := by
      intro k hK
      rw [← hFirst]
      exact settled_patchFirst hK
    have hAgain :
        ∀ exec',
          patchFirst fixed.1 start code
              { mem := first.mem, exec := exec' } n =
            { mem := first.mem, exec := exec' } :=
      fun exec' => patchFirst_settled hSettled
    rw [hTls, hAgain]

end NativeExec

end M1Switch
