import M1Switch.Gpu.Shader.MaxwellDecoder.Sweep

/-
  Branch targets and the end of decoding.

  The decoder stops behind the first `EXIT` it comes to.  A
  branch over an `EXIT` is listed in the program, but what it
  branches to is not; nor is a target inside an instruction of
  two words.  Both can be told from the words.

  Key definitions include:
    * `MaxwellDecoder.Decodable`
    * `MaxwellDecoder.BranchesDecoded`

  Main results:
    * `exists_pc_iff`
    * `targetPc_of_branch`
    * `branchesDecoded_iff`
-/

------
-- Branches
------

namespace M1Switch

namespace MaxwellDecoder

open WordStream

/- Opcodes that name another instruction. -/
def isBranch (op : ShaderOpcode) : Bool :=
  op = .BRA ∨ op = .CALL ∨ op = .SSY

/- The words of the three. -/
def branchWord (w : U64) : Bool :=
  opcodeIdOf w = 0x81 ∨ opcodeIdOf w = 0x82 ∨
    opcodeIdOf w = 0x83

/- A word of a known instruction. -/
def Decodable (data : List U8) (pc : Nat) : Prop :=
  ∃ w, readWord data pc = some w ∧
    detectFormat (opcodeIdOf w) ≠ .Unknown

instance (data : List U8) (pc : Nat) :
    Decidable (Decodable data pc) :=
  decidable_of_iff
    ((readWord data pc).any fun w =>
      detectFormat (opcodeIdOf w) ≠ .Unknown)
    (by simp [Decodable, Option.any_eq_true])

/- What branches name is in the program. -/
def BranchesDecoded
    (data : List U8)
    (insts : List ShaderInstruction) : Prop :=
  ∀ inst ∈ insts,
    isBranch inst.opcode → Decodable data inst.targetPc →
      ∃ target ∈ insts, target.pc = inst.targetPc

instance (data : List U8) (insts : List ShaderInstruction) :
    Decidable (BranchesDecoded data insts) :=
  inferInstanceAs (Decidable (∀ inst ∈ insts, _))

/-
  The word starts an instruction, and no instruction before it
  is an `EXIT`.
-/
def Listed (data : List U8) (k : Nat) : Prop :=
  Starts (longWord data) k ∧
    Unstopped (longWord data) (exitWord data) 0 k

/- Only those three numbers are decoded to branches. -/
theorem isBranch_decodeOpcode :
    ∀ id < 256,
      isBranch (decodeOpcode id (detectFormat id)) =
        decide (id = 0x81 ∨ id = 0x82 ∨ id = 0x83) := by
  decide +kernel

theorem isBranch_decodeFormat
    (w raw1 : U64)
    (pc : Nat) :
    isBranch
        (decodeFormat w raw1 pc
          (detectFormat (opcodeIdOf w))).opcode =
      branchWord w := by
  have hId : opcodeIdOf w < 256 := bits_lt w 12 5
  rw [opcode_decodeFormat_eq, isBranch_decodeOpcode _ hId]
  rfl

theorem branchTargetOf_lt (w : U64) (pc : Nat) :
    branchTargetOf w pc < 2 ^ 32 := by
  unfold branchTargetOf
  omega

/- Targets of aligned branches are aligned. -/
theorem branchTargetOf_aligned (w : U64) (k : Nat) :
    branchTargetOf w (8 * k) =
      8 * (branchTargetOf w (8 * k) / 8) := by
  have hTarget := target_of_label w (8 * k)
  omega

/- The label names the target of the word. -/
theorem targetPc_of_branch
    {w raw1 : U64}
    {k : Nat}
    (hBranch : branchWord w) :
    (decodeFormat w raw1 (8 * k)
        (detectFormat (opcodeIdOf w))).toIr.targetPc =
      branchTargetOf w (8 * k) := by
  have hAligned := branchTargetOf_aligned w k
  have hLt := branchTargetOf_lt w (8 * k)
  have hLabel :
      (decodeFormat w raw1 (8 * k)
          (detectFormat (opcodeIdOf w))).toIr.src0 =
        ShaderOperand.ofLabel
          (branchTargetOf w (8 * k) / 8) := by
    unfold branchWord at hBranch
    rw [decide_eq_true_eq] at hBranch
    rcases hBranch with hId | hId | hId <;> rw [hId] <;>
      simp [detectFormat, decodeFormat, decodeBranchFormat,
        decodeOpcode, hId, DecodedInst.toIr,
        DecodedInst.hasBranchTarget]
  unfold ShaderInstruction.targetPc
  rw [hLabel]
  change branchTargetOf w (8 * k) / 8 * 8 % 2 ^ 32 = _
  rw [Nat.mul_comm, ← hAligned, Nat.mod_eq_of_lt hLt]

------
-- What The Program Lists
------

variable {data : List U8}

/- An instruction of a program and its word. -/
theorem mem_instructions_of_swept
    {s : Sweep}
    {inst : ShaderInstruction}
    (hLength : data.length < 2 ^ 32)
    (hSwept : Swept data 0 s)
    (hInst : inst ∈ s.instructions) :
    ∃ k w raw1,
      Listed data k ∧ readWord data (8 * k) = some w ∧
        detectFormat (opcodeIdOf w) ≠ .Unknown ∧
          inst = (decodeFormat w raw1 (8 * k)
            (detectFormat (opcodeIdOf w))).toIr := by
  rcases (mem_instructions_swept_iff hSwept inst).mp hInst
    with ⟨k, d, hReached, hIn, hOne, hKnown, hEq⟩
  rcases decodeOne_cases hLength hIn hOne with
    ⟨_, hD⟩ | ⟨w, raw1, hWord, hD⟩
  · rw [hD] at hKnown
    exact absurd rfl hKnown
  · rw [hD, fmt_decodeFormat] at hKnown
    rw [hD] at hEq
    exact
      ⟨k, w, raw1, reached_zero_iff.mp hReached, hWord,
        hKnown, hEq⟩

/- A listed word that is known gives an instruction. -/
theorem exists_instruction_of_listed
    {k : Nat}
    {w : U64}
    {s : Sweep}
    (hLength : data.length < 2 ^ 32)
    (hSwept : Swept data 0 s)
    (hListed : Listed data k)
    (hWord : readWord data (8 * k) = some w)
    (hKnown : detectFormat (opcodeIdOf w) ≠ .Unknown) :
    ∃ raw1,
      (decodeFormat w raw1 (8 * k)
          (detectFormat (opcodeIdOf w))).toIr ∈
        s.instructions := by
  have hEnd := readWord_eq_some hWord
  have hIn : 8 * k < data.length := by omega
  have hReached := reached_zero_iff.mpr hListed
  rcases decodeOne_of_reached hSwept hReached hIn with
    ⟨d, hOne⟩
  rcases decodeOne_cases hLength hIn hOne with
    ⟨hNone, _⟩ | ⟨w', raw1, hWord', hD⟩
  · rw [hWord] at hNone
    cases hNone
  · rw [hWord, Option.some.injEq] at hWord'
    rw [← hWord'] at hD
    refine ⟨raw1, ?_⟩
    apply (mem_instructions_swept_iff hSwept _).mpr
    refine ⟨k, d, hReached, hIn, hOne, ?_, by rw [hD]⟩
    rw [hD, fmt_decodeFormat]
    exact hKnown

/- Where the program has an instruction. -/
theorem exists_pc_iff
    {k : Nat}
    {s : Sweep}
    (hLength : data.length < 2 ^ 32)
    (hSwept : Swept data 0 s) :
    (∃ inst ∈ s.instructions, inst.pc = 8 * k) ↔
      Listed data k ∧ Decodable data (8 * k) := by
  constructor
  · rintro ⟨inst, hInst, hPc⟩
    rcases mem_instructions_of_swept hLength hSwept hInst
      with ⟨i, w, raw1, hListed, hWord, hKnown, hEq⟩
    rw [hEq, pc_toIr, pc_decodeFormat] at hPc
    have hI : i = k := by omega
    rw [hI] at hListed hWord
    exact ⟨hListed, w, hWord, hKnown⟩
  · rintro ⟨hListed, w, hWord, hKnown⟩
    rcases exists_instruction_of_listed hLength hSwept
      hListed hWord hKnown with ⟨raw1, hInst⟩
    refine ⟨_, hInst, ?_⟩
    rw [pc_toIr, pc_decodeFormat]

/-
  What branches name is in the program exactly if each known
  word that a listed branch names starts an instruction, and
  no instruction before it is an `EXIT`.
-/
theorem branchesDecoded_iff
    {bytes : List U8}
    {stage : ShaderStage}
    {p : ShaderProgram}
    (hDecode : decode bytes stage = some p) :
    BranchesDecoded (sizedData bytes) p.instructions ↔
      ∀ k w,
        Listed (sizedData bytes) k →
          readWord (sizedData bytes) (8 * k) = some w →
            branchWord w →
              Decodable (sizedData bytes)
                (branchTargetOf w (8 * k)) →
                  Listed (sizedData bytes)
                    (branchTargetOf w (8 * k) / 8) := by
  have hLength := length_sizedData bytes
  rcases decode_sweep hDecode with ⟨s, hSweep, hInsts⟩
  have hSwept := swept_of_sweep hLength _ 0 s hSweep
  rw [hInsts]
  constructor
  · intro hAll k w hListed hWord hBranch hDecodable
    have hKnown :
        detectFormat (opcodeIdOf w) ≠ .Unknown := by
      unfold branchWord at hBranch
      rw [decide_eq_true_eq] at hBranch
      rcases hBranch with hId | hId | hId <;> rw [hId] <;>
        exact fun hUnknown => nomatch hUnknown
    rcases exists_instruction_of_listed hLength hSwept
      hListed hWord hKnown with ⟨raw1, hInst⟩
    have hTarget :
        (decodeFormat w raw1 (8 * k)
            (detectFormat (opcodeIdOf w))).toIr.targetPc =
          branchTargetOf w (8 * k) :=
      targetPc_of_branch hBranch
    have hAligned := branchTargetOf_aligned w k
    have hFound := hAll _ hInst
      (by
        rw [opcode_toIr, isBranch_decodeFormat]
        exact hBranch)
      (by
        rw [hTarget]
        exact hDecodable)
    rw [hTarget, hAligned] at hFound
    exact ((exists_pc_iff hLength hSwept).mp hFound).1
  · intro hAll inst hInst hBranch hDecodable
    rcases mem_instructions_of_swept hLength hSwept hInst
      with ⟨k, w, raw1, hListed, hWord, _, hEq⟩
    rw [hEq, opcode_toIr, isBranch_decodeFormat] at hBranch
    rw [hEq, targetPc_of_branch hBranch] at hDecodable ⊢
    have hAligned := branchTargetOf_aligned w k
    have hTarget := hAll k w hListed hWord hBranch hDecodable
    rw [hAligned] at hDecodable ⊢
    exact
      (exists_pc_iff hLength hSwept).mpr
        ⟨hTarget, hDecodable⟩

/- A loop: a branch back to the word in front of it. -/
def loopBytes : List U8 :=
  bytesOfWords [0, 0x7FFD020, 0x1000]

theorem loopBytes_branchesDecoded :
    ∃ p, decode loopBytes .VertexB = some p ∧
      BranchesDecoded (sizedData loopBytes)
        p.instructions := by
  rcases Option.isSome_iff_exists.mp
    (decode_isSome loopBytes .VertexB (by decide)) with
    ⟨p, hDecode⟩
  refine ⟨p, hDecode, ?_⟩
  apply (branchesDecoded_iff hDecode).mpr
  intro k w _ hWord hBranch _
  have hEnd : 8 * k + 8 ≤ 24 := readWord_eq_some hWord
  have hTarget : branchTargetOf w (8 * k) = 0 := by
    have hK : k = 0 ∨ k = 1 ∨ k = 2 := by omega
    rcases hK with hK | hK | hK <;> subst hK
    · cases hWord
      exact absurd hBranch (by decide)
    · cases hWord
      decide
    · cases hWord
      exact absurd hBranch (by decide)
  rw [hTarget]
  refine ⟨starts_zero, ?_⟩
  intro j _ hLt
  exact absurd hLt (Nat.not_lt_zero j)

/-
  A guarded branch over an `EXIT`: the word behind the `EXIT`
  is an instruction, and the program does not have it.
-/
def branchOverExit : List U8 :=
  bytesOfWords [0x200003020, 0x1000, 0x1000]

theorem branchOverExit_not_decoded :
    ∃ p ∈ decode branchOverExit .VertexB,
      ¬ BranchesDecoded (sizedData branchOverExit)
        p.instructions := by
  decide

end MaxwellDecoder

end M1Switch
