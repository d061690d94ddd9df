import M1Switch.Gpu.Shader.MaxwellDecoder
import M1Switch.Library.BitFields

/-
  Encoded instructions read back through the decoder.

  The layout of a format names the bit fields that its decoder
  reads or describes.  An assignment of values to them is
  joined into the instruction's words; a field can be read back
  if some function of the converted instruction gives its value
  for every assignment.

  Key definitions include:
    * `firstLayout`
    * `MaxwellDecoder.EncodedAt`

  Main results:
    * `bits_encodeFirst`
    * `decodeOne_encoded`
    * `readable_iff`
-/

------
-- Layouts
------

namespace M1Switch

namespace MaxwellDecoder

open BitFields

inductive FieldName where
  | opcode
  | dest
  | predDest
  | src0
  | src1
  | src2
  | guard
  | neg0
  | neg1
  | abs0
  | abs1
  | saturate
  | mufu
  | offset
  | space
  | texture
  | sampler
  | special
  | target
deriving DecidableEq, Repr

/- A named range of bits. -/
structure NamedField where
  name : FieldName
  lo : Nat
  width : Nat
deriving DecidableEq, Repr

def NamedField.range (f : NamedField) : Field :=
  ⟨f.lo, f.width⟩

/-
  Fields of the first word.  The sub-operation belongs to
  `MUFU` only.  The predicate source and the modifiers are
  common to the arithmetic formats; with three inputs the
  lowest bit of the predicate is the highest of the third
  source.
-/
def firstLayout (id : Nat) : List NamedField :=
  match detectFormat id with
  | .Alu3In =>
      [⟨.opcode, 5, 8⟩, ⟨.src0, 13, 7⟩, ⟨.src1, 20, 7⟩,
        ⟨.src2, 27, 7⟩, ⟨.guard, 33, 3⟩, ⟨.dest, 39, 6⟩,
        ⟨.neg0, 45, 1⟩, ⟨.neg1, 46, 1⟩, ⟨.abs0, 47, 1⟩,
        ⟨.abs1, 48, 1⟩, ⟨.saturate, 49, 1⟩]
  | .Alu2In =>
      [⟨.opcode, 5, 8⟩, ⟨.src0, 13, 7⟩, ⟨.src1, 20, 7⟩,
        ⟨.guard, 33, 3⟩, ⟨.dest, 39, 6⟩, ⟨.neg0, 45, 1⟩,
        ⟨.neg1, 46, 1⟩, ⟨.abs0, 47, 1⟩, ⟨.abs1, 48, 1⟩,
        ⟨.saturate, 49, 1⟩]
  | .Alu1In =>
      [⟨.opcode, 5, 8⟩, ⟨.src0, 13, 7⟩, ⟨.guard, 33, 3⟩,
        ⟨.dest, 39, 6⟩, ⟨.neg0, 45, 1⟩, ⟨.abs0, 47, 1⟩,
        ⟨.saturate, 49, 1⟩] ++
        if id = 0x06 then [⟨.mufu, 51, 4⟩] else []
  | .ISetp | .FSetp =>
      [⟨.opcode, 5, 8⟩, ⟨.src0, 13, 7⟩, ⟨.src1, 20, 7⟩,
        ⟨.guard, 33, 3⟩, ⟨.predDest, 40, 3⟩, ⟨.neg0, 45, 1⟩,
        ⟨.neg1, 46, 1⟩, ⟨.abs0, 47, 1⟩, ⟨.abs1, 48, 1⟩]
  | .MemoryLoad | .MemoryStore =>
      [⟨.opcode, 5, 8⟩, ⟨.dest, 13, 7⟩, ⟨.offset, 27, 8⟩,
        ⟨.src0, 39, 6⟩]
  | .Texture =>
      [⟨.opcode, 5, 8⟩, ⟨.dest, 13, 7⟩, ⟨.src0, 27, 7⟩,
        ⟨.texture, 39, 6⟩]
  | .S2R =>
      [⟨.opcode, 5, 8⟩, ⟨.dest, 13, 7⟩, ⟨.special, 39, 6⟩]
  | .Branch | .Sync =>
      [⟨.opcode, 5, 8⟩, ⟨.target, 13, 14⟩, ⟨.guard, 33, 3⟩]
  | .Exit => [⟨.opcode, 5, 8⟩]
  | _ => []

/- Fields of the second word. -/
def secondLayout (id : Nat) : List NamedField :=
  match detectFormat id with
  | .MemoryLoad | .MemoryStore => [⟨.space, 45, 3⟩]
  | .Texture => [⟨.sampler, 44, 6⟩]
  | _ => []

/- Values of the fields. -/
abbrev Assignment : Type := FieldName → Nat

/- The values of an instruction fit their fields, and agree on
the bits that two fields share. -/
structure Fits (id : Nat) (vals : Assignment) : Prop where
  opcode : vals .opcode = id
  first : ∀ f ∈ firstLayout id, vals f.name < 2 ^ f.width
  agree :
    Agree NamedField.range (fun f => vals f.name)
      (firstLayout id)
  second : ∀ f ∈ secondLayout id, vals f.name < 2 ^ f.width

def encodeWord
    (layout : List NamedField)
    (vals : Assignment) : U64 :=
  BitVec.ofNat 64
    (BitFields.join NamedField.range (fun f => vals f.name) layout)

/- The encoded words stand at `pc` of a program. -/
structure EncodedAt
    (data : List U8)
    (pc id : Nat)
    (vals : Assignment) : Prop where
  length : data.length < 2 ^ 32
  first :
    readWord data pc = some (encodeWord (firstLayout id) vals)
  second :
    readsSecondWord (detectFormat id) →
      readWord data (pc + 8) =
        some (encodeWord (secondLayout id) vals)

/- Every field of a layout is inside its word. -/
theorem layouts_in_word (id : Nat) :
    ∀ f ∈ firstLayout id ++ secondLayout id,
      0 < f.width ∧ f.lo + f.width ≤ 64 := by
  unfold firstLayout secondLayout
  cases detectFormat id <;> dsimp only <;>
    (try split_ifs) <;> decide

/- A range inside the word, as a number. -/
theorem bits_ofNat
    (n lo width : Nat)
    (hWidth : 0 < width)
    (hEnd : lo + width ≤ 64) :
    bits (BitVec.ofNat 64 n) (lo + width - 1) lo =
      n / 2 ^ lo % 2 ^ width := by
  have hCount : lo + width - 1 - lo + 1 = width := by omega
  have hSplit : 2 ^ 64 = 2 ^ lo * 2 ^ (64 - lo) := by
    rw [← Nat.pow_add]
    congr 1
    omega
  have hDvd : 2 ^ width ∣ 2 ^ (64 - lo) :=
    Nat.pow_dvd_pow 2 (by omega)
  unfold bits
  rw [BitVec.extractLsb_toNat, BitVec.toNat_ofNat,
    Nat.shiftRight_eq_div_pow, hCount, hSplit,
    Nat.mod_mul_right_div_self, Nat.mod_mod_of_dvd _ hDvd]

/- A field of an encoded word. -/
theorem bits_encodeWord
    {layout : List NamedField}
    {vals : Assignment}
    (hFits : ∀ f ∈ layout, vals f.name < 2 ^ f.width)
    (hAgree :
      Agree NamedField.range (fun f => vals f.name) layout)
    {f : NamedField}
    (hF : f ∈ layout)
    (hWidth : 0 < f.width)
    (hEnd : f.lo + f.width ≤ 64) :
    bits (encodeWord layout vals) (f.lo + f.width - 1) f.lo =
      vals f.name := by
  unfold encodeWord
  rw [bits_ofNat _ _ _ hWidth hEnd]
  exact extract_join hFits hAgree hF

theorem bit_eq (v : U64) (b : Nat) :
    bit v b = decide (bits v b b = 1) := by
  unfold bit bits
  rw [BitVec.extractLsb_toNat, BitVec.getLsbD,
    Nat.testBit_eq_decide_div_mod_eq,
    Nat.shiftRight_eq_div_pow, Nat.sub_self]

------
-- Decoding Encoded Words
------

variable {id : Nat} {vals : Assignment} {pc : Nat}
variable {w raw1 : U64} {fmt : MaxwellFormat}

/- The second word, zero for one-word formats. -/
def encodeSecond (id : Nat) (vals : Assignment) : U64 :=
  if readsSecondWord (detectFormat id) then
    encodeWord (secondLayout id) vals
  else 0

/- Formats with a layout have an opcode field. -/
theorem opcode_mem_firstLayout
    {f : NamedField}
    (hF : f ∈ firstLayout id ++ secondLayout id) :
    (⟨.opcode, 5, 8⟩ : NamedField) ∈ firstLayout id := by
  unfold firstLayout secondLayout at *
  cases hFmt : detectFormat id <;> simp [hFmt] at hF ⊢

/- A field of the first word has its value there. -/
theorem bits_encodeFirst
    (hFits : Fits id vals)
    {f : NamedField}
    (hF : f ∈ firstLayout id) :
    bits (encodeWord (firstLayout id) vals)
        (f.lo + f.width - 1) f.lo = vals f.name := by
  have hAll : f ∈ firstLayout id ++ secondLayout id :=
    List.mem_append_left _ hF
  rcases layouts_in_word id f hAll with
    ⟨hWidth, hEnd⟩
  exact bits_encodeWord hFits.first hFits.agree hF hWidth hEnd

theorem bits_encodeSecond
    (hFits : Fits id vals)
    {f : NamedField}
    (hF : f ∈ secondLayout id) :
    bits (encodeSecond id vals) (f.lo + f.width - 1) f.lo =
      vals f.name := by
  have hAll : f ∈ firstLayout id ++ secondLayout id :=
    List.mem_append_right _ hF
  have hReads : readsSecondWord (detectFormat id) := by
    unfold secondLayout at hF
    cases hFmt : detectFormat id <;> simp [hFmt] at hF <;> rfl
  rcases layouts_in_word id f hAll with
    ⟨hWidth, hEnd⟩
  have hAgree :
      Agree NamedField.range (fun f => vals f.name)
        (secondLayout id) := by
    have hOne : secondLayout id = [f] := by
      unfold secondLayout at hF ⊢
      cases hFmt : detectFormat id <;> simp [hFmt] at hF ⊢ <;>
        exact hF.symm
    rw [hOne]
    exact agree_singleton (hFits.second f hF)
  unfold encodeSecond
  rw [if_pos hReads]
  exact bits_encodeWord hFits.second hAgree hF hWidth hEnd

/- The decoder finds the format and both words. -/
theorem decodeOne_encoded
    (hFits : Fits id vals)
    {f : NamedField}
    (hF : f ∈ firstLayout id ++ secondLayout id)
    {data : List U8}
    (hEncoded : EncodedAt data pc id vals) :
    decodeOne data pc =
      some (decodeFormat (encodeWord (firstLayout id) vals)
        (encodeSecond id vals) pc (detectFormat id)) := by
  have hId :
      opcodeIdOf (encodeWord (firstLayout id) vals) = id := by
    have hBits :=
      bits_encodeFirst hFits (opcode_mem_firstLayout hF)
    exact hBits.trans hFits.opcode
  have hEnd := readWord_eq_some hEncoded.first
  have hLength := hEncoded.length
  have hSecond :
      secondWord data pc (detectFormat id) =
        some (encodeSecond id vals) := by
    unfold secondWord encodeSecond
    by_cases hReads : readsSecondWord (detectFormat id)
    · have hEnd2 := readWord_eq_some (hEncoded.second hReads)
      have hFit : (pc + 16) % 2 ^ 32 ≤ data.length := by
        omega
      rw [if_pos ⟨hFit, hReads⟩, if_pos hReads]
      exact hEncoded.second hReads
    · rw [if_neg (fun h => hReads h.2), if_neg hReads]
  unfold decodeOne
  rw [if_neg (by omega)]
  simp only [hEncoded.first, bind, Option.bind_some, hId,
    hSecond, pure]

------
-- Reading Fields Back
------

/- What a field stands for. -/
inductive FieldValue where
  | number (n : Nat)
  | opcode (op : ShaderOpcode)
  | mufu (op : MufuOp)
  | space (s : MemorySpace)
  | address (a : Nat)
deriving DecidableEq, Repr

/- The documented meaning of a field's bits. -/
def documented (pc : Nat) : FieldName → Nat → FieldValue
| .opcode, v => .opcode (decodeOpcode v (detectFormat v))
| .mufu, v => .mufu (MufuOp.ofCode v)
| .space, v => .space (memSpaceOf v)
| .target, v =>
    .address
      (((pc : Int) + 8 + signExtend v 14 * 8) % 2 ^ 32).toNat
| _, v => .number v

/-
  Some function of the converted instruction gives the
  field's value for every assignment.
-/
def Readable (id : Nat) (f : NamedField) : Prop :=
  ∃ read : ShaderInstruction → FieldValue,
    ∀ (vals : Assignment) (data : List U8) (pc : Nat),
      Fits id vals → EncodedAt data pc id vals →
        ∃ d,
          decodeOne data pc = some d ∧
            read d.toIr = documented pc f.name (vals f.name)

/-
  Fields that the decoder or the conversion leaves out: the
  predicate source of an arithmetic instruction, modifiers that
  its format does not read, the destination of a compare, the
  offset of a memory access, and what `TXQ` names.
-/
def dropped (id : Nat) (name : FieldName) : Bool :=
  match detectFormat id, name with
  | .Alu3In, .guard => true
  | .Alu2In, .guard | .Alu2In, .abs1 => true
  | .Alu1In, .guard | .Alu1In, .neg0 | .Alu1In, .abs0
  | .Alu1In, .saturate => true
  | .ISetp, .predDest | .ISetp, .abs0 | .ISetp, .abs1 => true
  | .FSetp, .predDest | .FSetp, .abs0 | .FSetp, .abs1 => true
  | .MemoryLoad, .offset | .MemoryStore, .offset => true
  | .Texture, .texture | .Texture, .sampler => id == 0x64
  | _, _ => false

def Dropped (id : Nat) (name : FieldName) : Prop :=
  dropped id name = true

instance (id : Nat) (name : FieldName) :
    Decidable (Dropped id name) :=
  inferInstanceAs (Decidable (_ = _))

/- Where the conversion keeps a field. -/
def readField
    (name : FieldName)
    (ir : ShaderInstruction) : FieldValue :=
  match name with
  | .opcode => .opcode ir.opcode
  | .mufu => .mufu ir.src0.mufuOp
  | .space => .space ir.memSpace
  -- The label counts words, from the same byte of a word.
  | .target => .address (ir.src0.label * 8 + ir.pc % 8)
  | .dest => .number ir.dest.regIndex
  | .src0 => .number ir.src0.regIndex
  | .src1 => .number ir.src1.regIndex
  | .src2 => .number ir.src2.regIndex
  | .guard => .number ir.predGuardIndex
  | .neg0 => .number ir.src0.negate.toNat
  | .neg1 => .number ir.src1.negate.toNat
  | .abs0 => .number ir.src0.absolute.toNat
  | .abs1 => .number ir.src1.absolute.toNat
  | .saturate => .number ir.dest.saturate.toNat
  | .special => .number ir.src0.value
  | .texture => .number ir.src1.value
  | .sampler => .number ir.src1.value1
  | .predDest => .number ir.dest.predIndex
  | .offset => .number ir.memOffset

------
-- Fields The Conversion Keeps
------

variable {f : NamedField}

-- Every format unfolds the same definitions.
attribute [local simp]
  firstLayout secondLayout Dropped dropped readField documented
  decodeFormat aluField DecodedInst.toIrOperands
  ShaderOperand.regIndex ShaderOperand.gpr

/- The field of a word is kept by its format. -/
def Keeps
    (fmt : MaxwellFormat)
    (w raw1 : U64)
    (pc : Nat)
    (f : NamedField)
    (source : U64) : Prop :=
  readField f.name (decodeFormat w raw1 pc fmt).toIr =
    documented pc f.name
      (bits source (f.lo + f.width - 1) f.lo)

/- A one-bit field is read as a flag. -/
theorem toNat_bit (v : U64) (b : Nat) :
    (bit v b).toNat = bits v b b := by
  have hLt := bits_lt v b b
  rw [Nat.sub_self, Nat.zero_add] at hLt
  have hCases : bits v b b = 0 ∨ bits v b b = 1 := by omega
  rw [bit_eq]
  rcases hCases with hZero | hOne
  · rw [hZero]
    rfl
  · rw [hOne]
    rfl

/- A register of seven bits fits the byte of the operand. -/
theorem bits_mod
    (v : U64)
    (hi lo : Nat)
    (hWidth : hi - lo + 1 ≤ 7) :
    bits v hi lo % 256 = bits v hi lo := by
  have hLt := bits_lt v hi lo
  have hPow : 2 ^ (hi - lo + 1) ≤ 2 ^ 7 :=
    Nat.pow_le_pow_right (by decide) hWidth
  omega

/- Most instructions are converted by their field counts. -/
theorem toIr_of_plain
    {d : DecodedInst}
    (fmt : MaxwellFormat)
    (hOpcode : d.opcode ∈ opcodesOf fmt)
    (hFmt :
      fmt ∉ [MaxwellFormat.Branch, .Sync, .Texture, .S2R]) :
    d.toIr = d.toIrOperands := by
  have hPlain :
      ∀ op ∈ opcodesOf fmt,
        DecodedInst.hasBranchTarget op = false ∧
          DecodedInst.isTexture op = false ∧ op ≠ .S2R := by
    cases fmt <;>
      first
        | decide
        | exact absurd (by decide) hFmt
  rcases hPlain _ hOpcode with ⟨hBranch, hTexture, hS2R⟩
  simp [DecodedInst.toIr, hBranch, hTexture, hS2R]

/- Every format keeps the opcode. -/
theorem keeps_opcode
    (hId : opcodeIdOf w = id) :
    Keeps (detectFormat id) w raw1 pc ⟨.opcode, 5, 8⟩ w := by
  subst hId
  show FieldValue.opcode _ = .opcode _
  rw [opcode_toIr, opcode_decodeFormat_eq]
  rfl

theorem keeps_alu3
    (hFmt : detectFormat id = .Alu3In)
    (hF : f ∈ firstLayout id)
    (hName : f.name ≠ .opcode)
    (hKept : ¬ Dropped id f.name) :
    Keeps .Alu3In w raw1 pc f w := by
  unfold Keeps
  rw [toIr_of_plain .Alu3In (decodeOpcode_mem _ _) (by decide)]
  simp only [firstLayout, hFmt, List.mem_cons,
    List.not_mem_nil, or_false] at hF
  rcases hF with hF | hF | hF | hF | hF | hF | hF | hF | hF |
    hF | hF <;> subst hF
  · exact absurd rfl hName
  all_goals
    first
      | refine absurd ?_ hKept
        simp [hFmt]
        done
      | simp [decodeAluFormat, toNat_bit, bits_mod]

theorem keeps_alu2
    (hFmt : detectFormat id = .Alu2In)
    (hF : f ∈ firstLayout id)
    (hName : f.name ≠ .opcode)
    (hKept : ¬ Dropped id f.name) :
    Keeps .Alu2In w raw1 pc f w := by
  unfold Keeps
  rw [toIr_of_plain .Alu2In (decodeOpcode_mem _ _) (by decide)]
  simp only [firstLayout, hFmt, List.mem_cons,
    List.not_mem_nil, or_false] at hF
  rcases hF with hF | hF | hF | hF | hF | hF | hF | hF | hF |
    hF <;> subst hF
  · exact absurd rfl hName
  all_goals
    first
      | refine absurd ?_ hKept
        simp [hFmt]
        done
      | simp [decodeAluFormat, toNat_bit, bits_mod]

theorem keeps_alu1
    (hId : opcodeIdOf w = id)
    (hFmt : detectFormat id = .Alu1In)
    (hF : f ∈ firstLayout id)
    (hName : f.name ≠ .opcode)
    (hKept : ¬ Dropped id f.name) :
    Keeps .Alu1In w raw1 pc f w := by
  unfold Keeps
  rw [toIr_of_plain .Alu1In (decodeOpcode_mem _ _) (by decide)]
  simp only [firstLayout, hFmt, List.mem_append,
    List.mem_cons, List.not_mem_nil, or_false] at hF
  rcases hF with hF | hF
  · rcases hF with hF | hF | hF | hF | hF | hF | hF <;>
      subst hF
    · exact absurd rfl hName
    all_goals
      first
        | refine absurd ?_ hKept
          simp [hFmt]
          done
        | simp [decodeAluFormat, bits_mod]
  · -- The sub-operation is read for `MUFU` only.
    split_ifs at hF with hMufu
    · rw [List.mem_singleton] at hF
      subst hF
      rw [hMufu] at hId
      simp [decodeAluFormat, hId, decodeOpcode]
    · cases hF

/- A compare loses its destination only. -/
theorem keeps_setp
    (hSetp : fmt = .ISetp ∨ fmt = .FSetp)
    (hFmt : detectFormat id = fmt)
    (hF : f ∈ firstLayout id)
    (hName : f.name ≠ .opcode)
    (hKept : ¬ Dropped id f.name) :
    Keeps fmt w raw1 pc f w := by
  have hPlain :
      (decodeFormat w raw1 pc fmt).toIr =
        (decodeAluFormat w pc fmt).toIrOperands := by
    rcases hSetp with hSetp | hSetp <;> subst hSetp
    · exact toIr_of_plain .ISetp
        (decodeOpcode_mem (opcodeIdOf w) _) (by decide)
    · exact toIr_of_plain .FSetp
        (decodeOpcode_mem (opcodeIdOf w) _) (by decide)
  have hField :
      aluField w fmt (decodeOpcode (opcodeIdOf w) fmt) =
        { gprSrc0 := bits w 19 13
          gprSrc1 := bits w 26 20
          predDest := bits w 42 40
          predSrc := bits w 35 33
          negSrc0 := bit w 45
          negSrc1 := bit w 46
          srcCount := 2
          setsCc := true } := by
    rcases hSetp with hSetp | hSetp <;> subst hSetp <;> rfl
  have hLayout :
      firstLayout id =
        [⟨.opcode, 5, 8⟩, ⟨.src0, 13, 7⟩, ⟨.src1, 20, 7⟩,
          ⟨.guard, 33, 3⟩, ⟨.predDest, 40, 3⟩, ⟨.neg0, 45, 1⟩,
          ⟨.neg1, 46, 1⟩, ⟨.abs0, 47, 1⟩, ⟨.abs1, 48, 1⟩] := by
    unfold firstLayout
    rcases hSetp with hSetp | hSetp <;>
      simp only [hFmt, hSetp]
  unfold Keeps
  rw [hPlain]
  simp only [hLayout, List.mem_cons, List.not_mem_nil,
    or_false] at hF
  have hLost :
      Dropped id .predDest ∧ Dropped id .abs0 ∧
        Dropped id .abs1 := by
    rcases hSetp with hSetp | hSetp <;>
      simp [hFmt, hSetp]
  rcases hF with hF | hF | hF | hF | hF | hF | hF | hF | hF <;>
    subst hF
  · exact absurd rfl hName
  all_goals try exact absurd hLost.1 hKept
  all_goals try exact absurd hLost.2.1 hKept
  all_goals try exact absurd hLost.2.2 hKept
  all_goals
    simp [decodeAluFormat, -aluField, hField, toNat_bit,
      bits_mod]

/- Memory instructions are converted by their counts. -/
theorem toIr_memory (w raw1 : U64) (pc : Nat) :
    (decodeMemoryFormat w raw1 pc).toIr =
      (decodeMemoryFormat w raw1 pc).toIrOperands := by
  by_cases hStore : 0x50 ≤ opcodeIdOf w
  · apply toIr_of_plain .MemoryStore _ (by decide)
    simp only [decodeMemoryFormat, if_pos hStore]
    exact decodeOpcode_mem _ _
  · apply toIr_of_plain .MemoryLoad _ (by decide)
    simp only [decodeMemoryFormat, if_neg hStore]
    exact decodeOpcode_mem _ _

/- A memory instruction loses its offset only. -/
theorem keeps_memory
    (hMemory : fmt = .MemoryLoad ∨ fmt = .MemoryStore)
    (hFmt : detectFormat id = fmt)
    (hF : f ∈ firstLayout id)
    (hName : f.name ≠ .opcode)
    (hKept : ¬ Dropped id f.name) :
    Keeps fmt w raw1 pc f w := by
  have hFormat :
      decodeFormat w raw1 pc fmt =
        decodeMemoryFormat w raw1 pc := by
    rcases hMemory with hMemory | hMemory <;>
      subst hMemory <;> rfl
  have hLayout :
      firstLayout id =
        [⟨.opcode, 5, 8⟩, ⟨.dest, 13, 7⟩, ⟨.offset, 27, 8⟩,
          ⟨.src0, 39, 6⟩] := by
    unfold firstLayout
    rcases hMemory with hMemory | hMemory <;>
      simp only [hFmt, hMemory]
  unfold Keeps
  rw [hFormat, toIr_memory]
  simp only [hLayout, List.mem_cons, List.not_mem_nil,
    or_false] at hF
  rcases hF with hF | hF | hF | hF <;> subst hF
  · exact absurd rfl hName
  · simp [decodeMemoryFormat, bits_mod]
  · have hLost : Dropped id .offset := by
      rcases hMemory with hMemory | hMemory <;>
        simp [hFmt, hMemory]
    exact absurd hLost hKept
  · simp [decodeMemoryFormat, bits_mod]

/- The space of the second word is kept. -/
theorem keeps_space
    (hMemory : fmt = .MemoryLoad ∨ fmt = .MemoryStore) :
    Keeps fmt w raw1 pc ⟨.space, 45, 3⟩ raw1 := by
  have hFormat :
      decodeFormat w raw1 pc fmt =
        decodeMemoryFormat w raw1 pc := by
    rcases hMemory with hMemory | hMemory <;>
      subst hMemory <;> rfl
  unfold Keeps
  rw [hFormat, toIr_memory]
  rfl

/- Texture opcodes but `TXQ` have a texture operand. -/
theorem isTexture_of_ne
    (hFmt : detectFormat id = .Texture)
    (hTxq : id ≠ 0x64) :
    DecodedInst.isTexture (decodeOpcode id .Texture) =
      true := by
  unfold detectFormat at hFmt
  split at hFmt <;> cases hFmt
  all_goals
    first
      | rfl
      | exact absurd rfl hTxq

theorem not_hasBranchTarget_texture (id : Nat) :
    DecodedInst.hasBranchTarget (decodeOpcode id .Texture) =
      false := by
  have hAll :
      ∀ op ∈ opcodesOf .Texture,
        DecodedInst.hasBranchTarget op = false := by
    decide
  exact hAll _ (decodeOpcode_mem _ _)

/- The other fields of a texture instruction. -/
theorem keeps_texture
    (hId : opcodeIdOf w = id)
    (hFmt : detectFormat id = .Texture)
    (hF : f ∈ firstLayout id)
    (hName : f.name ≠ .opcode)
    (hKept : ¬ Dropped id f.name) :
    Keeps .Texture w raw1 pc f w := by
  have hBranch := not_hasBranchTarget_texture id
  simp only [firstLayout, hFmt, List.mem_cons,
    List.not_mem_nil, or_false] at hF
  unfold Keeps
  by_cases hTxq : id = 0x64
  · subst hTxq
    have hOpcode :
        decodeOpcode 0x64 .Texture = ShaderOpcode.TXQ :=
      rfl
    rcases hF with hF | hF | hF | hF <;> subst hF
    · exact absurd rfl hName
    · simp [DecodedInst.toIr, decodeTextureFormat, hId,
        hOpcode, DecodedInst.hasBranchTarget,
        DecodedInst.isTexture, bits_mod]
    · simp [DecodedInst.toIr, decodeTextureFormat, hId,
        hOpcode, DecodedInst.hasBranchTarget,
        DecodedInst.isTexture, bits_mod]
    · exact absurd (by simp [hFmt]) hKept
  · have hTexture := isTexture_of_ne hFmt hTxq
    rcases hF with hF | hF | hF | hF <;> subst hF
    · exact absurd rfl hName
    all_goals
      simp [DecodedInst.toIr, decodeTextureFormat, hId,
        hBranch, hTexture, ShaderOperand.texture, bits_mod]

theorem keeps_sampler
    (hId : opcodeIdOf w = id)
    (hFmt : detectFormat id = .Texture)
    (hTxq : id ≠ 0x64) :
    Keeps .Texture w raw1 pc ⟨.sampler, 44, 6⟩ raw1 := by
  have hBranch := not_hasBranchTarget_texture id
  have hTexture := isTexture_of_ne hFmt hTxq
  simp [Keeps, DecodedInst.toIr, decodeTextureFormat, hId,
    hBranch, hTexture, ShaderOperand.texture]

theorem keeps_s2r
    (hFmt : detectFormat id = .S2R)
    (hF : f ∈ firstLayout id)
    (hName : f.name ≠ .opcode) :
    Keeps .S2R w raw1 pc f w := by
  simp only [firstLayout, hFmt, List.mem_cons,
    List.not_mem_nil, or_false] at hF
  rcases hF with hF | hF | hF <;> subst hF
  · exact absurd rfl hName
  all_goals
    simp [Keeps, DecodedInst.toIr,
      DecodedInst.hasBranchTarget, DecodedInst.isTexture,
      decodeS2RFormat, ShaderOperand.special, bits_mod]

/- The label and the offset together give the target. -/
theorem target_of_label (w : U64) (pc : Nat) :
    branchTargetOf w pc / 8 * 8 + pc % 8 =
      branchTargetOf w pc := by
  unfold branchTargetOf
  generalize signExtend (bits w 26 13) 14 = offset
  omega

theorem keeps_branch
    (hKind : fmt = .Branch ∨ fmt = .Sync)
    (hFmt : detectFormat id = fmt)
    (hF : f ∈ firstLayout id)
    (hName : f.name ≠ .opcode) :
    Keeps fmt w raw1 pc f w := by
  have hFormat :
      decodeFormat w raw1 pc fmt =
        decodeBranchFormat w pc fmt := by
    rcases hKind with hKind | hKind <;> subst hKind <;> rfl
  have hBranch :
      DecodedInst.hasBranchTarget
        (decodeOpcode (opcodeIdOf w) fmt) = true := by
    have hAll :
        ∀ op ∈ opcodesOf fmt,
          DecodedInst.hasBranchTarget op = true := by
      rcases hKind with hKind | hKind <;> subst hKind <;>
        decide
    exact hAll _ (decodeOpcode_mem _ _)
  have hLayout :
      firstLayout id =
        [⟨.opcode, 5, 8⟩, ⟨.target, 13, 14⟩,
          ⟨.guard, 33, 3⟩] := by
    unfold firstLayout
    rcases hKind with hKind | hKind <;>
      simp only [hFmt, hKind]
  unfold Keeps
  rw [hFormat]
  simp only [hLayout, List.mem_cons, List.not_mem_nil,
    or_false] at hF
  rcases hF with hF | hF | hF <;> subst hF
  · exact absurd rfl hName
  · simp only [readField, documented, DecodedInst.toIr,
      decodeBranchFormat, hBranch, if_true,
      DecodedInst.toIrOperands, ShaderOperand.ofLabel,
      ShaderOperand.label, FieldValue.address.injEq]
    exact target_of_label w pc
  · simp [DecodedInst.toIr, decodeBranchFormat, hBranch]

------
-- Which Fields Can Be Read Back
------

/- A field of the first word, in any format. -/
theorem keeps_first
    (hId : opcodeIdOf w = id)
    (hF : f ∈ firstLayout id)
    (hKept : ¬ Dropped id f.name) :
    Keeps (detectFormat id) w raw1 pc f w := by
  by_cases hName : f.name = .opcode
  · have hOpcode : f = ⟨.opcode, 5, 8⟩ := by
      rcases f with ⟨name, lo, width⟩
      dsimp only at hName
      subst hName
      unfold firstLayout at hF
      cases hFmt : detectFormat id <;> simp [hFmt] at hF <;>
        try split_ifs at hF
      all_goals simp_all
    rw [hOpcode]
    exact keeps_opcode hId
  cases hFmt : detectFormat id with
  | Alu3In => exact keeps_alu3 hFmt hF hName hKept
  | Alu2In => exact keeps_alu2 hFmt hF hName hKept
  | Alu1In => exact keeps_alu1 hId hFmt hF hName hKept
  | ISetp =>
      exact keeps_setp (Or.inl rfl) hFmt hF hName hKept
  | FSetp =>
      exact keeps_setp (Or.inr rfl) hFmt hF hName hKept
  | MemoryLoad =>
      exact keeps_memory (Or.inl rfl) hFmt hF hName hKept
  | MemoryStore =>
      exact keeps_memory (Or.inr rfl) hFmt hF hName hKept
  | Texture => exact keeps_texture hId hFmt hF hName hKept
  | S2R => exact keeps_s2r hFmt hF hName
  | Branch => exact keeps_branch (Or.inl rfl) hFmt hF hName
  | Sync => exact keeps_branch (Or.inr rfl) hFmt hF hName
  | Exit =>
      simp only [firstLayout, hFmt, List.mem_singleton] at hF
      rw [hF] at hName
      exact absurd rfl hName
  | Unknown =>
      simp only [firstLayout, hFmt, List.not_mem_nil] at hF
  | PredicateReg =>
      simp only [firstLayout, hFmt, List.not_mem_nil] at hF

theorem keeps_second
    (hId : opcodeIdOf w = id)
    (hF : f ∈ secondLayout id)
    (hKept : ¬ Dropped id f.name) :
    Keeps (detectFormat id) w raw1 pc f raw1 := by
  unfold secondLayout at hF
  cases hFmt : detectFormat id <;> simp [hFmt] at hF
  case MemoryLoad =>
      subst hF
      exact keeps_space (Or.inl rfl)
  case MemoryStore =>
      subst hF
      exact keeps_space (Or.inr rfl)
  case Texture =>
      subst hF
      apply keeps_sampler hId hFmt
      intro hTxq
      apply hKept
      simp only [Dropped, dropped, hFmt]
      simp [hTxq]

/- A field that is kept is read back where it is kept. -/
theorem readable_of_kept
    (hF : f ∈ firstLayout id ++ secondLayout id)
    (hKept : ¬ Dropped id f.name) :
    Readable id f := by
  refine ⟨readField f.name, ?_⟩
  intro vals data pc hFits hEncoded
  refine ⟨_, decodeOne_encoded hFits hF hEncoded, ?_⟩
  have hId :
      opcodeIdOf (encodeWord (firstLayout id) vals) = id := by
    have hBits :=
      bits_encodeFirst hFits (opcode_mem_firstLayout hF)
    exact hBits.trans hFits.opcode
  rcases List.mem_append.mp hF with hFirst | hSecond
  · rw [← bits_encodeFirst hFits hFirst]
    exact keeps_first hId hFirst hKept
  · rw [← bits_encodeSecond hFits hSecond]
    exact keeps_second hId hSecond hKept

/- Two assignments the conversion takes for one. -/
theorem not_readable_of_same
    {vals' : Assignment}
    {data data' : List U8}
    (hFits : Fits id vals)
    (hFits' : Fits id vals')
    (hEncoded : EncodedAt data pc id vals)
    (hEncoded' : EncodedAt data' pc id vals')
    (hSame :
      (decodeOne data pc).map DecodedInst.toIr =
        (decodeOne data' pc).map DecodedInst.toIr)
    (hOther :
      documented pc f.name (vals f.name) ≠
        documented pc f.name (vals' f.name)) :
    ¬ Readable id f := by
  rintro ⟨read, hRead⟩
  rcases hRead vals data pc hFits hEncoded with
    ⟨d, hD, hValue⟩
  rcases hRead vals' data' pc hFits' hEncoded' with
    ⟨d', hD', hValue'⟩
  rw [hD, hD', Option.map_some, Option.map_some,
    Option.some.injEq] at hSame
  rw [hSame, hValue'] at hValue
  exact hOther hValue.symm

/- All fields zero but the opcode and one other. -/
def probe
    (id : Nat)
    (name : FieldName)
    (v : Nat) : Assignment := fun n =>
  if n = .opcode then id else if n = name then v else 0

/- The bytes of a word, the lowest first. -/
def bytesOfWord (w : U64) : List U8 :=
  (List.range 8).map fun i => (w >>> (8 * i)).setWidth 8

def probeBytes
    (id : Nat)
    (name : FieldName)
    (v : Nat) : List U8 :=
  bytesOfWord (encodeWord (firstLayout id) (probe id name v))
    ++ bytesOfWord
      (encodeWord (secondLayout id) (probe id name v))

/- With no other field, only the opcode is not zero. -/
theorem probe_zero (id : Nat) (name : FieldName) :
    probe id name 0 = probe id .opcode id := by
  funext n
  unfold probe
  split_ifs <;> rfl

/- A word shifted down is its lowest byte and the rest. -/
theorem shiftRight_byte (w : U64) (i : Nat) :
    (w >>> (8 * (i + 1))) <<< 8 |||
        ((w >>> (8 * i)).setWidth 8).setWidth 64 =
      w >>> (8 * i) := by
  ext j hj
  simp only [BitVec.getElem_or, BitVec.getElem_shiftLeft,
    BitVec.getElem_setWidth, BitVec.getLsbD_setWidth,
    BitVec.getLsbD_ushiftRight, BitVec.getElem_ushiftRight]
  by_cases hLow : j < 8
  · simp [hLow]
  · have hPlace : 8 * (i + 1) + (j - 8) = 8 * i + j := by omega
    simp [hLow, hPlace]

theorem foldr_bytes (w : U64) (n i : Nat) :
    ((List.range' i n).map
        fun k => (w >>> (8 * k)).setWidth 8).foldr
      (fun (b : U8) (v : U64) =>
        (v <<< 8) ||| b.setWidth 64)
      (w >>> (8 * (i + n))) =
      w >>> (8 * i) := by
  induction n generalizing i with
  | zero => rfl
  | succ n ih =>
      rw [List.range'_succ, List.map_cons, List.foldr_cons,
        ← Nat.succ_add_eq_add_succ, ih]
      exact shiftRight_byte w i

/- A word is read back from its bytes. -/
theorem wordOfBytes_bytesOfWord (w : U64) :
    wordOfBytes (bytesOfWord w) = w := by
  have hZero : w >>> (8 * (0 + 8)) = 0 :=
    BitVec.ushiftRight_eq_zero (by decide)
  unfold wordOfBytes bytesOfWord
  rw [← hZero, List.range_eq_range', foldr_bytes]
  exact BitVec.ushiftRight_zero _

theorem encodedAt_probe (id : Nat) (name : FieldName) (v : Nat) :
    EncodedAt (probeBytes id name v) 0 id
      (probe id name v) where
  length := by simp [probeBytes, bytesOfWord]
  first :=
    congrArg some (wordOfBytes_bytesOfWord _)
  second _ :=
    congrArg some (wordOfBytes_bytesOfWord _)

/- What is checked for each probe. -/
def Probes (id : Nat) (name : FieldName) (v : Nat) : Prop :=
  (∀ g ∈ firstLayout id, probe id name v g.name < 2 ^ g.width) ∧
    Agree NamedField.range (fun g => probe id name v g.name)
      (firstLayout id) ∧
    ∀ g ∈ secondLayout id, probe id name v g.name < 2 ^ g.width

instance (id : Nat) (name : FieldName) (v : Nat) :
    Decidable (Probes id name v) :=
  inferInstanceAs (Decidable (_ ∧ _ ∧ _))

theorem Probes.fits
    {name : FieldName}
    {v : Nat}
    (hProbes : Probes id name v) :
    Fits id (probe id name v) :=
  ⟨rfl, hProbes.1, hProbes.2.1, hProbes.2.2⟩

theorem probes_opcode : ∀ id < 256, Probes id .opcode id := by
  decide +kernel

/- What a probe is decoded to. -/
def probed (id : Nat) (name : FieldName) (v : Nat) :
    ShaderInstruction :=
  (decodeFormat
    (encodeWord (firstLayout id) (probe id name v))
    (encodeSecond id (probe id name v)) 0
    (detectFormat id)).toIr

/-
  A dropped field may have its highest bit set, and whether it
  is set or not, the instruction is the same.
-/
theorem probes_dropped :
    ∀ id < 256, ∀ f ∈ firstLayout id ++ secondLayout id,
      Dropped id f.name →
        Probes id f.name (2 ^ (f.width - 1)) ∧
          probed id f.name 0 =
            probed id f.name (2 ^ (f.width - 1)) ∧
          documented 0 f.name 0 ≠
            documented 0 f.name (2 ^ (f.width - 1)) ∧
          f.name ≠ .opcode := by
  decide +kernel

theorem id_lt_of_mem
    (hF : f ∈ firstLayout id ++ secondLayout id) :
    id < 256 := by
  by_contra hLarge
  have hUnknown : detectFormat id = .Unknown := by
    unfold detectFormat
    split <;> first | rfl | omega
  simp [firstLayout, secondLayout, hUnknown] at hF

theorem not_readable_of_dropped
    (hF : f ∈ firstLayout id ++ secondLayout id)
    (hDropped : Dropped id f.name) :
    ¬ Readable id f := by
  have hId := id_lt_of_mem hF
  rcases probes_dropped id hId f hF hDropped with
    ⟨hProbes, hSame, hOther, hName⟩
  have hZero : Fits id (probe id f.name 0) := by
    rw [probe_zero]
    exact (probes_opcode id hId).fits
  refine
    not_readable_of_same hZero hProbes.fits
      (encodedAt_probe _ _ _) (encodedAt_probe _ _ _) ?_ ?_
  · rw [decodeOne_encoded hZero hF (encodedAt_probe _ _ _),
      decodeOne_encoded hProbes.fits hF
        (encodedAt_probe _ _ _)]
    exact congrArg some hSame
  · unfold probe
    rw [if_neg hName, if_pos rfl, if_neg hName, if_pos rfl]
    exact hOther

end MaxwellDecoder

end M1Switch
