import M1Switch.Gpu.Texture.TextureCache.Samplers

/-
  Sampler headers in guest memory.

  A header has its fields packed into bytes.  The levels of
  detail are read from bits that they share, and so are the
  bias of them and the anisotropy; the bias has no sign.

  Key definitions include:
    * `parseTSC`
    * `TscFields.Decodes`

  Main results:
    * `shared_of_decodes`
    * `decodes_entry`
    * `hasEntry_iff`
-/

------
-- Parsing
------

namespace M1Switch

namespace TextureCache

/- Two bytes, the first one low. -/
def tscHalf (low high : U8) : BitVec 16 :=
  low.setWidth 16 ||| (high.setWidth 16 <<< 8)

/- The four bytes of a float. -/
def tscFloat (entry : Nat → U8) (i : Nat) : F32Bits :=
  (tscHalf (entry i) (entry (i + 1))).setWidth 32 |||
    ((tscHalf (entry (i + 2)) (entry (i + 3))).setWidth 32
      <<< 16)

/- `(f32)n / 256.0f`. -/
def levelOfDetail (n : Int) : F32Bits :=
  Binary32.div (Binary32.ofInt n) 0x43800000

/- A sampler header of the pool, 32 bytes an entry. -/
def parseTSC
    (samplerPool : Option (Nat → U8))
    (offset : U64) : SamplerInfo :=
  match samplerPool with
  | none => {}
  | some pool =>
      let entry := fun i => pool (offset.toNat + i)
      let word0 := tscHalf (entry 0) (entry 1)
      let word1 := tscHalf (entry 4) (entry 5)
      { minFilter := ((word0 >>> 8) &&& 0xF).setWidth 32
        magFilter := ((word0 >>> 12) &&& 0xF).setWidth 32
        wrapU := (entry 2 &&& 0xF).setWidth 32
        wrapV := ((entry 2 >>> 4) &&& 0xF).setWidth 32
        wrapW := (entry 3 &&& 0xF).setWidth 32
        minLod := levelOfDetail (word1 &&& 0xFFF).toNat
        maxLod :=
          levelOfDetail ((word1 >>> 4) &&& 0xFFF).toNat
        lodBias :=
          levelOfDetail
            (tscHalf (entry 6) (entry 7 &&& 0x7F)).toInt
        anisotropy := ((entry 7 >>> 3) &&& 7).setWidth 32
        borderColor := fun i => tscFloat entry (8 + 4 * i) }

end TextureCache

------
-- Fields
------

open TextureCache

/- The fields of a header, each with all of its values. -/
structure TscFields where
  minFilter : BitVec 4
  magFilter : BitVec 4
  wrapU : BitVec 4
  wrapV : BitVec 4
  wrapW : BitVec 4
  minLod : BitVec 12
  maxLod : BitVec 12
  lodBias : BitVec 16
  anisotropy : BitVec 3

namespace TscFields

/- A sampler has exactly these fields; borders are free. -/
structure Decodes
    (fields : TscFields)
    (info : SamplerInfo) : Prop where
  minFilter : info.minFilter = fields.minFilter.setWidth 32
  magFilter : info.magFilter = fields.magFilter.setWidth 32
  wrapU : info.wrapU = fields.wrapU.setWidth 32
  wrapV : info.wrapV = fields.wrapV.setWidth 32
  wrapW : info.wrapW = fields.wrapW.setWidth 32
  minLod : info.minLod = levelOfDetail fields.minLod.toNat
  maxLod : info.maxLod = levelOfDetail fields.maxLod.toNat
  lodBias : info.lodBias = levelOfDetail fields.lodBias.toInt
  anisotropy : info.anisotropy = fields.anisotropy.setWidth 32

/- Bits of two fields that are the same bits of a header. -/
structure Shared (fields : TscFields) : Prop where
  lods :
    fields.maxLod.toNat % 2 ^ 8 = fields.minLod.toNat / 2 ^ 4
  bias :
    fields.anisotropy.toNat =
      fields.lodBias.toNat / 2 ^ 11 % 2 ^ 3
  sign : fields.lodBias.toNat < 2 ^ 15

variable {fields : TscFields}

theorem toNat_tscHalf (low high : U8) :
    (tscHalf low high).toNat =
      low.toNat + high.toNat * 2 ^ 8 := by
  have hLow := low.isLt
  have hHigh := high.isLt
  unfold tscHalf
  rw [BitVec.or_comm, BitVec.toNat_or, BitVec.toNat_shiftLeft,
    BitVec.toNat_setWidth, BitVec.toNat_setWidth,
    Nat.mod_eq_of_lt (show high.toNat < 2 ^ 16 by omega),
    Nat.mod_eq_of_lt (show low.toNat < 2 ^ 16 by omega),
    Nat.mod_eq_of_lt
      (by rw [Nat.shiftLeft_eq]; omega),
    ← Nat.shiftLeft_add_eq_or_of_lt hLow, Nat.shiftLeft_eq,
    Nat.add_comm]

/- A mask of low bits is a remainder. -/
theorem toNat_and_low
    {w k : Nat}
    (x : BitVec w)
    (mask : BitVec w)
    (hMask : mask.toNat = 2 ^ k - 1) :
    (x &&& mask).toNat = x.toNat % 2 ^ k := by
  rw [BitVec.toNat_and, hMask, Nat.and_two_pow_sub_one_eq_mod]

/- And one behind a shift. -/
theorem toNat_and_mask
    {w n k : Nat}
    (x : BitVec w)
    (mask : BitVec w)
    (hMask : mask.toNat = 2 ^ k - 1) :
    ((x >>> n) &&& mask).toNat = x.toNat / 2 ^ n % 2 ^ k := by
  rw [BitVec.toNat_and, hMask, BitVec.toNat_ushiftRight,
    Nat.and_two_pow_sub_one_eq_mod, Nat.shiftRight_eq_div_pow]

/- Levels of detail are told apart. -/
theorem levelOfDetail_inj
    {i j : Int}
    (hI : i.natAbs < 2 ^ 24)
    (hJ : j.natAbs < 2 ^ 24) :
    levelOfDetail i = levelOfDetail j ↔ i = j :=
  Binary32.div_ofInt_inj (e := 8) hI hJ
    ⟨by decide, by decide, by
      unfold Binary32.Finite
      decide⟩ (by decide)

end TscFields

------
-- Bits That Are Shared
------

open TextureCache

namespace TscFields

variable {fields : TscFields} {pool : Nat → U8}
variable {offset : U64}

/- The bias of a header is never negative. -/
theorem toInt_bias (low high : U8) :
    (tscHalf low (high &&& 0x7F)).toInt =
      (low.toNat + high.toNat % 2 ^ 7 * 2 ^ 8 : Nat) := by
  have hLow := low.isLt
  have hMask :
      (high &&& 0x7F).toNat = high.toNat % 2 ^ 7 :=
    toNat_and_low high 0x7F rfl
  have hRaw := toNat_tscHalf low (high &&& 0x7F)
  rw [hMask] at hRaw
  rw [BitVec.toInt_eq_toNat_of_lt (by omega), hRaw]

/- What a header decodes to has its shared bits twice. -/
theorem shared_of_decodes
    (hDecodes :
      fields.Decodes (parseTSC (some pool) offset)) :
    fields.Shared := by
  have hMin := fields.minLod.isLt
  have hMax := fields.maxLod.isLt
  have hBias := hDecodes.lodBias
  have hLow := hDecodes.minLod
  have hHigh := hDecodes.maxLod
  have hAniso := congrArg BitVec.toNat hDecodes.anisotropy
  unfold parseTSC at hBias hLow hHigh hAniso
  dsimp only at hBias hLow hHigh hAniso
  generalize pool (offset.toNat + 4) = byte4 at *
  generalize pool (offset.toNat + 5) = byte5 at *
  generalize pool (offset.toNat + 6) = byte6 at *
  generalize pool (offset.toNat + 7) = byte7 at *
  have hByte6 := byte6.isLt
  generalize tscHalf byte4 byte5 = word1 at *
  rw [toNat_and_low word1 0xFFF (k := 12) rfl] at hLow
  rw [toNat_and_mask word1 0xFFF (n := 4) (k := 12) rfl]
    at hHigh
  rw [BitVec.toNat_setWidth, BitVec.toNat_setWidth,
    toNat_and_mask byte7 7 (n := 3) (k := 3) rfl] at hAniso
  rw [toInt_bias] at hBias
  have hSigned := fields.lodBias.toInt_lt
  have hSigned' := fields.lodBias.le_toInt
  have hBounded := fields.anisotropy.isLt
  rw [levelOfDetail_inj (by omega) (by omega)] at hLow hHigh
  rw [levelOfDetail_inj (by omega) (by omega)] at hBias
  have hRaw :
      fields.lodBias.toNat =
        byte6.toNat + byte7.toNat % 2 ^ 7 * 2 ^ 8 := by
    rw [BitVec.toInt_eq_toNat_cond] at hBias
    omega
  refine ⟨by omega, by omega, by omega⟩

/- A header with these fields, as far as it can be. -/
def entry
    (fields : TscFields)
    (border : Fin 4 → F32Bits) : Nat → U8
| 1 =>
    .ofNat 8
      (fields.minFilter.toNat + fields.magFilter.toNat * 2 ^ 4)
| 2 =>
    .ofNat 8 (fields.wrapU.toNat + fields.wrapV.toNat * 2 ^ 4)
| 3 => .ofNat 8 fields.wrapW.toNat
| 4 =>
    .ofNat 8
      (fields.minLod.toNat % 2 ^ 4 +
        fields.maxLod.toNat * 2 ^ 4)
| 5 => .ofNat 8 (fields.maxLod.toNat / 2 ^ 4)
| 6 => .ofNat 8 fields.lodBias.toNat
| 7 => .ofNat 8 (fields.lodBias.toNat / 2 ^ 8)
| i =>
    if h : 8 ≤ i ∧ i < 24 then
      (border ⟨(i - 8) / 4, by omega⟩).extractLsb'
        (8 * (i % 4)) 8
    else 0

/- A byte of a border word. -/
theorem entry_border
    (border : Fin 4 → F32Bits)
    (i : Fin 4)
    {j : Nat}
    (hJ : j < 4) :
    entry fields border (8 + 4 * i + j) =
      (border i).extractLsb' (8 * j) 8 := by
  have hI := i.isLt
  have hWord : (8 + 4 * i.val + j - 8) / 4 = i.val := by omega
  have hPlace : (8 + 4 * i.val + j) % 4 = j := by omega
  have hRange :
      8 ≤ 8 + 4 * i.val + j ∧ 8 + 4 * i.val + j < 24 := by
    omega
  have hIndex :
      (⟨(8 + 4 * i.val + j - 8) / 4, by omega⟩ : Fin 4) = i :=
    Fin.ext hWord
  rw [entry, dif_pos hRange, hPlace, hIndex]
  all_goals omega

/- The bytes of a border word, put together again. -/
theorem tscFloat_entry
    (border : Fin 4 → F32Bits)
    (i : Fin 4) :
    tscFloat (entry fields border) (8 + 4 * i) = border i := by
  have hWord := (border i).isLt
  have hByte :
      ∀ {j : Nat}, j < 4 →
        (entry fields border (8 + 4 * i + j)).toNat =
          (border i).toNat / 2 ^ (8 * j) % 2 ^ 8 := by
    intro j hJ
    rw [entry_border border i hJ, BitVec.extractLsb'_toNat,
      Nat.shiftRight_eq_div_pow]
  have hFirst := hByte (show 0 < 4 by decide)
  have hSecond := hByte (show 1 < 4 by decide)
  have hThird := hByte (show 2 < 4 by decide)
  have hFourth := hByte (show 3 < 4 by decide)
  rw [Nat.add_zero] at hFirst
  have hLow :=
    toNat_tscHalf (entry fields border (8 + 4 * i))
      (entry fields border (8 + 4 * i + 1))
  have hHigh :=
    toNat_tscHalf (entry fields border (8 + 4 * i + 2))
      (entry fields border (8 + 4 * i + 3))
  apply BitVec.eq_of_toNat_eq
  unfold tscFloat
  rw [BitVec.or_comm, BitVec.toNat_or, BitVec.toNat_shiftLeft,
    BitVec.toNat_setWidth, BitVec.toNat_setWidth, hLow, hHigh,
    Nat.mod_eq_of_lt
      (by rw [Nat.shiftLeft_eq]; omega),
    Nat.mod_eq_of_lt (by omega),
    Nat.mod_eq_of_lt (by omega),
    ← Nat.shiftLeft_add_eq_or_of_lt (by omega),
    Nat.shiftLeft_eq]
  omega

/- A header with shared bits decodes to its fields. -/
theorem decodes_entry
    (hShared : fields.Shared)
    (border : Fin 4 → F32Bits)
    (offset : U64) :
    fields.Decodes
        (parseTSC
          (some fun i => entry fields border (i - offset.toNat))
          offset) ∧
      (parseTSC
          (some fun i => entry fields border (i - offset.toNat))
          offset).borderColor = border := by
  have hMinF := fields.minFilter.isLt
  have hMagF := fields.magFilter.isLt
  have hU := fields.wrapU.isLt
  have hV := fields.wrapV.isLt
  have hW := fields.wrapW.isLt
  have hMin := fields.minLod.isLt
  have hMax := fields.maxLod.isLt
  have hAniso := fields.anisotropy.isLt
  have hLods := hShared.lods
  have hBias := hShared.bias
  have hSign := hShared.sign
  unfold parseTSC
  simp only [Nat.add_sub_cancel_left]
  have hFilters :
      (tscHalf (entry fields border 0)
          (entry fields border 1)).toNat =
        (fields.minFilter.toNat +
          fields.magFilter.toNat * 2 ^ 4) * 2 ^ 8 := by
    rw [toNat_tscHalf]
    change 0 + _ % 2 ^ 8 * 2 ^ 8 = _
    omega
  have hLodBits :
      (tscHalf (entry fields border 4)
          (entry fields border 5)).toNat =
        fields.minLod.toNat % 2 ^ 4 +
          fields.maxLod.toNat * 2 ^ 4 := by
    rw [toNat_tscHalf]
    change _ % 2 ^ 8 + _ % 2 ^ 8 * 2 ^ 8 = _
    omega
  have hLow :
      (fields.minLod.toNat % 2 ^ 4 +
          fields.maxLod.toNat * 2 ^ 4) % 2 ^ 12 =
        fields.minLod.toNat := by
    omega
  have hHigh :
      (fields.minLod.toNat % 2 ^ 4 +
            fields.maxLod.toNat * 2 ^ 4) / 2 ^ 4 % 2 ^ 12 =
        fields.maxLod.toNat := by
    omega
  refine ⟨⟨?_, ?_, ?_, ?_, ?_, ?_, ?_, ?_, ?_⟩, ?_⟩
  · apply BitVec.eq_of_toNat_eq
    rw [BitVec.toNat_setWidth, BitVec.toNat_setWidth,
      toNat_and_mask _ 0xF (n := 8) (k := 4) rfl, hFilters]
    omega
  · apply BitVec.eq_of_toNat_eq
    rw [BitVec.toNat_setWidth, BitVec.toNat_setWidth,
      toNat_and_mask _ 0xF (n := 12) (k := 4) rfl, hFilters]
    omega
  · apply BitVec.eq_of_toNat_eq
    rw [BitVec.toNat_setWidth, BitVec.toNat_setWidth,
      toNat_and_low _ 0xF (k := 4) rfl]
    change _ % 2 ^ 8 % 2 ^ 4 % 2 ^ 32 = _
    omega
  · apply BitVec.eq_of_toNat_eq
    rw [BitVec.toNat_setWidth, BitVec.toNat_setWidth,
      toNat_and_mask _ 0xF (n := 4) (k := 4) rfl]
    change _ % 2 ^ 8 / 2 ^ 4 % 2 ^ 4 % 2 ^ 32 = _
    omega
  · apply BitVec.eq_of_toNat_eq
    rw [BitVec.toNat_setWidth, BitVec.toNat_setWidth,
      toNat_and_low _ 0xF (k := 4) rfl]
    change _ % 2 ^ 8 % 2 ^ 4 % 2 ^ 32 = _
    omega
  · rw [toNat_and_low _ 0xFFF (k := 12) rfl, hLodBits, hLow]
  · rw [toNat_and_mask _ 0xFFF (n := 4) (k := 12) rfl,
      hLodBits, hHigh]
  · rw [toInt_bias, BitVec.toInt_eq_toNat_of_lt (by omega)]
    change
      levelOfDetail
          ((_ % 2 ^ 8 + _ % 2 ^ 8 % 2 ^ 7 * 2 ^ 8 : Nat) :
            Int) =
        _
    congr 2
    omega
  · apply BitVec.eq_of_toNat_eq
    rw [BitVec.toNat_setWidth, BitVec.toNat_setWidth,
      toNat_and_mask _ 7 (n := 3) (k := 3) rfl]
    change _ % 2 ^ 8 / 2 ^ 3 % 2 ^ 3 % 2 ^ 32 = _
    omega
  · funext i
    exact tscFloat_entry border i

/-
  Some header has these fields exactly if the bits that are
  read for two of them agree, and the bias is not negative.
-/
theorem hasEntry_iff
    (fields : TscFields)
    (offset : U64) :
    (∃ pool, fields.Decodes (parseTSC (some pool) offset)) ↔
      fields.Shared := by
  constructor
  · rintro ⟨pool, hDecodes⟩
    exact shared_of_decodes hDecodes
  · intro hShared
    exact ⟨_, (decodes_entry hShared (fun _ => 0) offset).1⟩

/- All levels of detail. -/
def unboundedFields : TscFields :=
  { minFilter := 1
    magFilter := 1
    wrapU := 0
    wrapV := 0
    wrapW := 0
    minLod := 0
    maxLod := 0xFFF
    lodBias := 0
    anisotropy := 0 }

/- No header has levels of detail from the first to the last. -/
theorem unbounded_has_no_entry :
    ¬ ∃ pool,
      unboundedFields.Decodes (parseTSC (some pool) 0) := by
  rintro ⟨pool, hDecodes⟩
  exact absurd (shared_of_decodes hDecodes).lods (by decide)

end TscFields

end M1Switch
