import M1Switch.Common.Types
import M1Switch.Library.Binary32
import M1Switch.Library.EventRun
import Mathlib.Data.Finmap

/-
  Samplers, and the cache they are kept in.

  The key of a sampler takes in its border colour as the
  exclusive or of its two halves.  Colours that differ, such
  as two greys, can have equal keys, and then one is sampled
  with the border of the other.

  Key definitions include:
    * `SamplerInfo`
    * `makeSamplerKey`

  Main results:
    * `keyed_run`
    * `makeSamplerKey_border_iff`
    * `separated_iff`
-/

------
-- Samplers
------

namespace M1Switch

structure SamplerInfo where
  minFilter : U32 := 0
  magFilter : U32 := 0
  wrapU : U32 := 0
  wrapV : U32 := 0
  wrapW : U32 := 0
  minLod : F32Bits := 0
  maxLod : F32Bits := 0x447A0000
  lodBias : F32Bits := 0
  anisotropy : BitVec 32 := 0
  borderColor : Fin 4 → F32Bits := fun _ => 0

inductive SamplerFilter where
| nearest
| linear
deriving DecidableEq

inductive SamplerAddressMode where
| repeats
| mirrorRepeat
| clampToEdge
| clampToBorderColor
| mirrorClampToEdge
deriving DecidableEq

inductive SamplerBorderColor where
| transparentBlack
| opaqueBlack
| opaqueWhite
deriving DecidableEq

/- What a sampler is made from, as Metal has it. -/
structure SamplerDescriptor where
  minFilter : SamplerFilter
  mipFilter : SamplerFilter
  magFilter : SamplerFilter
  sAddressMode : SamplerAddressMode
  tAddressMode : SamplerAddressMode
  rAddressMode : SamplerAddressMode
  lodMinClamp : F32Bits
  lodMaxClamp : F32Bits
  lodBias : F32Bits
  maxAnisotropy : U32 := 1
  borderColor : SamplerBorderColor := .transparentBlack
deriving DecidableEq

namespace SamplerCache

/- Filters that are not linear are nearest. -/
def toMtlFilter (filter : U32) : SamplerFilter :=
  if filter = 1 then .linear else .nearest

def toMtlWrap (m : U32) : SamplerAddressMode :=
  if m = 0 then .repeats
  else if m = 1 then .mirrorRepeat
  else if m = 2 then .clampToEdge
  else if m = 3 then .clampToBorderColor
  else if m = 4 then .clampToEdge
  else if m = 5 then .mirrorClampToEdge
  else .clampToEdge

section BorderColors

open Binary32

def sq (x : F32Bits) : F32Bits :=
  mul x x

/- `x - 1.0f`. -/
def subOne (x : F32Bits) : F32Bits :=
  add x (neg one)

/- `x <= y` of two floats. -/
def LessEqual (x y : F32Bits) : Prop :=
  Less x y ∨ Equal x y

instance (x y : F32Bits) : Decidable (LessEqual x y) :=
  inferInstanceAs (Decidable (_ ∨ _))

/- The nearest of the colours that Metal has for borders. -/
def mapBorderColor (bc : Fin 4 → F32Bits) :
    SamplerBorderColor :=
  let transparent :=
    add (add (add (sq (bc 0)) (sq (bc 1))) (sq (bc 2)))
      (sq (bc 3))
  let opaqueBlack :=
    add (add (add (sq (bc 0)) (sq (bc 1))) (sq (bc 2)))
      (sq (subOne (bc 3)))
  let opaqueWhite :=
    add
      (add
        (add (sq (subOne (bc 0))) (sq (subOne (bc 1))))
        (sq (subOne (bc 2))))
      (sq (subOne (bc 3)))
  if LessEqual opaqueWhite opaqueBlack ∧
      LessEqual opaqueWhite transparent then .opaqueWhite
  else if LessEqual opaqueBlack transparent then .opaqueBlack
  else .transparentBlack

end BorderColors

/- One of 2, 4, 8 and 16, or not set. -/
def toMaxAnisotropy (anisotropy : BitVec 32) : U32 :=
  if 0 < anisotropy.toInt ∧ anisotropy.toInt ≤ 4 then
    1 <<< anisotropy.toNat
  else 1

/- The descriptor that `GetOrCreateSampler` fills in. -/
def samplerDescriptor (info : SamplerInfo) :
    SamplerDescriptor :=
  { minFilter := toMtlFilter info.minFilter
    mipFilter := toMtlFilter info.minFilter
    magFilter := toMtlFilter info.magFilter
    sAddressMode := toMtlWrap info.wrapU
    tAddressMode := toMtlWrap info.wrapV
    rAddressMode := toMtlWrap info.wrapW
    lodMinClamp := info.minLod
    lodMaxClamp := info.maxLod
    lodBias := info.lodBias
    maxAnisotropy := toMaxAnisotropy info.anisotropy
    borderColor :=
      if info.wrapU = 3 ∨ info.wrapV = 3 ∨ info.wrapW = 3 then
        mapBorderColor info.borderColor
      else .transparentBlack }

/- Two of the words of a border colour, the first one low. -/
def borderHalf (low high : F32Bits) : U64 :=
  low.setWidth 64 ||| (high.setWidth 64 <<< 32)

/- `(u64)(f * 256.0f)`. -/
def scaled (f : F32Bits) : U64 :=
  Binary32.toUnsigned (Binary32.mul f 0x43800000)

/- All fields but the border; the anisotropy has a sign. -/
def fieldKey (info : SamplerInfo) : U64 :=
  info.minFilter.setWidth 64 ^^^
    (info.magFilter.setWidth 64 <<< 4) ^^^
    (info.wrapU.setWidth 64 <<< 8) ^^^
    (info.wrapV.setWidth 64 <<< 12) ^^^
    (info.wrapW.setWidth 64 <<< 16) ^^^
    (scaled info.minLod <<< 20) ^^^
    (scaled info.maxLod <<< 32) ^^^
    (info.anisotropy.signExtend 64 <<< 44) ^^^
    (scaled info.lodBias <<< 48)

/- The halves of the border colour are folded into one. -/
def makeSamplerKey (info : SamplerInfo) : U64 :=
  let bcLo :=
    borderHalf (info.borderColor 0) (info.borderColor 1)
  let bcHi :=
    borderHalf (info.borderColor 2) (info.borderColor 3)
  fieldKey info ^^^ (bcLo ^^^ bcHi)

end SamplerCache

------
-- The Cache Of Samplers
------

/- A Metal sampler: its identity, and its origin. -/
structure SamplerState where
  serial : Nat
  info : SamplerInfo

/- Which samplers the device is able to make. -/
structure SamplerDevice where
  newSamplerState : SamplerDescriptor → Bool

/- `sampler_cache_`, with the number of samplers made. -/
structure SamplerCache where
  samplers : Finmap fun _ : U64 => SamplerState := ∅
  created : Nat := 0

namespace SamplerCache

variable (device : SamplerDevice) (cache : SamplerCache)

/- Behind a miss: the sampler is made, and kept if it was. -/
def createSampler (info : SamplerInfo) :
    Option SamplerState × SamplerCache :=
  if device.newSamplerState (samplerDescriptor info) then
    let sampler := { serial := cache.created, info := info }
    (some sampler,
      { samplers :=
          cache.samplers.insert (makeSamplerKey info) sampler
        created := cache.created + 1 })
  else (none, cache)

def getOrCreateSampler (info : SamplerInfo) :
    Option SamplerState × SamplerCache :=
  match cache.samplers.lookup (makeSamplerKey info) with
  | some sampler => (some sampler, cache)
  | none => createSampler device cache info

/- What happens to the cache while the lock is held. -/
inductive SamplerOp where
| createSampler (info : SamplerInfo)
| flush

def step
    (cache : SamplerCache) :
    SamplerOp → SamplerCache
| .createSampler info => (createSampler device cache info).2
| .flush => { cache with samplers := ∅ }

/- Samplers are kept under their keys. -/
def Keyed : Prop :=
  ∀ key sampler,
    cache.samplers.lookup key = some sampler →
      makeSamplerKey sampler.info = key

/- The sampler of the second is not returned for the first. -/
def NeverReturns (info info' : SamplerInfo) : Prop :=
  ∀ (device : SamplerDevice) (ops : List SamplerOp) sampler,
    (getOrCreateSampler device
        (EventRun.stateAfter (step device) {} ops)
        info).1 = some sampler →
      sampler.info ≠ info'

/- Two samplers with keys of their own are not mixed up. -/
structure Separated (info info' : SamplerInfo) : Prop where
  keys : makeSamplerKey info ≠ makeSamplerKey info'
  first : NeverReturns info info'
  second : NeverReturns info' info

variable {device} {cache} {info info' : SamplerInfo}

theorem Keyed.createSampler
    (hKeyed : Keyed cache) :
    Keyed (createSampler device cache info).2 := by
  unfold SamplerCache.createSampler
  split_ifs
  · intro key sampler hSome
    by_cases hKey : key = makeSamplerKey info
    · subst hKey
      dsimp only at hSome
      rw [Finmap.lookup_insert, Option.some_inj] at hSome
      rw [← hSome]
    · dsimp only at hSome
      rw [Finmap.lookup_insert_of_ne _ hKey] at hSome
      exact hKeyed key sampler hSome
  · exact hKeyed

theorem keyed_step
    (op : SamplerOp)
    (hKeyed : Keyed cache) :
    Keyed (step device cache op) := by
  cases op with
  | createSampler info => exact hKeyed.createSampler
  | flush =>
      intro key sampler hSome
      cases hSome

theorem keyed_run
    (device : SamplerDevice)
    (ops : List SamplerOp) :
    Keyed (EventRun.stateAfter (step device) {} ops) := by
  refine EventRun.invariant (I := fun _ cache => Keyed cache)
    ?_ ?_ ops
  · intro key sampler hSome
    cases hSome
  · intro before op hKeyed
    exact keyed_step op hKeyed

/- Whatever is returned has the key that was asked for. -/
theorem makeSamplerKey_of_returned
    {sampler : SamplerState}
    (hKeyed : Keyed cache)
    (hSampler :
      (getOrCreateSampler device cache info).1 =
        some sampler) :
    makeSamplerKey sampler.info = makeSamplerKey info := by
  unfold getOrCreateSampler at hSampler
  cases hFound :
      cache.samplers.lookup (makeSamplerKey info) with
  | some held =>
      rw [hFound] at hSampler
      cases hSampler
      exact hKeyed _ sampler hFound
  | none =>
      rw [hFound] at hSampler
      dsimp only at hSampler
      unfold SamplerCache.createSampler at hSampler
      split_ifs at hSampler
      · cases hSampler
        rfl

theorem neverReturns_of_key
    (hKey : makeSamplerKey info ≠ makeSamplerKey info') :
    NeverReturns info info' := by
  intro device ops sampler hSampler hEq
  have hSame :=
    makeSamplerKey_of_returned (keyed_run device ops) hSampler
  rw [hEq] at hSame
  exact hKey hSame.symm

/- A key that is shared gives the sampler away. -/
theorem not_neverReturns
    (hKey : makeSamplerKey info = makeSamplerKey info') :
    ¬ NeverReturns info info' := by
  intro hNever
  refine hNever { newSamplerState := fun _ => true }
    [.createSampler info'] ⟨0, info'⟩ ?_ rfl
  have hHit :
      (EventRun.stateAfter
          (step { newSamplerState := fun _ => true }) {}
          [.createSampler info']).samplers.lookup
            (makeSamplerKey info) = some ⟨0, info'⟩ := by
    rw [hKey]
    exact Finmap.lookup_insert _
  unfold getOrCreateSampler
  rw [hHit]

------
-- Border Colours
------

variable {low high low' high' : F32Bits}

/- The sampler with another border. -/
def withBorder
    (info : SamplerInfo)
    (border : Fin 4 → F32Bits) : SamplerInfo :=
  { info with borderColor := border }

theorem getLsbD_borderHalf
    {i : Nat}
    (hI : i < 64) :
    (borderHalf low high).getLsbD i =
      if i < 32 then low.getLsbD i
      else high.getLsbD (i - 32) := by
  unfold borderHalf
  rw [BitVec.getLsbD_or, BitVec.getLsbD_setWidth,
    BitVec.getLsbD_shiftLeft, BitVec.getLsbD_setWidth]
  split_ifs with hLow
  · simp [hI, hLow]
  · rw [BitVec.getLsbD_of_ge low i (Nat.le_of_not_lt hLow)]
    have hRest : i - 32 < 64 := by omega
    simp [hI, hLow, hRest]

theorem borderHalf_inj :
    borderHalf low high = borderHalf low' high' ↔
      low = low' ∧ high = high' := by
  constructor
  · intro hSame
    constructor
    · apply BitVec.eq_of_getLsbD_eq
      intro i hI
      have hBit := congrArg (fun half => half.getLsbD i) hSame
      rw [getLsbD_borderHalf (by omega),
        getLsbD_borderHalf (by omega), if_pos hI, if_pos hI]
        at hBit
      exact hBit
    · apply BitVec.eq_of_getLsbD_eq
      intro i hI
      have hBit :=
        congrArg (fun half => half.getLsbD (i + 32)) hSame
      rw [getLsbD_borderHalf (by omega),
        getLsbD_borderHalf (by omega), if_neg (by omega),
        if_neg (by omega), Nat.add_sub_cancel] at hBit
      exact hBit
  · rintro ⟨hLow, hHigh⟩
    rw [hLow, hHigh]

/- The words of one half go with those of the other. -/
theorem borderHalf_xor :
    borderHalf low high ^^^ borderHalf low' high' =
      borderHalf (low ^^^ low') (high ^^^ high') := by
  apply BitVec.eq_of_getLsbD_eq
  intro i hI
  rw [BitVec.getLsbD_xor, getLsbD_borderHalf hI,
    getLsbD_borderHalf hI, getLsbD_borderHalf hI]
  split_ifs
  · rw [BitVec.getLsbD_xor]
  · rw [BitVec.getLsbD_xor]

/- What the border adds to the key of the other fields. -/
theorem makeSamplerKey_withBorder
    (info : SamplerInfo)
    (border : Fin 4 → F32Bits) :
    makeSamplerKey (withBorder info border) =
      fieldKey info ^^^
        borderHalf (border 0 ^^^ border 2)
          (border 1 ^^^ border 3) := by
  rw [← borderHalf_xor]
  rfl

/- The keys of two borders, by the words that share bits. -/
theorem makeSamplerKey_border_iff
    (info : SamplerInfo)
    (border border' : Fin 4 → F32Bits) :
    makeSamplerKey (withBorder info border) ≠
        makeSamplerKey (withBorder info border') ↔
      border 0 ^^^ border 2 ≠ border' 0 ^^^ border' 2 ∨
        border 1 ^^^ border 3 ≠ border' 1 ^^^ border' 3 := by
  rw [makeSamplerKey_withBorder, makeSamplerKey_withBorder,
    ne_eq, BitVec.xor_right_inj, borderHalf_inj]
  exact not_and_or

/-
  Two borders are told apart exactly if the exclusive or of
  red and blue differs, or that of green and alpha.
-/
theorem separated_iff
    (info : SamplerInfo)
    (border border' : Fin 4 → F32Bits) :
    Separated (withBorder info border)
        (withBorder info border') ↔
      border 0 ^^^ border 2 ≠ border' 0 ^^^ border' 2 ∨
        border 1 ^^^ border 3 ≠ border' 1 ^^^ border' 3 := by
  rw [← makeSamplerKey_border_iff info]
  constructor
  · intro hSeparated
    exact hSeparated.keys
  · intro hKey
    exact ⟨hKey, neverReturns_of_key hKey,
      neverReturns_of_key hKey.symm⟩

/- The border of opaque white, and that of no colour. -/
def clampInfo : SamplerInfo :=
  { wrapU := 3 }

theorem white_not_separated :
    (fun _ => Binary32.one : Fin 4 → F32Bits) ≠
        (fun _ => 0) ∧
      makeSamplerKey
          (withBorder clampInfo fun _ => Binary32.one) =
        makeSamplerKey (withBorder clampInfo fun _ => 0) ∧
      samplerDescriptor
          (withBorder clampInfo fun _ => Binary32.one) ≠
        samplerDescriptor (withBorder clampInfo fun _ => 0) ∧
      ¬ NeverReturns
        (withBorder clampInfo fun _ => Binary32.one)
        (withBorder clampInfo fun _ => 0) := by
  have hKey :
      makeSamplerKey
          (withBorder clampInfo fun _ => Binary32.one) =
        makeSamplerKey (withBorder clampInfo fun _ => 0) := by
    decide +kernel
  refine ⟨?_, hKey, ?_, not_neverReturns hKey⟩
  · intro hSame
    exact absurd (congrFun hSame 0) (by decide)
  · decide +kernel

end SamplerCache

end M1Switch
