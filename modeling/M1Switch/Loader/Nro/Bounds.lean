import M1Switch.Loader.Nro
import M1Switch.Loader.Nro.Extent

/-
  Where a load of an NRO reads and writes.

  Segments are copied without a check against the size of the
  file, nor are the targets of relocations checked against what
  is mapped, nor the offsets of the patches for one title.

  Key definitions include:
    * `NroLoader.EntryInside`
    * `NroLoader.TitleInside`

  Main results:
    * `contained_iff`
-/

------
-- Relocations
------

namespace M1Switch

namespace NroLoader

open NroGuest (KeepsMap pointer)

variable {header : NroPackedHeader} {dyn : DynInfo}
variable {buf : NroBuffer} {g g' : NroGuest}
variable {size extent : Nat}

/- The symbol of an entry is not read across the end of all
offsets. -/
def SymbolInside
    (header : NroPackedHeader)
    (dyn : DynInfo)
    (buf : NroBuffer)
    (rInfo : U64) : Prop :=
  let type := rInfo &&& 0xFFFFFFFF
  let sym := rInfo >>> 32
  (type = R_AARCH64_ABS64 ∨ type = R_AARCH64_GLOB_DAT) ∧
      symFileOff header dyn ≠ 0 ∧ sym < nsyms header dyn →
    symFileOff header dyn + sym * 24 + 8 + 8 ≤ buf.size →
      (symFileOff header dyn + sym * 24 + 8).toNat + 8 ≤
        buf.size.toNat

/- An entry is in the file, so is its symbol, and what it writes
is in the extent. -/
structure EntryInside
    (header : NroPackedHeader)
    (dyn : DynInfo)
    (buf : NroBuffer)
    (extent : Nat)
    (ri : U64) : Prop where
  entry :
    (relaEntryOff header dyn ri).toNat + 24 ≤ buf.size.toNat
  symbol :
    SymbolInside header dyn buf
      (buf.get64 (relaEntryOff header dyn ri + 8))
  target :
    ∀ reloc, relocationAt header dyn buf ri = some reloc →
      WriteInside extent reloc.1 8

theorem meets_relocation
    (hSize : buf.size.toNat = size)
    {rOff rInfo rAdd : U64} :
    (relocation header dyn buf rOff rInfo rAdd).Meets
        (Access.InBounds size) ↔
      SymbolInside header dyn buf rInfo := by
  have hTypes : R_AARCH64_RELATIVE ≠ R_AARCH64_ABS64 ∧
      R_AARCH64_RELATIVE ≠ R_AARCH64_GLOB_DAT := by decide
  unfold relocation SymbolInside
  dsimp only
  by_cases hRelative : rInfo &&& 0xFFFFFFFF = R_AARCH64_RELATIVE
  · rw [if_pos hRelative, hRelative]
    refine iff_of_true (Logged.meets_pure _) ?_
    rintro ⟨hAbs | hGlob, _⟩
    · exact absurd hAbs hTypes.1
    · exact absurd hGlob hTypes.2
  · rw [if_neg hRelative]
    by_cases hType :
        rInfo &&& 0xFFFFFFFF = R_AARCH64_ABS64 ∨
          rInfo &&& 0xFFFFFFFF = R_AARCH64_GLOB_DAT
    · rw [if_pos hType]
      by_cases hSym :
          symFileOff header dyn ≠ 0 ∧
            rInfo >>> 32 < nsyms header dyn
      · rw [if_pos hSym,
          Logged.meets_bind_of_some (value_read64 _),
          meets_read64, hSize]
        exact
          ⟨fun hBoth _ => hBoth.1,
            fun hAll => ⟨hAll ⟨hType, hSym⟩, Logged.meets_pure _⟩⟩
      · rw [if_neg hSym]
        exact
          iff_of_true (Logged.meets_pure _)
            fun hBoth => absurd hBoth.2 hSym
    · rw [if_neg hType]
      exact
        iff_of_true (Logged.meets_pure _)
          fun hBoth => absurd hBoth.1 hType

theorem meets_applyRelocation
    (hMaps : MapsExtent g extent)
    (reloc : Option (U64 × U64)) :
    (applyRelocation g reloc).Meets (Access.InBounds size) ↔
      ∀ r, reloc = some r → WriteInside extent r.1 8 := by
  cases reloc with
  | none =>
      refine iff_of_true (Logged.meets_pure _) ?_
      intro r hR
      simp at hR
  | some r =>
      simp only [Option.some.injEq, forall_eq']
      exact meets_write hMaps

/- Three double words that are checked as one entry. -/
theorem entry_inside_iff
    (hSize : buf.size.toNat = size)
    {ro : U64}
    (hFits : ro + 24 ≤ buf.size) :
    (ro + 8 ≤ buf.size → ro.toNat + 8 ≤ size) ∧
        (ro + 8 + 8 ≤ buf.size → (ro + 8).toNat + 8 ≤ size) ∧
        (ro + 16 + 8 ≤ buf.size → (ro + 16).toNat + 8 ≤ size) ↔
      ro.toNat + 24 ≤ size := by
  have hHalf := buf.size_lt
  have hRo := ro.isLt
  simp only [BitVec.le_def, BitVec.toNat_add, hSize] at hFits ⊢
  change (ro.toNat + 24) % 2 ^ 64 ≤ size at hFits
  change
    ((ro.toNat + 8) % 2 ^ 64 ≤ size → ro.toNat + 8 ≤ size) ∧
        (((ro.toNat + 8) % 2 ^ 64 + 8) % 2 ^ 64 ≤ size →
          (ro.toNat + 8) % 2 ^ 64 + 8 ≤ size) ∧
        (((ro.toNat + 16) % 2 ^ 64 + 8) % 2 ^ 64 ≤ size →
          (ro.toNat + 16) % 2 ^ 64 + 8 ≤ size) ↔
      ro.toNat + 24 ≤ size
  omega

theorem meets_relaRound
    (hSize : buf.size.toNat = size)
    {s : U64 × NroGuest}
    (hMaps : MapsExtent s.2 extent)
    (hOn : Relocates header dyn buf s.1) :
    (relaRound header dyn buf s).Meets (Access.InBounds size) ↔
      EntryInside header dyn buf extent s.1 := by
  rw [relaRound_on hOn]
  dsimp only
  rw [Logged.meets_bind_of_some (value_read64 _),
    Logged.meets_bind_of_some (value_read64 _),
    Logged.meets_bind_of_some (value_read64 _),
    Logged.meets_bind_of_some (value_relocation _ _ _),
    meets_read64, meets_read64, meets_read64,
    meets_relocation hSize,
    meets_then hMaps (meets_applyRelocation hMaps _)
      (fun _ => keepsMap_applyRelocation)
      (fun _ _ => iff_true_intro (Logged.meets_pure _))]
  have hEntry :=
    entry_inside_iff hSize (BitVec.not_lt.mp hOn.2)
  constructor
  · rintro ⟨h₁, h₂, h₃, hSymbol, hTarget, _⟩
    exact
      ⟨hSize ▸ hEntry.mp ⟨h₁, h₂, h₃⟩, hSymbol, hTarget⟩
  · rintro ⟨hInside, hSymbol, hTarget⟩
    rcases hEntry.mpr (hSize ▸ hInside) with ⟨h₁, h₂, h₃⟩
    exact ⟨h₁, h₂, h₃, hSymbol, hTarget, trivial⟩

/- An entry is reached if no entry before it ends the loop. -/
def RelocationReached
    (header : NroPackedHeader)
    (dyn : DynInfo)
    (buf : NroBuffer)
    (ri : U64) : Prop :=
  (dyn.relaOff > 0 ∧ dyn.relaSz > 0 ∧ dyn.relaEnt ≥ 24) ∧
    ∀ rj ≤ ri, Relocates header dyn buf rj

/- All entries that are reached are inside. -/
def RelocationsInside
    (header : NroPackedHeader)
    (dyn : DynInfo)
    (buf : NroBuffer)
    (extent : Nat) : Prop :=
  ∀ ri, RelocationReached header dyn buf ri →
    EntryInside header dyn buf extent ri

/- A round that meets it leads to the next entry. -/
theorem relaRound_again
    {s : U64 × NroGuest}
    {P : Access → Prop}
    (hOn : Relocates header dyn buf s.1)
    (hMeets : (relaRound header dyn buf s).Meets P) :
    ∃ g, (relaRound header dyn buf s).value =
        some (.again (s.1 + 1, g)) ∧ KeepsMap s.2 g := by
  rcases hMeets.exists_value with ⟨next, hNext⟩
  rcases (value_relaRound hOn).mp hNext with ⟨g, hG, hEq⟩
  exact ⟨g, hEq ▸ hNext, keepsMap_applyRelocation hG⟩

/- The loop comes to every entry that is reached. -/
theorem reaches_relocation
    (hMaps : MapsExtent g extent)
    {fuel : Nat}
    (hMeets :
      (Logged.loop (relaRound header dyn buf) fuel
        ((0 : U64), g)).Meets (Access.InBounds size))
    (n : Nat)
    (hReached :
      ∀ m ≤ n, Relocates header dyn buf (BitVec.ofNat 64 m)) :
    ∃ g', Logged.Reaches (relaRound header dyn buf)
        ((0 : U64), g) (BitVec.ofNat 64 n, g') ∧
      MapsExtent g' extent := by
  induction n with
  | zero => exact ⟨g, .refl _, hMaps⟩
  | succ n ih =>
      rcases ih fun m hM => hReached m (by omega) with
        ⟨g₁, hReaches, hMaps₁⟩
      rcases relaRound_again (s := (BitVec.ofNat 64 n, g₁))
          (hReached n (by omega)) (hMeets.reached hReaches) with
        ⟨g₂, hRound, hKeeps⟩
      have hNext :
          BitVec.ofNat 64 n + 1 = BitVec.ofNat 64 (n + 1) := by
        rw [BitVec.ofNat_add]
        rfl
      dsimp only at hRound
      rw [hNext] at hRound
      exact ⟨g₂, hReaches.concat hRound, hMaps₁.keeps hKeeps⟩

theorem meets_relocate
    (hSize : buf.size.toNat = size)
    (hMaps : MapsExtent g extent)
    {fuel : Nat}
    (hFuel : 100000 < fuel) :
    (relocate header dyn fuel buf g).Meets
        (Access.InBounds size) ↔
      RelocationsInside header dyn buf extent := by
  unfold relocate RelocationsInside
  by_cases hSome :
      dyn.relaOff > 0 ∧ dyn.relaSz > 0 ∧ dyn.relaEnt ≥ 24
  · rw [if_pos hSome]
    constructor
    · rintro hMeets ri ⟨_, hReached⟩
      have hLess := ri.isLt
      have hNum : BitVec.ofNat 64 ri.toNat = ri := by simp
      have hBefore :
          ∀ m ≤ ri.toNat,
            Relocates header dyn buf (BitVec.ofNat 64 m) := by
        intro m hM
        apply hReached
        rw [BitVec.le_def, BitVec.toNat_ofNat,
          Nat.mod_eq_of_lt (by omega)]
        exact hM
      rcases reaches_relocation hMaps hMeets ri.toNat hBefore
        with ⟨g', hReaches, hMaps'⟩
      rw [hNum] at hReaches
      exact
        (meets_relaRound (s := (ri, g')) hSize hMaps'
          (hReached ri (BitVec.le_refl ri))).mp
            (hMeets.reached hReaches)
    · intro hInside
      apply
        Logged.meets_loop
          (I := fun s : U64 × NroGuest =>
            MapsExtent s.2 extent ∧
              ∀ rj < s.1, Relocates header dyn buf rj)
          (fun s => 100000 - s.1.toNat)
      · rintro s ⟨hMaps', hBefore⟩
        by_cases hOn : Relocates header dyn buf s.1
        · rw [meets_relaRound hSize hMaps' hOn]
          apply hInside
          refine ⟨hSome, fun rj hLe => ?_⟩
          by_cases hLast : rj = s.1
          · exact hLast ▸ hOn
          · exact hBefore rj (BitVec.lt_of_le_ne hLe hLast)
        · rw [relaRound_off hOn]
          exact Logged.meets_pure _
      · rintro s s' ⟨hMaps', hBefore⟩ hRound
        by_cases hOn : Relocates header dyn buf s.1
        · rcases (value_relaRound hOn).mp hRound with
            ⟨g', hG, hNext⟩
          have hSucc := toNat_succ hOn.1.2
          have hNat : s.1.toNat < 100000 := hOn.1.2
          rw [Round.again.inj hNext]
          refine
            ⟨⟨hMaps'.keeps (keepsMap_applyRelocation hG),
              fun rj hLess => ?_⟩, ?_⟩
          · rw [BitVec.lt_def, hSucc] at hLess
            by_cases hLast : rj = s.1
            · exact hLast ▸ hOn
            · apply hBefore rj
              apply BitVec.lt_of_le_ne ?_ hLast
              rw [BitVec.le_def]
              omega
          · simp only [hSucc]
            omega
        · rw [relaRound_off hOn] at hRound
          simp at hRound
      · refine ⟨hMaps, fun rj hLess => ?_⟩
        exact absurd hLess (by simp)
      · show 100000 - 0 < fuel
        omega
  · rw [if_neg hSome]
    refine iff_of_true (Logged.meets_pure _) ?_
    rintro ri ⟨hYes, _⟩
    exact absurd hYes hSome

------
-- Patches at Fixed Offsets
------

open NroGuest (pointer)

/- The start-up code is in the first page. -/
theorem safe_patchCrt0
    (hMaps : MapsExtent g extent)
    (hPage : 0x4000 ≤ extent) :
    (patchCrt0 header g).Meets (Access.InBounds size) := by
  have hPtr :
      (pointer NRO_TEXT_BASE + 0xD8).toNat = textHost + 0xD8 := by
    decide
  have hIn :
      InExtent extent (pointer NRO_TEXT_BASE + 0xD8).toNat 4 := by
    intro _
    rw [hPtr]
    omega
  unfold patchCrt0
  split
  · rw [Logged.meets_bind, meets_word]
    refine ⟨mapped_of_inExtent hMaps hIn, fun inst _ => ?_⟩
    split
    · rw [meets_patch hMaps]
      exact hIn
    · exact Logged.meets_pure _
  · exact Logged.meets_pure _

/- The word at a pointer is mapped, and if it is one that is
patched, what is written for it is in the extent. -/
def PatchInside
    (g : NroGuest)
    (ptr : U64)
    (patched : U32 → Prop)
    (inside : Prop) : Prop :=
  g.mem.Mapped ptr.toNat 4 ∧
    (patched (g.mem.contents.word ptr.toNat) → inside)

/- A patch that depends on the word at a pointer. -/
theorem meets_patchWord
    {ptr : U64}
    {patched : U32 → Prop} [DecidablePred patched]
    {x : LoadRun NroGuest}
    {inside : Prop}
    (hX : x.Meets (Access.InBounds size) ↔ inside) :
    (g.word ptr >>= fun inst =>
        if patched inst then x else pure g).Meets
          (Access.InBounds size) ↔
      PatchInside g ptr patched inside := by
  rw [Logged.meets_bind, meets_word]
  unfold PatchInside
  apply and_congr_right
  intro hMapped
  have hWord :
      (g.word ptr).value =
        some (g.mem.contents.word ptr.toNat) := by
    unfold NroGuest.word
    rw [if_pos hMapped]
  rw [hWord]
  simp only [Option.some.injEq, forall_eq']
  by_cases hPatched : patched (g.mem.contents.word ptr.toNat)
  · rw [if_pos hPatched, hX]
    exact ⟨fun hIn _ => hIn, fun hAll => hAll hPatched⟩
  · rw [if_neg hPatched]
    exact
      iff_of_true (Logged.meets_pure _)
        fun hYes => absurd hYes hPatched

/- The two places in the data that the title is given. -/
def SlotsInside
    (header : NroPackedHeader)
    (extent : Nat) : Prop :=
  header.dataSize > 0x4000 →
    InExtent extent
        (pointer NRO_TEXT_BASE +
          (structAddr header - NRO_TEXT_BASE)).toNat 4 ∧
      InExtent extent (dataSlot header).toNat 8

/- What the patches for the title read is mapped, and what they
write for it is in the extent. -/
structure TitleInside
    (header : NroPackedHeader)
    (extent : Nat)
    (g : NroGuest) : Prop where
  success :
    PatchInside g (titlePtr header 0x44bb28) (· = 0x52800020)
      (InExtent extent (titlePtr header 0x44bb28).toNat 4)
  failure :
    ∀ g₁, (patchReturn header g).value = some g₁ →
      PatchInside g₁ (titlePtr header 0x44b5ac)
        (fun inst => inst &&& 0xFC000000 = 0x14000000)
        (InExtent extent (titlePtr header 0x44b5a8).toNat 4 ∧
          InExtent extent (titlePtr header 0x44b5ac).toNat 4)
  check :
    ∀ g₁ g₂, (patchReturn header g).value = some g₁ →
      (patchFailure header g₁).value = some g₂ →
        PatchInside g₂ (pointer (NRO_TEXT_BASE + 0x45655c))
          (fun inst =>
            inst &&& 0xFE000000 = 0x34000000 ∨
              inst &&& 0xFE000000 = 0x35000000)
          (WriteInside extent (NRO_TEXT_BASE + 0x45655c) 4)

theorem meets_patchReturn
    (hMaps : MapsExtent g extent) :
    (patchReturn header g).Meets (Access.InBounds size) ↔
      PatchInside g (titlePtr header 0x44bb28) (· = 0x52800020)
        (InExtent extent (titlePtr header 0x44bb28).toNat 4) :=
  meets_patchWord (meets_patch hMaps)

theorem meets_patchFailure
    (hMaps : MapsExtent g extent) :
    (patchFailure header g).Meets (Access.InBounds size) ↔
      PatchInside g (titlePtr header 0x44b5ac)
        (fun inst => inst &&& 0xFC000000 = 0x14000000)
        (InExtent extent (titlePtr header 0x44b5a8).toNat 4 ∧
          InExtent extent (titlePtr header 0x44b5ac).toNat 4) :=
  meets_patchWord
    (meets_then hMaps (meets_patch hMaps)
      (fun _ => NroGuest.keepsMap_patch)
      fun _ hMaps' => meets_patch hMaps')

theorem meets_patchCheck
    (hMaps : MapsExtent g extent) :
    (patchCheck g).Meets (Access.InBounds size) ↔
      PatchInside g (pointer (NRO_TEXT_BASE + 0x45655c))
        (fun inst =>
          inst &&& 0xFE000000 = 0x34000000 ∨
            inst &&& 0xFE000000 = 0x35000000)
        (WriteInside extent (NRO_TEXT_BASE + 0x45655c) 4) :=
  meets_patchWord (meets_write hMaps)

theorem meets_patchData
    (hMaps : MapsExtent g extent) :
    (patchData header g).Meets (Access.InBounds size) ↔
      SlotsInside header extent := by
  unfold patchData SlotsInside
  by_cases hLarge : header.dataSize > 0x4000
  · rw [if_pos hLarge,
      meets_then hMaps (meets_patch hMaps)
        (fun _ => NroGuest.keepsMap_patch)
        (fun _ hMaps' => meets_patch hMaps')]
    exact ⟨fun hBoth _ => hBoth, fun hAll => hAll hLarge⟩
  · rw [if_neg hLarge]
    exact
      iff_of_true (Logged.meets_pure _)
        fun hYes => absurd hYes hLarge

theorem meets_patchTitle
    (hMaps : MapsExtent g extent) :
    (patchTitle header g).Meets (Access.InBounds size) ↔
      (header.textSize > 0x400000 →
        TitleInside header extent g ∧
          SlotsInside header extent) := by
  unfold patchTitle
  by_cases hLarge : header.textSize > 0x400000
  · rw [if_pos hLarge, Logged.meets_bind,
      meets_patchReturn hMaps]
    constructor
    · rintro ⟨hSuccess, hRest⟩ _
      rcases
          ((@meets_patchReturn header g size extent hMaps).mpr
            hSuccess).exists_value with
        ⟨g₁, hG₁⟩
      have hMaps₁ := hMaps.keeps (keepsMap_patchReturn hG₁)
      rcases Logged.meets_bind.mp (hRest g₁ hG₁) with
        ⟨hFailure, hCheck⟩
      rcases hFailure.exists_value with ⟨g₂, hG₂⟩
      have hMaps₂ := hMaps₁.keeps (keepsMap_patchFailure hG₂)
      rcases Logged.meets_bind.mp (hCheck g₂ hG₂) with
        ⟨hCheck₂, hData⟩
      rcases hCheck₂.exists_value with ⟨g₃, hG₃⟩
      have hMaps₃ := hMaps₂.keeps (keepsMap_patchCheck hG₃)
      refine ⟨⟨hSuccess, ?_, ?_⟩, ?_⟩
      · intro g' hG'
        rw [hG₁, Option.some.injEq] at hG'
        rw [← hG']
        exact (meets_patchFailure hMaps₁).mp hFailure
      · intro g' g'' hG' hG''
        rw [hG₁, Option.some.injEq] at hG'
        rw [← hG', hG₂, Option.some.injEq] at hG''
        rw [← hG'']
        exact (meets_patchCheck hMaps₂).mp hCheck₂
      · exact (meets_patchData hMaps₃).mp (hData g₃ hG₃)
    · intro hAll
      rcases hAll hLarge with
        ⟨⟨hSuccess, hFailure, hCheck⟩, hData⟩
      refine ⟨hSuccess, fun g₁ hG₁ => ?_⟩
      have hMaps₁ := hMaps.keeps (keepsMap_patchReturn hG₁)
      rw [Logged.meets_bind, meets_patchFailure hMaps₁]
      refine ⟨hFailure g₁ hG₁, fun g₂ hG₂ => ?_⟩
      have hMaps₂ := hMaps₁.keeps (keepsMap_patchFailure hG₂)
      rw [Logged.meets_bind, meets_patchCheck hMaps₂]
      refine ⟨hCheck g₁ g₂ hG₁ hG₂, fun g₃ hG₃ => ?_⟩
      have hMaps₃ := hMaps₂.keeps (keepsMap_patchCheck hG₃)
      exact (meets_patchData hMaps₃).mpr hData
  · rw [if_neg hLarge]
    exact
      iff_of_true (Logged.meets_pure _)
        fun hYes => absurd hYes hLarge

------
-- A Whole Load
------

variable {host : NroHost}

/- The load returns, and keeps to the file and to what it maps. -/
def Contained
    (host : NroHost)
    (buf : NroBuffer)
    (mem : HostMemory)
    (exec : NativeExec) : Prop :=
  ∃ fuel,
    (loadFromBuffer fuel host buf mem exec).Meets
      (Access.InBounds buf.size.toNat)

/-
  A file with a header is loaded within its bounds if both loops
  over it end; its first packed relocation, if it has to be
  shifted, and its segments are inside; and once everything is
  mapped, the relocations, of the file or of what it is shifted
  to, and the patches for the title are.
-/
structure Admits
    (host : NroHost)
    (header : NroPackedHeader)
    (buf : NroBuffer)
    (g : NroGuest) : Prop where
  search : SearchEnds buf header
  count :
    ∀ mod0Off dynOff,
      (∃ fuel,
        (findMod0 fuel buf header).value = some mod0Off) →
      (readDynOff buf mod0Off).value = some dynOff →
        CountEnds buf mod0Off dynOff
  relr :
    ∀ mod0Off dynOff dyn,
      Parsed buf header mod0Off dynOff dyn →
      header.overlapping = true → RelrInside buf header dyn
  segments : SegmentsFit host.maps header buf.size.toNat
  relocations :
    GrantsAll host.maps header → header.overlapping = false →
      ∀ mod0Off dynOff dyn,
        Parsed buf header mod0Off dynOff dyn →
          RelocationsInside header dyn buf (extentOf header)
  shifted :
    GrantsAll host.maps header → header.overlapping = true →
      ∀ mod0Off dynOff dyn buf',
        Parsed buf header mod0Off dynOff dyn →
        Patched buf header mod0Off dynOff dyn buf' →
          RelocationsInside header dyn buf' (extentOf header)
  slots :
    GrantsAll host.maps header →
      header.textSize > 0x400000 →
        SlotsInside header (extentOf header)
  title :
    GrantsAll host.maps header →
      header.textSize > 0x400000 → ∀ dyn buf' mapped patched,
        (∃ mod0Off dynOff,
          Parsed buf header mod0Off dynOff dyn ∧
            Patched buf header mod0Off dynOff dyn buf') →
        (mapSegments host.maps header buf' g).value =
          some (.Success, mapped) →
        (∃ fuel,
          (patchImage fuel host header dyn buf' mapped).value =
            some patched) →
          TitleInside header (extentOf header) patched

/- A file that is not shifted is copied as it is. -/
theorem patched_of_apart
    {mod0Off dynOff : U32}
    (hApart : header.overlapping = false) :
    Patched buf header mod0Off dynOff dyn buf := by
  refine ⟨0, ?_⟩
  unfold patchFile
  rw [hApart]
  rfl

/- A granted load maps at least a page. -/
theorem extentOf_ge
    (hGrants : GrantsAll host.maps header) :
    0x4000 ≤ extentOf header := by
  unfold extentOf
  cases hSplit : header.split with
  | true =>
      have hText := (textRegionSz_bounds header).1
      simp only [if_true]
      omega
  | false =>
      simp only [Bool.false_eq_true, if_false]
      unfold GrantsAll at hGrants
      rw [hSplit, if_neg (by decide)] at hGrants
      rcases wholeSz_bounds hSplit with ⟨_, k, hK⟩
      have hNonzero : (wholeSz header).toNat ≠ 0 := by
        intro hZero
        have hEmpty : wholeSz header = 0 :=
          BitVec.eq_of_toNat_eq hZero
        have hMaps := hGrants.2
        rw [hEmpty, host.not_maps_empty] at hMaps
        exact absurd hMaps (by decide)
      omega

theorem keepsMap_patchImage
    {fuel : Nat}
    (hValue :
      (patchImage fuel host header dyn buf g).value = some g') :
    NroGuest.KeepsMap g g' := by
  rcases Logged.value_bind_eq_some.mp hValue with
    ⟨g₁, hCode, hValue⟩
  rcases Logged.value_bind_eq_some.mp hValue with
    ⟨g₂, hRelocate, hCrt0⟩
  exact
    ((NroGuest.keepsMap_patchCode hCode).trans
      (keepsMap_relocate hRelocate)).trans
        (keepsMap_patchCrt0 hCrt0)

/- The text that is mapped has been copied into the extent. -/
theorem text_inExtent
    (hGrants : GrantsAll host.maps header)
    (hFit : SegmentsFit host.maps header size) :
    InExtent (extentOf header)
      (NroGuest.pointer NRO_TEXT_BASE).toNat
      (header.textSize.setWidth 64).toNat := by
  have hLess := header.textSize.isLt
  have hWord :
      (header.textSize.setWidth 64).toNat =
        header.textSize.toNat := by
    rw [BitVec.toNat_setWidth]
    omega
  rw [hWord, toNat_textPtr]
  intro hPos
  unfold SegmentsFit at hFit
  unfold GrantsAll at hGrants
  unfold extentOf
  cases hSplit : header.split with
  | true =>
      rw [hSplit, if_pos rfl] at hFit hGrants
      have hText := ((hFit hGrants.1).1 hPos).2
      simp only [if_true]
      omega
  | false =>
      rw [hSplit, if_neg (by decide)] at hFit hGrants
      have hText := ((hFit hGrants).1 hPos).2
      simp only [Bool.false_eq_true, if_false]
      omega

theorem meets_patchImage
    {size extent fuel : Nat}
    (hSize : buf.size.toNat = size)
    (hMaps : MapsExtent g extent)
    (hPage : 0x4000 ≤ extent)
    (hText :
      InExtent extent (NroGuest.pointer NRO_TEXT_BASE).toNat
        (header.textSize.setWidth 64).toNat)
    (hFuel : 100000 < fuel) :
    (patchImage fuel host header dyn buf g).Meets
        (Access.InBounds size) ↔
      RelocationsInside header dyn buf extent := by
  unfold patchImage
  rw [meets_then hMaps
      (iff_true_intro (meets_patchCode hMaps hText))
      (fun _ => NroGuest.keepsMap_patchCode)
      (fun g₁ hMaps₁ =>
        meets_then hMaps₁ (meets_relocate hSize hMaps₁ hFuel)
          (fun _ => keepsMap_relocate)
          fun g₂ hMaps₂ =>
            iff_true_intro (safe_patchCrt0 hMaps₂ hPage)),
    true_and, and_true]

/- What comes behind the mapping. -/
theorem meets_rest
    {size fuel : Nat}
    {r : Result × NroGuest}
    (hSize : buf.size.toNat = size)
    (hEnds :
      MapEnds (GrantsAll host.maps header) (extentOf header) r)
    (hFit : SegmentsFit host.maps header size)
    (hFuel : 100000 < fuel) :
    (if r.1 ≠ .Success then
        pure
          (r.1,
            ({ buf := buf
               guest := r.2
               info :=
                { buildId := Bytes.hex header.buildId } } : NroLoaded))
      else do
        let g ← patchImage fuel host header dyn buf r.2
        let g ← patchTitle header g
        pure
          (.Success,
            { buf := buf
              guest := g
              info := loadInfo header }) :
        LoadRun (Result × NroLoaded)).Meets
          (Access.InBounds size) ↔
      (GrantsAll host.maps header →
        RelocationsInside header dyn buf (extentOf header) ∧
          (header.textSize > 0x400000 → ∀ patched,
            (patchImage fuel host header dyn buf r.2).value =
                some patched →
              TitleInside header (extentOf header) patched ∧
                SlotsInside header (extentOf header))) := by
  by_cases hGrants : GrantsAll host.maps header
  · rw [if_neg (not_not.mpr (hEnds.success.mpr hGrants)),
      Logged.meets_bind]
    have hMaps := hEnds.maps hGrants
    rw [meets_patchImage hSize hMaps (extentOf_ge hGrants)
      (text_inExtent hGrants hFit) hFuel]
    simp only [hGrants, true_implies]
    apply and_congr_right
    intro _
    constructor
    · intro hRest hLarge patched hPatched
      have hMaps' := hMaps.keeps (keepsMap_patchImage hPatched)
      exact
        (meets_patchTitle hMaps').mp
          (Logged.meets_bind.mp (hRest patched hPatched)).1
          hLarge
    · intro hTitle patched hPatched
      have hMaps' := hMaps.keeps (keepsMap_patchImage hPatched)
      rw [Logged.meets_bind, meets_patchTitle hMaps']
      exact
        ⟨fun hLarge => hTitle hLarge patched hPatched,
          fun _ _ => Logged.meets_pure _⟩
  · rw [if_pos fun hYes => hGrants (hEnds.success.mp hYes)]
    exact
      iff_of_true (Logged.meets_pure _)
        fun hYes => absurd hYes hGrants

/- A load with enough rounds that keeps to its bounds. -/
theorem admits_of_meets
    {fuel : Nat}
    (hFuel : 2 ^ 34 ≤ fuel)
    (hNone : g.regions = [])
    (hMeets :
      (loadImage fuel host header buf g).Meets
        (Access.InBounds buf.size.toNat)) :
    Admits host header buf g := by
  rcases Logged.meets_bind.mp hMeets with ⟨hSearch, hMeets⟩
  rcases hSearch.exists_value with ⟨m, hM⟩
  rcases Logged.meets_bind.mp (hMeets m hM) with
    ⟨hOffset, hMeets⟩
  rcases hOffset.exists_value with ⟨off, hOff⟩
  rcases Logged.meets_bind.mp (hMeets off hOff) with
    ⟨hSection, hMeets⟩
  rcases hSection.exists_value with ⟨dyn, hDyn⟩
  rcases Logged.meets_bind.mp (hMeets dyn hDyn) with
    ⟨hFile, hMeets⟩
  rcases hFile.exists_value with ⟨buf', hBuf⟩
  rcases Logged.meets_bind.mp (hMeets buf' hBuf) with
    ⟨hSegments, hMeets⟩
  rcases hSegments.exists_value with ⟨r, hR⟩
  have hParsed : Parsed buf header m off dyn :=
    ⟨⟨fuel, hM⟩, hOff, ⟨fuel, hDyn⟩⟩
  have hSize : buf'.size.toNat = buf.size.toNat := by
    rw [size_patchFile hBuf]
  have hFit := (meets_mapSegments hNone).mp hSegments
  have hEnds := mapEnds_segments hNone hR
  have hRest :=
    (meets_rest hSize hEnds hFit (by omega)).mp (hMeets r hR)
  -- The relocations of what is copied, whatever it is called.
  have hRelocations :
      GrantsAll host.maps header → ∀ m' off' dyn' buf'',
        Parsed buf header m' off' dyn' →
        Patched buf header m' off' dyn' buf'' →
          RelocationsInside header dyn' buf''
            (extentOf header) := by
    intro hGrants m' off' dyn' buf'' hParsed' hPatched
    rcases hParsed.unique hParsed' with ⟨rfl, rfl, rfl⟩
    rcases hPatched with ⟨_, hBuf'⟩
    have hSame :=
      (stable_patchFile _ _ _).value_unique hBuf hBuf'
    subst hSame
    exact (hRest hGrants).1
  -- Everything before the title is patched.
  have hImage :
      GrantsAll host.maps header →
        ∃ patched,
          (patchImage fuel host header dyn buf' r.2).value =
            some patched := by
    intro hGrants
    have hPatched :
        ((patchImage fuel host header dyn buf' r.2).Meets
          (Access.InBounds buf'.size.toNat)) := by
      rw [meets_patchImage rfl (hEnds.maps hGrants)
        (extentOf_ge hGrants) (text_inExtent hGrants hFit)
        (by omega)]
      exact (hRest hGrants).1
    exact hPatched.exists_value
  refine ⟨searchEnds_of_value hM, ?_, ?_, hFit, ?_, ?_, ?_, ?_⟩
  · rintro m' off' ⟨_, hM'⟩ hOff'
    have hSame := stable_findMod0.value_unique hM hM'
    subst hSame
    rw [hOff, Option.some.injEq] at hOff'
    subst hOff'
    exact countEnds_of_value hDyn
  · intro m' off' dyn' hParsed'
    rcases hParsed.unique hParsed' with ⟨rfl, rfl, rfl⟩
    exact (meets_patchFile rfl (by omega)).mp hFile
  · intro hGrants hApart m' off' dyn' hParsed'
    exact hRelocations hGrants m' off' dyn' buf hParsed'
      (patched_of_apart hApart)
  · exact fun hGrants _ => hRelocations hGrants
  · intro hGrants hLarge
    rcases hImage hGrants with ⟨patched, hPatched⟩
    exact ((hRest hGrants).2 hLarge patched hPatched).2
  · rintro hGrants hLarge dyn' buf'' mapped patched
      ⟨m', off', hParsed', ⟨_, hBuf'⟩⟩ hMapped ⟨fuel', hLast⟩
    rcases hParsed.unique hParsed' with ⟨rfl, rfl, rfl⟩
    have hSame :=
      (stable_patchFile _ _ _).value_unique hBuf hBuf'
    subst hSame
    rw [hR, Option.some.injEq] at hMapped
    have hMapped' := congrArg Prod.snd hMapped
    dsimp only at hMapped'
    subst hMapped'
    rcases hImage hGrants with ⟨patched', hPatched'⟩
    have hSame :=
      stable_patchImage.value_unique hPatched' hLast
    subst hSame
    exact ((hRest hGrants).2 hLarge patched' hPatched').1

/- A file that is admitted is loaded within its bounds. -/
theorem meets_of_admits
    (hNone : g.regions = [])
    (hAdmits : Admits host header buf g) :
    ∃ fuel,
      (loadImage fuel host header buf g).Meets
        (Access.InBounds buf.size.toNat) := by
  rcases hAdmits.search with ⟨n, hSearch⟩
  have hFirst :=
    meets_findMod0 (Eq.refl buf.size.toNat) hSearch
      (Nat.lt_succ_self n)
  rcases hFirst.exists_value with ⟨m, hM⟩
  have hOffset :=
    safe_readDynOff (Eq.refl buf.size.toNat) m
  rcases hOffset.exists_value with ⟨off, hOff⟩
  have hCount := hAdmits.count m off ⟨_, hM⟩ hOff
  have hSection :
      ∃ k,
        (off > 0 ∧
            (m + off + 16).setWidth 64 ≤ buf.size →
          ¬ Counts buf (m + off) ((· + 1)^[k] 0)) := by
    by_cases hSome :
        off > 0 ∧ (m + off + 16).setWidth 64 ≤ buf.size
    · rcases hCount hSome with ⟨k, hK⟩
      exact ⟨k, fun _ => hK⟩
    · exact ⟨0, fun hYes => absurd hYes hSome⟩
  rcases hSection with ⟨k, hK⟩
  obtain ⟨fuel, hFuel⟩ : ∃ fuel, n + k + 2 ^ 34 < fuel :=
    ⟨_, Nat.lt_succ_self _⟩
  refine ⟨fuel, ?_⟩
  unfold loadImage
  have hSearch' :=
    meets_findMod0 (Eq.refl buf.size.toNat) hSearch
      (show n < fuel by omega)
  rcases hSearch'.exists_value with ⟨m', hM'⟩
  have hSame := stable_findMod0.value_unique hM hM'
  subst hSame
  have hDynamic :=
    meets_parseDynamic (Eq.refl buf.size.toNat) hK
      (show k + 2 ^ 32 < fuel by omega)
  rcases hDynamic.exists_value with ⟨dyn, hDyn⟩
  have hParsed : Parsed buf header m off dyn :=
    ⟨⟨_, hM'⟩, hOff, ⟨_, hDyn⟩⟩
  have hFile :
      (patchFile fuel buf header m off dyn).Meets
        (Access.InBounds buf.size.toNat) := by
    rw [meets_patchFile rfl (by omega)]
    exact hAdmits.relr m off dyn hParsed
  rcases hFile.exists_value with ⟨buf', hBuf⟩
  have hPatched : Patched buf header m off dyn buf' := ⟨_, hBuf⟩
  have hSize : buf'.size.toNat = buf.size.toNat := by
    rw [size_patchFile hBuf]
  have hSegments :
      (mapSegments host.maps header buf' g).Meets
        (Access.InBounds buf.size.toNat) :=
    (meets_mapSegments hNone).mpr hAdmits.segments
  rcases hSegments.exists_value with ⟨r, hR⟩
  have hEnds := mapEnds_segments hNone hR
  rw [Logged.meets_bind_of_some hM',
    Logged.meets_bind_of_some hOff,
    Logged.meets_bind_of_some hDyn,
    Logged.meets_bind_of_some hBuf,
    Logged.meets_bind_of_some hR]
  refine ⟨hSearch', hOffset, hDynamic, hFile, hSegments, ?_⟩
  rw [meets_rest hSize hEnds hAdmits.segments (by omega)]
  intro hGrants
  have hRelocations :
      RelocationsInside header dyn buf' (extentOf header) := by
    cases hShift : header.overlapping with
    | true =>
        exact
          hAdmits.shifted hGrants hShift m off dyn buf' hParsed
            hPatched
    | false =>
        rcases hPatched with ⟨_, hKept⟩
        rcases
          (patched_of_apart hShift :
            Patched buf header m off dyn buf) with
          ⟨_, hSameFile⟩
        have hSame :=
          (stable_patchFile _ _ _).value_unique hKept hSameFile
        subst hSame
        exact
          hAdmits.relocations hGrants hShift m off dyn hParsed
  refine ⟨hRelocations, fun hLarge patched hImage => ?_⟩
  have hMapped :
      (mapSegments host.maps header buf' g).value =
        some (.Success, r.2) := by
    rw [hR, ← hEnds.success.mpr hGrants]
  exact
    ⟨hAdmits.title hGrants hLarge dyn buf' r.2 patched
        ⟨m, off, hParsed, hPatched⟩ hMapped ⟨_, hImage⟩,
      hAdmits.slots hGrants hLarge⟩

/- A load is in its bounds if its image is. -/
theorem meets_loadFromBuffer
    (fuel : Nat)
    (mem : HostMemory)
    (exec : NativeExec) :
    (loadFromBuffer fuel host buf mem exec).Meets
        (Access.InBounds buf.size.toNat) ↔
      ∀ header, headerOf buf = some header →
        (loadImage fuel host header buf
          { mem := mem, exec := exec }).Meets
            (Access.InBounds buf.size.toNat) := by
  unfold loadFromBuffer
  dsimp only
  rw [Logged.meets_bind_of_some value_parseHeader]
  cases headerOf buf with
  | none => simp [safe_parseHeader]
  | some header => simp [safe_parseHeader]

theorem admits_of_contained
    {mem : HostMemory}
    {exec : NativeExec}
    (hContained : Contained host buf mem exec)
    (hHeader : headerOf buf = some header) :
    Admits host header buf { mem := mem, exec := exec } := by
  rcases hContained with ⟨fuel, hMeets⟩
  obtain ⟨more, hLe, hEnough⟩ :
      ∃ more, fuel ≤ more ∧ 2 ^ 34 ≤ more :=
    ⟨max fuel (2 ^ 34), Nat.le_max_left _ _,
      Nat.le_max_right _ _⟩
  have hSame :
      loadFromBuffer more host buf mem exec =
        loadFromBuffer fuel host buf mem exec :=
    stable_loadFromBuffer mem exec fuel more hLe hMeets.1
  rw [← hSame] at hMeets
  exact
    admits_of_meets hEnough rfl
      ((meets_loadFromBuffer more mem exec).mp hMeets header
        hHeader)

/-
  A load returns, keeps to the file and writes guest memory only
  where it has mapped it, exactly when the file has no header or
  is admitted.
-/
theorem contained_iff
    (host : NroHost)
    (buf : NroBuffer)
    (mem : HostMemory)
    (exec : NativeExec) :
    Contained host buf mem exec ↔
      ∀ header, headerOf buf = some header →
        Admits host header buf { mem := mem, exec := exec } := by
  constructor
  · intro hContained header hHeader
    exact admits_of_contained hContained hHeader
  · intro hAll
    cases hHeader : headerOf buf with
    | none =>
        refine ⟨0, (meets_loadFromBuffer 0 mem exec).mpr ?_⟩
        intro header hSome
        rw [hHeader] at hSome
        simp at hSome
    | some header =>
        rcases meets_of_admits rfl (hAll header hHeader) with
          ⟨fuel, hMeets⟩
        refine ⟨fuel, (meets_loadFromBuffer fuel mem exec).mpr ?_⟩
        intro header' hSome
        rw [hHeader, Option.some.injEq] at hSome
        rw [← hSome]
        exact hMeets

/- A file that says it has a page of text behind its end. -/
def cutFile : NroBuffer :=
  NroBuffer.ofHeader 0x110 (by decide)
    (headerWords 0x110 0x1000 0 0 0 0 0x4000)

/- Its text is copied from behind the end. -/
theorem not_contained_cutFile :
    ¬ ∀ (host : NroHost) (buf : NroBuffer) (mem : HostMemory)
        (exec : NativeExec), Contained host buf mem exec := by
  intro hAll
  have hHeader : ∃ header, headerOf cutFile = some header :=
    Option.isSome_iff_exists.mp (by decide)
  rcases hHeader with ⟨header, hHeader⟩
  have hAdmits :=
    admits_of_contained (hAll NroHost.willing cutFile {} {})
      hHeader
  have hFields :
      (headerOf cutFile).map
          (fun h =>
            (h.textStart, h.textSize, h.split,
              decide
                (NroGuest.Grants NroHost.willing.maps
                  NRO_TEXT_BASE (wholeSz h)))) =
        some (0x110, 0x1000, false, true) := by
    decide
  rw [hHeader, Option.map_some, Option.some.injEq] at hFields
  simp only [Prod.mk.injEq, decide_eq_true_eq] at hFields
  rcases hFields with ⟨hStart, hSize, hSplit, hGrants⟩
  have hFit := hAdmits.segments
  unfold SegmentsFit at hFit
  rw [hSplit, if_neg (by decide)] at hFit
  have hText := (hFit hGrants).1 (by rw [hSize]; decide)
  rw [hStart, hSize] at hText
  exact absurd hText.1 (by decide)

end NroLoader

end M1Switch
