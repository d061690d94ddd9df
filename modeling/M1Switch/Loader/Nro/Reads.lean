import M1Switch.Loader.Nro.File

/-
  Where the NRO loader reads and patches the file.

  Offsets with 32 bits are checked against the size of the file.
  So are offsets with 64 bits, but these wrap: the table of
  packed relocations may start right before the end of all
  offsets.  Two loops go on for ever on a file that is large
  enough.

  Key definitions include:
    * `Access.InBounds`
    * `NroLoader.SearchEnds`

  Main results:
    * `meets_findMod0`
    * `meets_parseDynamic`
    * `meets_patchFile`
-/

------
-- Bounds
------

namespace M1Switch

/- An address is in one of the regions. -/
def Covered (regions : List Span) (a : Nat) : Prop :=
  ∃ r ∈ regions, r.start ≤ a ∧ a < r.start + r.count

/- A range is. -/
def CoveredRange (regions : List Span) (start count : Nat) :
    Prop :=
  ∀ i < count, Covered regions (start + i)

/- In the file, or in what the load has mapped. -/
def Access.InBounds (size : Nat) : Access → Prop
  | .read s => s.Inside size
  | .write s => s.Inside size
  | .fill regions s => CoveredRange regions s.start s.count
  | .patch regions start bytes =>
      CoveredRange regions start bytes.length

------
-- Words of the File
------

namespace NroLoader

variable {buf : NroBuffer} {size : Nat} {off : U64}
variable {fuel : Nat} {mod0Off dynOff : U32} {dyn : DynInfo}

/- An access behind a check is in bounds if the check is
enough. -/
theorem meets_checked
    {α : Type}
    {P : Access → Prop}
    {a b : α}
    {off n bound : U64}
    {e : Access} :
    (if off + n > bound then (pure a : LoadRun α)
      else { value := some b, log := [e] }).Meets P ↔
        (off + n ≤ bound → P e) := by
  by_cases hOut : off + n > bound
  · rw [if_pos hOut]
    have hNot : ¬ off + n ≤ bound := BitVec.not_le.mpr hOut
    simp only [Logged.meets_pure, hNot, false_implies]
  · rw [if_neg hOut]
    have hIn : off + n ≤ bound := BitVec.not_lt.mp hOut
    simp [Logged.Meets, hIn]

theorem meets_read32 (off : U64) :
    (read32 buf off).Meets (Access.InBounds size) ↔
      (off + 4 ≤ buf.size → off.toNat + 4 ≤ size) :=
  meets_checked

theorem meets_read64 (off : U64) :
    (read64 buf off).Meets (Access.InBounds size) ↔
      (off + 8 ≤ buf.size → off.toNat + 8 ≤ size) :=
  meets_checked

theorem meets_write32 (off : U64) (val : U32) :
    (write32 buf off val).Meets (Access.InBounds size) ↔
      (off + 4 ≤ buf.size → off.toNat + 4 ≤ size) :=
  meets_checked

theorem meets_write64 (off val : U64) :
    (write64 buf off val).Meets (Access.InBounds size) ↔
      (off + 8 ≤ buf.size → off.toNat + 8 ≤ size) :=
  meets_checked

/- An offset that is not near the end of all offsets does not
wrap. -/
theorem inside_of_small
    (hSize : buf.size.toNat = size)
    {off n : U64}
    (hSmall : off.toNat + n.toNat < 2 ^ 64)
    (hIn : off + n ≤ buf.size) :
    off.toNat + n.toNat ≤ size := by
  rw [BitVec.le_def, BitVec.toNat_add,
    Nat.mod_eq_of_lt hSmall] at hIn
  omega

/- So accesses there are in bounds. -/
theorem safe_read32
    (hSize : buf.size.toNat = size)
    (hOff : off.toNat < 2 ^ 63) :
    (read32 buf off).Meets (Access.InBounds size) :=
  (meets_read32 off).mpr
    (inside_of_small hSize (n := 4) (by
      show off.toNat + 4 < _
      omega))

theorem safe_read64
    (hSize : buf.size.toNat = size)
    (hOff : off.toNat < 2 ^ 63) :
    (read64 buf off).Meets (Access.InBounds size) :=
  (meets_read64 off).mpr
    (inside_of_small hSize (n := 8) (by
      show off.toNat + 8 < _
      omega))

theorem safe_write32
    (hSize : buf.size.toNat = size)
    (hOff : off.toNat < 2 ^ 63)
    (val : U32) :
    (write32 buf off val).Meets (Access.InBounds size) :=
  (meets_write32 off val).mpr
    (inside_of_small hSize (n := 4) (by
      show off.toNat + 4 < _
      omega))

theorem safe_write64
    (hSize : buf.size.toNat = size)
    (hOff : off.toNat < 2 ^ 63)
    (val : U64) :
    (write64 buf off val).Meets (Access.InBounds size) :=
  (meets_write64 off val).mpr
    (inside_of_small hSize (n := 8) (by
      show off.toNat + 8 < _
      omega))

/- Offsets with 32 bits are small. -/
theorem toNat_word_lt (off : U32) :
    (off.setWidth 64).toNat < 2 ^ 32 := by
  rw [BitVec.toNat_setWidth]
  have hLess := off.isLt
  omega

theorem word_small (off : U32) :
    (off.setWidth 64).toNat < 2 ^ 63 :=
  Nat.lt_trans (toNat_word_lt off) (by decide)

------
-- Reading the File
------

variable {header : NroPackedHeader}

theorem safe_parseHeader
    (hSize : buf.size.toNat = size) :
    (parseHeader buf).Meets (Access.InBounds size) := by
  unfold parseHeader
  split
  · exact Logged.meets_pure _
  · split
    · exact Logged.meets_pure _
    · next hLong =>
        have hLe : 0x110 ≤ size := by
          rw [BitVec.not_lt, BitVec.le_def, hSize] at hLong
          exact hLong
        iterate 12
          rw [Logged.meets_bind_of_some (value_read32 _)]
          refine ⟨safe_read32 hSize (by decide), ?_⟩
        rw [Logged.meets_bind]
        refine ⟨?_, fun _ _ => by split <;> exact Logged.meets_pure _⟩
        refine ⟨rfl, ?_⟩
        intro e hE
        rw [List.mem_singleton.mp hE]
        show 0x40 + 32 ≤ size
        omega

theorem safe_mod0Round
    (hSize : buf.size.toNat = size)
    (i : U32) :
    (mod0Round buf header i).Meets (Access.InBounds size) := by
  unfold mod0Round
  split
  · rw [Logged.meets_bind_of_some (value_read32 _)]
    refine ⟨safe_read32 hSize (word_small i), ?_⟩
    split <;> exact Logged.meets_pure _
  · exact Logged.meets_pure _

theorem safe_countRound
    (hSize : buf.size.toNat = size)
    (dynAbs ndyns : U32) :
    (countRound buf dynAbs ndyns).Meets
      (Access.InBounds size) := by
  unfold countRound
  split
  · rw [Logged.meets_bind_of_some (value_read64 _)]
    refine ⟨safe_read64 hSize (word_small _), ?_⟩
    split <;> exact Logged.meets_pure _
  · exact Logged.meets_pure _

theorem safe_entryRound
    (hSize : buf.size.toNat = size)
    (dynAbs ndyns : U32)
    (s : U32 × DynInfo) :
    (entryRound buf dynAbs ndyns s).Meets
      (Access.InBounds size) := by
  unfold entryRound
  split
  · rw [Logged.meets_bind_of_some (value_read64 _)]
    refine ⟨safe_read64 hSize (word_small _), ?_⟩
    rw [Logged.meets_bind_of_some (value_read64 _)]
    exact
      ⟨safe_read64 hSize (word_small _), Logged.meets_pure _⟩
  · exact Logged.meets_pure _

/- The search for the module header comes to an end. -/
def SearchEnds
    (buf : NroBuffer)
    (header : NroPackedHeader) : Prop :=
  ∃ n, ¬ Searches buf header ((· + 4)^[n] header.textStart)

/- So does the count of the entries of the dynamic section. -/
def CountEnds (buf : NroBuffer) (mod0Off dynOff : U32) : Prop :=
  dynOff > 0 ∧ (mod0Off + dynOff + 16).setWidth 64 ≤ buf.size →
    ∃ n, ¬ Counts buf (mod0Off + dynOff) ((· + 1)^[n] 0)

theorem searchEnds_of_value
    {mod0Off : U32}
    (hValue : (findMod0 fuel buf header).value = some mod0Off) :
    SearchEnds buf header := by
  rcases steps_mod0Round.exists_iterate hValue with
    ⟨n, _, hOff, _⟩
  exact ⟨n, hOff⟩

theorem countEnds_of_value
    (hValue :
      (parseDynamic fuel buf mod0Off dynOff).value = some dyn) :
    CountEnds buf mod0Off dynOff := by
  intro hSome
  unfold parseDynamic at hValue
  rw [if_pos hSome] at hValue
  rcases Logged.value_bind_eq_some.mp hValue with
    ⟨ndyns, hCount, _⟩
  rcases (steps_countRound _).exists_iterate hCount with
    ⟨n, _, hOff, _⟩
  exact ⟨n, hOff⟩

theorem meets_findMod0
    (hSize : buf.size.toNat = size)
    {n fuel : Nat}
    (hOff : ¬ Searches buf header ((· + 4)^[n] header.textStart))
    (hFuel : n < fuel) :
    (findMod0 fuel buf header).Meets (Access.InBounds size) :=
  steps_mod0Round.meets_of_not_on
    (fun i => (safe_mod0Round hSize i).2) hOff hFuel

theorem safe_readDynOff
    (hSize : buf.size.toNat = size)
    (mod0Off : U32) :
    (readDynOff buf mod0Off).Meets (Access.InBounds size) := by
  unfold readDynOff
  split
  · exact safe_read32 hSize (word_small _)
  · exact Logged.meets_pure _

/- The entries that were counted are read. -/
theorem meets_entries
    (hSize : buf.size.toNat = size)
    (dynAbs ndyns : U32)
    (hFuel : 2 ^ 32 < fuel) :
    (Logged.loop (entryRound buf dynAbs ndyns) fuel
      (0, {})).Meets (Access.InBounds size) := by
  apply
    (steps_entryRound dynAbs ndyns).meets
      (I := fun _ => True)
      (fun s => ndyns.toNat - s.1.toNat)
      (fun s _ => (safe_entryRound hSize _ _ s).2) ?_ trivial
  · have hBound := ndyns.isLt
    omega
  · intro s _ hOn
    refine ⟨trivial, ?_⟩
    have hLess : s.1.toNat < ndyns.toNat := hOn
    have hBound := ndyns.isLt
    have hNext : (s.1 + 1).toNat = s.1.toNat + 1 := by
      rw [BitVec.toNat_add]
      show (s.1.toNat + 1) % 2 ^ 32 = _
      omega
    simp only [hNext]
    omega

theorem meets_parseDynamic
    (hSize : buf.size.toNat = size)
    {n fuel : Nat}
    (hOff :
      dynOff > 0 ∧
          (mod0Off + dynOff + 16).setWidth 64 ≤ buf.size →
        ¬ Counts buf (mod0Off + dynOff) ((· + 1)^[n] 0))
    (hFuel : n + 2 ^ 32 < fuel) :
    (parseDynamic fuel buf mod0Off dynOff).Meets
      (Access.InBounds size) := by
  unfold parseDynamic
  dsimp only
  split
  · next hSome =>
      rw [Logged.meets_bind]
      refine ⟨?_, ?_⟩
      · exact
          (steps_countRound _).meets_of_not_on
            (fun i => (safe_countRound hSize _ i).2)
            (hOff hSome) (by omega)
      · intro ndyns _
        exact meets_entries hSize _ _ (by omega)
  · exact Logged.meets_pure _

------
-- Patching the File
------

theorem safe_shiftField
    (hSize : buf.size.toNat = size)
    (off shift : U32) :
    (shiftField buf off shift).Meets (Access.InBounds size) := by
  unfold shiftField
  rw [Logged.meets_bind_of_some (value_read32 _)]
  exact
    ⟨safe_read32 hSize (word_small off),
      safe_write32 hSize (word_small off) _⟩

theorem safe_patchMod0
    (hSize : buf.size.toNat = size)
    (mod0Off : U32)
    (shift : U64) :
    (patchMod0 buf mod0Off shift).Meets
      (Access.InBounds size) := by
  unfold patchMod0
  split
  · rw [Logged.meets_bind_of_some (value_shiftField _ _)]
    refine ⟨safe_shiftField hSize _ _, ?_⟩
    rw [Logged.meets_bind_of_some (value_shiftField _ _)]
    exact
      ⟨safe_shiftField (by simpa using hSize) _ _,
        safe_shiftField (by simpa using hSize) _ _⟩
  · exact Logged.meets_pure _

theorem safe_dynamicRound
    (dynAbs : U32)
    (shift : U64)
    (s : U32 × NroBuffer)
    (hSize : s.2.size.toNat = size) :
    (dynamicRound dynAbs shift s).Meets
      (Access.InBounds size) := by
  have hOff : (dynEntryOff dynAbs s.1).toNat < 2 ^ 32 :=
    toNat_word_lt _
  have hVal :
      (dynEntryOff dynAbs s.1 + 8).toNat < 2 ^ 63 := by
    rw [BitVec.toNat_add]
    show (_ + 8) % 2 ^ 64 < _
    omega
  unfold dynamicRound
  dsimp only
  split
  · split
    · exact Logged.meets_pure _
    · rw [Logged.meets_bind_of_some (value_read64 _)]
      refine ⟨safe_read64 hSize (by omega), ?_⟩
      rw [Logged.meets_bind_of_some (value_read64 _)]
      refine ⟨safe_read64 hSize hVal, ?_⟩
      split
      · exact Logged.meets_pure _
      · split
        · rw [Logged.meets_bind_of_some (value_write64 _ _)]
          exact
            ⟨safe_write64 hSize hVal _, Logged.meets_pure _⟩
        · exact Logged.meets_pure _
  · exact Logged.meets_pure _

/- One more than a small number. -/
theorem toNat_succ
    {w : Nat}
    {i bound : BitVec w}
    (hLess : i < bound) :
    (i + 1).toNat = i.toNat + 1 := by
  have hNat : i.toNat < bound.toNat := hLess
  have hBound := bound.isLt
  have hOne : (1 : BitVec w).toNat = 1 % 2 ^ w :=
    BitVec.toNat_ofNat 1 w
  rw [BitVec.toNat_add, hOne,
    Nat.mod_eq_of_lt (by omega : 1 < 2 ^ w),
    Nat.mod_eq_of_lt (by omega)]

theorem safe_patchDynamic
    (hSize : buf.size.toNat = size)
    (hFuel : 256 < fuel)
    (mod0Off dynOff : U32)
    (shift : U64) :
    (patchDynamic fuel buf mod0Off dynOff shift).Meets
      (Access.InBounds size) := by
  unfold patchDynamic
  split
  · apply
      (steps_dynamicRound _ _).meets
        (I := fun s => s.2.size.toNat = size)
        (fun s => 256 - s.1.toNat)
        (fun s hS => (safe_dynamicRound _ _ s hS).2) ?_ hSize
    · show 256 - 0 < fuel
      omega
    · rintro s hS ⟨hLess, _⟩
      refine ⟨by rw [size_shiftEntry, hS], ?_⟩
      have hNat : s.1.toNat < 256 := hLess
      simp only [toNat_succ hLess]
      omega
  · exact Logged.meets_pure _

theorem safe_adrpRound
    (shift : U64)
    (s : U64 × NroBuffer)
    (hSize : s.2.size.toNat = size)
    (hOff : s.1.toNat < 2 ^ 63) :
    (adrpRound header shift s).Meets (Access.InBounds size) := by
  unfold adrpRound
  split
  · rw [Logged.meets_bind_of_some (value_read32 _)]
    refine ⟨safe_read32 hSize hOff, ?_⟩
    split
    · exact Logged.meets_pure _
    · rw [Logged.meets_bind_of_some (value_write32 _ _)]
      exact ⟨safe_write32 hSize hOff _, Logged.meets_pure _⟩
  · exact Logged.meets_pure _

theorem safe_patchAdrp
    (header : NroPackedHeader)
    (hSize : buf.size.toNat = size)
    (hFuel : 2 ^ 33 < fuel)
    (shift : U64) :
    (patchAdrp fuel buf header shift).Meets
      (Access.InBounds size) := by
  have hEnd :=
    toNat_word_lt (header.textStart + header.textSize)
  apply
    (steps_adrpRound shift).meets
      (I := fun s =>
        s.2.size.toNat = size ∧ s.1.toNat < 2 ^ 33)
      (fun s => 2 ^ 33 - s.1.toNat)
      (fun s hS =>
        (safe_adrpRound _ s hS.1 (Nat.lt_trans hS.2 (by decide))).2)
  · rintro s ⟨hS, hOff⟩ hOn
    have hNext : (s.1 + 4).toNat = s.1.toNat + 4 := by
      rw [BitVec.toNat_add]
      show (s.1.toNat + 4) % 2 ^ 64 = _
      omega
    rw [BitVec.le_def, hNext] at hOn
    refine ⟨⟨by rw [size_retargetAt, hS], ?_⟩, ?_⟩
    · simp only [hNext]
      omega
    · simp only [hNext]
      omega
  · refine ⟨hSize, Nat.lt_trans (toNat_word_lt _) (by decide)⟩
  · exact Nat.lt_of_le_of_lt (Nat.sub_le _ _) hFuel

/- The first packed relocation is not read across the end of all
offsets. -/
def RelrInside
    (buf : NroBuffer)
    (header : NroPackedHeader)
    (dyn : DynInfo) : Prop :=
  dyn.relrOff > 0 ∧ dyn.relrSz > 0 →
    relrFileOff header dyn + 8 ≤ buf.size →
      (relrFileOff header dyn).toNat + 8 ≤ buf.size.toNat

theorem meets_relrRound
    (dyn : DynInfo)
    (shift : U64)
    (s : U64 × NroBuffer)
    (hInside :
      relrFileOff header dyn + s.1 + 8 ≤ s.2.size →
        (relrFileOff header dyn + s.1).toNat + 8 ≤ size) :
    (relrRound header dyn shift s).Meets
      (Access.InBounds size) := by
  unfold relrRound
  dsimp only
  split
  · split
    · exact Logged.meets_pure _
    · rw [Logged.meets_bind_of_some (value_read64 _)]
      refine ⟨(meets_read64 _).mpr hInside, ?_⟩
      split
      · rw [Logged.meets_bind_of_some (value_write64 _ _)]
        exact
          ⟨(meets_write64 _ _).mpr hInside, Logged.meets_pure _⟩
      · exact Logged.meets_pure _
  · exact Logged.meets_pure _

/- Entries are at the start, or a small step apart, or past the
last of them. -/
def RelrAt (dyn : DynInfo) (ri : U64) : Prop :=
  ri = 0 ∨ (relrStep dyn).toNat < 4096 ∨ 4096 ≤ ri.toNat

theorem relrAt_next
    {ri : U64}
    (hAt : RelrAt dyn ri)
    (hLess : ri.toNat < 4096) :
    RelrAt dyn (ri + relrStep dyn) ∧
      ri.toNat < (ri + relrStep dyn).toNat := by
  have hPos : 0 < (relrStep dyn).toNat := by
    unfold relrStep
    split
    · next hNonzero =>
        have hNe : dyn.relrEnt.toNat ≠ 0 :=
          fun hZero => hNonzero (BitVec.eq_of_toNat_eq hZero)
        omega
    · decide
  have hBound := (relrStep dyn).isLt
  by_cases hSmall : (relrStep dyn).toNat < 4096
  · refine ⟨.inr (.inl hSmall), ?_⟩
    rw [BitVec.toNat_add]
    omega
  · have hZero : ri = 0 := by
      rcases hAt with hZero | hStep | hPast
      · exact hZero
      · exact absurd hStep hSmall
      · omega
    rw [hZero, zero_add]
    exact ⟨.inr (.inr (Nat.not_lt.mp hSmall)), hPos⟩

/- If the first entry is inside, all others are. -/
theorem inside_of_first
    (hSize : buf.size.toNat = size)
    {ri : U64}
    (hFirst :
      ri ≠ 0 → relrFileOff header dyn + 8 ≤ buf.size)
    (hInside :
      relrFileOff header dyn + 8 ≤ buf.size →
        (relrFileOff header dyn).toNat + 8 ≤ size)
    (hLess : ri.toNat < 4096)
    (hIn : relrFileOff header dyn + ri + 8 ≤ buf.size) :
    (relrFileOff header dyn + ri).toNat + 8 ≤ size := by
  by_cases hZero : ri = 0
  · rw [hZero, add_zero] at hIn ⊢
    exact hInside hIn
  · have hStart := hInside (hFirst hZero)
    have hHalf := buf.size_lt
    have hSum :
        (relrFileOff header dyn + ri).toNat =
          (relrFileOff header dyn).toNat + ri.toNat := by
      rw [BitVec.toNat_add]
      omega
    apply inside_of_small hSize (n := 8) ?_ hIn
    show _ + 8 < _
    omega

/- The packed relocations are in bounds if the first one is. -/
theorem meets_patchRelr
    (hSize : buf.size.toNat = size)
    (hFuel : 4096 < fuel)
    {shift : U64} :
    (patchRelr fuel buf header dyn shift).Meets
        (Access.InBounds size) ↔
      RelrInside buf header dyn := by
  unfold patchRelr RelrInside
  by_cases hSome : dyn.relrOff > 0 ∧ dyn.relrSz > 0
  · simp only [hSome, and_self, if_true, true_implies, hSize]
    constructor
    · intro hMeets hIn
      have hRound :=
        hMeets.reached
          (Logged.Reaches.refl ((0 : U64), buf))
      have hStart :
          ¬ relrFileOff header dyn + 0 + 8 > buf.size := by
        rw [add_zero]
        exact BitVec.not_lt.mpr hIn
      have hOn : Unpacks header dyn ((0 : U64), buf) :=
        ⟨⟨hSome.2, (by decide : (0 : U64) < 4096)⟩, hStart⟩
      unfold relrRound at hRound
      dsimp only at hRound
      rw [if_pos hOn.1] at hRound
      have hFits := hOn.2
      unfold relrFileOff at hFits
      rw [if_neg hFits,
        Logged.meets_bind_of_some (value_read64 _)] at hRound
      have hRead := (meets_read64 _).mp hRound.1
      rw [add_zero] at hRead
      exact hRead hIn
    · intro hInside
      apply
        (steps_relrRound dyn shift).meets
          (I := fun s =>
            s.2.size = buf.size ∧ RelrAt dyn s.1 ∧
              (s.1 ≠ 0 →
                relrFileOff header dyn + 8 ≤ buf.size))
          (fun s => 4096 - s.1.toNat)
      · rintro s ⟨hS, _, hFirst⟩
        by_cases hLess : s.1.toNat < 4096
        · apply (meets_relrRound dyn shift s ?_).2
          rw [hS]
          exact inside_of_first hSize hFirst hInside hLess
        · have hOff : ¬ (s.1 < dyn.relrSz ∧ s.1 < 4096) :=
            fun hBoth => hLess hBoth.2
          unfold relrRound
          dsimp only
          rw [if_neg hOff]
          simp
      · rintro s ⟨hS, hAt, hFirst⟩ ⟨⟨_, hLess⟩, hFits⟩
        have hNat : s.1.toNat < 4096 := hLess
        rcases relrAt_next hAt hNat with ⟨hNext, hMore⟩
        refine
          ⟨⟨by rw [size_shiftRelr, hS], hNext, fun _ => ?_⟩, ?_⟩
        · by_cases hZero : s.1 = 0
          · rw [hS, hZero, add_zero] at hFits
            exact BitVec.not_lt.mp hFits
          · exact hFirst hZero
        · simp only
          omega
      · exact ⟨rfl, .inl rfl, fun hNe => absurd rfl hNe⟩
      · show 4096 - 0 < fuel
        omega
  · simp only [hSome, if_false, false_implies, iff_true]
    exact Logged.meets_pure _

/- The file is patched in bounds if the packed relocations are. -/
theorem meets_patchFile
    (hSize : buf.size.toNat = size)
    (hFuel : 2 ^ 33 < fuel)
    {dyn : DynInfo} :
    (patchFile fuel buf header mod0Off dynOff dyn).Meets
        (Access.InBounds size) ↔
      (header.overlapping = true →
        RelrInside buf header dyn) := by
  unfold patchFile
  by_cases hOverlap : header.overlapping = true
  · simp only [hOverlap, if_true, true_implies]
    rcases value_patchMod0 buf mod0Off header.shift with
      ⟨b₁, h₁, hSize₁⟩
    have hS₁ : b₁.size.toNat = size := by rw [hSize₁, hSize]
    have hMod0 := safe_patchMod0 hSize mod0Off header.shift
    have hDynamic :=
      safe_patchDynamic hS₁ (show 256 < fuel by omega) mod0Off
        dynOff header.shift
    rcases hDynamic.exists_value with ⟨b₂, h₂⟩
    have hSize₂ := size_patchDynamic h₂
    have hS₂ : b₂.size.toNat = size := by rw [hSize₂, hS₁]
    have hAdrp :=
      safe_patchAdrp header hS₂ hFuel header.shift
    rcases hAdrp.exists_value with ⟨b₃, h₃⟩
    have hSize₃ := size_patchAdrp h₃
    have hS₃ : b₃.size.toNat = size := by rw [hSize₃, hS₂]
    have hSame : b₃.size = buf.size := by
      rw [hSize₃, hSize₂, hSize₁]
    rw [Logged.meets_bind_of_some h₁,
      Logged.meets_bind_of_some h₂,
      Logged.meets_bind_of_some h₃,
      meets_patchRelr hS₃ (by omega)]
    unfold RelrInside
    rw [hSame]
    exact
      ⟨fun hAll => hAll.2.2.2,
        fun hInside => ⟨hMod0, hDynamic, hAdrp, hInside⟩⟩
  · rw [if_neg hOverlap]
    exact
      iff_of_true (Logged.meets_pure _)
        fun hYes => absurd hYes hOverlap

end NroLoader

end M1Switch
