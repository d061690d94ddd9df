import M1Switch.Loader.RomFs

/-
  What a table of a RomFS image holds, by plain arithmetic,
  and when its loop reads just that.

  The loop adds positions as 32-bit words.  It stays inside
  the span as long as no sum wraps around to a position in
  front of the end of the table, and the fields it reads lie
  inside the span.  For a span of less than 4 GiB it stays
  inside only then.

  Key definitions include:
    * `RomFs.Wraps`
    * `RomFs.EntryLayout.Reads`

  Main results:
    * `sound_of_parseEntry`
    * `parseTable_of_sound`
    * `sound_of_parseTable`
-/

namespace M1Switch

namespace RomFs

------
-- Sums that Wrap Around
------

/- A sum goes around, and then passes for one inside. -/
def Wraps (bits sum limit : Nat) : Prop :=
  2 ^ bits ≤ sum ∧ sum - 2 ^ bits ≤ limit

instance (bits sum limit : Nat) :
    Decidable (Wraps bits sum limit) :=
  inferInstanceAs (Decidable (_ ∧ _))

/- What a check of a sum of words says. -/
theorem toNat_add_le_iff
    {w : Nat}
    (x k : BitVec w)
    (limit : Nat) :
    (x + k).toNat ≤ limit ↔
      x.toNat + k.toNat < 2 ^ w ∧ x.toNat + k.toNat ≤ limit ∨
        Wraps w (x.toNat + k.toNat) limit := by
  have hX := x.isLt
  have hK := k.isLt
  rw [BitVec.toNat_add]
  unfold Wraps
  by_cases hFits : x.toNat + k.toNat < 2 ^ w
  · rw [Nat.mod_eq_of_lt hFits]
    omega
  · have hMod :
        (x.toNat + k.toNat) % 2 ^ w =
          x.toNat + k.toNat - 2 ^ w := by
      rw [Nat.mod_eq_sub_mod (by omega),
        Nat.mod_eq_of_lt (by omega)]
    rw [hMod]
    omega

theorem add_le_iff (pos k end_ : U32) :
    pos + k ≤ end_ ↔
      pos.toNat + k.toNat ≤ end_.toNat ∨
        Wraps 32 (pos.toNat + k.toNat) end_.toNat := by
  have hEnd := end_.isLt
  rw [BitVec.le_def, toNat_add_le_iff]
  constructor
  · rintro (⟨_, hLe⟩ | hWraps)
    · exact Or.inl hLe
    · exact Or.inr hWraps
  · rintro (hLe | hWraps)
    · exact Or.inl ⟨by omega, hLe⟩
    · exact Or.inr hWraps

------
-- Entries of a Table
------

/- The fields in front of the name length, by offset. -/
def dirFields
    (data : List U8)
    (q : Nat)
    (nameLen : U32)
    (name : List U8) : RomFsDirEntry where
  parentOffset := wordAt data q
  siblingOffset := wordAt data (q + 4)
  childDirOffset := wordAt data (q + 8)
  childFileOffset := wordAt data (q + 12)
  nameLen := nameLen
  name := name

def fileFields
    (data : List U8)
    (q : Nat)
    (nameLen : U32)
    (name : List U8) : RomFsFileEntry where
  parentOffset := wordAt data q
  siblingOffset := wordAt data (q + 4)
  dataOffset := longAt data (q + 8)
  dataSize := longAt data (q + 16)
  nameLen := nameLen
  name := name

section Table

variable {β : Type}

/- The layout reads these fields, and no byte behind them. -/
structure EntryLayout.Reads
    (layout : EntryLayout β)
    (fields : List U8 → Nat → U32 → List U8 → β) :
    Prop where
  checked : layout.check.toNat ≤ layout.head.toNat
  short : layout.head.toNat ≤ layout.check.toNat + 4
  read :
    ∀ data pos, pos.toNat + layout.head.toNat ≤ 2 ^ 32 →
      pos.toNat + layout.head.toNat ≤ data.length →
        layout.read data pos = .ok (fields data pos.toNat)
  inside :
    ∀ data pos entry, data.length < 2 ^ 32 →
      layout.read data pos = .ok entry →
        pos.toNat + layout.head.toNat ≤ data.length

theorem dirLayout_reads : dirLayout.Reads dirFields where
  checked := by decide
  short := by decide
  read := by
    intro data pos hFits hInside
    change pos.toNat + 16 ≤ _ at hFits hInside
    have hAdd :
        ∀ k : U32, k.toNat < 16 →
          (pos + k).toNat = pos.toNat + k.toNat :=
      fun k hK => toNat_add_of_le (by omega)
    have h₄ : (pos + 4).toNat = pos.toNat + 4 :=
      hAdd 4 (by decide)
    have h₈ : (pos + 8).toNat = pos.toNat + 8 :=
      hAdd 8 (by decide)
    have h₁₂ : (pos + 12).toNat = pos.toNat + 12 :=
      hAdd 12 (by decide)
    simp only [dirLayout]
    rw [readU32_of_inside (by omega) (by omega),
      readU32_of_inside (by omega) (by omega),
      readU32_of_inside (by omega) (by omega),
      readU32_of_inside (by omega) (by omega), h₄, h₈, h₁₂]
    rfl
  inside := by
    intro data pos entry hSmall hRead
    change pos.toNat + 16 ≤ _
    rcases ok_of_bind hRead with ⟨_, h₀, hRead⟩
    rcases ok_of_bind hRead with ⟨_, h₄, hRead⟩
    rcases ok_of_bind hRead with ⟨_, h₈, hRead⟩
    rcases ok_of_bind hRead with ⟨_, h₁₂, hRead⟩
    have h₀ := inside_of_readU32 hSmall h₀
    have h₄ := inside_of_readU32_add hSmall h₄ h₀
    have h₈ := inside_of_readU32_add hSmall h₈ h₄
    exact inside_of_readU32_add hSmall h₁₂ h₈

theorem fileLayout_reads : fileLayout.Reads fileFields where
  checked := by decide
  short := by decide
  read := by
    intro data pos hFits hInside
    change pos.toNat + 24 ≤ _ at hFits hInside
    have hAdd :
        ∀ k : U32, k.toNat < 24 →
          (pos + k).toNat = pos.toNat + k.toNat :=
      fun k hK => toNat_add_of_le (by omega)
    have h₄ : (pos + 4).toNat = pos.toNat + 4 :=
      hAdd 4 (by decide)
    have h₈ : (pos + 8).toNat = pos.toNat + 8 :=
      hAdd 8 (by decide)
    have h₁₆ : (pos + 16).toNat = pos.toNat + 16 :=
      hAdd 16 (by decide)
    simp only [fileLayout]
    rw [readU32_of_inside (by omega) (by omega),
      readU32_of_inside (by omega) (by omega),
      readU64_of_inside (by omega) (by omega),
      readU64_of_inside (by omega) (by omega), h₄, h₈, h₁₆]
    rfl
  inside := by
    intro data pos entry hSmall hRead
    change pos.toNat + 24 ≤ _
    rcases ok_of_bind hRead with ⟨_, h₀, hRead⟩
    rcases ok_of_bind hRead with ⟨_, h₄, hRead⟩
    rcases ok_of_bind hRead with ⟨_, h₈, hRead⟩
    rcases ok_of_bind hRead with ⟨_, h₁₆, hRead⟩
    have h₀ := inside_of_readU32 hSmall h₀
    have h₄ := inside_of_readU32_add hSmall h₄ h₀
    have h₈ := inside_of_readU64_add hSmall h₈ h₄
    exact inside_of_readU64_add hSmall h₁₆ h₈

/- The entry that starts at `q`. -/
def nameLenAt
    (layout : EntryLayout β)
    (data : List U8)
    (q : Nat) : U32 :=
  wordAt data (q + layout.head.toNat)

def nameStart
    (layout : EntryLayout β)
    (q : Nat) : Nat :=
  q + layout.head.toNat + 4

def nextStart
    (layout : EntryLayout β)
    (data : List U8)
    (q : Nat) : Nat :=
  nameStart layout q + (nameLenAt layout data q).toNat

def entryAt
    (layout : EntryLayout β)
    (fields : List U8 → Nat → U32 → List U8 → β)
    (data : List U8)
    (q : Nat) : β :=
  fields data q (nameLenAt layout data q)
    ((data.drop (nameStart layout q)).take
      (nameLenAt layout data q).toNat)

/- It has a name, and lies in the table as a whole. -/
def Whole
    (layout : EntryLayout β)
    (data : List U8)
    (end_ q : Nat) : Prop :=
  nameStart layout q ≤ end_ ∧ nameLenAt layout data q ≠ 0 ∧
    nextStart layout data q ≤ end_

instance
    (layout : EntryLayout β)
    (data : List U8)
    (end_ q : Nat) :
    Decidable (Whole layout data end_ q) :=
  inferInstanceAs (Decidable (_ ∧ _))

/-
  Where an entry is looked for: at the start of the table and
  behind each whole entry.
-/
def starts
    (layout : EntryLayout β)
    (data : List U8)
    (end_ q : Nat) : List Nat :=
  if Whole layout data end_ q then
    q :: starts layout data end_ (nextStart layout data q)
  else [q]
termination_by end_ + 1 - q
decreasing_by
  rename_i hWhole
  rcases hWhole with ⟨hStart, _, hNext⟩
  unfold nextStart at *
  unfold nameStart at *
  omega

def entries
    (layout : EntryLayout β)
    (fields : List U8 → Nat → U32 → List U8 → β)
    (data : List U8)
    (end_ q : Nat) : List β :=
  ((starts layout data end_ q).filter
    fun q => decide (Whole layout data end_ q)).map
      (entryAt layout fields data)

theorem starts_of_whole
    {layout : EntryLayout β}
    {data : List U8}
    {end_ q : Nat}
    (hWhole : Whole layout data end_ q) :
    starts layout data end_ q =
      q :: starts layout data end_
        (nextStart layout data q) := by
  rw [starts, if_pos hWhole]

theorem starts_of_not_whole
    {layout : EntryLayout β}
    {data : List U8}
    {end_ q : Nat}
    (hWhole : ¬ Whole layout data end_ q) :
    starts layout data end_ q = [q] := by
  rw [starts, if_neg hWhole]

theorem mem_starts
    (layout : EntryLayout β)
    (data : List U8)
    (end_ q : Nat) : q ∈ starts layout data end_ q := by
  by_cases hWhole : Whole layout data end_ q
  · rw [starts_of_whole hWhole]
    exact List.mem_cons_self
  · rw [starts_of_not_whole hWhole]
    exact List.mem_singleton_self q

theorem entries_of_whole
    {layout : EntryLayout β}
    {fields : List U8 → Nat → U32 → List U8 → β}
    {data : List U8}
    {end_ q : Nat}
    (hWhole : Whole layout data end_ q) :
    entries layout fields data end_ q =
      entryAt layout fields data q ::
        entries layout fields data end_
          (nextStart layout data q) := by
  simp [entries, starts_of_whole hWhole, hWhole]

theorem entries_of_not_whole
    {layout : EntryLayout β}
    {fields : List U8 → Nat → U32 → List U8 → β}
    {data : List U8}
    {end_ q : Nat}
    (hWhole : ¬ Whole layout data end_ q) :
    entries layout fields data end_ q = [] := by
  simp [entries, starts_of_not_whole hWhole, hWhole]

/- Every entry takes up a byte of the table. -/
theorem length_entries_le
    (layout : EntryLayout β)
    (fields : List U8 → Nat → U32 → List U8 → β)
    (data : List U8)
    (end_ q : Nat) :
    (entries layout fields data end_ q).length ≤ end_ - q := by
  fun_induction starts layout data end_ q with
  | case1 q hWhole ih =>
      have hNext : q < nextStart layout data q := by
        unfold nextStart nameStart
        omega
      have hInside := hWhole.2.2
      rw [entries_of_whole hWhole, List.length_cons]
      omega
  | case2 q hWhole =>
      rw [entries_of_not_whole hWhole]
      exact Nat.zero_le _

------
-- Turns of the Loop
------

/-
  What keeps a turn of the loop at `q` inside the span: no
  check is passed by a sum that wrapped around, and the fields
  in front of the name length lie inside.
-/
structure EntrySound
    (layout : EntryLayout β)
    (data : List U8)
    (end_ q : Nat) : Prop where
  loop : ¬ Wraps 32 (q + layout.check.toNat) end_
  head :
    q + layout.check.toNat ≤ end_ →
      q + layout.head.toNat ≤ data.length
  nameLen :
    q + layout.check.toNat ≤ end_ →
      ¬ Wraps 32 (nameStart layout q) end_
  name :
    nameStart layout q ≤ end_ → nameLenAt layout data q ≠ 0 →
      ¬ Wraps 32 (nextStart layout data q) end_

instance
    (layout : EntryLayout β)
    (data : List U8)
    (end_ q : Nat) :
    Decidable (EntrySound layout data end_ q) :=
  decidable_of_iff
    (¬ Wraps 32 (q + layout.check.toNat) end_ ∧
      (q + layout.check.toNat ≤ end_ →
        q + layout.head.toNat ≤ data.length) ∧
      (q + layout.check.toNat ≤ end_ →
        ¬ Wraps 32 (nameStart layout q) end_) ∧
      (nameStart layout q ≤ end_ →
        nameLenAt layout data q ≠ 0 →
          ¬ Wraps 32 (nextStart layout data q) end_))
    ⟨fun ⟨h₁, h₂, h₃, h₄⟩ => ⟨h₁, h₂, h₃, h₄⟩,
      fun ⟨h₁, h₂, h₃, h₄⟩ => ⟨h₁, h₂, h₃, h₄⟩⟩

/- What a turn comes to. -/
def turn
    (layout : EntryLayout β)
    (fields : List U8 → Nat → U32 → List U8 → β)
    (data : List U8)
    (end_ q : Nat) : Option (β × U32) :=
  if Whole layout data end_ q then
    some (entryAt layout fields data q,
      BitVec.ofNat 32 (nextStart layout data q))
  else none

variable {layout : EntryLayout β}
variable {fields : List U8 → Nat → U32 → List U8 → β}
variable {data : List U8} {end_ pos : U32} {fuel : Nat}
variable {name : β → List U8}

/- Once the loop condition holds, the head does not wrap. -/
theorem EntrySound.nameStart_lt
    (hReads : layout.Reads fields)
    (hSound : EntrySound layout data end_.toNat pos.toNat)
    (hCheck :
      pos.toNat + layout.check.toNat ≤ end_.toNat) :
    nameStart layout pos.toNat < 2 ^ 32 := by
  have hEnd := end_.isLt
  have hShort := hReads.short
  have hNot := hSound.nameLen hCheck
  unfold Wraps nameStart at hNot
  unfold nameStart
  omega

/- The rest of a turn, once the name length was read. -/
theorem parseName_of_sound
    (hEnd : end_.toNat ≤ data.length)
    (hSound : EntrySound layout data end_.toNat pos.toNat)
    (hName : nameStart layout pos.toNat ≤ end_.toNat)
    {start : U32}
    (hStart : start.toNat = nameStart layout pos.toNat) :
    (if nameLenAt layout data pos.toNat = 0 ∨
        end_ < start + nameLenAt layout data pos.toNat then
      return none
    else do
      let name ←
        readName data start (nameLenAt layout data pos.toNat)
      return some
        (fields data pos.toNat
          (nameLenAt layout data pos.toNat) name,
          start + nameLenAt layout data pos.toNat) :
      Except Stop (Option (β × U32))) =
      .ok (turn layout fields data end_.toNat pos.toNat) := by
  set n := nameLenAt layout data pos.toNat with hN
  have hSum :
      start.toNat + n.toNat =
        nextStart layout data pos.toNat := by
    rw [hStart, hN]
    rfl
  by_cases hWhole : Whole layout data end_.toNat pos.toNat
  · rcases hWhole with ⟨_, hNonzero, hNext⟩
    have hLe : start + n ≤ end_ :=
      (add_le_iff start n end_).2 (Or.inl (by omega))
    have hCond : ¬ (n = 0 ∨ end_ < start + n) := by
      rintro (hZero | hLt)
      · exact hNonzero hZero
      · exact absurd hLe (BitVec.not_le.2 hLt)
    have hAdd : (start + n).toNat = start.toNat + n.toNat :=
      toNat_add_of_le (by have := end_.isLt; omega)
    have hCopy :
        readName data start n =
          .ok ((data.drop (nameStart layout pos.toNat)).take
            n.toNat) := by
      rw [readName, if_neg (by omega),
        copy_of_inside (by omega), hStart]
    have hPos :
        start + n =
          BitVec.ofNat 32
            (nextStart layout data pos.toNat) := by
      rw [← hSum, ← hAdd, BitVec.ofNat_toNat,
        BitVec.setWidth_eq]
    rw [if_neg hCond, hCopy, ok_bind, turn,
      if_pos ⟨hName, hNonzero, hNext⟩, hPos]
    rfl
  · have hCond : n = 0 ∨ end_ < start + n := by
      by_contra hNot
      rw [not_or] at hNot
      have hLe : start + n ≤ end_ := BitVec.not_lt.1 hNot.2
      rw [add_le_iff, hSum] at hLe
      rcases hLe with hLe | hWraps
      · exact hWhole ⟨hName, hNot.1, hLe⟩
      · exact hSound.name hName hNot.1 hWraps
    rw [if_pos hCond, turn, if_neg hWhole]
    rfl

theorem parseEntry_of_sound
    (hReads : layout.Reads fields)
    (hEnd : end_.toNat ≤ data.length)
    (hSound : EntrySound layout data end_.toNat pos.toNat) :
    parseEntry layout data end_ pos =
      .ok (turn layout fields data end_.toNat pos.toNat) := by
  have hChecked := hReads.checked
  by_cases hCheck :
      pos.toNat + layout.check.toNat ≤ end_.toNat
  · have hFits := hSound.nameStart_lt hReads hCheck
    have hHead := hSound.head hCheck
    have hLoop : pos + layout.check ≤ end_ :=
      (add_le_iff pos layout.check end_).2 (Or.inl hCheck)
    have hPos :
        (pos + layout.head).toNat =
          pos.toNat + layout.head.toNat :=
      toNat_add_of_le (by unfold nameStart at hFits; omega)
    have hStart :
        (pos + layout.head + 4).toNat =
          nameStart layout pos.toNat := by
      rw [toNat_add_of_le, hPos]
      · rfl
      · rw [hPos]
        exact hFits
    rw [parseEntry, if_pos hLoop,
      hReads.read data pos
        (by unfold nameStart at hFits; omega) hHead, ok_bind]
    by_cases hName : nameStart layout pos.toNat ≤ end_.toNat
    · have hNoBreak : ¬ end_ < pos + layout.head + 4 := by
        rw [BitVec.lt_def, hStart]
        omega
      have hRead :
          readU32 data (pos + layout.head) =
            .ok (nameLenAt layout data pos.toNat) := by
        unfold nameStart at hFits hName
        rw [readU32_of_inside (by omega) (by omega), hPos]
        rfl
      simp only [if_neg hNoBreak, hRead, ok_bind]
      exact parseName_of_sound hEnd hSound hName hStart
    · have hBreak : end_ < pos + layout.head + 4 := by
        rw [BitVec.lt_def, hStart]
        omega
      have hWhole :
          ¬ Whole layout data end_.toNat pos.toNat :=
        fun hWhole => hName hWhole.1
      simp only [if_pos hBreak]
      rw [turn, if_neg hWhole]
      rfl
  · have hLoop : ¬ pos + layout.check ≤ end_ := by
      rw [add_le_iff]
      rintro (hLe | hWraps)
      · exact hCheck hLe
      · exact hSound.loop hWraps
    have hWhole :
        ¬ Whole layout data end_.toNat pos.toNat := by
      rintro ⟨hStart, _⟩
      unfold nameStart at hStart
      omega
    rw [parseEntry, if_neg hLoop, turn, if_neg hWhole]

/- A name that wrapped around is not copied. -/
theorem name_inside
    (hSmall : data.length < 2 ^ 32)
    (hEnd : end_.toNat ≤ data.length)
    {start : U32}
    (hStart : start.toNat = nameStart layout pos.toNat)
    (hNonzero : nameLenAt layout data pos.toNat ≠ 0)
    (hWraps :
      Wraps 32 (nextStart layout data pos.toNat) end_.toNat)
    {f : List U8 → Option (β × U32)}
    {result : Option (β × U32)}
    (hParse :
      (if nameLenAt layout data pos.toNat = 0 ∨
          end_ < start + nameLenAt layout data pos.toNat then
        return none
      else do
        let name ←
          readName data start
            (nameLenAt layout data pos.toNat)
        return f name :
        Except Stop (Option (β × U32))) = .ok result) :
    False := by
  set n := nameLenAt layout data pos.toNat with hN
  have hSum :
      start.toNat + n.toNat =
        nextStart layout data pos.toNat := by
    rw [hStart, hN]
    rfl
  have hLe : start + n ≤ end_ := by
    rw [add_le_iff, hSum]
    exact Or.inr hWraps
  have hCond : ¬ (n = 0 ∨ end_ < start + n) := by
    rintro (hZero | hLt)
    · exact hNonzero hZero
    · exact absurd hLe (BitVec.not_le.2 hLt)
  rw [if_neg hCond] at hParse
  rcases ok_of_bind hParse with ⟨name, hName, _⟩
  rw [BitVec.le_def] at hLe
  rw [readName, if_neg (by omega)] at hName
  have hInside := inside_of_copy hName
  have hOver := hWraps.1
  omega

/- In a short span only a sound turn has a result. -/
theorem sound_of_parseEntry
    (hReads : layout.Reads fields)
    (hSmall : data.length < 2 ^ 32)
    (hEnd : end_.toNat ≤ data.length)
    {result : Option (β × U32)}
    (hParse :
      parseEntry layout data end_ pos = .ok result) :
    EntrySound layout data end_.toNat pos.toNat := by
  have hChecked := hReads.checked
  by_cases hLoop : pos + layout.check ≤ end_
  · rw [parseEntry, if_pos hLoop] at hParse
    rcases ok_of_bind hParse with ⟨entry, hEntry, hParse⟩
    have hHead := hReads.inside data pos entry hSmall hEntry
    have hPos :
        (pos + layout.head).toNat =
          pos.toNat + layout.head.toNat :=
      toNat_add_of_le (by omega)
    have hStart :
        (pos + layout.head).toNat + (4 : U32).toNat =
          nameStart layout pos.toNat := by
      rw [hPos]
      rfl
    have hLen :
        ¬ Wraps 32 (nameStart layout pos.toNat)
          end_.toNat := by
      intro hWraps
      have hLe : pos + layout.head + 4 ≤ end_ := by
        rw [add_le_iff, hStart]
        exact Or.inr hWraps
      simp only [if_neg (BitVec.not_lt.2 hLe)] at hParse
      rcases ok_of_bind hParse with ⟨_, hRead, _⟩
      have hInside := inside_of_readU32 hSmall hRead
      have hOver := hWraps.1
      unfold nameStart at hOver
      omega
    refine ⟨?_, fun _ => hHead, fun _ => hLen, ?_⟩
    · rintro ⟨hOver, _⟩
      omega
    · intro hName hNonzero hWraps
      have hLe : pos + layout.head + 4 ≤ end_ := by
        rw [add_le_iff, hStart]
        exact Or.inl hName
      have hRead :
          readU32 data (pos + layout.head) =
            .ok (nameLenAt layout data pos.toNat) := by
        unfold nameStart at hName
        rw [readU32_of_inside (by omega) (by omega), hPos]
        rfl
      have hAdd :
          (pos + layout.head + 4).toNat =
            nameStart layout pos.toNat := by
        rw [toNat_add_of_le (by omega), hStart]
      simp only [if_neg (BitVec.not_lt.2 hLe), hRead,
        ok_bind] at hParse
      exact name_inside hSmall hEnd hAdd hNonzero hWraps
        hParse
  · have hNot := mt (add_le_iff pos layout.check end_).2 hLoop
    rw [not_or] at hNot
    rcases hNot with ⟨hOut, hNoWrap⟩
    refine ⟨hNoWrap, fun hCheck => absurd hCheck hOut,
      fun hCheck => absurd hCheck hOut, ?_⟩
    intro hName
    unfold nameStart at hName
    omega

------
-- Runs of the Loop
------

/- Behind a whole entry the position goes on, unwrapped. -/
theorem toNat_nextStart
    (hWhole : Whole layout data end_.toNat pos.toNat) :
    (BitVec.ofNat 32
      (nextStart layout data pos.toNat)).toNat =
      nextStart layout data pos.toNat := by
  have hEnd := end_.isLt
  have hNext := hWhole.2.2
  rw [BitVec.toNat_ofNat, Nat.mod_eq_of_lt (by omega)]

theorem parseEntries_of_sound
    (hReads : layout.Reads fields)
    (hEnd : end_.toNat ≤ data.length)
    (hSound :
      ∀ q ∈ starts layout data end_.toNat pos.toNat,
        EntrySound layout data end_.toNat q)
    (hFuel : end_.toNat - pos.toNat < fuel) :
    parseEntries layout data end_ fuel pos =
      .ok (entries layout fields data end_.toNat
        pos.toNat) := by
  induction fuel generalizing pos with
  | zero => omega
  | succ fuel ih =>
      by_cases hWhole : Whole layout data end_.toNat pos.toNat
      · have hNext := toNat_nextStart hWhole
        have hInside := hWhole.2.2
        rw [starts_of_whole hWhole, List.forall_mem_cons,
          ← hNext] at hSound
        have hAfter :
            pos.toNat < nextStart layout data pos.toNat := by
          unfold nextStart nameStart
          omega
        have hRest := ih hSound.2 (by omega)
        rw [parseEntries,
          parseEntry_of_sound hReads hEnd hSound.1, ok_bind,
          turn, if_pos hWhole]
        simp only [hRest, ok_bind]
        rw [entries_of_whole hWhole, hNext]
        rfl
      · rw [starts_of_not_whole hWhole,
          List.forall_mem_singleton] at hSound
        rw [parseEntries,
          parseEntry_of_sound hReads hEnd hSound, ok_bind,
          turn, if_neg hWhole, entries_of_not_whole hWhole]
        rfl

/- In a short span only a sound table has a result. -/
theorem sound_of_parseEntries
    (hReads : layout.Reads fields)
    (hSmall : data.length < 2 ^ 32)
    (hEnd : end_.toNat ≤ data.length)
    {result : List β}
    (hParse :
      parseEntries layout data end_ fuel pos =
        .ok result) :
    (∀ q ∈ starts layout data end_.toNat pos.toNat,
        EntrySound layout data end_.toNat q) ∧
      result =
        entries layout fields data end_.toNat pos.toNat := by
  induction fuel generalizing pos result with
  | zero => cases hParse
  | succ fuel ih =>
      rw [parseEntries] at hParse
      rcases ok_of_bind hParse with ⟨step, hStep, hParse⟩
      have hSound :=
        sound_of_parseEntry hReads hSmall hEnd hStep
      rw [parseEntry_of_sound hReads hEnd hSound] at hStep
      cases hStep
      by_cases hWhole : Whole layout data end_.toNat pos.toNat
      · have hNext := toNat_nextStart hWhole
        rw [turn, if_pos hWhole] at hParse
        rcases ok_of_bind hParse with ⟨rest, hRest, hParse⟩
        cases hParse
        rcases ih hRest with ⟨hStarts, rfl⟩
        rw [hNext] at hStarts
        rw [starts_of_whole hWhole, List.forall_mem_cons,
          entries_of_whole hWhole, hNext]
        exact ⟨⟨hSound, hStarts⟩, rfl⟩
      · rw [turn, if_neg hWhole] at hParse
        cases hParse
        rw [starts_of_not_whole hWhole,
          List.forall_mem_singleton,
          entries_of_not_whole hWhole]
        exact ⟨hSound, rfl⟩

------
-- Tables
------

/- The table lies in the span, as the loader checks it. -/
def TableInside
    (data : List U8)
    (tableOff tableSize : U32) : Prop :=
  (tableOff + tableSize).toNat ≤ data.length

instance
    (data : List U8)
    (tableOff tableSize : U32) :
    Decidable (TableInside data tableOff tableSize) :=
  inferInstanceAs (Decidable (_ ≤ _))

/- Each turn of its loop keeps to the span. -/
def TableSound
    (layout : EntryLayout β)
    (data : List U8)
    (tableOff tableSize : U32) : Prop :=
  ∀ q ∈
      starts layout data (tableOff + tableSize).toNat
        tableOff.toNat,
    EntrySound layout data (tableOff + tableSize).toNat q

/- What the table holds. -/
def tableEntries
    (layout : EntryLayout β)
    (fields : List U8 → Nat → U32 → List U8 → β)
    (data : List U8)
    (tableOff tableSize : U32) : List β :=
  entries layout fields data (tableOff + tableSize).toNat
    tableOff.toNat

variable {tableOff tableSize : U32}

theorem parseTable_of_sound
    (hReads : layout.Reads fields)
    (hInside : TableInside data tableOff tableSize)
    (hSound : TableSound layout data tableOff tableSize)
    (hFuel : 2 ^ 32 ≤ fuel) :
    parseTable layout data fuel tableOff tableSize =
      .ok (some
        (tableEntries layout fields data tableOff
          tableSize)) := by
  have hEnd := (tableOff + tableSize).isLt
  have hLoop :=
    parseEntries_of_sound hReads hInside hSound
      (show (tableOff + tableSize).toNat - tableOff.toNat <
        fuel by omega)
  rw [parseTable, if_neg (Nat.not_lt.2 hInside), hLoop]
  rfl

theorem parseTable_of_not_inside
    (hInside : ¬ TableInside data tableOff tableSize)
    (fuel : Nat) :
    parseTable layout data fuel tableOff tableSize =
      .ok none := by
  rw [parseTable, if_pos (Nat.not_le.1 hInside)]

theorem sound_of_parseTable
    (hReads : layout.Reads fields)
    (hSmall : data.length < 2 ^ 32)
    (hInside : TableInside data tableOff tableSize)
    {result : Option (List β)}
    (hParse :
      parseTable layout data fuel tableOff tableSize =
        .ok result) :
    TableSound layout data tableOff tableSize ∧
      result =
        some
          (tableEntries layout fields data tableOff
            tableSize) := by
  rw [parseTable, if_neg (Nat.not_lt.2 hInside)] at hParse
  rcases ok_of_bind hParse with ⟨found, hLoop, hParse⟩
  cases hParse
  rcases sound_of_parseEntries hReads hSmall hInside hLoop with
    ⟨hSound, rfl⟩
  exact ⟨hSound, rfl⟩

/-
  An entry in a table has a name, where the fields in front
  of it leave the name as it was read.
-/
theorem name_of_parseEntry
    (hName :
      ∀ data pos entry, layout.read data pos = .ok entry →
        ∀ n bytes, name (entry n bytes) = bytes)
    (hEnd : end_.toNat ≤ data.length)
    {e : β}
    {next : U32}
    (hParse :
      parseEntry layout data end_ pos =
        .ok (some (e, next))) :
    name e ≠ [] := by
  unfold parseEntry at hParse
  split at hParse
  · rcases ok_of_bind hParse with ⟨entry, hEntry, hParse⟩
    dsimp only at hParse
    split at hParse
    · cases hParse
    · rcases ok_of_bind hParse with ⟨n, _, hParse⟩
      split at hParse
      · cases hParse
      · next hCond =>
          rw [not_or, BitVec.not_lt] at hCond
          rcases hCond with ⟨hNonzero, hFits⟩
          rcases ok_of_bind hParse with ⟨bytes, hRead, hParse⟩
          cases hParse
          rw [BitVec.le_def] at hFits
          rw [readName, if_neg (by omega)] at hRead
          have hInside := inside_of_copy hRead
          rw [copy_of_inside hInside] at hRead
          cases hRead
          rw [hName _ _ _ hEntry]
          intro hEmpty
          have hLength := congrArg List.length hEmpty
          rw [List.length_take, List.length_drop,
            List.length_nil] at hLength
          apply hNonzero
          apply BitVec.eq_of_toNat_eq
          change n.toNat = 0
          omega
  · cases hParse

theorem name_of_parseEntries
    (hName :
      ∀ data pos entry, layout.read data pos = .ok entry →
        ∀ n bytes, name (entry n bytes) = bytes)
    (hEnd : end_.toNat ≤ data.length)
    {es : List β}
    (hParse :
      parseEntries layout data end_ fuel pos = .ok es) :
    ∀ e ∈ es, name e ≠ [] := by
  induction fuel generalizing pos es with
  | zero => cases hParse
  | succ fuel ih =>
      rw [parseEntries] at hParse
      rcases ok_of_bind hParse with ⟨step, hTurn, hParse⟩
      cases step with
      | none =>
          cases hParse
          exact List.forall_mem_nil _
      | some step =>
          rcases ok_of_bind hParse with ⟨rest, hRest, hParse⟩
          cases hParse
          rw [List.forall_mem_cons]
          exact ⟨name_of_parseEntry hName hEnd hTurn, ih hRest⟩

theorem name_of_parseTable
    (hName :
      ∀ data pos entry, layout.read data pos = .ok entry →
        ∀ n bytes, name (entry n bytes) = bytes)
    {es : List β}
    (hParse :
      parseTable layout data fuel tableOff tableSize =
        .ok (some es)) :
    ∀ e ∈ es, name e ≠ [] := by
  unfold parseTable at hParse
  split at hParse
  · cases hParse
  · next hInside =>
      rcases ok_of_bind hParse with ⟨found, hLoop, hParse⟩
      cases hParse
      exact name_of_parseEntries hName (Nat.not_lt.1 hInside)
        hLoop

theorem length_tableEntries_lt
    (layout : EntryLayout β)
    (fields : List U8 → Nat → U32 → List U8 → β)
    (data : List U8)
    (tableOff tableSize : U32) :
    (tableEntries layout fields data tableOff
      tableSize).length < 2 ^ 32 := by
  have hLength :=
    length_entries_le layout fields data
      (tableOff + tableSize).toNat tableOff.toNat
  have hEnd := (tableOff + tableSize).isLt
  unfold tableEntries
  omega

end Table

end RomFs

end M1Switch
