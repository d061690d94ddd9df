import Mathlib.Data.BitVec
import Mathlib.Data.List.DropRight
import M1Switch.Library.Scanner

/-
  Lines of a text, and what is behind a word in it.

  Lines end with a symbol of their own.  A text that arrives in
  pieces has the same lines as the whole: what is behind the
  last end of a line waits for the next piece.

  Key definitions include:
    * `behind`
    * `lineScanner`

  Main results:
    * `behind_singleton`
    * `lines_append`
    * `lines_flatMap`
-/

------
-- Words in a Text
------

namespace Text

/- The character as a byte. -/
def ascii (c : Char) : BitVec 8 := BitVec.ofNat 8 c.toNat

/- The bytes of a word. -/
def bytes (word : String) : List (BitVec 8) :=
  word.toList.map ascii

/- White space. -/
def isspace (c : BitVec 8) : Bool :=
  c == ascii ' ' || (decide (0x09 ≤ c) && decide (c ≤ 0x0D))

variable {α : Type} [DecidableEq α]
variable {word text before : List α}
variable {a : α}

/- What is behind the first place where the word stands. -/
def behind (word : List α) : List α → Option (List α)
| [] => if word = [] then some [] else none
| a :: text =>
    if word <+: a :: text then
      some ((a :: text).drop word.length)
    else behind word text

theorem behind_of_prefix (text : List α) :
    behind word (word ++ text) = some text := by
  cases hText : word ++ text with
  | nil =>
      rcases List.append_eq_nil_iff.mp hText with ⟨hWord, hNil⟩
      rw [hWord, hNil]
      rfl
  | cons a rest =>
      have hPrefix : word <+: a :: rest := by
        rw [← hText]
        exact List.prefix_append word text
      rw [behind, if_pos hPrefix, ← hText, List.drop_left]

theorem behind_cons_of_not_prefix
    (hNot : ¬ word <+: a :: text) :
    behind word (a :: text) = behind word text := by
  rw [behind, if_neg hNot]

/- A word is not found before the symbol it starts with. -/
theorem behind_append_of_notMem
    (hBefore : a ∉ before) :
    behind (a :: word) (before ++ text) =
      behind (a :: word) text := by
  induction before with
  | nil => rfl
  | cons b before ih =>
      rw [List.mem_cons, not_or] at hBefore
      rw [List.cons_append, behind_cons_of_not_prefix]
      · exact ih hBefore.2
      · rintro ⟨rest, hEq⟩
        rw [List.cons_append] at hEq
        exact hBefore.1 (List.cons.inj hEq).1

/- The first place of a symbol. -/
theorem behind_singleton
    (hBefore : a ∉ before)
    (text : List α) :
    behind [a] (before ++ a :: text) = some text := by
  rw [behind_append_of_notMem hBefore]
  exact behind_of_prefix text

theorem suffix_of_behind
    {rest : List α}
    (hBehind : behind word text = some rest) :
    rest <:+ text := by
  induction text with
  | nil =>
      rw [behind] at hBehind
      split at hBehind
      · rw [← Option.some.inj hBehind]
      · cases hBehind
  | cons a text ih =>
      rw [behind] at hBehind
      split at hBehind
      · rw [← Option.some.inj hBehind]
        exact List.drop_suffix _ _
      · exact (ih hBehind).trans (List.suffix_cons a text)

theorem takeWhile_ne_append
    (hBefore : a ∉ before)
    (text : List α) :
    (before ++ a :: text).takeWhile (· ≠ a) = before := by
  rw [List.takeWhile_append_of_pos,
    List.takeWhile_cons_of_neg (by simp), List.append_nil]
  intro b hB
  apply decide_eq_true
  intro hEq
  rw [hEq] at hB
  exact hBefore hB

theorem behind_singleton_eq_none
    (hNone : a ∉ text) :
    behind [a] text = none := by
  have hAppend : behind [a] (text ++ []) = behind [a] [] :=
    behind_append_of_notMem hNone
  rw [List.append_nil] at hAppend
  rw [hAppend]
  rfl

end Text

------
-- Lines
------

namespace Text

variable {α : Type} [DecidableEq α]
variable {sep : α}
variable {line text text' : List α}

/- The first line, without its end, if it has one. -/
def firstLine (sep : α) : List α → Option (List α)
| [] => none
| a :: text =>
    if a = sep then some []
    else (firstLine sep text).map (a :: ·)

theorem firstLine_append
    (hLine : sep ∉ line)
    (text : List α) :
    firstLine sep (line ++ sep :: text) = some line := by
  induction line with
  | nil => exact if_pos rfl
  | cons a line ih =>
      rw [List.mem_cons, not_or] at hLine
      rw [List.cons_append, firstLine,
        if_neg (Ne.symm hLine.1), ih hLine.2, Option.map_some]

theorem firstLine_eq_none
    (hText : sep ∉ text) :
    firstLine sep text = none := by
  induction text with
  | nil => rfl
  | cons a text ih =>
      rw [List.mem_cons, not_or] at hText
      rw [firstLine, if_neg (Ne.symm hText.1), ih hText.2,
        Option.map_none]

/- A text with an end of a line is that line and the rest. -/
theorem exists_of_firstLine
    (hFirst : firstLine sep text = some line) :
    sep ∉ line ∧ ∃ rest, text = line ++ sep :: rest := by
  by_cases hMem : sep ∈ text
  · rcases List.eq_append_cons_of_mem hMem with
      ⟨before, rest, hText, hBefore⟩
    rw [hText, firstLine_append hBefore, Option.some.injEq]
      at hFirst
    rw [← hFirst]
    exact ⟨hBefore, rest, hText⟩
  · rw [firstLine_eq_none hMem] at hFirst
    cases hFirst

/- A step takes a line with its end. -/
def lineScanner (sep : α) : Scanner α (List α) where
  step text :=
    (firstLine sep text).map fun line =>
      (line.length + 1, [line])
  progress := by
    intro text n out hStep
    rcases Option.map_eq_some_iff.mp hStep with
      ⟨line, hFirst, hOut⟩
    rcases exists_of_firstLine hFirst with ⟨-, rest, hText⟩
    have hN : line.length + 1 = n := congrArg Prod.fst hOut
    rw [hText, List.length_append, List.length_cons]
    omega
  determined := by
    intro text n out hStep more
    rcases Option.map_eq_some_iff.mp hStep with
      ⟨line, hFirst, hOut⟩
    rcases exists_of_firstLine hFirst with
      ⟨hLine, rest, hText⟩
    have hN : line.length + 1 = n := congrArg Prod.fst hOut
    have hTake : text.take n = line ++ [sep] := by
      rw [hText, ← hN, List.take_length_add_append]
      rfl
    rw [hTake, List.append_assoc, List.singleton_append,
      firstLine_append hLine, Option.map_some]
    exact congrArg some hOut

/- The lines that are complete. -/
def lines (sep : α) (text : List α) : List (List α) :=
  ((lineScanner sep).run text).2

/- What is behind the last of them. -/
def rest (sep : α) (text : List α) : List α :=
  text.drop ((lineScanner sep).run text).1

theorem lines_of_notMem
    (hText : sep ∉ text) :
    lines sep text = [] ∧ rest sep text = text := by
  have hStop : (lineScanner sep).step text = none := by
    show Option.map _ _ = _
    rw [firstLine_eq_none hText, Option.map_none]
  unfold lines rest
  rw [(lineScanner sep).run_of_stop hStop]
  exact ⟨rfl, rfl⟩

theorem lines_cons
    (hLine : sep ∉ line)
    (text : List α) :
    lines sep (line ++ sep :: text) = line :: lines sep text ∧
      rest sep (line ++ sep :: text) = rest sep text := by
  have hStep :
      (lineScanner sep).step (line ++ sep :: text) =
        some (line.length + 1, [line]) := by
    show Option.map _ _ = _
    rw [firstLine_append hLine, Option.map_some]
  have hDrop :
      (line ++ sep :: text).drop (line.length + 1) = text := by
    rw [← List.drop_drop, List.drop_left]
    rfl
  unfold lines rest
  rw [(lineScanner sep).run_of_step hStep, hDrop]
  refine ⟨rfl, ?_⟩
  rw [← List.drop_drop, hDrop]

/- No line ends in what is behind the last one. -/
theorem notMem_rest (text : List α) :
    sep ∉ rest sep text := by
  induction hLen : text.length using Nat.strongRecOn
    generalizing text with
  | ind m ih =>
      by_cases hMem : sep ∈ text
      · rcases List.eq_append_cons_of_mem hMem with
          ⟨line, more, hText, hLine⟩
        rw [hText, (lines_cons hLine more).2]
        apply ih more.length ?_ more rfl
        rw [← hLen, hText, List.length_append, List.length_cons]
        omega
      · rw [(lines_of_notMem hMem).2]
        exact hMem

/- More text goes on from what is behind the last line. -/
theorem lines_append
    (sep : α)
    (text text' : List α) :
    lines sep (text ++ text') =
        lines sep text ++ lines sep (rest sep text ++ text') ∧
      rest sep (text ++ text') =
        rest sep (rest sep text ++ text') := by
  have hRun := (lineScanner sep).run_append text text'
  have hLe := (lineScanner sep).run_consumed_le text
  unfold lines rest
  rw [hRun]
  refine ⟨rfl, ?_⟩
  rw [← List.drop_drop, List.drop_append_of_le_length hLe]

/- Lines that are written one by one are read so. -/
theorem lines_flatMap
    {rows : List (List α)}
    (hRows : ∀ row ∈ rows, sep ∉ row) :
    lines sep (rows.flatMap (· ++ [sep])) = rows ∧
      rest sep (rows.flatMap (· ++ [sep])) = [] := by
  induction rows with
  | nil => exact lines_of_notMem List.not_mem_nil
  | cons row rows ih =>
      rcases
        ih fun r hR => hRows r (List.mem_cons_of_mem row hR) with
        ⟨hLines, hRest⟩
      rcases
        lines_cons (hRows row List.mem_cons_self)
          (rows.flatMap (· ++ [sep])) with
        ⟨hLines', hRest'⟩
      rw [List.flatMap_cons, List.append_assoc,
        List.singleton_append, hLines', hRest', hLines, hRest]
      exact ⟨rfl, rfl⟩

end Text
