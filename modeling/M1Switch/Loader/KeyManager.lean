import Mathlib.Data.List.Nodup
import Mathlib.Logic.Function.Basic
import M1Switch.Common.Types
import M1Switch.Library.Text

/-
  Key files.

  A line of a key file has a name, a sign of equality and hex
  digits.  A key is stored if its digits give sixteen bytes.
  The header key has thirty-two: a line with that many is long
  enough to be parsed, and then the key is dropped.

  Key definitions include:
    * `parseHex`
    * `loadFromFile`

  Main results:
    * `loadLine_key`
    * `loadFromFile_rows`
    * `getKey_iff`
-/

------
-- Loading
------

namespace M1Switch

open Text (ascii isspace)

/- The keys by name. -/
structure KeyManager where
  keys : List U8 → Option (List U8) := fun _ => none

namespace KeyManager

def isxdigit (c : U8) : Bool :=
  (decide (ascii '0' ≤ c) && decide (c ≤ ascii '9')) ||
    (decide (ascii 'A' ≤ c) && decide (c ≤ ascii 'F')) ||
      (decide (ascii 'a' ≤ c) && decide (c ≤ ascii 'f'))

/- The value of a digit, or -1. -/
def hexValue (c : U8) : Int :=
  if isxdigit c then
    if ascii 'a' ≤ c then c.toNat - 97 + 10
    else if ascii 'A' ≤ c then c.toNat - 65 + 10
    else c.toNat - 48
  else -1

/- Two digits a byte.  A pair with another character is passed
over. -/
def parseHex : List U8 → List U8
| high :: low :: hex =>
    if hexValue high < 0 ∨ hexValue low < 0 then parseHex hex
    else
      ((BitVec.ofInt 32 (hexValue high) <<< 4) |||
          BitVec.ofInt 32 (hexValue low)).setWidth 8 ::
        parseHex hex
| _ => []

/- Without the spaces at both ends. -/
def trim (value : List U8) : List U8 :=
  (value.rdropWhile isspace).dropWhile isspace

/- What a line does, and how many keys it gives. -/
def loadLine (km : KeyManager) (line : List U8) : KeyManager × U32 :=
  if line = [] ∨ line.head? = some (ascii '#') ∨
      line.head? = some (ascii ';') then (km, 0)
  else
    match Text.behind [ascii '='] line with
    | none => (km, 0)
    | some value =>
        let name :=
          (line.takeWhile (· ≠ ascii '=')).rdropWhile isspace
        let value := trim value
        if 32 ≤ value.length then
          let key := parseHex value
          if key.length = 16 then
            ({ keys := Function.update km.keys name (some key) }, 1)
          else (km, 0)
        else (km, 0)

def loadLines : KeyManager × U32 → List (List U8) → KeyManager × U32
| s, [] => s
| (km, loaded), line :: lines =>
    let (km, n) := km.loadLine line
    loadLines (km, loaded + n) lines

/- The lines of a file.  The last one may have no end. -/
def getLines (content : List U8) : List (List U8) :=
  let last := Text.rest (ascii '\n') content
  Text.lines (ascii '\n') content ++
    if last = [] then [] else [last]

/- There is nothing in a file that cannot be opened. -/
def loadFromFile
    (km : KeyManager)
    (file : Option (List U8)) : KeyManager × Bool :=
  match file with
  | none => (km, false)
  | some content =>
      let s := loadLines (km, 0) (getLines content)
      (s.1, decide (0 < s.2))

def getKey (km : KeyManager) (name : List U8) : List U8 :=
  (km.keys name).getD []

------
-- What Is Written to a Key File
------

/- The character is the digit for a number, in either case. -/
def IsDigit (c n : U8) : Prop :=
  n < 10 ∧ c = ascii '0' + n ∨
    10 ≤ n ∧ n < 16 ∧
      (c = ascii 'a' + (n - 10) ∨ c = ascii 'A' + (n - 10))

/- The digits of bytes. -/
inductive Spells : List U8 → List U8 → Prop where
  | nil : Spells [] []
  | byte {high low b : U8} {digits value : List U8}
      (hHigh : IsDigit high (b >>> 4))
      (hLow : IsDigit low (b &&& 0xF))
      (hRest : Spells digits value) :
      Spells (high :: low :: digits) (b :: value)

/- A blank line or a comment, or the line of a key, with spaces
around the sign. -/
inductive FileRow where
  | note (line : List U8)
  | key (name before after digits value : List U8)

namespace FileRow

def line : FileRow → List U8
| .note line => line
| .key name before after digits _ =>
    name ++ before ++ ascii '=' :: (after ++ digits)

/- The name and the value of a key. -/
def entry : FileRow → List (List U8 × List U8)
| .note _ => []
| .key name _ _ _ value => [(name, value)]

/- The first character starts a comment. -/
def startsComment (c : U8) : Prop :=
  c = ascii '#' ∨ c = ascii ';'

structure NameOk (name : List U8) : Prop where
  nonempty : name ≠ []
  noSign : ascii '=' ∉ name
  noEnd : ascii '\n' ∉ name
  first :
    ∀ c ∈ name.head?, isspace c = false ∧ ¬ startsComment c
  last : ∀ c ∈ name.getLast?, isspace c = false

def Ok : FileRow → Prop
| .note line =>
    ascii '\n' ∉ line ∧
      ((∀ c ∈ line, isspace c = true) ∨
        ∃ c ∈ line.head?, startsComment c)
| .key name before after digits value =>
    NameOk name ∧ (∀ c ∈ before, c = ascii ' ') ∧
      (∀ c ∈ after, c = ascii ' ') ∧ Spells digits value ∧
        (value.length = 16 ∨ value.length = 32)

end FileRow

/- The lines one by one, each with its end. -/
def written (rows : List FileRow) : List U8 :=
  rows.flatMap fun row => row.line ++ [ascii '\n']

def entries (rows : List FileRow) : List (List U8 × List U8) :=
  rows.flatMap FileRow.entry

------
-- Digits
------

theorem hexValue_decimal :
    ∀ n : U8, n < 10 → hexValue (ascii '0' + n) = n.toNat := by
  decide

theorem hexValue_letter :
    ∀ n : U8, 10 ≤ n → n < 16 →
      hexValue (ascii 'a' + (n - 10)) = n.toNat ∧
        hexValue (ascii 'A' + (n - 10)) = n.toNat := by
  decide

theorem hexValue_digit
    {c n : U8}
    (hDigit : IsDigit c n) :
    hexValue c = n.toNat := by
  rcases hDigit with
    ⟨hSmall, hC⟩ | ⟨hTen, hLess, hLower | hUpper⟩
  · rw [hC]
    exact hexValue_decimal n hSmall
  · rw [hLower]
    exact (hexValue_letter n hTen hLess).1
  · rw [hUpper]
    exact (hexValue_letter n hTen hLess).2

/- Two halves of a byte. -/
theorem join_halves :
    ∀ b : U8,
      ((BitVec.ofInt 32 ((b >>> 4).toNat : Int) <<< 4) |||
          BitVec.ofInt 32 ((b &&& 0xF).toNat : Int)).setWidth 8 =
        b := by
  decide

/- The digits of bytes are parsed to them. -/
theorem parseHex_of_spells
    {digits value : List U8}
    (hSpells : Spells digits value) :
    parseHex digits = value := by
  induction hSpells with
  | nil => rfl
  | byte hHigh hLow _ ih =>
      rw [parseHex, hexValue_digit hHigh, hexValue_digit hLow,
        if_neg (by omega), join_halves, ih]

theorem length_of_spells
    {digits value : List U8}
    (hSpells : Spells digits value) :
    digits.length = 2 * value.length := by
  induction hSpells with
  | nil => rfl
  | byte _ _ _ ih =>
      rw [List.length_cons, List.length_cons, List.length_cons,
        ih]
      omega

/- A digit is no space, and no end of a line. -/
theorem digit_ne
    {c n : U8}
    (hDigit : IsDigit c n) :
    isspace c = false ∧ c ≠ ascii '\n' := by
  have hDecimal :
      ∀ n : U8, n < 10 →
        isspace (ascii '0' + n) = false ∧
          ascii '0' + n ≠ ascii '\n' := by
    decide
  have hLetter :
      ∀ n : U8, 10 ≤ n → n < 16 →
        (isspace (ascii 'a' + (n - 10)) = false ∧
          ascii 'a' + (n - 10) ≠ ascii '\n') ∧
        isspace (ascii 'A' + (n - 10)) = false ∧
          ascii 'A' + (n - 10) ≠ ascii '\n' := by
    decide
  rcases hDigit with
    ⟨hSmall, hC⟩ | ⟨hTen, hLess, hLower | hUpper⟩
  · rw [hC]
    exact hDecimal n hSmall
  · rw [hLower]
    exact (hLetter n hTen hLess).1
  · rw [hUpper]
    exact (hLetter n hTen hLess).2

theorem spells_ne
    {digits value : List U8}
    (hSpells : Spells digits value) :
    ∀ c ∈ digits, isspace c = false ∧ c ≠ ascii '\n' := by
  induction hSpells with
  | nil =>
      intro c hC
      cases hC
  | byte hHigh hLow _ ih =>
      intro c hC
      rcases List.mem_cons.mp hC with hFirst | hC
      · rw [hFirst]
        exact digit_ne hHigh
      · rcases List.mem_cons.mp hC with hSecond | hLater
        · rw [hSecond]
          exact digit_ne hLow
        · exact ih c hLater

------
-- Lines
------

variable {km : KeyManager}

/- Spaces are taken off the end, and nothing else. -/
theorem rdropWhile_spaces
    {name spaces : List U8}
    (hLast : ∀ c ∈ name.getLast?, isspace c = false)
    (hSpaces : ∀ c ∈ spaces, isspace c = true) :
    (name ++ spaces).rdropWhile isspace = name := by
  induction spaces using List.reverseRecOn with
  | nil =>
      rw [List.append_nil, List.rdropWhile_eq_self_iff]
      intro hName hSpace
      have hNot :=
        hLast _ (List.getLast?_eq_some_getLast hName)
      rw [hNot] at hSpace
      cases hSpace
  | append_singleton spaces c ih =>
      rw [← List.append_assoc, List.rdropWhile_concat_pos]
      · exact ih fun d hD => hSpaces d (List.mem_append_left _ hD)
      · exact hSpaces c (List.mem_append_right _ (by simp))

theorem trim_digits
    {after digits value : List U8}
    (hAfter : ∀ c ∈ after, c = ascii ' ')
    (hSpells : Spells digits value)
    (hSome : value ≠ []) :
    trim (after ++ digits) = digits := by
  have hNe := spells_ne hSpells
  cases hDigits : digits with
  | nil =>
      rw [hDigits] at hSpells
      cases hSpells
      exact absurd rfl hSome
  | cons d rest =>
      rw [hDigits] at hNe
      have hLast :
          ∀ c ∈ (after ++ d :: rest).getLast?,
            isspace c = false := by
        intro c hC
        rw [List.getLast?_append,
          List.getLast?_eq_some_getLast (List.cons_ne_nil d rest),
          Option.some_or, Option.mem_some_iff] at hC
        apply (hNe c _).1
        rw [← hC]
        exact List.getLast_mem (List.cons_ne_nil d rest)
      have hNoSpace : ∀ c ∈ ([] : List U8), isspace c = true :=
        fun c hC => absurd hC List.not_mem_nil
      have hEnd := rdropWhile_spaces hLast hNoSpace
      rw [List.append_nil] at hEnd
      have hFirst : ¬ isspace d = true := by
        rw [(hNe d List.mem_cons_self).1]
        decide
      unfold trim
      rw [hEnd, List.dropWhile_append_of_pos,
        List.dropWhile_cons_of_neg hFirst]
      intro c hC
      rw [hAfter c hC]
      rfl

/- Notes give no key. -/
theorem loadLine_note
    {line : List U8}
    (hOk : (FileRow.note line).Ok) :
    km.loadLine line = (km, 0) := by
  unfold loadLine
  rcases hOk.2 with hBlank | ⟨c, hC, hStarts⟩
  · have hNoSign : ascii '=' ∉ line := by
      intro hMem
      exact absurd (hBlank _ hMem) (by decide)
    rw [Text.behind_singleton_eq_none hNoSign]
    exact ite_self _
  · rw [if_pos]
    right
    rcases hStarts with hHash | hSemicolon
    · left
      rw [← hHash]
      exact hC
    · right
      rw [← hSemicolon]
      exact hC

/- A key of sixteen bytes is stored, another one is dropped. -/
theorem loadLine_key
    {name before after digits value : List U8}
    (hOk : (FileRow.key name before after digits value).Ok) :
    km.loadLine
        (FileRow.key name before after digits value).line =
      if value.length = 16 then
        ({ keys := Function.update km.keys name (some value) }, 1)
      else (km, 0) := by
  rcases hOk with ⟨hName, hBefore, hAfter, hSpells, hLength⟩
  have hNoSign : ascii '=' ∉ name ++ before := by
    intro hMem
    rcases List.mem_append.mp hMem with hIn | hIn
    · exact hName.noSign hIn
    · exact absurd (hBefore _ hIn) (by decide)
  have hNoNote :
      ¬ ((FileRow.key name before after digits value).line = [] ∨
        (FileRow.key name before after digits value).line.head? =
            some (ascii '#') ∨
          (FileRow.key name before after digits value).line.head? =
            some (ascii ';')) := by
    cases hCases : name with
    | nil => exact absurd hCases hName.nonempty
    | cons c rest =>
        have hStart :=
          (hName.first c (by rw [hCases]; rfl)).2
        rintro (hNil | hHash | hSemicolon)
        · cases hNil
        · exact hStart (Or.inl (Option.some.inj hHash))
        · exact hStart (Or.inr (Option.some.inj hSemicolon))
  have hTake :
      ((FileRow.key name before after digits value).line.takeWhile
          (· ≠ ascii '=')) = name ++ before :=
    Text.takeWhile_ne_append hNoSign _
  have hSome : value ≠ [] := by
    intro hNil
    rw [hNil] at hLength
    simp at hLength
  have hLong : 32 ≤ digits.length := by
    rw [length_of_spells hSpells]
    omega
  unfold loadLine
  rw [if_neg hNoNote, hTake]
  unfold FileRow.line
  rw [Text.behind_singleton hNoSign]
  dsimp only
  rw [trim_digits hAfter hSpells hSome, if_pos hLong,
    parseHex_of_spells hSpells,
    rdropWhile_spaces hName.last fun c hC => by
      rw [hBefore c hC]; rfl]

------
-- Files
------

variable {rows : List FileRow}

/- What a row stores. -/
def store (km : KeyManager) (entry : List U8 × List U8) : KeyManager :=
  if entry.2.length = 16 then
    { keys := Function.update km.keys entry.1 (some entry.2) }
  else km

theorem loadLine_row
    {row : FileRow}
    (hOk : row.Ok) :
    (km.loadLine row.line).1 = row.entry.foldl store km := by
  cases row with
  | note line =>
      have hLine : km.loadLine line = (km, 0) :=
        loadLine_note hOk
      exact congrArg Prod.fst hLine
  | key name before after digits value =>
      rw [loadLine_key hOk]
      show _ = store km (name, value)
      unfold store
      split <;> rfl

theorem loadLines_rows
    (hOk : ∀ row ∈ rows, row.Ok)
    (loaded : U32) :
    (loadLines (km, loaded) (rows.map FileRow.line)).1 =
      (entries rows).foldl store km := by
  induction rows generalizing km loaded with
  | nil => rfl
  | cons row rows ih =>
      have hRow :
          (km.loadLine row.line).1 = row.entry.foldl store km :=
        loadLine_row (hOk row List.mem_cons_self)
      show (loadLines
          ((km.loadLine row.line).1,
            loaded + (km.loadLine row.line).2) _).1 = _
      rw [ih fun r hR => hOk r (List.mem_cons_of_mem row hR),
        hRow]
      unfold entries
      rw [List.flatMap_cons, List.foldl_append]

/- A row that is written is one line. -/
theorem line_noEnd
    {row : FileRow}
    (hOk : row.Ok) :
    ascii '\n' ∉ row.line := by
  cases row with
  | note line => exact hOk.1
  | key name before after digits value =>
      rcases hOk with ⟨hName, hBefore, hAfter, hSpells, -⟩
      intro hMem
      unfold FileRow.line at hMem
      rw [List.mem_append, List.mem_append, List.mem_cons,
        List.mem_append] at hMem
      rcases hMem with (hIn | hIn) | hIn | hIn | hIn
      · exact hName.noEnd hIn
      · exact absurd (hBefore _ hIn) (by decide)
      · exact absurd hIn (by decide)
      · exact absurd (hAfter _ hIn) (by decide)
      · exact (spells_ne hSpells _ hIn).2 rfl

theorem getLines_written
    (hOk : ∀ row ∈ rows, row.Ok) :
    getLines (written rows) = rows.map FileRow.line := by
  have hWritten :
      written rows =
        (rows.map FileRow.line).flatMap (· ++ [ascii '\n']) := by
    unfold written
    rw [List.flatMap_map]
  have hNoEnd :
      ∀ line ∈ rows.map FileRow.line, ascii '\n' ∉ line := by
    intro line hLine
    rcases List.mem_map.mp hLine with ⟨row, hRow, hEq⟩
    rw [← hEq]
    exact line_noEnd (hOk row hRow)
  rcases Text.lines_flatMap hNoEnd with ⟨hLines, hRest⟩
  unfold getLines
  rw [hWritten, hLines, hRest]
  exact List.append_nil _

/- The file is loaded key by key. -/
theorem loadFromFile_rows
    (hOk : ∀ row ∈ rows, row.Ok) :
    (km.loadFromFile (some (written rows))).1 =
      (entries rows).foldl store km := by
  show (loadLines (km, 0) (getLines (written rows))).1 = _
  rw [getLines_written hOk]
  exact loadLines_rows hOk 0

/- Other names keep their keys. -/
theorem foldl_store_of_notMem
    {stored : List (List U8 × List U8)}
    {name : List U8}
    (hOther : name ∉ stored.map Prod.fst) :
    (stored.foldl store km).keys name = km.keys name := by
  induction stored generalizing km with
  | nil => rfl
  | cons entry stored ih =>
      rw [List.map_cons, List.mem_cons, not_or] at hOther
      rw [List.foldl_cons, ih hOther.2]
      unfold store
      split
      · exact Function.update_of_ne hOther.1 _ _
      · rfl

/- A name has the key of its row, or the one it had before. -/
theorem foldl_store_of_mem
    {stored : List (List U8 × List U8)}
    {name value : List U8}
    (hNames : (stored.map Prod.fst).Nodup)
    (hMem : (name, value) ∈ stored) :
    (stored.foldl store km).keys name =
      if value.length = 16 then some value else km.keys name := by
  induction stored generalizing km with
  | nil => cases hMem
  | cons entry stored ih =>
      rw [List.map_cons, List.nodup_cons] at hNames
      rw [List.foldl_cons]
      rcases List.mem_cons.mp hMem with hFirst | hLater
      · rw [← hFirst] at hNames ⊢
        rw [foldl_store_of_notMem hNames.1]
        unfold store
        split
        · exact Function.update_self _ _ _
        · rfl
      · have hNe : name ≠ entry.1 := by
          intro hEq
          apply hNames.1
          rw [← hEq]
          exact List.mem_map_of_mem hLater
        rw [ih hNames.2 hLater]
        split
        · rfl
        · unfold store
          split
          · exact Function.update_of_ne hNe _ _
          · rfl

/-
  Every key is found again if it has sixteen bytes.  Another
  one is found only if it was there before.
-/
theorem getKey_iff
    (hOk : ∀ row ∈ rows, row.Ok)
    (hNames : ((entries rows).map Prod.fst).Nodup)
    (km : KeyManager) :
    (∀ entry ∈ entries rows,
        (km.loadFromFile (some (written rows))).1.getKey entry.1 =
          entry.2) ↔
      ∀ entry ∈ entries rows,
        entry.2.length = 16 ∨ km.getKey entry.1 = entry.2 := by
  refine forall₂_congr fun entry hEntry => ?_
  have hKey :
      ((entries rows).foldl store km).keys entry.1 =
        if entry.2.length = 16 then some entry.2
        else km.keys entry.1 :=
    foldl_store_of_mem hNames hEntry
  unfold getKey
  rw [loadFromFile_rows hOk, hKey]
  by_cases hShort : entry.2.length = 16
  · rw [if_pos hShort]
    exact iff_of_true rfl (Or.inl hShort)
  · rw [if_neg hShort]
    exact (or_iff_right hShort).symm

theorem spells_zeros (n : Nat) :
    Spells (List.replicate (2 * n) (ascii '0'))
      (List.replicate n 0) := by
  induction n with
  | zero => exact .nil
  | succ n ih =>
      have hZero : IsDigit (ascii '0') 0 :=
        Or.inl ⟨by decide, rfl⟩
      exact .byte hZero hZero ih

/- A line with the header key, which has thirty-two bytes. -/
def headerRow : FileRow :=
  .key (Text.bytes "header_key") [ascii ' '] [ascii ' ']
    (List.replicate 64 (ascii '0')) (List.replicate 32 0)

/- A line with a key of sixteen bytes, and no spaces. -/
def titleRow : FileRow :=
  .key (Text.bytes "titlekek_00") [] []
    (List.replicate 32 (ascii '0')) (List.replicate 16 0)

theorem headerRow_ok : headerRow.Ok := by
  refine ⟨⟨?_, ?_, ?_, ?_, ?_⟩, ?_, ?_, ?_, Or.inr rfl⟩
  · decide
  · decide
  · decide
  · simp [FileRow.startsComment, isspace, ascii, Text.bytes]
  · simp [isspace, ascii, Text.bytes]
  · simp
  · simp
  · exact spells_zeros 32

theorem titleRow_ok : titleRow.Ok := by
  refine ⟨⟨?_, ?_, ?_, ?_, ?_⟩, ?_, ?_, ?_, Or.inl rfl⟩
  · decide
  · decide
  · decide
  · simp [FileRow.startsComment, isspace, ascii, Text.bytes]
  · simp [isspace, ascii, Text.bytes]
  · simp
  · simp
  · exact spells_zeros 16

theorem getKey_iff_title :
    (loadFromFile {}
        (some (written [titleRow, .note []]))).1.getKey
        (Text.bytes "titlekek_00") =
      List.replicate 16 0 := by
  have hRows : ∀ row ∈ [titleRow, .note []], row.Ok := by
    intro row hRow
    rcases List.mem_cons.mp hRow with hFirst | hLast
    · rw [hFirst]
      exact titleRow_ok
    · rw [List.mem_singleton.mp hLast]
      exact ⟨by simp, Or.inl (by simp)⟩
  refine (getKey_iff hRows (by decide) {}).mpr ?_
    (Text.bytes "titlekek_00", List.replicate 16 0)
    List.mem_cons_self
  intro entry hEntry
  rw [List.mem_singleton.mp hEntry]
  exact Or.inl rfl

/- A manager with no keys does not get the header key. -/
theorem not_getKey_header :
    headerRow.Ok ∧
      ¬ ∀ entry ∈ entries [headerRow],
        (loadFromFile {} (some (written [headerRow]))).1.getKey
            entry.1 =
          entry.2 := by
  refine ⟨headerRow_ok, ?_⟩
  intro hAll
  have hEntry :
      (Text.bytes "header_key",
        (List.replicate 32 0 : List U8)) ∈
          entries [headerRow] :=
    List.mem_singleton.mpr rfl
  have hHeader := hAll _ hEntry
  have hOk : ∀ row ∈ [headerRow], row.Ok := by
    intro row hRow
    rw [List.mem_singleton.mp hRow]
    exact headerRow_ok
  have hNames : ((entries [headerRow]).map Prod.fst).Nodup :=
    List.nodup_singleton _
  unfold getKey at hHeader
  rw [loadFromFile_rows hOk,
    foldl_store_of_mem hNames hEntry,
    if_neg (by decide)] at hHeader
  exact absurd (congrArg List.length hHeader) (by decide)

end KeyManager

end M1Switch
