import M1Switch.Common.Types
import M1Switch.Library.Text

/-
  The commands of the debug server, as text.

  A command is written as one line with its name and a list of
  arguments.  It is read by looking for quoted keys, brackets
  and quotes.  The list is taken to end at the first closing
  bracket, wherever that stands: an argument that contains one
  is cut there, and the rest of the list is lost.

  Key definitions include:
    * `DebugCommand`
    * `toJson`

  Main results:
    * `extractJsonString_toJson`
    * `extractJsonArray_toJson`
    * `parse_toJson_iff`
-/

------
-- Reading
------

namespace M1Switch

open Text (ascii bytes behind)

structure DebugCommand where
  cmd : List U8
  args : List (List U8)
deriving DecidableEq

namespace DebugCommand

/- A double quote. -/
abbrev QUOTE : U8 := 0x22

def quoted (s : List U8) : List U8 := QUOTE :: (s ++ [QUOTE])

/- The text up to a symbol, if that is there. -/
def upTo (c : U8) (text : List U8) : Option (List U8) :=
  if c ∈ text then some (text.takeWhile (· ≠ c)) else none

/- The string behind a key, or nothing. -/
def extractJsonString (json key : List U8) : List U8 :=
  match behind (quoted key) json with
  | none => []
  | some text =>
      match behind [ascii ':'] text with
      | none => []
      | some text =>
          let text :=
            text.dropWhile fun c =>
              c == ascii ' ' || c == ascii '\t'
          match text with
          | [] => []
          | c :: text =>
              if c = QUOTE then (upTo QUOTE text).getD [] else []

/- What stands between quotes.  The last string may have no
second one. -/
def strings : Nat → List U8 → List (List U8)
| 0, _ => []
| n + 1, arr =>
    match behind [QUOTE] arr with
    | none => []
    | some text =>
        let item := text.takeWhile (· ≠ QUOTE)
        item :: strings n (text.drop (item.length + 1))

/- The strings of the list behind a key.  There are no more of
them than characters. -/
def extractJsonArray (json key : List U8) : List (List U8) :=
  match behind (quoted key) json with
  | none => []
  | some text =>
      match behind [ascii '['] text with
      | none => []
      | some text =>
          match upTo (ascii ']') text with
          | none => []
          | some arr => strings arr.length arr

def parse (json : List U8) : DebugCommand :=
  { cmd := extractJsonString json (bytes "cmd")
    args := extractJsonArray json (bytes "args") }

/- Arguments behind the first one. -/
def listed (args : List (List U8)) : List U8 :=
  args.flatMap fun arg => ascii ',' :: quoted arg

def joined : List (List U8) → List U8
| [] => []
| arg :: args => quoted arg ++ listed args

def toJson (c : DebugCommand) : List U8 :=
  0x7B :: (quoted (bytes "cmd") ++ ascii ':' :: (quoted c.cmd ++
    ascii ',' :: (quoted (bytes "args") ++ ascii ':' ::
      ascii '[' :: (joined c.args ++ [ascii ']', 0x7D]))))

------
-- Quoted Words
------

variable {key text more arr : List U8} {c : DebugCommand}

/- A quoted word is found where it stands. -/
theorem behind_quoted (key more : List U8) :
    behind (quoted key) (quoted key ++ more) = some more :=
  Text.behind_of_prefix more

/- Other characters are passed over. -/
theorem behind_quoted_cons
    {a : U8}
    (hA : a ≠ QUOTE)
    (key text : List U8) :
    behind (quoted key) (a :: text) = behind (quoted key) text := by
  have hBefore : QUOTE ∉ [a] := by
    rw [List.mem_singleton]
    exact Ne.symm hA
  exact Text.behind_append_of_notMem hBefore

/- Another word is passed over, up to its second quote. -/
theorem behind_quoted_ne
    (hKey : QUOTE ∉ key)
    (hText : QUOTE ∉ text)
    (hNe : key ≠ text)
    (more : List U8) :
    behind (quoted key) (quoted text ++ more) =
      behind (quoted key) (QUOTE :: more) := by
  have hNot : ¬ quoted key <+: QUOTE :: (text ++ QUOTE :: more) := by
    rintro ⟨rest, hEq⟩
    apply hNe
    have hTail :
        key ++ QUOTE :: rest = text ++ QUOTE :: more := by
      unfold quoted at hEq
      rw [List.cons_append, List.append_assoc,
        List.singleton_append] at hEq
      exact (List.cons.inj hEq).2
    have hTake := congrArg (List.takeWhile (· ≠ QUOTE)) hTail
    rw [Text.takeWhile_ne_append hKey,
      Text.takeWhile_ne_append hText] at hTake
    exact hTake
  unfold quoted at *
  rw [List.cons_append, List.append_assoc, List.singleton_append,
    Text.behind_cons_of_not_prefix hNot,
    Text.behind_append_of_notMem hText]

theorem upTo_append
    {a : U8}
    (hText : a ∉ text)
    (more : List U8) :
    upTo a (text ++ a :: more) = some text := by
  unfold upTo
  rw [if_pos (List.mem_append_right _ List.mem_cons_self),
    Text.takeWhile_ne_append hText]

/- The name of the command is read as it was. -/
theorem extractJsonString_toJson
    (hCmd : QUOTE ∉ c.cmd) :
    extractJsonString c.toJson (bytes "cmd") = c.cmd := by
  have hKey :
      behind (quoted (bytes "cmd")) c.toJson =
        some
          (ascii ':' :: (quoted c.cmd ++
            ascii ',' :: (quoted (bytes "args") ++ ascii ':' ::
              ascii '[' ::
                (joined c.args ++ [ascii ']', 0x7D])))) := by
    unfold toJson
    rw [behind_quoted_cons (by decide), behind_quoted]
  unfold extractJsonString
  rw [hKey]
  dsimp only
  rw [show ∀ t, behind [ascii ':'] (ascii ':' :: t) = some t from
    fun t => Text.behind_of_prefix t]
  dsimp only
  unfold quoted
  rw [List.cons_append, List.dropWhile_cons_of_neg (by decide)]
  dsimp only
  rw [if_pos rfl, List.append_assoc, List.singleton_append,
    upTo_append hCmd]
  rfl

------
-- The Arguments
------

/- A string that is opened and closed is taken as it is. -/
theorem strings_quoted
    {before : List U8}
    (hBefore : QUOTE ∉ before)
    (hText : QUOTE ∉ text)
    (n : Nat) :
    strings (n + 1) (before ++ (quoted text ++ more)) =
      text :: strings n more := by
  have hBehind :
      behind [QUOTE] (before ++ (quoted text ++ more)) =
        some (text ++ QUOTE :: more) := by
    unfold quoted
    rw [List.cons_append, Text.behind_singleton hBefore,
      List.append_assoc, List.singleton_append]
  have hDrop :
      (text ++ QUOTE :: more).drop (text.length + 1) = more := by
    rw [← List.drop_drop, List.drop_left]
    rfl
  rw [strings, hBehind]
  dsimp only
  rw [Text.takeWhile_ne_append hText, hDrop]

/- The strings have no symbols that the text does not have. -/
theorem mem_of_mem_strings
    {n : Nat}
    {item : List U8}
    (hItem : item ∈ strings n arr)
    {b : U8}
    (hB : b ∈ item) :
    b ∈ arr := by
  induction n generalizing arr with
  | zero => cases hItem
  | succ n ih =>
      rw [strings] at hItem
      cases hBehind : behind [QUOTE] arr with
      | none =>
          rw [hBehind] at hItem
          cases hItem
      | some text =>
          rw [hBehind] at hItem
          have hSuffix := Text.suffix_of_behind hBehind
          apply hSuffix.subset
          rcases List.mem_cons.mp hItem with hFirst | hRest
          · rw [hFirst] at hB
            exact (List.takeWhile_prefix _).subset hB
          · exact List.mem_of_mem_drop (ih hRest)

theorem strings_listed
    {args : List (List U8)}
    (hArgs : ∀ arg ∈ args, QUOTE ∉ arg)
    {n : Nat}
    (hEnough : args.length ≤ n)
    (more : List U8) :
    strings n (listed args ++ more) =
      args ++ strings (n - args.length) more := by
  induction args generalizing n with
  | nil => rfl
  | cons arg args ih =>
      cases n with
      | zero => cases hEnough
      | succ n =>
          have hFirst :
              strings (n + 1)
                  ([ascii ','] ++
                    (quoted arg ++ (listed args ++ more))) =
                arg :: strings n (listed args ++ more) :=
            strings_quoted (by decide)
              (hArgs arg List.mem_cons_self) n
          have hRest :=
            ih (fun a hA => hArgs a (List.mem_cons_of_mem arg hA))
              (Nat.le_of_succ_le_succ hEnough)
          unfold listed at hFirst hRest ⊢
          rw [List.flatMap_cons, List.cons_append,
            List.cons_append, List.append_assoc]
          rw [List.singleton_append] at hFirst
          rw [hFirst, hRest, List.length_cons,
            Nat.add_sub_add_right]
          rfl

/- A list is the first argument, and then the others. -/
theorem strings_joined
    {args : List (List U8)}
    (hArgs : ∀ arg ∈ args, QUOTE ∉ arg)
    {n : Nat}
    (hEnough : args.length ≤ n) :
    strings n (joined args) = args := by
  cases args with
  | nil => cases n <;> rfl
  | cons arg args =>
      cases n with
      | zero => cases hEnough
      | succ n =>
          have hFirst :
              strings (n + 1) ([] ++ (quoted arg ++ listed args)) =
                arg :: strings n (listed args) :=
            strings_quoted List.not_mem_nil
              (hArgs arg List.mem_cons_self) n
          have hRest :=
            strings_listed
              (fun a hA => hArgs a (List.mem_cons_of_mem arg hA))
              (Nat.le_of_succ_le_succ hEnough) []
          have hNone : ∀ m, strings m [] = [] := by
            intro m
            cases m <;> rfl
          rw [List.append_nil, hNone, List.append_nil] at hRest
          unfold joined
          exact hFirst.trans (congrArg (arg :: ·) hRest)

/- What is read as the key of the list is the key, or the name
of the command.  No opening bracket stands between them. -/
theorem behind_args_toJson
    (hCmd : QUOTE ∉ c.cmd) :
    ∃ before,
      ascii '[' ∉ before ∧
        behind (quoted (bytes "args")) c.toJson =
          some
            (before ++ ascii '[' ::
              (joined c.args ++ [ascii ']', 0x7D])) := by
  let list := joined c.args ++ [ascii ']', 0x7D]
  let more :=
    quoted (bytes "args") ++ ascii ':' :: ascii '[' :: list
  have hKey : QUOTE ∉ bytes "args" := by decide
  -- The first key, and what stands between it and the name.
  have hName :
      behind (quoted (bytes "args")) c.toJson =
        behind (quoted (bytes "args"))
          (quoted c.cmd ++ ascii ',' :: more) := by
    calc behind (quoted (bytes "args")) c.toJson
        = behind (quoted (bytes "args"))
            (quoted (bytes "cmd") ++ ascii ':' ::
              (quoted c.cmd ++ ascii ',' :: more)) :=
          behind_quoted_cons (by decide) _ _
      _ = behind (quoted (bytes "args"))
            (quoted [ascii ':'] ++
              (c.cmd ++ [QUOTE] ++ ascii ',' :: more)) :=
          behind_quoted_ne hKey (by decide) (by decide) _
      _ = behind (quoted (bytes "args"))
            (quoted c.cmd ++ ascii ',' :: more) :=
          behind_quoted_ne hKey (by decide) (by decide) _
  rw [hName]
  by_cases hArgs : bytes "args" = c.cmd
  · refine
      ⟨ascii ',' :: (quoted (bytes "args") ++ [ascii ':']),
        by decide, ?_⟩
    rw [← hArgs, behind_quoted, List.cons_append,
      List.append_assoc]
    rfl
  · refine ⟨[ascii ':'], by decide, ?_⟩
    calc behind (quoted (bytes "args"))
          (quoted c.cmd ++ ascii ',' :: more)
        = behind (quoted (bytes "args"))
            (quoted [ascii ','] ++
              (bytes "args" ++ [QUOTE] ++
                ascii ':' :: ascii '[' :: list)) :=
          behind_quoted_ne hKey hCmd hArgs _
      _ = behind (quoted (bytes "args")) more :=
          behind_quoted_ne hKey (by decide) (by decide) _
      _ = some (ascii ':' :: ascii '[' :: list) :=
          behind_quoted _ _

/- The list is cut at the first closing bracket. -/
theorem extractJsonArray_toJson
    (hCmd : QUOTE ∉ c.cmd) :
    extractJsonArray c.toJson (bytes "args") =
      let arr :=
        (joined c.args ++ [ascii ']', 0x7D]).takeWhile
          (· ≠ ascii ']')
      strings arr.length arr := by
  rcases behind_args_toJson hCmd with
    ⟨before, hBefore, hBehind⟩
  have hUpTo :
      upTo (ascii ']') (joined c.args ++ [ascii ']', 0x7D]) =
        some
          ((joined c.args ++ [ascii ']', 0x7D]).takeWhile
            (· ≠ ascii ']')) :=
    if_pos (List.mem_append_right _ List.mem_cons_self)
  unfold extractJsonArray
  rw [hBehind]
  dsimp only
  rw [Text.behind_singleton hBefore]
  dsimp only
  rw [hUpTo]

------
-- The Round Trip
------

theorem length_le_length_joined (args : List (List U8)) :
    args.length ≤ (joined args).length := by
  cases args with
  | nil => exact Nat.le_refl 0
  | cons arg args =>
      have hListed : args.length ≤ (listed args).length := by
        induction args with
        | nil => exact Nat.le_refl 0
        | cons a args ih =>
            unfold listed quoted at ih ⊢
            rw [List.flatMap_cons, List.length_append,
              List.length_cons, List.length_cons,
              List.length_cons]
            omega
      unfold joined quoted
      rw [List.length_append, List.length_cons,
        List.length_cons]
      omega

/- A list of words without the symbol is without it. -/
theorem notMem_joined
    {a : U8}
    (hQuote : a ≠ QUOTE)
    (hComma : a ≠ ascii ',')
    {args : List (List U8)}
    (hArgs : ∀ arg ∈ args, a ∉ arg) :
    a ∉ joined args := by
  have hQuoted : ∀ arg ∈ args, a ∉ quoted arg := by
    intro arg hArg hMem
    unfold quoted at hMem
    rw [List.mem_cons, List.mem_append,
      List.mem_singleton] at hMem
    rcases hMem with hEq | hMem | hEq
    · exact hQuote hEq
    · exact hArgs arg hArg hMem
    · exact hQuote hEq
  cases args with
  | nil => exact List.not_mem_nil
  | cons arg args =>
      intro hMem
      unfold joined listed at hMem
      rw [List.mem_append, List.mem_flatMap] at hMem
      rcases hMem with hFirst | ⟨other, hOther, hMem⟩
      · exact hQuoted arg List.mem_cons_self hFirst
      · rcases List.mem_cons.mp hMem with hEq | hMem
        · exact hComma hEq
        · exact
            hQuoted other (List.mem_cons_of_mem arg hOther) hMem

/- The arguments come back unless one has a closing bracket. -/
theorem extractJsonArray_eq_iff
    (hCmd : QUOTE ∉ c.cmd)
    (hArgs : ∀ arg ∈ c.args, QUOTE ∉ arg) :
    extractJsonArray c.toJson (bytes "args") = c.args ↔
      ∀ arg ∈ c.args, ascii ']' ∉ arg := by
  rw [extractJsonArray_toJson hCmd]
  dsimp only
  constructor
  · -- What is read was in front of the bracket.
    intro hEq arg hArg hMem
    rw [← hEq] at hArg
    have hTaken := mem_of_mem_strings hArg hMem
    have hNe := List.mem_takeWhile_imp hTaken
    exact of_decide_eq_true hNe rfl
  · intro hNone
    have hArr :
        (joined c.args ++ [ascii ']', 0x7D]).takeWhile
            (· ≠ ascii ']') =
          joined c.args :=
      Text.takeWhile_ne_append
        (notMem_joined (by decide) (by decide) hNone) [0x7D]
    rw [hArr]
    exact strings_joined hArgs (length_le_length_joined c.args)

theorem parse_toJson_iff
    (hCmd : QUOTE ∉ c.cmd)
    (hArgs : ∀ arg ∈ c.args, QUOTE ∉ arg) :
    parse c.toJson = c ↔ ∀ arg ∈ c.args, ascii ']' ∉ arg := by
  rw [← extractJsonArray_eq_iff hCmd hArgs]
  constructor
  · intro hParse
    exact congrArg DebugCommand.args hParse
  · intro hList
    unfold parse
    rw [hList, extractJsonString_toJson hCmd]

theorem parse_toJson_iff_break :
    parse (toJson ⟨bytes "break", [bytes "0x1000", []]⟩) =
        ⟨bytes "break", [bytes "0x1000", []]⟩ ↔
      ∀ arg ∈ [bytes "0x1000", []], ascii ']' ∉ arg :=
  @parse_toJson_iff ⟨bytes "break", [bytes "0x1000", []]⟩
    (by decide) (by decide)

/- The argument is cut at its bracket, without quotes or ends
of lines in it. -/
theorem not_parse_toJson_bracket :
    ¬ ∀ c : DebugCommand,
        (∀ b ∈ c.cmd, b ≠ QUOTE ∧ b ≠ ascii '\n') →
        (∀ arg ∈ c.args,
          ∀ b ∈ arg, b ≠ QUOTE ∧ b ≠ ascii '\n') →
        parse c.toJson = c := by
  intro hParse
  have hCut :
      parse (toJson ⟨bytes "break", [bytes "a]b"]⟩) =
        ⟨bytes "break", [bytes "a"]⟩ := by
    decide
  have hSame :=
    hParse ⟨bytes "break", [bytes "a]b"]⟩ (by decide) (by decide)
  rw [hCut] at hSame
  revert hSame
  decide

end DebugCommand

end M1Switch
