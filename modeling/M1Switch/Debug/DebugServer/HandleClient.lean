import M1Switch.Debug.DebugServer.Commands
import M1Switch.Library.LoggedRun

/-
  A client of the debug server.

  What a client sends arrives in pieces.  They are gathered in a
  buffer, and each complete line in it is a command.  How the
  text is split makes no difference.  A command that throws
  ends the program, and those behind it are not executed.

  Key definitions include:
    * `readLines`
    * `handleClient`

  Main results:
    * `handleClient_eq`
    * `handleClient_log`
    * `executes_iff`
-/

------
-- The Loop
------

namespace M1Switch

open Text (ascii bytes)

namespace DebugServer

variable {σ : Type}

/- What is dropped at the end of a line. -/
def isBlank (c : U8) : Bool :=
  c == ascii '\r' || c == ascii ' '

/- The request of a command is performed, and answered.  That
may not come back, and neither does an exception. -/
def execute
    (perform : σ → Request → Option σ)
    (s : σ)
    (cmd : DebugCommand) : Option σ :=
  (handleCommand cmd).bind (perform s)

/- The commands that are executed are logged. -/
def executeLine
    (perform : σ → Request → Option σ)
    (s : σ)
    (line : List U8) : Logged DebugCommand σ :=
  let line := line.rdropWhile isBlank
  if line = [] then pure s
  else
    Logged.attempt (execute perform) s (DebugCommand.parse line)

/- The complete lines of the buffer, which are no more than it
has characters. -/
def readLines
    (perform : σ → Request → Option σ) :
    Nat → σ → List U8 → Logged DebugCommand (σ × List U8)
| 0, _, _ => ⟨none, []⟩
| n + 1, s, lineBuf =>
    match Text.firstLine (ascii '\n') lineBuf with
    | none => pure (s, lineBuf)
    | some line => do
        let s ← executeLine perform s line
        readLines perform n s (lineBuf.drop (line.length + 1))

/- What is added to the buffer is a string that ends at the
first zero. -/
def appendString (lineBuf buf : List U8) : List U8 :=
  lineBuf ++ buf.takeWhile (· ≠ 0)

/- The reads of a client, until there is nothing to read. -/
def handleClient
    (perform : σ → Request → Option σ) :
    List (List U8) → σ → List U8 →
      Logged DebugCommand (σ × List U8)
| [], s, lineBuf => pure (s, lineBuf)
| buf :: reads, s, lineBuf =>
    if buf = [] then pure (s, lineBuf)
    else do
      let lineBuf := appendString lineBuf buf
      let (s, lineBuf) ←
        readLines perform (lineBuf.length + 1) s lineBuf
      handleClient perform reads s lineBuf

------
-- The Commands of a Text
------

/- The command of a line, unless that is blank. -/
def commandOf (line : List U8) : Option DebugCommand :=
  let line := line.rdropWhile isBlank
  if line = [] then none else some (DebugCommand.parse line)

/- The commands of the lines that are complete. -/
def commandsOf (text : List U8) : List DebugCommand :=
  (Text.lines (ascii '\n') text).filterMap commandOf

/- A text is split into reads that fit the buffer. -/
structure SplitInto
    (stream : List U8)
    (reads : List (List U8)) : Prop where
  nonempty : ∀ buf ∈ reads, buf ≠ []
  fits : ∀ buf ∈ reads, buf.length ≤ 4095
  joined : reads.flatten = stream

variable {perform : σ → Request → Option σ} {s : σ}
variable {lineBuf stream : List U8} {reads : List (List U8)}

------
-- Runs of the Loop
------

/- The inner loop executes the lines of the buffer, and leaves
what is behind them. -/
theorem readLines_eq
    {n : Nat}
    (hEnough : lineBuf.length < n)
    (s : σ) :
    readLines perform n s lineBuf =
      (Text.lines (ascii '\n') lineBuf).foldlM
          (executeLine perform) s >>=
        fun s => pure (s, Text.rest (ascii '\n') lineBuf) := by
  induction n generalizing s lineBuf with
  | zero => cases hEnough
  | succ n ih =>
      rw [readLines]
      by_cases hEnd : ascii '\n' ∈ lineBuf
      · rcases List.eq_append_cons_of_mem hEnd with
          ⟨line, text, hBuf, hLine⟩
        rcases Text.lines_cons hLine text with ⟨hLines, hRest⟩
        have hDrop : lineBuf.drop (line.length + 1) = text := by
          rw [hBuf, ← List.drop_drop, List.drop_left]
          rfl
        have hShorter : text.length < n := by
          rw [hBuf, List.length_append, List.length_cons]
            at hEnough
          omega
        rw [hBuf, Text.firstLine_append hLine, ← hBuf]
        dsimp only
        rw [hDrop, hBuf, hLines, hRest, List.foldlM_cons,
          bind_assoc]
        exact
          congrArg (executeLine perform s line >>= ·)
            (funext fun s => ih hShorter s)
      · rcases Text.lines_of_notMem hEnd with ⟨hLines, hRest⟩
        rw [Text.firstLine_eq_none hEnd, hLines, hRest]
        rfl

/- However the text is split, its lines are executed. -/
theorem handleClient_eq
    (hReads : ∀ buf ∈ reads, buf ≠ [] ∧ 0 ∉ buf)
    (hBuf : ascii '\n' ∉ lineBuf)
    (s : σ) :
    handleClient perform reads s lineBuf =
      (Text.lines (ascii '\n')
            (lineBuf ++ reads.flatten)).foldlM
          (executeLine perform) s >>=
        fun s =>
          pure
            (s, Text.rest (ascii '\n')
              (lineBuf ++ reads.flatten)) := by
  induction reads generalizing s lineBuf with
  | nil =>
      rcases Text.lines_of_notMem hBuf with ⟨hLines, hRest⟩
      rw [List.flatten_nil, List.append_nil, hLines, hRest]
      rfl
  | cons buf reads ih =>
      rcases hReads buf List.mem_cons_self with ⟨hSome, hZero⟩
      have hAppend : appendString lineBuf buf = lineBuf ++ buf := by
        unfold appendString
        rw [List.takeWhile_eq_self_iff.mpr]
        intro c hC
        apply decide_eq_true
        intro hEq
        rw [hEq] at hC
        exact hZero hC
      -- What waits has no end of a line.
      have hWaits :
          ascii '\n' ∉ Text.rest (ascii '\n') (lineBuf ++ buf) :=
        Text.notMem_rest (lineBuf ++ buf)
      have hLater :=
        ih (fun b hB => hReads b (List.mem_cons_of_mem buf hB))
          hWaits
      rcases
        Text.lines_append (ascii '\n') (lineBuf ++ buf)
          reads.flatten with
        ⟨hLines, hRest⟩
      rw [handleClient, if_neg hSome, hAppend]
      dsimp only
      rw [readLines_eq (Nat.lt_succ_self _), bind_assoc,
        List.flatten_cons, ← List.append_assoc, hLines, hRest,
        List.foldlM_append, bind_assoc]
      apply congrArg (_ >>= ·)
      funext t
      rw [pure_bind]
      exact hLater t

theorem executeLine_eq (s : σ) (line : List U8) :
    executeLine perform s line =
      match commandOf line with
      | some cmd => Logged.attempt (execute perform) s cmd
      | none => pure s := by
  unfold executeLine commandOf
  dsimp only
  split <;> rfl

/- The log of a client is that of the commands, tried one after
another. -/
theorem handleClient_log
    (hSplit : SplitInto stream reads)
    (hZero : 0 ∉ stream)
    (s : σ) :
    (handleClient perform reads s []).log =
      ((commandsOf stream).foldlM
        (Logged.attempt (execute perform)) s).log := by
  have hReads : ∀ buf ∈ reads, buf ≠ [] ∧ 0 ∉ buf := by
    intro buf hBuf
    refine ⟨hSplit.nonempty buf hBuf, ?_⟩
    intro hMem
    apply hZero
    rw [← hSplit.joined]
    exact List.mem_flatten_of_mem hBuf hMem
  have hFold :
      (commandsOf stream).foldlM
          (Logged.attempt (execute perform)) s =
        (Text.lines (ascii '\n') stream).foldlM
          (executeLine perform) s := by
    unfold commandsOf
    rw [List.foldlM_filterMap]
    congr 1
    funext s line
    rw [executeLine_eq]
    cases commandOf line <;> rfl
  rw [handleClient_eq hReads List.not_mem_nil, List.nil_append,
    hSplit.joined, hFold]
  exact Logged.log_bind_pure _ _

/-
  The commands of the text are executed, each once and in order,
  if and only if all but the last of them come back.
-/
theorem executes_iff
    (hSplit : SplitInto stream reads)
    (hZero : 0 ∉ stream)
    (perform : σ → Request → Option σ)
    (s : σ) :
    (handleClient perform reads s []).log = commandsOf stream ↔
      ((commandsOf stream).dropLast.foldlM
        (execute perform) s).isSome = true := by
  rw [handleClient_log hSplit hZero]
  exact Logged.log_foldlM_attempt_iff _ s _

/- The requests that were performed. -/
def record
    (requests : List Request)
    (request : Request) : Option (List Request) :=
  some (requests ++ [request])

/- A line with a command. -/
def lineOf (cmd : DebugCommand) : List U8 :=
  cmd.toJson ++ [ascii '\n']

theorem executes_iff_two :
    (handleClient record
        [lineOf ⟨bytes "step", []⟩ ++ [0x7B],
          (lineOf ⟨bytes "read", [bytes "0x10", bytes "4"]⟩).tail]
        [] []).log =
      [⟨bytes "step", []⟩,
        ⟨bytes "read", [bytes "0x10", bytes "4"]⟩] := by
  have hSplit :
      SplitInto
        (lineOf ⟨bytes "step", []⟩ ++
          lineOf ⟨bytes "read", [bytes "0x10", bytes "4"]⟩)
        [lineOf ⟨bytes "step", []⟩ ++ [0x7B],
          (lineOf ⟨bytes "read", [bytes "0x10", bytes "4"]⟩).tail] :=
    ⟨by decide, by decide, by decide⟩
  exact
    (executes_iff hSplit (by decide) record []).mpr (by decide)

/-
  The first command has no number that can be read, and ends the
  program.  The second one is not executed.
-/
theorem not_executes_break :
    ¬ ∀ stream reads,
        SplitInto stream reads →
        0 ∉ stream →
        (handleClient record reads [] []).log =
          commandsOf stream := by
  intro hAll
  have hSame :=
    hAll
      (lineOf ⟨bytes "break", [bytes "zz"]⟩ ++
        lineOf ⟨bytes "regs", []⟩)
      [lineOf ⟨bytes "break", [bytes "zz"]⟩ ++
        lineOf ⟨bytes "regs", []⟩]
      ⟨by decide, by decide, by decide⟩ (by decide)
  revert hSame
  decide

end DebugServer

end M1Switch
