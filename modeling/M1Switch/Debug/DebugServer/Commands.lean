import Mathlib.Data.Nat.Digits.Defs
import M1Switch.Debug.DebugServer
import M1Switch.Debug.TraceEngine

/-
  What the commands of the debug server ask for.

  A command is looked up by its name, and reads its arguments.
  With too few of them it is refused.  A number that cannot be
  read is not: the conversion throws, no handler catches it,
  and the program ends.

  Key definitions include:
    * `stoull`
    * `DebugServer.Request`
-/

------
-- Numbers
------

namespace M1Switch

open Text (ascii bytes isspace)

namespace DebugServer

/- The value of a digit or a letter.  Other characters have one
that is too large for any base. -/
def digit (c : U8) : Nat :=
  if ascii '0' ≤ c ∧ c ≤ ascii '9' then c.toNat - 48
  else if ascii 'a' ≤ c ∧ c ≤ ascii 'z' then c.toNat - 97 + 10
  else if ascii 'A' ≤ c ∧ c ≤ ascii 'Z' then c.toNat - 65 + 10
  else 36

/- Is there a prefix of base sixteen, and a digit behind it? -/
def hasPrefix : List U8 → Bool
| zero :: x :: c :: _ =>
    zero == ascii '0' && (x == ascii 'x' || x == ascii 'X') &&
      decide (digit c < 16)
| _ => false

/- The digits in a base, and the base.  Base zero stands for
the one the text shows. -/
def digitsOf (base : Nat) (s : List U8) : Nat × List Nat :=
  if (base = 0 ∨ base = 16) ∧ hasPrefix s = true then
    (16, ((s.drop 2).map digit).takeWhile (· < 16))
  else if base = 0 then
    let base := if s.head? = some (ascii '0') then 8 else 10
    (base, (s.map digit).takeWhile (· < base))
  else (base, (s.map digit).takeWhile (· < base))

/- Is there a minus sign, and what is behind a sign? -/
def signed : List U8 → Bool × List U8
| [] => (false, [])
| c :: s =>
    if c = ascii '-' then (true, s)
    else if c = ascii '+' then (false, s)
    else (false, c :: s)

/- A number without its sign, if there are any digits. -/
def number (base : Nat) (s : List U8) : Option (Bool × Nat) :=
  let (negative, s) := signed (s.dropWhile isspace)
  let (base, digits) := digitsOf base s
  if digits = [] then none
  else some (negative, Nat.ofDigits base digits.reverse)

/- Nothing stands for an exception: there are no digits, or the
number is too large. -/
def stoull (base : Nat) (s : List U8) : Option U64 :=
  match number base s with
  | none => none
  | some (negative, n) =>
      if n < 2 ^ 64 then
        some
          (if negative then -BitVec.ofNat 64 n
          else BitVec.ofNat 64 n)
      else none

def stoi (base : Nat) (s : List U8) : Option Int :=
  match number base s with
  | none => none
  | some (negative, n) =>
      let value := if negative then -(n : Int) else n
      if -2 ^ 31 ≤ value ∧ value < 2 ^ 31 then some value
      else none

def parseHex (s : List U8) : Option U64 :=
  stoull 0 s

------
-- Requests
------

/- What a command asks of the debugger, the trace engine and
the snapshots, or why it is refused. -/
inductive Request where
  | usage (error : String)
  | unknownCommand (name : List U8)
  | unknownChannel (name : List U8)
  | setBreakpoint (addr : U64)
  | removeBreakpoint (addr : U64)
  | readMemory (addr size : U64)
  | writeMemory (addr : U64) (data : List U8)
  | enableChannel (ch : TraceChannel) (enable : Bool)
  | enableAll (enable : Bool)
  | query (ch : TraceChannel) (maxCount : U32)
  | getBreakpoints
  | continueRun
  | stepOver
  | pause
  | getLastRegisters
  | capture
  | getStats
  | threads
  | help
deriving DecidableEq

def cmdBreak : List (List U8) → Option Request
| [] => some (.usage "用法: break <地址>")
| arg :: _ => (parseHex arg).map .setBreakpoint

def cmdBreakRemove : List (List U8) → Option Request
| [] => some (.usage "用法: break_remove <地址>")
| arg :: _ => (parseHex arg).map .removeBreakpoint

def cmdRead : List (List U8) → Option Request
| addr :: size :: _ => do
    let addr ← parseHex addr
    let size ← parseHex size
    some
      (.readMemory addr
        (if size = 0 ∨ 4096 < size then 256 else size))
| _ => some (.usage "用法: read <地址> <大小>")

/- The bytes that two digits each stand for. -/
def hexData : List U8 → Option (List U8)
| high :: low :: hex => do
    let byte ← stoi 16 [high, low]
    let data ← hexData hex
    some (BitVec.ofInt 8 byte :: data)
| _ => some []

def cmdWrite : List (List U8) → Option Request
| addr :: hex :: _ => do
    let addr ← parseHex addr
    let data ← hexData hex
    some (.writeMemory addr data)
| _ => some (.usage "用法: write <地址> <hex数据>")

/- Other words than these turn a channel off. -/
def isOn (state : List U8) : Bool :=
  state == bytes "on" || state == bytes "1" ||
    state == bytes "true"

def cmdTrace : List (List U8) → Option Request
| name :: state :: _ =>
    let enable := isOn state
    some
      (if name = bytes "svc" then .enableChannel .SVC enable
      else if name = bytes "ipc" then .enableChannel .IPC enable
      else if name = bytes "gpu" then
        .enableChannel .GPU_CMD enable
      else if name = bytes "mem" then .enableChannel .MEM enable
      else if name = bytes "cpu" then
        .enableChannel .CPU_EXEC enable
      else if name = bytes "thread" then
        .enableChannel .THREAD enable
      else if name = bytes "all" then .enableAll enable
      else .unknownChannel name)
| _ =>
    some
      (.usage
        "用法: trace <通道名> <on|off>  通道: svc,ipc,gpu,mem,cpu,thread,all")

/- The last events of a channel, fifty if no number is given. -/
def cmdQuery (ch : TraceChannel) : List (List U8) → Option Request
| [] => some (.query ch 50)
| count :: _ =>
    (parseHex count).map fun n => .query ch (n.setWidth 32)

def cmdSvcTrace : List (List U8) → Option Request :=
  cmdQuery .SVC

def cmdIpcTrace : List (List U8) → Option Request :=
  cmdQuery .IPC

def cmdGpuTrace : List (List U8) → Option Request :=
  cmdQuery .GPU_CMD

/- The table of commands. -/
def commands :
    List (List U8 × (List (List U8) → Option Request)) :=
  [(bytes "break", cmdBreak),
    (bytes "break_remove", cmdBreakRemove),
    (bytes "breakpoints", fun _ => some .getBreakpoints),
    (bytes "continue", fun _ => some .continueRun),
    (bytes "step", fun _ => some .stepOver),
    (bytes "pause", fun _ => some .pause),
    (bytes "regs", fun _ => some .getLastRegisters),
    (bytes "read", cmdRead),
    (bytes "write", cmdWrite),
    (bytes "trace", cmdTrace),
    (bytes "svc_trace", cmdSvcTrace),
    (bytes "ipc_trace", cmdIpcTrace),
    (bytes "gpu_trace", cmdGpuTrace),
    (bytes "snap", fun _ => some .capture),
    (bytes "stats", fun _ => some .getStats),
    (bytes "threads", fun _ => some .threads),
    (bytes "help", fun _ => some .help)]

/- Nothing stands for an exception. -/
def handleCommand (cmd : DebugCommand) : Option Request :=
  match commands.lookup cmd.cmd with
  | some handler => handler cmd.args
  | none => some (.unknownCommand cmd.cmd)

end DebugServer

end M1Switch
