/-
  Pushdown/Command.lean
  =====================
  **The commands of the VM.**  A command is written as its opcode followed by its
  arguments, single spaces between them.  Free text (a value, an expression) is
  always the last argument, so it may hold spaces; a name must not.
-/
import Pushdown.Text.Numeral

namespace Pushdown

/-- The number by which the VM names a thread. -/
abbrev ThreadId := UInt64

/-- A request to the VM.  An absent thread means all threads, an absent path the
    variables of the frame itself. -/
inductive Command where
  | threads
  | state (thread : Option ThreadId)
  | stack (thread : ThreadId)
  | stackDepth (thread : ThreadId)
  | data (thread : ThreadId)
  | var (thread : ThreadId) (frame : Nat) (name : String)
  | setVar (thread : ThreadId) (frame : Nat) (name value : String)
  | children (thread : ThreadId) (frame : Nat) (path : Option String)
  | eval (thread : ThreadId) (expression : String)
  | resume (thread : Option ThreadId)
  | suspend (thread : Option ThreadId)
  | step (thread : ThreadId)
  | stepReturn (thread : ThreadId)
  | drop (thread : ThreadId)
  | setBreakpoint (line : UInt64) (stopVm : Bool)
  | clearBreakpoint (line : UInt64)
  | watch (name : String) (read write : Bool)
  | eventStop (event : String) (enabled : Bool)
  | exit
deriving DecidableEq, Repr

/-- How a command goes for the writer: wait for its turn, or give up if another
    command is in flight. -/
inductive Turn where
  | wait
  | atOnce
deriving DecidableEq, Repr

namespace Command

/-- The first word of the command line. -/
def opcode : Command → String
  | threads => "threads"
  | state _ => "state"
  | stack _ => "stack"
  | stackDepth _ => "stackdepth"
  | data _ => "data"
  | var .. => "var"
  | setVar .. => "setvar"
  | children .. => "children"
  | eval .. => "eval"
  | resume _ => "resume"
  | suspend _ => "suspend"
  | step _ => "step"
  | stepReturn _ => "stepreturn"
  | drop _ => "drop"
  | setBreakpoint .. => "set"
  | clearBreakpoint _ => "clear"
  | watch .. => "watch"
  | eventStop .. => "eventstop"
  | exit => "exit"

/-- A number as an argument. -/
def numeral (n : Nat) : String := String.ofList (Text.digits n)

/-- A yes-or-no argument. -/
def flag (b : Bool) : String := if b then "1" else "0"

/-- Which accesses a watch stops at: 1 for reads, 2 for writes, 3 for both. -/
def accessFlags (read write : Bool) : Nat :=
  (if read then 1 else 0) + (if write then 2 else 0)

/-- The arguments after the opcode; the VM goes by their order. -/
def args : Command → List String
  | threads | exit => []
  | state thread | resume thread | suspend thread =>
    thread.toList.map (fun t => numeral t.toNat)
  | stack thread | stackDepth thread | data thread | step thread | stepReturn thread
  | drop thread => [numeral thread.toNat]
  | var thread frame name => [numeral thread.toNat, numeral frame, name]
  | setVar thread frame name value => [numeral thread.toNat, numeral frame, name, value]
  | children thread frame path => numeral thread.toNat :: numeral frame :: path.toList
  | eval thread expression => [numeral thread.toNat, expression]
  | setBreakpoint line stopVm => [numeral line.toNat, flag stopVm]
  | clearBreakpoint line => [numeral line.toNat]
  | watch name read write => [name, numeral (accessFlags read write)]
  | eventStop event enabled => [event, flag enabled]

/-- The command as one text: opcode and arguments, single spaces between. -/
def text (c : Command) : String :=
  " ".intercalate (c.opcode :: c.args)

end Command

end Pushdown
