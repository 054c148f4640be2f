/-
  Pushdown/Console/Command.lean
  =============================
  **What can be typed at the console.**  A line is cut into words at blank
  characters.  The first word names the command; numbers and names follow.  Two
  commands end in free text, the value of `set` and the expression of `eval`: it
  reaches from its first word to the last character that is not blank, and
  everything inside it is kept.
-/
import Pushdown.Command
import Pushdown.Text.Blank

namespace Pushdown.Console

open Text

inductive Command where
  | threads
  | frames (thread : ThreadId)
  | vars (thread : ThreadId) (frame : Option UInt64)
  | print (thread : ThreadId) (frame : UInt64) (name : String)
  | children (thread : ThreadId) (frame : UInt64) (path : String)
  | set (thread : ThreadId) (frame : UInt64) (name value : String)
  | eval (thread : ThreadId) (expression : String)
  | data (thread : ThreadId)
  | resume (thread : Option ThreadId)
  | suspend (thread : Option ThreadId)
  | step (thread : ThreadId)
  | stepReturn (thread : ThreadId)
  | drop (thread : ThreadId)
  | breakAt (line : UInt64) (stopVm : Bool)
  | clear (line : UInt64)
  | watch (name : String) (read write : Bool)
  | eventStop (name : String) (enabled : Bool)
  | state
  | help
  | exit
deriving DecidableEq, Repr

/-- What a number on the line stands for. -/
inductive NumberRole where
  | thread
  | frame
  | line
deriving DecidableEq, Repr

/-- Why a line is not a command. -/
inductive ParseError where
  | notNumber (role : NumberRole) (word : String)
  | badAccess (word : String)
  | unknown (line : String)
deriving DecidableEq, Repr

def NumberRole.name : NumberRole → String
  | .thread => "thread"
  | .frame => "frame"
  | .line => "line"

def ParseError.message : ParseError → String
  | .notNumber role word =>
    "Can't understand " ++ role.name ++ " '" ++ word ++ "', expected a number"
  | .badAccess word =>
    "Can't understand watch access '" ++ word ++ "', expected r, w or rw"
  | .unknown line => "Can't understand '" ++ line ++ "', try 'help'"

/-! ### Reading a line -/

def number (role : NumberRole) (word : String) : Except ParseError UInt64 :=
  match readUInt64? word.toList with
  | some n => .ok n
  | none => .error (.notNumber role word)

/-- Leave out the first word and the blanks around it. -/
def skipWord (cs : List Char) : List Char :=
  (cs.dropWhile (fun c => !isBlank c)).dropWhile isBlank

/-- The line without its first `n` words and the blanks at both ends. -/
def restAfter (n : Nat) (line : List Char) : String :=
  String.ofList (dropEndWhile isBlank (n.repeat skipWord (line.dropWhile isBlank)))

/-- Which accesses to watch: any mixture of `r` and `w`. -/
def readAccess (word : String) : Except ParseError (Bool × Bool) :=
  let cs := word.toList
  if !cs.isEmpty && cs.all (fun c => c == 'r' || c == 'w') then
    .ok (cs.contains 'r', cs.contains 'w')
  else .error (.badAccess word)

/-- Read the words of a line; the line itself is there for free text.  A blank
    line is no command. -/
def Command.ofWords? (line : List Char) (ws : List String) : Except ParseError (Option Command) :=
  match ws with
  | [] => .ok none
  | ["threads"] => .ok (some .threads)
  | ["frames", t] => do return some (.frames (← number .thread t))
  | ["vars", t] => do return some (.vars (← number .thread t) none)
  | ["vars", t, f] => do
    return some (.vars (← number .thread t) (some (← number .frame f)))
  | ["print", t, f, name] => do
    return some (.print (← number .thread t) (← number .frame f) name)
  | ["children", t, f, path] => do
    return some (.children (← number .thread t) (← number .frame f) path)
  | "set" :: t :: f :: name :: _ :: _ => do
    return some (.set (← number .thread t) (← number .frame f) name (restAfter 4 line))
  | "eval" :: t :: _ :: _ => do
    return some (.eval (← number .thread t) (restAfter 2 line))
  | ["data", t] => do return some (.data (← number .thread t))
  | ["resume"] => .ok (some (.resume none))
  | ["resume", t] => do return some (.resume (some (← number .thread t)))
  | ["suspend"] => .ok (some (.suspend none))
  | ["suspend", t] => do return some (.suspend (some (← number .thread t)))
  | ["step", t] => do return some (.step (← number .thread t))
  | ["stepreturn", t] => do return some (.stepReturn (← number .thread t))
  | ["drop", t] => do return some (.drop (← number .thread t))
  | ["break", l] => do return some (.breakAt (← number .line l) false)
  | ["break", l, "vm"] => do return some (.breakAt (← number .line l) true)
  | ["clear", l] => do return some (.clear (← number .line l))
  | ["watch", name] => .ok (some (.watch name true true))
  | ["watch", name, access] => do
    let (read, write) ← readAccess access
    return some (.watch name read write)
  | ["eventstop", name, "on"] => .ok (some (.eventStop name true))
  | ["eventstop", name, "off"] => .ok (some (.eventStop name false))
  | ["state"] => .ok (some .state)
  | ["help"] => .ok (some .help)
  | ["exit"] => .ok (some .exit)
  | _ => .error (.unknown (String.ofList (trim line)))

/-- Read a line of the console. -/
def Command.ofLine? (line : String) : Except ParseError (Option Command) :=
  Command.ofWords? line.toList ((words line.toList).map String.ofList)

end Pushdown.Console
