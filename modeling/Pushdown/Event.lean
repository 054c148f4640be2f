/-
  Pushdown/Event.lean
  ===================
  **Run-control events.**  The VM tells the debugger about its threads on lines
  of its own: a keyword, a thread, and for stops and starts a reason.  Words are
  separated by blank characters, except that the text of an `output` line is
  everything after the first space, kept as it is.

  A reason that is none of the known forms is kept as its words, joined by
  single spaces.  `Event.line` writes an event the way the VM does.
-/
import Pushdown.Command
import Pushdown.Text.Blank

namespace Pushdown

open Text

/-- Why a thread stopped. -/
inductive StopReason where
  | client
  | step
  | drop
  | breakpoint (line : UInt64)
  | watch (access name : String)
  | event (name : String)
  | other (text : String)
deriving DecidableEq, Repr

/-- Why a thread started running again. -/
inductive ResumeReason where
  | client
  | step
  | drop
  | other (text : String)
deriving DecidableEq, Repr

inductive Event where
  | started (thread : ThreadId)
  | exited (thread : ThreadId)
  | suspended (thread : ThreadId) (reason : StopReason)
  | resumed (thread : ThreadId) (reason : ResumeReason)
  | terminated
  | output (text : String)
deriving DecidableEq, Repr

/-! ### Reading -/

/-- The words with a space between each two. -/
def unwords (ws : List String) : String := " ".intercalate ws

def StopReason.ofWords (ws : List String) : StopReason :=
  match ws with
  | ["client"] => .client
  | ["step"] => .step
  | ["drop"] => .drop
  | ["breakpoint", line] =>
    match readUInt64? line.toList with
    | some n => .breakpoint n
    | none => .other (unwords ws)
  | ["watch", access, name] => .watch access name
  | ["event", name] => .event name
  | _ => .other (unwords ws)

def ResumeReason.ofWords (ws : List String) : ResumeReason :=
  match ws with
  | ["client"] => .client
  | ["step"] => .step
  | ["drop"] => .drop
  | _ => .other (unwords ws)

namespace Event

/-- The keywords that begin an event line. -/
def keywords : List String :=
  ["started", "exited", "suspended", "resumed", "terminated", "output"]

/-- The text before the first space. -/
def keywordOf (line : String) : String :=
  String.ofList (line.toList.takeWhile (· != ' '))

/-- Whether the line begins with the keyword of an event. -/
def isEventLine (line : String) : Bool := keywords.contains (keywordOf line)

def readThread? (word : String) : Option ThreadId := readUInt64? word.toList

/-- An event from the words of its line. -/
def ofWords? : List String → Option Event
  | ["started", thread] => (readThread? thread).map .started
  | ["exited", thread] => (readThread? thread).map .exited
  | "suspended" :: thread :: reason =>
    (readThread? thread).map (fun t => .suspended t (StopReason.ofWords reason))
  | "resumed" :: thread :: reason =>
    (readThread? thread).map (fun t => .resumed t (ResumeReason.ofWords reason))
  | ["terminated"] => some .terminated
  | _ => none

/-- The event of a line, unless the line is not a well-formed one. -/
def ofLine? (line : String) : Option Event :=
  if keywordOf line = "output" then
    some (.output (String.ofList (line.toList.drop ("output".length + 1))))
  else
    ofWords? ((words line.toList).map String.ofList)

/-- The thread that the event is about, if any. -/
def thread? : Event → Option ThreadId
  | started t | exited t | suspended t _ | resumed t _ => some t
  | terminated | output _ => none

end Event

/-! ### Writing -/

/-- The words of the reason. -/
def StopReason.text : StopReason → String
  | .client => "client"
  | .step => "step"
  | .drop => "drop"
  | .breakpoint line => "breakpoint " ++ toString line
  | .watch access name => "watch " ++ access ++ " " ++ name
  | .event name => "event " ++ name
  | .other text => text

def ResumeReason.text : ResumeReason → String
  | .client => "client"
  | .step => "step"
  | .drop => "drop"
  | .other text => text

/-- The line by which the VM reports the event. -/
def Event.line : Event → String
  | .started t => "started " ++ toString t
  | .exited t => "exited " ++ toString t
  | .suspended t reason => "suspended " ++ toString t ++ " " ++ reason.text
  | .resumed t reason => "resumed " ++ toString t ++ " " ++ reason.text
  | .terminated => "terminated"
  | .output text => "output " ++ text

end Pushdown
