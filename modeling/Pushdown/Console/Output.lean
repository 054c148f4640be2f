/-
  Pushdown/Console/Output.lean
  ============================
  **What the console prints.**  A command's result and an event of the VM, each as
  text for people or as one JSON object on a line of its own.
-/
import Pushdown.Event
import Pushdown.Model.Node
import Pushdown.RunStates
import Pushdown.Text.Json

namespace Pushdown.Console

open Text

/-- What a command produced. -/
inductive Output where
  | done
  | threads (states : List (ThreadId × Option ThreadState))
  | frames (frames : List StackFrame)
  | vars (vars : List Variable)
  | value (value : Value)
  | strings (strings : List String)
  | state (session : SessionState) (vm : String)
  | help
deriving DecidableEq, Repr

/-- The answer to `help`. -/
def helpText : String := "\n".intercalate [
  "Commands:",
  "  threads                         list threads",
  "  frames <t>                      show the stack of thread t, top first",
  "  vars <t> [frame]                variables of a frame, the top frame by default",
  "  print <t> <frame> <name>        value of a variable",
  "  children <t> <frame> <path>     children of a variable",
  "  set <t> <frame> <name> <value>  change a variable",
  "  eval <t> <expr...>              evaluate an expression",
  "  data <t>                        operand stack of thread t",
  "  resume [t] / suspend [t]        all threads or just t",
  "  step <t> / stepreturn <t> / drop <t>",
  "  break <line> [vm]               breakpoint, vm suspends every thread",
  "  clear <line>                    remove a breakpoint",
  "  watch <fn::var> [r][w]          watch reads and/or writes",
  "  eventstop <name> on|off         suspend on a VM event",
  "  state                           session and VM state",
  "  help / exit"]

/-- The lines with a line feed between each two. -/
def unlines (lines : List String) : String := "\n".intercalate lines

/-! ### States by name -/

def threadStateName : ThreadState → String
  | .suspended => "suspended"
  | .running => "running"

def sessionStateName : SessionState → String
  | .connecting => "connecting"
  | .open => "open"
  | .suspended => "suspended"
  | .running => "running"
  | .terminated => "terminated"

/-- The state of the session as the head of a sentence. -/
def sessionStateTitle : SessionState → String
  | .connecting => "Connecting"
  | .open => "Open"
  | .suspended => "Suspended"
  | .running => "Running"
  | .terminated => "Terminated"

/-! ### Results -/

def threadText : ThreadId × Option ThreadState → String
  | (id, some s) => "thread " ++ toString id ++ " (" ++ threadStateName s ++ ")"
  | (id, none) => "thread " ++ toString id

def frameText (f : StackFrame) : String :=
  "#" ++ toString f.ref.frame ++ " " ++ f.data.function ++ " at " ++ f.data.file ++ ":"
    ++ toString f.data.line

def valueText (v : Value) : String := v.text ++ " (" ++ v.kind.name ++ ")"

def variableText (v : Variable) : String := v.name ++ " = " ++ valueText v.value

def threadJson (t : ThreadId × Option ThreadState) : Json :=
  .record [("id", .ofNat t.1.toNat),
    ("state", .ofOption (fun s => .text (threadStateName s)) t.2)]

def frameJson (f : StackFrame) : Json :=
  .record [("file", .text f.data.file), ("line", .ofNat f.data.line.toNat),
    ("function", .text f.data.function), ("variables", .texts f.data.variableNames),
    ("index", .ofNat f.ref.frame)]

def variableJson (v : Variable) : Json :=
  .record [("name", .text v.name), ("path", .text v.path), ("value", .text v.content),
    ("type", .text v.value.kind.name)]

namespace Output

/-- The result for people. -/
def text : Output → String
  | done => "ok"
  | threads [] => "no threads"
  | threads states => unlines (states.map threadText)
  | frames fs => unlines (fs.map frameText)
  | vars [] => "no variables"
  | vars vs => unlines (vs.map variableText)
  | value v => valueText v
  | strings ss => " ".intercalate ss
  | state session vm => "session " ++ sessionStateTitle session ++ ", vm: " ++ vm
  | help => helpText

/-- The result for programs. -/
def json : Output → Json
  | done => .record [("result", .text "ok")]
  | threads states => .record [("threads", .array (states.map threadJson))]
  | frames fs => .record [("frames", .array (fs.map frameJson))]
  | vars vs => .record [("variables", .array (vs.map variableJson))]
  | value v => .record [("value", .text v.text), ("type", .text v.kind.name)]
  | strings ss => .record [("data", .texts ss)]
  | state session vm =>
    .record [("session", .text (sessionStateName session)), ("vm", .text vm)]
  | help => .record [("help", .text helpText)]

/-- The result in either form. -/
def render (asJson : Bool) (o : Output) : String :=
  if asJson then o.json.render else o.text

end Output

/-! ### Events -/

def stopReasonText : StopReason → String
  | .client => "by request"
  | .step => "after step"
  | .drop => "after drop to frame"
  | .breakpoint line => "at breakpoint on line " ++ toString line
  | .watch access name => "on " ++ access ++ " of " ++ name
  | .event name => "on event " ++ name
  | .other text => text

/-- The event for people. -/
def eventText : Event → String
  | .started t => "thread " ++ toString t ++ " started"
  | .exited t => "thread " ++ toString t ++ " exited"
  | .suspended t reason => "thread " ++ toString t ++ " suspended " ++ stopReasonText reason
  | .resumed t (.other text) => "thread " ++ toString t ++ " resumed " ++ text
  | .resumed t _ => "thread " ++ toString t ++ " resumed"
  | .terminated => "terminated"
  | .output text => text

/-- A reason without data is a text, one with data an object of one field. -/
def stopReasonJson : StopReason → Json
  | .client => .text "client"
  | .step => .text "step"
  | .drop => .text "drop"
  | .breakpoint line => .record [("breakpoint", .ofNat line.toNat)]
  | .watch access name =>
    .record [("watch", .record [("access", .text access), ("name", .text name)])]
  | .event name => .record [("event", .text name)]
  | .other text => .record [("other", .text text)]

def resumeReasonJson : ResumeReason → Json
  | .client => .text "client"
  | .step => .text "step"
  | .drop => .text "drop"
  | .other text => .record [("other", .text text)]

def threadField (t : ThreadId) : String × Json := ("thread", .ofNat t.toNat)

/-- The event for programs: its kind and what belongs to it. -/
def eventJson : Event → Json
  | .started t => .record [("kind", .text "started"), threadField t]
  | .exited t => .record [("kind", .text "exited"), threadField t]
  | .suspended t reason =>
    .record [("kind", .text "suspended"), threadField t, ("reason", stopReasonJson reason)]
  | .resumed t reason =>
    .record [("kind", .text "resumed"), threadField t, ("reason", resumeReasonJson reason)]
  | .terminated => .record [("kind", .text "terminated")]
  | .output text => .record [("kind", .text "output"), ("text", .text text)]

/-- The event in either form. -/
def renderEvent (asJson : Bool) (e : Event) : String :=
  if asJson then (Json.record [("event", eventJson e)]).render else eventText e

/-- A failure in either form. -/
def renderError (asJson : Bool) (message : String) : String :=
  if asJson then (Json.record [("error", .text message)]).render else "error: " ++ message

end Pushdown.Console
