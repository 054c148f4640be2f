/-
  Pushdown/Console/Loop.lean
  ==========================
  **The console.**  Lines typed by the user are read one at a time: the next is
  looked at when the command before it is over.  Events are printed as they
  arrive.  The console ends when the session terminates, after `exit`, after a
  failure that leaves the session unusable, and when the user's input ends; in
  that last case the target is terminated first.
-/
import Pushdown.Console.Execute
import Pushdown.Forward
import Pushdown.Session.Step

namespace Pushdown.Console

/-- What the console is doing. -/
inductive LoopPhase where
  /-- Waiting for a line. -/
  | ready
  /-- A command is running; after `exit` the console ends. -/
  | executing (exiting : Bool)
  /-- The input has ended and the target is being terminated. -/
  | leaving
  | finished (result : Except Error Unit)

structure Loop where
  session : Session Output
  asJson : Bool
  /-- What has been typed of a line that is not complete. -/
  typed : Forwarder
  inputEnded : Bool
  /-- Complete lines that have not been looked at. -/
  lines : List String
  phase : LoopPhase
  nextTicket : Ticket

/-- What the console prints, and what the VM has read. -/
structure LoopReport where
  printed : List String
  sent : List UInt8

namespace LoopReport

def nothing : LoopReport := ⟨[], []⟩

def append (a b : LoopReport) : LoopReport := ⟨a.printed ++ b.printed, a.sent ++ b.sent⟩

instance : Append LoopReport := ⟨append⟩

end LoopReport

namespace Loop

/-- A console over a session; it hears every event as the first listener. -/
def new (pipe : Pipe) (settings : Settings) (asJson : Bool) : Loop where
  session := ((Session.new pipe settings).step (.listen "console")).2
  asJson := asJson
  typed := Forwarder.new
  inputEnded := false
  lines := []
  phase := .ready
  nextTicket := 0

/-! ### The running command -/

/-- The command is over: print its result, and end the console if that was it. -/
def conclude (l : Loop) (result : Except Error Output) : List String × Loop :=
  match l.phase, result with
  | .executing exiting, .ok output =>
    ([output.render l.asJson], { l with phase := if exiting then .finished (.ok ()) else .ready })
  | .executing exiting, .error e =>
    let phase :=
      if e.isFatal then .finished (.error e) else if exiting then .finished (.ok ()) else .ready
    ([renderError l.asJson e.message], { l with phase })
  | .leaving, result => ([], { l with phase := .finished (result.map (fun _ => ())) })
  | .ready, _ | .finished _, _ => ([], l)

/-- Conclude the commands that are over. -/
def concludeAll (l : Loop) : List (Ended Output) → List String × Loop
  | [] => ([], l)
  | e :: rest =>
    let (first, l) := l.conclude e.result
    let (later, l) := l.concludeAll rest
    (first ++ later, l)

/-- Let the session take one input; print the events and the result that come of it. -/
def input (l : Loop) (a : Session.Action Output) : LoopReport × Loop :=
  let (report, session) := l.session.step a
  let events := report.happened.deliveries.map (fun d => renderEvent l.asJson d.event)
  let (results, l) := { l with session }.concludeAll report.happened.ended
  (⟨events ++ results, report.sent⟩, l)

/-- Start a script as the console's command. -/
def start (l : Loop) (phase : LoopPhase) (script : Script Output) : LoopReport × Loop :=
  { l with phase, nextTicket := l.nextTicket + 1 }.input (.start l.nextTicket script)

/-! ### Lines -/

/-- Look at one line. -/
def takeLine (l : Loop) (line : String) : LoopReport × Loop :=
  match Command.ofLine? line with
  | .ok none => (.nothing, l)
  | .ok (some c) => l.start (.executing (c = .exit)) c.script
  | .error e => (⟨[renderError l.asJson e.message], []⟩, l)

/-- Whether the console waits for a line. -/
def isReady (l : Loop) : Bool :=
  match l.phase with
  | .ready => true
  | _ => false

/-- The input has ended: terminate the target unless it has terminated. -/
def leave (l : Loop) : LoopReport × Loop :=
  if l.session.states.session = .terminated then
    (.nothing, { l with phase := .finished (.ok ()) })
  else l.start .leaving (toDone Target.terminate)

/-- Look at the lines in order, as long as the console is ready for one. -/
def takeLines : List String → Loop → LoopReport × Loop
  | [], l =>
    if l.isReady then
      if l.session.listeners.terminated then
        (.nothing, { l with lines := [], phase := .finished (.ok ()) })
      else if l.inputEnded then { l with lines := [] }.leave
      else (.nothing, { l with lines := [] })
    else (.nothing, { l with lines := [] })
  | line :: rest, l =>
    if l.isReady then
      if l.session.listeners.terminated then
        (.nothing, { l with lines := [], phase := .finished (.ok ()) })
      else
        let (first, l) := l.takeLine line
        let (later, l) := takeLines rest l
        (first ++ later, l)
    else (.nothing, { l with lines := line :: rest })

/-- Go on with the lines that are waiting. -/
def goOn (l : Loop) : LoopReport × Loop := takeLines l.lines l

/-! ### Input -/

/-- The user types; a line that is not UTF-8 ends the input. -/
def type (l : Loop) (bytes : List UInt8) : LoopReport × Loop :=
  let (lines, typed) := l.typed.write bytes
  { l with
    typed
    lines := l.lines ++ lines
    inputEnded := l.inputEnded || typed.stopped }.goOn

/-- The user's input ends. -/
def endInput (l : Loop) : LoopReport × Loop :=
  if l.inputEnded then (.nothing, l)
  else { l with lines := l.lines ++ l.typed.finish, inputEnded := true }.goOn

/-- How the console ended, if it has. -/
def result? (l : Loop) : Option (Except Error Unit) :=
  match l.phase with
  | .finished result => some result
  | _ => none

/-- The VM, or the clock.  A console that is over hears neither. -/
def hear (l : Loop) (a : Session.Action Output) : LoopReport × Loop :=
  if l.result?.isSome then (.nothing, l)
  else
    let (first, l) := l.input a
    let (later, l) := l.goOn
    (first ++ later, l)

end Loop

end Pushdown.Console
