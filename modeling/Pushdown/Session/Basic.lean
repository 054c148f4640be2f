/-
  Pushdown/Session/Basic.lean
  ===========================
  **A debug session.**  The session reads what the VM sends, line by line: replies
  go to the link, events first to the run states and then to the listeners, and
  lines that are neither are skipped.  All lines of one piece of input are dealt
  with before any call goes on.

  Reading ends with the stream, or when somebody closes the session.  Either way
  the link is closed, the run states are terminated, and the listeners hear
  `terminated` unless they have heard it before; there is no second time.

  Calls are scripts.  A call runs until it waits for a command; when the command
  is over, the call goes on with its outcome.  Calls have results of a type `α`
  of the caller's choice.
-/
import Pushdown.Link.Step
import Pushdown.Listeners
import Pushdown.Script
import Pushdown.Settings
import Pushdown.Wire.Framing

namespace Pushdown

/-- A call that waits for a command, and how it goes on. -/
structure Waiting (α : Type) where
  ticket : Ticket
  next : Except Error Payload → Script α

structure Session (α : Type) where
  link : Link
  states : RunStates
  /-- The listeners, by the label under which they registered. -/
  listeners : Listeners String
  /-- What the VM has sent of a line that is not complete. -/
  input : LineBuffer
  /-- The session still reads what the VM sends. -/
  isReading : Bool
  calls : List (Waiting α)

/-- An event and the number of the listener that heard it. -/
structure Delivery where
  listener : ListenerId
  event : Event
deriving DecidableEq, Repr

/-- A call that is over, and what came of it. -/
structure Ended (α : Type) where
  ticket : Ticket
  result : Except Error α

/-- One thing that happens in a session. -/
inductive Occurrence (α : Type) where
  /-- An event is taken in, and the listeners with these numbers hear it. -/
  | event (e : Event) (audience : List ListenerId)
  /-- The session is torn down, and the listeners with these numbers hear `terminated`. -/
  | tearDown (audience : List ListenerId)
  /-- A call asks for the writer, to send this command. -/
  | request (ticket : Ticket) (command : Command)
  | ended (call : Ended α)

/-- What happens in a session, one thing after the other. -/
abbrev Happened (α : Type) := List (Occurrence α)

namespace Happened

variable {α : Type}

/-- Who hears of the occurrence, and what. -/
def deliveriesOf : Occurrence α → List Delivery
  | .event e audience => audience.map (⟨·, e⟩)
  | .tearDown audience => audience.map (⟨·, .terminated⟩)
  | .request .. | .ended _ => []

def endedBy? : Occurrence α → Option (Ended α)
  | .ended call => some call
  | .event .. | .tearDown _ | .request .. => none

/-- Who has heard what. -/
def deliveries (h : Happened α) : List Delivery := h.flatMap deliveriesOf

/-- The calls that are over. -/
def ended (h : Happened α) : List (Ended α) := h.filterMap endedBy?

end Happened

namespace Session

variable {α : Type}

/-- A session over a transport that is up. -/
def new (pipe : Pipe) (settings : Settings) : Session α where
  link := Link.new pipe settings.commandLimit
  states := RunStates.new.opened
  listeners := Listeners.empty
  input := LineBuffer.empty
  isReading := true
  calls := []

/-! ### Events and the end -/

/-- Deliver an event to the listeners; the answer lists those who hear it. -/
def deliver (s : Session α) (e : Event) : List ListenerId × Session α :=
  let (audience, listeners) := s.listeners.dispatch (fun _ _ => []) e
  (audience, { s with listeners })

/-- Take in an event: the run states first, then the listeners. -/
def handleEvent (s : Session α) (e : Event) : Happened α × Session α :=
  if s.listeners.terminated then ([], s)
  else
    let (audience, s) := { s with states := s.states.apply e }.deliver e
    ([.event e audience], s)

/-- Reading has ended: close the link, terminate the run states, tell the listeners. -/
def tearDown (s : Session α) : Happened α × Session α :=
  let (audience, s) := { s with
    link := s.link.close
    states := s.states.terminated
    isReading := false }.deliver .terminated
  ([.tearDown audience], s)

/-- Close the session and shut the way to the VM. -/
def close (s : Session α) : Happened α × Session α :=
  let (happened, s) := s.tearDown
  (happened, { s with link := s.link.shutPipe })

/-! ### Input from the VM -/

/-- Take in one line of the VM. -/
def handleIncoming (s : Session α) : Incoming → Happened α × Session α
  | .reply r => ([], { s with link := s.link.resolve r })
  | .event e => s.handleEvent e
  | .malformed _ => ([], s)

/-- Take in the lines in order. -/
def handleAll (s : Session α) : List Incoming → Happened α × Session α
  | [] => ([], s)
  | item :: rest =>
    let (first, s) := s.handleIncoming item
    let (later, s) := s.handleAll rest
    (first ++ later, s)

/-- Take in bytes of the VM; nobody reads them once reading has ended. -/
def receive (s : Session α) (bytes : List UInt8) : Happened α × Session α :=
  if s.isReading then
    let (items, input) := s.input.receive bytes
    { s with input }.handleAll items
  else ([], s)

/-- The VM sends no more.  A rest of a line is lost, whatever it is. -/
def endInput (s : Session α) : Happened α × Session α :=
  if s.isReading then { s with input := LineBuffer.empty }.tearDown else ([], s)

/-! ### Calls -/

/-- Let a call go on until it waits for a command or is over. -/
def runScript (t : Ticket) : Script α → Session α → Happened α × Session α
  | .done result, s => ([.ended ⟨t, result⟩], s)
  | .look next, s => runScript t (next s.states) s
  | .send turn c next, s =>
    match s.link.refusal? turn with
    | some e => runScript t (next (.error e)) s
    | none =>
      ([.request t c],
        { s with link := s.link.enqueue ⟨t, .command c⟩, calls := s.calls ++ [⟨t, next⟩] })
  | .close next, s =>
    let (first, s) := s.close
    let (later, s) := runScript t next s
    (first ++ later, s)

/-- The command of a call is over: let the call go on with its outcome. -/
def goOn (t : Ticket) (result : Except Error Payload) (s : Session α) :
    Happened α × Session α :=
  match s.calls.find? (fun w => w.ticket = t) with
  | none => ([], s)
  | some w =>
    runScript t (w.next result) { s with calls := s.calls.filter (fun v => v.ticket != t) }

/-- Let everything happen that can happen, up to the end of `n` commands. -/
def settleIn : Nat → Session α → Happened α × Session α
  | 0, s => ([], s)
  | n + 1, s =>
    match s.link.turn with
    | (none, link) => ([], { s with link })
    | (some (.command t result), link) =>
      let (first, s) := goOn t result { s with link }
      let (later, s) := settleIn n s
      (first ++ later, s)
    | (some (.shutdown _), link) => settleIn n { s with link }

/-- Let everything happen that can happen now.  In one step a call gets at most one
    reply, and a failure ends it, so two commands of each call can come to their end. -/
def settle (s : Session α) : Happened α × Session α :=
  settleIn (2 * s.calls.length + 2) s

end Session

end Pushdown
