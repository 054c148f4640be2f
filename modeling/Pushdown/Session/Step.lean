/-
  Pushdown/Session/Step.lean
  ==========================
  **Runs of a session.**  A session takes one input after the other: from the VM,
  from callers and from the clock.  After each, all that can happen happens, and a
  report says what the VM has read, who heard which event, and which calls are
  over.
-/
import Pushdown.Session.Basic

namespace Pushdown

namespace Session

variable {α : Type}

inductive Action (α : Type) where
  /-- The VM sends bytes. -/
  | vm (bytes : List UInt8)
  /-- The VM sends no more. -/
  | vmEnd
  /-- A call begins. -/
  | start (ticket : Ticket) (script : Script α)
  /-- A call goes away. -/
  | cancel (ticket : Ticket)
  | advance (ms : Nat)
  /-- The VM reads all there is. -/
  | read
  /-- The VM lets go of its end of the pipe. -/
  | dropReader
  | listen (label : String)
  | unlisten (listener : ListenerId)

/-- What came of an input. -/
structure Report (α : Type) where
  /-- The bytes the VM has read. -/
  sent : List UInt8
  happened : Happened α

def Action.isRead : Action α → Bool
  | .read => true
  | _ => false

/-- What an input changes at once. -/
def perform (s : Session α) : Action α → Happened α × Session α
  | .vm bytes => s.receive bytes
  | .vmEnd => s.endInput
  | .start t script => runScript t script s
  | .cancel t =>
    ([], { s with
      link := s.link.cancel t
      calls := s.calls.filter (fun w => w.ticket != t) })
  | .advance ms => ([], { s with link := s.link.advance ms })
  | .read => ([], s)
  | .dropReader => ([], { s with link := s.link.dropReader })
  | .listen label => ([], { s with listeners := (s.listeners.add label).2 })
  | .unlisten id => ([], { s with listeners := (s.listeners.remove id).2 })

/-- Take one input. -/
def step (s : Session α) (a : Action α) : Report α × Session α :=
  let reading := s.link.pipe.reading
  let s := { s with link := s.link.setReading (reading || a.isRead) }
  let (first, s) := s.perform a
  let (later, s) := s.settle
  let (sent, link) := s.link.drain
  (⟨sent, first ++ later⟩, { s with link := link.setReading reading })

/-- Take the inputs one after the other. -/
def run (s : Session α) : List (Action α) → List (Report α) × Session α
  | [] => ([], s)
  | a :: rest =>
    let (report, s) := s.step a
    let (reports, s) := s.run rest
    (report :: reports, s)

end Session

end Pushdown
