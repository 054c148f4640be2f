/-
  Pushdown/Link/Step.lean
  =======================
  **Runs of a link.**  A link takes one input after the other; after each, all
  that can happen happens, and a report says what the VM has read and which calls
  are over.
-/
import Pushdown.Link.Basic

namespace Pushdown

namespace Link

inductive Action where
  | send (ticket : Ticket) (turn : Turn) (command : Command)
  | cancel (ticket : Ticket)
  | advance (ms : Nat)
  | resolve (reply : Reply)
  | close
  | shutdown (ticket : Ticket)
  | read
  | dropReader
deriving DecidableEq, Repr

/-- What came of an input. -/
structure Report where
  /-- The bytes the VM has read. -/
  sent : List UInt8
  /-- The calls that are over. -/
  finished : List Finished

/-- What an input changes at once: calls that are refused, and the link. -/
def perform (l : Link) : Action → List Finished × Link
  | .send t turn c =>
    match l.refusal? turn with
    | some e => ([.command t (.error e)], l)
    | none => ([], l.enqueue ⟨t, .command c⟩)
  | .cancel t => ([], l.cancel t)
  | .advance ms => ([], l.advance ms)
  | .resolve reply => ([], l.resolve reply)
  | .close => ([], l.close)
  | .shutdown t => ([], l.close.enqueue ⟨t, .shutdown (l.clock + shutdownGrace)⟩)
  | .read => ([], l)
  | .dropReader => ([], l.dropReader)

/-- Let the VM read all the time, or no longer. -/
def setReading (l : Link) (reading : Bool) : Link :=
  { l with pipe := { l.pipe with reading } }

/-- Let the VM read what has come, if it is reading. -/
def drain (l : Link) : List UInt8 × Link :=
  let (sent, pipe) := l.pipe.drained
  (sent, { l with pipe })

/-- Take in an input; while it is a `read` the VM reads all the time. -/
def begin (l : Link) (a : Action) : List Finished × Link :=
  (l.setReading (l.pipe.reading || a = .read)).perform a

/-- Take one input. -/
def step (l : Link) (a : Action) : Report × Link :=
  let (refused, begun) := l.begin a
  let (finished, settled) := begun.settle
  let (sent, drained) := settled.drain
  (⟨sent, refused ++ finished⟩, drained.setReading l.pipe.reading)

/-- Take the inputs one after the other. -/
def run (l : Link) : List Action → List Report × Link
  | [] => ([], l)
  | a :: rest =>
    let (report, l) := l.step a
    let (reports, l) := l.run rest
    (report :: reports, l)

end Link

end Pushdown
