/-
  Pushdown/Script.lean
  ====================
  **Operations as data.**  What a caller does with a session is a *script*: it
  looks at the run states, sends commands one after the other, and may close the
  session.  A script says nothing about when its commands get their turn or what
  happens meanwhile; the session runs it.

  A command's outcome goes to the script whether it is a success or a failure.
  `request` is the usual way to send: a failure ends the script with that very
  error, which is what sequencing does with every failure.
-/
import Pushdown.RunStates

namespace Pushdown

inductive Script (α : Type) where
  /-- The result. -/
  | done (result : Except Error α)
  /-- Go by the run states of this moment. -/
  | look (next : RunStates → Script α)
  /-- Send a command and go on with its outcome. -/
  | send (turn : Turn) (command : Command) (next : Except Error Payload → Script α)
  /-- Tear the session down. -/
  | close (next : Script α)

namespace Script

variable {α β : Type}

/-- Go on with the value of a script; a failure ends both. -/
def bind : Script α → (α → Script β) → Script β
  | done (.ok a), k => k a
  | done (.error e), _ => done (.error e)
  | look next, k => look (fun s => (next s).bind k)
  | send turn c next, k => send turn c (fun r => (next r).bind k)
  | close next, k => close (next.bind k)

instance : Monad Script where
  pure a := done (.ok a)
  bind := bind

instance : MonadLift (Except Error) Script where
  monadLift := done

def fail (e : Error) : Script α := done (.error e)

/-! ### Steps -/

/-- Send a command and wait for its payload. -/
def request (c : Command) : Script Payload := send .wait c done

/-- The present epoch of the thread, which must be suspended, and if an epoch is
    given, suspended in that one. -/
def require (t : ThreadId) (epoch : Option Nat) : Script Nat :=
  look (fun s => done ((s.requireSuspended t epoch).mapError .invalidState))

/-- The run states of this moment. -/
def states : Script RunStates := look (fun s => done (.ok s))

end Script

end Pushdown
