/-
  Pushdown/Cli/Program.lean
  =========================
  **The program from its arguments to its end.**  Arguments that cannot be
  followed end the program before anything else happens.  Otherwise a VM is
  started if there is a VM command, the debugger attaches to it, and the console
  runs; the program's end is the console's end.
-/
import Pushdown.Cli.Plan
import Pushdown.Launch
import Pushdown.Text.Lines

namespace Pushdown.Cli

/-! ### How the program ends -/

inductive Ending where
  | misuse
  | help
  | version
  /-- The console ended without a failure. -/
  | finished
  | failed (error : Error)
deriving DecidableEq, Repr

namespace Ending

def ofResult : Except Error Unit → Ending
  | .ok () => finished
  | .error e => failed e

def exitCode : Ending → Nat
  | misuse | failed _ => 1
  | help | version | finished => 0

/-- What the program says when it fails. -/
def failureLine? : Ending → Option String
  | failed e => some ("pda: " ++ e.message)
  | misuse | help | version | finished => none

/-- The same as its reader sees it: what it quotes may have line breaks. -/
def failureLines (e : Ending) : List String := (e.failureLine?.map Text.lines).getD []

end Ending

/-! ### How a session begins -/

/-- What is needed to begin a session. -/
structure Start where
  /-- The VM to be started first, unless one is running. -/
  launch : Option Launch
  host : String
  listenAt : Nat
  settings : Settings
  asJson : Bool
deriving DecidableEq, Repr

/-- How to begin: a VM that has to be started listens where the user says, or else
    at the number that was found free for it. -/
def Plan.start (p : Plan) (fs : Files) (free : Except Error Nat) : Except Error Start := do
  let listenAt ← match p.listenAt with
    | some n => pure n
    | none => free
  let launch ←
    if p.vmCommand.isEmpty then pure none
    else some <$> Launch.ofCommand fs p.vmCommand listenAt
  return ⟨launch, p.host, listenAt, p.settings, p.asJson⟩

/-- What the arguments lead to: a session, or the end. -/
def begin? (fs : Files) (free : Except Error Nat) (args : List String) :
    Except Ending Start :=
  match Invocation.ofArguments args with
  | .misuse => .error .misuse
  | .help => .error .help
  | .version => .error .version
  | .debug options =>
    match Plan.ofOptions options with
    | .error fault => .error (.failed fault.error)
    | .ok plan => (plan.start fs free).mapError .failed

end Pushdown.Cli
