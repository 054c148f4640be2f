/-
  Pushdown/Error.lean
  ===================
  **Failures, by cause.**  A call fails for one of the reasons below and keeps
  what caused it; `Error.message` is the only place that words them.  Three
  reasons have finer causes of their own:

  * `ReplyFault` — the VM answered, but not in the shape the command promises;
  * `StateFault` — the thread is not in the suspension the caller relies on;
  * `ArgumentFault` — the caller's own text cannot be sent or means nothing.
-/
import Pushdown.Payload

namespace Pushdown

/-- The shape of payload that a caller needs. -/
inductive Shape where
  | ack
  | threads
  | frames
  | text
  | integer
  | strings
deriving DecidableEq, Repr

/-- Why a reply cannot be used. -/
inductive ReplyFault where
  | noParser (opcode : String)
  | unwantedPayload (payload : String)
  | notNumber (field : String)
  | shortFrame (segment : String)
  | unpairedFields (count : Nat) (payload : String)
  | otherShape (wanted : Shape) (got : Payload)
  | noOutcome (command body : String)
  | described (detail : String)
deriving DecidableEq, Repr

/-- Why a thread cannot be queried. -/
inductive StateFault where
  | terminated
  | unknownThread (thread : ThreadId)
  | notSuspended (thread : ThreadId)
  | stale (thread : ThreadId)
  | described (detail : String)
deriving DecidableEq, Repr

/-- What a name that must be one word stands for. -/
inductive NameRole where
  | variableName
  | watchName
  | eventName
deriving DecidableEq, Repr

/-- Why a command cannot be sent as asked. -/
inductive ArgumentFault where
  | lineBreak (opcode argument : String)
  | notOneWord (role : NameRole) (name : String)
  | noSuchFrame (thread : ThreadId) (index : Option UInt64)
  | described (detail : String)
deriving DecidableEq, Repr

/-- Why a call failed. -/
inductive Error where
  | connectionClosed
  | malformedReply (fault : ReplyFault)
  | busy
  | invalidState (fault : StateFault)
  | commandFailed (opcode : String) (code : Int64) (message : String)
  | timeout (command : String)
  | invalidArgument (fault : ArgumentFault)
  | io (message : String)
deriving DecidableEq, Repr

/-! ### Wording -/

/-- What a reply of the shape is called. -/
def Shape.describe : Shape → String
  | .ack => "an acknowledgement"
  | .threads => "a thread list"
  | .frames => "a stack"
  | .text => "a value"
  | .integer => "an integer"
  | .strings => "a list"

def ReplyFault.message : ReplyFault → String
  | .noParser opcode => "no reply parser for opcode '" ++ opcode ++ "'"
  | .unwantedPayload payload => "expected no payload, got '" ++ payload ++ "'"
  | .notNumber field => "expected a number, got '" ++ field ++ "'"
  | .shortFrame segment =>
    "stack frame needs file, line and function: '" ++ segment ++ "'"
  | .unpairedFields count payload =>
    "children reply needs name/value pairs, got " ++ toString count ++ " fields: '"
      ++ payload ++ "'"
  | .otherShape wanted got => "expected " ++ wanted.describe ++ ", got " ++ got.describe
  | .noOutcome command body =>
    "reply to '" ++ command ++ "' is neither ok nor error: '" ++ body ++ "'"
  | .described detail => detail

def StateFault.message : StateFault → String
  | .terminated => "the debug session has terminated"
  | .unknownThread t => "thread " ++ toString t ++ " is unknown or has exited"
  | .notSuspended t => "thread " ++ toString t ++ " is not suspended"
  | .stale t =>
    "stale data for thread " ++ toString t ++ ", it has run since this was fetched"
  | .described detail => detail

def NameRole.describe : NameRole → String
  | .variableName => "variable name"
  | .watchName => "watch name"
  | .eventName => "event name"

def ArgumentFault.message : ArgumentFault → String
  | .lineBreak opcode argument =>
    "argument to '" ++ opcode ++ "' contains a line break: " ++ Text.quoted argument
  | .notOneWord role name =>
    role.describe ++ " must be a single word, got '" ++ name ++ "'"
  | .noSuchFrame t (some i) =>
    "thread " ++ toString t ++ " has no frame Some(" ++ toString i ++ ")"
  | .noSuchFrame t none => "thread " ++ toString t ++ " has no frame None"
  | .described detail => detail

/-- The failure as one line for the user. -/
def Error.message : Error → String
  | .connectionClosed => "connection to the PDA VM is closed"
  | .malformedReply fault => "malformed reply: " ++ fault.message
  | .busy => "another command is already in flight"
  | .invalidState fault => "invalid state: " ++ fault.message
  | .commandFailed opcode code message =>
    "command '" ++ opcode ++ "' failed with code " ++ toString code ++ ": " ++ message
  | .timeout command => "timed out waiting for a reply to '" ++ command ++ "'"
  | .invalidArgument fault => "invalid argument: " ++ fault.message
  | .io message => message

/-- Whether the session cannot be used any more. -/
def Error.isFatal : Error → Bool
  | .connectionClosed | .io _ => true
  | _ => false

end Pushdown
