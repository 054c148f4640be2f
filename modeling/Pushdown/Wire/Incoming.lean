/-
  Pushdown/Wire/Incoming.lean
  ===========================
  **What a line from the VM is.**  A line whose first word is the keyword of an
  event is that event or nothing at all.  Any other line is a reply if it reads

      #<token> ok <payload>        #<token> error <code> <message>

  with the text after `ok` and after the code optional.  A reply whose token can
  be read but whose rest cannot is still a reply, so that its command ends.
  Every other line is malformed.
-/
import Pushdown.Event

namespace Pushdown

open Text

/-- What the VM said in answer to a command. -/
inductive Outcome where
  | ok (payload : String)
  | error (code : Int64) (message : String)
  | unreadable (body : String)
deriving DecidableEq, Repr

/-- An answer and the token of the command it answers. -/
structure Reply where
  token : Nat
  outcome : Outcome
deriving DecidableEq, Repr

/-- A line received from the VM. -/
inductive Incoming where
  | reply (reply : Reply)
  | event (event : Event)
  | malformed (line : String)
deriving DecidableEq, Repr

/-! ### Reading -/

/-- What follows a complete word: nothing at the end of the text, the rest after
    one space, or no answer when the word goes on. -/
def afterWord? : List Char → Option (List Char)
  | [] => some []
  | ' ' :: rest => some rest
  | _ => none

/-- The optional minus sign and digits at the front, and what follows them. -/
def spanSigned (cs : List Char) : List Char × List Char :=
  match cs with
  | '-' :: rest => ('-' :: rest.takeWhile Char.isDigit, rest.dropWhile Char.isDigit)
  | _ => (cs.takeWhile Char.isDigit, cs.dropWhile Char.isDigit)

/-- The code and message after the word `error`. -/
def readFailure? (cs : List Char) : Option Outcome := do
  let (sign, rest) := spanSigned cs
  let code ← readInt64? sign
  let message ← afterWord? rest
  return .error code (String.ofList message)

/-- What the text after the token says. -/
def readOutcome (body : List Char) : Outcome :=
  let said := match body with
    | 'o' :: 'k' :: rest => (afterWord? rest).map (fun p => Outcome.ok (String.ofList p))
    | 'e' :: 'r' :: 'r' :: 'o' :: 'r' :: ' ' :: rest => readFailure? rest
    | _ => none
  said.getD (.unreadable (String.ofList body))

/-- A line that begins with a hash sign and a token; its rest is on one line. -/
def readReply? (line : List Char) : Option Reply := do
  let '#' :: rest := line | none
  let token ← readDigits? (rest.takeWhile Char.isDigit)
  let body ← afterWord? (rest.dropWhile Char.isDigit)
  if token < UInt64.size && !body.contains '\n' then
    some ⟨token, readOutcome body⟩
  else none

/-- Work out what a line is. -/
def Incoming.ofLine (line : String) : Incoming :=
  if Event.isEventLine line then
    match Event.ofLine? line with
    | some e => .event e
    | none => .malformed line
  else
    match readReply? line.toList with
    | some r => .reply r
    | none => .malformed line

/-! ### Writing -/

/-- What follows the token in the line of a reply. -/
def Outcome.text : Outcome → String
  | .ok payload => "ok " ++ payload
  | .error code message => "error " ++ toString code ++ " " ++ message
  | .unreadable body => body

/-- The line by which the VM sends the message. -/
def Incoming.line : Incoming → String
  | .reply r => "#" ++ toString r.token ++ " " ++ r.outcome.text
  | .event e => e.line
  | .malformed line => line

end Pushdown
