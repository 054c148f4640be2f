/-
  Pushdown/Reply.lean
  ===================
  **Reading the payload of a successful reply.**  The opcode of the command says
  in which form its payload is written:

  * nothing at all, for commands that only act;
  * the text itself;
  * a signed number;
  * numbers separated by blank characters, for threads;
  * fields separated by `|`; for children their number must be even;
  * frames separated by `#`, each of at least three fields separated by `|`.

  `Payload.toText` and its companions then narrow the payload to the shape that a
  caller needs.
-/
import Pushdown.Error
import Pushdown.Text.Blank

namespace Pushdown

open Text

/-! ### Reading -/

/-- The written form of a payload. -/
inductive ReplyForm where
  | nothing
  | text
  | integer
  | threads
  | fields
  | pairs
  | stack
deriving DecidableEq, Repr

/-- The form in which the reply to an opcode is written. -/
def ReplyForm.ofOpcode? : String → Option ReplyForm
  | "threads" => some .threads
  | "stack" => some .stack
  | "stackdepth" => some .integer
  | "data" => some .fields
  | "children" => some .pairs
  | "state" | "var" | "eval" => some .text
  | "setvar" | "resume" | "suspend" | "step" | "stepreturn" | "drop" | "set" | "clear"
  | "watch" | "eventstop" | "exit" => some .nothing
  | _ => none

/-- A field that must be an unsigned number. -/
def readNumber (field : List Char) : Except ReplyFault UInt64 :=
  match readUInt64? field with
  | some n => .ok n
  | none => .error (.notNumber (String.ofList field))

/-- The fields between the bars; the empty payload has none. -/
def fieldsOf (payload : List Char) : List String :=
  if payload.isEmpty then [] else (cutAt '|' payload).map String.ofList

/-- One frame: file, line, function, then the names of its variables. -/
def readFrame (segment : List Char) : Except ReplyFault FrameData :=
  match cutAt '|' segment with
  | file :: line :: function :: names => do
    return {
      file := String.ofList file
      line := ← readNumber line
      function := String.ofList function
      variableNames := names.map String.ofList }
  | _ => .error (.shortFrame (String.ofList segment))

/-- The frames between the hash signs; empty segments do not count. -/
def readFrames (payload : List Char) : Except ReplyFault (List FrameData) :=
  ((cutAt '#' payload).filter (fun s => !s.isEmpty)).mapM readFrame

/-- Read a payload that is written in the given form. -/
def ReplyForm.read (payload : String) : ReplyForm → Except ReplyFault Payload
  | .nothing =>
    if payload.toList.all isBlank then .ok .ack else .error (.unwantedPayload payload)
  | .text => .ok (.text payload)
  | .integer =>
    let number := trim payload.toList
    match readInt64? number with
    | some n => .ok (.integer n)
    | none => .error (.notNumber (String.ofList number))
  | .threads => Payload.threads <$> (words payload.toList).mapM readNumber
  | .fields => .ok (.strings (fieldsOf payload.toList))
  | .pairs =>
    let fields := fieldsOf payload.toList
    if fields.length % 2 = 0 then .ok (.strings fields)
    else .error (.unpairedFields fields.length payload)
  | .stack => Payload.frames <$> readFrames payload.toList

/-- Read the payload of a successful reply to a command with this opcode. -/
def readReply (opcode payload : String) : Except Error Payload :=
  match ReplyForm.ofOpcode? opcode with
  | some form => (form.read payload).mapError .malformedReply
  | none => .error (.malformedReply (.noParser opcode))

/-- Every command has a form for its reply. -/
theorem ofOpcode?_opcode (c : Command) : ∃ form, ReplyForm.ofOpcode? c.opcode = some form := by
  cases c <;> exact ⟨_, rfl⟩

/-! ### Narrowing -/

namespace Payload

private def refuse {α : Type} (wanted : Shape) (got : Payload) : Except Error α :=
  .error (.malformedReply (.otherShape wanted got))

def toAck : Payload → Except Error Unit
  | ack => .ok ()
  | p => refuse .ack p

def toThreads : Payload → Except Error (List ThreadId)
  | threads ids => .ok ids
  | p => refuse .threads p

def toFrames : Payload → Except Error (List FrameData)
  | frames fs => .ok fs
  | p => refuse .frames p

def toText : Payload → Except Error String
  | text t => .ok t
  | p => refuse .text p

def toInteger : Payload → Except Error Int64
  | integer n => .ok n
  | p => refuse .integer p

def toStrings : Payload → Except Error (List String)
  | strings fields => .ok fields
  | p => refuse .strings p

end Payload

end Pushdown
