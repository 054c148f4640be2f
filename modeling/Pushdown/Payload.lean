/-
  Pushdown/Payload.lean
  =====================
  **What a successful reply carries.**  Every opcode promises one shape of
  payload; `Payload` is the sum of the shapes, `FrameData` one entry of a stack
  reply.  `describe` shows a payload in the messages about a reply that had
  another shape than its caller needs.
-/
import Pushdown.Command
import Pushdown.Text.Quoted

namespace Pushdown

/-- A stack frame as the VM reports it. -/
structure FrameData where
  file : String
  line : UInt64
  function : String
  variableNames : List String
deriving DecidableEq, Repr

/-- The content of a successful reply. -/
inductive Payload where
  | ack
  | threads (ids : List ThreadId)
  | frames (frames : List FrameData)
  | text (text : String)
  | integer (value : Int64)
  | strings (fields : List String)
deriving DecidableEq, Repr

/-- The frame with the names of its fields, texts quoted. -/
def FrameData.describe (f : FrameData) : String :=
  "FrameData \x7b file: " ++ Text.quoted f.file ++ ", line: " ++ toString f.line
    ++ ", function: " ++ Text.quoted f.function
    ++ ", variables: " ++ Text.quotedList f.variableNames ++ " \x7d"

/-- The payload with the name of its shape, texts quoted. -/
def Payload.describe : Payload → String
  | .ack => "Ack"
  | .threads ids => "Threads(" ++ Text.bracketed (ids.map toString) ++ ")"
  | .frames fs => "Frames(" ++ Text.bracketed (fs.map FrameData.describe) ++ ")"
  | .text t => "Text(" ++ Text.quoted t ++ ")"
  | .integer n => "Integer(" ++ toString n ++ ")"
  | .strings fields => "Strings(" ++ Text.quotedList fields ++ ")"

end Pushdown
