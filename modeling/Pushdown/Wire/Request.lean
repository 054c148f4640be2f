/-
  Pushdown/Wire/Request.lean
  ==========================
  **Command lines.**  A command goes to the VM as one line,

      #<token> <opcode> <arguments>

  so no argument may hold a line break; such a command is refused and writes
  nothing.
-/
import Pushdown.Error

namespace Pushdown

open Text

/-- A command and the token that its reply will repeat. -/
structure Request where
  token : Nat
  command : Command
deriving DecidableEq, Repr

/-- Whether the text would end the line it is written on. -/
def hasLineBreak (s : String) : Bool :=
  s.toList.contains '\n' || s.toList.contains '\r'

namespace Request

/-- The line of the request, its line feed included. -/
def line (r : Request) : String :=
  "#" ++ toString r.token ++ " " ++ r.command.text ++ "\n"

/-- The line, unless an argument would break it. -/
def encode (r : Request) : Except Error String :=
  match r.command.args.find? hasLineBreak with
  | some arg => .error (.invalidArgument (.lineBreak r.command.opcode arg))
  | none => .ok r.line

end Request

/-- The token on a command line, as it is written there. -/
def writtenToken (line : String) : String :=
  String.ofList ((line.toList.drop 1).takeWhile (· != ' '))

end Pushdown
