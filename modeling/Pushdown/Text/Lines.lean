/-
  Pushdown/Text/Lines.lean
  ========================
  **The lines of a text.**  Whoever reads what the program prints reads it line by
  line: a line feed ends a line, and one carriage return before it belongs to the
  line's end.  A text is printed with a line feed after it, so its last line ends
  like the others, and a text without a line feed is one line.
-/
import Pushdown.Text.Blank

namespace Pushdown.Text

/-- The characters of a line without one carriage return at their end. -/
def dropReturn (line : List Char) : List Char :=
  if line.getLast? = some '\r' then line.dropLast else line

/-- The lines that are read when the text has been printed. -/
def lines (text : String) : List String :=
  (cutAt '\n' text.toList).map (fun line => String.ofList (dropReturn line))

end Pushdown.Text
