/-
  Pushdown/Text/Quoted.lean
  =========================
  **Quoted text.**  Messages that name a text show it between double quotes, so
  that line breaks and invisible characters can be seen.  The quote and the
  backslash are escaped, as are line feed, carriage return, tab and NUL by a
  letter; every other character that is not printable is written by its number
  in lower-case hexadecimal, as in `\u{200b}`.
-/
import Pushdown.Text.Printable

namespace Pushdown.Text

/-- The written form of one character between the quotes. -/
def quotedChar (c : Char) : List Char :=
  match c with
  | '"' => ['\\', '"']
  | '\\' => ['\\', '\\']
  | '\n' => ['\\', 'n']
  | '\r' => ['\\', 'r']
  | '\t' => ['\\', 't']
  | '\x00' => ['\\', '0']
  | _ =>
    if isPrintable c then [c]
    else ['\\', 'u', '\x7b'] ++ Nat.toDigits 16 c.toNat ++ ['\x7d']

/-- The text between double quotes. -/
def quoted (s : String) : String :=
  String.ofList ('"' :: s.toList.flatMap quotedChar ++ ['"'])

/-- The items in square brackets, a comma and a space between each two. -/
def bracketed (items : List String) : String :=
  "[" ++ ", ".intercalate items ++ "]"

/-- A list of texts, each quoted. -/
def quotedList (texts : List String) : String :=
  bracketed (texts.map quoted)

end Pushdown.Text
