/-
  Pushdown/Forward.lean
  =====================
  **Forwarding a program's output line by line.**  Lines end with a line feed,
  and one carriage return before it is dropped.  A line is handed on as soon as
  its line feed has come; a line that is not UTF-8 stops the forwarding for good.
  At the end of the input a rest counts as a line unless it is empty or a single
  carriage return.
-/
import Pushdown.Wire.Framing

namespace Pushdown

open Text

/-- The bytes after the last line feed, and whether a line could not be decoded. -/
structure Forwarder where
  rest : List UInt8
  stopped : Bool
deriving DecidableEq, Repr

/-- The bytes of a line without one carriage return at their end. -/
def dropCarriageReturn (line : List UInt8) : List UInt8 :=
  if line.getLast? = some 13 then line.dropLast else line

/-- The text of a line that is UTF-8. -/
def plainLine? (line : List UInt8) : Option String :=
  (Utf8.decode? (dropCarriageReturn line)).map String.ofList

/-- The texts of the lines before the first that cannot be decoded, and whether
    there is such a line. -/
def decodeLines : List (List UInt8) → List String × Bool
  | [] => ([], false)
  | line :: rest =>
    match plainLine? line with
    | some text =>
      let (texts, broken) := decodeLines rest
      (text :: texts, broken)
    | none => ([], true)

namespace Forwarder

def new : Forwarder := ⟨[], false⟩

/-- Take in more bytes and hand on the lines they complete. -/
def write (f : Forwarder) (bytes : List UInt8) : List String × Forwarder :=
  if f.stopped then ([], f)
  else
    let (lines, rest) := splitLines (f.rest ++ bytes)
    let (texts, broken) := decodeLines lines
    (texts, ⟨rest, broken⟩)

/-- Take in the pieces of a stream one after the other. -/
def writeAll (f : Forwarder) : List (List UInt8) → List String × Forwarder
  | [] => ([], f)
  | chunk :: chunks =>
    let (texts, f) := f.write chunk
    let (later, f) := f.writeAll chunks
    (texts ++ later, f)

/-- The input has ended: hand on what is left. -/
def finish (f : Forwarder) : List String :=
  if f.stopped || f.rest.isEmpty || f.rest == [13] then []
  else (decodeLines [f.rest]).1

end Forwarder

end Pushdown
