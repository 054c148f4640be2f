/-
  Pushdown/Wire/Framing.lean
  ==========================
  **Lines out of a byte stream.**  The VM's bytes come in pieces of any size.  A
  `LineBuffer` keeps what no line feed has ended yet; `LineBuffer.receive` adds a
  piece and hands on the messages it completes.  A line is decoded as UTF-8 with
  ill-formed parts replaced, carriage returns at its end are dropped, and a line
  that is then empty is no message.

  At the end of the stream a rest of white space is of no account, and any other
  rest means that the stream broke off in the middle of a message.

  Whoever wants one message at a time asks for the `next` and, once the stream has
  ended, for the `last` ones; asked until there is none, both come to an end since
  every message takes bytes off the buffer.
-/
import Pushdown.Error
import Pushdown.Text.Utf8
import Pushdown.Wire.Incoming

namespace Pushdown

open Text

/-- The bytes after the last line feed. -/
structure LineBuffer where
  rest : List UInt8
deriving DecidableEq, Repr

/-- The line feed as a byte. -/
def lineFeed : UInt8 := 10

/-- The carriage return as a byte. -/
def carriageReturn : UInt8 := 13

/-- Cut the bytes at line feeds: the complete lines, and the rest after the last. -/
def splitLines (bytes : List UInt8) : List (List UInt8) × List UInt8 :=
  let parts := bytes.splitOnP (· == lineFeed)
  (parts.dropLast, parts.getLast?.getD [])

/-- The bytes before the first line feed and those after it, if there is one. -/
def firstLine? : List UInt8 → Option (List UInt8 × List UInt8)
  | [] => none
  | b :: rest =>
    if b = lineFeed then some ([], rest)
    else (firstLine? rest).map (fun p => (b :: p.1, p.2))

theorem eq_of_firstLine? {bytes line rest : List UInt8}
    (cut : firstLine? bytes = some (line, rest)) : bytes = line ++ lineFeed :: rest := by
  induction bytes generalizing line with
  | nil => cases cut
  | cons b bytes ih =>
    unfold firstLine? at cut
    split at cut
    · next hb =>
      cases cut
      rw [hb, List.nil_append]
    · obtain ⟨⟨line', rest'⟩, hcut, hp⟩ := Option.map_eq_some_iff.mp cut
      cases hp
      rw [ih hcut, List.cons_append]

theorem length_lt_of_firstLine? {bytes line rest : List UInt8}
    (cut : firstLine? bytes = some (line, rest)) : rest.length < bytes.length := by
  rw [eq_of_firstLine? cut, List.length_append, List.length_cons]
  omega

/-- The text of a line without the carriage returns at its end. -/
def lineText (line : List UInt8) : String :=
  String.ofList (dropEndWhile (· == '\r') (Utf8.decodeLossy line))

/-- The message on a line, if the line is not empty. -/
def message? (line : List UInt8) : Option Incoming :=
  let text := lineText line
  if text.isEmpty then none else some (Incoming.ofLine text)

namespace LineBuffer

def empty : LineBuffer := ⟨[]⟩

/-- Take in more bytes: the messages now complete, and the buffer with the rest. -/
def receive (buffer : LineBuffer) (bytes : List UInt8) : List Incoming × LineBuffer :=
  let (lines, rest) := splitLines (buffer.rest ++ bytes)
  (lines.filterMap message?, ⟨rest⟩)

/-- Space, tab, line feed, form feed and carriage return. -/
def isPadding (b : UInt8) : Bool :=
  b == 0x20 || b == 0x09 || b == 0x0A || b == 0x0C || b == 0x0D

/-- The stream has ended: what is left must be padding. -/
def finish (buffer : LineBuffer) : Except Error Unit :=
  if buffer.rest.all isPadding then .ok () else .error .connectionClosed

/-! ### One message at a time -/

/-- More bytes, and nothing taken out. -/
def append (buffer : LineBuffer) (bytes : List UInt8) : LineBuffer := ⟨buffer.rest ++ bytes⟩

/-- Take out the next message, and the empty lines before it. -/
def next (buffer : LineBuffer) : Option Incoming × LineBuffer :=
  match _cut : firstLine? buffer.rest with
  | none => (none, buffer)
  | some (line, rest) =>
    match message? line with
    | some item => (some item, ⟨rest⟩)
    | none => next ⟨rest⟩
termination_by buffer.rest.length
decreasing_by exact length_lt_of_firstLine? _cut

theorem length_next_lt {buffer left : LineBuffer} {item : Incoming}
    (taken : buffer.next = (some item, left)) : left.rest.length < buffer.rest.length := by
  fun_induction next buffer with
  | case1 => cases taken
  | case2 buffer line rest cut item' =>
    cases taken
    exact length_lt_of_firstLine? cut
  | case3 buffer line rest cut _ ih => exact Nat.lt_trans (ih taken) (length_lt_of_firstLine? cut)

/-- Take out messages until there is none. -/
def takeAll (buffer : LineBuffer) : List Incoming × LineBuffer :=
  match _taken : buffer.next with
  | (none, left) => ([], left)
  | (some item, left) =>
    let (items, left) := left.takeAll
    (item :: items, left)
termination_by buffer.rest.length
decreasing_by exact length_next_lt _taken

/-- Take in the pieces of a stream, and take out after each piece all that is complete. -/
def takeChunks (buffer : LineBuffer) : List (List UInt8) → List Incoming × LineBuffer
  | [] => ([], buffer)
  | chunk :: chunks =>
    let (items, buffer) := (buffer.append chunk).takeAll
    let (later, buffer) := buffer.takeChunks chunks
    (items ++ later, buffer)

/-- The stream has ended: take out the next message.  When there is none the rest of the
    stream is looked at and thrown away. -/
def last (buffer : LineBuffer) : Except Error (Option Incoming) × LineBuffer :=
  match buffer.next with
  | (some item, left) => (.ok (some item), left)
  | (none, left) => (left.finish.map (fun _ => none), empty)

theorem length_last_lt {buffer left : LineBuffer} {item : Incoming}
    (taken : buffer.last = (.ok (some item), left)) : left.rest.length < buffer.rest.length := by
  unfold last at taken
  split at taken
  · next item' left' hnext =>
    cases taken
    exact length_next_lt hnext
  · next left' _ =>
    -- there is no message, whether the rest is padding or not
    cases hfinish : left'.finish <;> simp [hfinish, Except.map] at taken

/-- The stream has ended: take out messages until there is none, or the stream turns out
    to have broken off. -/
def takeLast (buffer : LineBuffer) : List Incoming × Except Error Unit × LineBuffer :=
  match _taken : buffer.last with
  | (.ok (some item), left) =>
    let (items, outcome, left) := left.takeLast
    (item :: items, outcome, left)
  | (.ok none, left) => ([], .ok (), left)
  | (.error e, left) => ([], .error e, left)
termination_by buffer.rest.length
decreasing_by exact length_last_lt _taken

end LineBuffer

end Pushdown
