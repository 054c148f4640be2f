/-
  Pushdown/Console/Dialogue.lean
  ==============================
  **Both ends of a debugging session.**  A dialogue is a console together with what
  a VM and a reader of the console's output see of it: the command lines that have
  arrived and not been looked at, and the lines that have been printed.

  A VM may be somebody's hand, which reads lines and writes replies, or a program
  with a fixed stock of replies: it answers one command line with each and hangs up
  at the first for which none is left.
-/
import Pushdown.Console.Loop
import Pushdown.Forward
import Pushdown.Text.Lines
import Pushdown.Wire.Request

namespace Pushdown.Console

/-- The line by which a VM answers the command of the written token. -/
def answerLine (token body : String) : List UInt8 :=
  Text.Utf8.encode ("#" ++ token ++ " " ++ body ++ "\n").toList

structure Dialogue where
  console : Loop
  /-- Command lines that the VM has not looked at. -/
  commands : List String
  /-- The bytes of a command line that is not complete. -/
  restOfLine : List UInt8
  /-- The token of the last command line the VM has looked at. -/
  token : String
  printed : List String
  /-- The replies a program still has; nothing if the VM is somebody's hand. -/
  stock : Option (List String)

namespace Dialogue

/-- A dialogue that has not begun, after what the VM itself has printed was forwarded. -/
def new (console : Loop) (stock : Option (List String)) (vmOutput : List UInt8) : Dialogue :=
  ⟨console, [], [], "", (Forwarder.new.write vmOutput).1.flatMap Text.lines, stock⟩

/-- Go on with a console that has printed and sent something. -/
def follow (d : Dialogue) (r : LoopReport × Loop) : Dialogue :=
  let (lines, restOfLine) := splitLines (d.restOfLine ++ r.1.sent)
  { d with
    console := r.2
    commands := d.commands ++ lines.map (fun l => String.ofList (Text.Utf8.decodeLossy l))
    restOfLine
    printed := d.printed ++ r.1.printed.flatMap Text.lines }

/-- The VM or the clock acts. -/
def hear (d : Dialogue) (a : Session.Action Output) : Dialogue := d.follow (d.console.hear a)

/-! ### A VM with a stock of replies -/

/-- Answer one command line with each reply; hang up when one is left over. -/
def answerFrom : List String → Dialogue → Dialogue
  | [], d =>
    let d := { d with stock := some [] }
    if d.commands.isEmpty then d else d.hear .vmEnd
  | body :: rest, d =>
    match d.commands with
    | [] => { d with stock := some (body :: rest) }
    | line :: lines =>
      let d := { d with commands := lines }
      answerFrom rest (d.hear (.vm (answerLine (writtenToken line) body)))

/-- Let a program answer what it can. -/
def answered (d : Dialogue) : Dialogue :=
  match d.stock with
  | some bodies => answerFrom bodies d
  | none => d

/-! ### What happens -/

/-- The user types. -/
def type (d : Dialogue) (bytes : List UInt8) : Dialogue :=
  (d.follow (d.console.type bytes)).answered

/-- The user's input ends. -/
def endInput (d : Dialogue) : Dialogue := (d.follow d.console.endInput).answered

/-- Time passes. -/
def wait (d : Dialogue) (ms : Nat) : Dialogue := (d.hear (.advance ms)).answered

/-- The VM looks at the next lines. -/
def read (d : Dialogue) (n : Nat) : List String × Dialogue :=
  let lines := d.commands.take n
  (lines, { d with
    commands := d.commands.drop n
    token := (lines.getLast?.map writtenToken).getD d.token })

/-- The VM answers the last line it has looked at. -/
def reply (d : Dialogue) (body : String) : Dialogue := d.hear (.vm (answerLine d.token body))

/-- The VM hangs up. -/
def hangUp (d : Dialogue) : Dialogue := (d.hear .vmEnd).hear .dropReader

/-- Look at the next printed lines. -/
def look (d : Dialogue) (n : Nat) : List String × Dialogue :=
  (d.printed.take n, { d with printed := d.printed.drop n })

end Dialogue

end Pushdown.Console
