/-
  Pushdown/Model/Node.lean
  ========================
  **The nodes of a suspended program.**  A thread has stack frames, a frame has
  variables, and a variable's value may have children, which are variables again.
  Nothing is cached: a node only knows where it was found, and a `FrameRef` says
  in which suspension, so that a later query can tell whether it is stale.
-/
import Pushdown.Payload
import Pushdown.Text.Blank

namespace Pushdown

open Text

/-- A frame of a thread in one particular suspension. -/
structure FrameRef where
  thread : ThreadId
  frame : Nat
  epoch : Nat
deriving DecidableEq, Repr

/-- A stack frame.  The VM numbers frames from the outermost one. -/
structure StackFrame where
  ref : FrameRef
  data : FrameData
deriving DecidableEq, Repr

/-- A named slot of a frame, or a child of another variable. -/
structure Variable where
  ref : FrameRef
  path : String
  content : String
deriving DecidableEq, Repr

/-- The value of a variable, or of an expression, which has no owner. -/
structure Value where
  text : String
  owner : Option (FrameRef × String)
deriving DecidableEq, Repr

/-- What the text of a value looks like. -/
inductive ValueKind where
  | integer
  | text
deriving DecidableEq, Repr

/-- The last part of the path, `b` for `x.a.b`. -/
def Variable.name (v : Variable) : String :=
  String.ofList (v.path.toList.reverse.takeWhile (· != '.')).reverse

def Variable.value (v : Variable) : Value := ⟨v.content, some (v.ref, v.path)⟩

namespace Value

/-- A value that belongs to no variable. -/
def detached (text : String) : Value := ⟨text, none⟩

/-- The path of the owning variable. -/
def path? (v : Value) : Option String := v.owner.map Prod.snd

/-- An integer is a text that is read as a signed number as a whole. -/
def kind (v : Value) : ValueKind :=
  if (readInt64? v.text.toList).isSome then .integer else .text

/-- Every value has storage in the VM. -/
def isAllocated (_ : Value) : Bool := true

/-- Two values are the same when their texts are, wherever they were found. -/
def same (v w : Value) : Bool := v.text = w.text

end Value

def ValueKind.name : ValueKind → String
  | .integer => "integer"
  | .text => "text"

end Pushdown
