/-
  Pushdown/Model/Query.lean
  =========================
  **Walking the model.**  Each operation on a target, thread, frame, variable or
  value as a script.  Two rules run through all of them:

  * what can only be asked of a suspended thread is asked after a look at the
    run states, and a failure of that look sends nothing;
  * what is fetched for a node is checked against the epoch of the node once
    more when the reply has come, since the thread may have run meanwhile.
-/
import Pushdown.Model.Node
import Pushdown.Script
import Pushdown.Reply

namespace Pushdown

open Text Script

/-! ### Arguments -/

/-- A name is one word, or it could not be told from the arguments after it. -/
def requireWord (role : NameRole) (name : String) : Script Unit :=
  if name.isEmpty || name.toList.any isBlank then
    fail (.invalidArgument (.notOneWord role name))
  else pure ()

/-- Send a command that answers with a bare acknowledgement. -/
def acknowledged (c : Command) : Script Unit := do
  (← request c).toAck

/-! ### Frames, variables and values -/

namespace FrameRef

/-- The thread must still be in the suspension that the node is from. -/
def check (r : FrameRef) : Script Unit := do
  let _ ← require r.thread (some r.epoch)

end FrameRef

/-- Names and values in turn, in pairs. -/
def pairs : List String → List (String × String)
  | name :: value :: rest => (name, value) :: pairs rest
  | _ => []

namespace FrameRef

/-- The variables under a path, or those of the frame itself. -/
def children (r : FrameRef) (path : Option String) : Script (List Variable) := do
  r.check
  let fields ← (← request (.children r.thread r.frame path)).toStrings
  r.check
  return (pairs fields).map (fun p => ⟨r, p.1, p.2⟩)

/-- A variable with its present content. -/
def fetch (r : FrameRef) (path : String) : Script Variable := do
  r.check
  let content ← (← request (.var r.thread r.frame path)).toText
  r.check
  return ⟨r, path, content⟩

end FrameRef

namespace StackFrame

def allVariables (f : StackFrame) : Script (List Variable) := f.ref.children none

def variableNamed (f : StackFrame) (name : String) : Script Variable := do
  requireWord .variableName name
  f.ref.fetch name

end StackFrame

/-- Change the variable, and return it as the VM now reports it. -/
def Variable.setValue (v : Variable) (content : String) : Script Variable := do
  v.ref.check
  acknowledged (.setVar v.ref.thread v.ref.frame v.path content)
  v.ref.fetch v.path

namespace Value

/-- The children of the owning variable; a detached value has none. -/
def children (v : Value) : Script (List Variable) :=
  match v.owner with
  | some (r, path) => r.children (some path)
  | none => pure []

def hasChildren (v : Value) : Script Bool := do
  return !(← v.children).isEmpty

end Value

/-! ### Threads -/

namespace Thread

/-- The frames of a stack reply, which lists the outermost first, from the top. -/
def framesFrom (t : ThreadId) (epoch : Nat) (stack : List FrameData) : List StackFrame :=
  (stack.mapIdx (fun i data => StackFrame.mk ⟨t, i, epoch⟩ data)).reverse

/-- The stack, top frame first. -/
def stackFrames (t : ThreadId) : Script (List StackFrame) := do
  let epoch ← require t none
  let stack ← (← request (.stack t)).toFrames
  let _ ← require t (some epoch)
  return framesFrom t epoch stack

def topFrame (t : ThreadId) : Script (Option StackFrame) := do
  return (← stackFrames t).head?

def stackDepth (t : ThreadId) : Script Int64 := do
  let _ ← require t none
  (← request (.stackDepth t)).toInteger

/-- The contents of the operand stack. -/
def dataStack (t : ThreadId) : Script (List String) := do
  let _ ← require t none
  (← request (.data t)).toStrings

/-- The value of an expression; it belongs to no variable. -/
def evaluate (t : ThreadId) (expression : String) : Script Value := do
  let _ ← require t none
  return Value.detached (← (← request (.eval t expression)).toText)

def resume (t : ThreadId) : Script Unit := acknowledged (.resume (some t))

def suspend (t : ThreadId) : Script Unit := acknowledged (.suspend (some t))

/-- Send a command that lets a suspended thread run a little. -/
def advance (t : ThreadId) (c : Command) : Script Unit := do
  let _ ← require t none
  acknowledged c

def stepOver (t : ThreadId) : Script Unit := advance t (.step t)

def stepReturn (t : ThreadId) : Script Unit := advance t (.stepReturn t)

def dropToFrame (t : ThreadId) : Script Unit := advance t (.drop t)

end Thread

/-! ### The target as a whole -/

namespace Target

/-- The threads now alive in the VM. -/
def threads : Script (List ThreadId) := do
  (← request .threads).toThreads

/-- The VM's own words for its state. -/
def vmState : Script String := do
  (← request (.state none)).toText

def resumeAll : Script Unit := acknowledged (.resume none)

def suspendAll : Script Unit := acknowledged (.suspend none)

/-- Stop at a line, the thread alone or the whole VM. -/
def setBreakpoint (line : UInt64) (stopVm : Bool) : Script Unit :=
  acknowledged (.setBreakpoint line stopVm)

def clearBreakpoint (line : UInt64) : Script Unit := acknowledged (.clearBreakpoint line)

/-- Watch a variable for reads, writes or both; neither ends the watch. -/
def watch (name : String) (read write : Bool) : Script Unit := do
  requireWord .watchName name
  acknowledged (.watch name read write)

/-- Stop when the VM raises the named event, or no longer. -/
def eventStop (event : String) (enabled : Bool) : Script Unit := do
  requireWord .eventName event
  acknowledged (.eventStop event enabled)

/-- Ask the VM to exit, then close the session whatever came of it.  The VM may be
    gone before it replies, so a closed connection counts as success. -/
def terminate : Script Unit :=
  .send .wait .exit fun outcome =>
    .close <| .done <| match outcome >>= Payload.toAck with
      | .error .connectionClosed => .ok ()
      | result => result

end Target

end Pushdown
