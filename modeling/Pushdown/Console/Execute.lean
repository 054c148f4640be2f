/-
  Pushdown/Console/Execute.lean
  =============================
  **Console commands as scripts.**  Every command is a fixed sequence of model
  operations; the first one that fails ends it.
-/
import Pushdown.Console.Command
import Pushdown.Console.Output
import Pushdown.Model.Query

namespace Pushdown.Console

open Script

/-- The named frame of a thread, or its topmost one. -/
def findFrame? (frames : List StackFrame) : Option UInt64 → Option StackFrame
  | some index => frames.find? (fun f => f.ref.frame = index.toNat)
  | none => frames.head?

/-- Fetch the stack and pick a frame of it. -/
def frameOf (t : ThreadId) (index : Option UInt64) : Script StackFrame := do
  match findFrame? (← Thread.stackFrames t) index with
  | some f => pure f
  | none => fail (.invalidArgument (.noSuchFrame t index))

/-- Run an operation that has no result of its own. -/
def toDone (s : Script Unit) : Script Output := do
  s
  return .done

namespace Command

/-- What the command does. -/
def script : Command → Script Output
  | threads => do
    let ids ← Target.threads
    let states ← Script.states
    return .threads (ids.map (fun t => (t, states.threadState? t)))
  | frames t => do return .frames (← Thread.stackFrames t)
  | vars t frame => do return .vars (← (← frameOf t frame).allVariables)
  | print t frame name => do
    return .vars [← (← frameOf t (some frame)).variableNamed name]
  | children t frame path => do
    let v ← (← frameOf t (some frame)).variableNamed path
    return .vars (← v.value.children)
  | set t frame name value => do
    let v ← (← frameOf t (some frame)).variableNamed name
    return .vars [← v.setValue value]
  | eval t expression => do return .value (← Thread.evaluate t expression)
  | data t => do return .strings (← Thread.dataStack t)
  | resume none => toDone Target.resumeAll
  | resume (some t) => toDone (Thread.resume t)
  | suspend none => toDone Target.suspendAll
  | suspend (some t) => toDone (Thread.suspend t)
  | step t => toDone (Thread.stepOver t)
  | stepReturn t => toDone (Thread.stepReturn t)
  | drop t => toDone (Thread.dropToFrame t)
  | breakAt line stopVm => toDone (Target.setBreakpoint line stopVm)
  | clear line => toDone (Target.clearBreakpoint line)
  | watch name read write => toDone (Target.watch name read write)
  | eventStop name enabled => toDone (Target.eventStop name enabled)
  | state => do
    let states ← Script.states
    return .state states.session (← Target.vmState)
  | help => pure .help
  | exit => toDone Target.terminate

end Command

end Pushdown.Console
