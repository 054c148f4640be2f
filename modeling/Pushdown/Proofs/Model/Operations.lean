/-
  Pushdown/Proofs/Model/Operations.lean
  =====================================
  **All that a client can do.**  The operations on the model, one by one: the queries of a
  suspension, the other operations on threads and on the target, what is typed at the
  console, and a single command by itself.  What is said of sessions is said of calls
  that are scripts; here it is shown that these scripts are of the kind that is meant:
  after a failure none of them sends another command (`Operation.givesUp`), and unless it
  asks the VM to exit it comes to the very same failure (`Operation.stopsAtFailure`).
-/
import Pushdown.Console.Execute
import Pushdown.Proofs.Model.Query
import Pushdown.Proofs.Script.Course

namespace Pushdown

open Script

variable {β : Type}

/-- The operations, by what they are answered with. -/
inductive Operation : Type → Type 1 where
  | query {β : Type} (q : Query β) : Operation β
  | fetch (r : FrameRef) (path : String) : Operation Variable
  | children (v : Value) : Operation (List Variable)
  | hasChildren (v : Value) : Operation Bool
  | stackDepth (t : ThreadId) : Operation Int64
  | dataStack (t : ThreadId) : Operation (List String)
  | evaluate (t : ThreadId) (expression : String) : Operation Value
  | resume (t : ThreadId) : Operation Unit
  | suspend (t : ThreadId) : Operation Unit
  | stepOver (t : ThreadId) : Operation Unit
  | stepReturn (t : ThreadId) : Operation Unit
  | dropToFrame (t : ThreadId) : Operation Unit
  | threads : Operation (List ThreadId)
  | vmState : Operation String
  | resumeAll : Operation Unit
  | suspendAll : Operation Unit
  | setBreakpoint (line : UInt64) (stopVm : Bool) : Operation Unit
  | clearBreakpoint (line : UInt64) : Operation Unit
  | watch (name : String) (read write : Bool) : Operation Unit
  | eventStop (event : String) (enabled : Bool) : Operation Unit
  | terminate : Operation Unit
  | command (turn : Turn) (c : Command) : Operation Payload
  | console (c : Console.Command) : Operation Console.Output

def Operation.script : Operation β → Script β
  | query q => q.script
  | fetch r path => r.fetch path
  | children v => v.children
  | hasChildren v => v.hasChildren
  | stackDepth t => Thread.stackDepth t
  | dataStack t => Thread.dataStack t
  | evaluate t expression => Thread.evaluate t expression
  | resume t => Thread.resume t
  | suspend t => Thread.suspend t
  | stepOver t => Thread.stepOver t
  | stepReturn t => Thread.stepReturn t
  | dropToFrame t => Thread.dropToFrame t
  | threads => Target.threads
  | vmState => Target.vmState
  | resumeAll => Target.resumeAll
  | suspendAll => Target.suspendAll
  | setBreakpoint line stopVm => Target.setBreakpoint line stopVm
  | clearBreakpoint line => Target.clearBreakpoint line
  | watch name read write => Target.watch name read write
  | eventStop event enabled => Target.eventStop event enabled
  | terminate => Target.terminate
  | command turn c => .send turn c .done
  | console c => c.script

/-! ### Steady scripts -/

theorem isSteady_acknowledged (c : Command) : (acknowledged c).IsSteady :=
  (isSteady_request c).bind fun _ => isSteady_lift _

theorem isSteady_requireWord (role : NameRole) (name : String) :
    (requireWord role name).IsSteady := by
  unfold requireWord
  split
  · exact isSteady_lift _
  · exact isSteady_pure _

namespace FrameRef

theorem isSteady_check (r : FrameRef) : r.check.IsSteady :=
  (isSteady_require _ _).bind fun _ => isSteady_pure _

theorem isSteady_children (r : FrameRef) (path : Option String) :
    (r.children path).IsSteady := by
  refine r.isSteady_check.bind fun _ => ?_
  refine (isSteady_request _).bind fun _ => ?_
  refine (isSteady_lift _).bind fun _ => ?_
  exact r.isSteady_check.bind fun _ => isSteady_pure _

theorem isSteady_fetch (r : FrameRef) (path : String) : (r.fetch path).IsSteady := by
  refine r.isSteady_check.bind fun _ => ?_
  refine (isSteady_request _).bind fun _ => ?_
  refine (isSteady_lift _).bind fun _ => ?_
  exact r.isSteady_check.bind fun _ => isSteady_pure _

end FrameRef

theorem StackFrame.isSteady_variableNamed (f : StackFrame) (name : String) :
    (f.variableNamed name).IsSteady :=
  (isSteady_requireWord _ _).bind fun _ => f.ref.isSteady_fetch name

theorem Variable.isSteady_setValue (v : Variable) (content : String) :
    (v.setValue content).IsSteady := by
  refine v.ref.isSteady_check.bind fun _ => ?_
  exact (isSteady_acknowledged _).bind fun _ => v.ref.isSteady_fetch _

theorem Value.isSteady_children (v : Value) : v.children.IsSteady := by
  unfold Value.children
  split
  · exact FrameRef.isSteady_children _ _
  · exact isSteady_pure _

theorem Value.isSteady_hasChildren (v : Value) : v.hasChildren.IsSteady :=
  v.isSteady_children.bind fun _ => isSteady_pure _

namespace Thread

theorem isSteady_stackFrames (t : ThreadId) : (stackFrames t).IsSteady := by
  refine (isSteady_require _ _).bind fun _ => ?_
  refine (isSteady_request _).bind fun _ => ?_
  refine (isSteady_lift _).bind fun _ => ?_
  exact (isSteady_require _ _).bind fun _ => isSteady_pure _

theorem isSteady_dataStack (t : ThreadId) : (dataStack t).IsSteady :=
  (isSteady_require _ _).bind fun _ => (isSteady_request _).bind fun _ => isSteady_lift _

theorem isSteady_evaluate (t : ThreadId) (expression : String) :
    (evaluate t expression).IsSteady := by
  refine (isSteady_require _ _).bind fun _ => ?_
  refine (isSteady_request _).bind fun _ => ?_
  exact (isSteady_lift _).bind fun _ => isSteady_pure _

theorem isSteady_advance (t : ThreadId) (c : Command) : (advance t c).IsSteady :=
  (isSteady_require _ _).bind fun _ => isSteady_acknowledged _

end Thread

/-- The console reads of a query what it shows. -/
theorem Console.isSteady_frameOf (t : ThreadId) (index : Option UInt64) :
    (frameOf t index).IsSteady := by
  refine (Thread.isSteady_stackFrames t).bind fun frames => ?_
  cases findFrame? frames index with
  | some f => exact isSteady_pure f
  | none => exact isSteady_lift _

theorem Query.isSteady (q : Query β) : q.script.IsSteady := by
  cases q with
  | stackFrames t => exact Thread.isSteady_stackFrames t
  | topFrame t => exact (Thread.isSteady_stackFrames t).bind fun _ => isSteady_pure _
  | allVariables f => exact f.ref.isSteady_children none
  | variableNamed f name => exact f.isSteady_variableNamed name
  | children v => exact v.isSteady_children
  | hasChildren v => exact v.isSteady_hasChildren
  | setValue v content => exact v.isSteady_setValue content

theorem Console.isSteady_toDone {s : Script Unit} (stops : s.IsSteady) :
    (toDone s).IsSteady :=
  stops.map fun _ => Output.done

/-- Leaving the VM is the one thing that makes a success of a failure. -/
theorem Console.Command.isSteady (c : Console.Command) (stays : c ≠ .exit) :
    c.script.IsSteady := by
  have hframe := Console.isSteady_frameOf
  cases c with
  | threads =>
    refine IsSteady.bind ?_ fun _ => ?_
    · exact (isSteady_request _).bind fun _ => isSteady_lift _
    · exact isSteady_states.bind fun _ => isSteady_pure _
  | frames t => exact (Thread.isSteady_stackFrames t).bind fun _ => isSteady_pure _
  | vars t frame =>
    refine (hframe t frame).bind fun f => ?_
    exact (f.ref.isSteady_children none).bind fun _ => isSteady_pure _
  | print t frame name =>
    refine (hframe t frame).bind fun f => ?_
    exact (f.isSteady_variableNamed name).bind fun _ => isSteady_pure _
  | children t frame path =>
    refine (hframe t frame).bind fun f => ?_
    refine (f.isSteady_variableNamed path).bind fun v => ?_
    exact v.value.isSteady_children.bind fun _ => isSteady_pure _
  | set t frame name value =>
    refine (hframe t frame).bind fun f => ?_
    refine (f.isSteady_variableNamed name).bind fun v => ?_
    exact (v.isSteady_setValue value).bind fun _ => isSteady_pure _
  | eval t expression =>
    exact (Thread.isSteady_evaluate t expression).bind fun _ => isSteady_pure _
  | data t => exact (Thread.isSteady_dataStack t).bind fun _ => isSteady_pure _
  | resume thread | suspend thread =>
    cases thread <;> exact Console.isSteady_toDone (isSteady_acknowledged _)
  | step | stepReturn | drop =>
    exact Console.isSteady_toDone (Thread.isSteady_advance _ _)
  | breakAt | clear => exact Console.isSteady_toDone (isSteady_acknowledged _)
  | watch | eventStop =>
    refine Console.isSteady_toDone ?_
    exact (isSteady_requireWord _ _).bind fun _ => isSteady_acknowledged _
  | state =>
    refine isSteady_states.bind fun _ => IsSteady.bind ?_ fun _ => isSteady_pure _
    exact (isSteady_request _).bind fun _ => isSteady_lift _
  | help => exact isSteady_pure _
  | exit => exact (stays rfl).elim

/-- The operation asks the VM to exit. -/
def Operation.IsExit : Operation β → Prop
  | terminate | console .exit => True
  | _ => False

/-- **The first failure of an operation is its last command and its result**, unless the
    operation asks the VM to exit. -/
theorem Operation.stopsAtFailure (op : Operation β) (stays : ¬op.IsExit) :
    op.script.StopsAtFailure := by
  cases op with
  | query q => exact q.isSteady.stopsAtFailure
  | fetch r path => exact (r.isSteady_fetch path).stopsAtFailure
  | children v => exact v.isSteady_children.stopsAtFailure
  | hasChildren v => exact v.isSteady_hasChildren.stopsAtFailure
  | stackDepth t =>
    refine IsSteady.stopsAtFailure ((isSteady_require _ _).bind fun _ => ?_)
    exact (isSteady_request _).bind fun _ => isSteady_lift _
  | dataStack t => exact (Thread.isSteady_dataStack t).stopsAtFailure
  | evaluate t expression => exact (Thread.isSteady_evaluate t expression).stopsAtFailure
  | stepOver | stepReturn | dropToFrame => exact (Thread.isSteady_advance _ _).stopsAtFailure
  | threads | vmState =>
    exact ((isSteady_request _).bind fun _ => isSteady_lift _).stopsAtFailure
  | resume | suspend | resumeAll | suspendAll | setBreakpoint | clearBreakpoint =>
    exact (isSteady_acknowledged _).stopsAtFailure
  | watch | eventStop =>
    refine IsSteady.stopsAtFailure ((isSteady_requireWord _ _).bind fun _ => ?_)
    exact isSteady_acknowledged _
  | terminate => exact (stays trivial).elim
  | command turn c => exact stopsAtFailure_send (fun _ => rfl) fun _ => stopsAtFailure_done _
  | console c =>
    refine (c.isSteady ?_).stopsAtFailure
    rintro rfl
    exact stays trivial

/-! ### Asking the VM to exit -/

namespace Target

theorem comes_terminate {es : Exchanges} {r : Except Error Unit} :
    Script.Comes terminate es r ↔ ∃ outcome, es = [(.exit, outcome)] ∧
      r = match outcome >>= Payload.toAck with
        | .error .connectionClosed => .ok ()
        | result => result := by
  constructor
  · rintro ⟨outcome, rest, rfl, rfl, rfl⟩
    exact ⟨outcome, rfl, rfl⟩
  · rintro ⟨outcome, rfl, rfl⟩
    exact ⟨outcome, [], rfl, rfl, rfl⟩

theorem isPatient_terminate {α : Type} (f : Unit → α) : Script.IsPatient (f <$> terminate) := by
  have hpatient : Script.IsPatient terminate := ⟨rfl, fun _ => trivial⟩
  exact hpatient.map f

/-- Whoever asks the VM to exit has nothing more to say. -/
theorem givesUp_terminate : terminate.GivesUp := by
  constructor
  · intro e
    trivial
  · intro payload
    trivial

end Target

/-! ### Giving up -/

/-- **After a failure no operation sends another command.** -/
theorem Operation.givesUp (op : Operation β) : op.script.GivesUp := by
  by_cases exits : op.IsExit
  · match op with
    | terminate => exact Target.givesUp_terminate
    | console .exit => exact Target.givesUp_terminate.map fun _ => Console.Output.done
  · exact (op.stopsAtFailure exits).givesUp

end Pushdown
