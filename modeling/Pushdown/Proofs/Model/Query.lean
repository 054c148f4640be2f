/-
  Pushdown/Proofs/Model/Query.lean
  ================================
  **What the model's queries make sure of.**  A query looks before it asks and looks again
  when it has been answered.  Both looks must find the thread suspended, and in the same
  epoch; for a query of a node it is the node's epoch.  So a query that is answered has
  seen one suspension only, and its answer is stamped with it (`Query.ensures`), and one
  that is stale when it starts is refused at once (`Query.answer?_of_stale`).
-/
import Pushdown.Model.Query
import Pushdown.Proofs.RunStates.Epochs
import Pushdown.Proofs.Script.Ensures

namespace Pushdown

open Script

variable {β : Type} {P : RunStates → Command → Prop} {s : RunStates}

/-- The queries that belong to a suspension, by what they are answered with. -/
inductive Query : Type → Type where
  | stackFrames (t : ThreadId) : Query (List StackFrame)
  | topFrame (t : ThreadId) : Query (Option StackFrame)
  | allVariables (f : StackFrame) : Query (List Variable)
  | variableNamed (f : StackFrame) (name : String) : Query Variable
  | children (v : Value) (r : FrameRef) (path : String) (owned : v.owner = some (r, path)) :
      Query (List Variable)
  | hasChildren (v : Value) (r : FrameRef) (path : String) (owned : v.owner = some (r, path)) :
      Query Bool
  | setValue (v : Variable) (content : String) : Query Variable

/-- The frames of a stack, top frame first, in the suspension with this epoch. -/
def AreFramesOf (t : ThreadId) (e : Nat) (frames : List StackFrame) : Prop :=
  ∀ i (h : i < frames.length), frames[i].ref = ⟨t, frames.length - 1 - i, e⟩

namespace Query

def script : Query β → Script β
  | stackFrames t => Thread.stackFrames t
  | topFrame t => Thread.topFrame t
  | allVariables f => f.allVariables
  | variableNamed f name => f.variableNamed name
  | children v _ _ _ => v.children
  | hasChildren v _ _ _ => v.hasChildren
  | setValue v content => v.setValue content

/-- Where the node that is asked was found, if it is a node. -/
def ref? : Query β → Option FrameRef
  | stackFrames _ | topFrame _ => none
  | allVariables f | variableNamed f _ => some f.ref
  | children _ r _ _ | hasChildren _ r _ _ => some r
  | setValue v _ => some v.ref

def thread : Query β → ThreadId
  | stackFrames t | topFrame t => t
  | allVariables f | variableNamed f _ => f.ref.thread
  | children _ r _ _ | hasChildren _ r _ _ => r.thread
  | setValue v _ => v.ref.thread

/-- The thread is suspended in this epoch, and the node is from there. -/
def IsFreshIn (q : Query β) (s : RunStates) (e : Nat) : Prop :=
  s.IsSuspendedIn q.thread e ∧ ∀ r, q.ref? = some r → r.epoch = e

/-- All nodes of the answer are of the thread and frame asked, and from this epoch. -/
def IsStamped (e : Nat) : Query β → β → Prop
  | stackFrames t, frames => AreFramesOf t e frames
  | topFrame t, top => ∃ frames, AreFramesOf t e frames ∧ top = frames.head?
  | allVariables f, vs => ∀ v ∈ vs, v.ref = ⟨f.ref.thread, f.ref.frame, e⟩
  | variableNamed f name, v => v.ref = ⟨f.ref.thread, f.ref.frame, e⟩ ∧ v.path = name
  | children _ r _ _, vs => ∀ v ∈ vs, v.ref = ⟨r.thread, r.frame, e⟩
  | hasChildren .., _ => True
  | setValue v _, w => w.ref = ⟨v.ref.thread, v.ref.frame, e⟩ ∧ w.path = v.path

/-- What the query fails with if it is stale. -/
def IsRefusal : Query β → Error → Prop
  | variableNamed _ name, err =>
    if name.isEmpty || name.toList.any Text.isBlank then
      err = .invalidArgument (.notOneWord .variableName name)
    else ∃ fault, err = .invalidState fault
  | _, err => ∃ fault, err = .invalidState fault

/-- The answer, in run states in which the thread is still in the suspension in which
    the query found it. -/
def IsAnswer (q : Query β) (start s : RunStates) (x : β) : Prop :=
  ∃ e, q.IsFreshIn start e ∧ s.IsSuspendedIn q.thread e ∧ q.IsStamped e x

end Query

/-! ### Looking -/

namespace FrameRef

variable {r : FrameRef}

theorem ensures_check (r : FrameRef) {Q : RunStates → Unit → Prop} :
    r.check.Ensures P Q s ↔ (s.IsSuspendedIn r.thread r.epoch → Q s ()) := by
  unfold check
  rw [ensures_bind, ensures_require]
  constructor
  · intro h suspended
    exact h r.epoch suspended
  · intro h e found
    obtain rfl := RunStates.epoch_of_require found
    exact h found

theorem answer?_check (stale : ¬s.IsSuspendedIn r.thread r.epoch) :
    ∃ fault, r.check.answer? s = some (.error (.invalidState fault)) := by
  obtain ⟨fault, refused⟩ := RunStates.require_eq_error stale
  exact ⟨fault, answer?_bind _ (answer?_require refused)⟩

/-! ### Fetching -/

theorem ensures_children (r : FrameRef) (path : Option String) {Q : RunStates → List Variable → Prop}
    (asks : s.IsSuspendedIn r.thread r.epoch → P s (.children r.thread r.frame path))
    (answers : s.IsSuspendedIn r.thread r.epoch → ∀ s' vs, s'.IsSuspendedIn r.thread r.epoch →
      (∀ v ∈ vs, v.ref = r) → Q s' vs) :
    (r.children path).Ensures P Q s := by
  unfold children
  rw [ensures_bind, ensures_check]
  intro suspended
  rw [ensures_bind, ensures_request]
  refine ⟨asks suspended, ?_⟩
  intro s' payload
  rw [ensures_bind, ensures_lift]
  intro fields _
  rw [ensures_bind, ensures_check]
  intro still
  refine answers suspended s' _ still ?_
  intro v hv
  obtain ⟨p, -, rfl⟩ := List.mem_map.mp hv
  rfl

theorem ensures_fetch (r : FrameRef) (path : String) {Q : RunStates → Variable → Prop}
    (asks : s.IsSuspendedIn r.thread r.epoch → P s (.var r.thread r.frame path))
    (answers : s.IsSuspendedIn r.thread r.epoch → ∀ s' v, s'.IsSuspendedIn r.thread r.epoch →
      v.ref = r → v.path = path → Q s' v) :
    (r.fetch path).Ensures P Q s := by
  unfold fetch
  rw [ensures_bind, ensures_check]
  intro suspended
  rw [ensures_bind, ensures_request]
  refine ⟨asks suspended, ?_⟩
  intro s' payload
  rw [ensures_bind, ensures_lift]
  intro content _
  rw [ensures_bind, ensures_check]
  intro still
  exact answers suspended s' _ still rfl rfl

end FrameRef

theorem ensures_acknowledged (c : Command) {Q : RunStates → Unit → Prop} (asks : P s c)
    (goesOn : ∀ s', Q s' ()) : (acknowledged c).Ensures P Q s := by
  unfold acknowledged
  rw [ensures_bind, ensures_request]
  refine ⟨asks, ?_⟩
  intro s' payload
  rw [ensures_lift]
  intro _ _
  exact goesOn s'

theorem ensures_requireWord (role : NameRole) (name : String) {Q : RunStates → Unit → Prop}
    (goesOn : Q s ()) : (requireWord role name).Ensures P Q s := by
  unfold requireWord
  split
  · trivial
  · exact goesOn

theorem Variable.ensures_setValue (v : Variable) (content : String)
    {Q : RunStates → Variable → Prop}
    (sets : s.IsSuspendedIn v.ref.thread v.ref.epoch →
      P s (.setVar v.ref.thread v.ref.frame v.path content))
    (asks : ∀ s', s'.IsSuspendedIn v.ref.thread v.ref.epoch →
      P s' (.var v.ref.thread v.ref.frame v.path))
    (answers : s.IsSuspendedIn v.ref.thread v.ref.epoch → ∀ s' w,
      s'.IsSuspendedIn v.ref.thread v.ref.epoch → w.ref = v.ref → w.path = v.path → Q s' w) :
    (v.setValue content).Ensures P Q s := by
  unfold setValue
  rw [ensures_bind, FrameRef.ensures_check]
  intro suspended
  rw [ensures_bind]
  refine ensures_acknowledged _ (sets suspended) ?_
  intro s'
  refine FrameRef.ensures_fetch _ _ (asks s') ?_
  intro _
  exact answers suspended

/-! ### Frames -/

theorem Thread.areFramesOf_framesFrom (t : ThreadId) (e : Nat) (stack : List FrameData) :
    AreFramesOf t e (framesFrom t e stack) := by
  intro i h
  simp [framesFrom]

theorem Thread.ensures_stackFrames (t : ThreadId) {Q : RunStates → List StackFrame → Prop}
    (asks : ∀ e, s.IsSuspendedIn t e → P s (.stack t))
    (answers : ∀ e, s.IsSuspendedIn t e → ∀ s' frames, s'.IsSuspendedIn t e →
      AreFramesOf t e frames → Q s' frames) :
    (stackFrames t).Ensures P Q s := by
  unfold stackFrames
  rw [ensures_bind, ensures_require]
  intro e found
  have suspended := RunStates.isSuspendedIn_of_require found
  rw [ensures_bind, ensures_request]
  refine ⟨asks e suspended, ?_⟩
  intro s' payload
  rw [ensures_bind, ensures_lift]
  intro stack _
  rw [ensures_bind, ensures_require]
  intro e' still
  obtain rfl := RunStates.epoch_of_require still
  exact answers _ suspended s' _ still (areFramesOf_framesFrom t _ stack)

theorem Thread.answer?_stackFrames {t : ThreadId} (stale : ∀ e, ¬s.IsSuspendedIn t e) :
    ∃ fault, (stackFrames t).answer? s = some (.error (.invalidState fault)) := by
  obtain ⟨fault, refused⟩ := RunStates.require_none_eq_error stale
  exact ⟨fault, answer?_bind _ (answer?_require refused)⟩

/-! ### Queries -/

namespace Query

theorem thread_of_ref? {q : Query β} {r : FrameRef} (node : q.ref? = some r) :
    q.thread = r.thread := by
  cases q with
  | stackFrames | topFrame => cases node
  | _ => exact congrArg FrameRef.thread (Option.some.inj node)

theorem isFreshIn_of_node {q : Query β} {r : FrameRef} (node : q.ref? = some r)
    (suspended : s.IsSuspendedIn r.thread r.epoch) : q.IsFreshIn s r.epoch := by
  constructor
  · rwa [thread_of_ref? node]
  · intro r' node'
    rw [node] at node'
    cases node'
    rfl

theorem isFreshIn_of_thread {q : Query β} {e : Nat} (root : q.ref? = none)
    (suspended : s.IsSuspendedIn q.thread e) : q.IsFreshIn s e := by
  constructor
  · exact suspended
  · intro r node
    rw [root] at node
    cases node

/-- Whether there are children is learned by asking for them. -/
theorem hasChildren_eq {v : Value} {r : FrameRef} {path : String}
    (owned : v.owner = some (r, path)) :
    v.hasChildren = (fun vs => !List.isEmpty vs) <$> r.children (some path) := by
  rw [Value.hasChildren, Value.children, owned]
  rfl

/-- Every command of a query is sent in the suspension it belongs to, and what it is
    answered with is from the suspension in which it started. -/
theorem ensures (q : Query β) (s : RunStates) :
    q.script.Ensures (fun s _ => ∃ e, q.IsFreshIn s e) (q.IsAnswer s) s := by
  cases q with
  | stackFrames t =>
    apply Thread.ensures_stackFrames
    · intro e suspended
      exact ⟨e, isFreshIn_of_thread rfl suspended⟩
    · intro e suspended s' frames still stamped
      exact ⟨e, isFreshIn_of_thread rfl suspended, still, stamped⟩
  | topFrame t =>
    change (List.head? <$> Thread.stackFrames t).Ensures _ _ s
    rw [ensures_map]
    apply Thread.ensures_stackFrames
    · intro e suspended
      exact ⟨e, isFreshIn_of_thread rfl suspended⟩
    · intro e suspended s' frames still stamped
      exact ⟨e, isFreshIn_of_thread rfl suspended, still, frames, stamped, rfl⟩
  | allVariables f =>
    apply FrameRef.ensures_children
    · intro suspended
      exact ⟨f.ref.epoch, isFreshIn_of_node rfl suspended⟩
    · intro suspended s' vs still stamped
      exact ⟨f.ref.epoch, isFreshIn_of_node rfl suspended, still, stamped⟩
  | variableNamed f name =>
    change (requireWord _ _ >>= fun _ => f.ref.fetch name).Ensures _ _ s
    rw [ensures_bind]
    apply ensures_requireWord
    apply FrameRef.ensures_fetch
    · intro suspended
      exact ⟨f.ref.epoch, isFreshIn_of_node rfl suspended⟩
    · intro suspended s' v still href hpath
      exact ⟨f.ref.epoch, isFreshIn_of_node rfl suspended, still, href, hpath⟩
  | children v r path owned =>
    have hscript : v.children = r.children (some path) := by
      rw [Value.children, owned]
    rw [script, hscript]
    apply FrameRef.ensures_children
    · intro suspended
      exact ⟨r.epoch, isFreshIn_of_node rfl suspended⟩
    · intro suspended s' vs still stamped
      exact ⟨r.epoch, isFreshIn_of_node rfl suspended, still, stamped⟩
  | hasChildren v r path owned =>
    rw [script, hasChildren_eq owned, ensures_map]
    apply FrameRef.ensures_children
    · intro suspended
      exact ⟨r.epoch, isFreshIn_of_node rfl suspended⟩
    · intro suspended s' vs still _
      exact ⟨r.epoch, isFreshIn_of_node rfl suspended, still, trivial⟩
  | setValue v content =>
    have hfresh : ∀ s' : RunStates, s'.IsSuspendedIn v.ref.thread v.ref.epoch →
        ∃ e, (setValue v content).IsFreshIn s' e :=
      fun s' suspended => ⟨v.ref.epoch, isFreshIn_of_node rfl suspended⟩
    apply Variable.ensures_setValue
    · exact hfresh s
    · exact hfresh
    · intro suspended s' w still href hpath
      exact ⟨v.ref.epoch, isFreshIn_of_node rfl suspended, still, href, hpath⟩

/-- A query that is stale when it starts fails before it has asked anything. -/
theorem answer?_of_stale (q : Query β) (stale : ∀ e, ¬q.IsFreshIn s e) :
    ∃ err, q.IsRefusal err ∧ q.script.answer? s = some (.error err) := by
  have hnode : ∀ {r}, q.ref? = some r → ¬s.IsSuspendedIn r.thread r.epoch := by
    intro r node suspended
    exact stale r.epoch (isFreshIn_of_node node suspended)
  have hthread : q.ref? = none → ∀ e, ¬s.IsSuspendedIn q.thread e := by
    intro root e suspended
    exact stale e (isFreshIn_of_thread root suspended)
  cases q with
  | stackFrames t =>
    obtain ⟨fault, failed⟩ := Thread.answer?_stackFrames (hthread rfl)
    exact ⟨_, ⟨fault, rfl⟩, failed⟩
  | topFrame t =>
    obtain ⟨fault, failed⟩ := Thread.answer?_stackFrames (hthread rfl)
    exact ⟨_, ⟨fault, rfl⟩, answer?_bind _ failed⟩
  | allVariables f =>
    obtain ⟨fault, failed⟩ := FrameRef.answer?_check (hnode rfl)
    exact ⟨_, ⟨fault, rfl⟩, answer?_bind _ failed⟩
  | variableNamed f name =>
    obtain ⟨fault, failed⟩ := FrameRef.answer?_check (hnode rfl)
    -- the name is looked at before the thread, whatever the thread does
    by_cases hword : name.isEmpty || name.toList.any Text.isBlank
    · refine ⟨.invalidArgument (.notOneWord .variableName name), ?_, ?_⟩
      · rw [IsRefusal, if_pos hword]
      · apply answer?_bind
        rw [requireWord, if_pos hword]
        rfl
    · refine ⟨.invalidState fault, ?_, ?_⟩
      · rw [IsRefusal, if_neg hword]
        exact ⟨fault, rfl⟩
      · change (requireWord _ _ >>= fun _ => f.ref.fetch name).answer? s = _
        rw [requireWord, if_neg hword]
        change (f.ref.fetch name).answer? s = _
        exact answer?_bind _ failed
  | children v r path owned =>
    obtain ⟨fault, failed⟩ := FrameRef.answer?_check (hnode rfl)
    refine ⟨_, ⟨fault, rfl⟩, ?_⟩
    rw [script, Value.children, owned]
    exact answer?_bind _ failed
  | hasChildren v r path owned =>
    obtain ⟨fault, failed⟩ := FrameRef.answer?_check (hnode rfl)
    refine ⟨_, ⟨fault, rfl⟩, ?_⟩
    rw [script, Value.hasChildren, Value.children, owned]
    exact answer?_bind _ (answer?_bind _ failed)
  | setValue v content =>
    obtain ⟨fault, failed⟩ := FrameRef.answer?_check (hnode rfl)
    exact ⟨_, ⟨fault, rfl⟩, answer?_bind _ failed⟩

end Query

end Pushdown
