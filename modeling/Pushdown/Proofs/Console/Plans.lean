/-
  Pushdown/Proofs/Console/Plans.lean
  ==================================
  **The plan of a console command.**  What a console command asks of the VM is fixed by what
  has been typed (`Command.plan`), and by the stack where a frame is meant: if it is not
  there, the plan ends with that, and if `vars` names none, the number of the topmost one is
  learned on the way.  Every console command but `exit` keeps to its plan
  (`Command.keeps`).

  When none of its commands to the VM fails, a console command can still leave off: the
  thread is not suspended, or has run since, or has no such frame (`Command.LeavesOff`).
  There is no other reason.
-/
import Pushdown.Proofs.Console.Spelling
import Pushdown.Proofs.Model.Operations
import Pushdown.Proofs.Model.Plans

namespace Pushdown

open Script

/-- How many frames the stack has, when it is the first thing that is asked for. -/
def Exchanges.depth : Exchanges → Nat
  | (_, .ok (.frames stack)) :: _ => stack.length
  | _ => 0

theorem Exchanges.depth_append {es later : Exchanges}
    (failed : ∀ c payload, (c, .ok payload) ∉ later) :
    Exchanges.depth (es ++ later) = es.depth := by
  cases es with
  | cons p es =>
    obtain ⟨c, e | payload⟩ := p
    · rfl
    · cases payload <;> rfl
  | nil =>
    rcases later with _ | ⟨⟨c, e | payload⟩, later⟩
    · rfl
    · rfl
    · exact (failed c payload List.mem_cons_self).elim

/-- A console command never fails for one of these reasons. -/
def Error.IsRuledOut : Error → Prop
  | .busy | .invalidArgument (.notOneWord ..) | .malformedReply (.otherShape ..) => True
  | _ => False

namespace Console

/-- The thread that must be suspended. -/
def Command.subject? : Command → Option ThreadId
  | frames t | vars t _ | print t _ _ | children t _ _ | set t _ _ _ | eval t _ | data t
  | step t | stepReturn t | drop t => some t
  | _ => none

/-- The thread that must stay in its suspension from one step to the next, up to the result. -/
def Command.held? : Command → Option ThreadId
  | frames t | vars t _ | print t _ _ | children t _ _ | set t _ _ _ => some t
  | _ => none

/-- The frame that must be there; if none is named, there must be any. -/
def Command.frame? : Command → Option (ThreadId × Option UInt64)
  | vars t frame => some (t, frame)
  | print t f _ | children t f _ | set t f _ _ => some (t, some f)
  | _ => none

theorem Command.subject_of_held {c : Command} {t : ThreadId} (held : c.held? = some t) :
    c.subject? = some t := by
  cases c <;> cases held <;> rfl

theorem Command.subject_of_frame {c : Command} {t : ThreadId} {frame : Option UInt64}
    (named : c.frame? = some (t, frame)) : c.subject? = some t := by
  cases c <;> cases named <;> rfl

/-- Whether a stack of this depth has the frame. -/
def HasFrame (depth : Nat) (frame : Option UInt64) : Prop :=
  frame.elim 0 UInt64.toNat < depth

instance (depth : Nat) (frame : Option UInt64) : Decidable (HasFrame depth frame) :=
  inferInstanceAs (Decidable (_ < _))

/-- Ask for the stack, and go on with the number of the frame if a stack of this depth has
    it. -/
def inFrame (depth : Nat) (t : ThreadId) (frame : Option UInt64) (goesOn : Nat → Plan) : Plan :=
  Plan.about t (.stack t) ++
    if HasFrame depth frame then goesOn (frame.elim (depth - 1) UInt64.toNat)
    else [.fail (.invalidArgument (.noSuchFrame t frame))]

/-- The plan of a command, if the stack has this depth. -/
def Command.plan (depth : Nat) : Command → Plan
  | threads => [.ask .threads]
  | frames t => Plan.about t (.stack t)
  | vars t frame => inFrame depth t frame fun i => Plan.about t (.children t i none)
  | print t f name => inFrame depth t (some f) fun i => Plan.about t (.var t i name)
  | children t f path => inFrame depth t (some f) fun i =>
    Plan.about t (.var t i path) ++ Plan.about t (.children t i (some path))
  | set t f name value => inFrame depth t (some f) fun i =>
    Plan.about t (.var t i name) ++
      .suspended t :: .ask (.setVar t i name value) :: Plan.about t (.var t i name)
  | eval t expression => [.suspended t, .ask (.eval t expression)]
  | data t => [.suspended t, .ask (.data t)]
  | resume thread => [.ask (.resume thread)]
  | suspend thread => [.ask (.suspend thread)]
  | step t => [.suspended t, .ask (.step t)]
  | stepReturn t => [.suspended t, .ask (.stepReturn t)]
  | drop t => [.suspended t, .ask (.drop t)]
  | breakAt line stopVm => [.ask (.setBreakpoint line stopVm)]
  | clear line => [.ask (.clearBreakpoint line)]
  | watch name read write => [.ask (.watch name read write)]
  | eventStop name enabled => [.ask (.eventStop name enabled)]
  | state => [.ask (.state none)]
  | help => []
  | exit => [.ask .exit]

example : ((Command.set 1 0 "x" "5").plan 2).commands =
    [.stack 1, .var 1 0 "x", .setVar 1 0 "x" "5", .var 1 0 "x"] := rfl

example : ((Command.vars 1 none).plan 0).commands = [.stack 1] := rfl

/-- Why a command that began in run states `start` is given up in run states `s`, although
    all that has been sent went well. -/
inductive Command.LeavesOff (depth : Nat) (c : Command) (start s : RunStates) : Error → Prop
  /-- The thread was not suspended to begin with. -/
  | unsuspended {t : ThreadId} {fault : StateFault} (subject : c.subject? = some t)
      (found : start.requireSuspended t none = .error fault) :
      c.LeavesOff depth start s (.invalidState fault)
  /-- It was, but is no longer in the suspension of that time. -/
  | resumed {t : ThreadId} {e : Nat} {fault : StateFault} (subject : c.subject? = some t)
      (began : start.requireSuspended t none = .ok e)
      (found : s.requireSuspended t (some e) = .error fault) :
      c.LeavesOff depth start s (.invalidState fault)
  | noFrame {t : ThreadId} {frame : Option UInt64} (named : c.frame? = some (t, frame))
      (missing : ¬HasFrame depth frame) :
      c.LeavesOff depth start s (.invalidArgument (.noSuchFrame t frame))

/-- The payload belongs to the command, and a stack has this depth. -/
structure Answers (depth : Nat) (c : Pushdown.Command) (payload : Payload) : Prop where
  belongs : c.IsAnsweredBy payload
  depth : ∀ stack, payload = .frames stack → stack.length = depth

/-! ### Stages of a plan -/

namespace Command

variable {depth : Nat}

@[simp] theorem commands_inFrame (depth : Nat) (t : ThreadId) (frame : Option UInt64)
    (goesOn : Nat → Plan) : (inFrame depth t frame goesOn).commands = .stack t ::
      if HasFrame depth frame then (goesOn (frame.elim (depth - 1) UInt64.toNat)).commands
      else [] := by
  rw [inFrame, Plan.commands_about]
  split <;> rfl

theorem mem_inFrame {stage : Stage} {t : ThreadId} {frame : Option UInt64} {goesOn : Nat → Plan} :
    stage ∈ inFrame depth t frame goesOn ↔ stage ∈ Plan.about t (.stack t) ∨
      if HasFrame depth frame then stage ∈ goesOn (frame.elim (depth - 1) UInt64.toNat)
      else stage = .fail (.invalidArgument (.noSuchFrame t frame)) := by
  rw [inFrame, List.mem_append]
  split <;> simp

/-- The first stage is a look at the thread that must be suspended. -/
theorem plan_of_subject {c : Command} {t : ThreadId} (subject : c.subject? = some t) :
    ∃ rest, c.plan depth = .suspended t :: rest := by
  cases c <;> cases subject <;> exact ⟨_, rfl⟩

theorem rechecks_inFrame {t : ThreadId} {frame : Option UInt64} {goesOn : Nat → Plan}
    (later : ∀ i, Plan.Rechecks t (goesOn i)) :
    ∃ rest, inFrame depth t frame goesOn = .suspended t :: rest ∧ Plan.Rechecks t rest := by
  refine ⟨_, rfl, rfl, ?_⟩
  change Plan.Rechecks t (if _ then _ else _)
  split
  · exact later _
  · trivial

/-- A thread that must stay suspended is looked at again after each command. -/
theorem plan_of_held {c : Command} {t : ThreadId} (held : c.held? = some t) :
    ∃ rest, c.plan depth = .suspended t :: rest ∧ Plan.Rechecks t rest := by
  cases c <;> cases held
  case frames => exact ⟨_, rfl, rfl, trivial⟩
  case vars | print | children | set =>
    rw [plan]
    refine rechecks_inFrame fun i => ?_
    simp [Plan.about, Plan.Rechecks]

/-- No other thread is looked at. -/
theorem subject_of_suspended {c : Command} {t : ThreadId} (looks : .suspended t ∈ c.plan depth) :
    c.subject? = some t := by
  cases c with
  | vars | print | children | set =>
    rw [plan, mem_inFrame] at looks
    split at looks <;> simp_all [Plan.about, subject?]
  | _ => simp_all [plan, Plan.about, subject?]

/-- The plan ends with a failure if there is no such frame. -/
theorem fail_mem_plan {c : Command} {e : Error} :
    .fail e ∈ c.plan depth ↔ ∃ t frame, c.frame? = some (t, frame) ∧ ¬HasFrame depth frame ∧
      e = .invalidArgument (.noSuchFrame t frame) := by
  cases c with
  | vars | print | children | set =>
    rw [plan, mem_inFrame]
    split <;> simp_all [Plan.about, frame?]
  | _ => simp [plan, Plan.about, frame?]

theorem plan_of_missing {c : Command} {t : ThreadId} {frame : Option UInt64}
    (named : c.frame? = some (t, frame)) (missing : ¬HasFrame depth frame) :
    c.plan depth = [.suspended t, .ask (.stack t), .suspended t,
      .fail (.invalidArgument (.noSuchFrame t frame))] := by
  cases c <;> cases named <;> exact congrArg (Plan.about t (.stack t) ++ ·) (if_neg missing)

/-- The stack is asked for at the beginning, if at all. -/
theorem commands_plan_succ_ne_stack (c : Command) (i : Nat) (t : ThreadId) :
    (c.plan depth).commands[i + 1]? ≠ some (.stack t) := by
  cases c with
  | vars | print | children | set =>
    rw [plan, commands_inFrame]
    split
    · rcases i with _ | _ | _ | i <;> simp [Plan.about]
    · simp
  | _ => rcases i with _ | i <;> simp [plan, Plan.about]

end Command

/-! ### The scripts -/

variable {depth : Nat}

theorem frameAt?_eq_some {t : ThreadId} {epoch : Nat} {stack : List FrameData}
    {frame : Option UInt64} {f : StackFrame} (h : frameAt? t epoch stack frame = some f) :
    f.ref = ⟨t, frame.elim (stack.length - 1) UInt64.toNat, epoch⟩ := by
  cases frame <;> obtain ⟨data, -, rfl⟩ := Option.map_eq_some_iff.mp h <;> rfl

theorem isSome_frameAt?_iff {t : ThreadId} {epoch : Nat} {stack : List FrameData}
    {frame : Option UInt64} :
    (frameAt? t epoch stack frame).isSome = true ↔ HasFrame stack.length frame := by
  cases frame with
  | none => simp [frameAt?, HasFrame, List.length_pos_iff]
  | some index => exact isSome_frameAt?

/-- A frame is fetched, and if it is there something is done with it. -/
theorem follows_inFrame {β : Type} {Q : Option Nat → β → Prop} {t : ThreadId}
    {frame : Option UInt64} {k : StackFrame → Script β} {goesOn : Nat → Plan}
    (later : ∀ e f, f.ref = ⟨t, frame.elim (depth - 1) UInt64.toNat, e⟩ →
      (k f).Follows (Answers depth) Q (some e) (goesOn (frame.elim (depth - 1) UInt64.toNat))) :
    (frameOf t frame >>= k).Follows (Answers depth) Q none (inFrame depth t frame goesOn) := by
  have hframe : (frameOf t frame).Follows (Answers depth)
      (fun e f => HasFrame depth frame ∧ ∃ found, e = some found ∧
        f.ref = ⟨t, frame.elim (depth - 1) UInt64.toNat, found⟩) none
      (Plan.about t (.stack t) ++ if HasFrame depth frame then []
        else [.fail (.invalidArgument (.noSuchFrame t frame))]) := by
    refine (Thread.follows_stackFrames fun _ _ => Answers.belongs).bind ?_
    rintro _ frames ⟨epoch, stack, rfl, answer, rfl⟩
    obtain rfl := answer.depth stack rfl
    rw [findFrame?_framesFrom]
    cases hframe : frameAt? t epoch stack frame with
    | some f =>
      have present : HasFrame stack.length frame :=
        isSome_frameAt?_iff.mp (Option.isSome_iff_exists.mpr ⟨f, hframe⟩)
      rw [if_pos present]
      exact follows_pure ⟨present, epoch, rfl, frameAt?_eq_some hframe⟩
    | none =>
      have missing : ¬HasFrame stack.length frame := by
        intro present
        have there : (frameAt? t epoch stack frame).isSome = true := isSome_frameAt?_iff.mpr present
        rw [hframe] at there
        cases there
      rw [if_neg missing]
      exact follows_fail
  by_cases present : HasFrame depth frame
  · rw [if_pos present, List.append_nil] at hframe
    rw [inFrame, if_pos present]
    refine hframe.bind ?_
    rintro _ f ⟨-, epoch, rfl, href⟩
    exact later epoch f href
  · rw [if_neg present] at hframe
    rw [inFrame, if_neg present]
    refine hframe.lastly ?_
    rintro _ f ⟨there, -⟩
    exact (present there).elim

theorem follows_toDone {Answer : Pushdown.Command → Payload → Prop} {x : Script Unit}
    {epoch : Option Nat} {plan : Plan} (follows : x.Follows Answer (fun _ _ => True) epoch plan) :
    (toDone x).Follows Answer (fun _ _ => True) epoch plan :=
  follows.lastly fun _ _ _ => follows_pure trivial

/-- **Every console command but `exit` follows its plan.** -/
theorem Command.follows (c : Command) (wellFormed : c.IsWellFormed) (stays : c ≠ .exit) :
    c.script.Follows (Answers depth) (fun _ _ => True) none (c.plan depth) := by
  have answers : ∀ c payload, Answers depth c payload → c.IsAnsweredBy payload :=
    fun _ _ => Answers.belongs
  cases c with
  | threads =>
    refine (Target.follows_threads answers).andThen fun _ ids _ => ?_
    exact follows_states.quietly fun _ _ _ => follows_pure trivial
  | frames t => exact (Thread.follows_stackFrames answers).lastly fun _ _ _ => follows_pure trivial
  | vars t frame =>
    rw [script, plan]
    refine follows_inFrame ?_
    rintro epoch ⟨_, data⟩ rfl
    exact (FrameRef.follows_children answers none).lastly fun _ _ _ => follows_pure trivial
  | print t index name =>
    rw [script, plan]
    refine follows_inFrame ?_
    rintro epoch ⟨_, data⟩ rfl
    refine (StackFrame.follows_variableNamed answers wellFormed).lastly fun _ _ _ => ?_
    exact follows_pure trivial
  | children t index path =>
    rw [script, plan]
    refine follows_inFrame ?_
    rintro epoch ⟨_, data⟩ rfl
    refine (StackFrame.follows_variableNamed answers wellFormed).bind ?_
    rintro _ ⟨_, _, content⟩ ⟨rfl, rfl, rfl⟩
    exact (FrameRef.follows_children answers (some _)).lastly fun _ _ _ => follows_pure trivial
  | set t index name value =>
    rw [script, plan]
    refine follows_inFrame ?_
    rintro epoch ⟨_, data⟩ rfl
    refine (StackFrame.follows_variableNamed answers wellFormed.1).bind ?_
    rintro _ ⟨_, _, content⟩ ⟨rfl, rfl, rfl⟩
    exact (Variable.follows_setValue answers value).lastly fun _ _ _ => follows_pure trivial
  | eval t expression =>
    exact (Thread.follows_evaluate answers expression).lastly fun _ _ _ => follows_pure trivial
  | data t => exact (Thread.follows_dataStack answers).lastly fun _ _ _ => follows_pure trivial
  | resume thread | suspend thread =>
    cases thread <;> exact follows_toDone (follows_acknowledged answers rfl trivial)
  | step | stepReturn | drop => exact follows_toDone (Thread.follows_advance answers rfl)
  | breakAt | clear => exact follows_toDone (follows_acknowledged answers rfl trivial)
  | watch => exact follows_toDone (follows_named answers wellFormed.1 rfl)
  | eventStop => exact follows_toDone (follows_named answers wellFormed rfl)
  | state =>
    refine follows_states.quietly fun _ _ _ => ?_
    exact (Target.follows_vmState answers).lastly fun _ _ _ => follows_pure trivial
  | help => exact follows_pure trivial
  | exit => exact (stays rfl).elim

/-! ### What a command comes to -/

/-- What has been read belongs to the commands. -/
def AllBelong (es : Exchanges) : Prop :=
  ∀ d payload, (d, .ok payload) ∈ es → d.IsAnsweredBy payload

/-- What the plan takes the depth of the stack to be is what the VM has said. -/
theorem AllBelong.answeredBy {es : Exchanges} (belong : AllBelong es) (c : Command) :
    AnsweredBy (Answers es.depth) (c.plan es.depth) es := by
  intro i d payload he hp
  have belongs := belong d payload (List.mem_of_getElem? he)
  refine ⟨belongs, fun stack heq => ?_⟩
  subst heq
  obtain ⟨t, rfl⟩ := belongs.stack_of_frames
  cases i with
  | zero =>
    cases es with
    | nil => cases he
    | cons p es =>
      obtain rfl := Option.some.inj he
      rfl
  | succ i => exact (c.commands_plan_succ_ne_stack i t hp).elim

variable {α : Type} {c : Command} {es : Exchanges} {r : Except Error Output}

/-- A closed connection is as good as an acknowledgement, and any other failure is one. -/
theorem comes_exit (comes : Command.exit.script.Comes es r) (belong : AllBelong es) :
    ∃ outcome, es = [(.exit, outcome)] ∧
      ((outcome = .ok .ack ∨ outcome = .error .connectionClosed) ∧ r = .ok .done ∨
        ∃ e, outcome = .error e ∧ e ≠ .connectionClosed ∧ r = .error e) := by
  obtain ⟨r', hcomes, rfl⟩ := (comes_map (fun _ => Output.done) Target.terminate).mp comes
  obtain ⟨outcome, rfl, rfl⟩ := Target.comes_terminate.mp hcomes
  refine ⟨outcome, rfl, ?_⟩
  cases outcome with
  | ok payload =>
    have belongs := belong .exit payload (List.mem_singleton_self _)
    obtain rfl : payload = .ack := by
      have hshape := belongs.shape rfl
      cases payload <;> cases hshape
      rfl
    exact .inl ⟨.inl rfl, rfl⟩
  | error e =>
    by_cases closed : e = .connectionClosed
    · subst closed
      exact .inl ⟨.inr rfl, rfl⟩
    · refine .inr ⟨e, rfl, closed, ?_⟩
      cases e with
      | connectionClosed => exact (closed rfl).elim
      | _ => rfl

/-- `exit` has asked the VM to exit, and nothing else. -/
theorem success_exit {a : Output} (comes : Command.exit.script.Comes es (.ok a))
    (belong : AllBelong es) :
    es.map Prod.fst = [.exit] ∧ es.AllOk ∨ es = [(.exit, .error .connectionClosed)] := by
  obtain ⟨outcome, rfl, ⟨rfl | rfl, -⟩ | ⟨e, -, -, failed⟩⟩ := comes_exit comes belong
  · exact .inl ⟨rfl, by simp [Exchanges.AllOk]⟩
  · exact .inr rfl
  · cases failed

namespace Command

theorem isPatient (c : Command) : c.script.IsPatient := by
  by_cases exits : c = .exit
  · subst exits
    exact Target.isPatient_terminate fun _ => Output.done
  · exact (c.isSteady exits).isPatient

/-- **A console command that is not `exit` keeps to its plan.** -/
theorem keeps (wellFormed : c.IsWellFormed) (stays : c ≠ .exit) {f : Output → α}
    {s : RunStates} {ds : Deeds α} (does : (f <$> c.script).Does s es ds)
    (belong : AllBelong es) : Keeps s none (c.plan es.depth) es ds :=
  ((c.follows wellFormed stays).map f).keeps ((c.isSteady stays).map f) does (belong.answeredBy c)

theorem part (wellFormed : c.IsWellFormed) (comes : c.script.Comes es r)
    (belong : AllBelong es) : es.map Prod.fst <+: (c.plan es.depth).commands := by
  by_cases exits : c = .exit
  · subst exits
    obtain ⟨outcome, rfl, -⟩ := comes_exit comes belong
    exact List.prefix_rfl
  · exact (c.follows wellFormed exits).part (c.isSteady exits) comes (belong.answeredBy c)

/-- What can have been sent is the beginning of the plan. -/
theorem plan_of_canSend {f : Output → α} {cs : List Pushdown.Command}
    (wellFormed : c.IsWellFormed) (can : (f <$> c.script).CanSend es cs)
    (belong : AllBelong es) : cs <+: (c.plan es.depth).commands := by
  obtain ⟨later, r, comes, failed, hcs⟩ := can
  obtain ⟨r', hcomes, -⟩ := (comes_map f c.script).mp comes
  have hbelong : AllBelong (es ++ later) := by
    intro d payload hmem
    rcases List.mem_append.mp hmem with hmem | hmem
    · exact belong d payload hmem
    · exact (failed d payload hmem).elim
  have hpart := part wellFormed hcomes hbelong
  rw [Exchanges.depth_append failed] at hpart
  exact hcs.trans hpart

/-- The first failure is the end, and the result. -/
theorem failure {first rest : Exchanges} {d : Pushdown.Command} {e : Error}
    (comes : c.script.Comes es r) (belong : AllBelong es)
    (split : es = first ++ (d, .error e) :: rest) : first.AllOk ∧ rest = [] ∧
      (r = .error e ∨ c = .exit ∧ e = .connectionClosed ∧ r = .ok .done) := by
  by_cases exits : c = .exit
  · subst exits
    obtain ⟨outcome, rfl, fate⟩ := comes_exit comes belong
    obtain ⟨rfl, heq⟩ : first = [] ∧ (.exit, outcome) :: [] = (d, .error e) :: rest := by
      cases first with
      | nil => exact ⟨rfl, split⟩
      | cons p first => simp at split
    obtain ⟨hpair, rfl⟩ := List.cons.inj heq
    obtain ⟨rfl, rfl⟩ := Prod.mk.inj hpair
    refine ⟨fun _ _ => List.not_mem_nil, rfl, ?_⟩
    rcases fate with ⟨good | closed, hr⟩ | ⟨e', heq, -, hr⟩
    · cases good
    · cases closed
      exact .inr ⟨rfl, rfl, hr⟩
    · cases heq
      exact .inl hr
  · have stops := (c.isSteady exits).stopsAtFailure es r comes
    obtain ⟨hrest, hresult⟩ := stops first d e rest split
    refine ⟨fun d' e' hmem => ?_, hrest, .inl hresult⟩
    obtain ⟨before, after, rfl⟩ := List.append_of_mem hmem
    have hnil := (stops before d' e' (after ++ (d, .error e) :: rest) (by simp [split])).1
    simp at hnil

variable {s s₁ : RunStates} {ds : Deeds α}

/-- When the plan is over, the frame that is meant is there. -/
theorem success (keeps : Keeps s none (c.plan es.depth) es ds) {a : α}
    (ended : (s₁, .ended (.ok a)) ∈ ds) :
    es.map Prod.fst = (c.plan es.depth).commands ∧ es.AllOk ∧
      ∀ t frame, c.frame? = some (t, frame) → HasFrame es.depth frame := by
  obtain ⟨hplan, ok, never⟩ := keeps.whole ended
  refine ⟨hplan, ok, fun t frame named => ?_⟩
  by_contra missing
  exact never _ (fail_mem_plan.mpr ⟨t, frame, named, missing, rfl⟩)

/-- A failure is that of the last command, or the command has been given up for a reason of
    its own. -/
theorem reason (keeps : Keeps s none (c.plan es.depth) es ds) {e : Error}
    (ended : (s₁, .ended (.error e)) ∈ ds) :
    (∃ first d, es = first ++ [(d, .error e)]) ∨
      es.AllOk ∧ c.LeavesOff es.depth s s₁ e := by
  cases subject : c.subject? with
  | none =>
    rcases keeps.why ended with failed | ⟨ok, certain | ⟨t, -, -, looks, -⟩⟩
    · exact .inl failed
    · obtain ⟨t, frame, named, missing, rfl⟩ := fail_mem_plan.mp certain
      exact .inr ⟨ok, .noFrame named missing⟩
    · cases (subject_of_suspended looks).symm.trans subject
  | some t =>
    obtain ⟨rest, hplan⟩ := @plan_of_subject es.depth c t subject
    rw [hplan, Keeps] at keeps
    split at keeps
    · next epoch began =>
      have hrest : ∀ {stage}, stage ∈ rest → stage ∈ c.plan es.depth := by
        intro stage hmem
        rw [hplan]
        exact List.mem_cons_of_mem _ hmem
      rcases keeps.why ended with failed |
        ⟨ok, certain | ⟨u, found, fault, looks, hfault, rfl, known⟩⟩
      · exact .inl failed
      · obtain ⟨u, frame, named, missing, rfl⟩ := fail_mem_plan.mp (hrest certain)
        exact .inr ⟨ok, .noFrame named missing⟩
      · have hsubject := subject_of_suspended (hrest looks)
        rw [known epoch rfl] at hfault
        cases subject.symm.trans hsubject
        exact .inr ⟨ok, .resumed subject began hfault⟩
    · next fault found =>
      obtain ⟨rfl, rfl⟩ := keeps
      cases List.mem_singleton.mp ended
      exact .inr ⟨fun _ _ => List.not_mem_nil, .unsuspended subject found⟩

/-- If the thread is not suspended, nothing is asked. -/
theorem unsuspended (keeps : Keeps s none (c.plan es.depth) es ds) {t : ThreadId}
    {fault : StateFault} (subject : c.subject? = some t)
    (found : s.requireSuspended t none = .error fault) :
    es = [] ∧ (s, .ended (.error (.invalidState fault))) ∈ ds := by
  obtain ⟨rest, hplan⟩ := @plan_of_subject es.depth c t subject
  rw [hplan, Keeps, found] at keeps
  obtain ⟨hes, rfl⟩ := keeps
  exact ⟨hes, List.mem_cons_self⟩

/-- If the thread has left the suspension, that is the result, unless a command has failed. -/
theorem stale (keeps : Keeps s none (c.plan es.depth) es ds) {t : ThreadId} {epoch : Nat}
    (held : c.held? = some t) (began : s.requireSuspended t none = .ok epoch)
    {fault : StateFault} (left : s₁.requireSuspended t (some epoch) = .error fault) {d : Deed α}
    (done : (s₁, d) ∈ ds) : d = .ended (.error (.invalidState fault)) ∨
      ∃ first asked e, es = first ++ [(asked, .error e)] ∧ d = .ended (.error e) := by
  obtain ⟨rest, hplan, rechecks⟩ := @plan_of_held es.depth c t held
  rw [hplan, Keeps, began] at keeps
  have suspended := RunStates.isSuspendedIn_of_require began
  exact Keeps.stale keeps rfl rechecks (.inl suspended) left done

/-- If the frame is not there, the stack is all that is asked for. -/
theorem noFrame {rest : Exchanges} {t : ThreadId} {frame : Option UInt64} {stack : List FrameData}
    (keeps : Keeps s none (c.plan stack.length) ((.stack t, .ok (.frames stack)) :: rest) ds)
    (named : c.frame? = some (t, frame)) (missing : ¬HasFrame stack.length frame) :
    rest = [] ∧ ∃ epoch s₁ e, s.requireSuspended t none = .ok epoch ∧
      (s₁, .ended (.error e)) ∈ ds ∧
      (s₁.IsSuspendedIn t epoch ∧ e = .invalidArgument (.noSuchFrame t frame) ∨
        ∃ fault, s₁.requireSuspended t (some epoch) = .error fault ∧ e = .invalidState fault) := by
  rw [plan_of_missing named missing, Keeps] at keeps
  split at keeps
  · next epoch began =>
    rcases keeps with ⟨⟨⟩, -⟩ | ⟨e, ⟨⟩, -⟩ | ⟨payload, s₁, later, deeds, heq, rfl, keeps⟩
    obtain ⟨-, rfl⟩ := List.cons.inj heq
    rw [Keeps] at keeps
    split at keeps
    · next e still =>
      obtain ⟨hrest, rfl⟩ := keeps
      have suspended := RunStates.isSuspendedIn_of_require still
      rw [RunStates.epoch_of_require still] at suspended
      exact ⟨hrest, epoch, s₁, _, began, by simp, .inl ⟨suspended, rfl⟩⟩
    · next fault left =>
      obtain ⟨hrest, rfl⟩ := keeps
      exact ⟨hrest, epoch, s₁, _, began, by simp, .inr ⟨fault, left, rfl⟩⟩
  · obtain ⟨⟨⟩, -⟩ := keeps

theorem LeavesOff.not_ruledOut {depth : Nat} {e : Error} (leaves : c.LeavesOff depth s s₁ e) :
    ¬e.IsRuledOut := by
  cases leaves <;> exact id

end Command

end Console

end Pushdown
