/-
  Pushdown/Proofs/Session/Executes.lean
  =====================================
  **A console command in a session.**  A line that is typed at the console becomes a call.
  Of this call nothing goes out but the commands of its plan, in their order, and it
  succeeds only when all of them have gone well.  At the first failure it ends with that
  very failure and sends nothing more (`Setup.Executes`).  `exit` alone makes a success of
  one failure, a closed connection.

  What the plan says of the thread is said of the run states that the session has when the
  call looks: at the moment it begins, and whenever a reply has come.
-/
import Pushdown.Proofs.Console.Plans
import Pushdown.Proofs.Session.Accounted
import Pushdown.Proofs.Session.Deeds
import Pushdown.Proofs.Session.Terminate

namespace Pushdown

open Happened Script

namespace Session

variable {α : Type} {s : Setup} {as : List (Action α)} {m : Moment α} {tr : Traffic} {t : Ticket}

namespace Setup

theorem Origin.isAnsweredBy {c : Command} {payload : Payload}
    (origin : s.Origin as t c (.ok payload)) : c.IsAnsweredBy payload := by
  generalize heq : Except.ok payload = outcome at origin
  cases origin with
  | @replied token said reply =>
    cases said with
    | ok text => exact ⟨text, heq.symm⟩
    | error | unreadable => cases heq
  | _ => cases heq

theorem Origin.not_ruledOut {c : Command} {e : Error} (origin : s.Origin as t c (.error e))
    (waits : WaitsAlways as t) : ¬e.IsRuledOut := by
  generalize heq : Except.error e = outcome at origin
  cases origin with
  | @replied token said reply =>
    cases said with
    | ok text =>
      obtain ⟨fault, rfl, hshape⟩ := readReply_eq_error heq.symm
      cases fault with
      | otherShape wanted got => exact (hshape wanted got rfl).elim
      | _ => exact id
    | error | unreadable =>
      cases heq
      exact id
  | busy impatient => exact (impatient waits).elim
  | timedOut | severalLines | closed =>
    cases heq
    exact id

/-- What there is of a console command in a run, if it began in run states `start`. -/
structure Executes (s : Setup) (as : List (Action α)) (start : RunStates) (tr : Traffic)
    (t : Ticket) (c : Console.Command) (f : Console.Output → α) : Prop where
  /-- What has gone out is the beginning of the plan, … -/
  sent : tr.sentBy t <+: (c.plan (tr.exchanges t).depth).commands
  /-- … and so are the commands that have come to their end, … -/
  course : (tr.exchanges t).map Prod.fst <+: (c.plan (tr.exchanges t).depth).commands
  /-- … each by a reply of the VM or a failure of the client's own. -/
  origin : ∀ d outcome, (d, outcome) ∈ tr.exchanges t → s.Origin as t d outcome
  /-- The call keeps to the plan, stage by stage: it asks and it ends as the run states of
      the moment and the outcomes of its commands have it. -/
  runs : c ≠ .exit →
    Keeps start none (c.plan (tr.exchanges t).depth) (tr.exchanges t) ((s.log as).deeds t)
  /-- The call waits for the next command of the plan, or it is over, or its caller has gone
      away before anything failed. -/
  fate : (∃ d, (t, d) ∈ (s.after as).link.asks ∧ (tr.exchanges t).AllOk ∧
      (tr.exchanges t).map Prod.fst ++ [d] <+: (c.plan (tr.exchanges t).depth).commands) ∨
    (∃ r, .ended ⟨t, r⟩ ∈ s.log as) ∨ (tr.exchanges t).AllOk ∧ .cancel t ∈ as
  /-- It succeeds only if the frame that is meant is there and the whole plan has gone out and
      has gone well; for `exit` a closed connection will do. -/
  succeeds : ∀ a, .ended ⟨t, .ok a⟩ ∈ s.log as →
    tr.sentBy t = (c.plan (tr.exchanges t).depth).commands ∧
      (tr.exchanges t).map Prod.fst = (c.plan (tr.exchanges t).depth).commands ∧
      (tr.exchanges t).AllOk ∧
      (∀ thread frame, c.frame? = some (thread, frame) →
        Console.HasFrame (tr.exchanges t).depth frame) ∨
    c = .exit ∧ tr.exchanges t = [(.exit, .error .connectionClosed)]
  /-- Nothing comes after the first failure but this very failure as the result. -/
  stops : ∀ (first : Exchanges) d e rest, tr.exchanges t = first ++ (d, .error e) :: rest →
    first.AllOk ∧ rest = [] ∧ (.ended ⟨t, .error e⟩ ∈ s.log as ∨
      c = .exit ∧ e = .connectionClosed ∧ .ended ⟨t, .ok (f .done)⟩ ∈ s.log as)
  /-- If the thread is not suspended to begin with, that is the result, and nothing is sent. -/
  unsuspended : ∀ thread fault, c.subject? = some thread →
    start.requireSuspended thread none = .error fault →
    tr.sentBy t = [] ∧ tr.exchanges t = [] ∧ .ended ⟨t, .error (.invalidState fault)⟩ ∈ s.log as
  /-- The call goes no further when its thread has left the suspension in which it began: of
      all that shows of the call, nothing comes then but this very failure as the result, or
      that of a command that has failed. -/
  stale : ∀ thread epoch fault (earlier later : Happened α) (o : Occurrence α) (d : Deed α),
    c.held? = some thread → start.requireSuspended thread none = .ok epoch →
    s.log as = earlier ++ o :: later → Happened.deedOf? t o = some d →
    earlier.states.requireSuspended thread (some epoch) = .error fault →
    d = .ended (.error (.invalidState fault)) ∨
      ∃ first asked e, tr.exchanges t = first ++ [(asked, .error e)] ∧ d = .ended (.error e)
  /-- If the stack lacks the frame, nothing is sent after `stack`, and that is the result,
      unless the thread has left the suspension in which the call began. -/
  noFrame : ∀ thread frame stack rest, c.frame? = some (thread, frame) →
    tr.exchanges t = (.stack thread, .ok (.frames stack)) :: rest →
    ¬Console.HasFrame stack.length frame →
    tr.sentBy t = [.stack thread] ∧ rest = [] ∧
      ∃ (epoch : Nat) (earlier : Happened α) (e : Error) (later : Happened α),
        start.requireSuspended thread none = .ok epoch ∧
        s.log as = earlier ++ .ended ⟨t, .error e⟩ :: later ∧
        (earlier.states.IsSuspendedIn thread epoch ∧
            e = .invalidArgument (.noSuchFrame thread frame) ∨
          ∃ fault, earlier.states.requireSuspended thread (some epoch) = .error fault ∧
            e = .invalidState fault)
  /-- A failure is that of the last command, or all went well and the command was given up
      for a reason of its own, which was there at that moment.  Nothing has gone out behind
      it. -/
  fails : ∀ (e : Error) (earlier later : Happened α),
    s.log as = earlier ++ .ended ⟨t, .error e⟩ :: later →
    tr.sentBy t <+: (tr.exchanges t).map Prod.fst ∧
      ((∃ first d, tr.exchanges t = first ++ [(d, .error e)]) ∨
        (tr.exchanges t).AllOk ∧ c.LeavesOff (tr.exchanges t).depth start earlier.states e)
  /-- No name is refused for not being a word, and no payload for its shape. -/
  ruledOut : ∀ e, .ended ⟨t, .error e⟩ ∈ s.log as → ¬e.IsRuledOut

/-! ### The call of a command -/

/-- The call runs the script of a console command, from run states `start`, and what is said
    to have come of its commands has its origin in the session. -/
structure Conducts (s : Setup) (as : List (Action α)) (start : RunStates) (tr : Traffic)
    (t : Ticket) (c : Console.Command) (f : Console.Output → α) : Prop where
  wellFormed : c.IsWellFormed
  waits : WaitsAlways as t
  course : OnCourse (f <$> c.script) t (between (s.log as) (s.after as)) tr
  does : (f <$> c.script).Does start (tr.exchanges t) ((s.log as).deeds t)
  origin : ∀ d outcome, (d, outcome) ∈ tr.exchanges t → s.Origin as t d outcome

namespace Conducts

variable {start : RunStates} {c : Console.Command} {f : Console.Output → α}
  {thread : ThreadId} {e : Error} {earlier later : Happened α}

theorem belong (call : s.Conducts as start tr t c f) : Console.AllBelong (tr.exchanges t) :=
  fun d _ h => (call.origin d _ h).isAnsweredBy

theorem comes (call : s.Conducts as start tr t c f) {r : Except Error α}
    (ended : .ended ⟨t, r⟩ ∈ s.log as) :
    ∃ r', c.script.Comes (tr.exchanges t) r' ∧ r = r'.map f :=
  (comes_map f c.script).mp (call.course.ended r ended).2.1

theorem written (call : s.Conducts as start tr t c f) {r : Except Error α}
    (ended : .ended ⟨t, r⟩ ∈ s.log as) : Written tr t :=
  (call.course.ended r ended).2.2

theorem asked (call : s.Conducts as start tr t c f) {cs : List Command}
    (can : (f <$> c.script).CanSend (tr.exchanges t) cs) :
    cs <+: (c.plan (tr.exchanges t).depth).commands :=
  Console.Command.plan_of_canSend call.wellFormed can call.belong

theorem keeps (call : s.Conducts as start tr t c f) (stays : c ≠ .exit) :
    Keeps start none (c.plan (tr.exchanges t).depth) (tr.exchanges t) ((s.log as).deeds t) :=
  Console.Command.keeps call.wellFormed stays call.does call.belong

/-- A command with a thread that must be suspended is not `exit`. -/
theorem keeps_of_subject (call : s.Conducts as start tr t c f)
    (subject : c.subject? = some thread) :
    Keeps start none (c.plan (tr.exchanges t).depth) (tr.exchanges t) ((s.log as).deeds t) := by
  refine call.keeps ?_
  rintro rfl
  cases subject

theorem success (call : s.Conducts as start tr t c f) {a : α}
    (ended : .ended ⟨t, .ok a⟩ ∈ s.log as) :
    tr.sentBy t = (c.plan (tr.exchanges t).depth).commands ∧
      (tr.exchanges t).map Prod.fst = (c.plan (tr.exchanges t).depth).commands ∧
      (tr.exchanges t).AllOk ∧
      (∀ thread frame, c.frame? = some (thread, frame) →
        Console.HasFrame (tr.exchanges t).depth frame) ∨
    c = .exit ∧ tr.exchanges t = [(.exit, .error .connectionClosed)] := by
  have whole := (call.written ended).whole
  by_cases exits : c = .exit
  · subst exits
    obtain ⟨r, hcomes, heq⟩ := call.comes ended
    cases r with
    | error e => cases heq
    | ok output =>
      rcases Console.success_exit hcomes call.belong with ⟨hplan, ok⟩ | closed
      · refine .inl ⟨(whole ok).trans hplan, hplan, ok, ?_⟩
        rintro thread frame ⟨⟩
      · exact .inr ⟨rfl, closed⟩
  · obtain ⟨earlier, later, split⟩ := List.append_of_mem ended
    obtain ⟨hplan, ok, there⟩ := Console.Command.success (call.keeps exits)
      (ended_mem_deeds.mpr ⟨earlier, later, split, rfl⟩)
    exact .inl ⟨(whole ok).trans hplan, hplan, ok, there⟩

theorem reason (call : s.Conducts as start tr t c f)
    (split : s.log as = earlier ++ .ended ⟨t, .error e⟩ :: later) :
    (∃ first d, tr.exchanges t = first ++ [(d, .error e)]) ∨
      (tr.exchanges t).AllOk ∧ c.LeavesOff (tr.exchanges t).depth start earlier.states e := by
  by_cases exits : c = .exit
  · subst exits
    obtain ⟨r, hcomes, heq⟩ := call.comes (r := .error e) (by simp [split])
    obtain ⟨outcome, hes, ⟨-, rfl⟩ | ⟨e', rfl, -, rfl⟩⟩ := Console.comes_exit hcomes call.belong
    · cases heq
    · cases heq
      exact .inl ⟨[], .exit, hes⟩
  · refine Console.Command.reason (call.keeps exits) ?_
    exact ended_mem_deeds.mpr ⟨earlier, later, split, rfl⟩

theorem not_ruledOut (call : s.Conducts as start tr t c f)
    (ended : .ended ⟨t, .error e⟩ ∈ s.log as) : ¬e.IsRuledOut := by
  obtain ⟨earlier, later, split⟩ := List.append_of_mem ended
  rcases call.reason split with ⟨first, d, split⟩ | ⟨-, leaves⟩
  · exact (call.origin d (.error e) (by simp [split])).not_ruledOut call.waits
  · exact leaves.not_ruledOut

theorem unsuspended (call : s.Conducts as start tr t c f) {fault : StateFault}
    (subject : c.subject? = some thread)
    (found : start.requireSuspended thread none = .error fault) :
    tr.sentBy t = [] ∧ tr.exchanges t = [] ∧
      .ended ⟨t, .error (.invalidState fault)⟩ ∈ s.log as := by
  obtain ⟨hes, deed⟩ :=
    Console.Command.unsuspended (call.keeps_of_subject subject) subject found
  obtain ⟨earlier, later, split, -⟩ := ended_mem_deeds.mp deed
  have ended : .ended ⟨t, .error (.invalidState fault)⟩ ∈ s.log as := by simp [split]
  have hsent := (call.written ended).part
  rw [hes] at hsent
  exact ⟨List.prefix_nil.mp hsent, hes, ended⟩

theorem stale (call : s.Conducts as start tr t c f) {epoch : Nat} {fault : StateFault}
    {o : Occurrence α} {d : Deed α} (held : c.held? = some thread)
    (began : start.requireSuspended thread none = .ok epoch)
    (split : s.log as = earlier ++ o :: later) (deed : deedOf? t o = some d)
    (left : earlier.states.requireSuspended thread (some epoch) = .error fault) :
    d = .ended (.error (.invalidState fault)) ∨
      ∃ first asked e, tr.exchanges t = first ++ [(asked, .error e)] ∧ d = .ended (.error e) := by
  have done := mem_deeds.mpr ⟨earlier, o, later, split, rfl, deed⟩
  have keeps := call.keeps_of_subject (Console.Command.subject_of_held held)
  exact Console.Command.stale keeps held began left done

theorem noFrame (call : s.Conducts as start tr t c f) {frame : Option UInt64}
    {stack : List FrameData} {rest : Exchanges} (named : c.frame? = some (thread, frame))
    (first : tr.exchanges t = (.stack thread, .ok (.frames stack)) :: rest)
    (missing : ¬Console.HasFrame stack.length frame) :
    tr.sentBy t = [.stack thread] ∧ rest = [] ∧
      ∃ (epoch : Nat) (earlier : Happened α) (e : Error) (later : Happened α),
        start.requireSuspended thread none = .ok epoch ∧
        s.log as = earlier ++ .ended ⟨t, .error e⟩ :: later ∧
        (earlier.states.IsSuspendedIn thread epoch ∧
            e = .invalidArgument (.noSuchFrame thread frame) ∨
          ∃ fault, earlier.states.requireSuspended thread (some epoch) = .error fault ∧
            e = .invalidState fault) := by
  have keeps := call.keeps_of_subject (Console.Command.subject_of_frame named)
  rw [first] at keeps
  obtain ⟨rfl, epoch, s₁, e, began, deed, why⟩ := Console.Command.noFrame keeps named missing
  obtain ⟨earlier, later, hlog, rfl⟩ := ended_mem_deeds.mp deed
  have hwhole := (call.written (r := .error e) (by simp [hlog])).whole
    (by simp [first, Exchanges.AllOk])
  rw [first] at hwhole
  exact ⟨hwhole, rfl, epoch, earlier, e, later, began, hlog, why⟩

end Conducts

/-! ### The theorem -/

/-- **A console command is its plan, up to the first failure.** -/
theorem executes (s : Setup) {as : List (Action α)} {t : Ticket} {line : String}
    {c : Console.Command} {f : Console.Output → α} (own : OwnTickets as)
    (giveUp : AllGiveUp as) (parsed : Console.Command.ofLine? line = .ok (some c))
    (called : .start t (f <$> c.script) ∈ as) : c.IsTypedAs line.toList ∧
      ∃ before later tr, as = before ++ .start t (f <$> c.script) :: later ∧
        s.Carries as (between (s.log as) (s.after as)) tr ∧
        Sends (s.sent as) tr.lines (s.log as).requests (s.after as).link ∧
        s.Executes as (s.after before).states tr t c f := by
  have typed := Console.ofLine?_eq_some_iff.mp parsed
  obtain ⟨tr, carries, sends⟩ := s.exists_carries as
  obtain ⟨before, later, starts⟩ := List.append_of_mem called
  refine ⟨typed, before, later, tr, starts, carries, sends, ?_⟩
  have isScript := own.isScriptOf called
  have call : s.Conducts as (s.after before).states tr t c f := {
    wellFormed := typed.1
    waits := fun script h => isScript script h ▸ c.isPatient.map f
    course := (carries.tracked own giveUp).course t _ isScript
    does := carries.does own giveUp starts
    origin := fun d outcome h => carries.traced.outcomes t d outcome (Traffic.mem_exchanges.mp h) }
  exact {
    sent := call.asked call.course.out
    course := by
      obtain ⟨later, r, hcomes, failed, -⟩ := call.course.out
      refine call.asked ⟨later, r, hcomes, failed, ?_⟩
      rw [List.map_append]
      exact List.prefix_append _ _
    origin := call.origin
    runs := call.keeps
    fate := by
      rcases carries.accounted own giveUp t with there | ended | ⟨ok, gone⟩
      · obtain ⟨w, hw, hticket⟩ : ∃ w ∈ (s.after as).calls, w.ticket = t := by
          simpa [Moment.tickets, between] using there
        obtain ⟨turn, d, asks, left, ok, -⟩ := call.course.waiting w hw hticket
        exact .inl ⟨d, asks, ok, call.asked (left.canSend_next List.prefix_rfl)⟩
      · exact .inr (.inl ended)
      · exact .inr (.inr ⟨ok, gone (List.mem_filterMap.mpr ⟨_, called, rfl⟩)⟩)
    succeeds := fun _ ended => call.success ended
    stops := by
      intro first d e rest split
      have hfailed : (d, .error e) ∈ tr.exchanges t := by simp [split]
      obtain ⟨r, ended⟩ := carries.ended_of_failed own giveUp hfailed
      obtain ⟨r', hcomes, rfl⟩ := call.comes ended
      obtain ⟨ok, hrest, rfl | ⟨exits, closed, rfl⟩⟩ :=
        Console.Command.failure hcomes call.belong split
      · exact ⟨ok, hrest, .inl ended⟩
      · exact ⟨ok, hrest, .inr ⟨exits, closed, ended⟩⟩
    unsuspended := by
      intro thread fault subject found
      exact call.unsuspended subject found
    stale := by
      intro thread epoch fault earlier later o d held began split deed left
      exact call.stale held began split deed left
    noFrame := by
      intro thread frame stack rest named first missing
      exact call.noFrame named first missing
    fails := by
      intro e earlier later split
      exact ⟨(call.written (r := .error e) (by simp [split])).part, call.reason split⟩
    ruledOut := fun _ ended => call.not_ruledOut ended }

/-- A value is set, and read again. -/
theorem executes_set :
    let s : Setup := ⟨256, true, Settings.default⟩
    let vm := fun text : String => Action.vm (Text.Utf8.encode text.toList)
    let line := " set 1 +0 x  a  b "
    let c : Console.Command := .set 1 0 "x" "a  b"
    let as : List (Action Console.Output) := [vm "started 1\n", .start 1 (id <$> c.script),
      vm "#1 ok prog.pda|7|main|x\n", vm "#2 ok 5\n", vm "#3 ok\n", vm "#4 ok a  b\n"]
    OwnTickets as ∧ AllGiveUp as ∧ Console.Command.ofLine? line = .ok (some c) ∧
      .start 1 (id <$> c.script) ∈ as ∧
      s.sent as = Text.Utf8.encode
        "#1 stack 1\n#2 var 1 0 x\n#3 setvar 1 0 x a  b\n#4 var 1 0 x\n".toList ∧
      (s.log as).ended = [⟨1, .ok (.vars [⟨⟨1, 0, 1⟩, "x", "a  b"⟩])⟩] ∧
      ∃ start tr, s.Executes as start tr 1 c id := by
  intro s vm line c as
  have own : OwnTickets as := by decide
  have giveUp : AllGiveUp as := by
    intro t script hmem
    simp only [as, List.mem_cons, List.not_mem_nil, or_false, Action.start.injEq, vm,
      reduceCtorEq, false_or] at hmem
    obtain ⟨-, rfl⟩ := hmem
    exact (Operation.console c).givesUp.map id
  have parsed : Console.Command.ofLine? line = .ok (some c) := by decide +kernel
  have called : .start 1 (id <$> c.script) ∈ as := by simp [as]
  obtain ⟨-, before, later, tr, -, -, -, runs⟩ := executes s own giveUp parsed called
  exact ⟨own, giveUp, parsed, called, by decide +kernel, by decide +kernel, _, tr, runs⟩

/-- With no frame there, the stack is all that `vars` asks for. -/
example :
    let s : Setup := ⟨256, true, Settings.default⟩
    let vm := fun text : String => Action.vm (Text.Utf8.encode text.toList)
    let as : List (Action Console.Output) :=
      [vm "started 1\n", .start 1 (Console.Command.vars 1 none).script, vm "#1 ok\n"]
    s.sent as = Text.Utf8.encode "#1 stack 1\n".toList ∧
      (s.log as).ended = [⟨1, .error (.invalidArgument (.noSuchFrame 1 none))⟩] := by
  decide +kernel

end Setup

end Session

end Pushdown
