/-
  Pushdown/Proofs/Session/Torn.lean
  =================================
  **After the end.**  A session that is torn down has all its parts at their end, and of
  this nothing comes back (`IsTorn`).  A call whose script closes the session on all its
  ways does not come to its end before (`Setup.Passes.closesAtEnd`).

  What is left then are the calls that still wait for something.  All that comes back to
  them is that the connection is closed, in the same step, and none of them sends anything
  more (`Setup.Carries.aftermath`).
-/
import Pushdown.Proofs.Session.Course
import Pushdown.Proofs.Session.Origin

namespace Pushdown

/-! ### A session that is torn down -/

namespace Session

variable {α : Type}

/-- All parts of the session are at their end. -/
structure IsTorn (x : Session α) : Prop where
  closed : x.link.closed = true
  shut : x.link.pipe.shut = true
  stopped : x.isReading = false
  terminated : x.states.session = .terminated
  noThreads : x.states.threads = []
  told : x.listeners.terminated = true

theorem isTorn_close (x : Session α) : x.close.2.IsTorn where
  closed := rfl
  shut := rfl
  stopped := rfl
  terminated := rfl
  noThreads := rfl
  told := by
    change (x.listeners.dispatch (fun _ _ => []) .terminated).2.terminated = true
    rw [Listeners.dispatch_terminated, decide_eq_true rfl, Bool.or_true]

namespace IsTorn

variable {x : Session α}

/-- It does not matter what becomes of the calls, nor what happens in the link. -/
theorem withLink (torn : x.IsTorn) {y : Session α} (closed : y.link.closed = true)
    (shut : y.link.pipe.shut = true) (reading : y.isReading = x.isReading)
    (states : y.states = x.states) (listeners : y.listeners = x.listeners) : y.IsTorn :=
  ⟨closed, shut, reading.trans torn.stopped, states ▸ torn.terminated, states ▸ torn.noThreads,
    listeners ▸ torn.told⟩

theorem handleIncoming (torn : x.IsTorn) (item : Incoming) :
    (x.handleIncoming item).2.IsTorn := by
  cases item with
  | malformed => exact torn
  | event e =>
    simp only [Session.handleIncoming, handleEvent, torn.told, if_true]
    exact torn
  | reply reply =>
    have hclosed := Link.begin_closed (.resolve reply) torn.closed
    rw [Link.begin_eq _ (by simp)] at hclosed
    refine torn.withLink hclosed ?_ rfl rfl rfl
    change (x.link.resolve reply).pipe.shut = true
    rw [Link.resolve_pipe]
    exact torn.shut

end IsTorn

theorem shut_turn {l : Link} (sound : l.Sound) (isClosed : l.closed = true)
    (shut : l.pipe.shut = true) : l.turn.2.pipe.shut = true := by
  rw [← Link.grant_closed sound] at isClosed
  rw [← Link.grant_pipe sound] at shut
  have turned := Link.turned_turn sound
  generalize l.turn = r at turned ⊢
  cases turned with
  | idle | refused | dismissed => exact shut
  | shuts => rfl
  | goesOn _ isOpen | ended _ isOpen => cases isOpen.symm.trans isClosed

theorem isTorn_next {m m' : Moment α} (sound : m.session.link.Sound) (step : Next m m')
    (torn : m.session.IsTorn) : m'.session.IsTorn := by
  cases step with
  | line => exact torn.handleIncoming _
  | looks | turnedAway | ends => exact torn
  | asks => exact torn.withLink torn.closed torn.shut rfl rfl rfl
  | @closes log x => exact x.isTorn_close
  | turns =>
    obtain ⟨calls, running, heq⟩ := awakened_eq _ _ _
    rw [heq]
    exact torn.withLink (Link.turn_closed sound torn.closed)
      (shut_turn sound torn.closed torn.shut) rfl rfl rfl

theorem isTorn_arrived {log : Happened α} {x : Session α} {a : Action α} {m : Moment α}
    (arrived : Arrived log x a m) (torn : x.IsTorn) : m.session.IsTorn := by
  cases arrived with
  | lines reading | streamEnds reading => cases torn.stopped.symm.trans reading
  | nothing | starts => exact torn
  | @leaves t =>
    have hclosed := Link.begin_closed (.cancel t) torn.closed
    rw [Link.begin_eq _ (by simp)] at hclosed
    refine torn.withLink hclosed ?_ rfl rfl rfl
    change (x.link.cancel t).pipe.shut = true
    rw [cancel_pipe]
    exact torn.shut
  | timePasses | hangsUp => exact torn.withLink torn.closed torn.shut rfl rfl rfl
  | registers c =>
    exact ⟨torn.closed, torn.shut, torn.stopped, torn.terminated, torn.noThreads,
      (Listeners.change_terminated _ c).trans torn.told⟩

/-- Once torn down, for ever torn down. -/
theorem IsTorn.awaiting {s : Setup} {as : List (Action α)} (torn : (s.after as).IsTorn)
    (a : Action α) : (s.awaiting as a).IsTorn :=
  torn.withLink torn.closed torn.shut rfl rfl rfl

theorem IsTorn.drain {x : Session α} (torn : x.IsTorn) (reading : Bool) :
    ({ x with link := x.link.drain.2.setReading reading } : Session α).IsTorn :=
  torn.withLink torn.closed ((Link.drain_shut x.link).trans torn.shut) rfl rfl rfl

/-! ### Scripts that close the session -/

end Session

/-- Whichever way it goes, the script closes the session before it comes to its end. -/
def Script.Closes {α : Type} : Script α → Prop
  | .done _ => False
  | .look next => ∀ s, (next s).Closes
  | .send _ _ next => ∀ outcome, (next outcome).Closes
  | .close _ => True

namespace Session

variable {α : Type} {s : Setup} {as : List (Action α)} {m : Moment α} {t : Ticket}

/-- The call will close the session, or the session is torn down. -/
structure ClosesAtEnd (t : Ticket) (m : Moment α) : Prop where
  waiting : ∀ w ∈ m.session.calls, w.ticket = t →
    (∀ outcome, (w.next outcome).Closes) ∨ m.session.IsTorn
  running : ∀ script, m.running = some (t, script) → script.Closes ∨ m.session.IsTorn
  ended : ∀ result, .ended ⟨t, result⟩ ∈ m.log → m.session.IsTorn

theorem closesAtEnd_next {m' : Moment α} (sound : m.session.link.Sound) (step : Next m m')
    (closes : ClosesAtEnd t m) : ClosesAtEnd t m' := by
  by_cases torn : m.session.IsTorn
  · have htorn := isTorn_next sound step torn
    exact ⟨fun _ _ _ => .inr htorn, fun _ _ => .inr htorn, fun _ _ => htorn⟩
  obtain ⟨waiting, running, ended⟩ := closes
  have hrunning : ∀ script, m.running = some (t, script) → script.Closes :=
    fun script hrun => (running script hrun).resolve_right torn
  have hwaiting : ∀ w ∈ m.session.calls, w.ticket = t → ∀ outcome, (w.next outcome).Closes :=
    fun w hw own => (waiting w hw own).resolve_right torn
  refine ⟨fun w hw own => ?_, fun script hrun => ?_, fun result hended => ?_⟩
  · cases step with
    | line =>
      rw [handleIncoming_calls] at hw
      exact .inl (hwaiting w hw own)
    | looks | turnedAway | ends => exact .inl (hwaiting w hw own)
    | asks =>
      rcases List.mem_append.mp hw with hw | hw
      · exact .inl (hwaiting w hw own)
      · obtain rfl := List.mem_singleton.mp hw
        subst own
        exact .inl (hrunning _ rfl)
    | @closes log x => exact .inr x.isTorn_close
    | turns =>
      have hcalls := awakened_calls hw
      exact .inl (hwaiting w hcalls own)
  · cases step with
    | line | asks | ends => cases hrun
    | looks | turnedAway =>
      cases hrun
      exact .inl (hrunning _ rfl _)
    | @closes log x => exact .inr x.isTorn_close
    | turns =>
      obtain ⟨outcome, w, -, hw, own, rfl⟩ := awakened_running hrun
      exact .inl (hwaiting w hw own outcome)
  · rcases ended_of_next step hended with hbefore | ⟨log, x, rfl, -⟩
    · exact (torn (ended result hbefore)).elim
    · exact (hrunning _ rfl).elim

theorem closesAtEnd_arrived {log : Happened α} {x : Session α} {a : Action α}
    (arrived : Arrived log x a m) (closes : ClosesAtEnd t (between log x))
    (starts : ∀ script, a = .start t script → script.Closes) : ClosesAtEnd t m := by
  by_cases torn : x.IsTorn
  · have htorn := isTorn_arrived arrived torn
    exact ⟨fun _ _ _ => .inr htorn, fun _ _ => .inr htorn, fun _ _ => htorn⟩
  have hwaiting : ∀ w ∈ x.calls, w.ticket = t → ∀ outcome, (w.next outcome).Closes :=
    fun w hw own => (closes.waiting w hw own).resolve_right torn
  have hended : ∀ result, .ended ⟨t, result⟩ ∉ log :=
    fun result hended => torn (closes.ended result hended)
  cases arrived with
  | starts =>
    refine ⟨fun w hw own => .inl (hwaiting w hw own), ?_, fun r h => (hended r h).elim⟩
    rintro script ⟨⟩
    exact .inl (starts _ rfl)
  | streamEnds =>
    refine ⟨fun w hw own => .inl (hwaiting w hw own), fun _ h => (by cases h), fun r h => ?_⟩
    exact (hended r (by simpa [between, tearDown] using h)).elim
  | leaves =>
    exact ⟨fun w hw own => .inl (hwaiting w (List.mem_filter.mp hw).1 own),
      fun _ h => (by cases h), fun r h => (hended r h).elim⟩
  | _ =>
    exact ⟨fun w hw own => .inl (hwaiting w hw own), fun _ h => (by cases h),
      fun r h => (hended r h).elim⟩

/-- **A call that closes the session does not end before the session is torn down.** -/
theorem Setup.Passes.closesAtEnd (passes : s.Passes as m)
    (closes : ∀ script, .start t script ∈ as → script.Closes) : ClosesAtEnd t m := by
  induction passes with
  | start => exact ⟨fun w hw => (by cases hw), fun _ h => (by cases h), fun _ h => (by cases h)⟩
  | @input as passed a ih =>
    have hbefore := ih fun script h => closes script (List.mem_append_left _ h)
    have hopened : ClosesAtEnd t (between (s.log as) (s.awaiting as a)) := by
      refine ⟨fun w hw own => ?_, fun _ h => (by cases h), fun r h => ?_⟩
      · exact (hbefore.waiting w hw own).imp_right fun torn => torn.awaiting a
      · exact IsTorn.awaiting (hbefore.ended r h) a
    refine closesAtEnd_arrived (arrived_begun _ _ a) hopened ?_
    rintro script rfl
    exact closes script (by simp)
  | next passed step ih => exact closesAtEnd_next passed.sound step (ih closes)
  | drain passed ih =>
    have hbefore := ih closes
    refine ⟨fun w hw own => ?_, fun _ h => (by cases h), fun r h => ?_⟩
    · exact (hbefore.waiting w hw own).imp_right fun torn => torn.drain _
    · exact IsTorn.drain (hbefore.ended r h) _

/-! ### What still comes back -/

theorem traffic_of_torn (sound : m.session.link.Sound) (torn : m.session.IsTorn) {p : Passage}
    (passes : p ∈ m.traffic) : ∃ u c, p = .outcome u c (.error .connectionClosed) := by
  obtain ⟨log, x, lines, running⟩ := m
  have isClosed : x.link.closed = true := torn.closed
  cases lines with
  | cons item rest => cases passes
  | nil =>
    rcases running with _ | ⟨u, _ | _ | ⟨turn, d, next⟩ | _⟩
    · have hgrant := (Link.grant_closed sound).trans isClosed
      rw [show Moment.traffic ⟨log, x, [], none⟩ = x.link.traffic from rfl, Link.traffic,
        Link.enters?_of_closed hgrant] at passes
      have hreturned : x.link.returned? = some p := by simpa using passes
      rcases Link.asks_turn sound with ⟨u, c, outcome, hturn, -, hsome⟩ | ⟨-, -, hnone⟩
      · rw [hsome] at hreturned
        obtain rfl := Option.some.inj hreturned
        have turned := Link.turned_turn sound
        generalize x.link.turn = r at turned hturn
        cases turned with
        | idle | goesOn | shuts => cases hturn
        | refused | dismissed =>
          cases hturn
          exact ⟨_, c, rfl⟩
        | ended _ isOpen => cases isOpen.symm.trans hgrant
      · cases hnone.symm.trans hreturned
    · cases passes
    · cases passes
    · have hrefusal : x.link.refusal? turn = some .connectionClosed := by
        cases turn <;> simp [Link.refusal?, isClosed]
      rw [Moment.traffic] at passes
      simp only [hrefusal, Option.map_some, Option.toList_some, List.mem_singleton] at passes
      exact ⟨u, d, passes⟩
    · cases passes

/-! ### Calls on their way to the end -/

/-- The call is over, or it goes on without sending anything more. -/
def IsEnding (m : Moment α) (t : Ticket) : Prop :=
  (∃ script, m.running = some (t, script) ∧ script.NeverSends) ∨ ∃ r, .ended ⟨t, r⟩ ∈ m.log

theorem log_subset_next {m' : Moment α} (step : Next m m') : m.log ⊆ m'.log := by
  rcases Setup.grows_next step with heq | ⟨o, heq⟩
  · exact heq ▸ List.Subset.refl _
  · exact heq ▸ List.subset_append_left _ _

theorem IsEnding.next {m' : Moment α} (ending : IsEnding m t) (step : Next m m') :
    IsEnding m' t := by
  rcases ending with ⟨script, hrun, never⟩ | ⟨r, ended⟩
  · cases step with
    | line | turns => cases hrun
    | looks =>
      obtain ⟨rfl, rfl⟩ := Prod.mk.inj (Option.some.inj hrun)
      exact .inl ⟨_, rfl, never _⟩
    | turnedAway | asks =>
      obtain ⟨rfl, rfl⟩ := Prod.mk.inj (Option.some.inj hrun)
      exact never.elim
    | closes =>
      obtain ⟨rfl, rfl⟩ := Prod.mk.inj (Option.some.inj hrun)
      exact .inl ⟨_, rfl, never⟩
    | @ends _ _ _ result =>
      obtain ⟨rfl, rfl⟩ := Prod.mk.inj (Option.some.inj hrun)
      exact .inr ⟨result, by simp [between]⟩
  · exact .inr ⟨r, log_subset_next step ended⟩

/-- A call that waits goes on when its command is over, and only then. -/
theorem turns_waiting {began : List Ticket} {log : Happened α} {x : Session α} {w : Waiting α}
    (staffed : Staffed began (between log x)) (waits : w ∈ x.calls) :
    w ∈ (awakened log { x with link := x.link.turn.2 } x.link.turn.1).session.calls ∨
    ∃ c outcome, .outcome w.ticket c outcome ∈ x.link.traffic ∧
      (awakened log { x with link := x.link.turn.2 } x.link.turn.1).running =
        some (w.ticket, w.next outcome) := by
  have hsound : x.link.Sound := staffed.sound
  rcases Link.asks_turn hsound with ⟨u, c, outcome, hturn, hasks, hreturned⟩ | ⟨never, -⟩
  · have hu : u ∈ x.link.tickets := by
      refine Link.mem_tickets_of_asks (c := c) ?_
      rw [hasks]
      exact List.mem_cons_self
    obtain ⟨v, hfind, hv, own⟩ := staffed.exists_waiting hu
    simp only [hturn, awakened, hfind]
    by_cases hticket : w.ticket = u
    · obtain rfl := List.inj_on_of_nodup_map staffed.calls_nodup waits hv (hticket.trans own.symm)
      refine .inr ⟨c, outcome, ?_, by rw [hticket]⟩
      rw [Link.traffic, hreturned, hticket]
      simp
    · exact .inl (List.mem_filter.mpr ⟨waits, by simpa using hticket⟩)
  · left
    unfold awakened
    split
    · next u outcome hturn => exact (never u outcome hturn).elim
    · exact waits

/-! ### What becomes of the other calls -/

/-- In this step the session was torn down while these calls were waiting, and since then
    this has come back. -/
structure Aftermath (s : Setup) (step : List (Action α)) (calls : List (Waiting α))
    (as : List (Action α)) (m : Moment α) (rest : Traffic) : Prop where
  torn : m.session.IsTorn
  failed : ∀ p ∈ rest, ∃ u c, p = .outcome u c (.error .connectionClosed)
  calls : ∀ w ∈ calls, as = step ∧ w ∈ m.session.calls ∨
    (∃ c, .outcome w.ticket c (.error .connectionClosed) ∈ rest) ∧ IsEnding m w.ticket ∧
      (as ≠ step → ∃ r, .ended ⟨w.ticket, r⟩ ∈ s.log step)

theorem Aftermath.next {began : List Ticket} {step : List (Action α)} {calls : List (Waiting α)}
    {m' : Moment α} {rest : Traffic} (after : Aftermath s step calls as m rest)
    (staffed : Staffed began m) (next : Next m m') :
    Aftermath s step calls as m' (rest ++ m.traffic) where
  torn := isTorn_next staffed.sound next after.torn
  failed := by
    intro p hp
    rcases List.mem_append.mp hp with hp | hp
    · exact after.failed p hp
    · exact traffic_of_torn staffed.sound after.torn hp
  calls := by
    intro w hw
    rcases after.calls w hw with ⟨now, waits⟩ | ⟨⟨c, came⟩, ending, isOver⟩
    · cases next with
      | line => exact .inl ⟨now, by rwa [handleIncoming_calls]⟩
      | looks | turnedAway | ends | closes => exact .inl ⟨now, waits⟩
      | asks => exact .inl ⟨now, List.mem_append_left _ waits⟩
      | @turns log x =>
        rcases turns_waiting staffed waits with still | ⟨c, outcome, came, hrun⟩
        · exact .inl ⟨now, still⟩
        · obtain ⟨u, d, heq⟩ := traffic_of_torn staffed.sound after.torn came
          obtain ⟨-, -, rfl⟩ := Passage.outcome.inj heq
          refine .inr ⟨⟨c, List.mem_append_right _ came⟩, .inl ⟨_, hrun, ?_⟩,
            fun later => (later now).elim⟩
          exact (staffed.waiting w waits).1 _
    · exact .inr ⟨⟨c, List.mem_append_left _ came⟩, ending.next next, isOver⟩

theorem ended_of_arrived {log : Happened α} {x : Session α} {a : Action α} {call : Ended α}
    (arrived : Arrived log x a m) : .ended call ∈ m.log ↔ .ended call ∈ log := by
  cases arrived with
  | streamEnds => simp [between, tearDown]
  | _ => rfl

/-- When a closed link is at rest, there are no calls. -/
theorem Setup.no_calls (own : OwnTickets as) (giveUp : AllGiveUp as)
    (isClosed : (s.after as).link.closed = true) :
    (s.after as).calls = [] ∧ (s.after as).link.tickets = [] := by
  have hrest := (s.atRest own giveUp).toSettled
  have hfree : (s.after as).link.holder = none := by
    cases held : (s.after as).link.holder with
    | none => rfl
    | some h => cases isClosed.symm.trans (hrest.holder_stuck h held).1
  have htickets : (s.after as).link.tickets = [] := by
    simp [Link.tickets, hfree, hrest.nobody_waits hfree]
  have hperm : (s.after as).link.tickets.Perm ((s.after as).calls.map Waiting.ticket) :=
    (s.staffed own giveUp).staffed
  rw [htickets] at hperm
  exact ⟨List.map_eq_nil_iff.mp (List.nil_perm.mp hperm), htickets⟩

/-- **What comes back after a call has torn the session down.** -/
theorem Setup.Carries.aftermath {tr : Traffic} {r : Except Error α} (own : OwnTickets as)
    (giveUp : AllGiveUp as) (carries : s.Carries as m tr)
    (closes : ∀ script, .start t script ∈ as → script.Closes) (ended : .ended ⟨t, r⟩ ∈ m.log) :
    ∃ step log x first rest, step <+: as ∧
      s.Carries step ⟨log, x, [], some (t, .done r)⟩ first ∧ x.IsTorn ∧
      tr = first ++ rest ∧ Aftermath s step x.calls as m rest := by
  induction carries with
  | start => cases ended
  | @input as tr carries a ih =>
    have arrived := arrived_begun (s.log as) (s.awaiting as a) a
    obtain ⟨step, log, x, first, rest, earlier, hcarries, htorn, rfl, after⟩ :=
      ih own.of_append giveUp.of_append.1
        (fun script h => closes script (List.mem_append_left _ h)) ((ended_of_arrived arrived).mp ended)
    have hcalls := (s.no_calls own.of_append giveUp.of_append.1 after.torn.closed).1
    refine ⟨step, log, x, first, rest, earlier.trans (List.prefix_append _ _), hcarries, htorn, rfl,
      isTorn_arrived arrived (after.torn.awaiting a), after.failed, fun w hw => .inr ?_⟩
    rcases after.calls w hw with ⟨-, waits⟩ | ⟨came, ending, isOver⟩
    · -- by the end of an input all calls are over
      rw [show (between (s.log as) (s.after as)).session.calls = [] from hcalls] at waits
      cases waits
    · rcases ending with ⟨script, hrun, -⟩ | ⟨r', hended⟩
      · cases hrun
      · refine ⟨came, .inr ⟨r', (ended_of_arrived arrived).mpr hended⟩, fun _ => ?_⟩
        by_cases now : as = step
        · exact ⟨r', now ▸ hended⟩
        · exact isOver now
  | @next as m m' tr carries step ih =>
    have staffed := (carries.tracked own giveUp).staffed
    rcases ended_of_next step ended with before | ⟨log, x, rfl, rfl⟩
    · obtain ⟨first, log, x, tr₁, rest, earlier, hcarries, htorn, rfl, after⟩ :=
        ih own giveUp closes before
      exact ⟨first, log, x, tr₁, rest ++ m.traffic, earlier, hcarries, htorn,
        List.append_assoc _ _ _, after.next staffed step⟩
    · -- this is the step in which the call comes to its end
      have htorn : x.IsTorn :=
        ((carries.passes.closesAtEnd closes).running _ rfl).resolve_left id
      exact ⟨as, log, x, tr, [], List.prefix_rfl, carries, htorn, rfl, htorn,
        fun p hp => (by cases hp), fun w hw => .inl ⟨rfl, hw⟩⟩
  | drain carries ih =>
    obtain ⟨step, log, x, first, rest, earlier, hcarries, htorn, rfl, after⟩ :=
      ih own giveUp closes ended
    exact ⟨step, log, x, first, rest, earlier, hcarries, htorn, rfl, after.torn.drain _,
      after.failed, after.calls⟩

end Session

end Pushdown
