/-
  Pushdown/Proofs/Session/Withdrawal.lean
  =======================================
  **A call of a session that only waits is not noticed.**  What holds of a link
  (`Setup.untraced`) holds of a session as a whole: a call whose first command waits for
  the writer, and which is cancelled while it waits, leaves no trace.  The others go on in
  the same steps with the same outcomes, the same events are delivered, and what is left
  of the session is the same.

  Within an input the writer may be free for a moment.  A call that sends then, and would
  not wait, is turned away if another call is waiting.  But the call that is first in the
  queue at that moment does not stay there, so it is not one that is cancelled in the
  queue: it `Leaves`.
-/
import Pushdown.Proofs.Link.Withdrawal
import Pushdown.Proofs.Session.Noise

namespace Pushdown

namespace Session

variable {α : Type} {t : Ticket}

/-- The session without a call that waits. -/
def without (x : Session α) (t : Ticket) : Session α :=
  { x with link := x.link.without t, calls := x.calls.filter (fun w => w.ticket != t) }

/-! ### What comes to the same without the call -/

theorem handleIncoming_without (x : Session α) (item : Incoming) :
    (x.without t).handleIncoming item =
      ((x.handleIncoming item).1, (x.handleIncoming item).2.without t) := by
  cases item with
  | malformed => rfl
  | reply r => simp [handleIncoming, without, Link.resolve_without]
  | event e =>
    by_cases past : x.listeners.terminated = true
    · simp [handleIncoming, handleEvent, without, past]
    · simp [handleIncoming, handleEvent, without, past, deliver]

theorem handleAll_without (x : Session α) (items : List Incoming) :
    (x.without t).handleAll items =
      ((x.handleAll items).1, (x.handleAll items).2.without t) := by
  induction items generalizing x with
  | nil => rfl
  | cons item items ih => simp only [handleAll, handleIncoming_without, ih]

/-- Another call goes on as it would without this one, if it finds the link as idle. -/
theorem runScript_without {u : Ticket} (other : u ≠ t) (script : Script α) (x : Session α)
    (idle : (x.link.without t).isIdle = x.link.isIdle) :
    runScript u script (x.without t) =
      ((runScript u script x).1, (runScript u script x).2.without t) := by
  induction script generalizing x with
  | done result => rfl
  | look next ih => exact ih _ x idle
  | send turn c next ih =>
    have hrefusal : (x.without t).link.refusal? turn = x.link.refusal? turn :=
      Link.refusal?_without idle turn
    cases why : x.link.refusal? turn with
    | some e =>
      rw [why] at hrefusal
      simpa only [runScript, hrefusal, why] using ih _ x idle
    | none =>
      rw [why] at hrefusal
      have henqueue := Link.enqueue_without (l := x.link) ⟨u, .command c⟩ other
      have hcalls : (x.calls ++ [(⟨u, next⟩ : Waiting α)]).filter (fun w => w.ticket != t) =
          x.calls.filter (fun w => w.ticket != t) ++ [⟨u, next⟩] := by
        simp [other]
      simp only [runScript, hrefusal, why]
      simp only [without, henqueue, hcalls]
  | close next ih =>
    have hnext := ih x.close.2 idle
    simp only [runScript]
    exact congrArg (fun r => (x.close.1 ++ r.1, r.2)) hnext

theorem goOn_without {u : Ticket} (other : u ≠ t) (result : Except Error Payload) (x : Session α)
    (idle : (x.link.without t).isIdle = x.link.isIdle) :
    goOn u result (x.without t) = ((goOn u result x).1, (goOn u result x).2.without t) := by
  have hfind : (x.without t).calls.find? (fun w => w.ticket = u) =
      x.calls.find? (fun w => w.ticket = u) := by
    rw [without, List.find?_filter]
    congr 1
    funext w
    by_cases own : w.ticket = u <;> simp [own, other]
  cases hfound : x.calls.find? (fun w => w.ticket = u) with
  | none =>
    rw [hfound] at hfind
    simp only [goOn, hfind, hfound]
  | some w =>
    rw [hfound] at hfind
    have hrun := runScript_without other (w.next result)
      { x with calls := x.calls.filter (fun v => v.ticket != u) } idle
    have hcalls : (x.without t).calls.filter (fun v => v.ticket != u) =
        (x.calls.filter (fun v => v.ticket != u)).filter (fun v => v.ticket != t) := by
      simp [without, List.filter_filter, Bool.and_comm]
    simp only [goOn, hfind, hfound, hcalls]
    exact hrun

/-- An input that has to do with other calls only. -/
def Action.Spares (a : Action α) (t : Ticket) : Prop := a.ticket? ≠ some t ∧ a ≠ .cancel t

theorem perform_without {x : Session α} {a : Action α} (spares : a.Spares t)
    (busy : x.link.holder.isSome = true) :
    (x.without t).perform a = ((x.perform a).1, (x.perform a).2.without t) := by
  obtain ⟨hbegins, hcancels⟩ := spares
  cases a with
  | vm bytes =>
    cases reading : x.isReading with
    | false => simp [perform, receive, without, reading]
    | true =>
      have hless : (x.without t).isReading = true := reading
      rw [perform, perform, receive_eq_withInput hless, receive_eq_withInput reading,
        handleAll_without]
      rfl
  | vmEnd =>
    cases reading : x.isReading with
    | false => simp [perform, endInput, without, reading]
    | true =>
      simp only [perform, endInput, without, reading, if_true]
      rfl
  | start u script =>
    have hother : u ≠ t := fun heq => hbegins (by rw [heq]; rfl)
    exact runScript_without hother script x (Link.isIdle_without busy)
  | cancel u =>
    have hcalls : (x.without t).calls.filter (fun w => w.ticket != u) =
        (x.calls.filter (fun w => w.ticket != u)).filter (fun w => w.ticket != t) := by
      simp [without, List.filter_filter, Bool.and_comm]
    have hlink : (x.without t).link.cancel u = (x.link.cancel u).without t := Link.cancel_without
    simp only [perform, hcalls, hlink]
    rfl
  | advance | read | dropReader | listen | unlisten => rfl

end Session

/-! ### Leaving the queue -/

namespace Happened

variable {α : Type}

def requestOf? (t : Ticket) : Occurrence α → Option Command
  | .request u c => if u = t then some c else none
  | .event .. | .tearDown _ | .ended _ => none

/-- The commands with which the call has joined the queue. -/
def requestsOf (t : Ticket) (h : Happened α) : List Command := h.filterMap (requestOf? t)

theorem requestsOf_append (t : Ticket) (h k : Happened α) :
    requestsOf t (h ++ k) = h.requestsOf t ++ k.requestsOf t :=
  List.filterMap_append

theorem asked_append {t : Ticket} {h : Happened α} (asked : h.requestsOf t ≠ [])
    (k : Happened α) : requestsOf t (h ++ k) ≠ [] := by
  rw [requestsOf_append]
  exact List.append_ne_nil_of_left_ne_nil asked _

theorem requestsOf_le (t : Ticket) (h k : Happened α) :
    (h.requestsOf t).length ≤ (requestsOf t (h ++ k)).length := by
  rw [requestsOf_append, List.length_append]
  exact Nat.le_add_right _ _

end Happened

namespace Session

variable {α : Type} {t : Ticket} {began : List Ticket} {log : Happened α} {x : Session α}

/-- The call has been in the queue and is not there any more, unless with another command, or
    it will be the next to leave. -/
structure Leaves (t : Ticket) (m : Moment α) : Prop where
  asked : m.log.requestsOf t ≠ []
  gone : t ∈ m.session.link.waiters →
    2 ≤ (m.log.requestsOf t).length ∨ m.session.link.IsNext t

theorem Leaves.of_same {m m' : Moment α} (leaves : Leaves t m)
    (log : ∃ more, m'.log = m.log ++ more)
    (waiters : t ∈ m'.session.link.waiters → t ∈ m.session.link.waiters)
    (next : m.session.link.IsNext t → t ∈ m'.session.link.waiters → m'.session.link.IsNext t) :
    Leaves t m' := by
  obtain ⟨more, hlog⟩ := log
  constructor
  · rw [hlog]
    exact Happened.asked_append leaves.asked more
  · intro waits
    rcases leaves.gone (waiters waits) with twice | hnext
    · rw [hlog]
      exact Or.inl (Nat.le_trans twice (Happened.requestsOf_le t _ more))
    · exact Or.inr (next hnext waits)

theorem kept_leaves (t : Ticket) (began : List Ticket) :
    Kept fun m : Moment α => Staffed began m ∧ Leaves t m where
  next m m' h step := by
    refine ⟨(kept_staffed began).next m m' h.1 step, ?_⟩
    obtain ⟨staffed, leaves⟩ := h
    cases step with
    | @line log x item rest =>
      have hline : (x.handleIncoming item).2.link.queue = x.link.queue ∧
          (x.link.holder = none → (x.handleIncoming item).2.link.holder = none) := by
        rcases handleIncoming_link_eq x item with hsame | ⟨reply, -, hresolve⟩
        · rw [hsame]
          exact ⟨rfl, id⟩
        · rw [hresolve]
          exact ⟨Link.resolve_queue _ _, fun free => Link.resolve_free free _⟩
      refine leaves.of_same ⟨_, rfl⟩ ?_ ?_
      · intro waits
        simpa only [Link.waiters, hline.1] using waits
      · rintro ⟨free, q, rest, hqueue, own⟩ -
        exact ⟨hline.2 free, q, rest, hline.1.trans hqueue, own⟩
    | looks | turnedAway =>
      exact leaves.of_same ⟨[], (List.append_nil _).symm⟩ id fun next _ => next
    | closes => exact leaves.of_same ⟨_, rfl⟩ id fun next _ => next
    | ends => exact leaves.of_same ⟨_, rfl⟩ id fun next _ => next
    | @asks log x u turn c next welcome =>
      by_cases own : u = t
      · subst own
        have hlog : Happened.requestsOf u (log ++ [.request u c]) = log.requestsOf u ++ [c] := by
          rw [Happened.requestsOf_append]
          simp [Happened.requestsOf, Happened.requestOf?]
        have hasked : log.requestsOf u ≠ [] := leaves.asked
        refine ⟨by simp [between, hlog], fun _ => Or.inl ?_⟩
        have hpos := List.length_pos_iff.mpr hasked
        simp only [between, hlog, List.length_append, List.length_singleton]
        omega
      · refine leaves.of_same ⟨_, rfl⟩ ?_ ?_
        · intro waits
          simpa [between, Link.waiters, Link.enqueue, Ne.symm own] using waits
        · rintro ⟨free, q, rest, hqueue, hticket⟩ -
          have hmore : x.link.queue ++ [⟨u, .command c⟩] = q :: (rest ++ [⟨u, .command c⟩]) := by
            rw [show x.link.queue = q :: rest from hqueue, List.cons_append]
          exact ⟨free, q, _, hmore, hticket⟩
    | @turns log x =>
      obtain ⟨calls, running, heq⟩ := awakened_eq log { x with link := x.link.turn.2 } x.link.turn.1
      rw [heq]
      refine leaves.of_same ⟨[], (List.append_nil _).symm⟩ ?_ ?_
      · intro waits
        obtain ⟨q, hq, own⟩ := Link.mem_waiters_iff.mp waits
        exact Link.mem_waiters_iff.mpr ⟨q, (Link.turn_queue_sublist staffed.sound).subset hq, own⟩
      · intro next waits
        exact (Link.left_of_isNext staffed.sound staffed.tickets_nodup next waits).elim
  drain log x reading h :=
    ⟨(kept_staffed began).drain log x reading h.1,
      h.2.of_same ⟨[], (List.append_nil _).symm⟩ id fun next _ => next⟩

/-- What has left the queue when an input has arrived is gone. -/
theorem leaves_arrived {a : Action α} {m : Moment α} (arrived : Arrived log x a m)
    (asked : log.requestsOf t ≠ [])
    (gone : t ∈ m.session.link.waiters → 2 ≤ (log.requestsOf t).length) : Leaves t m := by
  have hlog : ∃ more, m.log = log ++ more := by
    cases arrived with
    | streamEnds => exact ⟨_, rfl⟩
    | _ => exact ⟨[], (List.append_nil _).symm⟩
  obtain ⟨more, hlog⟩ := hlog
  constructor
  · rw [hlog]
    exact Happened.asked_append asked more
  · intro waits
    rw [hlog]
    exact Or.inl (Nat.le_trans (gone waits) (Happened.requestsOf_le t log more))

theorem waiters_arrived {a : Action α} {m : Moment α} (arrived : Arrived log x a m)
    (waits : t ∈ m.session.link.waiters) : t ∈ x.link.waiters := by
  cases arrived with
  | @leaves u =>
    obtain ⟨q, hq, own⟩ := Link.mem_waiters_iff.mp waits
    exact Link.mem_waiters_iff.mpr ⟨q, (Link.cancel_queue_sublist _ _).subset hq, own⟩
  | _ => exact waits

theorem not_mem_waiters_cancel {l : Link} (distinct : l.tickets.Nodup) :
    t ∉ (l.cancel t).waiters := by
  intro waits
  have hmem : t ∈ (l.cancel t).tickets := List.mem_append_right _ waits
  rw [Link.tickets_cancel distinct] at hmem
  simpa using (List.mem_filter.mp hmem).2

/-- A call that stays in the queue is not the next to leave it. -/
theorem stays_of_not_leaves {m : Moment α} (asked : m.log.requestsOf t ≠ [])
    (stays : ¬Leaves t m) :
    t ∈ m.session.link.waiters ∧ (m.log.requestsOf t).length < 2 ∧
      ¬m.session.link.IsNext t := by
  have hwaits : t ∈ m.session.link.waiters := by
    by_contra gone
    exact stays ⟨asked, fun waits => (gone waits).elim⟩
  refine ⟨hwaits, ?_, ?_⟩
  · by_contra twice
    exact stays ⟨asked, fun _ => Or.inl (Nat.le_of_not_lt twice)⟩
  · intro next
    exact stays ⟨asked, fun _ => Or.inr next⟩

/-! ### Settling without the call -/

/-- Behind another call it makes no difference to the next who sends. -/
theorem isIdle_of_notNext {l : Link} (waits : t ∈ l.waiters) (notNext : ¬l.IsNext t) :
    (l.without t).isIdle = l.isIdle := by
  cases held : l.holder with
  | some h => exact Link.isIdle_without (by rw [held]; rfl)
  | none =>
    rcases hqueue : l.queue with _ | ⟨q, rest⟩
    · simp [Link.waiters, hqueue] at waits
    · have hother : (q.ticket != t) = true := by
        simpa using fun (heq : q.ticket = t) => notNext ⟨held, _, _, hqueue, heq⟩
      simp [Link.isIdle, Link.without, held, hqueue, hother]

theorem settleIn_without {n : Nat} (staffed : Staffed began (between log x))
    (asked : log.requestsOf t ≠ [])
    (stays : ¬Leaves t (between (log ++ (settleIn n x).1) (settleIn n x).2)) :
    settleIn n (x.without t) = ((settleIn n x).1, (settleIn n x).2.without t) := by
  -- that the call has not left in the end is known for each turn: who leaves is gone for good
  induction n generalizing log x with
  | zero => rfl
  | succ n ih =>
    have hsound : x.link.Sound := staffed.sound
    have hdistinct : x.link.tickets.Nodup := staffed.tickets_nodup
    have hturn := (kept_staffed began).next _ _ staffed .turns
    have hless : ∀ link, ({ x.without t with link := link.without t } : Session α) =
        ({ x with link } : Session α).without t := fun _ => rfl
    have hlink : (x.without t).link = x.link.without t := rfl
    rcases hended : x.link.turn with ⟨_ | ⟨u, result⟩ | u, link⟩
    · simp only [settleIn, hended, List.append_nil] at stays
      have hstays := (stays_of_not_leaves asked stays).1
      have notNext : ¬x.link.IsNext t := by
        refine (Link.notNext_of_stays hsound hdistinct ?_).1
        rwa [hended]
      have hwithout := Link.turn_without hsound notNext
      rw [hended] at hwithout
      simp only [settleIn, hlink, hwithout, hended, hless]
    · rw [hended] at hturn
      -- the call is still there after this turn
      have hafter : ¬Leaves t (awakened log { x with link } (some (.command u result))) := by
        intro leaves
        have kept := (kept_leaves (α := α) t began).toKeptWithin
        have hgone := kept.settleIn n (kept.goOn ⟨hturn, leaves⟩)
        refine stays ?_
        simpa [settleIn, hended, List.append_assoc] using hgone.2
      obtain ⟨calls, running, heq⟩ := awakened_eq log { x with link } (some (.command u result))
      rw [heq] at hafter
      obtain ⟨hwaits, -, hnext⟩ := stays_of_not_leaves (m := ⟨log, _, [], running⟩) asked hafter
      obtain ⟨notNext, other⟩ := Link.notNext_of_stays hsound hdistinct
        (show t ∈ x.link.turn.2.waiters by rwa [hended])
      have hother : u ≠ t := other (.command u result) (by rw [hended])
      have hwithout := Link.turn_without hsound notNext
      rw [hended] at hwithout
      have hgoOn := goOn_without hother result { x with link } (isIdle_of_notNext hwaits hnext)
      have hrest := ih ((kept_staffed began).goOn hturn) (Happened.asked_append asked _)
        (by simpa [settleIn, hended, List.append_assoc] using stays)
      simp only [settleIn, hlink, hwithout, hended, hless, hgoOn, hrest]
    · have hcommand := (Link.AllCommands.turn staffed.commands hsound).2 u
      exact (hcommand (congrArg Prod.fst hended)).elim

theorem Staffed.other (staffed : Staffed began (between log x)) (waits : t ∈ x.link.waiters)
    {h : Holder} (held : x.link.holder = some h) : h.ticket ≠ t := by
  rintro rfl
  have hdistinct : x.link.tickets.Nodup := staffed.tickets_nodup
  rw [Link.tickets_eq, held] at hdistinct
  exact (List.nodup_cons.mp hdistinct).1 waits

theorem perform_cancel (staffed : Staffed began (between log x)) (waits : t ∈ x.link.waiters) :
    x.perform (.cancel t) = ([], x.without t) := by
  have hlink := Link.cancel_eq_without fun h held => staffed.other waits held
  simp only [perform, hlink]
  rfl

theorem Staffed.without (staffed : Staffed began (between log x)) (waits : t ∈ x.link.waiters) :
    Staffed began (between log (x.without t)) := by
  have arrived := arrived_begun log x (.cancel t)
  have hbegun : begun log x (.cancel t) = between log (x.without t) := by
    change between (log ++ (x.perform (.cancel t)).1) (x.perform (.cancel t)).2 = _
    rw [perform_cancel staffed waits, List.append_nil]
  rw [hbegun] at arrived
  have hmore := staffed_arrived arrived staffed (fun _ h => by cases h) (fun _ _ h => by cases h)
  simpa [Action.ticket?] using hmore

theorem settle_without (staffed : Staffed began (between log x))
    (asked : log.requestsOf t ≠ [])
    (stays : ¬Leaves t (between (log ++ x.settle.1) x.settle.2)) (waits : t ∈ x.link.waiters) :
    (x.without t).settle = (x.settle.1, x.settle.2.without t) := by
  have hless := staffed.without waits
  have hcalls : 2 * (x.without t).calls.length + 2 ≤ 2 * x.calls.length + 2 :=
    Nat.add_le_add_right (Nat.mul_le_mul_left 2 (List.length_filter_le _ _)) 2
  rw [settle, ← settleIn_of_le hless (effort_lt hless) hcalls]
  exact settleIn_without staffed asked stays

/-- An input comes to the same without a call that stays in the queue. -/
theorem step_without {a : Action α} (spares : a.Spares t) (busy : x.link.holder.isSome = true)
    (staffed : Staffed began (begun log (x.opened a) a)) (asked : log.requestsOf t ≠ [])
    (stays : ¬Leaves t (between (log ++ (x.step a).1.happened) (x.step a).2)) :
    (x.without t).step a = ((x.step a).1, (x.step a).2.without t) := by
  have hopened : (x.without t).opened a = (x.opened a).without t := rfl
  have hperform := perform_without (x := x.opened a) spares busy
  have hperformed := (kept_staffed began).perform staffed
  have hasked := Happened.asked_append asked ((x.opened a).perform a).1
  generalize hy : (x.opened a).perform a = performed at hperform hperformed hasked
  obtain ⟨first, y⟩ := performed
  have hstep : x.step a = (⟨y.settle.2.link.drain.1, first ++ y.settle.1⟩,
      { y.settle.2 with link := y.settle.2.link.drain.2.setReading x.link.pipe.reading }) := by
    rw [opened] at hy
    simp only [step, hy]
  -- reading by the VM does not matter
  have hstays : ¬Leaves t (between ((log ++ first) ++ y.settle.1) y.settle.2) := by
    intro leaves
    refine stays (leaves.of_same ⟨[], ?_⟩ ?_ ?_)
    · simp [between, hstep]
    · intro waits
      rw [hstep] at waits
      exact waits
    · intro next _
      rw [hstep]
      exact next
  have hwaits : t ∈ y.link.waiters := by
    by_contra gone
    have leaves : Leaves t (between (log ++ first) y) := ⟨hasked, fun waits => (gone waits).elim⟩
    exact hstays ((kept_leaves t began).settle ⟨hperformed, leaves⟩).2
  have hsettle := settle_without hperformed hasked hstays hwaits
  rw [← hopened, opened] at hperform
  rw [hstep]
  simp only [step, hperform, hsettle]
  rfl

theorem run_length (x : Session α) (as : List (Action α)) : (x.run as).1.length = as.length := by
  induction as generalizing x with
  | nil => rfl
  | cons a as ih => simp [run, ih]

namespace Setup

variable {s : Setup} {before mid later : List (Action α)} {script : Script α} {c : Command}

/-! ### Runs without the call -/

/-- While the call waits, the run with it and the run without it show the same. -/
structure Unnoticed (s : Setup) (before mid : List (Action α)) (t : Ticket) (script : Script α)
    (c : Command) : Prop where
  after : s.after (before ++ mid) = (s.after (before ++ .start t script :: mid)).without t
  reports : ∃ reports, reports.length = mid.length ∧
    s.reports (before ++ mid) = s.reports before ++ reports ∧
    s.reports (before ++ .start t script :: mid) =
      s.reports before ++ ⟨[], [.request t c]⟩ :: reports

theorem unnoticed_nil (own : OwnTickets (before ++ [.start t script]))
    (giveUp : AllGiveUp (before ++ [.start t script]))
    (busy : (s.after before).link.holder.isSome = true)
    {next : Except Error Payload → Script α}
    (first : script.opening? (s.after before).states = some ⟨.wait, c, next⟩) :
    s.Unnoticed before [] t script c := by
  have hstaffed := s.staffed own.of_append giveUp.of_append.1
  have hrest := s.atRest own.of_append giveUp.of_append.1
  obtain ⟨h, held⟩ := Option.isSome_iff_exists.mp busy
  have hrun := runScript_of_opening (t := t) first (hrest.holder_stuck h held).1
  have hstep := step_of_perform (a := .start t script) rfl hrun
    (hstaffed.sound.enqueue fun _ => ⟨c, rfl⟩) (hrest.withQueue busy _) rfl
  have hfresh : t ∉ (s.after before).calls.map Waiting.ticket := by
    intro hmem
    have hbegan := hstaffed.known t (List.mem_append_left _ hmem)
    exact own.fresh rfl hbegan
  have hlink : ((s.after before).link.enqueue ⟨t, .command c⟩).without t =
      (s.after before).link := by
    have habsent : t ∉ (s.after before).link.waiters := fun waits =>
      hfresh (hstaffed.staffed.mem_iff.mp (List.mem_append_right _ waits))
    have hless : ((s.after before).link.enqueue ⟨t, .command c⟩).without t =
        (s.after before).link.without t := by
      simp [Link.enqueue, Link.without]
    rw [hless, Link.without_eq_self habsent]
  have hcalls : ((s.after before).calls ++ [(⟨t, next⟩ : Waiting α)]).filter
      (fun w => w.ticket != t) = (s.after before).calls := by
    simp [Link.filter_of_absent hfresh]
  constructor
  · rw [List.append_nil, after_snoc, hstep]
    simp only [without, hlink, hcalls]
  · refine ⟨[], rfl, by simp, ?_⟩
    rw [reports_append]
    simp only [run, hstep]

theorem asked_append {as : List (Action α)} (asked : Happened.requestsOf t (s.log as) ≠ [])
    (bs : List (Action α)) : Happened.requestsOf t (s.log (as ++ bs)) ≠ [] := by
  rw [log_append]
  exact Happened.asked_append asked _

theorem busy_of_waiter {as : List (Action α)} (rest : (s.after as).link.AtRest)
    (waits : t ∈ (s.after as).link.waiters) : (s.after as).link.holder.isSome = true := by
  cases held : (s.after as).link.holder with
  | some h => rfl
  | none =>
    rw [Link.waiters, rest.nobody_waits held] at waits
    cases waits

theorem notNext {as : List (Action α)} (rest : (s.after as).link.AtRest) :
    ¬(s.after as).link.IsNext t := by
  rintro ⟨free, q, queue, hqueue, -⟩
  rw [rest.nobody_waits free] at hqueue
  cases hqueue

/-- The call is still in the queue, with its first command. -/
def Stays (s : Setup) (as : List (Action α)) (t : Ticket) : Prop :=
  ¬Leaves t (between (s.log as) (s.after as))

theorem stays_of_once {as : List (Action α)} (rest : (s.after as).link.AtRest)
    (waits : t ∈ (s.after as).link.waiters)
    (once : (Happened.requestsOf t (s.log as)).length = 1) : s.Stays as t := by
  intro leaves
  rcases leaves.gone waits with twice | next
  · have hone : (Happened.requestsOf t (between (s.log as) (s.after as)).log).length = 1 := once
    omega
  · exact notNext rest next

/-- A call that stays through an input has stayed before, and the input has spared it. -/
theorem stays_of_snoc {as : List (Action α)} {a : Action α} (own : OwnTickets (as ++ [a]))
    (giveUp : AllGiveUp (as ++ [a])) (began : t ∈ ticketsOf as)
    (asked : Happened.requestsOf t (s.log as) ≠ []) (stays : s.Stays (as ++ [a]) t) :
    s.Stays as t ∧ a.Spares t := by
  have hopened := s.staffed_opened own giveUp
  have hbegun := staffed_begun own giveUp hopened
  have arrived := arrived_begun (s.log as) ((s.after as).opened a) a
  -- what has left the queue when the input has arrived does not come back
  have hback : ¬Leaves t (begun (s.log as) ((s.after as).opened a) a) := by
    intro leaves
    have hafter := (kept_leaves t _).step ⟨hbegun, leaves⟩
    rw [← log_snoc, ← after_snoc] at hafter
    exact stays hafter.2
  refine ⟨?_, ?_, ?_⟩
  · intro leaves
    refine hback (leaves_arrived arrived asked fun waits => ?_)
    have hwaits : t ∈ (s.after as).link.waiters :=
      waiters_arrived (x := (s.after as).opened a) arrived waits
    refine (leaves.gone hwaits).resolve_right ?_
    exact notNext (s.atRest own.of_append giveUp.of_append.1)
  · intro begins
    exact own.fresh begins began
  · rintro rfl
    refine hback (leaves_arrived arrived asked fun waits => ?_)
    exact (not_mem_waiters_cancel hopened.tickets_nodup waits).elim

theorem mem_ticketsOf_start : t ∈ ticketsOf (before ++ .start t script :: mid) :=
  List.mem_filterMap.mpr ⟨.start t script, List.mem_append_right _ List.mem_cons_self, rfl⟩

theorem unnoticed_snoc {a : Action α}
    (own : OwnTickets (before ++ .start t script :: (mid ++ [a])))
    (giveUp : AllGiveUp (before ++ .start t script :: (mid ++ [a])))
    (asked : Happened.requestsOf t (s.log (before ++ .start t script :: mid)) ≠ [])
    (stays : s.Stays (before ++ .start t script :: (mid ++ [a])) t)
    (stayed : s.Stays (before ++ .start t script :: mid) t) (spares : a.Spares t)
    (unnoticed : s.Unnoticed before mid t script c) :
    s.Unnoticed before (mid ++ [a]) t script c := by
  have hsplit : before ++ .start t script :: (mid ++ [a]) =
      (before ++ .start t script :: mid) ++ [a] := by simp
  have hless : before ++ (mid ++ [a]) = (before ++ mid) ++ [a] := by simp
  obtain ⟨hafter, reports, hlength, hreports, hreports'⟩ := unnoticed
  rw [hsplit] at own giveUp stays
  have hbegun := staffed_begun own giveUp (s.staffed_opened own giveUp)
  have hwaits := (stays_of_not_leaves asked stayed).1
  have busy := busy_of_waiter (s.atRest own.of_append giveUp.of_append.1) hwaits
  rw [Stays, log_snoc, after_snoc] at stays
  have hstep := step_without spares busy hbegun asked stays
  rw [← hafter] at hstep
  constructor
  · rw [hsplit, hless, after_snoc, after_snoc, hstep]
  · refine ⟨reports ++ [((s.after (before ++ mid)).step a).1], by simp [hlength], ?_, ?_⟩
    · rw [hless, reports_append, hreports, List.append_assoc]
      rfl
    · rw [hsplit, reports_append, hreports', hstep, List.append_assoc, List.cons_append]
      rfl

/-- The call of a session that is to be cancelled: it begins while another call has the writer,
    and at first it wants to send this command and waits for its turn. -/
structure Queues (s : Setup) (before : List (Action α)) (script : Script α) (c : Command) :
    Prop where
  busy : (s.after before).link.holder.isSome = true
  opening : ∃ next, script.opening? (s.after before).states = some ⟨.wait, c, next⟩

theorem asked_of_queues (own : OwnTickets (before ++ .start t script :: mid))
    (giveUp : AllGiveUp (before ++ .start t script :: mid)) (queues : s.Queues before script c) :
    s.Unnoticed before [] t script c ∧
      Happened.requestsOf t (s.log (before ++ .start t script :: mid)) ≠ [] := by
  have hsplit : before ++ .start t script :: mid = (before ++ [.start t script]) ++ mid := by simp
  rw [hsplit] at own giveUp ⊢
  obtain ⟨next, first⟩ := queues.opening
  have hnil := unnoticed_nil own.of_append giveUp.of_append.1 queues.busy first
  refine ⟨hnil, asked_append ?_ mid⟩
  obtain ⟨reports, -, -, hreports⟩ := hnil.reports
  have hlog : s.log (before ++ [.start t script]) =
      (s.reports (before ++ [.start t script])).flatMap Report.happened := rfl
  rw [hlog, hreports, List.flatMap_append, Happened.requestsOf_append, List.flatMap_cons,
    Happened.requestsOf_append]
  simp [Happened.requestsOf, Happened.requestOf?]

/-- While a call of that kind stays it has always stayed. -/
theorem stayed (rest : List (Action α))
    (own : OwnTickets (before ++ .start t script :: (mid ++ rest)))
    (giveUp : AllGiveUp (before ++ .start t script :: (mid ++ rest)))
    (queues : s.Queues before script c)
    (stays : s.Stays (before ++ .start t script :: (mid ++ rest)) t) :
    s.Stays (before ++ .start t script :: mid) t := by
  induction rest using List.reverseRecOn with
  | nil => rwa [List.append_nil] at stays
  | append_singleton rest a ih =>
    have hsplit : before ++ .start t script :: (mid ++ (rest ++ [a])) =
        (before ++ .start t script :: (mid ++ rest)) ++ [a] := by simp
    rw [hsplit] at own giveUp stays
    have asked := (asked_of_queues own.of_append giveUp.of_append.1 queues).2
    have hstays := (stays_of_snoc own giveUp mem_ticketsOf_start asked stays).1
    exact ih own.of_append giveUp.of_append.1 hstays

theorem unnoticed (own : OwnTickets (before ++ .start t script :: mid))
    (giveUp : AllGiveUp (before ++ .start t script :: mid)) (queues : s.Queues before script c)
    (stays : s.Stays (before ++ .start t script :: mid) t) :
    s.Unnoticed before mid t script c := by
  induction mid using List.reverseRecOn with
  | nil => exact (asked_of_queues own giveUp queues).1
  | append_singleton mid a ih =>
    have hsplit : before ++ .start t script :: (mid ++ [a]) =
        (before ++ .start t script :: mid) ++ [a] := by simp
    have hown : OwnTickets (before ++ .start t script :: mid) := (hsplit ▸ own).of_append
    have hgiveUp : AllGiveUp (before ++ .start t script :: mid) := (hsplit ▸ giveUp).of_append.1
    have asked := (asked_of_queues hown hgiveUp queues).2
    obtain ⟨stayed, spares⟩ :=
      stays_of_snoc (hsplit ▸ own) (hsplit ▸ giveUp) mem_ticketsOf_start asked (hsplit ▸ stays)
    exact unnoticed_snoc own giveUp asked stays stayed spares (ih hown hgiveUp stayed)

/-- The run with the call and the run without it show the same to everybody else. -/
structure Untraced (s : Setup) (before mid later : List (Action α)) (t : Ticket)
    (script : Script α) (c : Command) : Prop where
  /-- What comes of the input with which the call begins is that it joins the queue, nothing
      comes of the input with which it is cancelled, and the others have the same reports. -/
  reports : ∃ first meanwhile last : List (Report α),
    first.length = before.length ∧ meanwhile.length = mid.length ∧
      s.reports (before ++ mid ++ later) = first ++ meanwhile ++ last ∧
      s.reports (before ++ .start t script :: mid ++ .cancel t :: later) =
        first ++ ⟨[], [.request t c]⟩ :: meanwhile ++ ⟨[], []⟩ :: last
  /-- While the call waits the session is the same but for the call. -/
  meanwhile : ∀ n, s.after (before ++ mid.take n) =
    (s.after (before ++ .start t script :: mid.take n)).without t
  after : s.after (before ++ .start t script :: mid ++ .cancel t :: later) =
    s.after (before ++ mid ++ later)

/-- A call that is cancelled while it waits with its first command leaves no trace. -/
theorem untraced (own : OwnTickets (before ++ .start t script :: mid))
    (giveUp : AllGiveUp (before ++ .start t script :: mid)) (queues : s.Queues before script c)
    (waits : t ∈ (s.after (before ++ .start t script :: mid)).link.waiters)
    (once : (Happened.requestsOf t (s.log (before ++ .start t script :: mid))).length = 1) :
    s.Untraced before mid later t script c := by
  have hrest := s.atRest own giveUp
  have hstaffed := s.staffed own giveUp
  obtain ⟨hafter, reports, hlength, hreports, hreports'⟩ :=
    unnoticed own giveUp queues (stays_of_once hrest waits once)
  have hcancel : (s.after (before ++ .start t script :: mid)).step (.cancel t) =
      (⟨[], []⟩, s.after (before ++ mid)) := by
    rw [hafter]
    refine step_of_perform rfl (perform_cancel hstaffed waits)
      (hstaffed.without waits).sound ?_ rfl
    exact hrest.withQueue (busy_of_waiter hrest waits) _
  have hlater : (s.after (before ++ .start t script :: mid)).run (.cancel t :: later) =
      (⟨[], []⟩ :: ((s.after (before ++ mid)).run later).1,
        ((s.after (before ++ mid)).run later).2) := by
    simp only [run, hcancel]
  constructor
  · refine ⟨s.reports before, reports, ((s.after (before ++ mid)).run later).1,
      run_length _ _, hlength, ?_, ?_⟩
    · rw [reports_append, hreports]
    · rw [reports_append, hreports', hlater]
  · intro n
    have hprefix : mid.take n ++ mid.drop n = mid := List.take_append_drop n mid
    have hstays := stays_of_once hrest waits once
    rw [← hprefix] at own giveUp hstays
    have hstayed := stayed _ own giveUp queues hstays
    have hmid : before ++ .start t script :: (mid.take n ++ mid.drop n) =
        (before ++ .start t script :: mid.take n) ++ mid.drop n := by simp
    rw [hmid] at own giveUp
    exact (unnoticed own.of_append giveUp.of_append.1 queues hstayed).after
  · rw [after_append _ (before ++ .start t script :: mid), hlater,
      after_append _ (before ++ mid)]

end Setup

/-! ### The theorem -/

/-- A link and a session forget the calls that are cancelled while they wait. -/
structure Forgets (link : Pushdown.Setup) (s : Setup) (α : Type) : Prop where
  /-- A call of the link that begins while another one has the writer, and is cancelled
      while it is in the queue. -/
  link : ∀ {before mid later : List Link.Action} {t : Ticket} {c : Command},
    Pushdown.OwnTickets (before ++ .send t .wait c :: mid) →
    (link.after before).holder.isSome = true →
    t ∈ (link.after (before ++ .send t .wait c :: mid)).waiters →
    link.Untraced before mid later t c
  /-- A call of the session that begins likewise, and is cancelled while it is in the queue
      with its first command. -/
  session : ∀ {before mid later : List (Action α)} {t : Ticket} {script : Script α}
      {c : Command},
    OwnTickets (before ++ .start t script :: mid) →
    AllGiveUp (before ++ .start t script :: mid) →
    s.Queues before script c →
    t ∈ (s.after (before ++ .start t script :: mid)).link.waiters →
    ((s.log (before ++ .start t script :: mid)).requestsOf t).length = 1 →
    s.Untraced before mid later t script c
  /-- All operations give up after a failure. -/
  operations : ∀ {β : Type} (op : Operation β) (f : β → α), (f <$> op.script).GivesUp

/-- **A call that is cancelled while it waits leaves no trace.** -/
theorem forgets (link : Pushdown.Setup) (s : Setup) : Forgets link s α where
  link own busy waits := link.untraced own busy waits
  session own giveUp queues waits once := s.untraced own giveUp queues waits once
  operations := by
    intro β op f
    exact op.givesUp.map f

/-- The second of three calls goes away, and the third gets its token: on a link, and in a
    session in which the two others are answered after that. -/
theorem forgets_second :
    let link : Pushdown.Setup := ⟨64, true, some 5000⟩
    let s : Setup := ⟨64, true, Settings.default⟩
    let asks := fun t : Ticket => Action.start t Target.vmState
    let vm := fun text : String => Action.vm (Text.Utf8.encode text.toList)
    let answers := [vm "#1 ok running\n", vm "#2 ok stopped\n"]
    link.Untraced [.send 1 .wait .threads] [.send 3 .wait .threads] [] 2 .threads ∧
      s.Untraced [asks 1] [asks 3] answers 2 Target.vmState (.state none) ∧
      (s.log ([asks 1] ++ .start 2 Target.vmState :: [asks 3] ++ .cancel 2 :: answers)).ended =
        [⟨1, .ok "running"⟩, ⟨3, .ok "stopped"⟩] := by
  intro link s asks vm answers
  have forgotten : Forgets link s String := forgets link s
  have own : OwnTickets ([asks 1] ++ .start 2 Target.vmState :: [asks 3]) := by
    decide
  have giveUp : AllGiveUp ([asks 1] ++ .start 2 Target.vmState :: [asks 3]) := by
    have hstate : (Target.vmState).GivesUp := Operation.vmState.givesUp
    intro t script hmem
    simp only [asks, List.cons_append, List.nil_append, List.mem_cons, List.not_mem_nil, or_false,
      Action.start.injEq] at hmem
    rcases hmem with ⟨-, rfl⟩ | ⟨-, rfl⟩ | ⟨-, rfl⟩
    · exact hstate
    · exact hstate
    · exact hstate
  have queues : s.Queues [asks 1] Target.vmState (.state none) :=
    ⟨by decide +kernel, _, rfl⟩
  refine ⟨?_, ?_, by decide +kernel⟩
  · exact forgotten.link (by decide) (by decide +kernel) (by decide +kernel)
  · exact forgotten.session own giveUp queues (by decide +kernel) (by decide +kernel)

end Session

end Pushdown
