/-
  Pushdown/Proofs/Session/Course.lean
  ===================================
  **A call goes the way of its script.**  The traffic of a call is what its script asks for
  and what comes of it.  When the call is over, the script comes to the same result by the
  same exchanges (`OnCourse.ended`).  While it goes on, the lines that have gone out are
  commands that the script asks for, in its order and without a gap (`OnCourse.out`): a
  command that is asked for after another one has gone well stands behind it on the wire.
-/
import Pushdown.Proofs.Session.Traffic

namespace Pushdown

/-! ### The traffic of one call -/

/-- The lines of the call that have gone out are those of its exchanges; if one has failed,
    its line and the ones after it may be missing. -/
structure Written (tr : Traffic) (t : Ticket) : Prop where
  part : tr.sentBy t <+: (tr.exchanges t).map Prod.fst
  whole : (tr.exchanges t).AllOk → tr.sentBy t = (tr.exchanges t).map Prod.fst

theorem Exchanges.AllOk.snoc {es : Exchanges} (ok : es.AllOk) (c : Command) (payload : Payload) :
    Exchanges.AllOk (es ++ [(c, .ok payload)]) := by
  intro d e hmem
  rcases List.mem_append.mp hmem with hmem | hmem
  · exact ok d e hmem
  · cases List.mem_singleton.mp hmem

namespace Link

variable {l : Link} {t : Ticket}

theorem sentBy_traffic (l : Link) (t : Ticket) : l.traffic.sentBy t =
    ((l.grant.enters?.toList.map Sending.asked).filter (fun p => p.1 = t)).map Prod.snd := by
  rw [Traffic.sentBy, lines_traffic]

theorem exchanges_traffic (l : Link) (t : Ticket) :
    l.traffic.exchanges t = Traffic.exchanges l.returned?.toList t := by
  have hnone : Traffic.exchanges (l.grant.enters?.toList.map Passage.line) t = [] := by
    cases l.grant.enters? <;> simp [Traffic.exchanges, Traffic.exchange?]
  rw [traffic, Traffic.exchanges_append, hnone, List.nil_append]

/-- Unless a turn ends the call by a failure, no line of it gets lost. -/
theorem sentBy_turn (sound : l.Sound) (kept : ∀ e, l.turn.1 ≠ some (.command t (.error e))) :
    l.traffic.sentBy t ++ l.turn.2.unsentBy t = l.unsentBy t := by
  rw [sentBy_traffic, unsentBy, unsentBy, ← List.map_append, ← List.filter_append]
  rcases unsent_turn_eq sound with heq | ⟨u, c, e, hturn, hnone, hunsent⟩
  · rw [heq]
  · have hother : u ≠ t := by
      rintro rfl
      exact kept e hturn
    simp [hnone, hunsent, hother]

/-- Nothing goes out in a turn that was not waiting to go out. -/
theorem sentBy_traffic_prefix (sound : l.Sound) (t : Ticket) :
    l.traffic.sentBy t <+: l.unsentBy t := by
  rw [sentBy_traffic]
  rcases unsent_turn_eq sound with heq | ⟨v, d, e, -, hnone, -⟩
  · rw [unsentBy, ← heq, List.filter_append, List.map_append]
    exact List.prefix_append _ _
  · rw [hnone]
    exact List.nil_prefix

/-- What a turn means to one call: its command comes to an end, or it stays the same and the
    line may go out. -/
theorem traffic_turn (sound : l.Sound) (distinct : l.tickets.Nodup) (t : Ticket) :
    (∃ c outcome, l.turn.1 = some (.command t outcome) ∧ (t, c) ∈ l.asks ∧
      t ∉ l.turn.2.tickets ∧ l.traffic.exchanges t = [(c, outcome)] ∧
      l.traffic.sentBy t <+: l.unsentBy t ∧
      (∀ payload, outcome = .ok payload → l.traffic.sentBy t = l.unsentBy t)) ∨
    (∀ outcome, l.turn.1 ≠ some (.command t outcome)) ∧ l.traffic.exchanges t = [] ∧
      (∀ c, (t, c) ∈ l.asks → (t, c) ∈ l.turn.2.asks) ∧
      l.traffic.sentBy t ++ l.turn.2.unsentBy t = l.unsentBy t := by
  rw [exchanges_traffic]
  rcases l.asks_turn sound with ⟨u, c, outcome, hturn, hasks, hreturned⟩ | ⟨never, hasks, hreturned⟩
  · by_cases own : u = t
    · subst own
      have hfresh : u ∉ l.turn.2.tickets := by
        rw [← turn_tickets sound, hturn] at distinct
        exact (List.nodup_cons.mp distinct).1
      refine .inl ⟨c, outcome, hturn, by rw [hasks]; exact List.mem_cons_self, hfresh, ?_,
        sentBy_traffic_prefix sound u, ?_⟩
      · rw [hreturned]
        simp [Traffic.exchanges, Traffic.exchange?]
      · rintro payload rfl
        have hkept := sentBy_turn sound fun e h => by rw [hturn] at h; cases h
        rwa [unsentBy_of_not_mem hfresh, List.append_nil] at hkept
    · have never : ∀ result, l.turn.1 ≠ some (.command t result) := by
        intro result h
        rw [hturn] at h
        cases h
        exact own rfl
      refine .inr ⟨never, ?_, ?_, sentBy_turn sound fun e => never _⟩
      · rw [hreturned]
        simp [Traffic.exchanges, Traffic.exchange?, own]
      · intro d hd
        rw [hasks] at hd
        rcases List.mem_cons.mp hd with heq | hd
        · cases heq
          exact (own rfl).elim
        · exact hd
  · refine .inr ⟨never t, ?_, ?_, sentBy_turn sound fun e => never t _⟩
    · rw [hreturned]
      rfl
    · intro d hd
      rwa [hasks]

end Link

namespace Session

variable {α : Type} {S : Script α} {t : Ticket}

/-! ### Going the way of the script -/

/-- What there has been of this call is the way of this script. -/
structure OnCourse (S : Script α) (t : Ticket) (m : Moment α) (tr : Traffic) : Prop where
  waiting : ∀ w ∈ m.session.calls, w.ticket = t → ∃ turn c, (t, c) ∈ m.session.link.asks ∧
    S.Leaves (tr.exchanges t) (.send turn c w.next) ∧ (tr.exchanges t).AllOk ∧
    tr.sentBy t ++ m.session.link.unsentBy t = (tr.exchanges t).map Prod.fst ++ [c]
  running : ∀ script, m.running = some (t, script) → S.Leaves (tr.exchanges t) script ∧
    Written tr t ∧ ((tr.exchanges t).AllOk ∨ script.NeverSends)
  ended : ∀ result, .ended ⟨t, result⟩ ∈ m.log →
    t ∉ m.tickets ∧ S.Comes (tr.exchanges t) result ∧ Written tr t
  out : S.CanSend (tr.exchanges t) (tr.sentBy t)

namespace OnCourse

variable {m m' : Moment α} {tr : Traffic} {log : Happened α} {x : Session α}

/-- What does not concern the call does not change where it stands. -/
theorem of_same (course : OnCourse S t m tr) {more : Traffic} (silent : more.exchanges t = [])
    (unsent : more.sentBy t = [])
    (calls : ∀ w ∈ m'.session.calls, w.ticket = t → w ∈ m.session.calls)
    (asks : ∀ c, (t, c) ∈ m.session.link.asks → (t, c) ∈ m'.session.link.asks)
    (lines : m'.session.link.unsentBy t = m.session.link.unsentBy t)
    (running : ∀ script, m'.running = some (t, script) → m.running = some (t, script))
    (log : ∀ result, .ended ⟨t, result⟩ ∈ m'.log → .ended ⟨t, result⟩ ∈ m.log)
    (tickets : t ∈ m'.tickets → t ∈ m.tickets) : OnCourse S t m' (tr ++ more) := by
  have hexchanges : Traffic.exchanges (tr ++ more) t = tr.exchanges t := by simp [silent]
  have hsent : Traffic.sentBy (tr ++ more) t = tr.sentBy t := by simp [unsent]
  have hwritten : Written tr t → Written (tr ++ more) t := by
    intro written
    constructor
    · rw [hexchanges, hsent]
      exact written.part
    · rw [hexchanges, hsent]
      exact written.whole
  constructor
  · intro w hw own
    obtain ⟨turn, c, hasks, left, ok, hline⟩ := course.waiting w (calls w hw own) own
    rw [hexchanges, hsent, lines]
    exact ⟨turn, c, asks c hasks, left, ok, hline⟩
  · intro script hrun
    obtain ⟨left, written, ok⟩ := course.running script (running script hrun)
    rw [hexchanges]
    exact ⟨left, hwritten written, ok⟩
  · intro result hended
    obtain ⟨gone, comes, written⟩ := course.ended result (log result hended)
    rw [hexchanges]
    exact ⟨fun ht => gone (tickets ht), comes, hwritten written⟩
  · rw [hexchanges, hsent]
    exact course.out

/-- The same without any traffic. -/
theorem of_quiet (course : OnCourse S t m tr)
    (calls : ∀ w ∈ m'.session.calls, w.ticket = t → w ∈ m.session.calls)
    (asks : ∀ c, (t, c) ∈ m.session.link.asks → (t, c) ∈ m'.session.link.asks)
    (lines : m'.session.link.unsentBy t = m.session.link.unsentBy t)
    (running : ∀ script, m'.running = some (t, script) → m.running = some (t, script))
    (log : ∀ result, .ended ⟨t, result⟩ ∈ m'.log → .ended ⟨t, result⟩ ∈ m.log)
    (tickets : t ∈ m'.tickets → t ∈ m.tickets) : OnCourse S t m' tr := by
  have hsame : OnCourse S t m' (tr ++ []) :=
    course.of_same rfl rfl calls asks lines running log tickets
  rwa [List.append_nil] at hsame

/-- A call that goes on has its exchanges behind it, and nothing in the link. -/
theorem of_running {script : Script α} {rest : List Incoming}
    (left : S.Leaves (tr.exchanges t) script) (written : Written tr t)
    (ok : (tr.exchanges t).AllOk ∨ script.NeverSends)
    (alone : t ∉ x.calls.map Waiting.ticket) (going : ∀ result, .ended ⟨t, result⟩ ∉ log) :
    OnCourse S t ⟨log, x, rest, some (t, script)⟩ tr where
  waiting w hw own := (alone (List.mem_map.mpr ⟨w, hw, own⟩)).elim
  running next hrun := by
    obtain ⟨-, rfl⟩ := Prod.mk.inj (Option.some.inj hrun)
    exact ⟨left, written, ok⟩
  ended result hended := (going result hended).elim
  out := left.canSend written.part

theorem going (course : OnCourse S t m tr) (there : t ∈ m.tickets) (result : Except Error α) :
    .ended ⟨t, result⟩ ∉ m.log := by
  intro hended
  exact (course.ended result hended).1 there

end OnCourse

theorem not_ended_handleIncoming (x : Session α) (item : Incoming) (call : Ended α) :
    .ended call ∉ (x.handleIncoming item).1 := by
  cases item with
  | reply | malformed => exact List.not_mem_nil
  | event e =>
    simp only [handleIncoming, handleEvent]
    split <;> simp

/-- A call comes to its end when its script is done. -/
theorem ended_of_next {m m' : Moment α} {result : Except Error α} (step : Next m m')
    (ended : .ended ⟨t, result⟩ ∈ m'.log) : .ended ⟨t, result⟩ ∈ m.log ∨
      ∃ log x, m = ⟨log, x, [], some (t, .done result)⟩ ∧
        m' = between (log ++ [.ended ⟨t, result⟩]) x := by
  cases step with
  | @line log x item =>
    refine .inl ((List.mem_append.mp ended).resolve_right ?_)
    exact not_ended_handleIncoming x item _
  | looks | turnedAway => exact .inl ended
  | asks => exact .inl (by simpa [between] using ended)
  | closes => exact .inl (by simpa [close, tearDown] using ended)
  | @ends log x =>
    rcases List.mem_append.mp ended with hbefore | hnew
    · exact .inl hbefore
    · cases List.mem_singleton.mp hnew
      exact .inr ⟨log, x, rfl, rfl⟩
  | turns =>
    obtain ⟨calls, running, heq⟩ := awakened_eq _ _ _
    rw [heq] at ended
    exact .inl ended

section

variable {began : List Ticket} {log : Happened α} {x : Session α} {tr : Traffic}

theorem Staffed.alone {script : Script α} {u : Ticket}
    (staffed : Staffed began ⟨log, x, [], some (u, script)⟩) :
    u ∉ x.calls.map Waiting.ticket ∧ u ∉ x.link.tickets := by
  have hcalls : u ∉ x.calls.map Waiting.ticket := by
    intro hu
    exact (List.nodup_append.mp staffed.distinct).2.2 u hu u (by simp) rfl
  exact ⟨hcalls, fun hu => hcalls (staffed.staffed.mem_iff.mp hu)⟩

theorem onCourse_turnedAway {u : Ticket} {turn : Turn} {c : Command} {e : Error}
    {next : Except Error Payload → Script α}
    (staffed : Staffed began ⟨log, x, [], some (u, .send turn c next)⟩)
    (course : OnCourse S t ⟨log, x, [], some (u, .send turn c next)⟩ tr) :
    OnCourse S t ⟨log, x, [], some (u, next (.error e))⟩ (tr ++ [.outcome u c (.error e)]) := by
  by_cases own : u = t
  · subst own
    obtain ⟨left, written, ok⟩ := course.running _ rfl
    have hexchanges : Traffic.exchanges (tr ++ [.outcome u c (.error e)]) u =
        tr.exchanges u ++ [(c, .error e)] := by simp [Traffic.exchanges, Traffic.exchange?]
    have hsent : Traffic.sentBy (tr ++ [.outcome u c (.error e)]) u = tr.sentBy u := by
      simp [Traffic.sentBy, Traffic.lines, Traffic.line?]
    have hgives : ∀ e, (next (.error e)).NeverSends := (staffed.running _ _ rfl).1
    refine .of_running ?_ ⟨?_, ?_⟩ (.inr (hgives e)) staffed.alone.1 (course.going ?_)
    · rw [hexchanges]
      exact left.send _
    · rw [hexchanges, hsent, List.map_append]
      exact written.part.trans (List.prefix_append _ _)
    · intro allOk
      rw [hexchanges] at allOk
      exact (allOk c e (by simp)).elim
    · simp [Moment.tickets]
  · refine course.of_same ?_ ?_ (fun w hw _ => hw) (fun _ h => h) rfl ?_ (fun _ h => h) (fun h => h)
    · simp [Traffic.exchanges, Traffic.exchange?, own]
    · simp [Traffic.sentBy, Traffic.lines, Traffic.line?]
    · rintro script ⟨⟩
      exact (own rfl).elim

theorem onCourse_asks {u : Ticket} {turn : Turn} {c : Command}
    {next : Except Error Payload → Script α}
    (staffed : Staffed began ⟨log, x, [], some (u, .send turn c next)⟩)
    (course : OnCourse S t ⟨log, x, [], some (u, .send turn c next)⟩ tr) :
    OnCourse S t (between (log ++ [.request u c]) { x with
      link := x.link.enqueue ⟨u, .command c⟩
      calls := x.calls ++ [⟨u, next⟩] }) tr := by
  have hlog : ∀ result, .ended ⟨t, result⟩ ∈ log ++ [.request u c] →
      .ended ⟨t, result⟩ ∈ log := by
    intro result hended
    simpa using hended
  by_cases own : u = t
  · subst own
    obtain ⟨left, written, ok⟩ := course.running _ rfl
    have hok : (tr.exchanges u).AllOk := by
      rcases ok with hok | never
      · exact hok
      · exact never.elim
    obtain ⟨alone, absent⟩ := staffed.alone
    refine ⟨?_, ?_, ?_, course.out⟩
    · intro w hw hticket
      rcases List.mem_append.mp hw with hw | hw
      · exact (alone (List.mem_map.mpr ⟨w, hw, hticket⟩)).elim
      · obtain rfl := List.mem_singleton.mp hw
        refine ⟨turn, c, ?_, left, hok, ?_⟩
        · change (u, c) ∈ (x.link.enqueue ⟨u, .command c⟩).asks
          rw [Link.asks_enqueue]
          exact List.mem_append_right _ List.mem_cons_self
        · change _ ++ (x.link.enqueue ⟨u, .command c⟩).unsentBy u = _
          rw [Link.unsentBy_enqueue, Link.unsentBy_of_not_mem absent, written.whole hok]
          simp
    · rintro script ⟨⟩
    · intro result hended
      exact (course.going (by simp [Moment.tickets]) result (hlog result hended)).elim
  · refine course.of_quiet ?_ ?_ ?_ (fun _ h => by cases h) hlog ?_
    · intro w hw hticket
      rcases List.mem_append.mp hw with hw | hw
      · exact hw
      · obtain rfl := List.mem_singleton.mp hw
        exact (own hticket).elim
    · intro d hd
      change (t, d) ∈ (x.link.enqueue ⟨u, .command c⟩).asks
      rw [Link.asks_enqueue]
      exact List.mem_append_left _ hd
    · change (x.link.enqueue ⟨u, .command c⟩).unsentBy t = _
      rw [Link.unsentBy_enqueue, if_neg own, List.append_nil]
    · simp [Moment.tickets, between]

/-- The command of a call has come to its end, and the call goes on with what came of it. -/
theorem onCourse_awakened {c : Command} {outcome : Except Error Payload}
    (staffed : Staffed began (between log x)) (course : OnCourse S t (between log x) tr)
    (ended : x.link.turn.1 = some (.command t outcome)) (asks : (t, c) ∈ x.link.asks)
    (exchanges : x.link.traffic.exchanges t = [(c, outcome)])
    (part : x.link.traffic.sentBy t <+: x.link.unsentBy t)
    (whole : ∀ payload, outcome = .ok payload → x.link.traffic.sentBy t = x.link.unsentBy t) :
    OnCourse S t (awakened log { x with link := x.link.turn.2 } (some (.command t outcome)))
      (tr ++ x.link.traffic) := by
  obtain ⟨w, hfind, hw, own⟩ := staffed.exists_waiting (Link.mem_tickets_of_asks asks)
  have hcalls : t ∈ x.calls.map Waiting.ticket := List.mem_map.mpr ⟨w, hw, own⟩
  obtain ⟨turn, d, hd, left, ok, hline⟩ := course.waiting w hw own
  have hsame : d = c := by
    have hnodup : (x.link.asks.map Prod.fst).Nodup := staffed.tickets_nodup.sublist x.link.asks_sublist
    have heq := List.inj_on_of_nodup_map hnodup hd asks rfl
    exact congrArg Prod.snd heq
  subst hsame
  have hexchanges : Traffic.exchanges (tr ++ x.link.traffic) t =
      tr.exchanges t ++ [(d, outcome)] := by rw [Traffic.exchanges_append, exchanges]
  change tr.sentBy t ++ x.link.unsentBy t = _ at hline
  simp only [awakened, hfind]
  refine .of_running ?_ ⟨?_, ?_⟩ ?_ ?_ (course.going ?_)
  · rw [hexchanges]
    exact left.send outcome
  · rw [hexchanges, Traffic.sentBy_append, List.map_append, List.map_singleton, ← hline]
    exact (List.prefix_append_right_inj _).mpr part
  · intro allOk
    rw [hexchanges] at allOk
    rw [hexchanges, Traffic.sentBy_append, List.map_append, List.map_singleton, ← hline]
    cases outcome with
    | ok payload => rw [whole payload rfl]
    | error e => exact (allOk d e (by simp)).elim
  · rw [hexchanges]
    cases outcome with
    | ok payload => exact .inl (ok.snoc d payload)
    | error e => exact .inr ((staffed.waiting w hw).1 e)
  · rw [Link.map_filter_ticket]
    simp
  · simp [Moment.tickets, between, hcalls]

/-- When another call goes on, this one waits as before, or it is not there. -/
theorem onCourse_waits {calls : List (Waiting α)} {running : Option (Ticket × Script α)}
    (staffed : Staffed began (between log x)) (course : OnCourse S t (between log x) tr)
    (fewer : ∀ w ∈ calls, w ∈ x.calls) (other : ∀ script, running ≠ some (t, script))
    (exchanges : x.link.traffic.exchanges t = [])
    (asks : ∀ c, (t, c) ∈ x.link.asks → (t, c) ∈ x.link.turn.2.asks)
    (lines : x.link.traffic.sentBy t ++ x.link.turn.2.unsentBy t = x.link.unsentBy t) :
    OnCourse S t ⟨log, { x with link := x.link.turn.2, calls }, [], running⟩
      (tr ++ x.link.traffic) := by
  have hexchanges : Traffic.exchanges (tr ++ x.link.traffic) t = tr.exchanges t := by
    rw [Traffic.exchanges_append, exchanges, List.append_nil]
  have hquiet : t ∉ x.calls.map Waiting.ticket →
      Traffic.sentBy (tr ++ x.link.traffic) t = tr.sentBy t := by
    intro alone
    have habsent : t ∉ x.link.tickets := fun ht => alone (staffed.staffed.mem_iff.mp ht)
    rw [Link.unsentBy_of_not_mem habsent] at lines
    rw [Traffic.sentBy_append, (List.append_eq_nil_iff.mp lines).1, List.append_nil]
  constructor
  · intro w hw own
    obtain ⟨turn, c, hasks, left, ok, hline⟩ := course.waiting w (fewer w hw) own
    refine ⟨turn, c, asks c hasks, hexchanges ▸ left, hexchanges ▸ ok, ?_⟩
    rw [hexchanges, Traffic.sentBy_append, List.append_assoc, lines]
    exact hline
  · intro script hrun
    exact (other script hrun).elim
  · intro result hended
    obtain ⟨gone, comes, written⟩ := course.ended result hended
    have alone : t ∉ x.calls.map Waiting.ticket := fun ht => gone (List.mem_append_left _ ht)
    refine ⟨?_, hexchanges ▸ comes, ?_, ?_⟩
    · intro ht
      rcases List.mem_append.mp ht with ht | ht
      · obtain ⟨w, hw, own⟩ := List.mem_map.mp ht
        exact alone (List.mem_map.mpr ⟨w, fewer w hw, own⟩)
      · obtain ⟨p, hp, rfl⟩ := List.mem_map.mp ht
        exact other p.2 (Option.mem_toList.mp hp)
    · rw [hquiet alone, hexchanges]
      exact written.part
    · rw [hquiet alone, hexchanges]
      exact written.whole
  · rw [hexchanges]
    by_cases alone : t ∈ x.calls.map Waiting.ticket
    · obtain ⟨w, hw, own⟩ := List.mem_map.mp alone
      obtain ⟨turn, c, -, left, -, hline⟩ := course.waiting w hw own
      refine left.canSend_next ?_
      change tr.sentBy t ++ x.link.unsentBy t = _ at hline
      rw [← hline, Traffic.sentBy_append, ← lines, ← List.append_assoc]
      exact List.prefix_append _ _
    · rw [hquiet alone]
      exact course.out

theorem onCourse_turns (staffed : Staffed began (between log x))
    (course : OnCourse S t (between log x) tr) :
    OnCourse S t (awakened log { x with link := x.link.turn.2 } x.link.turn.1)
      (tr ++ x.link.traffic) := by
  have hsound : x.link.Sound := staffed.sound
  rcases Link.traffic_turn hsound staffed.tickets_nodup t with
    ⟨c, outcome, ended, asks, -, exchanges, part, whole⟩ | ⟨never, exchanges, asks, lines⟩
  · rw [ended]
    exact onCourse_awakened staffed course ended asks exchanges part whole
  · obtain ⟨calls, running, heq⟩ := awakened_eq log { x with link := x.link.turn.2 } x.link.turn.1
    have fewer : ∀ w ∈ calls, w ∈ x.calls := by
      intro w hw
      have hcalls := @awakened_calls _ log { x with link := x.link.turn.2 } x.link.turn.1 w
      rw [heq] at hcalls
      exact hcalls hw
    have other : ∀ script, running ≠ some (t, script) := by
      rintro script rfl
      obtain ⟨result, w, hturn, -⟩ := awakened_running (congrArg Moment.running heq)
      exact never result hturn
    rw [heq]
    exact onCourse_waits staffed course fewer other exchanges asks lines

theorem onCourse_line {item : Incoming} {rest : List Incoming} {running : Option (Ticket × Script α)}
    (course : OnCourse S t ⟨log, x, item :: rest, running⟩ tr) :
    OnCourse S t ⟨log ++ (x.handleIncoming item).1, (x.handleIncoming item).2, rest, running⟩
      (tr ++ []) := by
  have hlink : (∀ c, (t, c) ∈ x.link.asks → (t, c) ∈ (x.handleIncoming item).2.link.asks) ∧
      (x.handleIncoming item).2.link.unsentBy t = x.link.unsentBy t := by
    rcases handleIncoming_link_eq x item with hsame | ⟨reply, -, hresolve⟩
    · rw [hsame]
      exact ⟨fun _ h => h, rfl⟩
    · rw [hresolve, Link.asks_resolve, Link.unsentBy, Link.unsent_resolve]
      exact ⟨fun _ h => h, rfl⟩
  refine course.of_same rfl rfl ?_ hlink.1 hlink.2 (fun _ h => h) ?_ ?_
  · rw [handleIncoming_calls]
    exact fun w hw _ => hw
  · intro result hended
    rcases List.mem_append.mp hended with hended | hnew
    · exact hended
    · exact (not_ended_handleIncoming x item _ hnew).elim
  · simp [Moment.tickets]

theorem onCourse_ends {u : Ticket} {result : Except Error α}
    (staffed : Staffed began ⟨log, x, [], some (u, .done result)⟩)
    (course : OnCourse S t ⟨log, x, [], some (u, .done result)⟩ tr) :
    OnCourse S t (between (log ++ [.ended ⟨u, result⟩]) x) tr := by
  by_cases own : u = t
  · subst own
    obtain ⟨left, written, -⟩ := course.running _ rfl
    have hgone := staffed.alone.1
    refine ⟨?_, ?_, ?_, course.out⟩
    · intro w hw hticket
      exact (hgone (List.mem_map.mpr ⟨w, hw, hticket⟩)).elim
    · rintro script ⟨⟩
    · intro result' hended
      rcases List.mem_append.mp hended with hended | hended
      · exact (course.going (by simp [Moment.tickets]) result' hended).elim
      · cases List.mem_singleton.mp hended
        exact ⟨by simpa [Moment.tickets, between] using hgone, left.done, written⟩
  · refine course.of_quiet (fun _ h _ => h) (fun _ h => h) rfl (fun _ h => by cases h) ?_ ?_
    · intro result' hended
      rcases List.mem_append.mp hended with hended | hended
      · exact hended
      · cases List.mem_singleton.mp hended
        exact (own rfl).elim
    · intro ht
      exact List.mem_append_left _ (by simpa [Moment.tickets, between] using ht)

theorem onCourse_next {m m' : Moment α} (staffed : Staffed began m) (step : Next m m')
    (course : OnCourse S t m tr) : OnCourse S t m' (tr ++ m.traffic) := by
  cases step with
  | line => exact onCourse_line course
  | @looks log x u next =>
    rw [Moment.traffic, List.append_nil]
    by_cases own : u = t
    · subst own
      obtain ⟨left, written, ok⟩ := course.running _ rfl
      exact .of_running (left.look _) written (ok.imp_right fun never => never _)
        staffed.alone.1 (course.going (by simp [Moment.tickets]))
    · refine course.of_quiet (fun _ h _ => h) (fun _ h => h) rfl ?_ (fun _ h => h) (fun h => h)
      rintro script ⟨⟩
      exact (own rfl).elim
  | @turnedAway log x u turn c next e why =>
    simpa [Moment.traffic, why] using onCourse_turnedAway (e := e) staffed course
  | asks welcome =>
    have htraffic := onCourse_asks staffed course
    simpa [Moment.traffic, welcome] using htraffic
  | @closes log x u next =>
    rw [Moment.traffic, List.append_nil]
    have hlog : ∀ result, .ended ⟨t, result⟩ ∈ log ++ x.close.1 → .ended ⟨t, result⟩ ∈ log := by
      intro result hended
      simpa [close, tearDown] using hended
    by_cases own : u = t
    · subst own
      obtain ⟨left, written, ok⟩ := course.running _ rfl
      refine .of_running left.close written ok staffed.alone.1 fun result hended => ?_
      exact course.going (by simp [Moment.tickets]) result (hlog result hended)
    · refine course.of_quiet (fun _ h _ => h) (fun _ h => h) rfl ?_ hlog (fun h => h)
      rintro script ⟨⟩
      exact (own rfl).elim
  | ends =>
    rw [Moment.traffic, List.append_nil]
    exact onCourse_ends staffed course
  | turns => exact onCourse_turns staffed course

/-! ### Runs -/

/-- Nothing has been heard of a call that could be on the way of any script. -/
theorem OnCourse.unheard {m : Moment α} (any : ∀ S : Script α, OnCourse S t m tr) :
    tr.exchanges t = [] ∧ tr.sentBy t = [] ∧ ∀ result, .ended ⟨t, result⟩ ∉ m.log := by
  obtain ⟨later, r, ⟨hes, -⟩, -, hsent⟩ := (any (.done (.error .busy))).out
  rw [hes, List.map_nil, List.prefix_nil] at hsent
  refine ⟨(List.append_eq_nil_iff.mp hes).1, hsent, fun result hended => ?_⟩
  obtain ⟨-, ⟨-, hbusy⟩, -⟩ := (any (.done (.error .busy))).ended result hended
  obtain ⟨-, ⟨-, hclosed⟩, -⟩ := (any (.done (.error .connectionClosed))).ended result hended
  cases hbusy.symm.trans hclosed

theorem onCourse_arrived {a : Action α} {m : Moment α} (arrived : Arrived log x a m)
    (course : OnCourse S t (between log x) tr) (other : ∀ script, a ≠ .start t script) :
    OnCourse S t m tr := by
  cases arrived with
  | lines | nothing | timePasses | hangsUp | registers =>
    exact course.of_quiet (fun _ h _ => h) (fun _ h => h) rfl (fun _ h => by cases h)
      (fun _ h => h) fun h => h
  | streamEnds =>
    refine course.of_quiet (fun _ h _ => h) (fun _ h => h) rfl (fun _ h => by cases h) ?_
      fun h => h
    intro result hended
    simpa [between, tearDown] using hended
  | @starts u script =>
    have hother : u ≠ t := by
      rintro rfl
      exact other script rfl
    refine course.of_quiet (fun _ h _ => h) (fun _ h => h) rfl ?_ (fun _ h => h) ?_
    · rintro script ⟨⟩
      exact (hother rfl).elim
    · simp [Moment.tickets, between, hother.symm]
  | @leaves u =>
    by_cases own : u = t
    · subst own
      have hgone : ∀ w ∈ x.calls.filter (fun w => w.ticket != u), w.ticket ≠ u := by
        intro w hw
        simpa using (List.mem_filter.mp hw).2
      refine ⟨fun w hw hticket => (hgone w hw hticket).elim, fun _ h => (by cases h), ?_,
        course.out⟩
      intro result hended
      obtain ⟨-, comes, written⟩ := course.ended result hended
      refine ⟨?_, comes, written⟩
      simp [Moment.tickets, between]
    · refine course.of_quiet ?_ (fun _ => Link.asks_cancel own) (Link.unsentBy_cancel own)
        (fun _ h => by cases h) (fun _ h => h) ?_
      · intro w hw _
        exact (List.mem_filter.mp hw).1
      · intro ht
        simp only [Moment.tickets, between, Option.toList_none, List.map_nil, List.append_nil] at ht ⊢
        obtain ⟨w, hw, hticket⟩ := List.mem_map.mp ht
        exact List.mem_map.mpr ⟨w, (List.mem_filter.mp hw).1, hticket⟩

/-- A call that begins has its script before it. -/
theorem onCourse_starts (staffed : Staffed began (between log x)) (unknown : t ∉ began)
    (any : ∀ S : Script α, OnCourse S t (between log x) tr) :
    OnCourse S t ⟨log, x, [], some (t, S)⟩ tr := by
  obtain ⟨hexchanges, hsent, hlog⟩ := OnCourse.unheard any
  refine .of_running ?_ ⟨?_, ?_⟩ (.inl ?_) (fun ht => unknown (staffed.calls_known t ht)) hlog
  · rw [hexchanges]
    exact .start S
  · rw [hexchanges, hsent]
    exact List.nil_prefix
  · intro _
    rw [hexchanges, hsent]
    rfl
  · rw [hexchanges]
    exact fun _ _ => List.not_mem_nil

end

/-- The call, if it is there at all, is this script. -/
def IsScriptOf (as : List (Action α)) (t : Ticket) (S : Script α) : Prop :=
  ∀ script, .start t script ∈ as → script = S

theorem OwnTickets.isScriptOf {as : List (Action α)} (own : OwnTickets as)
    (called : .start t S ∈ as) : IsScriptOf as t S := by
  intro script started
  obtain ⟨before, later, rfl⟩ := List.append_of_mem called
  obtain ⟨before', later', split⟩ := List.append_of_mem started
  exact (own.unique split).2

/-- All calls go their way. -/
structure Tracked (as : List (Action α)) (m : Moment α) (tr : Traffic) : Prop where
  staffed : Staffed (ticketsOf as) m
  course : ∀ t S, IsScriptOf as t S → OnCourse S t m tr

namespace Tracked

variable {as : List (Action α)} {tr : Traffic} {log : Happened α} {x : Session α}

/-- Between two inputs, nothing but the pipe may change. -/
theorem withPipe (tracked : Tracked as (between log x) tr) (pipe : Pipe) :
    Tracked as (between log { x with link := { x.link with pipe } }) tr where
  staffed := tracked.staffed.of_same _ (tracked.staffed.sound.withPipe _) rfl rfl rfl
  course t S is := (tracked.course t S is).of_quiet (fun _ h _ => h) (fun _ h => h) rfl
    (fun _ h => by cases h) (fun _ h => h) fun h => h

theorem begun {a : Action α} (own : OwnTickets (as ++ [a])) (giveUp : AllGiveUp (as ++ [a]))
    (tracked : Tracked as (between log x) tr) : Tracked (as ++ [a]) (begun log x a) tr where
  staffed := Setup.staffed_begun own giveUp tracked.staffed
  course t S is := by
    have hearlier : IsScriptOf as t S := fun script h => is script (List.mem_append_left _ h)
    by_cases hstart : ∃ script, a = .start t script
    · obtain ⟨script, rfl⟩ := hstart
      obtain rfl : script = S := is script (by simp)
      have hfresh : t ∉ ticketsOf as := own.fresh rfl
      refine onCourse_starts tracked.staffed hfresh fun S' => tracked.course t S' ?_
      intro script' hmem
      exact (hfresh (List.mem_filterMap.mpr ⟨_, hmem, rfl⟩)).elim
    · exact onCourse_arrived (arrived_begun log x a) (tracked.course t S hearlier)
        fun script h => hstart ⟨script, h⟩

end Tracked

/-- **In every run all calls go the way of their scripts.** -/
theorem Setup.Carries.tracked {s : Setup} {as : List (Action α)} {m : Moment α} {tr : Traffic}
    (own : OwnTickets as) (giveUp : AllGiveUp as) (carries : s.Carries as m tr) :
    Tracked as m tr := by
  induction carries with
  | start =>
    refine ⟨s.staffed own giveUp, fun t S _ => ?_⟩
    refine ⟨fun w hw => (by cases hw), fun _ h => (by cases h), fun _ h => (by cases h), ?_⟩
    exact (Script.Leaves.start S).canSend List.nil_prefix
  | input carries a ih => exact ((ih own.of_append giveUp.of_append.1).withPipe _).begun own giveUp
  | next carries step ih =>
    have hbefore := ih own giveUp
    exact ⟨(kept_staffed _).next _ _ hbefore.staffed step,
      fun t S is => onCourse_next hbefore.staffed step (hbefore.course t S is)⟩
  | drain carries ih => exact (ih own giveUp).withPipe _

end Session

end Pushdown
