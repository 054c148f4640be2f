/-
  Pushdown/Proofs/Session/Traffic.lean
  ====================================
  **What goes out and what comes back.**  Between the calls of a session and its link
  there is *traffic*: lines go out, and for every command something comes back to its
  call, be it a payload or a failure.  `Setup.Carries` follows a run from moment to moment
  and keeps the traffic beside it.

  In a turn at most one line goes out and at most one command comes to an end, that of the
  oldest call (`Link.asks_turn`).  A command that ends well has had its line sent
  (`Link.unsent_turn_eq`).
-/
import Pushdown.Proofs.Script.Course
import Pushdown.Proofs.Session.Delivered
import Pushdown.Proofs.Session.Lines
import Pushdown.Proofs.Session.Rest

namespace Pushdown

/-! ### Traffic -/

/-- Something that passes between the calls and the link. -/
inductive Passage where
  /-- A line goes out. -/
  | line (p : Sending)
  /-- A command of this call has come to its end. -/
  | outcome (ticket : Ticket) (command : Command) (outcome : Except Error Payload)

abbrev Traffic := List Passage

namespace Traffic

def line? : Passage → Option Sending
  | .line p => some p
  | .outcome .. => none

def exchange? (t : Ticket) : Passage → Option (Command × Except Error Payload)
  | .line _ => none
  | .outcome u c outcome => if u = t then some (c, outcome) else none

/-- The lines that have gone out. -/
def lines (tr : Traffic) : List Sending := tr.filterMap line?

/-- The commands of a call with what has come of them. -/
def exchanges (tr : Traffic) (t : Ticket) : Exchanges := tr.filterMap (exchange? t)

theorem mem_exchanges {tr : Traffic} {t : Ticket} {c : Command}
    {outcome : Except Error Payload} :
    (c, outcome) ∈ tr.exchanges t ↔ .outcome t c outcome ∈ tr := by
  constructor
  · intro h
    obtain ⟨p, hp, heq⟩ := List.mem_filterMap.mp h
    cases p with
    | line p => cases heq
    | outcome u d result =>
      by_cases own : u = t
      · rw [exchange?, if_pos own] at heq
        cases heq
        exact own ▸ hp
      · rw [exchange?, if_neg own] at heq
        cases heq
  · intro h
    exact List.mem_filterMap.mpr ⟨_, h, if_pos rfl⟩

/-- The commands of a call whose lines have gone out. -/
def sentBy (tr : Traffic) (t : Ticket) : List Command :=
  ((tr.lines.map Sending.asked).filter (fun p => p.1 = t)).map Prod.snd

variable (tr tr' : Traffic) (t : Ticket)

@[simp] theorem lines_append : lines (tr ++ tr') = tr.lines ++ lines tr' :=
  List.filterMap_append

@[simp] theorem exchanges_append : exchanges (tr ++ tr') t = tr.exchanges t ++ exchanges tr' t :=
  List.filterMap_append

@[simp] theorem sentBy_append : sentBy (tr ++ tr') t = tr.sentBy t ++ sentBy tr' t := by
  simp [sentBy]

end Traffic

/-! ### The commands of a link -/

namespace Link

variable {l g : Link}

/-- The commands of which nothing has come yet, the oldest first. -/
def asks (l : Link) : List (Ticket × Command) :=
  l.holder.toList.map (fun h => (h.ticket, h.request.command)) ++
    l.queue.filterMap Queued.asked?

/-- What comes back to a call in a turn. -/
def returned? (l : Link) : Option Passage :=
  match l.turn.1, l.asks with
  | some (.command t outcome), (_, c) :: _ => some (.outcome t c outcome)
  | _, _ => none

/-- What passes in a turn. -/
def traffic (l : Link) : Traffic :=
  l.grant.enters?.toList.map .line ++ l.returned?.toList

theorem lines_returned (l : Link) : Traffic.lines l.returned?.toList = [] := by
  unfold returned?
  split <;> rfl

theorem lines_traffic (l : Link) : l.traffic.lines = l.grant.enters?.toList := by
  rw [traffic, Traffic.lines_append, lines_returned, List.append_nil]
  cases l.grant.enters? <;> rfl

theorem asks_grant (sound : l.Sound) : l.grant.asks = l.asks := by
  generalize hg : l.grant = g
  cases hg ▸ granted_grant sound with
  | unchanged => rfl
  | acquired free queue => simp [asks, acquire, free, queue, Queued.asked?, nextRequest]

theorem returned_eq_none (never : ∀ t outcome, l.turn.1 ≠ some (.command t outcome)) :
    l.returned? = none := by
  unfold returned?
  split
  · next hturn _ => exact (never _ _ hturn).elim
  · rfl

/-- Only the oldest command can come to its end. -/
theorem asks_turn (sound : l.Sound) :
    (∃ t c outcome, l.turn.1 = some (.command t outcome) ∧ l.asks = (t, c) :: l.turn.2.asks ∧
      l.returned? = some (.outcome t c outcome)) ∨
    (∀ t outcome, l.turn.1 ≠ some (.command t outcome)) ∧ l.turn.2.asks = l.asks ∧
      l.returned? = none := by
  have hturn : (∃ t c outcome, l.turn.1 = some (.command t outcome) ∧
      l.asks = (t, c) :: l.turn.2.asks) ∨
      (∀ t outcome, l.turn.1 ≠ some (.command t outcome)) ∧ l.turn.2.asks = l.asks := by
    rw [← asks_grant sound]
    have turned := turned_turn sound
    generalize l.turn = r at turned ⊢
    generalize l.grant = g at turned ⊢
    cases turned with
    | idle => exact .inr ⟨fun _ _ h => (by cases h), rfl⟩
    | @refused h held => exact .inl ⟨_, h.request.command, _, rfl, by simp [asks, held]⟩
    | @dismissed t c rest free queue =>
      exact .inl ⟨_, c, _, rfl, by simp [asks, free, queue, Queued.asked?]⟩
    | shuts free queue =>
      refine .inr ⟨fun _ _ h => (by cases h), ?_⟩
      simp [asks, free, queue, List.filterMap_cons, Queued.asked?, shutPipe]
    | @goesOn h h' l' held _ polled =>
      have hsame := polled.wrote_ok.holder_eq
      have hticket := congrArg Holder.ticket hsame
      have hrequest := congrArg Holder.request hsame
      simp only at hticket hrequest
      refine .inr ⟨fun _ _ h => (by cases h), ?_⟩
      simp [asks, held, hticket, hrequest, polled.wrote_ok.queue_eq]
    | @ended h l' result held _ polled =>
      obtain ⟨p, wrote⟩ := polled.wrote
      exact .inl ⟨_, h.request.command, _, rfl, by simp [asks, held, wrote.queue_eq]⟩
  rcases hturn with ⟨t, c, outcome, hturn, hasks⟩ | ⟨never, hasks⟩
  · exact .inl ⟨t, c, outcome, hturn, hasks, by simp [returned?, hturn, hasks]⟩
  · exact .inr ⟨never, hasks, returned_eq_none never⟩

/-- The reply to a line that is not out would not be looked at. -/
theorem Polled.error_of_unsent {h : Holder} {l' : Link} {result : Except Error Payload}
    (sound : l.Sound) (held : l.holder = some h) (isOpen : l.closed = false)
    (polled : Polled l h l' (.error result)) (early : h.phase.isEarly = true)
    (silent : l.enters? = none) : ∃ e, result = .error e := by
  cases polled with
  | answered wrote written =>
    have entered := entered_write sound held isOpen wrote
    rw [silent] at entered
    cases entered with
    | earlier same =>
      rw [early, written] at same
      cases same
  | overdue => exact ⟨_, rfl⟩
  | failed wrote => cases wrote_of_eq wrote <;> exact ⟨_, rfl⟩

/-- A command whose line is not out when it comes to its end has failed. -/
theorem unsent_turn_eq (sound : l.Sound) :
    l.grant.enters?.toList.map Sending.asked ++ l.turn.2.unsent = l.unsent ∨
    ∃ t c e, l.turn.1 = some (.command t (.error e)) ∧ l.grant.enters? = none ∧
      l.unsent = (t, c) :: l.turn.2.unsent := by
  rw [← unsent_grant sound]
  have hgrant := sound.grant
  have turned := turned_turn sound
  generalize l.turn = r at turned ⊢
  generalize l.grant = g at *
  cases turned with
  | idle free => exact .inl (by simp [enters?_of_free free])
  | @refused h held isClosed =>
    rw [enters?_of_closed isClosed]
    cases hearly : h.phase.isEarly with
    | true =>
      exact .inr ⟨_, h.request.command, _, rfl, rfl,
        by simp [unsent, held, Holder.asked?, hearly]⟩
    | false => exact .inl (by simp [unsent, held, Holder.asked?, hearly])
  | @dismissed t c rest free queue =>
    rw [enters?_of_free free]
    exact .inr ⟨t, c, _, rfl, rfl, by simp [unsent, free, queue, Queued.asked?]⟩
  | shuts free queue =>
    rw [enters?_of_free free]
    refine .inl ?_
    simp [unsent, free, queue, List.filterMap_cons, Queued.asked?, shutPipe]
  | @goesOn h h' l' held isOpen polled =>
    have hqueue := polled.wrote_ok.queue_eq
    cases polled with
    | goesOn wrote =>
      have entered := entered_write hgrant held isOpen wrote
      have hline := entered.asked_eq (wrote_of_eq wrote).holder_eq
      refine .inl ?_
      simp only [unsent, held, hqueue, Option.bind_some, ← List.append_assoc, hline]
  | @ended h l' result held isOpen polled =>
    obtain ⟨p, heq⟩ := polled.write_eq
    obtain ⟨_, wrote⟩ := polled.wrote
    have hunsent : g.unsent = h.asked?.toList ++ (l'.release h.request.token).unsent := by
      simp [unsent, held, wrote.queue_eq]
    have entered := entered_write hgrant held isOpen heq
    rw [hunsent]
    by_cases hfails : g.enters? = none ∧ h.phase.isEarly = true
    · obtain ⟨hnone, hearly⟩ := hfails
      obtain ⟨e, rfl⟩ := polled.error_of_unsent hgrant held isOpen hearly hnone
      rw [hnone, Holder.asked?, if_pos hearly]
      exact .inr ⟨_, _, e, rfl, rfl, rfl⟩
    · refine .inl (congrArg (· ++ _) ?_)
      generalize g.enters? = line at entered hfails ⊢
      cases entered with
      | earlier | never =>
        have hlate : h.phase.isEarly = false := by simpa using hfails
        simp [Holder.asked?, hlate]
      | now early => simp [Holder.asked?, early, Sending.asked]

/-! ### One call among others -/

/-- The commands of a call that are not out yet. -/
def unsentBy (l : Link) (t : Ticket) : List Command :=
  (l.unsent.filter (fun p => p.1 = t)).map Prod.snd

theorem asks_sublist (l : Link) : (l.asks.map Prod.fst).Sublist l.tickets := by
  have hqueue : ∀ queue : List Queued,
      ((queue.filterMap Queued.asked?).map Prod.fst).Sublist (queue.map Queued.ticket) := by
    intro queue
    induction queue with
    | nil => exact .refl _
    | cons q queue ih =>
      obtain ⟨t, c | deadline⟩ := q
      · exact ih.cons_cons t
      · exact ih.cons t
  simpa [asks, tickets, Function.comp_def] using hqueue l.queue

theorem unsent_sublist (l : Link) : l.unsent.Sublist l.asks := by
  refine List.Sublist.append ?_ (.refl _)
  cases l.holder with
  | none => exact .refl _
  | some h =>
    simp only [Option.bind_some, Option.toList_some, List.map_cons, List.map_nil, Holder.asked?]
    split
    · exact .refl _
    · exact List.nil_sublist _

theorem mem_tickets_of_asks {t : Ticket} {c : Command} (asks : (t, c) ∈ l.asks) :
    t ∈ l.tickets :=
  l.asks_sublist.subset (List.mem_map_of_mem asks)

theorem unsentBy_of_not_mem {t : Ticket} (absent : t ∉ l.tickets) : l.unsentBy t = [] := by
  rw [unsentBy, List.map_eq_nil_iff, List.filter_eq_nil_iff]
  rintro ⟨u, c⟩ hmem hu
  obtain rfl : u = t := by simpa using hu
  exact absent (mem_tickets_of_asks (l.unsent_sublist.subset hmem))

theorem unsentBy_enqueue (t u : Ticket) (c : Command) :
    (l.enqueue ⟨u, .command c⟩).unsentBy t = l.unsentBy t ++ if u = t then [c] else [] := by
  rw [unsentBy, unsent_enqueue, List.filter_append, List.map_append]
  congr 1
  by_cases h : u = t <;> simp [h]

theorem asks_enqueue (t : Ticket) (c : Command) :
    (l.enqueue ⟨t, .command c⟩).asks = l.asks ++ [(t, c)] := by
  simp [asks, enqueue, Queued.asked?]

theorem unsent_resolve (l : Link) (reply : Reply) : (l.resolve reply).unsent = l.unsent := by
  unfold resolve
  split
  · split
    · simp only [unsent, bind_asked?_handOver]
    · rfl
  · rfl

theorem asks_resolve (l : Link) (reply : Reply) : (l.resolve reply).asks = l.asks := by
  have hsame := map_handOver (g := fun h => (h.ticket, h.request.command)) fun _ _ => rfl
  unfold resolve
  split
  · split
    · simp only [asks, hsame]
    · rfl
  · rfl

/-- A call that goes away leaves the other ones as they are. -/
theorem asks_cancel {t u : Ticket} (other : u ≠ t) {c : Command} (asks : (t, c) ∈ l.asks) :
    (t, c) ∈ (l.cancel u).asks := by
  have hfilter : (t, c) ∈ l.queue.filterMap Queued.asked? →
      (t, c) ∈ (l.queue.filter (fun q => q.ticket != u)).filterMap Queued.asked? := by
    intro hmem
    obtain ⟨q, hq, hasked⟩ := List.mem_filterMap.mp hmem
    refine List.mem_filterMap.mpr ⟨q, List.mem_filter.mpr ⟨hq, ?_⟩, hasked⟩
    obtain ⟨v, d | deadline⟩ := q
    · cases hasked
      simpa using other.symm
    · cases hasked
  unfold cancel
  rcases List.mem_append.mp asks with hholder | hqueue
  · cases held : l.holder with
    | none => simp [held] at hholder
    | some h =>
      rw [held] at hholder
      have hticket : t = h.ticket := by
        simp at hholder
        exact hholder.1
      have hne : h.ticket ≠ u := fun heq => other (hticket.trans heq).symm
      simp only [if_neg hne]
      exact List.mem_append_left _ hholder
  · split
    · split
      · simpa [Link.asks] using hqueue
      · exact List.mem_append_right _ (hfilter hqueue)
    · exact List.mem_append_right _ (hfilter hqueue)

theorem unsentBy_cancel {t u : Ticket} (other : u ≠ t) :
    (l.cancel u).unsentBy t = l.unsentBy t := by
  have hfilter : ∀ queue : List Queued,
      ((queue.filter (fun q => q.ticket != u)).filterMap Queued.asked?).filter
        (fun p => decide (p.1 = t)) =
      (queue.filterMap Queued.asked?).filter (fun p => decide (p.1 = t)) := by
    intro queue
    induction queue with
    | nil => rfl
    | cons q queue ih =>
      obtain ⟨v, d | deadline⟩ := q
      · by_cases hv : v = u
        · subst hv
          simpa [Queued.asked?, other] using ih
        · rcases eq_or_ne v t with rfl | ht
          · simpa [Queued.asked?, hv] using ih
          · simpa [Queued.asked?, hv, ht] using ih
      · by_cases hv : v = u <;> simpa [List.filterMap_cons, Queued.asked?, hv] using ih
  unfold cancel
  split
  · next h held =>
    split
    · next own =>
      have hgone : (h.asked?.toList).filter (fun p => decide (p.1 = t)) = [] := by
        unfold Holder.asked?
        split <;> simp [own, other]
      simp [unsentBy, unsent, held, hgone]
    · simp only [unsentBy, unsent, List.filter_append, hfilter]
  · simp only [unsentBy, unsent, List.filter_append, hfilter]

end Link

/-! ### Moments -/

/-- What passes before the next moment. -/
def Moment.traffic {α : Type} (m : Moment α) : Traffic :=
  match m.lines, m.running with
  | [], none => m.session.link.traffic
  | [], some (t, .send turn c _) =>
    ((m.session.link.refusal? turn).map fun e => Passage.outcome t c (.error e)).toList
  | _, _ => []

theorem Moment.lines_traffic {α : Type} (m : Moment α) :
    m.traffic.lines = m.entering?.toList := by
  obtain ⟨log, x, lines, running⟩ := m
  cases lines with
  | cons item rest => rfl
  | nil =>
    rcases running with _ | ⟨t, _ | _ | ⟨turn, c, next⟩ | _⟩
    · exact x.link.lines_traffic
    · rfl
    · rfl
    · change Traffic.lines (Option.map _ (x.link.refusal? turn)).toList = []
      cases x.link.refusal? turn <;> rfl
    · rfl

namespace Session

variable {α : Type}

/-- The run passes this moment while it takes the last of these inputs, and by then there
    has been this traffic. -/
inductive Setup.Carries (s : Setup) : List (Action α) → Moment α → Traffic → Prop
  | start : s.Carries [] (between [] (s.session α)) []
  | input {as : List (Action α)} {tr : Traffic}
      (carries : s.Carries as (between (s.log as) (s.after as)) tr) (a : Action α) :
      s.Carries (as ++ [a]) (begun (s.log as) (s.awaiting as a) a) tr
  | next {as : List (Action α)} {m m' : Moment α} {tr : Traffic} (carries : s.Carries as m tr)
      (step : Next m m') : s.Carries as m' (tr ++ m.traffic)
  | drain {as : List (Action α)} {log : Happened α} {x : Session α} {tr : Traffic}
      {reading : Bool} (carries : s.Carries as (between log x) tr) :
      s.Carries as (between log { x with link := x.link.drain.2.setReading reading }) tr

namespace Setup

variable {s : Setup} {as : List (Action α)} {m : Moment α} {tr : Traffic}

theorem Carries.passes (carries : s.Carries as m tr) : s.Passes as m := by
  induction carries with
  | start => exact .start
  | input _ a ih => exact .input ih a
  | next _ step ih => exact .next ih step
  | drain _ ih => exact .drain ih

/-- **Of every run there is the traffic**, and its lines are those that the VM reads. -/
theorem exists_carries (s : Setup) (as : List (Action α)) :
    ∃ tr, s.Carries as (between (s.log as) (s.after as)) tr ∧
      Sends (s.sent as) tr.lines (s.log as).requests (s.after as).link := by
  induction as using List.reverseRecOn with
  | nil =>
    refine ⟨[], .start, Link.Sound.of_free rfl rfl fun _ q hq => (by cases hq), ?_, ?_,
      List.nil_sublist _⟩
    · exact ⟨List.prefix_rfl, fun _ => rfl⟩
    · intro p hp
      cases hp
  | append_singleton as a ih =>
    obtain ⟨tr, carries, sends⟩ := ih
    have hopened : Sends (s.sent as) tr.lines (s.log as).requests (s.awaiting as a).link :=
      sends.withPipe rfl
    have hkept : KeptWithin (fun m => ∃ tr, s.Carries (as ++ [a]) m tr ∧
        Sends (s.sent as) tr.lines m.log.requests m.session.link) := by
      refine ⟨fun m m' h step => ?_⟩
      obtain ⟨tr, carries, sends⟩ := h
      refine ⟨_, carries.next step, ?_⟩
      rw [Traffic.lines_append, Moment.lines_traffic]
      exact sends_next step sends
    obtain ⟨tr', carries', sends'⟩ := hkept.settle (hkept.perform
      ⟨tr, carries.input a, sends_arrived (arrived_begun _ _ a) hopened⟩)
    have hcarries := @Carries.drain _ _ _ _ _ _ (s.after as).link.pipe.reading carries'
    have hsends := sends'.drain (s.after as).link.pipe.reading
    refine ⟨tr', ?_, ?_⟩
    · rw [log_snoc, after_snoc]
      simpa [Session.step, awaiting, List.append_assoc] using hcarries
    · rw [log_snoc, after_snoc, sent_snoc]
      simpa [Session.step, awaiting, between, List.append_assoc] using hsends

end Setup

end Session

end Pushdown
