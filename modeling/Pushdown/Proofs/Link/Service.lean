/-
  Pushdown/Proofs/Link/Service.lean
  =================================
  **Passing the writer on.**  While the link is open the writer is never idle when
  somebody waits for it: whoever lets go of it, for whatever reason, the oldest call in
  the queue has it before the step is over.  A call that will not wait is turned away
  exactly when somebody has the writer.

  One call's end does not touch what another one expects.  Letting go of the writer and
  abandoning the reply may even happen in the other order (`abandon_grant`): a token
  that is abandoned late is not the one that has been drawn meanwhile.
-/
import Pushdown.Proofs.Link.Serving

namespace Pushdown

open Link

namespace Link

/-! ### Letting go -/

/-- A call may abandon its reply before the next one gets the writer or after. -/
theorem abandon_grant {l : Link} (sound : l.Sound) {h : Holder} (held : l.holder = some h) :
    (grant { l with holder := none }).abandon h.request.token =
      (l.release h.request.token).grant := by
  have hnewest := sound.holder_newest h held
  have hother : l.nextToken ≠ h.request.token := by omega
  obtain ⟨pipe, buffer, timeLimit, clock, closed, nextToken, expected, holder, queue⟩ := l
  rcases queue with _ | ⟨⟨t, c | deadline⟩, rest⟩
  · rfl
  · cases closed with
    | true => rfl
    | false => simpa [grant, acquire, release, abandon, nextRequest] using hother
  · rfl

/-! ### The queue within a step -/

theorem turn_closed {l : Link} (sound : l.Sound) (isClosed : l.closed = true) :
    l.turn.2.closed = true := by
  refine (turned_turn sound).closed ?_
  rw [grant_closed sound, isClosed]

theorem turns_closed {n : Nat} {l : Link} (sound : l.Sound) (isClosed : l.closed = true) :
    (turns n l).2.closed = true :=
  turns_kept (fun _ => turn_closed) sound isClosed

theorem turn_queue {l : Link} (sound : l.Sound) (underway : l.IsUnderway)
    (isOpen : l.turn.2.closed = false) :
    l.queue.map Queued.ticket =
      l.grant.starter?.toList.map Sending.ticket ++ l.turn.2.queue.map Queued.ticket := by
  rw [(turned_turn sound).queue_eq isOpen]
  generalize hg : l.grant = g
  cases hg ▸ granted_grant sound with
  | unchanged => simp [starter?_eq_none underway]
  | acquired free hqueue => simp [hqueue, starter?, acquire, nextRequest]

/-- As long as the link is open, those who leave the queue in a step get the writer, the
    oldest first. -/
theorem turns_queue {n : Nat} {l : Link} (sound : l.Sound) (underway : l.IsUnderway)
    (isOpen : (turns n l).2.closed = false) :
    l.queue.map Queued.ticket = (servedIn (momentsOf n l)).map Sending.ticket ++
      (turns n l).2.queue.map Queued.ticket := by
  induction n generalizing l with
  | zero => simp [momentsOf, turns]
  | succ n ih =>
    have hsound := sound.turn
    have hunderway := underway_turn sound
    rcases hturn : l.turn with ⟨_ | f, l'⟩
    · have hqueue := turn_queue sound underway (by simpa [turns, hturn] using isOpen)
      simpa [turns, momentsOf, hturn] using hqueue
    · rw [hturn] at hsound hunderway
      have hrest : (turns n l').2.closed = false := by simpa [turns, hturn] using isOpen
      have hopen : l'.closed = false := by
        cases hclosed : l'.closed with
        | false => rfl
        | true =>
          rw [turns_closed hsound hclosed] at hrest
          cases hrest
      have hqueue := turn_queue sound underway (by rw [hturn]; exact hopen)
      rw [hturn] at hqueue
      simp only [turns, momentsOf, hturn, servedIn_cons, List.map_append, List.append_assoc]
      rw [hqueue, ih hsound hunderway hrest]

theorem turn_queue_nil {l : Link} (sound : l.Sound) (empty : l.grant.queue = []) :
    l.turn.2.queue = [] := by
  have turned := turned_turn sound
  generalize l.turn = r at turned ⊢
  cases turned with
  | idle | refused => exact empty
  | dismissed _ hqueue | shuts _ hqueue =>
    rw [empty] at hqueue
    cases hqueue
  | goesOn _ _ polled => exact polled.wrote_ok.queue_eq.trans empty
  | ended _ _ polled =>
    obtain ⟨p, wrote⟩ := polled.wrote
    exact wrote.queue_eq.trans empty

/-- After the last one in the queue nobody gets the writer. -/
theorem servedIn_momentsOf_succ {n : Nat} {l : Link} (sound : l.Sound)
    (empty : l.grant.queue = []) :
    servedIn (momentsOf (n + 1) l) = l.grant.starter?.toList := by
  induction n generalizing l with
  | zero => rcases hturn : l.turn with ⟨_ | f, l'⟩ <;> simp [momentsOf, hturn]
  | succ n ih =>
    have hsound := sound.turn
    have hunderway := underway_turn sound
    have hempty := turn_queue_nil sound empty
    rcases hturn : l.turn with ⟨_ | f, l'⟩
    · simp [momentsOf, hturn]
    · rw [hturn] at hsound hunderway hempty
      have hgrant : l'.grant = l' := by
        unfold grant
        split
        · next hqueue =>
          rw [hempty] at hqueue
          cases hqueue
        · rfl
      have hrest := ih hsound (by rw [hgrant]; exact hempty)
      rw [hgrant, starter?_eq_none hunderway] at hrest
      rw [momentsOf, hturn, servedIn_cons, hrest]
      simp

/-! ### Results of one's own -/

/-- A call that starts within a step does not end as if it had been turned away. -/
theorem turns_not_busy {n : Nat} {l : Link} (sound : l.Sound) (free : l.holder = none)
    (t : Ticket) : .command t (.error .busy) ∉ (turns n l).1 := by
  have hturns := turns_induction (P := fun history l =>
    (∀ h, l.holder = some h → h.handed = none) ∧ .command t (.error .busy) ∉ history.finished)
    ?_ n ⟨[], [], []⟩ sound ⟨fun h held => ?_, by simp⟩
  · simpa using hturns.2
  · rintro history l sound ⟨unanswered, hnot⟩
    have hgrant : ∀ h, l.grant.holder = some h → h.handed = none := by
      generalize hg : l.grant = g
      cases hg ▸ granted_grant sound with
      | unchanged => exact unanswered
      | acquired =>
        rintro _ ⟨⟩
        rfl
    have hresult : ∀ f : Finished, f ≠ .command t (.error .busy) →
        .command t (.error .busy) ∉ history.finished ++ [f] := by
      intro f hf hmem
      rcases List.mem_append.mp hmem with h | h
      · exact hnot h
      · exact hf (List.mem_singleton.mp h).symm
    have turned := turned_turn sound
    generalize l.turn = r at turned ⊢
    generalize l.grant = g at *
    cases turned with
    | idle => exact ⟨hgrant, by simpa using hnot⟩
    | refused =>
      constructor
      · intro h held
        cases held
      · exact hresult _ (by simp [refused])
    | dismissed => exact ⟨hgrant, hresult _ (by simp [refused])⟩
    | shuts => exact ⟨hgrant, hresult _ (by simp)⟩
    | @goesOn h _ _ held _ polled =>
      constructor
      · rintro _ ⟨⟩
        rw [polled.wrote_ok.holder_eq]
        exact hgrant h held
      · simpa using hnot
    | ended held _ polled =>
      constructor
      · intro h' held'
        cases held'
      · apply hresult
        cases polled with
        | answered wrote _ handed =>
          rw [(wrote_of_eq wrote).holder_eq] at handed
          rw [hgrant _ held] at handed
          cases handed
        | overdue => simp
        | failed wrote => cases wrote_of_eq wrote <;> simp
  · rw [free] at held
    cases held

/-! ### What is expected stays expected -/

/-- The reply to this request of the call is expected, unless the link is closed. -/
def Holds (l : Link) (t : Ticket) (r : Request) : Prop :=
  (∃ h, l.holder = some h ∧ h.ticket = t ∧ h.request = r) ∧
    (l.closed = false → l.expected = some r)

/-- An input takes the reply away from a call only by cancelling it or by handing it
    over. -/
theorem begin_holds {l : Link} {t : Ticket} {r : Request} (awaits : l.Awaits t r)
    (a : Action) :
    (l.begin a).2.Holds t r ∨ a = .cancel t ∨ ∃ outcome, a = .resolve ⟨r.token, outcome⟩ := by
  obtain ⟨hexp, h, held, hticket, hrequest⟩ := awaits
  have hkeeps : l.Holds t r := ⟨⟨h, held, hticket, hrequest⟩, fun _ => hexp⟩
  have begun := begun_begin l a
  generalize l.begin a = result at begun ⊢
  cases begun with
  | letsGo held' =>
    obtain rfl := Option.some.inj (held.symm.trans held')
    exact Or.inr (Or.inl (by rw [hticket]))
  | @handed r' reply hexp' htoken =>
    obtain rfl := Option.some.inj (hexp.symm.trans hexp')
    exact Or.inr (Or.inr ⟨reply.outcome, by rw [htoken]⟩)
  | closes | shutsDown =>
    refine Or.inl ⟨hkeeps.1, ?_⟩
    intro isOpen
    cases isOpen
  | _ => exact Or.inl hkeeps

theorem turns_holds {n : Nat} {l : Link} (sound : l.Sound) {t : Ticket} {r : Request}
    (holds : l.Holds t r) :
    t ∈ (turns n l).1.map Finished.ticket ∨ (turns n l).2.Holds t r := by
  have hturns := turns_induction (P := fun history l =>
    t ∈ history.finished.map Finished.ticket ∨ l.Holds t r)
    ?_ n ⟨[], [], []⟩ sound (Or.inr holds)
  · simpa using hturns
  · intro history l sound hbefore
    rw [List.map_append]
    rcases hbefore with hover | ⟨⟨h, held, hticket, hrequest⟩, hexp⟩
    · exact Or.inl (List.mem_append_left _ hover)
    · have hgrant : l.grant = l := by simp [grant, held]
      have turned := turned_turn sound
      rw [hgrant] at turned
      generalize l.turn = result at turned ⊢
      cases turned with
      | idle free | dismissed free | shuts free =>
        rw [free] at held
        cases held
      | refused hwas =>
        obtain rfl := Option.some.inj (held.symm.trans hwas)
        exact Or.inl (List.mem_append_right _ (by simp [refused, Finished.ticket, hticket]))
      | goesOn hwas _ polled =>
        obtain rfl := Option.some.inj (held.symm.trans hwas)
        have wrote := polled.wrote_ok
        refine Or.inr ⟨⟨_, rfl, ?_, ?_⟩, fun isOpen => ?_⟩
        · rw [wrote.holder_eq]
          exact hticket
        · rw [wrote.holder_eq]
          exact hrequest
        · exact wrote.expected_eq.trans (hexp (wrote.closed_eq.symm.trans isOpen))
      | ended hwas =>
        obtain rfl := Option.some.inj (held.symm.trans hwas)
        exact Or.inl (List.mem_append_right _ (by simp [Finished.ticket, hticket]))

theorem step_awaits {l : Link} (sound : l.Sound) {t : Ticket} {r : Request}
    (awaits : l.Awaits t r) (a : Action) :
    (l.step a).2.Awaits t r ∨ t ∈ (l.step a).1.finished.map Finished.ticket ∨ a = .cancel t ∨
      ∃ outcome, a = .resolve ⟨r.token, outcome⟩ := by
  rcases begin_holds awaits a with holds | hwhy
  · rcases turns_holds (n := (l.begin a).2.callCount + 1) (sound.begin a) holds with hover | hnow
    · refine Or.inr (Or.inl ?_)
      change t ∈ ((l.begin a).1 ++ _).map Finished.ticket
      rw [List.map_append]
      exact List.mem_append_right _ hover
    · obtain ⟨⟨h, held, hticket, hrequest⟩, hexp⟩ := hnow
      have hopen := ((settled_settle (sound.begin a)).holder_stuck h held).1
      exact Or.inl ⟨hexp hopen, h, held, hticket, hrequest⟩
  · exact Or.inr (Or.inr hwhy)

/-! ### The next one in the queue -/

theorem begin_queue_prefix (l : Link) {a : Action} (kept : ∀ t, a ≠ .cancel t) :
    ∃ joined, (l.begin a).2.queue = l.queue ++ joined := by
  have begun := begun_begin l a
  generalize l.begin a = r at begun ⊢
  cases begun with
  | joins | shutsDown => exact ⟨[_], rfl⟩
  | letsGo | leaves => exact (kept _ rfl).elim
  | _ => exact ⟨[], (List.append_nil _).symm⟩

theorem cancel_eq_without {l : Link} {t : Ticket}
    (other : ∀ h, l.holder = some h → h.ticket ≠ t) : l.cancel t = l.without t := by
  unfold cancel
  split
  · next h held => rw [if_neg (other h held), without]
  · rfl

/-- A call that waits goes away, and that is all. -/
theorem step_cancel {l : Link} (sound : l.Sound) (rest : l.AtRest) {h : Holder}
    (held : l.holder = some h) {t : Ticket} (other : h.ticket ≠ t) :
    l.step (.cancel t) = (⟨[], []⟩, l.without t) := by
  have hbegin : l.begin (.cancel t) = ([], l.without t) := by
    rw [begin_eq _ (by simp), perform, cancel_eq_without]
    intro h' held'
    rwa [← Option.some.inj (held.symm.trans held')]
  refine step_of_begin hbegin (sound.withQueue fun q hq => (List.mem_filter.mp hq).1) ?_ rfl
  exact rest.withQueue (by rw [held]; rfl) _

end Link

namespace Setup

variable {s : Setup} {as : List Action}

theorem served_snoc (s : Setup) (as : List Action) (a : Action) :
    s.served (as ++ [a]) = s.served as ++ servedIn ((s.after as).moments a) := by
  rw [served, moments_snoc, servedIn_append, served]

theorem begin_queue_eq (a : Action) (isOpen : (s.after (as ++ [a])).closed = false) :
    ((s.after as).begin a).2.queue.map Queued.ticket =
      (servedIn ((s.after as).moments a)).map Sending.ticket ++
        (s.after (as ++ [a])).queue.map Queued.ticket := by
  rw [after_snoc] at isOpen ⊢
  exact turns_queue ((s.sound as).begin a) ((s.underway as).begin a) isOpen

/-- Whoever lets go of the writer, the oldest call in the queue gets it in the same
    step. -/
theorem takes_over (a : Action) {h : Holder} {q : Queued} {rest : List Queued}
    (held : (s.after as).holder = some h) (queue : (s.after as).queue = q :: rest)
    (isOpen : (s.after (as ++ [a])).closed = false)
    (differs : ∀ h', (s.after (as ++ [a])).holder = some h' → h'.request.token ≠ h.request.token) :
    ∃ more, (s.served (as ++ [a])).map Sending.ticket =
      (s.served as).map Sending.ticket ++ q.ticket :: more := by
  -- the oldest call is still the first when the input has been taken in
  obtain ⟨joined, hbegin⟩ : ∃ joined, ((s.after as).begin a).2.queue = q :: joined := by
    by_cases hcancel : ∃ t, a = .cancel t
    · obtain ⟨t, rfl⟩ := hcancel
      by_cases hthis : h.ticket = t
      · refine ⟨rest, ?_⟩
        rw [begin_eq _ (by simp)]
        simp only [perform, cancel, held, if_pos hthis, release_queue, queue]
      · have hcancelled := step_cancel (s.sound as) (s.atRest as) held hthis
        have hstays : (s.after (as ++ [.cancel t])).holder = some h := by
          rw [after_snoc, hcancelled]
          exact held
        exact (differs h hstays rfl).elim
    · obtain ⟨joined, hqueue⟩ := begin_queue_prefix (s.after as) fun t h => hcancel ⟨t, h⟩
      exact ⟨rest ++ joined, by rw [hqueue, queue, List.cons_append]⟩
  have hqueue := begin_queue_eq a isOpen
  rw [hbegin, List.map_cons] at hqueue
  rw [served_snoc, List.map_append]
  cases hserved : servedIn ((s.after as).moments a) with
  | cons p ps =>
    rw [hserved, List.map_cons, List.cons_append] at hqueue
    exact ⟨ps.map Sending.ticket, by rw [List.map_cons, (List.cons.inj hqueue).1]⟩
  | nil =>
    -- nobody would have got the writer, and somebody would be waiting for it
    rw [hserved, List.map_nil, List.nil_append] at hqueue
    have htoken : (s.after (as ++ [a])).nextToken = (s.after as).nextToken := by
      rw [(s.serving _).nextToken, (s.serving _).nextToken, served_snoc, hserved, List.append_nil]
    cases hholder : (s.after (as ++ [a])).holder with
    | some h' =>
      have hnew := (s.sound _).holder_newest h' hholder
      have hold := (s.sound as).holder_newest h held
      exact (differs h' hholder (by omega)).elim
    | none =>
      rw [(s.atRest _).nobody_waits hholder] at hqueue
      cases hqueue

/-! ### Calls that will not wait -/

theorem sendAtOnce_busy (t : Ticket) (c : Command) (isOpen : (s.after as).closed = false)
    (busy : (s.after as).holder.isSome) :
    (s.after as).step (.send t .atOnce c) =
      (⟨[], [.command t (.error .busy)]⟩, s.after as) := by
  refine step_of_begin_eq (s.sound as) (s.atRest as) ?_
  rw [begin_eq _ (by simp)]
  obtain ⟨h, held⟩ := Option.isSome_iff_exists.mp busy
  simp [perform, refusal?, isOpen, isIdle, held]

theorem sendAtOnce_served (t : Ticket) (c : Command) (isOpen : (s.after as).closed = false)
    (free : (s.after as).holder = none) :
    s.served (as ++ [.send t .atOnce c]) =
        s.served as ++ [⟨t, (s.after as).nextRequest c⟩] ∧
      .command t (.error .busy) ∉ ((s.after as).step (.send t .atOnce c)).1.finished := by
  have sound := s.sound as
  have hempty := (s.atRest as).nobody_waits free
  have hbegin : (s.after as).begin (.send t .atOnce c) =
      ([], (s.after as).enqueue ⟨t, .command c⟩) := by
    rw [begin_eq _ (by simp)]
    simp [perform, refusal?, isOpen, isIdle, free, hempty]
  have hgrant : ((s.after as).enqueue ⟨t, .command c⟩).grant =
      { s.after as with queue := [] }.acquire t c := by
    simp [grant, enqueue, free, hempty, isOpen]
  constructor
  · rw [served_snoc, Link.moments, hbegin]
    have hsound : ((s.after as).enqueue ⟨t, .command c⟩).Sound := sound.enqueue fun _ => ⟨c, rfl⟩
    rw [servedIn_momentsOf_succ hsound (by rw [hgrant]; rfl), hgrant]
    rfl
  · have hnot := turns_not_busy (n := ((s.after as).begin (.send t .atOnce c)).2.callCount + 1)
      (sound.begin (.send t .atOnce c)) (by rw [hbegin]; exact free) t
    simpa [step, settle, hbegin] using hnot

/-! ### The order of a run -/

/-- The link within an input, after so many turns. -/
def within (s : Setup) (as : List Action) (a : Action) (turnCount : Nat) : Link :=
  (turns turnCount ((s.after as).begin a).2).2

theorem sound_within (s : Setup) (as : List Action) (a : Action) (n : Nat) :
    (s.within as a n).Sound :=
  ((s.sound as).begin a).turns

/-- One call at a time has the writer, and the calls have it in the order in which they
    began. -/
structure Orderly (s : Setup) (as : List Action) : Prop where
  /-- No call has the writer twice, or has it and waits for it. -/
  one_holder : (s.after as).tickets.Nodup
  /-- The token that is expected is the newest, and belongs to the call that has the
      writer. -/
  expected_newest : ∀ r, (s.after as).expected = some r →
    r.token + 1 = (s.after as).nextToken ∧
      ∃ h, (s.after as).holder = some h ∧ h.request = r
  /-- The call that has the writer is the one whose reply is expected, unless it has got
      the reply before its line was written. -/
  holder_expected : ∀ h, (s.after as).holder = some h →
    (s.after as).expected = some h.request ∧ h.handed = none ∨
      (s.after as).expected = none ∧ h.handed.isSome ∧ h.phase ≠ .waiting
  /-- At all times: when the writer is free no reply is expected, so the call that gets it
      takes nobody's place. -/
  free_expected : ∀ a n, (s.within as a n).holder = none → (s.within as a n).expected = none
  /-- At all times: it makes no difference whether a call abandons its reply before the
      next one gets the writer or after. -/
  abandon_late : ∀ a n h, (s.within as a n).holder = some h →
    (grant { s.within as a n with holder := none }).abandon h.request.token =
      ((s.within as a n).release h.request.token).grant
  /-- A call goes on expecting its reply until it is over or cancelled, or has it. -/
  keeps_expecting : ∀ a t r, (s.after as).Awaits t r →
    (s.after (as ++ [a])).Awaits t r ∨
      t ∈ ((s.after as).step a).1.finished.map Finished.ticket ∨ a = .cancel t ∨
      ∃ outcome, a = .resolve ⟨r.token, outcome⟩
  /-- The calls draw the tokens 1, 2, 3, … -/
  tokens : (s.served as).map (fun p => p.request.token) = List.range' 1 (s.served as).length
  /-- They draw them in the order in which they began, and before those that wait. -/
  order : ((s.served as).map Sending.ticket ++
    (s.after as).queue.map Queued.ticket).Sublist (ticketsOf as)
  /-- A call that waits its turn is passed over only if it is cancelled. -/
  no_overtaking : NoOvertaking as (s.served as)
  /-- No call is lost. -/
  nobody_lost : ∀ t ∈ ticketsOf as, t ∈ (s.finished as).map Finished.ticket ∨
    IsCancelled as t ∨ t ∈ (s.after as).tickets
  /-- The writer is not idle while somebody waits for it. -/
  not_idle : (s.after as).holder = none → (s.after as).queue = []
  /-- When the call that has the writer is over, the oldest in the queue gets it in the
      same step. -/
  takes_over : ∀ a h q rest, (s.after as).holder = some h → (s.after as).queue = q :: rest →
    (s.after (as ++ [a])).closed = false →
    (∀ h', (s.after (as ++ [a])).holder = some h' → h'.request.token ≠ h.request.token) →
    ∃ more, (s.served (as ++ [a])).map Sending.ticket =
      (s.served as).map Sending.ticket ++ q.ticket :: more
  /-- On an open link whoever leaves the queue in a step gets the writer, the oldest
      first. -/
  serves_oldest : ∀ a, (s.after (as ++ [a])).closed = false →
    ∃ next, s.served (as ++ [a]) = s.served as ++ next ∧
      ((s.after as).begin a).2.queue.map Queued.ticket =
        next.map Sending.ticket ++ (s.after (as ++ [a])).queue.map Queued.ticket
  /-- A call that will not wait is turned away if somebody has the writer, … -/
  busy : ∀ t c, (s.after as).closed = false → (s.after as).holder.isSome →
    (s.after as).step (.send t .atOnce c) =
      (⟨[], [.command t (.error .busy)]⟩, s.after as)
  /-- … and only then; otherwise it gets the writer. -/
  not_busy : ∀ t c, (s.after as).closed = false → (s.after as).holder = none →
    s.served (as ++ [.send t .atOnce c]) =
        s.served as ++ [⟨t, (s.after as).nextRequest c⟩] ∧
      .command t (.error .busy) ∉ ((s.after as).step (.send t .atOnce c)).1.finished

theorem expected_or_handed {h : Holder} (held : (s.after as).holder = some h) :
    (s.after as).expected = some h.request ∧ h.handed = none ∨
      (s.after as).expected = none ∧ h.handed.isSome ∧ h.phase ≠ .waiting := by
  obtain ⟨isOpen, stuck⟩ := (s.atRest as).holder_stuck h held
  cases hhanded : h.handed with
  | none => exact Or.inl ⟨(s.sound as).holder_expected h held hhanded isOpen, rfl⟩
  | some result =>
    refine Or.inr ⟨?_, rfl, fun hphase => ?_⟩
    · cases hexp : (s.after as).expected with
      | none => rfl
      | some r =>
        rw [((s.sound as).expected_eq held hexp).2] at hhanded
        cases hhanded
    · rw [stuck.unanswered hphase] at hhanded
      cases hhanded

/-- **One command in flight, first come first served, and no call is lost.** -/
theorem orderly (s : Setup) (as : List Action) (own : OwnTickets as) : s.Orderly as where
  one_holder := (List.nodup_append.mp (finished_nodup own)).2.1
  expected_newest r expected := by
    obtain ⟨h, held, rfl, -⟩ := (s.sound as).expected_holder r expected
    exact ⟨(s.sound as).holder_newest h held, h, held, rfl⟩
  holder_expected _ held := expected_or_handed held
  free_expected a n free := (s.sound_within as a n).expected_none free
  abandon_late a n _ held := abandon_grant (s.sound_within as a n) held
  keeps_expecting a _ _ awaits := by
    rw [after_snoc]
    exact step_awaits (s.sound as) awaits a
  tokens := (s.serving as).tokens
  order := (s.serving as).order
  no_overtaking := s.no_overtaking own
  nobody_lost _ began := accounted_for began
  not_idle := (s.atRest as).nobody_waits
  takes_over a _ _ _ held queue isOpen differs := takes_over a held queue isOpen differs
  serves_oldest a isOpen := ⟨_, served_snoc s as a, begin_queue_eq a isOpen⟩
  busy t c isOpen busy := sendAtOnce_busy t c isOpen busy
  not_busy t c isOpen free := sendAtOnce_served t c isOpen free

/-- Three calls: the first is answered, the second cancelled while it waits, and the
    third has the writer. -/
theorem orderly_cancelled_waiter :
    let s : Setup := ⟨64, false, none⟩
    let as : List Action := [.send 1 .wait (.step 1), .send 2 .wait .exit,
      .send 3 .wait .threads, .cancel 2, .resolve ⟨1, .ok ""⟩]
    OwnTickets as ∧
      (s.served as).map (fun p => (p.ticket, p.request.token)) = [(1, 1), (3, 2)] ∧
      s.Orderly as :=
  ⟨by decide, rfl, orderly _ _ (by decide)⟩

end Setup

end Pushdown
