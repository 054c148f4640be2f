/-
  Pushdown/Proofs/Link/Withdrawal.lean
  ====================================
  **A call that only waits is not noticed.**  A call in the queue has no token, has
  written nothing and expects nothing.  All that ever looks at it is the link that looks
  for the next call to get the writer.  So as long as the call stays in the queue, the
  link with it and the link without it (`without`) take the same turns
  (`turn_without`), and an input comes to the same in both (`step_without`).

  When the call is cancelled in the queue the two are the same link, and what has been
  seen of them is the same (`Setup.untraced`).
-/
import Pushdown.Proofs.Link.Effect
import Pushdown.Proofs.Link.Service

namespace Pushdown

namespace Link

variable {l : Link} {t : Ticket}

/-- The calls that wait for the writer. -/
def waiters (l : Link) : List Ticket := l.queue.map Queued.ticket

/-- Nobody has the writer, and the call is the first to get it. -/
def IsNext (l : Link) (t : Ticket) : Prop :=
  l.holder = none ∧ ∃ q rest, l.queue = q :: rest ∧ q.ticket = t

theorem mem_waiters_iff : t ∈ l.waiters ↔ ∃ q ∈ l.queue, q.ticket = t := List.mem_map

theorem tickets_eq (l : Link) : l.tickets = l.holder.toList.map Holder.ticket ++ l.waiters := rfl

theorem without_eq_self (absent : t ∉ l.waiters) : l.without t = l := by
  rw [without, filter_of_absent absent]

/-! ### Leaving the queue -/

theorem turns_queue_sublist {n : Nat} (sound : l.Sound) :
    (turns n l).2.queue.Sublist l.queue :=
  turns_kept (P := fun m => m.queue.Sublist l.queue)
    (fun _ sound before => (turn_queue_sublist sound).trans before) sound (.refl _)

/-- The call that is next leaves the queue with the next turn. -/
theorem left_of_isNext (sound : l.Sound) (distinct : l.tickets.Nodup) (next : l.IsNext t) :
    t ∉ l.turn.2.waiters := by
  obtain ⟨free, q, rest, hqueue, rfl⟩ := next
  have htickets := turn_tickets sound
  have hbefore : l.tickets = q.ticket :: rest.map Queued.ticket := by
    simp [tickets, free, hqueue]
  rw [hbefore] at htickets distinct
  have habsent := (List.nodup_cons.mp distinct).1
  intro hmem
  rcases hturn : l.turn with ⟨f | f, l'⟩
  · rw [hturn] at htickets hmem
    have hsettled := settled_turn sound hturn
    cases held : l'.holder with
    | none =>
      rw [waiters, hsettled.nobody_waits held] at hmem
      cases hmem
    | some h =>
      -- it has got the writer
      simp only [tickets, held, Option.toList_none, List.map_nil, Option.toList_some,
        List.map_cons, List.nil_append, List.cons_append] at htickets
      obtain ⟨-, hrest⟩ := List.cons.inj htickets
      exact habsent (hrest ▸ hmem)
  · -- it is over
    rw [hturn] at htickets hmem
    simp only [Option.toList_some, List.map_cons, List.map_nil, List.cons_append,
      List.nil_append] at htickets
    obtain ⟨-, hrest⟩ := List.cons.inj htickets
    exact habsent (hrest ▸ List.mem_append_right _ hmem)

/-! ### Turns without the call -/

theorem poll_without (l : Link) (h : Holder) (t : Ticket) :
    (l.without t).poll h = ((l.poll h).1.without t, (l.poll h).2) := by
  have hwrite : (l.without t).write h =
      besides (List.filter (fun q => q.ticket != t)) id id (l.write h) :=
    write_besides (List.filter (fun q => q.ticket != t)) id id l h
  rw [poll, poll, hwrite]
  rcases l.write h with ⟨m, result | h'⟩ <;> rfl

theorem drive_without (sound : l.Sound) (isOpen : l.closed = false) {h : Holder}
    (held : l.holder = some h) :
    (l.without t).drive h = ((l.drive h).1, (l.drive h).2.without t) := by
  have hpolled := polled_poll l h
  simp only [drive, poll_without]
  rcases hpoll : l.poll h with ⟨m, result | h'⟩
  · rfl
  · rw [hpoll] at hpolled
    have hopen : m.closed = false := hpolled.wrote_ok.closed_eq.trans isOpen
    have hsound : Sound { m with holder := some h' } := sound.goesOn held hpolled.wrote_ok
    have hfewer : (Link.without { m with holder := some h' } t).Sound :=
      hsound.withQueue fun q hq => (List.mem_filter.mp hq).1
    have hwith := hsound.giveUp_eq hopen
    have hless := hfewer.giveUp_eq hopen
    simp only [hwith]
    exact hless

theorem grant_without (notNext : ¬l.IsNext t) : (l.without t).grant = l.grant.without t := by
  cases held : l.holder with
  | some h => simp [grant, without, held]
  | none =>
    rcases hqueue : l.queue with _ | ⟨⟨u, errand⟩, rest⟩
    · simp [grant, without, held, hqueue]
    · have hother : (u != t) = true := by
        simpa using fun (heq : u = t) => notNext ⟨held, _, _, hqueue, heq⟩
      cases errand with
      | shutdown deadline => simp [grant, without, held, hqueue, hother]
      | command c =>
        by_cases isClosed : l.closed = true
        · simp [grant, without, held, hqueue, hother, isClosed]
        · simp [grant, without, held, hqueue, hother, isClosed, acquire, nextRequest]

theorem turn_without (sound : l.Sound) (notNext : ¬l.IsNext t) :
    (l.without t).turn = (l.turn.1, l.turn.2.without t) := by
  have hgrant := sound.grant
  have hnext : l.grant.holder = none → l.grant = l := by
    intro free
    generalize hg : l.grant = g at free
    cases hg ▸ granted_grant sound with
    | unchanged => rfl
    | acquired => cases free
  rw [turn, turn, grant_without notNext]
  generalize l.grant = g at hgrant hnext
  have hholder : (g.without t).holder = g.holder := rfl
  have hclosed : (g.without t).closed = g.closed := rfl
  cases held : g.holder with
  | some h =>
    simp only [hholder, held, hclosed]
    split
    · rfl
    · next isOpen => exact drive_without hgrant (by simpa using isOpen) held
  | none =>
    obtain rfl := hnext held
    rcases hqueue : g.queue with _ | ⟨⟨u, errand⟩, rest⟩
    · simp [without, held, hqueue]
    · have hother : (u != t) = true := by
        simpa using fun (heq : u = t) => notNext ⟨held, _, _, hqueue, heq⟩
      have hless : (g.without t).queue = ⟨u, errand⟩ :: rest.filter (fun q => q.ticket != t) := by
        simp [without, hqueue, hother]
      simp only [hholder, held, hless]
      cases errand <;> rfl

/-- While the call stays in the queue, it is not next, and it is not the one that ends. -/
theorem notNext_of_stays (sound : l.Sound) (distinct : l.tickets.Nodup)
    (stays : t ∈ l.turn.2.waiters) : ¬l.IsNext t ∧ ∀ f, l.turn.1 = some f → f.ticket ≠ t := by
  constructor
  · intro next
    exact left_of_isNext sound distinct next stays
  · rintro f ended rfl
    have htickets := turn_tickets sound
    rw [← htickets, ended] at distinct
    exact (List.nodup_cons.mp distinct).1 (List.mem_append_right _ (List.mem_append_right _ stays))

theorem nodup_turn (sound : l.Sound) (distinct : l.tickets.Nodup) : l.turn.2.tickets.Nodup := by
  rw [← turn_tickets sound] at distinct
  exact (List.nodup_append.mp distinct).2.1

theorem turns_without {n : Nat} (sound : l.Sound) (distinct : l.tickets.Nodup)
    (stays : t ∈ (turns n l).2.waiters) :
    turns n (l.without t) = ((turns n l).1, (turns n l).2.without t) ∧
      momentsOf n (l.without t) = (momentsOf n l).map (without · t) := by
  induction n generalizing l with
  | zero => exact ⟨rfl, rfl⟩
  | succ n ih =>
    have hstays : t ∈ l.turn.2.waiters := by
      rcases hturn : l.turn with ⟨_ | f, l'⟩
      · simpa [turns, hturn] using stays
      · have hsound := sound.of_turn hturn
        simp only [turns, hturn] at stays
        obtain ⟨q, hq, own⟩ := mem_waiters_iff.mp stays
        exact mem_waiters_iff.mpr ⟨q, (turns_queue_sublist hsound).subset hq, own⟩
    have notNext := (notNext_of_stays sound distinct hstays).1
    have hgrant := grant_without notNext
    have hless := turn_without sound notNext
    have hdistinct := nodup_turn sound distinct
    have hsound := sound.turn
    rcases hturn : l.turn with ⟨_ | f, l'⟩
    · rw [hturn] at hless
      simp [turns, momentsOf, hturn, hless, hgrant]
    · rw [hturn] at hless hdistinct hsound
      obtain ⟨hturns, hmoments⟩ := ih hsound hdistinct (by simpa [turns, hturn] using stays)
      simp [turns, momentsOf, hturn, hless, hgrant, hturns, hmoments]

theorem turns_add {n : Nat} (k : Nat) (sound : l.Sound) (enough : l.tickets.length < n) :
    turns (n + k) l = turns n l ∧ momentsOf (n + k) l = momentsOf n l := by
  induction n generalizing l with
  | zero => omega
  | succ n ih =>
    rw [Nat.add_right_comm]
    rcases hturn : l.turn with ⟨_ | f, l'⟩
    · simp [turns, momentsOf, hturn]
    · have hsound := sound.of_turn hturn
      have hlength : l'.tickets.length + 1 = l.tickets.length :=
        congrArg List.length (tickets_of_turn sound hturn)
      obtain ⟨hturns, hmoments⟩ := ih hsound (by omega)
      simp [turns, momentsOf, hturn, hturns, hmoments]

/-- Settling and its moments are the same without a call that stays in the queue. -/
theorem settle_without (sound : l.Sound) (distinct : l.tickets.Nodup)
    (stays : t ∈ l.settle.2.waiters) :
    (l.without t).settle = (l.settle.1, l.settle.2.without t) ∧
      momentsOf ((l.without t).callCount + 1) (l.without t) =
        (momentsOf (l.callCount + 1) l).map (without · t) := by
  have hsound : (l.without t).Sound := sound.withQueue fun q hq => (List.mem_filter.mp hq).1
  have hle : (l.without t).callCount ≤ l.callCount :=
    Nat.add_le_add_left (List.length_filter_le _ _) _
  obtain ⟨k, hk⟩ := Nat.exists_eq_add_of_le hle
  obtain ⟨hturns, hmoments⟩ := turns_without sound distinct stays
  have hmore := turns_add (n := (l.without t).callCount + 1) k hsound (by rw [tickets_length]; omega)
  rw [Nat.add_right_comm, ← hk] at hmore
  rw [settle, ← hmore.1, ← hmore.2]
  exact ⟨hturns, hmoments⟩

/-! ### Inputs without the call -/

/-- The input neither begins the call nor cancels it. -/
def Action.Spares (a : Action) (t : Ticket) : Prop := a.ticket? ≠ some t ∧ a ≠ .cancel t

theorem refusal?_without (idle : (l.without t).isIdle = l.isIdle) (turn : Turn) :
    (l.without t).refusal? turn = l.refusal? turn := by
  have hclosed : (l.without t).closed = l.closed := rfl
  cases turn with
  | wait => rfl
  | atOnce => simp only [refusal?, hclosed, idle]

theorem enqueue_without (q : Queued) (other : q.ticket ≠ t) :
    (l.without t).enqueue q = (l.enqueue q).without t := by
  simp [enqueue, without, other]

theorem resolve_without (reply : Reply) :
    (l.without t).resolve reply = (l.resolve reply).without t := by
  have hexpected : (l.without t).expected = l.expected := rfl
  rw [resolve, resolve, hexpected]
  split
  · split <;> rfl
  · rfl

theorem cancel_without {u : Ticket} : (l.without t).cancel u = (l.cancel u).without t := by
  have hfilter : (l.without t).without u = (l.without u).without t := by
    simp [without, List.filter_filter, Bool.and_comm]
  have hholder : (l.without t).holder = l.holder := rfl
  rw [cancel, cancel, hholder]
  split
  · split
    · rfl
    · exact hfilter
  · exact hfilter

theorem isIdle_without (busy : l.holder.isSome = true) : (l.without t).isIdle = l.isIdle := by
  have hholder : (l.without t).holder = l.holder := rfl
  have hnone : l.holder.isNone = false := by
    obtain ⟨h, held⟩ := Option.isSome_iff_exists.mp busy
    rw [held]
    rfl
  rw [isIdle, isIdle, hholder, hnone, Bool.false_and, Bool.false_and]

theorem begin_without {a : Action} (spares : a.Spares t) (busy : l.holder.isSome = true) :
    (l.without t).begin a = ((l.begin a).1, (l.begin a).2.without t) := by
  have hperform : ∀ m : Link, m.holder.isSome = true →
      (m.without t).perform a = ((m.perform a).1, (m.perform a).2.without t) := by
    intro m hbusy
    obtain ⟨hbegins, hcancels⟩ := spares
    cases a with
    | send u turn c =>
      have hother : u ≠ t := fun heq => hbegins (by rw [heq]; rfl)
      simp only [perform, refusal?_without (isIdle_without hbusy)]
      cases m.refusal? turn with
      | some e => rfl
      | none => simp only [enqueue_without ⟨u, .command c⟩ hother]
    | cancel u => simp only [perform, cancel_without]
    | resolve reply => simp only [perform, resolve_without]
    | shutdown u =>
      have hother : u ≠ t := fun heq => hbegins (by rw [heq]; rfl)
      have henqueue := enqueue_without (l := m.close) (t := t)
        ⟨u, .shutdown (m.clock + shutdownGrace)⟩ hother
      exact congrArg (Prod.mk []) henqueue
    | _ => rfl
  exact hperform (l.setReading (l.pipe.reading || a = .read)) busy

theorem step_without {a : Action} (sound : l.Sound) (spares : a.Spares t)
    (busy : l.holder.isSome = true) (distinct : (l.begin a).2.tickets.Nodup)
    (stays : t ∈ (l.step a).2.waiters) :
    (l.without t).step a = ((l.step a).1, (l.step a).2.without t) ∧
      (l.without t).moments a = (l.moments a).map (without · t) := by
  have hbegin := begin_without spares busy
  obtain ⟨hsettle, hmoments⟩ := settle_without (sound.begin a) distinct stays
  constructor
  · simp only [step, hbegin, hsettle]
    rfl
  · rw [moments, moments, hbegin]
    exact hmoments

theorem turns_tickets {n : Nat} (sound : l.Sound) :
    (turns n l).1.map Finished.ticket ++ (turns n l).2.tickets = l.tickets := by
  induction n generalizing l with
  | zero => rfl
  | succ n ih =>
    rcases hturn : l.turn with ⟨_ | f, l'⟩
    · simpa [turns, hturn] using turn_tickets sound
    · have hrest := ih (sound.of_turn hturn)
      simp only [turns, hturn, List.map_cons, List.cons_append]
      rw [hrest, tickets_of_turn sound hturn]

theorem run_length (l : Link) (as : List Action) : (l.run as).1.length = as.length := by
  induction as generalizing l with
  | nil => rfl
  | cons a as ih => simp [run, ih]

/-- A call that is in the queue after an input was there before, or has begun with it. -/
theorem waiters_step {a : Action} (sound : l.Sound) (stays : t ∈ (l.step a).2.waiters) :
    t ∈ l.waiters ∨ a.ticket? = some t := by
  obtain ⟨q, hq, rfl⟩ := mem_waiters_iff.mp stays
  have hbegun : q ∈ (l.begin a).2.queue :=
    (turns_queue_sublist (n := (l.begin a).2.callCount + 1) (sound.begin a)).subset hq
  obtain ⟨kept, joined, hqueue, hkept, hjoined, -⟩ := begin_queue l a
  rw [hqueue] at hbegun
  rcases List.mem_append.mp hbegun with hbefore | hnew
  · exact Or.inl (mem_waiters_iff.mpr ⟨q, hkept.subset hbefore, rfl⟩)
  · have hticket := hjoined.subset (List.mem_map_of_mem hnew)
    exact Or.inr (by simpa using hticket)

end Link

theorem OwnTickets.of_append {as bs : List Link.Action} (own : OwnTickets (as ++ bs)) :
    OwnTickets as := by
  rw [OwnTickets, ticketsOf, List.filterMap_append] at own
  exact (List.nodup_append.mp own).1

theorem OwnTickets.fresh {as : List Link.Action} {a : Link.Action} {t : Ticket}
    (own : OwnTickets (as ++ [a])) (begins : a.ticket? = some t) : t ∉ ticketsOf as := by
  intro began
  rw [OwnTickets, ticketsOf, List.filterMap_append] at own
  exact (List.nodup_append.mp own).2.2 t began t (by simp [begins]) rfl

namespace Setup

open Link

variable {s : Setup} {before mid later : List Action} {t : Ticket} {c : Command}

theorem nodup_begin {as : List Action} {a : Action} (own : OwnTickets (as ++ [a])) :
    ((s.after as).begin a).2.tickets.Nodup := by
  have hnodup := finished_nodup (s := s) own
  rw [finished_snoc, after_snoc] at hnodup
  rw [← turns_tickets (n := ((s.after as).begin a).2.callCount + 1) ((s.sound as).begin a)]
  refine hnodup.sublist ?_
  rw [step_finished, List.map_append, List.map_append, List.append_assoc, List.append_assoc]
  exact (List.sublist_append_right _ _).trans (List.sublist_append_right _ _)

theorem tickets_nodup {as : List Action} (own : OwnTickets as) : (s.after as).tickets.Nodup :=
  (List.nodup_append.mp (finished_nodup own)).2.1

theorem busy_of_waiter {as : List Action} (waits : t ∈ (s.after as).waiters) :
    (s.after as).holder.isSome = true := by
  cases held : (s.after as).holder with
  | some h => rfl
  | none =>
    rw [waiters, (s.atRest as).nobody_waits held] at waits
    cases waits

theorem other_of_waiter {as : List Action} (own : OwnTickets as)
    (waits : t ∈ (s.after as).waiters) {h : Holder} (held : (s.after as).holder = some h) :
    h.ticket ≠ t := by
  rintro rfl
  have hdistinct := tickets_nodup (s := s) own
  rw [tickets_eq, held] at hdistinct
  exact (List.nodup_cons.mp hdistinct).1 waits

theorem served_append (s : Setup) (as bs : List Action) :
    s.served (as ++ bs) = s.served as ++ servedIn ((s.after as).runMoments bs) := by
  rw [served, moments, runMoments_append, servedIn_append]
  rfl

/-- Nobody is served by an input of which nothing comes. -/
theorem served_of_idle {as : List Action} {a : Action} {refused : List Finished} {m : Link}
    (begun : (s.after as).begin a = (refused, m)) (same : s.after (as ++ [a]) = m) :
    s.served (as ++ [a]) = s.served as := by
  have hturn := turn_of_settled (s.sound (as ++ [a])) (s.atRest (as ++ [a])).toSettled
  have hgrant := (s.atRest (as ++ [a])).toSettled.grant_eq
  have hnobody := starter?_eq_none (s.underway (as ++ [a]))
  rw [same] at hturn hgrant hnobody
  rw [served_snoc, Link.moments, begun]
  simp [momentsOf, hturn, hgrant, hnobody]

/-! ### Runs without the call -/

/-- While the call waits, the run with it and the run without it show the same. -/
structure Unnoticed (s : Setup) (before mid : List Action) (t : Ticket) (c : Command) : Prop where
  after : s.after (before ++ mid) =
    (s.after (before ++ .send t .wait c :: mid)).without t
  served : s.served (before ++ .send t .wait c :: mid) = s.served (before ++ mid)
  reports : ∃ reports, reports.length = mid.length ∧
    s.reports (before ++ mid) = s.reports before ++ reports ∧
    s.reports (before ++ .send t .wait c :: mid) = s.reports before ++ ⟨[], []⟩ :: reports

theorem begin_send {as : List Action} (busy : (s.after as).holder.isSome = true) :
    (s.after as).begin (.send t .wait c) = ([], (s.after as).enqueue ⟨t, .command c⟩) := by
  obtain ⟨h, held⟩ := Option.isSome_iff_exists.mp busy
  have isOpen := ((s.atRest as).holder_stuck h held).1
  rw [begin_eq _ (by simp)]
  simp [perform, refusal?, isOpen]

theorem unnoticed_nil (own : OwnTickets (before ++ [.send t .wait c]))
    (busy : (s.after before).holder.isSome = true) : s.Unnoticed before [] t c := by
  have hbegin := begin_send (t := t) (c := c) busy
  have hstep : (s.after before).step (.send t .wait c) =
      (⟨[], []⟩, (s.after before).enqueue ⟨t, .command c⟩) :=
    step_of_begin hbegin ((s.sound before).enqueue fun _ => ⟨c, rfl⟩)
      ((s.atRest before).withQueue busy _) rfl
  have hfresh : t ∉ (s.after before).waiters := by
    intro waits
    obtain ⟨-, hknown⟩ := s.finished_and_left before (own.of_append)
    have hbegan := hknown t (List.mem_append_right _ (List.mem_append_right _ waits))
    exact own.fresh rfl hbegan
  have hafter : s.after (before ++ [.send t .wait c]) =
      (s.after before).enqueue ⟨t, .command c⟩ := by rw [after_snoc, hstep]
  constructor
  · have hless : ((s.after before).enqueue ⟨t, .command c⟩).without t =
        (s.after before).without t := by
      simp [enqueue, without]
    rw [List.append_nil, hafter, hless, without_eq_self hfresh]
  · rw [List.append_nil]
    exact served_of_idle hbegin hafter
  · refine ⟨[], rfl, by simp, ?_⟩
    rw [reports_snoc, hstep]

theorem unnoticed_snoc {a : Action} (own : OwnTickets (before ++ .send t .wait c :: (mid ++ [a])))
    (waits : t ∈ (s.after (before ++ .send t .wait c :: (mid ++ [a]))).waiters)
    (waited : t ∈ (s.after (before ++ .send t .wait c :: mid)).waiters)
    (unnoticed : s.Unnoticed before mid t c) : s.Unnoticed before (mid ++ [a]) t c := by
  have hsplit : before ++ .send t .wait c :: (mid ++ [a]) =
      (before ++ .send t .wait c :: mid) ++ [a] := by simp
  have hless : before ++ (mid ++ [a]) = (before ++ mid) ++ [a] := by simp
  have hmem : t ∈ ticketsOf (before ++ .send t .wait c :: mid) :=
    mem_ticketsOf (List.mem_append_right _ List.mem_cons_self) rfl
  rw [hsplit] at own waits
  have spares : a.Spares t := by
    constructor
    · intro begins
      exact own.fresh begins hmem
    · rintro rfl
      have hgone := cancelled_gone (s := s) own ⟨_, [], rfl, hmem⟩
      exact hgone (List.mem_append_right _ waits)
  obtain ⟨hafter, hserved, reports, hlength, hreports, hreports'⟩ := unnoticed
  rw [after_snoc] at waits
  obtain ⟨hstep, hmoments⟩ := step_without (s.sound _) spares (busy_of_waiter waited)
    (nodup_begin own) waits
  rw [← hafter] at hstep hmoments
  constructor
  · rw [hsplit, hless, after_snoc, after_snoc, hstep]
  · have hstarts : servedIn ((s.after (before ++ mid)).moments a) =
        servedIn ((s.after (before ++ .send t .wait c :: mid)).moments a) := by
      rw [hmoments, servedIn, List.filterMap_map]
      rfl
    rw [hsplit, hless, served_snoc, served_snoc, hserved, hstarts]
  · refine ⟨reports ++ [((s.after (before ++ mid)).step a).1], by simp [hlength], ?_, ?_⟩
    · rw [hless, reports_snoc, hreports, List.append_assoc]
    · rw [hsplit, reports_snoc, hreports', hstep, List.append_assoc, List.cons_append]

/-- A call that waits in the end has waited all the time. -/
theorem waited (rest : List Action) (own : OwnTickets (before ++ .send t .wait c :: (mid ++ rest)))
    (waits : t ∈ (s.after (before ++ .send t .wait c :: (mid ++ rest))).waiters) :
    t ∈ (s.after (before ++ .send t .wait c :: mid)).waiters := by
  induction rest using List.reverseRecOn with
  | nil => rwa [List.append_nil] at waits
  | append_singleton rest a ih =>
    have hsplit : before ++ .send t .wait c :: (mid ++ (rest ++ [a])) =
        (before ++ .send t .wait c :: (mid ++ rest)) ++ [a] := by simp
    rw [hsplit] at own waits
    refine ih own.of_append ?_
    rw [after_snoc] at waits
    refine (waiters_step (s.sound _) waits).resolve_right ?_
    intro begins
    refine own.fresh begins ?_
    exact mem_ticketsOf (List.mem_append_right _ List.mem_cons_self) rfl

theorem unnoticed (own : OwnTickets (before ++ .send t .wait c :: mid))
    (busy : (s.after before).holder.isSome = true)
    (waits : t ∈ (s.after (before ++ .send t .wait c :: mid)).waiters) :
    s.Unnoticed before mid t c := by
  induction mid using List.reverseRecOn with
  | nil => exact unnoticed_nil own busy
  | append_singleton mid a ih =>
    have hsplit : before ++ .send t .wait c :: (mid ++ [a]) =
        (before ++ .send t .wait c :: mid) ++ [a] := by simp
    have hown : OwnTickets (before ++ .send t .wait c :: mid) := (hsplit ▸ own).of_append
    have hwaited := waited [a] own waits
    exact unnoticed_snoc own waits hwaited (ih hown hwaited)

/-- The run with the call and the run without it show the same to everybody else. -/
structure Untraced (s : Setup) (before mid later : List Action) (t : Ticket) (c : Command) :
    Prop where
  /-- The two inputs by which the call comes and goes have empty reports, and the others
      have the same. -/
  reports : ∃ first meanwhile last : List Report,
    first.length = before.length ∧ meanwhile.length = mid.length ∧
      s.reports (before ++ mid ++ later) = first ++ meanwhile ++ last ∧
      s.reports (before ++ .send t .wait c :: mid ++ .cancel t :: later) =
        first ++ ⟨[], []⟩ :: meanwhile ++ ⟨[], []⟩ :: last
  /-- The others are served in the same order, with the same tokens. -/
  served : s.served (before ++ .send t .wait c :: mid ++ .cancel t :: later) =
    s.served (before ++ mid ++ later)
  /-- While the call waits the link is the same but for the call in its queue. -/
  meanwhile : ∀ n, s.after (before ++ mid.take n) =
    (s.after (before ++ .send t .wait c :: mid.take n)).without t
  after : s.after (before ++ .send t .wait c :: mid ++ .cancel t :: later) =
    s.after (before ++ mid ++ later)

/-- A call that is cancelled while it waits leaves no trace. -/
theorem untraced (own : OwnTickets (before ++ .send t .wait c :: mid))
    (busy : (s.after before).holder.isSome = true)
    (waits : t ∈ (s.after (before ++ .send t .wait c :: mid)).waiters) :
    s.Untraced before mid later t c := by
  obtain ⟨hafter, hserved, reports, hlength, hreports, hreports'⟩ := unnoticed own busy waits
  have hfirst : (s.reports before).length = before.length := run_length _ _
  obtain ⟨h, held⟩ := Option.isSome_iff_exists.mp (busy_of_waiter waits)
  have hcancel := step_cancel (s.sound _) (s.atRest _) held (other_of_waiter own waits held)
  have hgone : s.after ((before ++ .send t .wait c :: mid) ++ [.cancel t]) =
      s.after (before ++ mid) := by
    rw [after_snoc, hcancel, hafter]
  have hsplit : before ++ .send t .wait c :: mid ++ .cancel t :: later =
      ((before ++ .send t .wait c :: mid) ++ [.cancel t]) ++ later := by simp
  constructor
  · refine ⟨s.reports before, reports, ((s.after (before ++ mid)).run later).1, hfirst, hlength,
      ?_, ?_⟩
    · rw [reports_append, hreports]
    · rw [hsplit, reports_append, hgone, reports_snoc, hcancel, hreports']
      simp
  · have hidle : s.served ((before ++ .send t .wait c :: mid) ++ [.cancel t]) =
        s.served (before ++ mid) := by
      have hbegin : (s.after (before ++ .send t .wait c :: mid)).begin (.cancel t) =
          ([], s.after (before ++ mid)) := by
        rw [begin_eq _ (by simp), perform, cancel_eq_without, hafter]
        exact fun h held => other_of_waiter own waits held
      rw [← hserved]
      exact served_of_idle hbegin hgone
    rw [hsplit, s.served_append _ later, hgone, hidle, s.served_append _ later]
  · intro n
    have hprefix : mid.take n ++ mid.drop n = mid := List.take_append_drop n mid
    rw [← hprefix] at own waits
    have hown : OwnTickets ((before ++ .send t .wait c :: mid.take n) ++ mid.drop n) := by
      simpa using own
    exact (unnoticed hown.of_append busy (waited _ own waits)).after
  · rw [hsplit, after_append, hgone, ← after_append]

end Setup

end Pushdown
