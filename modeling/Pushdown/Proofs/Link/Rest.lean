/-
  Pushdown/Proofs/Link/Rest.lean
  ==============================
  **After each input a link is at rest.**  A turn ends at most one call, and there are
  as many turns as calls and one more; so the last turn ends none, and the link it
  leaves is one in which nothing can happen without further input.  Either no call
  is left, or one has the writer and is stuck, waiting for its reply or for room.

  At rest an input that changes nothing at once changes nothing at all
  (`step_of_begin_eq`).  This is what makes late and unknown replies harmless.
-/
import Pushdown.Proofs.Link.History

namespace Pushdown

namespace Link

/-! ### Turns and calls -/

section

variable {β : Type} {f : β → Ticket} {xs : List β} {t : Ticket}

theorem filter_of_absent (absent : t ∉ xs.map f) : xs.filter (fun x => f x != t) = xs := by
  rw [List.filter_eq_self]
  intro x hx
  simpa using fun (heq : f x = t) => absent (List.mem_map.mpr ⟨x, hx, heq⟩)

theorem map_filter_ticket (f : β → Ticket) (xs : List β) (t : Ticket) :
    (xs.filter (fun x => f x != t)).map f = (xs.map f).filter (· != t) := by
  rw [List.filter_map]
  rfl

end

theorem tickets_length (l : Link) : l.tickets.length = l.callCount := by
  simp [tickets, callCount]

theorem grant_tickets {l : Link} (sound : l.Sound) : l.grant.tickets = l.tickets := by
  generalize hg : l.grant = g
  cases hg ▸ granted_grant sound with
  | unchanged => rfl
  | acquired free queue => simp [tickets, acquire, free, queue]

/-- A turn takes the call that is over, and no other, from those that are left. -/
theorem turn_tickets {l : Link} (sound : l.Sound) :
    l.turn.1.toList.map Finished.ticket ++ l.turn.2.tickets = l.tickets := by
  rw [← grant_tickets sound]
  have turned := turned_turn sound
  generalize l.turn = r at turned ⊢
  cases turned with
  | idle => rfl
  | refused held => simp [tickets, held, Link.refused, Finished.ticket]
  | dismissed free queue | shuts free queue =>
    simp [tickets, free, queue, Link.refused, Finished.ticket, shutPipe]
  | goesOn held _ polled =>
    have hsame := polled.wrote_ok.holder_eq
    have hticket := congrArg Holder.ticket hsame
    simp only at hticket
    simp [tickets, held, hticket, polled.wrote_ok.queue_eq]
  | ended held _ polled =>
    obtain ⟨p, wrote⟩ := polled.wrote
    simp [tickets, held, Finished.ticket, wrote.queue_eq]

theorem tickets_of_turn {l m : Link} {f : Finished} (sound : l.Sound)
    (ended : l.turn = (some f, m)) : f.ticket :: m.tickets = l.tickets := by
  have htickets := turn_tickets sound
  rwa [ended] at htickets

theorem grant_queue_sublist {l : Link} (sound : l.Sound) : l.grant.queue.Sublist l.queue := by
  generalize hg : l.grant = g
  cases hg ▸ granted_grant sound with
  | unchanged => exact .refl _
  | acquired _ queue =>
    rw [queue]
    exact List.sublist_cons_self _ _

theorem turn_queue_sublist {l : Link} (sound : l.Sound) : l.turn.2.queue.Sublist l.queue := by
  refine List.Sublist.trans ?_ (grant_queue_sublist sound)
  have turned := turned_turn sound
  generalize l.turn = r at turned ⊢
  cases turned with
  | idle | refused => exact .refl _
  | dismissed _ queue | shuts _ queue =>
    rw [queue]
    exact List.sublist_cons_self _ _
  | goesOn _ _ polled => exact polled.wrote_ok.queue_eq ▸ .refl _
  | ended _ _ polled =>
    obtain ⟨p, wrote⟩ := polled.wrote
    simp [wrote.queue_eq]

/-! ### Coming to rest -/

/-- Nothing can happen, except that the VM reads. -/
structure Settled (l : Link) : Prop where
  nobody_waits : l.holder = none → l.queue = []
  holder_stuck : ∀ h, l.holder = some h → l.closed = false ∧ l.IsStuck h

/-- Nothing can happen without further input. -/
structure AtRest (l : Link) : Prop extends Settled l where
  nothing_unread : l.pipe.reading = true → l.pipe.readerGone = false →
    l.pipe.content = [] ∧ l.pipe.ended = l.pipe.shut

theorem settled_turn {l l' : Link} (sound : l.Sound) (last : l.turn = (none, l')) :
    l'.Settled := by
  have turned := turned_turn sound
  rw [last] at turned
  generalize l.grant = g at turned
  cases turned with
  | idle free empty =>
    constructor
    · intro _
      exact empty
    · intro h held
      rw [free] at held
      cases held
  | goesOn held isOpen polled =>
    constructor
    · intro free
      cases free
    · rintro _ ⟨⟩
      cases polled with
      | goesOn wrote stuck =>
        exact ⟨(wrote_of_eq wrote).closed_eq.trans isOpen, stuck.1, stuck.2, stuck.3⟩

theorem settled_turns {n : Nat} {l : Link} (sound : l.Sound) (enough : l.tickets.length < n) :
    (turns n l).2.Settled := by
  induction n generalizing l with
  | zero => omega
  | succ n ih =>
    rcases hturn : l.turn with ⟨_ | f, l'⟩
    · simpa [turns, hturn] using settled_turn sound hturn
    · have hsound := sound.of_turn hturn
      have hlength : l'.tickets.length + 1 = l.tickets.length :=
        congrArg List.length (tickets_of_turn sound hturn)
      simpa [turns, hturn] using ih hsound (by omega)

theorem settled_settle {l : Link} (sound : l.Sound) : l.settle.2.Settled :=
  settled_turns sound (by rw [tickets_length]; omega)

theorem Settled.atRest {l : Link} (settled : l.Settled) {reading : Bool}
    (less : reading = true → l.pipe.reading = true) :
    (l.drain.2.setReading reading).AtRest := by
  refine ⟨⟨settled.nobody_waits, fun h held => ?_⟩, fun hreading hreader => ?_⟩
  · obtain ⟨isOpen, inTime, unanswered, blocked⟩ := settled.holder_stuck h held
    refine ⟨isOpen, inTime, unanswered, ?_⟩
    rcases blocked with hphase | ⟨hphase, hroom, hreader⟩
    · exact Or.inl hphase
    · refine Or.inr ⟨hphase, ?_, ?_⟩
      · cases hwas : l.pipe.reading with
        | false =>
          have hnow : reading = false := by
            cases reading with
            | false => rfl
            | true => rw [less rfl] at hwas; cases hwas
          simpa [drain, setReading, Pipe.drained, Pipe.room, Pipe.flows, Pipe.free, hwas, hnow]
            using hroom
        | true =>
          -- a full pipe of a VM that reads all the time holds nothing at all
          have hcapacity : l.pipe.capacity = 0 := by
            by_contra hne
            simp [Pipe.room, Pipe.flows, hwas, Nat.pos_of_ne_zero hne] at hroom
          simp [drain, setReading, Pipe.drained, Pipe.takeAll, Pipe.room, Pipe.flows, Pipe.free,
            hwas, hreader, hcapacity]
      · simp only [drain, setReading, Pipe.drained, Pipe.takeAll]
        split <;> [split; skip] <;> simp_all
  · have hwas := less hreading
    simp only [drain, setReading, Pipe.drained, hwas, if_true, Pipe.takeAll] at hreader ⊢
    split at hreader <;> simp_all

/-! ### The pipe within a step -/

theorem drain_pipe (l : Link) : l.drain.1 ++ l.drain.2.pipe.content = l.pipe.content := by
  simp only [drain, Pipe.drained, Pipe.takeAll]
  split
  · split <;> simp
  · rfl

theorem drain_readerGone (l : Link) : l.drain.2.pipe.readerGone = l.pipe.readerGone := by
  simp only [drain, Pipe.drained, Pipe.takeAll]
  split
  · split <;> rfl
  · rfl

theorem grant_pipe {l : Link} (sound : l.Sound) : l.grant.pipe = l.pipe := by
  generalize hg : l.grant = g
  cases hg ▸ granted_grant sound <;> rfl

theorem grant_closed {l : Link} (sound : l.Sound) : l.grant.closed = l.closed := by
  generalize hg : l.grant = g
  cases hg ▸ granted_grant sound <;> rfl

theorem turn_pipe {l : Link} (sound : l.Sound) :
    ∃ written shut,
      l.turn.2.pipe = { l.pipe with content := l.pipe.content ++ written, shut } := by
  have hsame : ∀ p : Pipe, p = { p with content := p.content ++ [], shut := p.shut } := by
    intro p
    rw [List.append_nil]
  rw [← grant_pipe sound]
  have turned := turned_turn sound
  generalize l.turn = r at turned ⊢
  cases turned with
  | idle | refused | dismissed => exact ⟨[], _, hsame _⟩
  | shuts => exact ⟨[], true, by rw [List.append_nil]; rfl⟩
  | goesOn _ _ polled =>
    obtain ⟨written, hpipe⟩ := polled.wrote_ok.pipe_eq
    exact ⟨written, _, hpipe⟩
  | ended _ _ polled =>
    obtain ⟨p, wrote⟩ := polled.wrote
    obtain ⟨written, hpipe⟩ := wrote.pipe_eq
    exact ⟨written, _, hpipe⟩

theorem turn_reading {l : Link} (sound : l.Sound) :
    l.turn.2.pipe.reading = l.pipe.reading := by
  obtain ⟨written, shut, hpipe⟩ := turn_pipe sound
  rw [hpipe]

theorem turn_readerGone {l : Link} (sound : l.Sound) :
    l.turn.2.pipe.readerGone = l.pipe.readerGone := by
  obtain ⟨written, shut, hpipe⟩ := turn_pipe sound
  rw [hpipe]

theorem turn_content {l : Link} (sound : l.Sound) :
    l.pipe.content <+: l.turn.2.pipe.content := by
  obtain ⟨written, shut, hpipe⟩ := turn_pipe sound
  rw [hpipe]
  exact List.prefix_append _ _

theorem turns_reading {n : Nat} {l : Link} (sound : l.Sound) :
    (turns n l).2.pipe.reading = l.pipe.reading :=
  turns_kept (P := fun l' => l'.pipe.reading = l.pipe.reading)
    (fun _ sound h => (turn_reading sound).trans h) sound rfl

/-! ### Steps from rest to rest -/

theorem atRest_step {l : Link} (sound : l.Sound) (a : Action) : (l.step a).2.AtRest := by
  have hbegin := sound.begin a
  apply (settled_settle hbegin).atRest
  intro hreading
  change (turns _ _).2.pipe.reading = true
  rw [turns_reading hbegin, begin_reading, hreading, Bool.true_or]

theorem Settled.grant_eq {l : Link} (settled : l.Settled) : l.grant = l := by
  cases held : l.holder with
  | none => simp [grant, held, settled.nobody_waits held]
  | some h => simp [grant, held]

theorem turn_of_settled {l : Link} (sound : l.Sound) (settled : l.Settled) :
    l.turn = (none, l) := by
  cases hholder : l.holder with
  | none => simp [turn, grant, hholder, settled.nobody_waits hholder]
  | some h =>
    obtain ⟨isOpen, stuck⟩ := settled.holder_stuck h hholder
    have hpoll := poll_of_isStuck stuck fun hphase => sound.writing_buffer h hholder (Or.inl hphase)
    have hself : { l with holder := some h } = l := by rw [← hholder]
    have hdrive : l.drive h = (none, l) := by
      unfold drive
      rw [hpoll]
      change Link.giveUp { l with holder := some h } = (none, l)
      rw [hself, sound.giveUp_eq isOpen]
    simp [turn, settled.grant_eq, hholder, isOpen, hdrive]

theorem settle_of_atRest {l : Link} (sound : l.Sound) (rest : l.AtRest) :
    l.settle = ([], l) := by
  simp [settle, turns, turn_of_settled sound rest.toSettled]

theorem drain_of_atRest {l : Link} (rest : l.AtRest) : l.drain = ([], l) := by
  have hdrained : l.pipe.drained = ([], l.pipe) := by
    unfold Pipe.drained Pipe.takeAll
    split
    · next hreading =>
      split
      · rfl
      · next hreader =>
        obtain ⟨hcontent, hended⟩ := rest.nothing_unread hreading (by simpa using hreader)
        cases hpipe : l.pipe
        simp_all
    · rfl
  rw [drain, hdrained]

/-- An input after which the link is at rest changes nothing but what it changes at once. -/
theorem step_of_begin {l m : Link} {a : Action} {refused : List Finished}
    (begun : l.begin a = (refused, m)) (sound : m.Sound) (rest : m.AtRest)
    (reading : m.pipe.reading = l.pipe.reading) : l.step a = (⟨[], refused⟩, m) := by
  have hself : m.setReading l.pipe.reading = m := by
    rw [← reading]
    rfl
  simp [step, begun, settle_of_atRest sound rest, drain_of_atRest rest, hself]

/-- An input at rest that changes nothing at once changes nothing at all. -/
theorem step_of_begin_eq {l : Link} (sound : l.Sound) (rest : l.AtRest) {a : Action}
    {refused : List Finished} (same : l.begin a = (refused, l)) :
    l.step a = (⟨[], refused⟩, l) :=
  step_of_begin same sound rest rfl

/-- While a call is stuck it makes no difference who waits behind it. -/
theorem AtRest.withQueue {l : Link} (rest : l.AtRest) (busy : l.holder.isSome = true)
    (queue : List Queued) : AtRest { l with queue } := by
  refine ⟨⟨?_, ?_⟩, rest.nothing_unread⟩
  · intro free
    have hfree : l.holder = none := free
    rw [hfree] at busy
    cases busy
  · intro h held
    obtain ⟨isOpen, inTime, unanswered, blocked⟩ := rest.holder_stuck h held
    exact ⟨isOpen, inTime, unanswered, blocked⟩

end Link

namespace Setup

variable (s : Setup)

theorem atRest (as : List Link.Action) : (s.after as).AtRest := by
  induction as using List.reverseRecOn with
  | nil =>
    refine ⟨⟨fun _ => rfl, fun h held => by cases held⟩, fun _ _ => ⟨rfl, rfl⟩⟩
  | append_singleton as a _ =>
    rw [after_snoc]
    exact Link.atRest_step (s.sound as) a

end Setup

end Pushdown
