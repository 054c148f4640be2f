/-
  Pushdown/Proofs/Link/Fate.lean
  ==============================
  **How a call fares that has the writer.**  In each step in which a call has the writer
  it has one turn (`Setup.HasTurn`), and of that turn comes one of five things
  (`Setup.Fate`): it still has the writer at the end of the step, it is told what the VM
  said, its time is over, its line is refused, or its write fails.

  Only a call whose time is over at the end of the step ends for that reason, and only if
  its line is not written by then or no reply to it has come.  That the line is not
  written at the end of the *step* needs an argument about the calls that get the writer
  after it: they write the rest of the line before their own.  But the call has written
  all there was room for, so they find the pipe full (`HasTurn.isFull`), and nobody reads
  before the step is over.
-/
import Pushdown.Proofs.Link.Clock
import Pushdown.Proofs.Link.Closing

namespace Pushdown

open Link

namespace Link

variable {l l' : Link} {h h' : Holder}

/-! ### A pipe without room -/

/-- There is no room, and who gets the writer now finds none either. -/
def IsFull (l : Link) : Prop :=
  l.pipe.free = 0 ∧ (l.pipe.flows true = false ∨ l.timeLimit = some 0)

theorem IsFull.barred (full : l.IsFull) (now : h.since = l.clock) : l.IsBarred h := by
  obtain ⟨hfree, hflows | hlimit⟩ := full
  · refine Or.inr ⟨hfree, ?_⟩
    cases l.isOverdue h with
    | true => rfl
    | false => exact hflows
  · have hlate : l.isOverdue h = true := by simp [isOverdue, hlimit, now]
    exact Or.inr ⟨hfree, by rw [hlate]; rfl⟩

theorem IsFull.of_pipe (full : l.IsFull) {pipe : Pipe} (capacity : pipe.capacity = l.pipe.capacity)
    (content : pipe.content = l.pipe.content) (reading : pipe.reading = l.pipe.reading) :
    pipe.free = 0 ∧ (pipe.flows true = false ∨ l.timeLimit = some 0) := by
  simpa only [IsFull, Pipe.free, Pipe.flows, capacity, content, reading] using full

/-- While the pipe is full and the writer is free, no byte goes into the pipe. -/
theorem turns_of_full {n : Nat} (sound : l.Sound) (full : l.IsFull) (free : l.holder = none) :
    (turns n l).2.pipe.content = l.pipe.content := by
  refine (turns_kept (P := fun m => m.IsFull ∧ (∀ h, m.holder = some h → h.since = m.clock) ∧
    m.pipe.content = l.pipe.content) ?_ sound ⟨full, ?_, rfl⟩).2.2
  · rintro m sound ⟨full, hnow, hsame⟩
    have hgrant : ∀ h, m.grant.holder = some h → h.since = m.clock := by
      intro h held
      rcases grant_holder sound held with hwas | ⟨-, -, hsince, -⟩
      · exact hnow h hwas
      · exact hsince
    have hfull : m.grant.IsFull := by
      rw [IsFull, grant_pipe sound, grant_timeLimit sound]
      exact full
    have hcontent := turn_of_barred sound fun h held =>
      hfull.barred ((hgrant h held).trans (grant_clock sound).symm)
    obtain ⟨written, shut, hpipe⟩ := turn_pipe sound
    refine ⟨?_, ?_, hcontent.trans hsame⟩
    · rw [IsFull, (turn_clock sound).2]
      exact full.of_pipe (by rw [hpipe]) hcontent (by rw [hpipe])
    · intro h' held
      obtain ⟨h, hheld, -, -, hsince⟩ := turn_holder sound held
      rw [hsince, (turn_clock sound).1]
      exact hgrant h hheld
  · intro h held
    rw [free] at held
    cases held

theorem free_of_room {p : Pipe} (none : p.room (!true) 1 = 0) : p.free = 0 := by
  have hflows : p.flows (!true) = false := rfl
  rw [Pipe.room, hflows, if_neg Bool.false_ne_true] at none
  omega

/-- A call whose time is over leaves no room when a part of its line is left. -/
theorem free_writeLine (late : l.isOverdue h = true) (heq : l.writeLine h = (l', .ok h'))
    (left : h'.phase = .writing) : l'.pipe.free = 0 := by
  unfold writeLine at heq
  split at heq
  · cases heq
  · next hflush =>
    obtain ⟨rfl, -⟩ := flush?_eq_some hflush
    cases heq
    have hroom := room_shift rfl (ne_nil_of_phaseAt (Or.inl left))
    rw [late] at hroom ⊢
    exact free_of_room hroom

theorem free_startLine (late : l.isOverdue h = true) (heq : l.startLine h = (l', .ok h'))
    (left : h'.phase = .writing) : l'.pipe.free = 0 := by
  have hput : ∀ m : Link, m.isOverdue h = true → m.putLine h = (l', .ok h') →
      l'.pipe.free = 0 := by
    intro m hm hput
    unfold putLine at hput
    split at hput
    · cases hput
    · next line _ =>
      exact free_writeLine (l := { m with buffer := m.buffer ++ Text.Utf8.encode line.toList })
        hm hput left
  unfold startLine at heq
  split at heq
  · exact hput l late heq
  · simp only at heq
    split at heq
    · cases heq
    · next hflush =>
      obtain ⟨rfl, -⟩ := flush?_eq_some hflush
      split at heq
      · exact hput (l.shift _ _) late heq
      · cases heq
        cases left

theorem free_write (late : l.isOverdue h = true) (heq : l.write h = (l', .ok h'))
    (left : h'.phase = .writing) : l'.pipe.free = 0 := by
  unfold write at heq
  split at heq
  · exact free_startLine late heq left
  · next hphase =>
    split at heq
    · exact free_startLine late heq left
    · cases heq
      rw [hphase] at left
      cases left
  · exact free_writeLine late heq left
  · next hphase =>
    cases heq
    rw [hphase] at left
    cases left

/-! ### Lines of later turns -/

theorem linesIn_tickets {n : Nat} (sound : l.Sound) {p : Sending}
    (line : p ∈ linesIn (momentsOf n l)) : p.ticket ∈ l.tickets := by
  obtain ⟨g, hg, henters⟩ := List.mem_filterMap.mp line
  obtain ⟨k, -, -, rfl⟩ := exists_turn_of_moment hg
  have hsound : (turns k l).2.Sound := sound.turns
  have hthere : p.ticket ∈ (turns k l).2.grant.tickets := by
    unfold enters? at henters
    obtain ⟨h, held, hentered⟩ := Option.bind_eq_some_iff.mp henters
    split at hentered
    · obtain rfl := Option.some.inj hentered
      simp [tickets, held]
    · cases hentered
  rw [grant_tickets hsound] at hthere
  rw [← turns_tickets (n := k) sound]
  exact List.mem_append_right _ hthere

end Link

/-! ### Lines that are not written -/

theorem not_isWritten_of_absent {sent : List UInt8} {lines : List Sending} {l : Link} {t : Ticket}
    (absent : t ∉ lines.map Sending.ticket) : ¬IsWritten sent lines l t := by
  rintro ⟨earlier, p, later, rfl, rfl, -⟩
  exact absent (by simp)

/-- As long as a part of its line is left, the call has not written it. -/
theorem not_isWritten_of_left {sent left : List UInt8} {front newer : List Sending}
    {p : Sending} {l : Link} (distinct : ((front ++ p :: newer).map Sending.ticket).Nodup)
    (whole : sent ++ l.pipe.content ++ left = (front ++ [p]).flatMap Sending.bytes)
    (some : left ≠ []) : ¬IsWritten sent (front ++ p :: newer) l p.ticket := by
  rintro ⟨earlier, q, later, hlines, hticket, hpart⟩
  obtain rfl : q = p := by
    apply List.inj_on_of_nodup_map distinct _ (by simp) hticket
    rw [hlines]
    simp
  have hnodup := distinct.of_map
  have hapart := List.nodup_append.mp hnodup
  have hfront : q ∉ front := fun hq => hapart.2.2 q hq q (by simp) rfl
  have hnewer : q ∉ newer := (List.nodup_cons.mp hapart.2.1).1
  obtain ⟨rfl, -, -⟩ := (List.append_cons_inj_of_notMem hfront hnewer).mp hlines
  have hlength := hpart.length_le
  rw [← whole, List.length_append] at hlength
  have hpositive := List.length_pos_of_ne_nil some
  omega

namespace Setup

variable {s : Setup} {as : List Action} {a : Action} {p : Sending} {ms limit k : Nat}
  {h : Holder}

/-! ### The turn of a call -/

/-- The call has its turn in this step, after so many that have ended a call each. -/
structure HasTurn (s : Setup) (as : List Action) (a : Action) (k : Nat) (h : Holder) : Prop where
  early : k < ((s.after as).begin a).2.callCount + 1
  all : (turns k ((s.after as).begin a).2).1.length = k
  held : (s.within as a k).grant.holder = some h

/-- The call is over in this step with this result. -/
def EndsWith (s : Setup) (as : List Action) (a : Action) (t : Ticket)
    (result : Except Error Payload) : Prop :=
  .command t result ∈ ((s.after as).step a).1.finished

/-- The call has the writer in this step.  At the end of the step it will have had it for
    so many milliseconds, unless it is over before. -/
structure HasWriter (s : Setup) (as : List Action) (a : Action) (p : Sending) (ms : Nat) :
    Prop where
  got : s.GotWriter (as ++ [a]) p ms
  notOver : p.ticket ∉ (s.finished as).map Finished.ticket
  kept : ¬IsCancelled (as ++ [a]) p.ticket

theorem within_clock (s : Setup) (as : List Action) (a : Action) (k : Nat) :
    (s.within as a k).clock = (s.after as).clock + a.duration ∧
      (s.within as a k).timeLimit = s.timeLimit := by
  obtain ⟨hclock, hlimit⟩ := turns_clock (n := k) ((s.sound as).begin a)
  exact ⟨hclock.trans (begin_clock _ a),
    hlimit.trans ((begin_timeLimit _ a).trans (s.after_timeLimit as))⟩

/-- Only the passing of time makes a call late that had the writer before. -/
theorem advance_of_late (held : ((s.after as).begin a).2.holder = some h)
    (late : ((s.after as).begin a).2.isOverdue h = true) :
    (∃ ms, a = .advance ms) ∧ ∃ h₀, (s.after as).holder = some h₀ ∧ h.phase = h₀.phase := by
  obtain ⟨h₀, held₀, -, -, hphase, hsince⟩ := begin_holder held
  have hinTime := ((s.atRest as).holder_stuck h₀ held₀).2.inTime
  rw [isOverdue, begin_clock, begin_timeLimit, hsince] at late
  rw [isOverdue] at hinTime
  refine ⟨Action.advance_of_duration fun hzero => ?_, h₀, held₀, hphase⟩
  rw [hzero, Nat.add_zero, hinTime] at late
  cases late

namespace HasTurn

variable (turn : s.HasTurn as a k h)

include turn

/-- The call had the writer when the step began, or it has just got it. -/
theorem start_or_fresh : k = 0 ∧ ((s.after as).begin a).2.holder = some h ∨
    (s.within as a k).closed = false ∧ h.since = (s.within as a k).clock ∧ h.handed = none ∧
      (s.within as a k).grant.starter? = some ⟨h.ticket, h.request⟩ := by
  have hsound := s.sound_within as a k
  rcases grant_holder hsound turn.held with held | ⟨-, isOpen, hsince, hhanded, hstarter⟩
  · obtain ⟨-, hall, -⟩ := turn
    rcases k with _ | k
    · exact Or.inl ⟨rfl, held⟩
    · have hfree := turns_free ((s.sound as).begin a) hall
      rw [within, hfree] at held
      cases held
  · exact Or.inr ⟨isOpen, hsince, hhanded, hstarter⟩

theorem got : ∃ ms, s.GotWriter (as ++ [a]) ⟨h.ticket, h.request⟩ ms ∧
    h.since + ms = (s.within as a k).clock := by
  rcases turn.start_or_fresh with ⟨rfl, held⟩ | ⟨-, hsince, -, hstarter⟩
  · exact s.since_within as a 0 h held
  · refine ⟨0, gotWriter_snoc.mpr (Or.inl ⟨?_, rfl⟩), hsince⟩
    exact List.mem_filterMap.mpr ⟨_, grant_mem_momentsOf turn.all turn.early, hstarter⟩

theorem isOverdue_iff (got : s.GotWriter (as ++ [a]) ⟨h.ticket, h.request⟩ ms) :
    (s.within as a k).grant.isOverdue h = true ↔
      ∃ limit, s.timeLimit = some limit ∧ limit ≤ ms := by
  obtain ⟨ms', hgot, hsince⟩ := turn.got
  obtain rfl := got.unique hgot
  have hsound := s.sound_within as a k
  rw [isOverdue, grant_timeLimit hsound, grant_clock hsound, (s.within_clock as a k).2, ← hsince]
  cases s.timeLimit <;> simp

theorem endsWith {result : Except Error Payload}
    (ended : (s.within as a k).turn.1 = some (.command h.ticket result)) :
    s.EndsWith as a h.ticket result := by
  obtain ⟨j, -, hturns, -⟩ := turns_at turn.all turn.early ended
  rw [EndsWith, step_finished, hturns]
  refine List.mem_append_right _ ?_
  exact List.mem_append_right _ List.mem_cons_self

theorem mem_tickets : h.ticket ∈ (s.within as a k).tickets := by
  rw [← grant_tickets (s.sound_within as a k)]
  simp [tickets, turn.held]

end HasTurn

theorem within_tickets (s : Setup) (as : List Action) (a : Action) (k : Nat) :
    (s.within as a k).tickets.Sublist ((s.after as).begin a).2.tickets := by
  rw [← turns_tickets (n := k) ((s.sound as).begin a)]
  exact List.sublist_append_right _ _

/-- Whoever is there when the input has been taken in was not over before, and is not
    cancelled. -/
theorem begun_tickets (own : OwnTickets (as ++ [a])) {t : Ticket}
    (there : t ∈ ((s.after as).begin a).2.tickets) :
    t ∉ (s.finished as).map Finished.ticket ∧ ¬IsCancelled (as ++ [a]) t := by
  obtain ⟨kept, hkept, hperm, -⟩ := begin_tickets (s.after as) a
  have hbefore : ∀ u ∈ ticketsOf as, u ∉ a.ticket?.toList := by
    intro u began hnow
    exact own.fresh (by simpa using hnow) began
  have hnodup := finished_nodup (s := s) own.of_append
  rcases List.mem_append.mp (hperm.mem_iff.mp (List.mem_append_right _ there)) with hwas | hnew
  · refine ⟨fun hover => ?_, ?_⟩
    · exact (List.nodup_append.mp hnodup).2.2 t hover t (hkept.subset hwas) rfl
    · rintro ⟨before, later, hsplit, hbegan⟩
      rcases snoc_eq_split hsplit with ⟨rfl, rfl, -⟩ | ⟨later', -, has⟩
      · exact begin_cancel_tickets (List.nodup_append.mp hnodup).2.1 t there
      · exact cancelled_gone own.of_append ⟨before, later', has, hbegan⟩ (hkept.subset hwas)
  · refine ⟨fun hover => ?_, ?_⟩
    · exact hbefore t ((s.finished_and_left as own.of_append).2 t
        (List.mem_append_left _ hover)) hnew
    · rintro ⟨before, later, hsplit, hbegan⟩
      rcases snoc_eq_split hsplit with ⟨rfl, rfl, -⟩ | ⟨later', -, rfl⟩
      · exact hbefore t hbegan hnew
      · refine hbefore t ?_ hnew
        rw [ticketsOf, List.filterMap_append]
        exact List.mem_append_left _ hbegan

theorem HasTurn.hasWriter (own : OwnTickets (as ++ [a])) (turn : s.HasTurn as a k h)
    (got : s.GotWriter (as ++ [a]) ⟨h.ticket, h.request⟩ ms) :
    s.HasWriter as a ⟨h.ticket, h.request⟩ ms := by
  obtain ⟨notOver, kept⟩ := begun_tickets (s := s) own
    ((s.within_tickets as a k).subset turn.mem_tickets)
  exact ⟨got, notOver, kept⟩

theorem HasWriter.hasTurn (own : OwnTickets (as ++ [a])) (has : s.HasWriter as a p ms) :
    ∃ k h, s.HasTurn as a k h ∧ (⟨h.ticket, h.request⟩ : Sending) = p := by
  rcases gotWriter_snoc.mp has.got with ⟨hserved, -⟩ | ⟨earlier, hgot, -⟩
  · obtain ⟨g, hg, hstarter⟩ := List.mem_filterMap.mp hserved
    obtain ⟨k, early, all, rfl⟩ := exists_turn_of_moment hg
    obtain ⟨h, held, hp⟩ := Option.bind_eq_some_iff.mp hstarter
    refine ⟨k, h, ⟨early, all, held⟩, ?_⟩
    split at hp
    · exact Option.some.inj hp
    · cases hp
  · have hkept : ¬IsCancelled as p.ticket := fun hcancelled => has.kept (hcancelled.append [a])
    obtain ⟨h₀, held₀, rfl⟩ := holder_of_served own.of_append hgot.served has.notOver hkept
    obtain ⟨turn, hsent⟩ := s.served_sent hgot.served
    have hstays : a ≠ .cancel h₀.ticket := by
      rintro rfl
      exact has.kept ⟨as, [], rfl, mem_ticketsOf hsent rfl⟩
    obtain ⟨h, held, hticket, hrequest⟩ := begin_keeps held₀ hstays
    refine ⟨0, h, ⟨Nat.succ_pos _, rfl, ?_⟩, by rw [hticket, hrequest]⟩
    have hgrant := grant_eq_of_held held
    rw [within, turns, hgrant]
    exact held

/-! ### Replies -/

/-- A reply with the token of the call has come since the call got the writer. -/
def IsReplied (s : Setup) (as : List Action) (p : Sending) : Prop :=
  ∃ before reply later, as = before ++ .resolve reply :: later ∧ p ∈ s.served before ∧
    reply.token = p.request.token

theorem token_lt_of_served (served : p ∈ s.served as) :
    p.request.token < (s.after as).nextToken := by
  have htoken := List.mem_map_of_mem (f := fun q : Sending => q.request.token) served
  rw [(s.serving as).tokens, List.mem_range'_1] at htoken
  rw [(s.serving as).nextToken]
  omega

/-- Once a reply has come no other is expected. -/
theorem IsReplied.spent (replied : s.IsReplied (as ++ [a]) p) (k : Nat) :
    (s.within as a k).Spent p.request.token := by
  suffices hbegun : ((s.after as).begin a).2.Spent p.request.token from
    turns_kept (P := fun l => l.Spent p.request.token) (fun _ sound spent => spent.turn sound)
      ((s.sound as).begin a) hbegun
  obtain ⟨before, reply, later, hsplit, hserved, htoken⟩ := replied
  have hdrawn := token_lt_of_served hserved
  rw [← htoken] at hdrawn ⊢
  rcases snoc_eq_split hsplit with ⟨rfl, rfl, -⟩ | ⟨later', -, has⟩
  · exact begin_resolve_spent hdrawn
  · rcases early_or_spent (s := s) has with hearly | spent
    · omega
    · exact spent.begin a

theorem HasTurn.not_replied (turn : s.HasTurn as a k h)
    (isOpen : (s.within as a k).grant.closed = false) (unanswered : h.handed = none) :
    ¬s.IsReplied (as ++ [a]) ⟨h.ticket, h.request⟩ := by
  intro replied
  have hsound := s.sound_within as a k
  have hspent := (replied.spent k).grant hsound
  exact hspent.2 _ (hsound.grant.holder_expected h turn.held unanswered isOpen) rfl

theorem served_subset {before later : List Action} (split : as = before ++ later) :
    s.served before ⊆ s.served as := by
  rw [split, served_append]
  exact List.subset_append_left _ _

theorem isReplied_of_answer (own : OwnTickets as) (served : p ∈ s.served as)
    {result : Except Error Payload} (finished : .command p.ticket result ∈ s.finished as)
    (answer : IsAnswer result) : s.IsReplied as p := by
  obtain ⟨before, reply, later, hsplit, ⟨c, turn, -, ⟨-, h, held, hticket, hrequest⟩, -⟩, -⟩ :=
    (s.traced as).finished_answered _ _ finished answer
  have hserved := holder_served held
  obtain rfl := served_ticket own served (served_subset hsplit hserved) hticket.symm
  exact ⟨before, reply, later, hsplit, hserved, by rw [hrequest]⟩

/-! ### Lines of calls whose time is over -/

theorem lines_nodup (own : OwnTickets as) : ((s.lines as).map Sending.ticket).Nodup := by
  have hserved := (s.serving as).order.nodup own
  rw [List.nodup_append] at hserved
  exact hserved.1.sublist ((s.streaming as).lined.among.map _)

theorem sent_content_snoc (s : Setup) (as : List Action) (a : Action) :
    s.sent (as ++ [a]) ++ (s.after (as ++ [a])).pipe.content =
      s.sent as ++ ((s.after as).begin a).2.settle.2.pipe.content := by
  rw [sent_snoc, after_snoc, List.append_assoc]
  exact congrArg (s.sent as ++ ·) (drain_pipe _)

/-- A call that runs out of time in the middle of its line leaves a full pipe. -/
theorem HasTurn.isFull (turn : s.HasTurn as a k h) {l' : Link} {h' : Holder}
    (wrote : (s.within as a k).grant.write h = (l', .ok h'))
    (late : (s.within as a k).grant.isOverdue h = true) (left : h'.phase = .writing) :
    l'.IsFull := by
  refine ⟨free_write late wrote left, ?_⟩
  have hwrote := wrote_of_eq wrote
  obtain ⟨written, hpipe⟩ := hwrote.pipe_eq
  have hsound := s.sound_within as a k
  have hflows : l'.pipe.flows true = (s.within as a k).pipe.flows true := by
    rw [hpipe, grant_pipe hsound]
    rfl
  rcases turn.start_or_fresh with ⟨rfl, held⟩ | ⟨-, hsince, -⟩
  · -- it has been waiting for room, and there was none
    have hgrant := grant_eq_of_held held
    change ((s.after as).begin a).2.grant.isOverdue h = true at late
    change ((s.after as).begin a).2.grant.write h = _ at wrote
    rw [hgrant] at late wrote
    obtain ⟨⟨ms, rfl⟩, h₀, held₀, hphase⟩ := advance_of_late held late
    rcases ((s.atRest as).holder_stuck h₀ held₀).2.blocked with hwaiting | ⟨-, hroom, -⟩
    · rw [write, hphase, hwaiting] at wrote
      cases wrote
      rw [hphase, hwaiting] at left
      cases left
    · refine Or.inl ?_
      rw [hflows, within, turns, begin_eq _ (by simp)]
      change (s.after as).pipe.flows true = false
      by_contra hflow
      rw [Bool.not_eq_false] at hflow
      rw [Pipe.room, if_pos hflow] at hroom
      cases hroom
  · refine Or.inr ?_
    rw [hwrote.timeLimit_eq, grant_timeLimit hsound]
    rw [isOverdue, grant_timeLimit hsound, grant_clock hsound, hsince] at late
    cases hlimit : (s.within as a k).timeLimit with
    | none =>
      rw [hlimit] at late
      cases late
    | some limit =>
      rw [hlimit] at late
      simp only [Option.any_some, decide_eq_true_eq] at late
      rw [Option.some.injEq]
      omega

/-- The lines that have been entered by the end of a turn. -/
def linesThrough (s : Setup) (as : List Action) (a : Action) (k : Nat) : List Sending :=
  linesIn (s.moments as ++ momentsOf k ((s.after as).begin a).2) ++
    (s.within as a k).grant.enters?.toList

/-- After a turn that ends a call come the turns of other calls, with their lines. -/
theorem HasTurn.exists_later (own : OwnTickets (as ++ [a])) (turn : s.HasTurn as a k h)
    {m : Link} {result : Except Error Payload}
    (ended : (s.within as a k).turn = (some (.command h.ticket result), m)) :
    ∃ j newer, s.lines (as ++ [a]) = s.linesThrough as a k ++ newer ∧
      h.ticket ∉ newer.map Sending.ticket ∧
      s.sent (as ++ [a]) ++ (s.after (as ++ [a])).pipe.content =
        s.sent as ++ (turns j m).2.pipe.content := by
  have hsound := s.sound_within as a k
  have hrest := hsound.of_turn ended
  obtain ⟨j, -, hturns, hmoments⟩ := turns_at turn.all turn.early (congrArg Prod.fst ended)
  change turns _ _ = (_ ++ _ :: (turns j (s.within as a k).turn.2).1,
    (turns j (s.within as a k).turn.2).2) at hturns
  change momentsOf _ _ = _ ++ (s.within as a k).grant ::
    momentsOf j (s.within as a k).turn.2 at hmoments
  rw [ended] at hturns hmoments
  refine ⟨j, linesIn (momentsOf j m), ?_, ?_, ?_⟩
  · rw [lines, moments_snoc, Link.moments, hmoments]
    simp [linesThrough]
  · have hnodup := (nodup_begin (s := s) own).sublist (s.within_tickets as a k)
    rw [← tickets_of_turn hsound ended] at hnodup
    intro hmem
    obtain ⟨q, hq, hticket⟩ := List.mem_map.mp hmem
    have hthere := linesIn_tickets hrest hq
    exact (List.nodup_cons.mp hnodup).1 (hticket ▸ hthere)
  · rw [sent_content_snoc]
    change _ ++ (turns _ _).2.pipe.content = _
    rw [hturns]

section

variable {l' : Link} {h' : Holder}

/-- A call that has not begun to write has no line. -/
theorem HasTurn.absent_of_early (own : OwnTickets (as ++ [a])) (turn : s.HasTurn as a k h)
    (isOpen : (s.within as a k).grant.closed = false)
    (wrote : (s.within as a k).grant.write h = (l', .ok h')) (early : h'.phase.isEarly = true) :
    h.ticket ∉ (s.linesThrough as a k).map Sending.ticket := by
  have hsound := s.sound_within as a k
  have hstream := s.streaming_within as a k
  have hserving := hstream.serving.grant hsound hstream.underway
  have hnewest := hserving.newest h turn.held
  have hlined := (hstream.lined.grant hsound hstream.underway).entered_write turn.held hnewest
    (entered_write hsound.grant turn.held isOpen wrote)
  have hsame := (wrote_of_eq wrote).holder_eq
  have hamong := (hlined.2 h' rfl (by rw [hsame]) (by rw [hsame])).early h' rfl early
  have hserved := (List.nodup_append.mp (hserving.order.nodup own)).1
  rw [← List.dropLast_append_getLast? _ hnewest, List.map_append] at hserved
  intro hmem
  have hbefore := (hamong.map Sending.ticket).subset hmem
  exact (List.nodup_append.mp hserved).2.2 _ hbefore _ (by simp) rfl

/-- The line of a call that is writing is the last in the buffer, and a part of it is
    left. -/
theorem HasTurn.last_of_writing (turn : s.HasTurn as a k h)
    (isOpen : (s.within as a k).grant.closed = false)
    (wrote : (s.within as a k).grant.write h = (l', .ok h')) (writing : h'.phase = .writing) :
    l'.buffer ≠ [] ∧ ∃ front, s.linesThrough as a k = front ++ [⟨h.ticket, h.request⟩] ∧
      s.sent as ++ l'.pipe.content ++ l'.buffer =
        (front ++ [⟨h.ticket, h.request⟩]).flatMap Sending.bytes := by
  have hsound := s.sound_within as a k
  have hstream := s.streaming_within as a k
  have hserving := hstream.serving.grant hsound hstream.underway
  have hentered := entered_write hsound.grant turn.held isOpen wrote
  have hlined := (hstream.lined.grant hsound hstream.underway).entered_write turn.held
    (hserving.newest h turn.held) hentered
  have hwire := (hstream.onWire.grant hsound).entered_write isOpen hentered
  have hwrote := wrote_of_eq wrote
  have hsame := hwrote.holder_eq
  have hlast := (hlined.2 h' rfl (by rw [hsame]) (by rw [hsame])).late h' rfl
    (by rw [writing]; rfl)
  have hown : (⟨h'.ticket, h'.request⟩ : Sending) = ⟨h.ticket, h.request⟩ := by rw [hsame]
  rw [hown] at hlast
  refine ⟨(hsound.grant.goesOn turn.held hwrote).writing_buffer h' rfl (Or.inl writing), _,
    (List.dropLast_append_getLast? _ hlast).symm, ?_⟩
  rw [List.dropLast_append_getLast? _ hlast]
  exact hwire.whole (hwrote.closed_eq.trans isOpen)

/-- A call whose time is over before its line is written has not written it by the end of
    the step either: the calls after it find the pipe full. -/
theorem HasTurn.not_isWritten (own : OwnTickets (as ++ [a])) (turn : s.HasTurn as a k h)
    {result : Except Error Payload} (isOpen : (s.within as a k).grant.closed = false)
    (wrote : (s.within as a k).grant.write h = (l', .ok h'))
    (late : (s.within as a k).grant.isOverdue h = true) (left : h'.phase ≠ .waiting)
    (ended : (s.within as a k).turn =
      (some (.command h.ticket result), l'.release h.request.token)) :
    ¬IsWritten (s.sent (as ++ [a])) (s.lines (as ++ [a])) (s.after (as ++ [a])) h.ticket := by
  obtain ⟨j, newer, hlines, hnewer, hcontent⟩ := turn.exists_later own ended
  rw [hlines]
  by_cases hearly : h'.phase.isEarly = true
  · apply not_isWritten_of_absent
    rw [List.map_append, List.mem_append]
    rintro (hmem | hmem)
    · exact turn.absent_of_early own isOpen wrote hearly hmem
    · exact hnewer hmem
  · have hwriting : h'.phase = .writing := by
      cases hphase : h'.phase with
      | writing => rfl
      | waiting => exact (left hphase).elim
      | starting | stalled => simp [hphase, Phase.isEarly] at hearly
    obtain ⟨hbuffer, front, hfront, hwhole⟩ := turn.last_of_writing isOpen wrote hwriting
    have hrest := (s.sound_within as a k).of_turn ended
    have hfull := turn.isFull wrote late hwriting
    have hreleased : (l'.release h.request.token).IsFull := hfull
    have hdistinct := lines_nodup (s := s) own
    rw [hlines, hfront, List.append_assoc, List.singleton_append] at hdistinct
    rw [hfront, List.append_assoc, List.singleton_append]
    refine not_isWritten_of_left (p := ⟨h.ticket, h.request⟩) hdistinct ?_ hbuffer
    rw [hcontent, turns_of_full hrest hreleased rfl]
    exact hwhole

end

/-! ### How a call fares -/

/-- How a call fares in a step in which it has the writer. -/
inductive Fate (s : Setup) (as : List Action) (a : Action) (p : Sending) (ms : Nat) : Prop
  | goesOn {h : Holder} (held : (s.after (as ++ [a])).holder = some h) (own : h.ticket = p.ticket)
  | answered {result : Except Error Payload} (answer : IsAnswer result)
      (ends : s.EndsWith as a p.ticket result)
  | overdue {limit : Nat} (limited : s.timeLimit = some limit) (late : limit ≤ ms)
      (unanswered : ¬(IsWritten (s.sent (as ++ [a])) (s.lines (as ++ [a])) (s.after (as ++ [a]))
        p.ticket ∧ s.IsReplied (as ++ [a]) p))
      (ends : s.EndsWith as a p.ticket (.error (.timeout p.request.command.text)))
  | refused {fault : ArgumentFault}
      (ends : s.EndsWith as a p.ticket (.error (.invalidArgument fault)))
  /-- A write that fails in a step at whose end the time is over begins in that step. -/
  | broken (atOnce : ∀ limit, s.timeLimit = some limit → limit ≤ ms → limit = 0)
      (ends : s.EndsWith as a p.ticket (.error .connectionClosed))

theorem handed_isAnswer (s : Setup) (as : List Action) (a : Action) (k : Nat) {h : Holder}
    (held : (s.within as a k).grant.holder = some h) {result : Except Error Payload}
    (handed : h.handed = some result) : IsAnswer result := by
  have htraced := (s.streaming_within as a k).traced.grant (s.sound_within as a k)
  obtain ⟨_, _, _, -, ⟨_, _, -, -, hsays⟩, -⟩ := htraced.handed_answered h result held handed
  exact hsays.isAnswer

namespace HasTurn

variable (turn : s.HasTurn as a k h)

include turn

/-- Who is late had the writer before, and time goes on, or there is no time at all. -/
theorem late_cases (got : s.GotWriter (as ++ [a]) ⟨h.ticket, h.request⟩ ms)
    (limited : s.timeLimit = some limit) (late : limit ≤ ms) :
    limit = 0 ∨ k = 0 ∧ ((s.after as).begin a).2.holder = some h ∧ (∃ ms, a = .advance ms) ∧
      ∃ h₀, (s.after as).holder = some h₀ ∧ h.phase = h₀.phase := by
  rcases turn.start_or_fresh with ⟨rfl, held⟩ | ⟨-, hsince, -⟩
  · have hlate := (turn.isOverdue_iff got).mpr ⟨limit, limited, late⟩
    change ((s.after as).begin a).2.grant.isOverdue h = true at hlate
    rw [grant_eq_of_held held] at hlate
    exact Or.inr ⟨rfl, held, advance_of_late held hlate⟩
  · obtain ⟨ms', hgot, hclock⟩ := turn.got
    obtain rfl := got.unique hgot
    omega

theorem open_of_late (got : s.GotWriter (as ++ [a]) ⟨h.ticket, h.request⟩ ms)
    (limited : s.timeLimit = some limit) (late : limit ≤ ms)
    (isClosed : (s.within as a k).grant.closed = true) : limit = 0 := by
  rcases turn.late_cases got limited late with hzero | ⟨rfl, -, ⟨ms', rfl⟩, h₀, held₀, -⟩
  · exact hzero
  · have hopen := ((s.atRest as).holder_stuck h₀ held₀).1
    rw [grant_closed (s.sound_within as _ 0), within, turns, begin_eq _ (by simp)] at isClosed
    exact absurd (hopen.symm.trans isClosed) (by simp)

theorem reader_of_late (got : s.GotWriter (as ++ [a]) ⟨h.ticket, h.request⟩ ms)
    (limited : s.timeLimit = some limit) (late : limit ≤ ms) {l' : Link}
    {result : Except Error Payload}
    (wrote : (s.within as a k).grant.write h = (l', .error result))
    (gone : (s.within as a k).grant.pipe.readerGone = true) : limit = 0 := by
  rcases turn.late_cases got limited late with hzero | ⟨rfl, -, ⟨ms', rfl⟩, h₀, held₀, hphase⟩
  · exact hzero
  · rcases ((s.atRest as).holder_stuck h₀ held₀).2.blocked with hwaiting | ⟨-, -, hreader⟩
    · rw [write, hphase, hwaiting] at wrote
      cases wrote
    · rw [grant_pipe (s.sound_within as _ 0), within, turns, begin_eq _ (by simp)] at gone
      exact absurd (hreader.symm.trans gone) (by simp)

theorem fate (own : OwnTickets (as ++ [a]))
    (got : s.GotWriter (as ++ [a]) ⟨h.ticket, h.request⟩ ms) :
    s.Fate as a ⟨h.ticket, h.request⟩ ms := by
  have turned := turned_turn (s.sound_within as a k)
  have hends := @endsWith s as a k h turn
  rcases hturn : (s.within as a k).turn with ⟨f, m⟩
  rw [hturn] at turned hends
  have hheld := turn.held
  cases turned with
  | idle free | dismissed free | shuts free =>
    rw [free] at hheld
    cases hheld
  | refused held isClosed =>
    obtain rfl := Option.some.inj (hheld.symm.trans held)
    exact .broken (fun limit limited late => turn.open_of_late got limited late isClosed)
      (hends rfl)
  | @goesOn _ h' l' held isOpen polled =>
    obtain rfl := Option.some.inj (hheld.symm.trans held)
    have hlast := turns_last turn.all turn.early (congrArg Prod.fst hturn)
    refine .goesOn (h := h') ?_ (by rw [polled.wrote_ok.holder_eq])
    have hnow : (s.within as a k).turn.2.holder = some h' := by rw [hturn]
    rw [after_snoc, (step_last _ _).1, hlast]
    exact hnow
  | ended held isOpen polled =>
    obtain rfl := Option.some.inj (hheld.symm.trans held)
    cases polled with
    | answered wrote written handed =>
      rw [(wrote_of_eq wrote).holder_eq] at handed
      exact .answered (s.handed_isAnswer as a k hheld handed) (hends rfl)
    | @overdue h' wrote late unanswered =>
      have hlate := (wrote_of_eq wrote).isOverdue_eq.symm.trans late
      have hsame := (wrote_of_eq wrote).holder_eq
      have hrequest : h'.request = h.request := by rw [hsame]
      rw [hrequest] at hturn hends
      obtain ⟨limit, limited, hms⟩ := (turn.isOverdue_iff got).mp hlate
      refine .overdue limited hms ?_ (hends rfl)
      rintro ⟨written, replied⟩
      by_cases hwaiting : h'.phase = .waiting
      · have hhanded := unanswered hwaiting
        rw [hsame] at hhanded
        exact turn.not_replied isOpen hhanded replied
      · exact turn.not_isWritten own isOpen wrote hlate hwaiting hturn written
    | failed wrote =>
      cases wrote_of_eq wrote with
      | refused => exact .refused (hends rfl)
      | broken gone =>
        exact .broken (fun limit limited late => turn.reader_of_late got limited late wrote gone)
          (hends rfl)

end HasTurn

end Setup

end Pushdown
