/-
  Pushdown/Proofs/Link/TimeLimit.lean
  ===================================
  **A time limit is exact and does no harm.**  The time of a call counts from getting the
  writer and covers the write as well as the wait.  A call ends with a timeout in the
  first step at whose end its time is over and it has not written its line or got its
  reply, and never otherwise.  The link stays open, the other calls are still there, and
  the next one in the queue gets the writer in the same step, with all of its own time.

  One thing comes before the clock.  A call whose time is over still goes through its
  turn first; if its line turns out to hold a line break, or its write fails, then it is
  told so, and not that its time is over.  So the time alone does not decide
  (`refused_when_late`).
-/
import Pushdown.Proofs.Link.Fate

namespace Pushdown

open Link

namespace Setup

variable {s : Setup} {as : List Action} {a : Action} {p : Sending} {ms limit : Nat}
  {t : Ticket} {text : String}

/-! ### Results -/

/-- A call is over once. -/
theorem EndsWith.unique (own : OwnTickets (as ++ [a])) {result result' : Except Error Payload}
    (ends : s.EndsWith as a t result) (ends' : s.EndsWith as a t result') : result = result' := by
  have hnodup := (List.nodup_append.mp (finished_nodup (s := s) own)).1
  rw [finished_snoc, List.map_append, List.nodup_append] at hnodup
  have hsame := List.inj_on_of_nodup_map hnodup.2.1 ends ends' rfl
  exact (Finished.command.inj hsame).2

theorem EndsWith.gone (own : OwnTickets (as ++ [a])) {result : Except Error Payload}
    (ends : s.EndsWith as a t result) : t ∉ (s.after (as ++ [a])).tickets := by
  have hnodup := finished_nodup (s := s) own
  rw [finished_snoc, List.map_append, List.append_assoc] at hnodup
  intro there
  exact (List.nodup_append.mp (List.nodup_append.mp hnodup).2.1).2.2 t
    (List.mem_map_of_mem (f := Finished.ticket) ends) t there rfl

/-- What a call is told at the end of a step it is told in a turn, unless it was turned
    away. -/
theorem EndsWith.turn {result : Except Error Payload} (ends : s.EndsWith as a t result) :
    (∃ turn c e, a = .send t turn c ∧ (s.after as).refusal? turn = some e ∧ result = .error e) ∨
      ∃ k < ((s.after as).begin a).2.callCount + 1,
        (turns k ((s.after as).begin a).2).1.length = k ∧
        (s.within as a k).turn.1 = some (.command t result) := by
  rw [EndsWith, step_finished, List.mem_append] at ends
  refine ends.imp (fun hrefused => ?_) exists_turn_of_finished
  have begun := begun_begin (s.after as) a
  generalize (s.after as).begin a = r at begun hrefused
  cases begun with
  | turnedAway why =>
    cases List.mem_singleton.mp hrefused
    exact ⟨_, _, _, rfl, why, rfl⟩
  | _ => cases hrefused

/-- The turn in which the time of a call is over. -/
theorem turn_of_timeout {k : Nat}
    (ended : (s.within as a k).turn.1 = some (.command t (.error (.timeout text)))) :
    ∃ (h : Holder) (l' : Link), (s.within as a k).grant.holder = some h ∧ h.ticket = t ∧
      text = h.request.command.text ∧ (s.within as a k).grant.closed = false ∧
      (s.within as a k).grant.isOverdue h = true ∧ l'.closed = false ∧
      (s.within as a k).turn =
        (some (.command t (.error (.timeout text))), l'.release h.request.token) := by
  have turned := turned_turn (s.sound_within as a k)
  generalize (s.within as a k).turn = r at turned ended ⊢
  cases turned with
  | idle | goesOn | shuts => cases ended
  | refused | dismissed => simp [Link.refused] at ended
  | @ended h l' result held isOpen polled =>
    cases ended
    cases polled with
    | answered wrote _ handed =>
      rw [(wrote_of_eq wrote).holder_eq] at handed
      exact (s.handed_isAnswer as a k held handed).elim
    | @overdue h' wrote late =>
      have hwrote := wrote_of_eq wrote
      refine ⟨h, l', held, rfl, ?_, isOpen, hwrote.isOverdue_eq.symm.trans late,
        hwrote.closed_eq.trans isOpen, rfl⟩
      rw [hwrote.holder_eq]
    | failed wrote => cases wrote_of_eq wrote

/-- A call hears of the link being closed only when it is. -/
theorem turn_of_connectionClosed {k : Nat}
    (ended : (s.within as a k).turn.1 = some (.command t (.error .connectionClosed))) :
    (s.within as a k).turn.2.closed = true := by
  have turned := turned_turn (s.sound_within as a k)
  generalize (s.within as a k).turn = r at turned ended ⊢
  cases turned with
  | idle | goesOn | shuts => cases ended
  | refused _ isClosed | dismissed _ _ isClosed => exact isClosed
  | ended held _ polled =>
    cases ended
    cases polled with
    | answered wrote _ handed =>
      rw [(wrote_of_eq wrote).holder_eq] at handed
      exact (s.handed_isAnswer as a k held handed).elim
    | failed wrote =>
      cases wrote_of_eq wrote with
      | broken => rfl

theorem closed_of_endsWith (ends : s.EndsWith as a t (.error .connectionClosed)) :
    (s.after (as ++ [a])).closed = true := by
  have hsound := (s.sound as).begin a
  rw [after_snoc, (step_last _ _).2]
  rcases ends.turn with ⟨turn, c, e, -, why, herror⟩ | ⟨k, early, all, hend⟩
  · obtain rfl := Except.error.inj herror
    have hclosed : (s.after as).closed = true := by
      cases hopen : (s.after as).closed with
      | true => rfl
      | false => cases turn <;> simp [refusal?, hopen] at why
    exact turns_closed hsound (begin_closed a hclosed)
  · obtain ⟨j, -, hturns, -⟩ := turns_at all early hend
    rw [hturns]
    exact turns_closed (s.sound_within as a k).turn (turn_of_connectionClosed hend)

/-! ### The next in the queue -/

/-- Behind a call that is over after its turn are those that are left then. -/
theorem tickets_behind (own : OwnTickets (as ++ [a])) {k : Nat} {f : Finished} {m : Link}
    {earlier behind : List Ticket}
    (waits : ((s.after as).begin a).2.tickets = earlier ++ f.ticket :: behind)
    (ended : (s.within as a k).turn = (some f, m)) : m.tickets = behind := by
  have hnodup := nodup_begin (s := s) own
  have htickets := turns_tickets (n := k) ((s.sound as).begin a)
  change _ ++ (s.within as a k).tickets = _ at htickets
  rw [← tickets_of_turn (s.sound_within as a k) ended] at htickets
  rw [← htickets] at hnodup waits
  have hapart := List.nodup_append.mp hnodup
  have hbefore : f.ticket ∉ (turns k ((s.after as).begin a).2).1.map Finished.ticket :=
    fun hmem => hapart.2.2 f.ticket hmem f.ticket List.mem_cons_self rfl
  have hbehind := (List.nodup_cons.mp hapart.2.1).1
  exact ((List.append_cons_inj_of_notMem hbefore hbehind).mp waits).2.2

/-- Who has the writer when a call is over has the next turn. -/
theorem HasTurn.next {k : Nat} {h : Holder} {f : Finished} {m : Link}
    (all : (turns k ((s.after as).begin a).2).1.length = k)
    (ended : (s.within as a k).turn = (some f, m)) (held : m.grant.holder = some h) :
    s.HasTurn as a (k + 1) h ∧ s.within as a (k + 1) = m := by
  have hsound := (s.sound as).begin a
  have hwithin := s.sound_within as a k
  obtain ⟨j, hj, hturns, -⟩ := turns_at all (Nat.lt_succ_self k) (congrArg Prod.fst ended)
  obtain rfl : j = 0 := by omega
  have hlast : s.within as a (k + 1) = m :=
    (congrArg Prod.snd hturns).trans (congrArg Prod.snd ended)
  refine ⟨⟨?_, ?_, by rw [hlast]; exact held⟩, hlast⟩
  · -- there are as many turns as there are calls, and one more
    have hpositive : 0 < m.tickets.length := by
      rw [← grant_tickets (hwithin.of_turn ended)]
      simp [tickets, held]
    have hcount : (turns k ((s.after as).begin a).2).1.length + (m.tickets.length + 1) =
        ((s.after as).begin a).2.callCount := by
      rw [← tickets_length, ← turns_tickets (n := k) hsound, List.length_append, List.length_map]
      exact congrArg (_ + ·) (congrArg List.length (tickets_of_turn hwithin ended))
    omega
  · rw [hturns]
    simp [turns, all]

/-- The call behind one whose time is over gets the writer in the same step, and has had
    it for no time at all when the step ends. -/
theorem next_hasWriter (own : OwnTickets (as ++ [a])) {u : Ticket} {earlier later : List Ticket}
    (waits : ((s.after as).begin a).2.tickets = earlier ++ t :: u :: later)
    (ends : s.EndsWith as a t (.error (.timeout text))) :
    ∃ p, p.ticket = u ∧ s.HasWriter as a p 0 := by
  rcases ends.turn with ⟨turn, c, e, -, why, herror⟩ | ⟨k, early, all, hend⟩
  · obtain rfl := Except.error.inj herror
    rcases refusal?_eq_some why with h | h <;> cases h
  obtain ⟨h, l', -, -, -, -, -, hopen, hturn⟩ := turn_of_timeout hend
  have hbehind : l'.waiters = u :: later := tickets_behind own waits hturn
  obtain ⟨⟨v, errand⟩, rest, hqueue, hv, -⟩ := List.map_eq_cons_iff.mp hbehind
  obtain rfl : v = u := hv
  -- the link is open, so what waits is a command
  obtain ⟨c, hc⟩ := ((s.sound_within as a k).of_turn hturn).open_queue hopen ⟨v, errand⟩
    (by simp [hqueue])
  obtain rfl : errand = .command c := hc
  have held : (l'.release h.request.token).grant.holder =
      some ⟨v, ⟨l'.nextToken, c⟩, .starting, l'.clock, none⟩ := by
    simp [grant, hqueue, release, abandon, hopen, acquire, nextRequest]
  obtain ⟨hnext, hwithin⟩ := HasTurn.next all hturn held
  obtain ⟨ms, hgot, hclock⟩ := hnext.got
  obtain rfl : ms = 0 := by
    have hsame : (s.within as a (k + 1)).clock = l'.clock := by rw [hwithin]; rfl
    rw [hsame] at hclock
    simpa using hclock
  exact ⟨_, rfl, hnext.hasWriter own hgot⟩

/-! ### Late replies -/

/-- The token of a call that is over is not expected any more. -/
theorem spent_of_endsWith (own : OwnTickets (as ++ [a])) (served : p ∈ s.served (as ++ [a]))
    {result : Except Error Payload} (ends : s.EndsWith as a p.ticket result) :
    (s.after (as ++ [a])).Spent p.request.token := by
  refine ⟨token_lt_of_served served, fun r expected hsame => ends.gone own ?_⟩
  obtain ⟨h, held, rfl, -⟩ := (s.sound (as ++ [a])).expected_holder r expected
  have hnodup := s.served_nodup (as ++ [a])
  obtain rfl := List.inj_on_of_nodup_map hnodup (holder_served held) served hsame
  simp [tickets, held]

/-! ### The time limit -/

/-- The time limit in one step. -/
structure Timely (s : Setup) (as : List Action) (a : Action) : Prop where
  /-- A call that has the writer in this step ends with a timeout if its time is over at
      the end of the step and it has not written its line or got its reply by then, and
      only then; unless it is told in this very step that its line is refused or that its
      write has failed. -/
  exact : ∀ p ms limit, s.timeLimit = some limit → s.HasWriter as a p ms →
    (s.EndsWith as a p.ticket (.error (.timeout p.request.command.text)) ↔
      limit ≤ ms ∧
      ¬(IsWritten (s.sent (as ++ [a])) (s.lines (as ++ [a])) (s.after (as ++ [a])) p.ticket ∧
        s.IsReplied (as ++ [a]) p) ∧
      (∀ fault, ¬s.EndsWith as a p.ticket (.error (.invalidArgument fault))) ∧
      ¬s.EndsWith as a p.ticket (.error .connectionClosed))
  /-- A write fails in a step at whose end the time is over only if there is no time at
      all. -/
  unbroken : ∀ p ms limit, s.timeLimit = some limit → s.HasWriter as a p ms → limit ≤ ms →
    s.EndsWith as a p.ticket (.error .connectionClosed) → limit = 0
  /-- It is the first such step: at the end of every earlier one the call had time. -/
  first : ∀ p ms limit, s.timeLimit = some limit → s.HasWriter as a p ms →
    ∀ before later earlier, as = before ++ later → s.GotWriter before p earlier →
      earlier < limit
  /-- No other call ends with a timeout: none that waits in the queue, and none at all if
      there is no limit.  The error names the command of the call. -/
  only : ∀ t text, s.EndsWith as a t (.error (.timeout text)) →
    ∃ p ms limit, p.ticket = t ∧ s.timeLimit = some limit ∧ s.HasWriter as a p ms ∧
      text = p.request.command.text ∧ ∃ turn, .send t turn p.request.command ∈ as ++ [a]
  /-- The turn in which the time of a call is over leaves the link open, and every other
      call where it is. -/
  harmless : ∀ k t text,
    (s.within as a k).turn.1 = some (.command t (.error (.timeout text))) →
      (s.within as a k).closed = false ∧ (s.within as a k).turn.2.closed = false ∧
      (s.within as a k).tickets = t :: (s.within as a k).turn.2.tickets
  /-- What closes a link is something else, … -/
  closes : (s.after as).closed = false → (s.after (as ++ [a])).closed = true →
    a = .close ∨ (∃ t, a = .shutdown t) ∨ (s.after as).pipe.readerGone = true ∨ a = .dropReader
  /-- … and only when the link is closed does a call fail because of that. -/
  fails : ∀ t, s.EndsWith as a t (.error .connectionClosed) →
    (s.after (as ++ [a])).closed = true
  /-- The next call in the queue gets the writer in the same step, and all of its time is
      left at the end of it. -/
  next : ∀ t u text earlier later,
    ((s.after as).begin a).2.tickets = earlier ++ t :: u :: later →
    s.EndsWith as a t (.error (.timeout text)) →
    ∃ p, p.ticket = u ∧ s.HasWriter as a p 0
  /-- A later reply to the call is given to nobody. -/
  late_reply : ∀ p ms text, s.HasWriter as a p ms →
    s.EndsWith as a p.ticket (.error (.timeout text)) → ∀ later outcome,
      (s.after (as ++ a :: later)).step (.resolve ⟨p.request.token, outcome⟩) =
        (⟨[], []⟩, s.after (as ++ a :: later))

theorem endsWith_timeout_iff (own : OwnTickets (as ++ [a])) (limited : s.timeLimit = some limit)
    (has : s.HasWriter as a p ms) :
    s.EndsWith as a p.ticket (.error (.timeout p.request.command.text)) ↔
      limit ≤ ms ∧
      ¬(IsWritten (s.sent (as ++ [a])) (s.lines (as ++ [a])) (s.after (as ++ [a])) p.ticket ∧
        s.IsReplied (as ++ [a]) p) ∧
      (∀ fault, ¬s.EndsWith as a p.ticket (.error (.invalidArgument fault))) ∧
      ¬s.EndsWith as a p.ticket (.error .connectionClosed) := by
  obtain ⟨k, h, turn, rfl⟩ := has.hasTurn own
  cases turn.fate own has.got with
  | goesOn held same =>
    have hthere : h.ticket ∈ (s.after (as ++ [a])).tickets := by simp [tickets, held, same]
    constructor
    · intro ends
      exact (ends.gone own hthere).elim
    · rintro ⟨late, -⟩
      have hnodup := finished_nodup (s := s) own
      have notOver : h.ticket ∉ (s.finished (as ++ [a])).map Finished.ticket :=
        fun hover => (List.nodup_append.mp hnodup).2.2 _ hover _ hthere rfl
      have htime := inTime own has.got notOver has.kept limited
      omega
  | @answered result answer ends =>
    constructor
    · intro ends'
      obtain rfl := ends.unique own ends'
      exact answer.elim
    · rintro ⟨-, unanswered, -⟩
      have hfinished : .command h.ticket result ∈ s.finished (as ++ [a]) := by
        rw [finished_snoc]
        exact List.mem_append_right _ ends
      exact (unanswered ⟨(s.streaming (as ++ [a])).answered _ _ hfinished answer,
        isReplied_of_answer own has.got.served hfinished answer⟩).elim
  | @overdue limit' limited' late unanswered ends =>
    obtain rfl := Option.some.inj (limited.symm.trans limited')
    refine ⟨fun _ => ⟨late, unanswered, fun fault ends' => ?_, fun ends' => ?_⟩, fun _ => ends⟩
    · cases ends.unique own ends'
    · cases ends.unique own ends'
  | @refused fault ends =>
    constructor
    · intro ends'
      cases ends.unique own ends'
    · rintro ⟨-, -, notRefused, -⟩
      exact (notRefused fault ends).elim
  | broken _ ends =>
    constructor
    · intro ends'
      cases ends.unique own ends'
    · rintro ⟨-, -, -, notBroken⟩
      exact (notBroken ends).elim

theorem zero_of_broken (own : OwnTickets (as ++ [a])) (limited : s.timeLimit = some limit)
    (has : s.HasWriter as a p ms) (late : limit ≤ ms)
    (ends : s.EndsWith as a p.ticket (.error .connectionClosed)) : limit = 0 := by
  obtain ⟨k, h, turn, rfl⟩ := has.hasTurn own
  cases turn.fate own has.got with
  | goesOn held same => exact (ends.gone own (by simp [tickets, held, same])).elim
  | answered answer ends' =>
    obtain rfl := ends'.unique own ends
    exact answer.elim
  | overdue _ _ _ ends' => cases ends'.unique own ends
  | refused ends' => cases ends'.unique own ends
  | broken atOnce _ => exact atOnce limit limited late

theorem finished_subset {before later : List Action} (split : as = before ++ later) :
    s.finished before ⊆ s.finished as := by
  rw [split, finished, finished, reports_append, List.flatMap_append]
  exact List.subset_append_left _ _

theorem HasWriter.before (own : OwnTickets (as ++ [a])) (has : s.HasWriter as a p ms)
    (limited : s.timeLimit = some limit) {before later : List Action} {earlier : Nat}
    (split : as = before ++ later) (got : s.GotWriter before p earlier) : earlier < limit := by
  subst split
  refine inTime own.of_append.of_append got (fun hover => has.notOver ?_)
    (fun hcancelled => has.kept ?_) limited
  · obtain ⟨f, hf, hticket⟩ := List.mem_map.mp hover
    exact List.mem_map.mpr ⟨f, finished_subset rfl hf, hticket⟩
  · rw [List.append_assoc]
    exact hcancelled.append _

theorem hasWriter_of_timeout (own : OwnTickets (as ++ [a]))
    (ends : s.EndsWith as a t (.error (.timeout text))) :
    ∃ p ms limit, p.ticket = t ∧ s.timeLimit = some limit ∧ s.HasWriter as a p ms ∧
      text = p.request.command.text ∧ ∃ turn, .send t turn p.request.command ∈ as ++ [a] := by
  rcases ends.turn with ⟨turn, c, e, -, why, herror⟩ | ⟨k, early, all, hend⟩
  · obtain rfl := Except.error.inj herror
    rcases refusal?_eq_some why with h | h <;> cases h
  · obtain ⟨h, l', held, rfl, htext, -, late, -, -⟩ := turn_of_timeout hend
    have hturn : s.HasTurn as a k h := ⟨early, all, held⟩
    obtain ⟨ms, hgot, -⟩ := hturn.got
    obtain ⟨limit, limited, -⟩ := (hturn.isOverdue_iff hgot).mp late
    exact ⟨_, ms, limit, rfl, limited, hturn.hasWriter own hgot, htext, s.served_sent hgot.served⟩

theorem closes_otherwise (isOpen : (s.after as).closed = false)
    (closes : (s.after (as ++ [a])).closed = true) :
    a = .close ∨ (∃ t, a = .shutdown t) ∨ (s.after as).pipe.readerGone = true ∨
      a = .dropReader := by
  rw [after_snoc, (step_last _ _).2] at closes
  have hsound := (s.sound as).begin a
  cases hbegun : ((s.after as).begin a).2.closed with
  | false =>
    have hgone := turns_closes_gone hsound hbegun closes
    rw [begin_pipe] at hgone
    exact Or.inr (Or.inr (by simpa using hgone))
  | true =>
    have begun := begun_begin (s.after as) a
    generalize (s.after as).begin a = r at begun hbegun
    cases begun with
    | closes => exact Or.inl rfl
    | shutsDown => exact Or.inr (Or.inl ⟨_, rfl⟩)
    | _ => exact absurd (isOpen.symm.trans hbegun) (by simp)

/-- **The time limit is exact and does no harm.** -/
theorem timely (s : Setup) (as : List Action) (a : Action) (own : OwnTickets (as ++ [a])) :
    s.Timely as a where
  exact _ _ _ limited has := endsWith_timeout_iff own limited has
  unbroken _ _ _ limited has late ends := zero_of_broken own limited has late ends
  first _ _ _ limited has _ _ _ split got := has.before own limited split got
  only _ _ ends := hasWriter_of_timeout own ends
  harmless k t text ended := by
    have hsound := s.sound_within as a k
    obtain ⟨h, l', -, -, -, isOpen, -, stays, hturn⟩ := turn_of_timeout ended
    rw [← tickets_of_turn hsound hturn, hturn]
    exact ⟨(grant_closed hsound).symm.trans isOpen, stays, rfl⟩
  closes isOpen closes := closes_otherwise isOpen closes
  fails _ ends := closed_of_endsWith ends
  next _ _ _ _ _ waits ends := next_hasWriter own waits ends
  late_reply p _ _ has ends later outcome := by
    have hspent := spent_of_endsWith own has.got.served ends
    have hlater : (s.after (as ++ a :: later)).Spent p.request.token := by
      rw [List.append_cons, after_append]
      exact hspent.run (s.sound _) later
    exact step_resolve_eq (s.sound _) (s.atRest _) fun r expected => hlater.2 r expected

/-- The first call runs out of time in the middle of its line.  The second has the writer
    in the same step, and 49 milliseconds later it still has it. -/
theorem timely_interrupted :
    let s : Setup := ⟨4, false, some 50⟩
    let as : List Action := [.send 1 .wait (.step 1), .advance 20, .send 2 .wait .exit]
    OwnTickets (as ++ [.advance 30]) ∧
      s.finished (as ++ [.advance 30]) = [.command 1 (.error (.timeout "step 1"))] ∧
      (s.after (as ++ [.advance 30, .advance 49])).tickets = [2] ∧
      s.Timely as (.advance 30) :=
  ⟨by decide, rfl, by decide, timely _ _ _ (by decide)⟩

/-- The time alone does not decide: a call whose line is refused is told so, though its
    time is over and it has neither written its line nor got a reply. -/
theorem refused_when_late : ¬∀ (s : Setup) (as : List Action) (a : Action) (p : Sending)
    (ms limit : Nat), OwnTickets (as ++ [a]) → s.timeLimit = some limit → s.HasWriter as a p ms →
    (s.EndsWith as a p.ticket (.error (.timeout p.request.command.text)) ↔
      limit ≤ ms ∧
      ¬(IsWritten (s.sent (as ++ [a])) (s.lines (as ++ [a])) (s.after (as ++ [a])) p.ticket ∧
        s.IsReplied (as ++ [a]) p)) := by
  intro claim
  let s : Setup := ⟨64, true, some 0⟩
  let c : Command := .eval 1 "a\nb"
  have has : s.HasWriter [] (.send 1 .wait c) ⟨1, ⟨1, c⟩⟩ 0 := by
    refine ⟨⟨[], _, [], rfl, ?_, rfl⟩, by simp [finished, reports, run], ?_⟩
    · exact List.mem_singleton.mpr rfl
    · rintro ⟨before, later, hsplit, -⟩
      rcases snoc_eq_split hsplit with ⟨-, h, -⟩ | ⟨_, -, h⟩
      · cases h
      · simp at h
  have hreplied : ¬s.IsReplied [.send 1 .wait c] ⟨1, ⟨1, c⟩⟩ := by
    rintro ⟨before, reply, later, hsplit, -⟩
    have hmem : Action.resolve reply ∈ [Action.send 1 .wait c] := by
      rw [hsplit]
      simp
    simp at hmem
  have hends := (claim s [] _ _ _ 0 (by decide) rfl has).mpr ⟨Nat.le_refl 0, fun h => hreplied h.2⟩
  have hrefused : s.EndsWith [] (.send 1 .wait c) 1
      (.error (.invalidArgument (.lineBreak "eval" "a\nb"))) := by
    exact List.mem_singleton.mpr rfl
  cases hends.unique (by decide) hrefused

end Setup

end Pushdown
