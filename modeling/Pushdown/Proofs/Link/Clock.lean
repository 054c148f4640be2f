/-
  Pushdown/Proofs/Link/Clock.lean
  ===============================
  **How long a call has had the writer.**  Time goes on with `advance` only, so it
  stands still within a step: a call that gets the writer gets it at the time at which
  the step ends.  How long ago that was is read off the inputs that came after
  (`Setup.GotWriter`), and the time that the link keeps for the call agrees with it
  (`since_within`, `since_after`).

  A call that has got the writer and is neither over nor cancelled still has it
  (`holder_of_served`).
-/
import Mathlib.Data.List.Nodup
import Pushdown.Proofs.Link.WholeLines
import Pushdown.Proofs.Link.Withdrawal

namespace Pushdown

open Link

/-- How much time goes by with an input. -/
def Link.Action.duration : Action → Nat
  | .advance ms => ms
  | _ => 0

theorem Link.Action.advance_of_duration {a : Action} (passes : a.duration ≠ 0) :
    ∃ ms, a = .advance ms := by
  cases a with
  | advance ms => exact ⟨ms, rfl⟩
  | _ => exact (passes rfl).elim

/-- How much time goes by with these inputs. -/
def durationOf : List Action → Nat
  | [] => 0
  | a :: as => a.duration + durationOf as

theorem durationOf_snoc (as : List Action) (a : Action) :
    durationOf (as ++ [a]) = durationOf as + a.duration := by
  induction as with
  | nil => exact Nat.add_comm _ _
  | cons b as ih => rw [List.cons_append, durationOf, durationOf, ih, Nat.add_assoc]

namespace Link

/-! ### The clock -/

theorem begin_clock (l : Link) (a : Action) : (l.begin a).2.clock = l.clock + a.duration := by
  have begun := begun_begin l a
  generalize l.begin a = r at begun ⊢
  cases begun <;> rfl

theorem begin_timeLimit (l : Link) (a : Action) : (l.begin a).2.timeLimit = l.timeLimit := by
  have begun := begun_begin l a
  generalize l.begin a = r at begun ⊢
  cases begun <;> rfl

variable {l : Link}

theorem grant_clock (sound : l.Sound) : l.grant.clock = l.clock := by
  generalize hg : l.grant = g
  cases hg ▸ granted_grant sound <;> rfl

theorem grant_timeLimit (sound : l.Sound) : l.grant.timeLimit = l.timeLimit := by
  generalize hg : l.grant = g
  cases hg ▸ granted_grant sound <;> rfl

theorem turn_clock (sound : l.Sound) :
    l.turn.2.clock = l.clock ∧ l.turn.2.timeLimit = l.timeLimit := by
  rw [← grant_clock sound, ← grant_timeLimit sound]
  have turned := turned_turn sound
  generalize l.turn = r at turned ⊢
  cases turned with
  | idle | refused | dismissed | shuts => exact ⟨rfl, rfl⟩
  | goesOn _ _ polled => exact ⟨polled.wrote_ok.clock_eq, polled.wrote_ok.timeLimit_eq⟩
  | ended _ _ polled =>
    obtain ⟨p, wrote⟩ := polled.wrote
    exact ⟨wrote.clock_eq, wrote.timeLimit_eq⟩

theorem turns_clock {n : Nat} (sound : l.Sound) :
    (turns n l).2.clock = l.clock ∧ (turns n l).2.timeLimit = l.timeLimit := by
  refine turns_kept (P := fun m => m.clock = l.clock ∧ m.timeLimit = l.timeLimit) ?_ sound
    ⟨rfl, rfl⟩
  rintro m sound ⟨hclock, hlimit⟩
  obtain ⟨hclock', hlimit'⟩ := turn_clock sound
  exact ⟨hclock'.trans hclock, hlimit'.trans hlimit⟩

/-! ### Getting and keeping the writer -/

/-- What the VM reads at the end of a step makes no difference to the calls. -/
theorem step_last (l : Link) (a : Action) :
    (l.step a).2.holder = (turns ((l.begin a).2.callCount + 1) (l.begin a).2).2.holder ∧
      (l.step a).2.closed = (turns ((l.begin a).2.callCount + 1) (l.begin a).2).2.closed :=
  ⟨rfl, rfl⟩

theorem grant_eq_of_held {h : Holder} (held : l.holder = some h) : l.grant = l := by
  simp [grant, held]

/-- Who has the writer after a turn had it when the turn began. -/
theorem turn_holder (sound : l.Sound) {h' : Holder} (held : l.turn.2.holder = some h') :
    ∃ h, l.grant.holder = some h ∧ h'.ticket = h.ticket ∧ h'.request = h.request ∧
      h'.since = h.since := by
  have turned := turned_turn sound
  generalize l.turn = r at turned held
  cases turned with
  | idle | dismissed | shuts => exact ⟨h', held, rfl, rfl, rfl⟩
  | refused | ended => cases held
  | goesOn hwas _ polled =>
    obtain rfl := Option.some.inj held
    refine ⟨_, hwas, ?_, ?_, ?_⟩ <;> rw [polled.wrote_ok.holder_eq]

/-- A turn that ends a call leaves the writer free. -/
theorem turn_free (sound : l.Sound) {f : Finished} (ended : l.turn.1 = some f) :
    l.turn.2.holder = none := by
  have turned := turned_turn sound
  generalize l.turn = r at turned ended ⊢
  cases turned with
  | idle | goesOn => cases ended
  | refused | ended => rfl
  | dismissed free | shuts free => exact free

theorem turns_free {k : Nat} (sound : l.Sound) (all : (turns (k + 1) l).1.length = k + 1) :
    (turns (k + 1) l).2.holder = none := by
  induction k generalizing l with
  | zero =>
    rcases hturn : l.turn with ⟨_ | f, l'⟩
    · simp [turns, hturn] at all
    · have hfree := turn_free sound (congrArg Prod.fst hturn)
      rw [hturn] at hfree
      simpa [turns, hturn] using hfree
  | succ k ih =>
    rcases hturn : l.turn with ⟨_ | f, l'⟩
    · simp [turns, hturn] at all
    · have hsound := sound.of_turn hturn
      rw [turns, hturn] at all ⊢
      exact ih hsound (by simpa using all)

/-- An input takes the writer from no call but the one that it cancels. -/
theorem begin_keeps {a : Action} {h : Holder} (held : l.holder = some h)
    (kept : a ≠ .cancel h.ticket) :
    ∃ h', (l.begin a).2.holder = some h' ∧ h'.ticket = h.ticket ∧ h'.request = h.request := by
  have begun := begun_begin l a
  generalize l.begin a = r at begun ⊢
  cases begun with
  | letsGo held' =>
    obtain rfl := Option.some.inj (held.symm.trans held')
    exact (kept rfl).elim
  | handed =>
    refine ⟨_, congrArg (Option.map _) held, ?_⟩
    unfold handOver
    split <;> exact ⟨rfl, rfl⟩
  | _ => exact ⟨h, held, rfl, rfl⟩

end Link

namespace Setup

variable {s : Setup} {as : List Action} {a : Action} {p : Sending} {ms : Nat}

theorem after_timeLimit (s : Setup) (as : List Action) : (s.after as).timeLimit = s.timeLimit := by
  induction as using List.reverseRecOn with
  | nil => rfl
  | append_singleton as a ih =>
    have hturns := turns_clock (n := ((s.after as).begin a).2.callCount + 1) ((s.sound as).begin a)
    rw [after_snoc]
    exact hturns.2.trans ((begin_timeLimit _ a).trans ih)

/-! ### Since when -/

/-- The call got the writer so many milliseconds before the end of the run. -/
def GotWriter (s : Setup) (as : List Action) (p : Sending) (ms : Nat) : Prop :=
  ∃ before a later, as = before ++ a :: later ∧ p ∈ servedIn ((s.after before).moments a) ∧
    ms = durationOf later

theorem gotWriter_snoc : s.GotWriter (as ++ [a]) p ms ↔
    p ∈ servedIn ((s.after as).moments a) ∧ ms = 0 ∨
      ∃ earlier, s.GotWriter as p earlier ∧ ms = earlier + a.duration := by
  constructor
  · rintro ⟨before, b, later, hsplit, hserved, rfl⟩
    rcases snoc_eq_split hsplit with ⟨rfl, rfl, rfl⟩ | ⟨later', rfl, rfl⟩
    · exact Or.inl ⟨hserved, rfl⟩
    · exact Or.inr ⟨_, ⟨before, b, later', rfl, hserved, rfl⟩, durationOf_snoc _ _⟩
  · rintro (⟨hserved, rfl⟩ | ⟨_, ⟨before, b, later, rfl, hserved, rfl⟩, rfl⟩)
    · exact ⟨as, a, [], rfl, hserved, rfl⟩
    · exact ⟨before, b, later ++ [a], by simp, hserved, (durationOf_snoc _ _).symm⟩

theorem GotWriter.served (got : s.GotWriter as p ms) : p ∈ s.served as := by
  induction as using List.reverseRecOn generalizing ms with
  | nil =>
    obtain ⟨before, b, later, hsplit, -⟩ := got
    simp at hsplit
  | append_singleton as a ih =>
    rw [served_snoc, List.mem_append]
    rcases gotWriter_snoc.mp got with ⟨hserved, -⟩ | ⟨earlier, hgot, -⟩
    · exact Or.inr hserved
    · exact Or.inl (ih hgot)

theorem served_nodup (s : Setup) (as : List Action) :
    ((s.served as).map fun p => p.request.token).Nodup := by
  rw [(s.serving as).tokens]
  exact List.nodup_range'

/-- A call gets the writer once. -/
theorem GotWriter.unique {ms' : Nat} (got : s.GotWriter as p ms) (got' : s.GotWriter as p ms') :
    ms = ms' := by
  induction as using List.reverseRecOn generalizing ms ms' with
  | nil =>
    obtain ⟨before, b, later, hsplit, -⟩ := got
    simp at hsplit
  | append_singleton as a ih =>
    have hnodup := s.served_nodup (as ++ [a])
    rw [served_snoc, List.map_append, List.nodup_append] at hnodup
    have hapart : ∀ {earlier}, s.GotWriter as p earlier →
        p ∉ servedIn ((s.after as).moments a) := by
      intro earlier hgot hnow
      exact hnodup.2.2 _ (List.mem_map_of_mem hgot.served) _ (List.mem_map_of_mem hnow) rfl
    rcases gotWriter_snoc.mp got with ⟨hnow, rfl⟩ | ⟨earlier, hbefore, rfl⟩
    · rcases gotWriter_snoc.mp got' with ⟨-, rfl⟩ | ⟨earlier', hbefore', -⟩
      · rfl
      · exact (hapart hbefore' hnow).elim
    · rcases gotWriter_snoc.mp got' with ⟨hnow, -⟩ | ⟨earlier', hbefore', rfl⟩
      · exact (hapart hbefore hnow).elim
      · rw [ih hbefore hbefore']

theorem mem_servedIn_moments {k : Nat}
    (served : p ∈ servedIn (momentsOf k ((s.after as).begin a).2)) :
    p ∈ servedIn ((s.after as).moments a) := by
  have hsound := (s.sound as).begin a
  have hprefix : momentsOf k ((s.after as).begin a).2 <+: (s.after as).moments a :=
    momentsOf_prefix hsound (by rw [tickets_length]; omega) k
  obtain ⟨g, hg, hstarter⟩ := List.mem_filterMap.mp served
  exact List.mem_filterMap.mpr ⟨g, hprefix.subset hg, hstarter⟩

/-- The time that the link keeps for the call that has the writer. -/
def IsSince (s : Setup) (as : List Action) (l : Link) : Prop :=
  ∀ h, l.holder = some h →
    ∃ ms, s.GotWriter as ⟨h.ticket, h.request⟩ ms ∧ h.since + ms = l.clock

/-- At any time within a step. -/
theorem isSince_within_of (before : s.IsSince as (s.after as)) (k : Nat) :
    s.IsSince (as ++ [a]) (s.within as a k) := by
  have hturns := turns_induction (P := fun history l =>
    l.clock = (s.after as).clock + a.duration ∧ ∀ h, l.holder = some h →
      (⟨h.ticket, h.request⟩ ∈ servedIn history.moments ∧ h.since = l.clock) ∨
      ∃ earlier, s.GotWriter as ⟨h.ticket, h.request⟩ earlier ∧
        h.since + earlier = (s.after as).clock) ?_ k ⟨[], [], []⟩ ((s.sound as).begin a) ?_
  · rintro h held
    obtain ⟨hclock, hholder⟩ := hturns
    rcases hholder h held with ⟨hserved, hsince⟩ | ⟨earlier, hgot, hsince⟩
    · refine ⟨0, gotWriter_snoc.mpr (Or.inl ⟨mem_servedIn_moments hserved, rfl⟩), hsince⟩
    · refine ⟨_, gotWriter_snoc.mpr (Or.inr ⟨earlier, hgot, rfl⟩), ?_⟩
      rw [← Nat.add_assoc, hsince]
      exact hclock.symm
  · rintro history l sound ⟨hclock, hholder⟩
    have hnow := (turn_clock sound).1
    refine ⟨hnow.trans hclock, fun h' held' => ?_⟩
    obtain ⟨h, held, hticket, hrequest, hsince⟩ := turn_holder sound held'
    rw [hticket, hrequest, hsince, hnow, servedIn_append, List.mem_append]
    rcases grant_holder sound held with hwas | ⟨-, -, hstart, -, hstarter⟩
    · exact (hholder h hwas).imp_left fun hserved => ⟨Or.inl hserved.1, hserved.2⟩
    · exact Or.inl ⟨Or.inr (by simp [hstarter]), hstart⟩
  · refine ⟨begin_clock _ a, fun h' held' => Or.inr ?_⟩
    obtain ⟨h, held, hticket, hrequest, -, hsince⟩ := begin_holder held'
    obtain ⟨earlier, hgot, hclock⟩ := before h held
    exact ⟨earlier, by rw [hticket, hrequest]; exact hgot, by rw [hsince]; exact hclock⟩

theorem since_after (s : Setup) (as : List Action) : s.IsSince as (s.after as) := by
  induction as using List.reverseRecOn with
  | nil =>
    intro h held
    cases held
  | append_singleton as a ih =>
    rw [after_snoc]
    exact isSince_within_of ih (((s.after as).begin a).2.callCount + 1)

theorem since_within (s : Setup) (as : List Action) (a : Action) (k : Nat) :
    s.IsSince (as ++ [a]) (s.within as a k) :=
  isSince_within_of (s.since_after as) k

/-! ### Still having the writer -/

theorem served_ticket (own : OwnTickets as) {q : Sending} (hp : p ∈ s.served as)
    (hq : q ∈ s.served as) (same : p.ticket = q.ticket) : p = q := by
  have hnodup := (s.serving as).order.nodup own
  rw [List.nodup_append] at hnodup
  exact List.inj_on_of_nodup_map hnodup.1 hp hq same

theorem holder_served {h : Holder} (held : (s.after as).holder = some h) :
    (⟨h.ticket, h.request⟩ : Sending) ∈ s.served as :=
  List.mem_of_getLast? ((s.serving as).newest h held)

/-- Who has got the writer and is neither over nor cancelled still has it. -/
theorem holder_of_served (own : OwnTickets as) (served : p ∈ s.served as)
    (notOver : p.ticket ∉ (s.finished as).map Finished.ticket)
    (kept : ¬IsCancelled as p.ticket) :
    ∃ h, (s.after as).holder = some h ∧ (⟨h.ticket, h.request⟩ : Sending) = p := by
  obtain ⟨turn, hsent⟩ := s.served_sent served
  have hthere : p.ticket ∈ (s.after as).tickets :=
    ((accounted_for (mem_ticketsOf hsent rfl)).resolve_left notOver).resolve_left kept
  rcases List.mem_append.mp hthere with hholder | hqueue
  · obtain ⟨h, hmem, hticket⟩ := List.mem_map.mp hholder
    have held : (s.after as).holder = some h := by simpa using hmem
    exact ⟨h, held, served_ticket own (holder_served held) served hticket⟩
  · -- who has got the writer does not wait for it
    have hnodup := (s.serving as).order.nodup own
    rw [List.nodup_append] at hnodup
    exact (hnodup.2.2 _ (List.mem_map_of_mem served) _ hqueue rfl).elim

/-- At the end of a step the time of a call that still has the writer is not over. -/
theorem inTime (own : OwnTickets as) (got : s.GotWriter as p ms)
    (notOver : p.ticket ∉ (s.finished as).map Finished.ticket)
    (kept : ¬IsCancelled as p.ticket) {limit : Nat} (limited : s.timeLimit = some limit) :
    ms < limit := by
  obtain ⟨h, held, rfl⟩ := holder_of_served own got.served notOver kept
  obtain ⟨ms', hgot, hsince⟩ := s.since_after as h held
  obtain rfl := got.unique hgot
  have hstuck := ((s.atRest as).holder_stuck h held).2.inTime
  rw [isOverdue, after_timeLimit, limited] at hstuck
  simp only [Option.any_some, decide_eq_false_iff_not, Nat.not_le] at hstuck
  omega

end Setup

end Pushdown
