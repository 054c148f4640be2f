/-
  Pushdown/Proofs/Link/Sound.lean
  ===============================
  **How the parts of a link hang together.**  The request whose reply is expected is
  the one of the call that has the writer, and its token is the newest.  `Sound`
  says this, and what else is true of a link whatever happens to it: after an input
  has been taken in, after each turn, and after the VM has read.

  `Turned` lists what a turn of a sound link can be.
-/
import Pushdown.Proofs.Link.Input
import Pushdown.Proofs.Link.Writing

namespace Pushdown

namespace Link

/-- The call that has the writer, the request whose reply is expected, the newest
    token and the buffer fit together. -/
structure Sound (l : Link) : Prop where
  /-- A reply is expected by the call that has the writer and has not got it yet. -/
  expected_holder : ∀ r, l.expected = some r →
    ∃ h, l.holder = some h ∧ h.request = r ∧ h.handed = none
  /-- The call that has the writer drew the newest token. -/
  holder_newest : ∀ h, l.holder = some h → h.request.token + 1 = l.nextToken
  holder_expected : ∀ h, l.holder = some h → h.handed = none → l.closed = false →
    l.expected = some h.request
  closed_expected : l.closed = true → l.expected = none
  waiting_buffer : ∀ h, l.holder = some h → h.phase = .waiting → l.buffer = []
  writing_buffer : ∀ h, l.holder = some h → h.phase = .writing ∨ h.phase = .stalled →
    l.buffer ≠ []
  /-- A shutdown closes the link before it queues. -/
  open_queue : l.closed = false → ∀ q ∈ l.queue, ∃ c, q.errand = .command c

namespace Sound

variable {l : Link}

theorem expected_none (sound : l.Sound) (free : l.holder = none) : l.expected = none := by
  cases hexp : l.expected with
  | none => rfl
  | some r =>
    obtain ⟨h, held, -⟩ := sound.expected_holder r hexp
    rw [free] at held
    cases held

theorem expected_eq (sound : l.Sound) {h : Holder} (held : l.holder = some h) {r : Request}
    (expected : l.expected = some r) : h.request = r ∧ h.handed = none := by
  obtain ⟨h', held', hreq, hhanded⟩ := sound.expected_holder r expected
  rw [held] at held'
  cases held'
  exact ⟨hreq, hhanded⟩

/-! ### Changes that leave the calls alone -/

theorem withPipe (sound : l.Sound) (pipe : Pipe) : Sound { l with pipe } :=
  ⟨sound.1, sound.2, sound.3, sound.4, sound.5, sound.6, sound.7⟩

theorem withClock (sound : l.Sound) (clock : Nat) : Sound { l with clock } :=
  ⟨sound.1, sound.2, sound.3, sound.4, sound.5, sound.6, sound.7⟩

theorem of_free (free : l.holder = none) (expected : l.expected = none)
    (queue : l.closed = false → ∀ q ∈ l.queue, ∃ c, q.errand = .command c) : l.Sound where
  expected_holder r h := by rw [expected] at h; cases h
  holder_newest h held := by rw [free] at held; cases held
  holder_expected h held := by rw [free] at held; cases held
  closed_expected _ := expected
  waiting_buffer h held := by rw [free] at held; cases held
  writing_buffer h held := by rw [free] at held; cases held
  open_queue := queue

theorem withQueue (sound : l.Sound) {queue : List Queued} (fewer : ∀ q ∈ queue, q ∈ l.queue) :
    Sound { l with queue } :=
  ⟨sound.1, sound.2, sound.3, sound.4, sound.5, sound.6,
    fun isOpen q hq => sound.7 isOpen q (fewer q hq)⟩

/-! ### Changes at once -/

theorem close (sound : l.Sound) : l.close.Sound where
  expected_holder r h := by cases h
  holder_newest := sound.holder_newest
  holder_expected h held hhanded isOpen := by cases isOpen
  closed_expected _ := rfl
  waiting_buffer := sound.waiting_buffer
  writing_buffer := sound.writing_buffer
  open_queue isOpen := by cases isOpen

theorem enqueue (sound : l.Sound) {q : Queued}
    (fits : l.closed = false → ∃ c, q.errand = .command c) : (l.enqueue q).Sound := by
  refine ⟨sound.1, sound.2, sound.3, sound.4, sound.5, sound.6, fun isOpen p hp => ?_⟩
  rcases List.mem_append.mp hp with hp | hp
  · exact sound.open_queue isOpen p hp
  · rw [List.mem_singleton.mp hp]
    exact fits isOpen

theorem release (sound : l.Sound) {h : Holder} (held : l.holder = some h) :
    (l.release h.request.token).Sound := by
  refine of_free rfl ?_ sound.open_queue
  cases hexp : l.expected with
  | none => simp [hexp]
  | some r =>
    obtain ⟨rfl, -⟩ := sound.expected_eq held hexp
    simp [hexp]

/-- A reply that is expected is handed to the call that has the writer. -/
theorem handOver_eq (sound : l.Sound) {r : Request} (expected : l.expected = some r) :
    ∃ h, l.holder = some h ∧ h.request = r ∧
      ∀ result, l.holder.map (handOver r result) = some { h with handed := some result } := by
  obtain ⟨h, held, rfl, -⟩ := sound.expected_holder r expected
  refine ⟨h, held, rfl, fun result => ?_⟩
  simp [held, handOver]

theorem handed (sound : l.Sound) {h : Holder} (held : l.holder = some h)
    (result : Except Error Payload) :
    Sound { l with expected := none, holder := some { h with handed := some result } } where
  expected_holder r hexp := by cases hexp
  holder_newest h' held' := by
    cases held'
    exact sound.holder_newest h held
  holder_expected h' held' hnone := by
    cases held'
    cases hnone
  closed_expected _ := rfl
  waiting_buffer h' held' hphase := by
    cases held'
    exact sound.waiting_buffer h held hphase
  writing_buffer h' held' hphase := by
    cases held'
    exact sound.writing_buffer h held hphase
  open_queue := sound.open_queue

theorem acquire (sound : l.Sound) (isOpen : l.closed = false) (t : Ticket) (c : Command) :
    (l.acquire t c).Sound where
  expected_holder r h := ⟨_, rfl, Option.some.inj h, rfl⟩
  holder_newest h held := by cases held; rfl
  holder_expected h held _ _ := by cases held; rfl
  closed_expected isClosed := by simp [Link.acquire, isOpen] at isClosed
  waiting_buffer h held hphase := by cases held; cases hphase
  writing_buffer h held hphase := by
    cases held
    rcases hphase with hphase | hphase <;> cases hphase
  open_queue := sound.open_queue

theorem grant (sound : l.Sound) : l.grant.Sound := by
  unfold Link.grant
  split
  · next t c rest free hqueue =>
    split
    · exact sound
    · next hopen =>
      have hfewer : Sound { l with queue := rest } :=
        sound.withQueue fun q hq => hqueue ▸ List.mem_cons_of_mem _ hq
      exact hfewer.acquire (by simpa using hopen) t c
  · exact sound

theorem begin (sound : l.Sound) (a : Action) : (l.begin a).2.Sound := by
  have begun := begun_begin l a
  generalize l.begin a = r at begun ⊢
  cases begun with
  | turnedAway | stray => exact sound
  | @joins t turn c => exact sound.enqueue fun _ => ⟨c, rfl⟩
  | letsGo held => exact sound.release held
  | leaves => exact sound.withQueue fun q hq => (List.mem_filter.mp hq).1
  | handed hexp =>
    obtain ⟨h, held, -, hover⟩ := sound.handOver_eq hexp
    rw [hover]
    exact sound.handed held _
  | closes => exact sound.close
  | shutsDown => exact sound.close.enqueue fun isOpen => by cases isOpen
  | goesOn => exact sound.withClock _
  | reads | hangsUp => exact sound.withPipe _

theorem drain (sound : l.Sound) : l.drain.2.Sound := sound.withPipe _

theorem goesOn (sound : l.Sound) {h h' : Holder} {l' : Link} (held : l.holder = some h)
    (wrote : Wrote l h l' (.ok h')) : Sound { l' with holder := some h' } := by
  have hsame := wrote.holder_eq
  have htoken : h'.request = h.request := by rw [hsame]
  have hhanded : h'.handed = h.handed := by rw [hsame]
  refine ⟨?_, ?_, ?_, ?_, ?_, ?_, ?_⟩
  · intro r hr
    obtain ⟨hreq, hnone⟩ := sound.expected_eq held (wrote.expected_eq ▸ hr)
    exact ⟨h', rfl, htoken.trans hreq, hhanded.trans hnone⟩
  · rintro _ ⟨⟩
    rw [htoken]
    exact (sound.holder_newest h held).trans wrote.nextToken_eq.symm
  · rintro _ ⟨⟩ hnone isOpen
    change l'.expected = _
    rw [wrote.expected_eq, htoken]
    exact sound.holder_expected h held (hhanded ▸ hnone) (wrote.closed_eq ▸ isOpen)
  · intro isClosed
    exact wrote.expected_eq.trans (sound.closed_expected (wrote.closed_eq ▸ isClosed))
  · rintro _ ⟨⟩ hphase
    cases wrote with
    | unchanged => exact sound.waiting_buffer h held hphase
    | stalled => cases hphase
    | written _ bytes => exact phaseAt_eq_waiting hphase
    | entered _ _ bytes => exact phaseAt_eq_waiting hphase
  · rintro _ ⟨⟩ hphase
    cases wrote with
    | unchanged => exact sound.writing_buffer h held hphase
    | stalled _ _ left => exact left
    | written _ bytes => exact ne_nil_of_phaseAt hphase
    | entered _ _ bytes => exact ne_nil_of_phaseAt hphase
  · intro isOpen q hq
    exact sound.open_queue (wrote.closed_eq ▸ isOpen) q (wrote.queue_eq ▸ hq)

theorem ended (sound : l.Sound) {h : Holder} {l' : Link} {p : Progress}
    (held : l.holder = some h) (wrote : Wrote l h l' p) :
    (l'.release h.request.token).Sound := by
  refine of_free rfl ?_ ?_
  · rcases wrote.closed_or with ⟨-, hexp⟩ | ⟨-, hexp, -⟩
    · have hnone := (sound.release held).expected_none rfl
      simpa [hexp] using hnone
    · simp [hexp]
  · intro isOpen q hq
    change q ∈ l'.queue at hq
    rcases wrote.closed_or with ⟨hclosed, -⟩ | ⟨hclosed, -⟩
    · exact sound.open_queue (hclosed ▸ isOpen) q (wrote.queue_eq ▸ hq)
    · rw [show l'.closed = false from isOpen] at hclosed
      cases hclosed

theorem giveUp_eq (sound : l.Sound) (isOpen : l.closed = false) : l.giveUp = (none, l) := by
  have hnone : l.queue.find? l.isImpatient = none := by
    rw [List.find?_eq_none]
    intro q hq
    obtain ⟨c, hc⟩ := sound.open_queue isOpen q hq
    simp [isImpatient, hc]
  rw [giveUp, hnone]

end Sound

/-! ### Turns -/

/-- What giving the writer away can be. -/
inductive Granted (l : Link) : Link → Prop
  | unchanged (why : l.holder = none → l.closed = false → l.queue = []) : Granted l l
  | acquired {t : Ticket} {c : Command} {rest : List Queued} (free : l.holder = none)
      (queue : l.queue = ⟨t, .command c⟩ :: rest) (isOpen : l.closed = false) :
      Granted l ({ l with queue := rest }.acquire t c)

theorem granted_grant {l : Link} (sound : l.Sound) : Granted l l.grant := by
  unfold grant
  split
  · next t c rest free hqueue =>
    by_cases isClosed : l.closed = true
    · rw [if_pos isClosed]
      exact .unchanged fun _ isOpen => by simp [isClosed] at isOpen
    · rw [if_neg isClosed]
      exact .acquired free hqueue (by simpa using isClosed)
  · next hnot =>
    apply Granted.unchanged
    intro free isOpen
    cases hqueue : l.queue with
    | nil => rfl
    | cons q rest =>
      obtain ⟨c, hc⟩ := sound.open_queue isOpen q (by simp [hqueue])
      exact (hnot q.ticket c rest free (by rw [hqueue, ← hc])).elim

theorem grant_queue_nil {l : Link} (sound : l.Sound) (free : l.grant.holder = none)
    (isOpen : l.grant.closed = false) : l.grant.queue = [] := by
  generalize hg : l.grant = g at *
  cases hg ▸ granted_grant sound with
  | unchanged why => exact why free isOpen
  | acquired => cases free

/-- What a turn can be, from the link in which the writer has been given away. -/
inductive Turned (g : Link) : Option Finished × Link → Prop
  | idle (free : g.holder = none) (empty : g.queue = []) : Turned g (none, g)
  /-- The link is closed, and the call that has the writer hears of it. -/
  | refused {h : Holder} (held : g.holder = some h) (isClosed : g.closed = true) :
      Turned g (some (Link.refused h.ticket), g.release h.request.token)
  /-- The link is closed, and the oldest call in the queue hears of it. -/
  | dismissed {t : Ticket} {c : Command} {rest : List Queued} (free : g.holder = none)
      (queue : g.queue = ⟨t, .command c⟩ :: rest) (isClosed : g.closed = true) :
      Turned g (some (Link.refused t), { g with queue := rest })
  /-- The oldest call in the queue shuts the pipe. -/
  | shuts {t : Ticket} {deadline : Nat} {rest : List Queued} (free : g.holder = none)
      (queue : g.queue = ⟨t, .shutdown deadline⟩ :: rest) (isClosed : g.closed = true) :
      Turned g (some (.shutdown t), { g with queue := rest }.shutPipe)
  | goesOn {h h' : Holder} {l' : Link} (held : g.holder = some h)
      (isOpen : g.closed = false) (polled : Polled g h l' (.ok h')) :
      Turned g (none, { l' with holder := some h' })
  | ended {h : Holder} {l' : Link} {result : Except Error Payload}
      (held : g.holder = some h) (isOpen : g.closed = false)
      (polled : Polled g h l' (.error result)) :
      Turned g (some (.command h.ticket result), l'.release h.request.token)

theorem turned_drive {l : Link} (sound : l.Sound) {h : Holder} (held : l.holder = some h)
    (isOpen : l.closed = false) : Turned l (l.drive h) := by
  have hpolled := polled_poll l h
  unfold drive
  split
  · next l' h' heq =>
    rw [heq] at hpolled
    have hsound := sound.goesOn held hpolled.wrote_ok
    rw [hsound.giveUp_eq (hpolled.wrote_ok.closed_eq.trans isOpen)]
    exact .goesOn held isOpen hpolled
  · next l' result heq =>
    rw [heq] at hpolled
    exact .ended held isOpen hpolled

theorem turned_turn {l : Link} (sound : l.Sound) : Turned l.grant l.turn := by
  have hgrant := sound.grant
  unfold turn
  simp only
  split
  · next h held =>
    split
    · next isClosed => exact .refused held isClosed
    · next isOpen => exact turned_drive hgrant held (by simpa using isOpen)
  · next q rest free hqueue =>
    have hclosed : l.grant.closed = true := by
      by_cases isClosed : l.grant.closed = true
      · exact isClosed
      · have hempty := grant_queue_nil sound free (by simpa using isClosed)
        rw [hqueue] at hempty
        cases hempty
    obtain ⟨t, c | deadline⟩ := q
    · exact .dismissed free hqueue hclosed
    · exact .shuts free hqueue hclosed
  · next free hempty => exact .idle free hempty

namespace Turned

variable {g : Link} {result : Option Finished × Link}

theorem nextToken_eq (turned : Turned g result) : result.2.nextToken = g.nextToken := by
  cases turned with
  | idle | refused | dismissed | shuts => rfl
  | goesOn _ _ polled => exact polled.wrote_ok.nextToken_eq
  | ended _ _ polled =>
    obtain ⟨p, wrote⟩ := polled.wrote
    exact wrote.nextToken_eq

theorem expected_of (turned : Turned g result) {r : Request} (h : result.2.expected = some r) :
    g.expected = some r := by
  cases turned with
  | idle | dismissed | shuts => exact h
  | refused => exact (Option.filter_eq_some_iff.mp h).1
  | goesOn _ _ polled => exact polled.wrote_ok.expected_eq.symm.trans h
  | ended _ _ polled =>
    obtain ⟨p, wrote⟩ := polled.wrote
    have hexp := (Option.filter_eq_some_iff.mp h).1
    rcases wrote.closed_or with ⟨-, hsame⟩ | ⟨-, hnone, -⟩
    · exact hsame.symm.trans hexp
    · rw [hnone] at hexp
      cases hexp

theorem closed (turned : Turned g result) (isClosed : g.closed = true) :
    result.2.closed = true := by
  cases turned with
  | idle | refused | dismissed | shuts => exact isClosed
  | goesOn _ isOpen | ended _ isOpen =>
    rw [isClosed] at isOpen
    cases isOpen

theorem queue_eq (turned : Turned g result) (isOpen : result.2.closed = false) :
    result.2.queue = g.queue := by
  cases turned with
  | idle | refused => rfl
  | dismissed _ _ isClosed | shuts _ _ isClosed => cases isClosed.symm.trans isOpen
  | goesOn _ _ polled => exact polled.wrote_ok.queue_eq
  | ended _ _ polled =>
    obtain ⟨p, wrote⟩ := polled.wrote
    exact wrote.queue_eq

end Turned

/-! ### Turns -/

theorem Sound.turn {l : Link} (sound : l.Sound) : l.turn.2.Sound := by
  have hgrant := sound.grant
  have turned := turned_turn sound
  generalize l.turn = r at turned ⊢
  cases turned with
  | idle => exact hgrant
  | refused held => exact hgrant.release held
  | dismissed _ hqueue =>
    exact hgrant.withQueue fun q hq => hqueue ▸ List.mem_cons_of_mem _ hq
  | shuts _ hqueue =>
    exact (hgrant.withQueue fun q hq => hqueue ▸ List.mem_cons_of_mem _ hq).withPipe _
  | goesOn held _ polled => exact hgrant.goesOn held polled.wrote_ok
  | ended held _ polled =>
    obtain ⟨p, wrote⟩ := polled.wrote
    exact hgrant.ended held wrote

theorem Sound.of_turn {l m : Link} {f : Option Finished} (sound : l.Sound)
    (turned : l.turn = (f, m)) : m.Sound := by
  have hsound := sound.turn
  rwa [turned] at hsound

/-- What a turn keeps is kept by any number of them. -/
theorem turns_kept {P : Link → Prop} (turn : ∀ l, l.Sound → P l → P l.turn.2) {n : Nat}
    {l : Link} (sound : l.Sound) (h : P l) : P (turns n l).2 := by
  induction n generalizing l with
  | zero => exact h
  | succ n ih =>
    have hsound := sound.turn
    have hnext := turn l sound h
    unfold turns
    split
    · next l' heq =>
      rw [heq] at hnext
      exact hnext
    · next f l' heq =>
      rw [heq] at hsound hnext
      exact ih hsound hnext

theorem Sound.turns {n : Nat} {l : Link} (sound : l.Sound) : (turns n l).2.Sound :=
  turns_kept (fun _ sound _ => sound.turn) sound sound

theorem Sound.step {l : Link} (sound : l.Sound) (a : Action) : (l.step a).2.Sound := by
  have hsettled : (l.begin a).2.settle.2.Sound := (sound.begin a).turns
  exact hsettled.drain.withPipe _

end Link

end Pushdown
