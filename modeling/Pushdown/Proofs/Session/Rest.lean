/-
  Pushdown/Proofs/Session/Rest.lean
  =================================
  **After each input a session is at rest.**  In one input a call gets at most one reply,
  and a call whose command has failed sends no other one.  So the commands that can come
  to their end are the ones that have the writer or wait for it, and one more (`effort`);
  a session lets at least so many end.  What it leaves is a link at rest, as after an
  input to the link alone (`Setup.atRest`).

  This needs that calls and commands belong together: each command waits for a call of
  its own, no two calls go by the same ticket, and after a failure every call gives up
  (`Staffed`).

  At rest an input that changes something at once changes nothing else
  (`step_of_perform`).
-/
import Pushdown.Proofs.Link.Rest
import Pushdown.Proofs.Script.GivesUp
import Pushdown.Proofs.Session.Calls

namespace Pushdown

/-! ### Commands that can end -/

namespace Link

/-- How many commands can come to their end before there is further input. -/
def effort (l : Link) : Nat := l.callCount + if l.holder.any (·.handed.isSome) then 1 else 0

theorem holder_of_ended {l l' : Link} {f : Finished} (sound : l.Sound)
    (ended : l.turn = (some f, l')) : l'.holder = none := by
  have turned := turned_turn sound
  rw [ended] at turned
  generalize l.grant = g at turned
  cases turned with
  | refused | ended => rfl
  | dismissed free | shuts free => exact free

theorem callCount_of_ended {l l' : Link} {f : Finished} (sound : l.Sound)
    (ended : l.turn = (some f, l')) : l'.callCount + 1 = l.callCount := by
  have htickets := congrArg List.length (turn_tickets sound)
  rw [ended] at htickets
  simpa [tickets_length, Nat.add_comm] using htickets

/-- A command that ends with a payload has had its reply before the turn. -/
theorem handed_of_ended {l l' : Link} {t : Ticket} {payload : Payload} (sound : l.Sound)
    (ended : l.turn = (some (.command t (.ok payload)), l')) :
    l.holder.any (·.handed.isSome) = true := by
  have hgranted : ∀ h, l.grant.holder = some h → h.handed.isSome → l.holder = some h := by
    intro h held handed
    generalize hg : l.grant = g at held
    cases hg ▸ granted_grant sound with
    | unchanged => exact held
    | acquired =>
      cases held
      cases handed
  have turned := turned_turn sound
  rw [ended] at turned
  generalize l.grant = g at turned hgranted
  cases turned with
  | @ended h _ _ held _ polled =>
    have hhanded : h.handed.isSome := by
      cases polled with
      | answered wrote _ handed =>
        rw [(wrote_of_eq wrote).holder_eq] at handed
        simp only at handed
        rw [handed]
        rfl
      | failed wrote => cases wrote_of_eq wrote
    rw [hgranted h held hhanded]
    simpa using hhanded

theorem Sound.perform {l : Link} (sound : l.Sound) {a : Action} (h : a ≠ .read) :
    (l.perform a).2.Sound :=
  begin_eq l h ▸ sound.begin a

/-- Nobody waits to shut the pipe. -/
def AllCommands (l : Link) : Prop := ∀ q ∈ l.queue, ∃ c, q.errand = .command c

theorem AllCommands.turn {l : Link} (all : l.AllCommands) (sound : l.Sound) :
    l.turn.2.AllCommands ∧ ∀ t, l.turn.1 ≠ some (.shutdown t) := by
  constructor
  · intro q hq
    exact all q ((turn_queue_sublist sound).subset hq)
  · have hgrant := (grant_queue_sublist sound).subset
    have turned := turned_turn sound
    generalize l.grant = g at turned hgrant
    generalize l.turn = r at turned ⊢
    intro t
    cases turned with
    | shuts _ queue =>
      obtain ⟨c, hc⟩ := all ⟨_, .shutdown _⟩ (hgrant (queue ▸ List.mem_cons_self))
      cases hc
    | idle | goesOn => simp
    | refused | dismissed | ended => simp [Link.refused]

theorem tickets_cancel {l : Link} (distinct : l.tickets.Nodup) (t : Ticket) :
    (l.cancel t).tickets = l.tickets.filter (· != t) := by
  have hqueue := map_filter_ticket Queued.ticket l.queue t
  unfold cancel
  cases held : l.holder with
  | none => simpa [tickets, held] using hqueue
  | some h =>
    simp only
    split
    · next own =>
      subst own
      simp only [tickets, held, Option.toList_some, List.map_cons, List.map_nil,
        List.cons_append, List.nil_append] at distinct ⊢
      have habsent := (List.nodup_cons.mp distinct).1
      rw [List.filter_cons_of_neg (by simp), ← hqueue, filter_of_absent habsent]
      rfl
    · next other =>
      simpa [tickets, held, other] using hqueue

theorem cancel_queue_sublist (l : Link) (t : Ticket) : (l.cancel t).queue.Sublist l.queue := by
  unfold cancel
  split <;> [split; skip]
  · exact .refl _
  · exact List.filter_sublist
  · exact List.filter_sublist

theorem resolve_queue (l : Link) (reply : Reply) : (l.resolve reply).queue = l.queue := by
  unfold resolve
  split <;> [split; skip] <;> rfl

theorem resolve_pipe (l : Link) (reply : Reply) : (l.resolve reply).pipe = l.pipe := by
  unfold resolve
  split <;> [split; skip] <;> rfl

theorem resolve_free {l : Link} (free : l.holder = none) (reply : Reply) :
    (l.resolve reply).holder = none := by
  unfold resolve
  split <;> [split; skip] <;> simp [free]

theorem tickets_resolve (l : Link) (reply : Reply) : (l.resolve reply).tickets = l.tickets := by
  have hholder := map_handOver (g := Holder.ticket) fun _ _ => rfl
  unfold resolve
  split
  · split
    · simp [tickets, hholder]
    · rfl
  · rfl

end Link

variable {α : Type} {t : Ticket}

/-- A call that waits gives up after a failure, and after the next one if this goes well. -/
def Waiting.GivesUp (w : Waiting α) : Prop :=
  (∀ e, (w.next (.error e)).NeverSends) ∧ ∀ payload, (w.next (.ok payload)).GivesUp

/-- The calls that wait, and the one that is going on. -/
def Moment.tickets (m : Moment α) : List Ticket :=
  m.session.calls.map Waiting.ticket ++ m.running.toList.map Prod.fst

namespace Session

/-! ### What a script does to the queue -/

theorem runScript_holder (script : Script α) (x : Session α) :
    (runScript t script x).2.link.holder = x.link.holder := by
  induction script generalizing x with
  | done result => rfl
  | look next ih => exact ih _ x
  | send turn c next ih =>
    simp only [runScript]
    split
    · exact ih _ x
    · rfl
  | close next ih => exact ih x.close.2

theorem runScript_callCount (script : Script α) (x : Session α) :
    (runScript t script x).2.link.callCount ≤ x.link.callCount + 1 := by
  induction script generalizing x with
  | done result => exact Nat.le_succ _
  | look next ih => exact ih _ x
  | send turn c next ih =>
    simp only [runScript]
    split
    · exact ih _ x
    · simp [Link.callCount, Link.enqueue, Nat.add_assoc]
  | close next ih => exact ih x.close.2

theorem callCount_of_neverSends {script : Script α} (never : script.NeverSends) (x : Session α) :
    (runScript t script x).2.link.callCount = x.link.callCount := by
  induction script generalizing x with
  | done result => rfl
  | look next ih => exact ih _ (never _) x
  | send => exact never.elim
  | close next ih => exact ih never x.close.2

/-! ### Calls and commands -/

/-- Each command waits for a call of its own. -/
structure Staffed (began : List Ticket) (m : Moment α) : Prop where
  sound : m.session.link.Sound
  commands : m.session.link.AllCommands
  staffed : m.session.link.tickets.Perm (m.session.calls.map Waiting.ticket)
  distinct : m.tickets.Nodup
  known : ∀ u ∈ m.tickets, u ∈ began
  waiting : ∀ w ∈ m.session.calls, w.GivesUp
  running : ∀ u script, m.running = some (u, script) → script.GivesUp

namespace Staffed

variable {began : List Ticket} {log : Happened α} {x : Session α}

/-- Between two inputs the log does not matter, nor what has nothing to do with calls. -/
theorem of_same {y : Session α} (staffed : Staffed began (between log x))
    (log' : Happened α) (sound : y.link.Sound) (queue : y.link.queue = x.link.queue)
    (tickets : y.link.tickets = x.link.tickets) (calls : y.calls = x.calls) : Staffed began (between log' y) where
  sound := sound
  commands q hq := staffed.commands q (queue ▸ hq)
  staffed := by
    change y.link.tickets.Perm (y.calls.map Waiting.ticket)
    rw [tickets, calls]
    exact staffed.staffed
  distinct := by
    simpa [Moment.tickets, between, calls] using staffed.distinct
  known := by
    simpa [Moment.tickets, between, calls] using staffed.known
  waiting w hw := staffed.waiting w (calls ▸ hw)
  running u script hrun := by cases hrun

theorem tickets_nodup {m : Moment α} (staffed : Staffed began m) :
    m.session.link.tickets.Nodup :=
  staffed.staffed.nodup_iff.mpr (List.nodup_append.mp staffed.distinct).1

/-- The call whose command is over is there, and goes on. -/
theorem exists_waiting (staffed : Staffed began (between log x)) (ht : t ∈ x.link.tickets) :
    ∃ w, x.calls.find? (fun w => w.ticket = t) = some w ∧ w ∈ x.calls ∧ w.ticket = t := by
  obtain ⟨w, hw, own⟩ := List.mem_map.mp (staffed.staffed.mem_iff.mp ht)
  have hfound : (x.calls.find? (fun w => w.ticket = t)).isSome := by
    rw [List.find?_isSome]
    exact ⟨w, hw, by simpa using own⟩
  obtain ⟨v, hv⟩ := Option.isSome_iff_exists.mp hfound
  exact ⟨v, hv, List.mem_of_find?_eq_some hv, by simpa using List.find?_some hv⟩

theorem goesOn {u : Ticket} {script script' : Script α}
    (staffed : Staffed began ⟨log, x, [], some (u, script)⟩)
    (givesUp : script.GivesUp → script'.GivesUp) :
    Staffed began ⟨log, x, [], some (u, script')⟩ := by
  refine ⟨staffed.1, staffed.2, staffed.3, staffed.4, staffed.5, staffed.6, ?_⟩
  intro v next hrun
  obtain ⟨rfl, rfl⟩ := Prod.mk.inj (Option.some.inj hrun)
  exact givesUp (staffed.running _ _ rfl)

theorem asks {u : Ticket} {turn : Turn} {c : Command} {next : Except Error Payload → Script α}
    (staffed : Staffed began ⟨log, x, [], some (u, .send turn c next)⟩) (log' : Happened α) :
    Staffed began (between log' { x with
      link := x.link.enqueue ⟨u, .command c⟩
      calls := x.calls ++ [⟨u, next⟩] }) where
  sound := staffed.sound.enqueue fun _ => ⟨c, rfl⟩
  commands := by
    intro q hq
    rcases List.mem_append.mp hq with hq | hq
    · exact staffed.commands q hq
    · rw [List.mem_singleton.mp hq]
      exact ⟨c, rfl⟩
  staffed := by
    have hstaffed : x.link.tickets.Perm (x.calls.map Waiting.ticket) := staffed.staffed
    simpa [between, Link.tickets, Link.enqueue, ← List.append_assoc] using
      hstaffed.append_right [u]
  distinct := by simpa [Moment.tickets, between] using staffed.distinct
  known := by simpa [Moment.tickets, between] using staffed.known
  waiting := by
    intro w hw
    rcases List.mem_append.mp hw with hw | hw
    · exact staffed.waiting w hw
    · rw [List.mem_singleton.mp hw]
      exact staffed.running _ _ rfl
  running v script hrun := by cases hrun

theorem calls_nodup (staffed : Staffed began (between log x)) :
    (x.calls.map Waiting.ticket).Nodup := by
  simpa [Moment.tickets, between] using staffed.distinct

theorem calls_known (staffed : Staffed began (between log x)) :
    ∀ u ∈ x.calls.map Waiting.ticket, u ∈ began := by
  simpa [Moment.tickets, between] using staffed.known

/-- A call goes away together with its command. -/
theorem dropped {link : Link} (staffed : Staffed began (between log x)) (sound : link.Sound)
    (commands : link.AllCommands) (tickets : link.tickets = x.link.tickets.filter (· != t)) :
    Staffed began
      (between log { x with link, calls := x.calls.filter (fun w => w.ticket != t) }) := by
  have hcalls := Link.map_filter_ticket Waiting.ticket x.calls t
  have hstaffed : x.link.tickets.Perm (x.calls.map Waiting.ticket) := staffed.staffed
  refine ⟨sound, commands, ?_, ?_, ?_, ?_, ?_⟩
  · simp only [between, tickets, hcalls]
    exact hstaffed.filter _
  · simp only [Moment.tickets, between, hcalls, Option.toList_none, List.map_nil, List.append_nil]
    exact staffed.calls_nodup.filter _
  · intro u hu
    simp only [Moment.tickets, between, hcalls, Option.toList_none, List.map_nil,
      List.append_nil] at hu
    exact staffed.calls_known u (List.mem_filter.mp hu).1
  · intro w hw
    exact staffed.waiting w (List.mem_filter.mp hw).1
  · intro u script hrun
    cases hrun

theorem runs {u : Ticket} {script : Script α} (staffed : Staffed began (between log x))
    (known : u ∈ began) (free : u ∉ x.calls.map Waiting.ticket) (givesUp : script.GivesUp) :
    Staffed began ⟨log, x, [], some (u, script)⟩ := by
  refine ⟨staffed.sound, staffed.commands, staffed.staffed, ?_, ?_, staffed.waiting, ?_⟩
  · refine List.nodup_append.mpr ⟨staffed.calls_nodup, List.pairwise_singleton _ u, ?_⟩
    rintro v hv v' hv' rfl
    obtain rfl := List.mem_singleton.mp hv'
    exact free hv
  · intro v hv
    rcases List.mem_append.mp hv with hv | hv
    · exact staffed.calls_known v hv
    · rwa [List.mem_singleton.mp hv]
  · intro v script' hrun
    obtain ⟨rfl, rfl⟩ := Prod.mk.inj (Option.some.inj hrun)
    exact givesUp

theorem awakened (staffed : Staffed began (between log x)) :
    Staffed began (awakened log { x with link := x.link.turn.2 } x.link.turn.1) := by
  have hlink : x.link.Sound := staffed.sound
  obtain ⟨hcommands, hcommand⟩ := Link.AllCommands.turn staffed.commands hlink
  have htickets := Link.turn_tickets hlink
  rcases hfinished : x.link.turn.1 with _ | ⟨u, result⟩ | u
  · simp only [hfinished, Option.toList_none, List.map_nil, List.nil_append] at htickets
    refine ⟨hlink.turn, hcommands, ?_, staffed.distinct, staffed.known, staffed.waiting, ?_⟩
    · change x.link.turn.2.tickets.Perm _
      rw [htickets]
      exact staffed.staffed
    · intro v script hrun
      cases hrun
  · simp only [hfinished, Option.toList_some, List.map_cons, List.map_nil, Finished.ticket,
      List.cons_append, List.nil_append] at htickets
    have hu : u ∉ x.link.turn.2.tickets := by
      have hdistinct : x.link.tickets.Nodup := staffed.tickets_nodup
      rw [← htickets] at hdistinct
      exact (List.nodup_cons.mp hdistinct).1
    have hothers : x.link.turn.2.tickets = x.link.tickets.filter (· != u) := by
      rw [← htickets, List.filter_cons_of_neg (by simp)]
      exact (Link.filter_of_absent (f := id) (by simpa using hu)).symm
    obtain ⟨w, hfind, hw, own⟩ := staffed.exists_waiting (htickets ▸ List.mem_cons_self)
    have hless := staffed.dropped hlink.turn hcommands hothers
    have hknown := staffed.calls_known u (List.mem_map.mpr ⟨w, hw, own⟩)
    have hgivesUp : (w.next result).GivesUp := by
      obtain ⟨hfails, hgoes⟩ := staffed.waiting w hw
      cases result with
      | ok payload => exact hgoes payload
      | error e => exact (hfails e).givesUp
    simp only [Session.awakened, hfind]
    refine hless.runs hknown ?_ hgivesUp
    rw [Link.map_filter_ticket]
    simp
  · exact (hcommand u hfinished).elim

end Staffed

theorem handleIncoming_link_eq (x : Session α) (item : Incoming) :
    (x.handleIncoming item).2.link = x.link ∨
      ∃ reply, item = .reply reply ∧ (x.handleIncoming item).2.link = x.link.resolve reply := by
  cases item with
  | reply r => exact Or.inr ⟨r, rfl, rfl⟩
  | event e => exact Or.inl (x.handleEvent_link e)
  | malformed => exact Or.inl rfl

theorem kept_staffed (began : List Ticket) : Kept (Staffed (α := α) began) where
  next m m' h step := by
    cases step with
    | @line log x item rest =>
      have hline : (x.handleIncoming item).2.link.Sound ∧
          (x.handleIncoming item).2.link.queue = x.link.queue ∧
          (x.handleIncoming item).2.link.tickets = x.link.tickets := by
        rcases handleIncoming_link_eq x item with hsame | ⟨reply, -, hresolve⟩
        · rw [hsame]
          exact ⟨h.sound, rfl, rfl⟩
        · rw [hresolve]
          exact ⟨h.sound.perform (a := .resolve reply) (by simp), Link.resolve_queue _ _,
            Link.tickets_resolve _ _⟩
      have hbetween : Staffed began (between log x) := ⟨h.1, h.2, h.3, h.4, h.5, h.6, h.7⟩
      have hnext := hbetween.of_same log hline.1 hline.2.1 hline.2.2
        (x.handleIncoming_calls item)
      exact ⟨hnext.1, hnext.2, hnext.3, hnext.4, hnext.5, hnext.6, hnext.7⟩
    | looks => exact h.goesOn fun givesUp => givesUp _
    | turnedAway => exact h.goesOn fun givesUp => Script.NeverSends.givesUp (givesUp.1 _)
    | asks => exact h.asks _
    | @closes log x u next =>
      have hclosed : Staffed began ⟨log ++ x.close.1, x.close.2, [], some (u, .close next)⟩ :=
        ⟨h.sound.close.withPipe _, h.commands, h.staffed, h.distinct, h.known, h.waiting,
          h.running⟩
      exact hclosed.goesOn id
    | ends =>
      refine ⟨h.sound, h.commands, h.staffed, ?_, ?_, h.waiting, fun u script hrun => by cases hrun⟩
      · simpa [Moment.tickets, between] using (List.nodup_append.mp h.distinct).1
      · intro u hu
        refine h.known u (List.mem_append_left _ ?_)
        simpa [Moment.tickets, between] using hu
    | turns => exact h.awakened
  drain log s reading h := h.of_same _ (h.sound.drain.withPipe _) rfl rfl rfl

/-! ### Coming to rest -/

section

variable {began : List Ticket} {log : Happened α} {x : Session α}

/-- The call that goes on asks for another command only if the one before went well, and
    that was one that had had its reply. -/
theorem effort_goOn (staffed : Staffed began (between log x)) {result : Except Error Payload}
    {link : Link} (ended : x.link.turn = (some (.command t result), link)) :
    (goOn t result { x with link }).2.link.effort < x.link.effort := by
  have hsound : x.link.Sound := staffed.sound
  have hholder := Link.holder_of_ended hsound ended
  have hcount := Link.callCount_of_ended hsound ended
  have ht : t ∈ x.link.tickets := by
    have htickets := Link.turn_tickets hsound
    rw [ended] at htickets
    rw [← htickets]
    exact List.mem_cons_self
  obtain ⟨w, hfind, hw, -⟩ := staffed.exists_waiting ht
  obtain ⟨hfails, hgoes⟩ := staffed.waiting w hw
  simp only [goOn, hfind]
  generalize hy : ({ x with link, calls := x.calls.filter (fun v => v.ticket != t) } :
    Session α) = y
  have hlink : y.link = link := by rw [← hy]
  -- nobody has the writer any more
  have hfree : (runScript t (w.next result) y).2.link.effort =
      (runScript t (w.next result) y).2.link.callCount := by
    rw [Link.effort, runScript_holder, hlink, hholder]
    rfl
  rw [hfree]
  cases result with
  | error e =>
    rw [callCount_of_neverSends (hfails e), hlink, Link.effort]
    omega
  | ok payload =>
    have hbound := runScript_callCount (t := t) (w.next (.ok payload)) y
    rw [hlink] at hbound
    rw [Link.effort, if_pos (Link.handed_of_ended hsound ended)]
    omega

theorem settled_settleIn {n : Nat} (staffed : Staffed began (between log x))
    (enough : x.link.effort < n) : (settleIn n x).2.link.Settled := by
  induction n generalizing log x with
  | zero => omega
  | succ n ih =>
    have hturn := (kept_staffed began).next _ _ staffed .turns
    rcases hended : x.link.turn with ⟨_ | ⟨u, result⟩ | u, link⟩
    · simpa [settleIn, hended] using Link.settled_turn staffed.sound hended
    · rw [hended] at hturn
      have hless := effort_goOn staffed hended
      simpa [settleIn, hended] using
        ih ((kept_staffed began).goOn hturn) (Nat.lt_of_lt_of_le hless (Nat.le_of_lt_succ enough))
    · have hcommand := (Link.AllCommands.turn staffed.commands staffed.sound).2 u
      exact (hcommand (congrArg Prod.fst hended)).elim

/-- Where nothing can happen any more, more turns change nothing. -/
theorem settleIn_add {n : Nat} (k : Nat) (staffed : Staffed began (between log x))
    (settled : (settleIn n x).2.link.Settled) : settleIn (n + k) x = settleIn n x := by
  induction n generalizing log x with
  | zero =>
    have hturn : x.link.turn = (none, x.link) := Link.turn_of_settled staffed.sound settled
    cases k with
    | zero => rfl
    | succ k =>
      rw [Nat.zero_add]
      simp only [settleIn]
      rw [hturn]
  | succ n ih =>
    have hturn := (kept_staffed began).next _ _ staffed .turns
    rw [Nat.add_right_comm]
    rcases hended : x.link.turn with ⟨_ | ⟨u, result⟩ | u, link⟩
    · simp [settleIn, hended]
    · rw [hended] at hturn
      have hmore := ih ((kept_staffed began).goOn hturn) (by simpa [settleIn, hended] using settled)
      simp [settleIn, hended, hmore]
    · have hcommand := (Link.AllCommands.turn staffed.commands staffed.sound).2 u
      exact (hcommand (congrArg Prod.fst hended)).elim

theorem settleIn_of_le {n m : Nat} (staffed : Staffed began (between log x))
    (enough : x.link.effort < n) (le : n ≤ m) : settleIn m x = settleIn n x := by
  obtain ⟨k, rfl⟩ := Nat.exists_eq_add_of_le le
  exact settleIn_add k staffed (settled_settleIn staffed enough)

theorem effort_lt (staffed : Staffed began (between log x)) :
    x.link.effort < 2 * x.calls.length + 2 := by
  have hstaffed : x.link.tickets.Perm (x.calls.map Waiting.ticket) := staffed.staffed
  have hlength := hstaffed.length_eq
  rw [Link.tickets_length, List.length_map] at hlength
  rw [Link.effort, hlength]
  split <;> omega

theorem settled_settle (staffed : Staffed began (between log x)) :
    x.settle.2.link.Settled :=
  settled_settleIn staffed (effort_lt staffed)

theorem settle_of_settled (sound : x.link.Sound) (settled : x.link.Settled) :
    x.settle = ([], x) := by
  have hturn := Link.turn_of_settled sound settled
  simp only [settle, settleIn]
  rw [hturn]

end

/-! ### The VM's reading -/

theorem keptWithin_reading (reading : Bool) : KeptWithin fun m : Moment α =>
    m.session.link.Sound ∧ m.session.link.pipe.reading = reading where
  next m m' h step := by
    cases step with
    | @line log x item rest =>
      rcases handleIncoming_link_eq x item with hsame | ⟨reply, -, hresolve⟩
      · simpa only [hsame] using h
      · simp only [hresolve]
        refine ⟨h.1.perform (a := .resolve reply) (by simp), ?_⟩
        rw [Link.resolve_pipe, h.2]
    | looks | turnedAway | ends => exact h
    | asks => exact ⟨h.1.enqueue fun _ => ⟨_, rfl⟩, h.2⟩
    | closes => exact ⟨h.1.close.withPipe _, h.2⟩
    | turns =>
      obtain ⟨calls, running, heq⟩ := awakened_eq _ _ _
      rw [heq]
      exact ⟨h.1.turn, (Link.turn_reading h.1).trans h.2⟩

theorem cancel_pipe (l : Link) (t : Ticket) : (l.cancel t).pipe = l.pipe := by
  unfold Link.cancel
  split <;> [split; skip] <;> rfl

theorem reading_arrived {log : Happened α} {x : Session α} {a : Action α} {m : Moment α}
    (arrived : Arrived log x a m) (sound : x.link.Sound) :
    m.session.link.Sound ∧ m.session.link.pipe.reading = x.link.pipe.reading := by
  cases arrived with
  | streamEnds => exact ⟨sound.close, rfl⟩
  | @leaves t =>
    refine ⟨sound.perform (a := .cancel t) (by simp), ?_⟩
    exact congrArg Pipe.reading (cancel_pipe _ _)
  | timePasses => exact ⟨sound.withClock _, rfl⟩
  | hangsUp => exact ⟨sound.withPipe _, rfl⟩
  | _ => exact ⟨sound, rfl⟩

theorem settle_reading {x : Session α} (sound : x.link.Sound) (a : Action α) :
    (x.perform a).2.settle.2.link.Sound ∧
      (x.perform a).2.settle.2.link.pipe.reading = x.link.pipe.reading := by
  have kept := keptWithin_reading (α := α) x.link.pipe.reading
  have hbegun := reading_arrived (arrived_begun [] x a) sound
  exact kept.settle (kept.perform hbegun)

/-- The session about to take the input: while it is a `read` the VM reads all the time. -/
def opened (x : Session α) (a : Action α) : Session α :=
  { x with link := x.link.setReading (x.link.pipe.reading || a.isRead) }

theorem opened_eq (x : Session α) {a : Action α} (unread : a.isRead = false) :
    x.opened a = x := by
  simp [opened, Link.setReading, unread]

theorem atRest_step {began : List Ticket} {log : Happened α} {x : Session α} {a : Action α}
    (staffed : Staffed began (begun log (x.opened a) a)) (sound : x.link.Sound) :
    (x.step a).2.link.AtRest := by
  have hsound : (x.opened a).link.Sound := sound.withPipe _
  have hreading := (settle_reading hsound a).2
  have hsettled := settled_settle ((kept_staffed _).perform staffed)
  have hstep : (x.step a).2.link = (((x.opened a).perform a).2.settle.2.link.drain.2).setReading
      x.link.pipe.reading := rfl
  rw [hstep]
  refine hsettled.atRest ?_
  intro reading
  rw [hreading]
  simp [opened, Link.setReading, reading]

/-! ### Runs -/

/-- Whatever an input begins gives up after a failure. -/
def AllGiveUp (as : List (Action α)) : Prop :=
  ∀ t script, .start t script ∈ as → script.GivesUp

theorem AllGiveUp.of_append {as bs : List (Action α)} (giveUp : AllGiveUp (as ++ bs)) :
    AllGiveUp as ∧ AllGiveUp bs := by
  constructor
  · intro t script hstart
    exact giveUp t script (List.mem_append_left _ hstart)
  · intro t script hstart
    exact giveUp t script (List.mem_append_right _ hstart)

theorem OwnTickets.of_append {as bs : List (Action α)} (own : OwnTickets (as ++ bs)) :
    OwnTickets as := by
  rw [OwnTickets, List.filterMap_append] at own
  exact (List.nodup_append.mp own).1

/-- The calls that the inputs begin, in order. -/
def ticketsOf (as : List (Action α)) : List Ticket := as.filterMap Action.ticket?

theorem OwnTickets.fresh {as : List (Action α)} {a : Action α} (own : OwnTickets (as ++ [a]))
    (begins : a.ticket? = some t) : t ∉ ticketsOf as := by
  intro began
  rw [OwnTickets, List.filterMap_append] at own
  exact (List.nodup_append.mp own).2.2 t began t (by simp [begins]) rfl

theorem staffed_arrived {began : List Ticket} {log : Happened α} {x : Session α} {a : Action α}
    {m : Moment α} (arrived : Arrived log x a m) (staffed : Staffed began (between log x))
    (fresh : ∀ t, a.ticket? = some t → t ∉ began)
    (givesUp : ∀ t script, a = .start t script → script.GivesUp) :
    Staffed (began ++ a.ticket?.toList) m := by
  have hmore : Staffed (began ++ a.ticket?.toList) (between log x) :=
    ⟨staffed.1, staffed.2, staffed.3, staffed.4,
      fun u hu => List.mem_append_left _ (staffed.5 u hu), staffed.6, staffed.7⟩
  cases arrived with
  | lines =>
    exact ⟨hmore.1, hmore.2, hmore.3, hmore.4, hmore.5, hmore.6, hmore.7⟩
  | streamEnds => exact hmore.of_same _ hmore.sound.close rfl rfl rfl
  | nothing => exact hmore
  | @starts t script =>
    refine hmore.runs (List.mem_append_right _ List.mem_cons_self) ?_ (givesUp _ _ rfl)
    exact fun ht => fresh t rfl (staffed.calls_known t ht)
  | @leaves t =>
    refine hmore.dropped (staffed.sound.perform (a := .cancel t) (by simp)) ?_
      (Link.tickets_cancel staffed.tickets_nodup t)
    intro q hq
    exact staffed.commands q ((Link.cancel_queue_sublist _ _).subset hq)
  | timePasses => exact hmore.of_same _ (hmore.sound.withClock _) rfl rfl rfl
  | hangsUp => exact hmore.of_same _ (hmore.sound.withPipe _) rfl rfl rfl
  | registers => exact hmore.of_same _ hmore.sound rfl rfl rfl

namespace Setup

variable (s : Setup) {as : List (Action α)} {a : Action α}

/-- A session that has the calls of a run has those of the run with one more input when
    this has arrived. -/
theorem staffed_begun {log : Happened α} {x : Session α}
    (own : OwnTickets (as ++ [a])) (giveUp : AllGiveUp (as ++ [a]))
    (staffed : Staffed (ticketsOf as) (between log x)) :
    Staffed (ticketsOf (as ++ [a])) (begun log x a) := by
  have htickets : ticketsOf (as ++ [a]) = ticketsOf as ++ a.ticket?.toList := by
    cases h : a.ticket? <;> simp [ticketsOf, h]
  rw [htickets]
  refine staffed_arrived (arrived_begun _ _ a) staffed (fun t => own.fresh) ?_
  rintro t script rfl
  exact giveUp t script (List.mem_append_right _ (List.mem_singleton_self _))

theorem staffed (own : OwnTickets as) (giveUp : AllGiveUp as) :
    Staffed (ticketsOf as) (between (s.log as) (s.after as)) := by
  induction as using List.reverseRecOn with
  | nil =>
    refine ⟨.of_free rfl rfl ?_, ?_, .refl _, List.nodup_nil, ?_, ?_, ?_⟩
    · intro _ q hq
      cases hq
    · intro q hq
      cases hq
    · intro u hu
      cases hu
    · intro w hw
      cases hw
    · intro u script hrun
      cases hrun
  | append_singleton as a ih =>
    have hbefore := ih own.of_append giveUp.of_append.1
    rw [log_snoc, after_snoc]
    refine (kept_staffed _).step (staffed_begun own giveUp ?_)
    exact hbefore.of_same _ (hbefore.sound.withPipe _) rfl rfl rfl

theorem staffed_opened (own : OwnTickets (as ++ [a])) (giveUp : AllGiveUp (as ++ [a])) :
    Staffed (ticketsOf as) (between (s.log as) ((s.after as).opened a)) := by
  have hstaffed := s.staffed own.of_append giveUp.of_append.1
  exact hstaffed.of_same _ (hstaffed.sound.withPipe _) rfl rfl rfl

/-- **After each input the link of a session is at rest.** -/
theorem atRest (own : OwnTickets as) (giveUp : AllGiveUp as) : (s.after as).link.AtRest := by
  induction as using List.reverseRecOn with
  | nil =>
    refine ⟨⟨fun _ => rfl, ?_⟩, fun _ _ => ⟨rfl, rfl⟩⟩
    intro h held
    cases held
  | append_singleton as a _ =>
    have hstaffed := s.staffed own.of_append giveUp.of_append.1
    rw [after_snoc]
    exact atRest_step (staffed_begun own giveUp (s.staffed_opened own giveUp)) hstaffed.sound

end Setup

/-- At rest an input changes nothing but what it changes at once. -/
theorem step_of_perform {x y : Session α} {a : Action α} {first : Happened α}
    (unread : a.isRead = false) (performed : x.perform a = (first, y)) (sound : y.link.Sound)
    (rest : y.link.AtRest) (reading : y.link.pipe.reading = x.link.pipe.reading) :
    x.step a = (⟨[], first⟩, y) := by
  have hdrained : y.link.setReading x.link.pipe.reading = y.link := by
    rw [← reading]
    rfl
  have hperformed : (x.opened a).perform a = (first, y) := by rw [x.opened_eq unread, performed]
  rw [opened] at hperformed
  simp only [step, hperformed, settle_of_settled sound rest.toSettled,
    Link.drain_of_atRest rest, hdrained, List.append_nil]

end Session

end Pushdown
