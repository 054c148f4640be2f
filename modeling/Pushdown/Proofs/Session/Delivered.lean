/-
  Pushdown/Proofs/Session/Delivered.lean
  ======================================
  **The events that are delivered, and what they make of the run states.**  Whether an
  event is delivered is not a matter of who listens: it is delivered to everybody who is
  registered, be there many or none.  `Happened.events` are the events delivered so far.
  Tearing down a session delivers `terminated`, but only once, and nothing follows it.

  The run states of a session are those events applied one after the other
  (`Happened.states_eq_applyAll`), and so they are at every moment that a run passes, in
  particular when an event is delivered (`Setup.exists_passes`).  A listener who is
  registered hears these events and no others (`Setup.heardBy_delivered`).
-/
import Pushdown.Proofs.Link.History
import Pushdown.Proofs.Session.Termination

namespace Pushdown

/-! ### Up to the end -/

/-- The events up to the first `terminated`. -/
def upToTerminated : List Event → List Event
  | [] => []
  | e :: es => if e = .terminated then [e] else e :: upToTerminated es

theorem upToTerminated_append (es fs : List Event) :
    upToTerminated (es ++ fs) =
      if .terminated ∈ es then upToTerminated es else upToTerminated es ++ upToTerminated fs := by
  induction es with
  | nil => rfl
  | cons e es ih =>
    by_cases he : e = .terminated
    · simp [upToTerminated, he]
    · rw [List.cons_append, upToTerminated, if_neg he, ih, upToTerminated, if_neg he]
      by_cases hes : .terminated ∈ es
      · simp [hes]
      · simp [hes, Ne.symm he]

/-- Once there is an end, what comes later does not count. -/
theorem upToTerminated_append_of_mem {es : List Event} (ends : .terminated ∈ es)
    (fs : List Event) : upToTerminated (es ++ fs) = upToTerminated es := by
  rw [upToTerminated_append, if_pos ends]

theorem mem_upToTerminated {es : List Event} :
    .terminated ∈ upToTerminated es ↔ .terminated ∈ es := by
  induction es with
  | nil => rfl
  | cons e es ih =>
    by_cases he : e = .terminated
    · simp [upToTerminated, he]
    · simp [upToTerminated, he, ih]

theorem upToTerminated_append_congr {es es' : List Event}
    (same : upToTerminated es = upToTerminated es') (fs : List Event) :
    upToTerminated (es ++ fs) = upToTerminated (es' ++ fs) := by
  have hends : .terminated ∈ es ↔ .terminated ∈ es' := by
    rw [← mem_upToTerminated, same, mem_upToTerminated]
  rw [upToTerminated_append, upToTerminated_append, same]
  simp only [hends]

/-! ### Run states -/

namespace RunStates

/-- The run states after these events. -/
def applyAll (s : RunStates) (es : List Event) : RunStates := es.foldl apply s

theorem applyAll_of_terminated {s : RunStates} (past : s.session = .terminated)
    (es : List Event) : s.applyAll es = s := by
  induction es with
  | nil => rfl
  | cons e es ih =>
    have happly : s.apply e = s := if_pos past
    rw [applyAll, List.foldl_cons, happly]
    exact ih

theorem applyAll_upToTerminated (s : RunStates) (es : List Event) :
    s.applyAll (upToTerminated es) = s.applyAll es := by
  induction es generalizing s with
  | nil => rfl
  | cons e es ih =>
    unfold upToTerminated
    split
    · next he =>
      subst he
      exact (applyAll_of_terminated s.apply_terminated_session es).symm
    · exact ih (s.apply e)

/-- To terminate a session is to apply `terminated`, since one that is over has no
    threads. -/
theorem terminated_eq_apply {s : RunStates} (empty : s.session = .terminated → s.threads = []) :
    s.terminated = s.apply .terminated := by
  unfold apply
  split
  · next past =>
    obtain ⟨session, threads, lastEpoch⟩ := s
    obtain rfl : session = .terminated := past
    obtain rfl : threads = [] := empty rfl
    rfl
  · rfl

end RunStates

/-! ### Delivered events -/

namespace Happened

variable {α : Type}

/-- The events delivered, in order. -/
def events (h : Happened α) : List Event := upToTerminated (announced h)

/-- What has been delivered stays so. -/
theorem events_prefix (h k : Happened α) : events h <+: events (h ++ k) := by
  rw [events, events, announced_append, upToTerminated_append]
  split
  · exact List.prefix_rfl
  · exact List.prefix_append _ _

/-- The run states are those of the events delivered. -/
theorem states_eq_applyAll (h : Happened α) :
    h.states = RunStates.new.opened.applyAll h.events := by
  rw [events, RunStates.applyAll_upToTerminated]
  induction h using List.reverseRecOn with
  | nil => rfl
  | append_singleton h o ih =>
    have hempty : (states h).session = .terminated → (states h).threads = [] :=
      RunStates.threads_of_terminated (s := RunStates.new.opened)
        (fun past => by cases past) (changes h)
    rw [states_append, announced_append, RunStates.applyAll, List.foldl_append]
    change _ = List.foldl _ (RunStates.new.opened.applyAll (announced h)) _
    rw [← ih]
    cases o with
    | event | request | ended => rfl
    | tearDown => exact RunStates.terminated_eq_apply hempty

end Happened

namespace Session

variable {α : Type}

/-! ### The moments of a run -/

namespace Setup

/-- The session after the inputs, about to take this one: while it takes a `read` the VM
    reads all the time. -/
def awaiting (s : Setup) (as : List (Action α)) (a : Action α) : Session α :=
  { s.after as with
    link := (s.after as).link.setReading ((s.after as).link.pipe.reading || a.isRead) }

theorem kept_snoc {P : Moment α → Prop} (kept : Kept P) (s : Setup) {as : List (Action α)}
    {a : Action α} (h : P (begun (s.log as) (s.awaiting as a) a)) :
    P (between (s.log (as ++ [a])) (s.after (as ++ [a]))) := by
  rw [log_snoc, after_snoc]
  exact kept.step h

/-- The run passes this moment while it takes the last of these inputs. -/
inductive Passes (s : Setup) : List (Action α) → Moment α → Prop
  | start : s.Passes [] (between [] (s.session α))
  | input {as : List (Action α)} (passed : s.Passes as (between (s.log as) (s.after as)))
      (a : Action α) : s.Passes (as ++ [a]) (begun (s.log as) (s.awaiting as a) a)
  | next {as : List (Action α)} {m m' : Moment α} (passed : s.Passes as m) (step : Next m m') :
      s.Passes as m'
  | drain {as : List (Action α)} {log : Happened α} {x : Session α} {reading : Bool}
      (passed : s.Passes as (between log x)) :
      s.Passes as (between log { x with link := x.link.drain.2.setReading reading })

variable {s : Setup}

theorem kept_passes (as : List (Action α)) : Kept (s.Passes as) where
  next _ _ passed step := .next passed step
  drain _ _ _ passed := .drain passed

/-- The end of a run is one of its moments. -/
theorem passes_after (s : Setup) (as : List (Action α)) :
    s.Passes as (between (s.log as) (s.after as)) := by
  induction as using List.reverseRecOn with
  | nil => exact .start
  | append_singleton as a ih => exact kept_snoc (kept_passes _) s (.input ih a)

/-- What holds at the start, does not break when an input begins, and is kept within each
    input, holds at every moment. -/
theorem Passes.invariant {P : List (Action α) → Moment α → Prop}
    (start : P [] (between [] (s.session α)))
    (input : ∀ as a, P as (between (s.log as) (s.after as)) →
      P (as ++ [a]) (begun (s.log as) (s.awaiting as a) a))
    (kept : ∀ as, Kept (P as)) {as : List (Action α)} {m : Moment α} (passes : s.Passes as m) :
    P as m := by
  induction passes with
  | start => exact start
  | input _ a ih => exact input _ a ih
  | next _ step ih => exact (kept _).next _ _ ih step
  | drain _ ih => exact (kept _).drain _ _ _ ih

theorem Passes.isReplayed {as : List (Action α)} {m : Moment α} (passes : s.Passes as m) :
    IsReplayed m :=
  passes.invariant (P := fun _ => IsReplayed) rfl
    (fun _ _ replayed => isReplayed_arrived (arrived_begun _ _ _) replayed)
    (fun _ => kept_isReplayed)

theorem Passes.states {as : List (Action α)} {m : Moment α} (passes : s.Passes as m) :
    m.session.states = RunStates.new.opened.applyAll m.log.events := by
  rw [← Happened.states_eq_applyAll]
  exact passes.isReplayed

/-! ### One moment for each occurrence -/

/-- At most one thing has happened in between. -/
def Grows (log log' : Happened α) : Prop := log' = log ∨ ∃ o, log' = log ++ [o]

theorem grows_handleIncoming (log : Happened α) (x : Session α) (item : Incoming) :
    Grows log (log ++ (x.handleIncoming item).1) := by
  cases item with
  | reply | malformed => exact Or.inl (List.append_nil _)
  | event e =>
    simp only [handleIncoming, handleEvent]
    split
    · exact Or.inl (List.append_nil _)
    · exact Or.inr ⟨_, rfl⟩

theorem grows_next {m m' : Moment α} (step : Next m m') : Grows m.log m'.log := by
  cases step with
  | line => exact grows_handleIncoming _ _ _
  | looks | turnedAway => exact Or.inl rfl
  | asks | closes | ends => exact Or.inr ⟨_, rfl⟩
  | turns =>
    obtain ⟨calls, running, heq⟩ := awakened_eq _ _ _
    rw [heq]
    exact Or.inl rfl

theorem grows_begun (log : Happened α) (x : Session α) (a : Action α) :
    Grows log (begun log x a).log := by
  have arrived := arrived_begun log x a
  generalize begun log x a = m at arrived ⊢
  cases arrived with
  | streamEnds => exact Or.inr ⟨_, rfl⟩
  | _ => exact Or.inl rfl

/-- There is a moment at which the occurrence is the last thing that has happened. -/
def IsPassed (s : Setup) (as : List (Action α)) (log : Happened α) : Prop :=
  ∀ earlier o later, log = earlier ++ o :: later →
    ∃ bs m, bs <+: as ∧ s.Passes bs m ∧ m.log = earlier ++ [o]

theorem IsPassed.grow {as bs : List (Action α)} {log : Happened α} {m : Moment α}
    (passed : s.IsPassed as log) (longer : as <+: bs) (passes : s.Passes bs m)
    (grows : Grows log m.log) : s.IsPassed bs m.log := by
  intro earlier o later split
  rcases grows with hlog | ⟨last, hlog⟩
  · rw [hlog] at split
    obtain ⟨cs, m', hwithin, hpasses, hm'⟩ := passed _ _ _ split
    exact ⟨cs, m', hwithin.trans longer, hpasses, hm'⟩
  · rcases snoc_eq_split (hlog.symm.trans split) with ⟨rfl, rfl, -⟩ | ⟨later', -, hbefore⟩
    · exact ⟨bs, m, List.prefix_rfl, passes, hlog⟩
    · obtain ⟨cs, m', hwithin, hpasses, hm'⟩ := passed _ _ _ hbefore
      exact ⟨cs, m', hwithin.trans longer, hpasses, hm'⟩

theorem Passes.isPassed {as : List (Action α)} {m : Moment α} (passes : s.Passes as m) :
    s.IsPassed as m.log := by
  induction passes with
  | start =>
    intro earlier o later split
    exact (List.append_ne_nil_of_right_ne_nil earlier (List.cons_ne_nil o later) split.symm).elim
  | input passed a ih =>
    exact ih.grow (List.prefix_append _ _) (.input passed a) (grows_begun _ _ a)
  | next passed step ih => exact ih.grow List.prefix_rfl (.next passed step) (grows_next step)
  | drain _ ih => exact ih

end Setup

/-! ### What a listener hears -/

/-- The mark in the registry says that `terminated` has been delivered. -/
def Marked (ls : Listeners String) (es : List Event) : Prop :=
  ls.terminated = true ↔ .terminated ∈ es

theorem Marked.dispatch {ls : Listeners String} {es : List Event} (marked : Marked ls es)
    (e : Event) : Marked (ls.dispatch (fun _ _ => []) e).2 (es ++ [e]) := by
  unfold Marked at marked ⊢
  rw [Listeners.dispatch_terminated, Bool.or_eq_true, decide_eq_true_eq, marked,
    List.mem_append, List.mem_singleton]
  exact or_congr_right eq_comm

theorem Marked.change {ls : Listeners String} {es : List Event} (marked : Marked ls es)
    (c : ListenerChange String) : Marked (ls.change c) es := by
  unfold Marked
  rw [Listeners.change_terminated]
  exact marked

theorem abiding_marked : Abiding (fun ls es _ => Marked ls es) :=
  fun _ _ _ e marked => marked.dispatch e

/-- What this listener has heard. -/
def heardBy (id : ListenerId) (ds : List Delivery) : List Event :=
  (ds.filter (fun d => d.listener = id)).map Delivery.event

theorem heardBy_append (id : ListenerId) (ds later : List Delivery) :
    heardBy id (ds ++ later) = heardBy id ds ++ heardBy id later := by
  rw [heardBy, List.filter_append, List.map_append]
  rfl

/-- One who is registered hears an event once. -/
theorem heardBy_audience {id : ListenerId} {ids : List ListenerId} (nodup : ids.Nodup)
    (registered : id ∈ ids) (e : Event) : heardBy id (ids.map (⟨·, e⟩)) = [e] := by
  have hfilter : ids.filter (fun i => decide (i = id)) = [id] := by
    rw [List.filter_eq, List.count_eq_one_of_mem nodup registered]
    rfl
  simp [heardBy, List.filter_map, Function.comp_def, hfilter]

/-- Since the log and the deliveries were these, the listener has been registered and has
    heard what has been delivered. -/
structure Follows (id : ListenerId) (log : List Event) (heard : List Event)
    (ls : Listeners String) (es : List Event) (ds : List Delivery) : Prop where
  marked : Marked ls es
  registered : id ∈ ls.ids
  since : ∃ news, upToTerminated es = log ++ news ∧ heardBy id ds = heard ++ news

theorem Follows.change {id : ListenerId} {log heard : List Event} {ls : Listeners String}
    {es : List Event} {ds : List Delivery} (follows : Follows id log heard ls es ds)
    {c : ListenerChange String} (other : c ≠ .remove id) :
    Follows id log heard (ls.change c) es ds :=
  ⟨follows.marked.change c, Listeners.mem_ids_change follows.registered other, follows.since⟩

theorem abiding_follows (id : ListenerId) (log heard : List Event) :
    Abiding (Follows id log heard) := by
  intro ls es ds e follows
  have hmarked := follows.marked.dispatch e
  obtain ⟨news, hlog, hheard⟩ := follows.since
  cases hmark : ls.terminated with
  | true =>
    -- the event is announced, but it comes too late to be delivered
    rw [Listeners.dispatch_of_terminated _ hmark] at hmarked ⊢
    refine ⟨hmarked, follows.registered, news, ?_, ?_⟩
    · rw [upToTerminated_append_of_mem (follows.marked.mp hmark), hlog]
    · rw [List.map_nil, List.append_nil, hheard]
  | false =>
    have hgoing : .terminated ∉ es := by
      intro ends
      cases hmark.symm.trans (follows.marked.mpr ends)
    refine ⟨hmarked, ?_, news ++ [e], ?_, ?_⟩
    · rw [Listeners.dispatch_ids]
      exact follows.registered
    · rw [upToTerminated_append, if_neg hgoing, hlog, List.append_assoc]
      simp [upToTerminated]
    · rw [Listeners.dispatch_audience _ hmark, heardBy_append, hheard, List.append_assoc,
        heardBy_audience (Listeners.nodup_ids ls) follows.registered]

namespace Setup

variable (s : Setup)

/-- The events that are delivered in the run, in order. -/
def delivered (as : List (Action α)) : List Event := (s.log as).events

theorem marked (as : List (Action α)) : Marked (s.after as).listeners (s.log as).announced := by
  induction as using List.reverseRecOn with
  | nil => exact iff_of_false (fun h => by cases h) List.not_mem_nil
  | append_singleton as a ih =>
    exact abiding_marked.snoc s a ih fun c _ => ih.change c

/-- A listener that is not removed hears all that is delivered, and nothing else. -/
theorem heardBy_delivered {before later : List (Action α)} {id : ListenerId}
    (registered : (s.after before).listeners.isRegistered id = true)
    (stays : .unlisten id ∉ later) : ∃ news,
      s.delivered (before ++ later) = s.delivered before ++ news ∧
      heardBy id (s.deliveries (before ++ later)) = heardBy id (s.deliveries before) ++ news := by
  have hfollows : Follows id (s.delivered before) (heardBy id (s.deliveries before))
      (s.after (before ++ later)).listeners (s.log (before ++ later)).announced
      (s.deliveries (before ++ later)) := by
    induction later using List.reverseRecOn with
    | nil =>
      rw [List.append_nil]
      exact ⟨s.marked before, (Listeners.mem_ids_iff _ _).mpr registered, [],
        (List.append_nil _).symm, (List.append_nil _).symm⟩
    | append_singleton later a ih =>
      obtain ⟨hbefore, hlast⟩ := not_or.mp (mt List.mem_append.mpr stays)
      have hnow := ih hbefore
      rw [← List.append_assoc]
      refine (abiding_follows id _ _).snoc s a hnow fun c hchange => hnow.change ?_
      rintro rfl
      cases a with
      | unlisten other =>
        cases hchange
        exact hlast (List.mem_singleton_self _)
      | _ => cases hchange
  exact hfollows.since

end Setup

end Session

end Pushdown
