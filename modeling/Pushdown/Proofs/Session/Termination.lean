/-
  Pushdown/Proofs/Session/Termination.lean
  ========================================
  **Terminated once, and last.**  The end of a session comes from the VM, from the end
  of its stream, or from a caller who closes the session, and often from several of
  them.  Whichever comes first delivers `terminated` to everybody who is registered; the
  mark which this leaves in the registry keeps all later events from the listeners.

  A listener is told within one input, so `once` speaks of the input by which the mark
  came: those registered after it are those registered when `terminated` was delivered,
  since delivering changes no registration.
-/
import Mathlib.Data.List.Nodup
import Pushdown.Proofs.Listeners.Delivery
import Pushdown.Proofs.Session.History

namespace Pushdown

namespace RunStates

/-- A session that is over has no threads. -/
theorem threads_of_terminated {s : RunStates} (empty : s.session = .terminated → s.threads = [])
    (cs : List Change) :
    (s.changeAll cs).session = .terminated → (s.changeAll cs).threads = [] := by
  induction cs generalizing s with
  | nil => exact empty
  | cons c cs ih =>
    refine ih ?_
    cases c with
    | «open» =>
      simp only [change, opened]
      split
      · intro h
        cases h
      · exact empty
    | terminate => exact fun _ => rfl
    | event e =>
      simp only [change, apply]
      split
      · exact empty
      · next going =>
        cases e with
        | started | suspended | resumed | exited =>
          exact fun h => (sessionOf_ne_terminated _ h).elim
        | terminated => exact fun _ => rfl
        | output => exact empty

theorem apply_terminated_session (s : RunStates) :
    (s.apply .terminated).session = .terminated := by
  unfold apply
  split
  · assumption
  · rfl

end RunStates

namespace Session

variable {α : Type}

/-! ### What deliveries keep -/

/-- What the input changes of the registry. -/
def Action.change? : Action α → Option (ListenerChange String)
  | .listen label => some (.add label)
  | .unlisten id => some (.remove id)
  | _ => none

/-- Announcing an event does not break this between a registry, what has been announced and
    what has been delivered. -/
def Abiding (Q : Listeners String → List Event → List Delivery → Prop) : Prop :=
  ∀ ls es ds e, Q ls es ds → Q (ls.dispatch (fun _ _ => []) e).2 (es ++ [e])
    (ds ++ (ls.dispatch (fun _ _ => []) e).1.map (⟨·, e⟩))

namespace Abiding

variable {Q : Listeners String → List Event → List Delivery → Prop} {log : Happened α}
  {s : Session α}

theorem tearDown (abiding : Abiding Q) (h : Q s.listeners log.announced log.deliveries) :
    Q s.tearDown.2.listeners (Happened.announced (log ++ s.tearDown.1))
      (Happened.deliveries (log ++ s.tearDown.1)) := by
  have htold := abiding _ _ _ .terminated h
  rw [Happened.announced_append, Happened.deliveries_append]
  simpa [Session.tearDown, deliver, Happened.announced, Happened.eventOf?, Happened.deliveries,
    Happened.deliveriesOf] using htold

theorem handleIncoming (abiding : Abiding Q) (h : Q s.listeners log.announced log.deliveries)
    (item : Incoming) :
    Q (s.handleIncoming item).2.listeners
      (Happened.announced (log ++ (s.handleIncoming item).1))
      (Happened.deliveries (log ++ (s.handleIncoming item).1)) := by
  cases item with
  | reply | malformed => simpa [Session.handleIncoming] using h
  | event e =>
    simp only [Session.handleIncoming, handleEvent]
    split
    · simpa using h
    · have htold := abiding _ _ _ e h
      rw [Happened.announced_append, Happened.deliveries_append]
      simpa [deliver, Happened.announced, Happened.eventOf?, Happened.deliveries,
        Happened.deliveriesOf] using htold

theorem kept (abiding : Abiding Q) : Kept (fun m : Moment α =>
    Q m.session.listeners m.log.announced m.log.deliveries) where
  next m m' h step := by
    cases step with
    | line => exact abiding.handleIncoming h _
    | closes => exact abiding.tearDown h
    | looks | turnedAway => exact h
    | asks | ends =>
      simpa [between, Happened.announced, List.filterMap_cons, Happened.eventOf?,
        Happened.deliveries, Happened.deliveriesOf] using h
    | turns =>
      obtain ⟨calls, running, heq⟩ := awakened_eq _ _ _
      rw [heq]
      exact h
  drain log s reading h := h

/-- It is kept when an input begins, unless the input is a registration or removal that
    breaks it. -/
theorem begun (abiding : Abiding Q) (a : Action α)
    (h : Q s.listeners log.announced log.deliveries)
    (change : ∀ c, a.change? = some c → Q (s.listeners.change c) log.announced log.deliveries) :
    Q (begun log s a).session.listeners (begun log s a).log.announced
      (begun log s a).log.deliveries := by
  cases a with
  | vm bytes =>
    simp only [Session.begun]
    split <;> exact h
  | vmEnd =>
    simp only [Session.begun, perform, endInput]
    split
    · exact abiding.tearDown h
    · simpa [between] using h
  | start => exact h
  | cancel | advance | read | dropReader => simpa [Session.begun, between, perform] using h
  | listen label =>
    simpa [Session.begun, between, perform, Listeners.change] using change (.add label) rfl
  | unlisten id =>
    simpa [Session.begun, between, perform, Listeners.change] using change (.remove id) rfl

theorem snoc (abiding : Abiding Q) (setup : Setup) {as : List (Action α)} (a : Action α)
    (h : Q (setup.after as).listeners (setup.log as).announced (setup.deliveries as))
    (change : ∀ c, a.change? = some c → Q ((setup.after as).listeners.change c)
      (setup.log as).announced (setup.deliveries as)) :
    Q (setup.after (as ++ [a])).listeners (setup.log (as ++ [a])).announced
      (setup.deliveries (as ++ [a])) := by
  rw [Setup.deliveries, Setup.after_snoc, Setup.log_snoc]
  exact abiding.kept.step (abiding.begun a h change)

end Abiding

/-- No delivery breaks this between a registry and what has been delivered. -/
def Lasting (Q : Listeners String → List Delivery → Prop) : Prop :=
  ∀ ls ds e, Q ls ds → Q (ls.dispatch (fun _ _ => []) e).2
    (ds ++ (ls.dispatch (fun _ _ => []) e).1.map (⟨·, e⟩))

namespace Lasting

variable {Q : Listeners String → List Delivery → Prop}

theorem abiding (lasting : Lasting Q) : Abiding (fun ls _ ds => Q ls ds) :=
  fun ls _ ds e h => lasting ls ds e h

/-- It lasts through an input if no registration or removal breaks it. -/
theorem snoc (lasting : Lasting Q) (setup : Setup) {as : List (Action α)} (a : Action α)
    (h : Q (setup.after as).listeners (setup.deliveries as))
    (change : ∀ c, Q ((setup.after as).listeners.change c) (setup.deliveries as)) :
    Q (setup.after (as ++ [a])).listeners (setup.deliveries (as ++ [a])) :=
  lasting.abiding.snoc setup a h fun c _ => change c

end Lasting

/-! ### Before and after `terminated` -/

/-- Nobody has heard `terminated`. -/
def Untold (ds : List Delivery) : Prop := ∀ d ∈ ds, d.event ≠ .terminated

/-- The last thing delivered is `terminated`, to these listeners and no others. -/
def Told (ids : List ListenerId) (ds : List Delivery) : Prop :=
  ∃ earlier, Untold earlier ∧ ds = earlier ++ ids.map (⟨·, .terminated⟩)

/-- Until the mark is in the registry nobody has heard `terminated`, and when it has come
    all who are registered have. -/
structure Addressed (ls : Listeners String) (ds : List Delivery) : Prop where
  untold : ls.terminated = false → Untold ds
  told : ls.terminated = true → Told ls.ids ds

theorem addressed_dispatch {ls : Listeners String} {ds : List Delivery}
    (going : ls.terminated = false) (untold : Untold ds) (e : Event) :
    Addressed (ls.dispatch (fun _ _ => []) e).2
      (ds ++ (ls.dispatch (fun _ _ => []) e).1.map (⟨·, e⟩)) := by
  rw [Listeners.dispatch_audience _ going]
  constructor
  · intro still d hd
    rw [Listeners.dispatch_terminated, going, Bool.false_or, decide_eq_false_iff_not] at still
    rcases List.mem_append.mp hd with hbefore | hnew
    · exact untold d hbefore
    · obtain ⟨id, -, rfl⟩ := List.mem_map.mp hnew
      exact still
  · intro past
    rw [Listeners.dispatch_terminated, going, Bool.false_or, decide_eq_true_eq] at past
    subst past
    rw [Listeners.dispatch_ids]
    exact ⟨ds, untold, rfl⟩

theorem lasting_addressed : Lasting Addressed := by
  intro ls ds e addressed
  cases hmark : ls.terminated with
  | false => exact addressed_dispatch hmark (addressed.untold hmark) e
  | true =>
    rw [Listeners.dispatch_of_terminated _ hmark]
    simpa using addressed

/-- The mark is in the registry, and this is all that has been delivered. -/
def Silenced (all : List Delivery) (ls : Listeners String) (ds : List Delivery) : Prop :=
  ls.terminated = true ∧ ds = all

theorem lasting_silenced (all : List Delivery) : Lasting (Silenced all) := by
  intro ls ds e silenced
  rw [Listeners.dispatch_of_terminated _ silenced.1]
  simpa using silenced

namespace Setup

variable (s : Setup)

/-- Whether `terminated` has been delivered. -/
def isTold (as : List (Action α)) : Bool := (s.after as).listeners.terminated

variable {s} {as : List (Action α)}

theorem silenced (told : s.isTold as = true) (bs : List (Action α)) :
    s.isTold (as ++ bs) = true ∧ s.deliveries (as ++ bs) = s.deliveries as := by
  induction bs using List.reverseRecOn with
  | nil => simpa using told
  | append_singleton bs b ih =>
    rw [← List.append_assoc]
    refine (lasting_silenced (s.deliveries as)).snoc s b ih fun c => ?_
    exact ⟨(Listeners.change_terminated _ c).trans ih.1, ih.2⟩

theorem addressed_snoc (a : Action α) (going : s.isTold as = false)
    (untold : Untold (s.deliveries as)) :
    Addressed (s.after (as ++ [a])).listeners (s.deliveries (as ++ [a])) := by
  have hunmarked : ∀ ls : Listeners String, ls.terminated = false →
      Addressed ls (s.deliveries as) := by
    intro ls hmark
    exact ⟨fun _ => untold, fun past => by cases hmark.symm.trans past⟩
  refine lasting_addressed.snoc s a (hunmarked _ going) fun c => ?_
  exact hunmarked _ ((Listeners.change_terminated _ c).trans going)

theorem untold (going : s.isTold as = false) : Untold (s.deliveries as) := by
  induction as using List.reverseRecOn with
  | nil =>
    intro d hd
    cases hd
  | append_singleton as a ih =>
    cases hbefore : s.isTold as with
    | false => exact (addressed_snoc a hbefore (ih hbefore)).untold going
    | true => cases going.symm.trans (silenced hbefore [a]).1

/-- There is an input by which `terminated` was delivered. -/
theorem exists_telling (told : s.isTold as = true) :
    ∃ before a later, as = before ++ a :: later ∧
      s.isTold before = false ∧ s.isTold (before ++ [a]) = true := by
  induction as using List.reverseRecOn with
  | nil => cases told
  | append_singleton as a ih =>
    cases hbefore : s.isTold as with
    | false => exact ⟨as, a, [], rfl, hbefore, told⟩
    | true =>
      obtain ⟨before, b, later, rfl, hfirst⟩ := ih hbefore
      exact ⟨before, b, later ++ [a], by simp, hfirst⟩

/-- It was delivered to everybody who was registered, and nothing has been delivered
    since. -/
theorem told_ids {before later : List (Action α)} {a : Action α}
    (going : s.isTold before = false) (told : s.isTold (before ++ [a]) = true) :
    Told (s.after (before ++ [a])).listeners.ids (s.deliveries (before ++ a :: later)) := by
  have hsame := (silenced told later).2
  rw [List.append_assoc, List.singleton_append] at hsame
  rw [hsame]
  exact (addressed_snoc a going (untold going)).told told

end Setup

/-! ### The end of reading -/

/-- Reading does not end without `terminated` being delivered, and this not without the
    run states being terminated. -/
structure EndsTogether (s : Session α) : Prop where
  told : s.isReading = false → s.listeners.terminated = true
  stopped : s.listeners.terminated = true → s.states.session = .terminated

theorem endsTogether_tearDown (s : Session α) : s.tearDown.2.EndsTogether where
  told _ := by
    change (s.listeners.dispatch (fun _ _ => []) .terminated).2.terminated = true
    rw [Listeners.dispatch_terminated, decide_eq_true rfl, Bool.or_true]
  stopped _ := rfl

theorem EndsTogether.handleIncoming {s : Session α} (together : s.EndsTogether)
    (item : Incoming) : (s.handleIncoming item).2.EndsTogether := by
  cases item with
  | reply | malformed => exact ⟨together.told, together.stopped⟩
  | event e =>
    simp only [Session.handleIncoming, handleEvent]
    split
    · exact together
    · next going =>
      constructor
      · -- an event is taken in only while nobody has been told, so the session reads
        intro ended
        exact (going (together.told ended)).elim
      · intro past
        change (s.listeners.dispatch (fun _ _ => []) e).2.terminated = true at past
        rw [Listeners.dispatch_terminated, Bool.eq_false_iff.mpr going, Bool.false_or,
          decide_eq_true_eq] at past
        subst past
        exact s.states.apply_terminated_session

theorem kept_endsTogether : Kept (fun m : Moment α => m.session.EndsTogether) where
  next m m' h step := by
    cases step with
    | line => exact h.handleIncoming _
    | @closes log s =>
      have htorn := s.endsTogether_tearDown
      exact ⟨htorn.told, htorn.stopped⟩
    | looks | turnedAway | ends => exact h
    | asks => exact ⟨h.told, h.stopped⟩
    | turns =>
      obtain ⟨calls, running, heq⟩ := awakened_eq _ _ _
      rw [heq]
      exact ⟨h.told, h.stopped⟩
  drain log s reading h := ⟨h.told, h.stopped⟩

theorem endsTogether_arrived {log : Happened α} {s : Session α} {a : Action α} {m : Moment α}
    (arrived : Arrived log s a m) (together : s.EndsTogether) : m.session.EndsTogether := by
  cases arrived with
  | streamEnds =>
    have htorn := s.endsTogether_tearDown
    exact ⟨htorn.told, htorn.stopped⟩
  | registers c =>
    have hmark := Listeners.change_terminated s.listeners c
    exact ⟨fun h => hmark.trans (together.told h), fun h => together.stopped (hmark.symm.trans h)⟩
  | _ => exact ⟨together.told, together.stopped⟩

namespace Setup

variable (s : Setup) (as : List (Action α))

theorem endsTogether : (s.after as).EndsTogether :=
  s.induction (P := fun _ m => m.session.EndsTogether)
    ⟨fun h => (by cases h), fun h => (by cases h)⟩
    (fun _ _ _ _ h arrived => endsTogether_arrived arrived ⟨h.told, h.stopped⟩)
    (fun _ => kept_endsTogether) as

variable {s as}

theorem tellings_nodup {ids : List ListenerId} (nodup : ids.Nodup) :
    (ids.map (fun id => Delivery.mk id .terminated)).Nodup := by
  refine nodup.map ?_
  intro i j heq
  exact (Delivery.mk.inj heq).1

theorem told_count {ids : List ListenerId} {ds : List Delivery} (nodup : ids.Nodup)
    (told : Told ids ds) {id : ListenerId} (registered : id ∈ ids) :
    ds.count ⟨id, .terminated⟩ = 1 := by
  obtain ⟨earlier, untold, rfl⟩ := told
  have hnone : earlier.count ⟨id, .terminated⟩ = 0 :=
    List.count_eq_zero.mpr fun hd => untold _ hd rfl
  rw [List.count_append, hnone, Nat.zero_add]
  exact List.count_eq_one_of_mem (tellings_nodup nodup) (List.mem_map.mpr ⟨id, registered, rfl⟩)

end Setup

end Session

end Pushdown
