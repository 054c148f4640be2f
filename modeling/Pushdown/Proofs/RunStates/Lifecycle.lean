/-
  Pushdown/Proofs/RunStates/Lifecycle.lean
  ========================================
  **States are what the history says.**  Run states are kept up step by step: records are
  put in and taken out, and the state of the session is worked out from the records that
  are there.  Here they are read off the history instead.  The last event about a thread
  says whether it stands still, runs or is unknown (`stateIn?`), and the session is what
  its threads make of it, once it has begun and until it has ended.

  Two facts carry this through a run.  The records are in ascending order, so that there is
  one for each thread (`IsSorted`), and the session has followed from the records ever since
  the session began (`session_after`).  What is read off the history does not depend on the
  order of events about different threads, nor on output, so neither do the run states
  (`followsHistory`).
-/
import Mathlib.Data.List.Induction
import Pushdown.Proofs.RunStates.Owners

namespace Pushdown

/-! ### Records in ascending order -/

/-- The records are in the order of their threads, one for each. -/
def AreSorted (threads : List (ThreadId × ThreadRecord)) : Prop :=
  threads.Pairwise fun p q => p.1 < q.1

section

variable {threads : List (ThreadId × ThreadRecord)} {t : ThreadId} {r : ThreadRecord}

theorem mem_putRecord {p : ThreadId × ThreadRecord} (hp : p ∈ putRecord t r threads) :
    p = (t, r) ∨ p ∈ threads := by
  induction threads with
  | nil => exact Or.inl (List.mem_singleton.mp hp)
  | cons q rest ih =>
    unfold putRecord at hp
    split at hp
    · exact List.mem_cons.mp hp
    · split at hp
      · rcases List.mem_cons.mp hp with heq | hrest
        · exact Or.inl heq
        · exact Or.inr (List.mem_cons_of_mem _ hrest)
      · rcases List.mem_cons.mp hp with rfl | hrest
        · exact Or.inr List.mem_cons_self
        · exact (ih hrest).imp_right (List.mem_cons_of_mem _)

theorem AreSorted.putRecord (sorted : AreSorted threads) (t : ThreadId) (r : ThreadRecord) :
    AreSorted (putRecord t r threads) := by
  induction threads with
  | nil => exact List.pairwise_singleton _ _
  | cons q rest ih =>
    obtain ⟨hfirst, hrest⟩ := List.pairwise_cons.mp sorted
    unfold Pushdown.putRecord
    split
    · next before =>
      -- the new record goes to the front
      apply List.Pairwise.cons _ sorted
      intro p hp
      rcases List.mem_cons.mp hp with rfl | hp
      · exact before
      · exact UInt64.lt_trans before (hfirst p hp)
    · next notBefore =>
      split
      · next same =>
        apply List.Pairwise.cons _ hrest
        intro p hp
        exact same ▸ hfirst p hp
      · next other =>
        apply List.Pairwise.cons _ (ih hrest)
        intro p hp
        rcases mem_putRecord hp with rfl | hp
        · rcases UInt64.lt_or_lt_of_ne other with before | after
          · exact (notBefore before).elim
          · exact after
        · exact hfirst p hp

theorem AreSorted.eraseRecord (sorted : AreSorted threads) (t : ThreadId) :
    AreSorted (eraseRecord t threads) :=
  sorted.sublist List.filter_sublist

/-- Of sorted records each is the one that is found for its thread. -/
theorem AreSorted.mem_iff_lookup (sorted : AreSorted threads) :
    (t, r) ∈ threads ↔ threads.lookup t = some r := by
  induction threads with
  | nil => simp
  | cons q rest ih =>
    obtain ⟨u, s⟩ := q
    obtain ⟨hfirst, hrest⟩ := List.pairwise_cons.mp sorted
    rw [lookup_cons_eq, List.mem_cons]
    by_cases same : t = u
    · subst same
      rw [if_pos rfl]
      constructor
      · rintro (heq | hmem)
        · exact congrArg some (Prod.mk.inj heq).2.symm
        · exact (UInt64.lt_irrefl t (hfirst _ hmem)).elim
      · intro found
        exact Or.inl (Prod.ext rfl (Option.some.inj found).symm)
    · rw [if_neg same, ← ih hrest]
      constructor
      · rintro (heq | hmem)
        · exact (same (Prod.mk.inj heq).1).elim
        · exact hmem
      · exact Or.inr

end

namespace RunStates

variable {s : RunStates} {t : ThreadId} {cs later : List Change}

theorem areSorted_change (sorted : AreSorted s.threads) (c : Change) :
    AreSorted (s.change c).threads := by
  cases c with
  | «open» =>
    simp only [change, opened]
    split <;> exact sorted
  | terminate => exact List.Pairwise.nil
  | event e =>
    simp only [change, apply]
    split
    · exact sorted
    · cases e with
      | started t | suspended t _ | resumed t _ => exact sorted.putRecord t _
      | exited t => exact sorted.eraseRecord t
      | terminated => exact List.Pairwise.nil
      | output => exact sorted

theorem areSorted_after (cs : List Change) : AreSorted (after cs).threads := by
  have hall : ∀ s : RunStates, AreSorted s.threads → AreSorted (s.changeAll cs).threads := by
    induction cs with
    | nil => exact fun s sorted => sorted
    | cons c cs ih => exact fun s sorted => ih _ (areSorted_change sorted c)
  exact hall _ List.Pairwise.nil

theorem mem_threadIds_iff (sorted : AreSorted s.threads) :
    t ∈ s.threadIds ↔ s.threadState? t ≠ none := by
  simp only [threadIds, threadState?, record?, List.mem_map, ne_eq, Option.map_eq_none_iff]
  constructor
  · rintro ⟨⟨u, r⟩, hmem, rfl⟩ unknown
    rw [sorted.mem_iff_lookup.mp hmem] at unknown
    cases unknown
  · intro known
    obtain ⟨r, hr⟩ := Option.ne_none_iff_exists'.mp known
    exact ⟨(t, r), sorted.mem_iff_lookup.mpr hr, rfl⟩

/-! ### The session and its threads -/

theorem sessionOf_eq_running_iff (sorted : AreSorted s.threads) :
    sessionOf s.threads = .running ↔ ∃ t, s.threadState? t = some .running := by
  have hany : sessionOf s.threads = .running ↔
      s.threads.any (fun p => p.2.state = .running) = true := by
    unfold sessionOf
    split
    · next hruns => exact iff_of_true rfl hruns
    · next hruns =>
      refine iff_of_false ?_ hruns
      split <;> intro h <;> cases h
  rw [hany, List.any_eq_true]
  constructor
  · rintro ⟨⟨t, r⟩, hmem, hruns⟩
    refine ⟨t, ?_⟩
    rw [threadState?, record?, sorted.mem_iff_lookup.mp hmem]
    exact congrArg some (of_decide_eq_true hruns)
  · rintro ⟨t, hruns⟩
    obtain ⟨r, hr, hstate⟩ := Option.map_eq_some_iff.mp hruns
    exact ⟨(t, r), sorted.mem_iff_lookup.mpr hr, decide_eq_true hstate⟩

theorem sessionOf_eq_open_iff (sorted : AreSorted s.threads) :
    sessionOf s.threads = .open ↔ ∀ t, s.threadState? t = none := by
  have hempty : sessionOf s.threads = .open ↔ s.threads = [] := by
    unfold sessionOf
    cases s.threads with
    | nil => simp
    | cons p rest => split <;> simp
  rw [hempty]
  constructor
  · intro none t
    rw [threadState?, record?, none]
    rfl
  · intro unknown
    cases hthreads : s.threads with
    | nil => rfl
    | cons p rest =>
      have hmem : p.1 ∈ s.threadIds := by
        rw [threadIds, hthreads]
        exact List.mem_cons_self
      exact ((mem_threadIds_iff sorted).mp hmem (unknown p.1)).elim

/-! ### What the history says -/

/-- The change makes an end of the session. -/
def Change.Ends (c : Change) : Prop := c = .event .terminated ∨ c = .terminate

/-- From this change on the session is up: it opens, or something is heard of a thread. -/
def Change.Begins (c : Change) : Prop := c = .open ∨ c.thread? ≠ none

/-- How an event leaves its thread. -/
def stateAfter? : Event → Option ThreadState
  | .started _ | .suspended .. => some .suspended
  | .resumed .. => some .running
  | .exited _ | .terminated | .output _ => none

/-- The event of the change, if it is about this thread. -/
def Change.eventAbout? (t : ThreadId) : Change → Option Event
  | .event e => if e.thread? = some t then some e else none
  | .open | .terminate => none

/-- The state of a thread by the last event about it. -/
def stateIn? (cs : List Change) (t : ThreadId) : Option ThreadState :=
  (cs.filterMap (Change.eventAbout? t)).getLast?.bind stateAfter?

/-! ### From the first change to the last -/

/-- How far the session has come in this history. -/
inductive Stage (cs : List Change) (s : RunStates) : Prop
  | connecting (going : ∀ c ∈ cs, ¬c.Ends) (quiet : ∀ c ∈ cs, ¬c.Begins)
      (session : s.session = .connecting) (threads : s.threads = [])
  | up (going : ∀ c ∈ cs, ¬c.Ends) (begun : ∃ c ∈ cs, c.Begins)
      (session : s.session = sessionOf s.threads)
  | past (ended : ∃ c ∈ cs, c.Ends) (session : s.session = .terminated) (threads : s.threads = [])

/-- Other changes, such as output, are nothing to the run states. -/
theorem change_of_quiet {c : Change} (goesOn : ¬c.Ends) (quiet : ¬c.Begins) : s.change c = s := by
  cases c with
  | «open» => exact (quiet (Or.inl rfl)).elim
  | terminate => exact (goesOn (Or.inr rfl)).elim
  | event e =>
    cases e with
    | output text =>
      simp only [change, apply]
      split <;> rfl
    | terminated => exact (goesOn (Or.inl rfl)).elim
    | _ => exact (quiet (Or.inr fun h => by cases h)).elim

theorem change_of_terminated {c : Change} (past : s.session = .terminated) (goesOn : ¬c.Ends) :
    s.change c = s := by
  cases c with
  | «open» => simp [change, opened, past]
  | terminate => exact (goesOn (Or.inr rfl)).elim
  | event e => simp [change, apply, past]

theorem change_of_ends {c : Change} (threads : s.session = .terminated → s.threads = [])
    (ends : c.Ends) : (s.change c).session = .terminated ∧ (s.change c).threads = [] := by
  rcases ends with rfl | rfl
  · simp only [change, apply]
    split
    · next past => exact ⟨past, threads past⟩
    · exact ⟨rfl, rfl⟩
  · exact ⟨rfl, rfl⟩

/-- An event about a thread lets the session follow from the records. -/
theorem session_apply {e : Event} (going : s.session ≠ .terminated) (about : e.thread? ≠ none) :
    (s.apply e).session = sessionOf (s.apply e).threads := by
  cases e with
  | terminated | output => exact (about rfl).elim
  | _ =>
    simp only [apply, if_neg going]
    rfl

theorem sessionOf_ne_connecting (threads : List (ThreadId × ThreadRecord)) :
    sessionOf threads ≠ .connecting := by
  unfold sessionOf
  split
  · intro h
    cases h
  · split <;> intro h <;> cases h

/-- So does opening: before it there are no records, after it it is nothing new. -/
theorem session_opened (session : s.session = .connecting ∧ s.threads = [] ∨
    s.session = sessionOf s.threads) : s.opened.session = sessionOf s.opened.threads := by
  unfold opened
  rcases session with ⟨connecting, threads⟩ | up
  · rw [if_pos connecting, threads]
    rfl
  · have hnot : s.session ≠ .connecting := up ▸ sessionOf_ne_connecting s.threads
    rwa [if_neg hnot]

theorem session_change {c : Change} (session : s.session = .connecting ∧ s.threads = [] ∨
    s.session = sessionOf s.threads) (goesOn : ¬c.Ends) (begins : c.Begins) :
    (s.change c).session = sessionOf (s.change c).threads := by
  rcases begins with rfl | about
  · exact session_opened session
  · cases c with
    | «open» | terminate => exact (about rfl).elim
    | event e =>
      have going : s.session ≠ .terminated := by
        rcases session with ⟨connecting, -⟩ | up
        · rw [connecting]
          intro h
          cases h
        · exact up ▸ sessionOf_ne_terminated s.threads
      exact session_apply going about

theorem Stage.threads_of_terminated (stage : Stage cs s) (past : s.session = .terminated) :
    s.threads = [] := by
  cases stage with
  | connecting _ _ _ threads | past _ _ threads => exact threads
  | up _ _ session => exact (sessionOf_ne_terminated _ (session.symm.trans past)).elim

theorem Stage.snoc (stage : Stage cs s) (c : Change) : Stage (cs ++ [c]) (s.change c) := by
  have hlast : c ∈ cs ++ [c] := List.mem_append_right _ List.mem_cons_self
  have hall : ∀ {P : Change → Prop}, (∀ d ∈ cs, P d) → P c → ∀ d ∈ cs ++ [c], P d := by
    intro P earlier now d hd
    rcases List.mem_append.mp hd with hd | hd
    · exact earlier d hd
    · exact List.mem_singleton.mp hd ▸ now
  have hsome : ∀ {P : Change → Prop}, (∃ d ∈ cs, P d) → ∃ d ∈ cs ++ [c], P d := by
    rintro P ⟨d, hd, holds⟩
    exact ⟨d, List.mem_append_left _ hd, holds⟩
  by_cases ends : c.Ends
  · have hpast := change_of_ends stage.threads_of_terminated ends
    exact .past ⟨c, hlast, ends⟩ hpast.1 hpast.2
  by_cases begins : c.Begins
  · cases stage with
    | past ended session threads =>
      rw [change_of_terminated session ends]
      exact .past (hsome ended) session threads
    | connecting going _ session threads =>
      apply Stage.up (hall going ends) ⟨c, hlast, begins⟩
      exact session_change (Or.inl ⟨session, threads⟩) ends begins
    | up going _ session =>
      apply Stage.up (hall going ends) ⟨c, hlast, begins⟩
      exact session_change (Or.inr session) ends begins
  · rw [change_of_quiet ends begins]
    cases stage with
    | past ended session threads => exact .past (hsome ended) session threads
    | connecting going quiet session threads =>
      exact .connecting (hall going ends) (hall quiet begins) session threads
    | up going begun session => exact .up (hall going ends) (hsome begun) session

theorem after_snoc (cs : List Change) (c : Change) : after (cs ++ [c]) = (after cs).change c :=
  after_append ..

theorem stage_after (cs : List Change) : Stage cs (after cs) := by
  induction cs using List.reverseRecOn with
  | nil => exact .connecting (fun c hc => by cases hc) (fun c hc => by cases hc) rfl rfl
  | append_singleton cs c ih =>
    rw [after_snoc]
    exact ih.snoc c

/-! ### The threads -/

/-- A change leaves a thread as its event says, and other threads alone. -/
theorem threadState?_change {c : Change} (going : s.session ≠ .terminated) (goesOn : ¬c.Ends)
    (t : ThreadId) :
    (s.change c).threadState? t = (c.eventAbout? t).elim (s.threadState? t) stateAfter? := by
  cases c with
  | terminate => exact (goesOn (Or.inr rfl)).elim
  | «open» => exact congrArg (Option.map _) (record?_opened s t)
  | event e =>
    simp only [change, apply, if_neg going, Change.eventAbout?, threadState?]
    cases e with
    | terminated => exact (goesOn (Or.inl rfl)).elim
    | output => rfl
    | started u | suspended u _ =>
      rw [record?_suspend]
      by_cases same : t = u
      · simp [same, Event.thread?, stateAfter?]
      · simp [same, Ne.symm same, Event.thread?]
    | resumed u _ =>
      obtain ⟨kept, hrecord⟩ := record?_resume s t u
      rw [hrecord]
      by_cases same : t = u
      · simp [same, Event.thread?, stateAfter?]
      · simp [same, Ne.symm same, Event.thread?]
    | exited u =>
      rw [record?_exit]
      by_cases same : t = u
      · simp [same, Event.thread?, stateAfter?]
      · simp [same, Ne.symm same, Event.thread?]

theorem stateIn?_snoc (cs : List Change) (c : Change) (t : ThreadId) :
    stateIn? (cs ++ [c]) t = (c.eventAbout? t).elim (stateIn? cs t) stateAfter? := by
  rw [stateIn?, List.filterMap_append]
  cases habout : c.eventAbout? t with
  | none => simp [habout, stateIn?]
  | some e => simp [habout]

theorem threadState?_after (going : ∀ c ∈ cs, ¬c.Ends) (t : ThreadId) :
    (after cs).threadState? t = stateIn? cs t := by
  induction cs using List.reverseRecOn with
  | nil => rfl
  | append_singleton cs c ih =>
    have hearlier : ∀ d ∈ cs, ¬d.Ends := fun d hd => going d (List.mem_append_left _ hd)
    have hgoing : (after cs).session ≠ .terminated := by
      intro past
      cases stage_after cs with
      | connecting _ _ session => rw [session] at past; cases past
      | up _ _ session => exact sessionOf_ne_terminated _ (session.symm.trans past)
      | past ended =>
        obtain ⟨d, hd, ends⟩ := ended
        exact hearlier d hd ends
    rw [after_snoc, stateIn?_snoc, ← ih hearlier]
    exact threadState?_change hgoing (going c (List.mem_append_right _ List.mem_cons_self)) t

theorem threadState?_of_threads (threads : s.threads = []) (t : ThreadId) :
    s.threadState? t = none := by
  rw [threadState?, record?, threads]
  rfl

/-- After the end nothing is known of any thread. -/
theorem threadState?_of_ended (ended : ∃ c ∈ cs, c.Ends) (t : ThreadId) :
    (after cs).threadState? t = none := by
  cases stage_after cs with
  | past _ _ threads => exact threadState?_of_threads threads t
  | connecting going | up going =>
    obtain ⟨c, hc, ends⟩ := ended
    exact (going c hc ends).elim

/-! ### The session -/

theorem session_after_eq_terminated_iff :
    (after cs).session = .terminated ↔ ∃ c ∈ cs, c.Ends := by
  cases stage_after cs with
  | past ended session => exact iff_of_true session ended
  | connecting going _ session =>
    apply iff_of_false
    · simp [session]
    · rintro ⟨c, hc, ends⟩
      exact going c hc ends
  | up going _ session =>
    apply iff_of_false
    · rw [session]
      exact sessionOf_ne_terminated _
    · rintro ⟨c, hc, ends⟩
      exact going c hc ends

theorem session_after_eq_connecting_iff :
    (after cs).session = .connecting ↔ (∀ c ∈ cs, ¬c.Ends) ∧ ∀ c ∈ cs, ¬c.Begins := by
  cases stage_after cs with
  | connecting going quiet session => exact iff_of_true session ⟨going, quiet⟩
  | up _ begun session =>
    apply iff_of_false
    · rw [session]
      exact sessionOf_ne_connecting _
    · rintro ⟨-, quiet⟩
      obtain ⟨c, hc, begins⟩ := begun
      exact quiet c hc begins
  | past ended session =>
    apply iff_of_false
    · simp [session]
    · rintro ⟨going, -⟩
      obtain ⟨c, hc, ends⟩ := ended
      exact going c hc ends

theorem session_after_eq_running_iff :
    (after cs).session = .running ↔ ∃ t, (after cs).threadState? t = some .running := by
  cases stage_after cs with
  | up _ _ session =>
    rw [session]
    exact sessionOf_eq_running_iff (areSorted_after cs)
  | connecting _ _ session threads | past _ session threads =>
    simp [session, threadState?_of_threads threads]

theorem session_after_eq_open_iff :
    (after cs).session = .open ↔ (∀ c ∈ cs, ¬c.Ends) ∧ (∃ c ∈ cs, c.Begins) ∧
      ∀ t, (after cs).threadState? t = none := by
  cases stage_after cs with
  | up going begun session =>
    rw [session, sessionOf_eq_open_iff (areSorted_after cs)]
    exact ⟨fun unknown => ⟨going, begun, unknown⟩, fun h => h.2.2⟩
  | connecting _ quiet session =>
    apply iff_of_false
    · simp [session]
    · rintro ⟨-, ⟨c, hc, begins⟩, -⟩
      exact quiet c hc begins
  | past ended session =>
    apply iff_of_false
    · simp [session]
    · rintro ⟨going, -, -⟩
      obtain ⟨c, hc, ends⟩ := ended
      exact going c hc ends

/-- What is not open is suspended as soon as nothing runs. -/
theorem session_after_eq_suspended_iff :
    (after cs).session = .suspended ↔ (∀ t, (after cs).threadState? t ≠ some .running) ∧
      ∃ t, (after cs).threadState? t ≠ none := by
  have hrunning : sessionOf (after cs).threads = .running ↔ _ :=
    sessionOf_eq_running_iff (areSorted_after cs)
  have hopen : sessionOf (after cs).threads = .open ↔ _ :=
    sessionOf_eq_open_iff (areSorted_after cs)
  cases stage_after cs with
  | up _ _ session =>
    rw [session, ← not_exists, ← hrunning, ← not_forall, ← hopen]
    unfold sessionOf
    split
    · simp
    · split <;> simp
  | connecting _ _ session threads | past _ session threads =>
    simp [session, threadState?_of_threads threads]

/-- The session is a matter of what its threads do, and of which changes there have been. -/
theorem session_after_congr {ds : List Change} (changes : ∀ c, c ∈ cs ↔ c ∈ ds)
    (threads : ∀ t, (after cs).threadState? t = (after ds).threadState? t) :
    (after cs).session = (after ds).session := by
  cases h : (after ds).session with
  | connecting =>
    rw [session_after_eq_connecting_iff] at h ⊢
    simpa only [changes] using h
  | «open» =>
    rw [session_after_eq_open_iff] at h ⊢
    simpa only [changes, threads] using h
  | suspended =>
    rw [session_after_eq_suspended_iff] at h ⊢
    simpa only [threads] using h
  | running =>
    rw [session_after_eq_running_iff] at h ⊢
    simpa only [threads] using h
  | terminated =>
    rw [session_after_eq_terminated_iff] at h ⊢
    simpa only [changes] using h

/-! ### Neighbouring events -/

theorem stateIn?_swap {e e' : Event} {t t' u : ThreadId} (first : e.thread? = some t)
    (second : e'.thread? = some t') (other : t ≠ t') :
    stateIn? (cs ++ .event e :: .event e' :: later) u =
      stateIn? (cs ++ .event e' :: .event e :: later) u := by
  by_cases same : t = u
  · subst same
    simp [stateIn?, Change.eventAbout?, second, Ne.symm other]
  · simp [stateIn?, Change.eventAbout?, first, same]

theorem mem_swap {c d d' : Change} :
    c ∈ cs ++ d :: d' :: later ↔ c ∈ cs ++ d' :: d :: later :=
  ((List.Perm.swap d' d later).append_left cs).mem_iff

theorem threadState?_swap {e e' : Event} {t t' : ThreadId} (first : e.thread? = some t)
    (second : e'.thread? = some t') (other : t ≠ t') (u : ThreadId) :
    (after (cs ++ .event e :: .event e' :: later)).threadState? u =
      (after (cs ++ .event e' :: .event e :: later)).threadState? u := by
  by_cases ended : ∃ c ∈ cs ++ .event e :: .event e' :: later, c.Ends
  · have ended' : ∃ c ∈ cs ++ .event e' :: .event e :: later, c.Ends := by
      simpa only [mem_swap] using ended
    rw [threadState?_of_ended ended, threadState?_of_ended ended']
  · have going : ∀ c ∈ cs ++ .event e :: .event e' :: later, ¬c.Ends :=
      fun c hc ends => ended ⟨c, hc, ends⟩
    have going' : ∀ c ∈ cs ++ .event e' :: .event e :: later, ¬c.Ends :=
      fun c hc => going c (mem_swap.mp hc)
    rw [threadState?_after going, threadState?_after going', stateIn?_swap first second other]

/-! ### States and history -/

/-- The run states after these changes are what the changes say. -/
structure FollowsHistory (cs : List Change) : Prop where
  /-- After the end of the session it is over for ever, and without threads. -/
  ended : (∃ c ∈ cs, c.Ends) → ∀ later,
    (after (cs ++ later)).session = .terminated ∧ (after (cs ++ later)).threadIds = []
  /-- Until then the last event about a thread tells its state. -/
  threads : (∀ c ∈ cs, ¬c.Ends) → ∀ t, (after cs).threadState? t = stateIn? cs t
  /-- The known threads, each once. -/
  known : ∀ t, t ∈ (after cs).threadIds ↔ (after cs).threadState? t ≠ none
  ascending : (after cs).threadIds.Pairwise (· < ·)
  /-- The session is running if some thread runs, … -/
  running : (after cs).session = .running ↔ ∃ t, (after cs).threadState? t = some .running
  /-- … else suspended if some thread is known, … -/
  suspended : (after cs).session = .suspended ↔
    (∀ t, (after cs).threadState? t ≠ some .running) ∧ ∃ t, (after cs).threadState? t ≠ none
  /-- … else open once it has begun, … -/
  «open» : (after cs).session = .open ↔ (∀ c ∈ cs, ¬c.Ends) ∧ (∃ c ∈ cs, c.Begins) ∧
    ∀ t, (after cs).threadState? t = none
  /-- … and connecting only before that. -/
  connecting : (after cs).session = .connecting ↔
    (∀ c ∈ cs, ¬c.Ends) ∧ ∀ c ∈ cs, ¬c.Begins
  /-- Output changes nothing, whatever comes after it. -/
  output : ∀ text later, after (cs ++ .event (.output text) :: later) = after (cs ++ later)
  /-- Two events about different threads may come in either order. -/
  swapped : ∀ e e' t t' later, e.thread? = some t → e'.thread? = some t' → t ≠ t' →
    (after (cs ++ .event e :: .event e' :: later)).session =
        (after (cs ++ .event e' :: .event e :: later)).session ∧
      ∀ u, (after (cs ++ .event e :: .event e' :: later)).threadState? u =
        (after (cs ++ .event e' :: .event e :: later)).threadState? u

/-- **Run states are the right function of the history.** -/
theorem followsHistory (cs : List Change) : FollowsHistory cs where
  ended := by
    rintro ⟨c, hc, ends⟩ later
    have hended : ∃ c ∈ cs ++ later, c.Ends := ⟨c, List.mem_append_left _ hc, ends⟩
    refine ⟨session_after_eq_terminated_iff.mpr hended, ?_⟩
    apply List.eq_nil_iff_forall_not_mem.mpr
    intro t ht
    apply (mem_threadIds_iff (areSorted_after _)).mp ht
    exact threadState?_of_ended hended t
  threads := threadState?_after
  known t := mem_threadIds_iff (areSorted_after cs)
  ascending := List.pairwise_map.mpr (areSorted_after cs)
  running := session_after_eq_running_iff
  suspended := session_after_eq_suspended_iff
  «open» := session_after_eq_open_iff
  connecting := session_after_eq_connecting_iff
  output := by
    intro text later
    have hquiet : (after cs).change (.event (.output text)) = after cs := by
      apply change_of_quiet
      · rintro (h | h) <;> cases h
      · rintro (h | h)
        · cases h
        · exact h rfl
    rw [after_append, after_append]
    exact congrArg (changeAll · later) hquiet
  swapped := by
    intro e e' t t' later first second other
    have hthreads : ∀ u, (after (cs ++ .event e :: .event e' :: later)).threadState? u =
        (after (cs ++ .event e' :: .event e :: later)).threadState? u :=
      threadState?_swap first second other
    exact ⟨session_after_congr (fun _ => mem_swap) hthreads, hthreads⟩

/-- A thread that is not known goes on: it runs from now on.  One that is not known exits:
    then nothing runs, but the session is up. -/
example : (after [.event (.resumed 7 .step)]).session = .running ∧
    (after [.event (.exited 7)]).session = .open := by
  decide

end RunStates

end Pushdown
