/-
  Pushdown/Proofs/Session/Deeds.lean
  ==================================
  **A call does what its script does.**  The log of a run shows when a call asks for the
  writer and when it is over, and the run states of these moments.  These are the *deeds* of
  the call, and its script can do them, with the exchanges that the call has had
  (`Setup.Carries.does`).  So what a script makes of the run states it finds is made of the
  run states that the session has at that moment, and not of any others.

  The proof follows the run from the input with which the call begins.  At every moment a
  call that waits has its continuation before it, whatever comes of its command and whatever
  the run states are by then; a call that is going on has the rest of its script before it,
  in the run states of the moment (`Accords`).
-/
import Pushdown.Proofs.Script.Deeds
import Pushdown.Proofs.Session.Course

namespace Pushdown

/-! ### Deeds in a log -/

namespace Happened

variable {α : Type} {t : Ticket}

/-- What the occurrence has to say of the call. -/
def deedOf? (t : Ticket) : Occurrence α → Option (Deed α)
  | .request u c => if u = t then some (.asked c) else none
  | .ended call => if call.ticket = t then some (.ended call.result) else none
  | .event .. | .tearDown _ => none

/-- The deeds of a call in a log that begins with these run states. -/
def deedsFrom (t : Ticket) : RunStates → Happened α → Deeds α
  | _, [] => []
  | s, o :: rest =>
    (deedOf? t o).toList.map (s, ·) ++ deedsFrom t (s.changeAll (changeOf? o).toList) rest

/-- What a call has done in a session in which all this has happened. -/
def deeds (h : Happened α) (t : Ticket) : Deeds α := deedsFrom t RunStates.new.opened h

theorem deedsFrom_append (t : Ticket) (s : RunStates) (h k : Happened α) :
    deedsFrom t s (h ++ k) = deedsFrom t s h ++ deedsFrom t (s.changeAll h.changes) k := by
  induction h generalizing s with
  | nil => rfl
  | cons o h ih =>
    have hchanges : changes (o :: h) = (changeOf? o).toList ++ changes h := by
      cases hchange : changeOf? o <;> simp [changes, hchange]
    rw [List.cons_append, deedsFrom, ih, deedsFrom, hchanges, List.append_assoc]
    simp only [RunStates.changeAll, List.foldl_append]

theorem deeds_concat (h : Happened α) (o : Occurrence α) (t : Ticket) :
    deeds (h ++ [o]) t = h.deeds t ++ (deedOf? t o).toList.map (h.states, ·) := by
  rw [deeds, deedsFrom_append, deedsFrom, deedsFrom, List.append_nil]
  rfl

theorem deeds_append_of_others (h : Happened α) {k : Happened α}
    (others : ∀ o ∈ k, deedOf? t o = none) : deeds (h ++ k) t = h.deeds t := by
  induction k using List.reverseRecOn with
  | nil => rw [List.append_nil]
  | append_singleton k o ih =>
    have hlast : deedOf? t o = none := others o (by simp)
    rw [← List.append_assoc, deeds_concat, hlast, ih fun o ho => others o (by simp [ho])]
    simp

theorem deeds_of_others {h : Happened α} (others : ∀ o ∈ h, deedOf? t o = none) :
    h.deeds t = [] :=
  deeds_append_of_others [] others

theorem deedOf?_eq_ended {o : Occurrence α} {r : Except Error α} :
    deedOf? t o = some (.ended r) ↔ o = .ended ⟨t, r⟩ := by
  constructor
  · intro deed
    cases o with
    | event | tearDown => cases deed
    | request u c =>
      rw [deedOf?] at deed
      split at deed <;> cases deed
    | ended call =>
      rw [deedOf?] at deed
      split at deed
      · next own =>
        cases deed
        rw [← own]
      · cases deed
  · rintro rfl
    exact if_pos rfl

/-- The deeds of a call are what happens to it, with the run states of that moment. -/
theorem mem_deeds {h : Happened α} {s : RunStates} {d : Deed α} : (s, d) ∈ h.deeds t ↔
    ∃ earlier o rest, h = earlier ++ o :: rest ∧ states earlier = s ∧ deedOf? t o = some d := by
  constructor
  · intro deed
    induction h using List.reverseRecOn with
    | nil => cases deed
    | append_singleton h o ih =>
      rw [deeds_concat] at deed
      rcases List.mem_append.mp deed with before | last
      · obtain ⟨earlier, o', rest, rfl, hs, hd⟩ := ih before
        exact ⟨earlier, o', rest ++ [o], by simp, hs, hd⟩
      · obtain ⟨d', hd, heq⟩ := List.mem_map.mp last
        cases heq
        exact ⟨h, o, [], rfl, rfl, Option.mem_toList.mp hd⟩
  · rintro ⟨earlier, o, rest, rfl, rfl, deed⟩
    have hsplit : earlier ++ o :: rest = (earlier ++ [o]) ++ rest := by simp
    rw [deeds, hsplit, deedsFrom_append]
    refine List.mem_append_left _ ?_
    change _ ∈ deeds (earlier ++ [o]) t
    rw [deeds_concat, deed]
    simp

theorem ended_mem_deeds {h : Happened α} {s : RunStates} {r : Except Error α} :
    (s, .ended r) ∈ h.deeds t ↔
      ∃ earlier rest, h = earlier ++ .ended ⟨t, r⟩ :: rest ∧ states earlier = s := by
  rw [mem_deeds]
  constructor
  · rintro ⟨earlier, o, rest, split, hs, deed⟩
    obtain rfl := deedOf?_eq_ended.mp deed
    exact ⟨earlier, rest, split, hs⟩
  · rintro ⟨earlier, rest, split, hs⟩
    exact ⟨earlier, _, rest, split, hs, deedOf?_eq_ended.mpr rfl⟩

end Happened

namespace Session

open Happened Script

variable {α : Type} {S : Script α} {s₀ : RunStates} {t : Ticket}

/-! ### At every moment -/

/-- What the call has done up to now its script can do, begun in run states `s₀`, and it
    goes on with the script. -/
structure Accords (S : Script α) (s₀ : RunStates) (t : Ticket) (m : Moment α) (tr : Traffic) :
    Prop where
  waiting : ∀ w ∈ m.session.calls, w.ticket = t → ∃ c, (t, c) ∈ m.session.link.asks ∧
    ∀ outcome s, S.LeftAt s₀ (tr.exchanges t ++ [(c, outcome)]) (m.log.deeds t)
      (w.next outcome) s
  running : ∀ script, m.running = some (t, script) →
    S.LeftAt s₀ (tr.exchanges t) (m.log.deeds t) script m.session.states
  still : (∀ script, m.running ≠ some (t, script)) → S.Does s₀ (tr.exchanges t) (m.log.deeds t)

namespace Accords

variable {m m' : Moment α} {tr : Traffic} {log : Happened α} {x : Session α}

/-- A call that is not going on stands where it stood, unless something comes back to it. -/
theorem of_still (accords : Accords S s₀ t m tr) {more : Traffic}
    (silent : more.exchanges t = []) (deeds : m'.log.deeds t = m.log.deeds t)
    (calls : ∀ w ∈ m'.session.calls, w.ticket = t → w ∈ m.session.calls)
    (asks : ∀ c, (t, c) ∈ m.session.link.asks → (t, c) ∈ m'.session.link.asks)
    (before : ∀ script, m.running ≠ some (t, script))
    (after : ∀ script, m'.running ≠ some (t, script)) : Accords S s₀ t m' (tr ++ more) := by
  have hexchanges : Traffic.exchanges (tr ++ more) t = tr.exchanges t := by simp [silent]
  constructor
  · intro w hw own
    obtain ⟨c, hasks, left⟩ := accords.waiting w (calls w hw own) own
    rw [hexchanges, deeds]
    exact ⟨c, asks c hasks, left⟩
  · intro script hrun
    exact (after script hrun).elim
  · intro _
    rw [hexchanges, deeds]
    exact accords.still before

theorem of_running {script : Script α}
    (left : S.LeftAt s₀ (tr.exchanges t) (log.deeds t) script x.states)
    (alone : t ∉ x.calls.map Waiting.ticket) :
    Accords S s₀ t ⟨log, x, [], some (t, script)⟩ tr where
  waiting w hw own := (alone (List.mem_map.mpr ⟨w, hw, own⟩)).elim
  running next hrun := by
    obtain ⟨-, rfl⟩ := Prod.mk.inj (Option.some.inj hrun)
    exact left
  still other := (other script rfl).elim

end Accords

section

variable {began : List Ticket} {log : Happened α} {x : Session α} {m m' : Moment α} {tr : Traffic}

/-- What a call does next when it is going on. -/
theorem accords_runs {script : Script α} (staffed : Staffed began m) (replayed : IsReplayed m)
    (step : Next m m') (runs : m.running = some (t, script)) (accords : Accords S s₀ t m tr) :
    Accords S s₀ t m' (tr ++ m.traffic) := by
  have left := accords.running script runs
  have hstates : m.session.states = m.log.states := replayed
  cases step with
  | line | turns => cases runs
  | looks =>
    obtain ⟨rfl, rfl⟩ := Prod.mk.inj (Option.some.inj runs)
    rw [Moment.traffic, List.append_nil]
    exact .of_running left.look staffed.alone.1
  | @turnedAway log x u turn c next e why =>
    obtain ⟨rfl, rfl⟩ := Prod.mk.inj (Option.some.inj runs)
    have hexchanges : Traffic.exchanges (tr ++ [.outcome u c (.error e)]) u =
        tr.exchanges u ++ [(c, .error e)] := by simp [Traffic.exchanges, Traffic.exchange?]
    simp only [Moment.traffic, why, Option.map_some, Option.toList_some]
    refine .of_running ?_ staffed.alone.1
    rw [hexchanges]
    exact left.turnedAway e
  | @asks log x u turn c next welcome =>
    obtain ⟨rfl, rfl⟩ := Prod.mk.inj (Option.some.inj runs)
    obtain ⟨alone, -⟩ := staffed.alone
    have hdeeds : Happened.deeds (log ++ [.request u c]) u =
        log.deeds u ++ [(x.states, .asked c)] := by
      rw [deeds_concat, hstates]
      simp [deedOf?]
    simp only [Moment.traffic, welcome, Option.map_none, Option.toList_none, List.append_nil]
    constructor
    · intro w hw own
      rcases List.mem_append.mp hw with hw | hw
      · exact (alone (List.mem_map.mpr ⟨w, hw, own⟩)).elim
      · obtain rfl := List.mem_singleton.mp hw
        refine ⟨c, ?_, fun outcome s => ?_⟩
        · change (u, c) ∈ (x.link.enqueue ⟨u, .command c⟩).asks
          rw [Link.asks_enqueue]
          exact List.mem_append_right _ List.mem_cons_self
        · rw [between, hdeeds]
          exact left.goesOn outcome s
    · rintro script ⟨⟩
    · intro _
      rw [between, hdeeds]
      exact left.asks
  | @closes log x u next =>
    obtain ⟨rfl, rfl⟩ := Prod.mk.inj (Option.some.inj runs)
    have hdeeds : Happened.deeds (log ++ x.close.1) u = log.deeds u := by
      refine deeds_append_of_others log ?_
      simp [close, tearDown, deedOf?]
    rw [Moment.traffic, List.append_nil]
    refine .of_running ?_ staffed.alone.1
    rw [hdeeds]
    exact left.close
  | @ends log x u result =>
    obtain ⟨rfl, rfl⟩ := Prod.mk.inj (Option.some.inj runs)
    have hdeeds : Happened.deeds (log ++ [.ended ⟨u, result⟩]) u =
        log.deeds u ++ [(x.states, .ended result)] := by
      rw [deeds_concat, hstates]
      simp [deedOf?]
    rw [Moment.traffic, List.append_nil]
    constructor
    · intro w hw own
      exact (staffed.alone.1 (List.mem_map.mpr ⟨w, hw, own⟩)).elim
    · rintro script ⟨⟩
    · intro _
      rw [between, hdeeds]
      exact left.done

theorem deedOf?_handleIncoming (x : Session α) (item : Incoming) :
    ∀ o ∈ (x.handleIncoming item).1, deedOf? t o = none := by
  cases item with
  | reply | malformed => exact fun _ ho => (by cases ho)
  | event e =>
    simp only [handleIncoming, handleEvent]
    split
    · exact fun _ ho => (by cases ho)
    · intro o ho
      rw [List.mem_singleton.mp ho]
      rfl

theorem accords_turns (staffed : Staffed began (between log x))
    (accords : Accords S s₀ t (between log x) tr) :
    Accords S s₀ t (awakened log { x with link := x.link.turn.2 } x.link.turn.1)
      (tr ++ x.link.traffic) := by
  have hsound : x.link.Sound := staffed.sound
  rcases Link.traffic_turn hsound staffed.tickets_nodup t with
    ⟨c, outcome, ended, asks, -, exchanges, -⟩ | ⟨never, exchanges, asks, -⟩
  · -- the call goes on with what has come of its command
    obtain ⟨w, hfind, hw, own⟩ := staffed.exists_waiting (Link.mem_tickets_of_asks asks)
    obtain ⟨d, hd, left⟩ := accords.waiting w hw own
    have hsame : d = c := by
      have hnodup : (x.link.asks.map Prod.fst).Nodup :=
        staffed.tickets_nodup.sublist x.link.asks_sublist
      exact congrArg Prod.snd (List.inj_on_of_nodup_map hnodup hd asks rfl)
    subst hsame
    simp only [ended, awakened, hfind]
    refine .of_running ?_ ?_
    · rw [Traffic.exchanges_append, exchanges]
      exact left outcome x.states
    · rw [Link.map_filter_ticket]
      simp
  · obtain ⟨calls, running, heq⟩ := awakened_eq log { x with link := x.link.turn.2 } x.link.turn.1
    have fewer : ∀ w ∈ calls, w ∈ x.calls := by
      intro w hw
      have hcalls := @awakened_calls _ log { x with link := x.link.turn.2 } x.link.turn.1 w
      rw [heq] at hcalls
      exact hcalls hw
    rw [heq]
    refine accords.of_still exchanges rfl (fun w hw _ => fewer w hw) asks (fun _ h => by cases h) ?_
    rintro script rfl
    obtain ⟨result, w, hturn, -⟩ := awakened_running (congrArg Moment.running heq)
    exact never result hturn

/-- What happens while a call is not going on. -/
theorem accords_waits (staffed : Staffed began m) (step : Next m m')
    (others : ∀ script, m.running ≠ some (t, script)) (accords : Accords S s₀ t m tr) :
    Accords S s₀ t m' (tr ++ m.traffic) := by
  cases step with
  | @line log x item rest =>
    refine accords.of_still rfl (deeds_append_of_others log (deedOf?_handleIncoming x item)) ?_ ?_
      (fun _ h => by cases h) fun _ h => by cases h
    · rw [handleIncoming_calls]
      exact fun w hw _ => hw
    · intro c hasks
      rcases handleIncoming_link_eq x item with hsame | ⟨reply, -, hresolve⟩
      · rwa [hsame]
      · rwa [hresolve, Link.asks_resolve]
  | @looks log x u next =>
    have hother : u ≠ t := fun own => others _ (by rw [own])
    refine accords.of_still rfl rfl (fun _ h _ => h) (fun _ h => h) others ?_
    rintro script ⟨⟩
    exact hother rfl
  | @turnedAway log x u turn c next e why =>
    have hother : u ≠ t := fun own => others _ (by rw [own])
    refine accords.of_still ?_ rfl (fun _ h _ => h) (fun _ h => h) others ?_
    · simp [Moment.traffic, why, Traffic.exchanges, Traffic.exchange?, hother]
    · rintro script ⟨⟩
      exact hother rfl
  | @asks log x u turn c next welcome =>
    have hother : u ≠ t := fun own => others _ (by rw [own])
    refine accords.of_still ?_ (deeds_append_of_others log ?_) ?_ ?_ others fun _ h => by cases h
    · simp [Moment.traffic, welcome, Traffic.exchanges]
    · simp [deedOf?, hother]
    · intro w hw own
      rcases List.mem_append.mp hw with hw | hw
      · exact hw
      · obtain rfl := List.mem_singleton.mp hw
        exact (hother own).elim
    · intro d hd
      change (t, d) ∈ (x.link.enqueue ⟨u, .command c⟩).asks
      rw [Link.asks_enqueue]
      exact List.mem_append_left _ hd
  | @closes log x u next =>
    have hother : u ≠ t := fun own => others _ (by rw [own])
    refine accords.of_still rfl (deeds_append_of_others log ?_) (fun _ h _ => h) ?_ others ?_
    · simp [close, tearDown, deedOf?]
    · exact fun _ h => h
    · rintro script ⟨⟩
      exact hother rfl
  | @ends log x u result =>
    have hother : u ≠ t := fun own => others _ (by rw [own])
    refine accords.of_still rfl (deeds_append_of_others log ?_) (fun _ h _ => h) (fun _ h => h)
      others fun _ h => by cases h
    simp [deedOf?, hother]
  | turns => exact accords_turns staffed accords

theorem accords_next (staffed : Staffed began m) (replayed : IsReplayed m) (step : Next m m')
    (accords : Accords S s₀ t m tr) : Accords S s₀ t m' (tr ++ m.traffic) := by
  by_cases runs : ∃ script, m.running = some (t, script)
  · obtain ⟨script, runs⟩ := runs
    exact accords_runs staffed replayed step runs accords
  · exact accords_waits staffed step (fun script h => runs ⟨script, h⟩) accords

theorem accords_arrived {a : Action α} (arrived : Arrived log x a m)
    (accords : Accords S s₀ t (between log x) tr) (other : ∀ script, a ≠ .start t script) :
    Accords S s₀ t m tr := by
  have hquiet : Accords S s₀ t m (tr ++ []) := by
    cases arrived with
    | lines | nothing | timePasses | hangsUp | registers =>
      exact accords.of_still rfl rfl (fun _ h _ => h) (fun _ h => h) (fun _ h => by cases h)
        fun _ h => by cases h
    | streamEnds =>
      refine accords.of_still rfl (deeds_append_of_others log ?_) (fun _ h _ => h) (fun _ h => h)
        (fun _ h => by cases h) fun _ h => by cases h
      simp [tearDown, deedOf?]
    | @starts u script =>
      refine accords.of_still rfl rfl (fun _ h _ => h) (fun _ h => h) (fun _ h => by cases h) ?_
      rintro script' ⟨⟩
      exact other script rfl
    | @leaves u =>
      by_cases own : u = t
      · subst own
        refine ⟨fun w hw hticket => ?_, fun _ h => (by cases h), fun _ => ?_⟩
        · simpa [hticket] using (List.mem_filter.mp hw).2
        · rw [List.append_nil]
          exact accords.still fun _ h => by cases h
      · refine accords.of_still rfl rfl ?_ (fun _ => Link.asks_cancel own) (fun _ h => by cases h)
          fun _ h => by cases h
        exact fun w hw _ => (List.mem_filter.mp hw).1
  rwa [List.append_nil] at hquiet

end

/-! ### Runs -/

namespace Setup

variable {s : Setup} {as : List (Action α)} {m : Moment α} {tr : Traffic}

/-- A call that has not begun has done nothing, and nothing has come back to it. -/
theorem Carries.unheard (own : OwnTickets as) (giveUp : AllGiveUp as)
    (carries : s.Carries as (between (s.log as) (s.after as)) tr) (unknown : t ∉ ticketsOf as) :
    tr.exchanges t = [] ∧ (s.log as).deeds t = [] := by
  have never : ∀ script, .start t script ∉ as := fun script hmem =>
    unknown (List.mem_filterMap.mpr ⟨_, hmem, rfl⟩)
  obtain ⟨hexchanges, -, hended⟩ := OnCourse.unheard fun S' =>
    (carries.tracked own giveUp).course t S' fun script h => (never script h).elim
  refine ⟨hexchanges, deeds_of_others fun o ho => ?_⟩
  cases o with
  | event | tearDown => rfl
  | ended call =>
    refine if_neg ?_
    rintro rfl
    exact hended call.result ho
  | request u c =>
    refine if_neg ?_
    rintro rfl
    -- a call that has not begun obeys even what nothing can meet
    have obeyed := s.obeyed (t := u) (P := fun _ _ => False) (Q := fun _ _ => False) as (by
      rintro before script later rfl
      exact (never script (by simp)).elim)
    obtain ⟨earlier, rest, split⟩ := List.append_of_mem ho
    exact obeyed earlier _ rest split rfl

/-- From the moment it begins a call accords with its script. -/
theorem Carries.accords (own : OwnTickets as) (giveUp : AllGiveUp as)
    (carries : s.Carries as m tr) {before later : List (Action α)}
    (starts : as = before ++ .start t S :: later) : Accords S (s.after before).states t m tr := by
  induction carries generalizing later with
  | start =>
    simp at starts
  | @input as tr carries a ih =>
    rcases snoc_eq_split starts with ⟨rfl, rfl, -⟩ | ⟨later', rfl, hearlier⟩
    · have unknown : t ∉ ticketsOf before := own.fresh rfl
      have hstaffed := (carries.tracked own.of_append giveUp.of_append.1).staffed
      obtain ⟨hexchanges, hdeeds⟩ := carries.unheard own.of_append giveUp.of_append.1 unknown
      refine .of_running ?_ fun there => unknown (hstaffed.calls_known t there)
      rw [hexchanges, hdeeds]
      exact .start S _
    · have hbefore := ih own.of_append giveUp.of_append.1 hearlier
      have hopened :
          Accords S (s.after before).states t (between (s.log as) (s.awaiting as a)) tr :=
        ⟨hbefore.waiting, hbefore.running, hbefore.still⟩
      refine accords_arrived (arrived_begun _ _ a) hopened ?_
      rintro script rfl
      exact (own.not_mem S).1 (by simp [hearlier])
  | next carries step ih =>
    exact accords_next (carries.tracked own giveUp).staffed carries.passes.isReplayed step
      (ih own giveUp starts)
  | drain carries ih =>
    have hbefore := ih own giveUp starts
    exact ⟨hbefore.waiting, hbefore.running, hbefore.still⟩

/-- **A call does what its script does**, in the run states that the session has. -/
theorem Carries.does (own : OwnTickets as) (giveUp : AllGiveUp as)
    (carries : s.Carries as (between (s.log as) (s.after as)) tr) {before later : List (Action α)}
    (starts : as = before ++ .start t S :: later) :
    S.Does (s.after before).states (tr.exchanges t) ((s.log as).deeds t) :=
  (carries.accords own giveUp starts).still fun _ h => by cases h

end Setup

end Session

end Pushdown
