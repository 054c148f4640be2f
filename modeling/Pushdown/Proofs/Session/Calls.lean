/-
  Pushdown/Proofs/Session/Calls.lean
  ==================================
  **Calls do what their scripts ensure.**  A call is a script whose commands wait for
  their turn while everything else goes on: lines come in, other calls are served, run
  states change.  What a script ensures from the run states in which the call starts is
  true of the call in every run (`obeyed`): of each command when it is sent, and of the
  result when the call is over.
-/
import Pushdown.Proofs.Script.Ensures
import Pushdown.Proofs.Script.GivesUp
import Pushdown.Proofs.Session.Governed
import Pushdown.Proofs.Link.History

namespace Pushdown

namespace Session

variable {α : Type} {P : RunStates → Command → Prop} {Q : RunStates → α → Prop} {t : Ticket}

/-- What happens to this call in these run states is as `P` and `Q` have it. -/
def Meets (P : RunStates → Command → Prop) (Q : RunStates → α → Prop) (t : Ticket)
    (states : RunStates) : Occurrence α → Prop
  | .request u c => u = t → P states c
  | .ended ⟨u, .ok a⟩ => u = t → Q states a
  | .ended ⟨_, .error _⟩ | .event .. | .tearDown _ => True

def Obeyed (P : RunStates → Command → Prop) (Q : RunStates → α → Prop) (t : Ticket)
    (log : Happened α) : Prop :=
  ∀ (earlier : Happened α) o later, log = earlier ++ o :: later → Meets P Q t earlier.states o

theorem Obeyed.snoc {log : Happened α} {o : Occurrence α} (obeyed : Obeyed P Q t log)
    (meets : Meets P Q t log.states o) : Obeyed P Q t (log ++ [o]) := by
  intro earlier o' later split
  rcases snoc_eq_split split with ⟨rfl, rfl, -⟩ | ⟨later', -, hlog⟩
  · exact meets
  · exact obeyed _ _ _ hlog

theorem obeyed_handleIncoming {log : Happened α} (obeyed : Obeyed P Q t log) (s : Session α)
    (item : Incoming) : Obeyed P Q t (log ++ (s.handleIncoming item).1) := by
  cases item with
  | reply | malformed => simpa [handleIncoming] using obeyed
  | event e =>
    simp only [handleIncoming, handleEvent]
    split
    · simpa using obeyed
    · exact obeyed.snoc trivial

/-- The call has obeyed up to now, and what is left of its script goes on so. -/
structure Obeys (P : RunStates → Command → Prop) (Q : RunStates → α → Prop) (t : Ticket)
    (m : Moment α) : Prop where
  log : Obeyed P Q t m.log
  replayed : IsReplayed m
  waiting : ∀ w ∈ m.session.calls, w.ticket = t →
    ∀ outcome states, (w.next outcome).Ensures P Q states
  running : ∀ script, m.running = some (t, script) → script.Ensures P Q m.session.states

/-- What the calls with this ticket ensure governs them. -/
theorem governs_ensures (P : RunStates → Command → Prop) (Q : RunStates → α → Prop) (t : Ticket) :
    Governs (fun u states script => u = t → script.Ensures P Q states)
      (fun u next => u = t → ∀ outcome states, (next outcome).Ensures P Q states) where
  looks ensures own := ensures own
  sends ensures own := (ensures own).2
  wakes ensures outcome states own := ensures own outcome states
  closes ensures own := ensures own

theorem Obeys.governed {m : Moment α} (obeys : Obeys P Q t m) :
    Governed (fun u states script => u = t → script.Ensures P Q states)
      (fun u next => u = t → ∀ outcome states, (next outcome).Ensures P Q states) m where
  waiting := obeys.waiting
  running _ script hrun own := obeys.running script (own ▸ hrun)

theorem Obeys.of_governed {m : Moment α} (obeyed : Obeyed P Q t m.log) (replayed : IsReplayed m)
    (governed : Governed (fun u states script => u = t → script.Ensures P Q states)
      (fun u next => u = t → ∀ outcome states, (next outcome).Ensures P Q states) m) :
    Obeys P Q t m :=
  ⟨obeyed, replayed, governed.waiting, fun script hrun => governed.running t script hrun rfl⟩

theorem kept_obeys : Kept (Obeys P Q t) where
  next m m' h step := by
    have hreplayed := kept_isReplayed.next m m' h.replayed step
    have hgoverned := (kept_governed (governs_ensures P Q t)).next m m' h.governed step
    refine .of_governed ?_ hreplayed hgoverned
    have hstates : m.session.states = m.log.states := h.replayed
    cases step with
    | @line log s item => exact obeyed_handleIncoming h.log s item
    | looks | turnedAway => exact h.log
    | asks =>
      refine h.log.snoc ?_
      rintro rfl
      rw [← hstates]
      exact (h.running _ rfl).1
    | closes => exact h.log.snoc trivial
    | @ends log s u result =>
      refine h.log.snoc ?_
      cases result with
      | error e => trivial
      | ok a =>
        rintro rfl
        rw [← hstates]
        exact h.running _ rfl
    | turns =>
      obtain ⟨calls, running, heq⟩ := awakened_eq _ _ _
      rw [heq]
      exact h.log
  drain log s reading h := ⟨h.log, h.replayed, h.waiting, h.running⟩

theorem obeys_arrived {log : Happened α} {s : Session α} {a : Action α} {m : Moment α}
    (arrived : Arrived log s a m) (obeys : Obeys P Q t (between log s))
    (starts : ∀ script, a = .start t script → script.Ensures P Q s.states) :
    Obeys P Q t m := by
  have hlog : Obeyed P Q t log := obeys.log
  have hgoverned := Governed.arrived arrived obeys.governed fun u script hstart own =>
    starts script (own ▸ hstart)
  refine .of_governed ?_ (isReplayed_arrived arrived obeys.replayed) hgoverned
  cases arrived with
  | streamEnds => exact hlog.snoc trivial
  | _ => exact hlog

theorem Setup.obeys (s : Setup) (as : List (Action α))
    (ensures : ∀ before script later, as = before ++ .start t script :: later →
      script.Ensures P Q (s.after before).states) :
    Obeys P Q t (between (s.log as) (s.after as)) := by
  induction as using List.reverseRecOn with
  | nil =>
    refine .of_governed ?_ rfl (.between fun w hw => by cases hw)
    intro earlier o later split
    cases earlier <;> cases split
  | append_singleton as a ih =>
    have hearlier : Obeys P Q t (between (s.log as) (s.after as)) := by
      apply ih
      intro before script later split
      -- a start in the shorter run is one in the longer run
      apply ensures before script (later ++ [a])
      rw [split, List.append_assoc, List.cons_append]
    rw [Setup.log_snoc, Setup.after_snoc]
    refine kept_obeys.step (obeys_arrived (arrived_begun _ _ a) ?_ ?_)
    · exact ⟨hearlier.log, hearlier.replayed, hearlier.waiting, hearlier.running⟩
    · rintro script rfl
      exact ensures as script [] rfl

/-- **A call does what its script ensures.** -/
theorem Setup.obeyed (s : Setup) (as : List (Action α))
    (ensures : ∀ before script later, as = before ++ .start t script :: later →
      script.Ensures P Q (s.after before).states) : Obeyed P Q t (s.log as) :=
  (s.obeys as ensures).log

/-! ### Answers at once -/

theorem runScript_of_answer? {script : Script α} {s : Session α} {result : Except Error α}
    (answer : script.answer? s.states = some result) :
    runScript t script s = ([.ended ⟨t, result⟩], s) := by
  induction script with
  | done r =>
    obtain rfl := Option.some.inj answer
    rfl
  | look next ih => exact ih _ answer
  | send turn c next => cases answer
  | close next => cases answer

/-- A call that is over as soon as it has begun leaves no trace but its end: otherwise the
    step is one in which nobody asks for anything. -/
theorem step_of_answer? {script : Script α} {s : Session α} {result : Except Error α}
    (answer : script.answer? s.states = some result) :
    let idle := s.step (.advance 0)
    s.step (.start t script) = (⟨idle.1.sent, .ended ⟨t, result⟩ :: idle.1.happened⟩, idle.2) := by
  have hperform : ∀ link, runScript t script { s with link } =
      ([.ended ⟨t, result⟩], { s with link }) := fun link => runScript_of_answer? answer
  simp only [step, perform, hperform]
  rfl

/-! ### Questions at once -/

theorem runScript_of_opening {script : Script α} {x : Session α} {c : Command}
    {next : Except Error Payload → Script α}
    (first : script.opening? x.states = some ⟨.wait, c, next⟩) (isOpen : x.link.closed = false) :
    runScript t script x = ([.request t c],
      { x with link := x.link.enqueue ⟨t, .command c⟩, calls := x.calls ++ [⟨t, next⟩] }) := by
  induction script with
  | done | close => cases first
  | look more ih => exact ih _ first
  | send turn c' next' =>
    obtain ⟨rfl, rfl, rfl⟩ := Script.Opening.mk.inj (Option.some.inj first)
    simp [runScript, Link.refusal?, isOpen]

/-- A call that begins with a question asks it before anything else happens. -/
theorem step_of_opening {script : Script α} {x : Session α} {c : Command}
    {next : Except Error Payload → Script α}
    (first : script.opening? x.states = some ⟨.wait, c, next⟩) (isOpen : x.link.closed = false) :
    ∃ later, (x.step (.start t script)).1.happened = .request t c :: later := by
  have hperform : (({ x with link := x.link.setReading x.link.pipe.reading } : Session α).perform
      (.start t script)).1 = [.request t c] :=
    congrArg Prod.fst (runScript_of_opening first isOpen)
  simp only [step, Action.isRead, Bool.or_false, hperform]
  exact ⟨_, rfl⟩

/-! ### One call per ticket -/

/-- The call that the input begins, if it begins one. -/
def Action.ticket? : Action α → Option Ticket
  | .start t _ => some t
  | _ => none

/-- No two calls go by the same ticket. -/
def OwnTickets (as : List (Action α)) : Prop := (as.filterMap Action.ticket?).Nodup

instance (as : List (Action α)) : Decidable (OwnTickets as) :=
  inferInstanceAs (Decidable (List.Nodup _))

theorem OwnTickets.not_mem {before later : List (Action α)} {script : Script α}
    (own : OwnTickets (before ++ .start t script :: later)) (script' : Script α) :
    .start t script' ∉ before ∧ .start t script' ∉ later := by
  have hticket : (Action.start t script').ticket? = some t := rfl
  rw [OwnTickets, List.filterMap_append, List.nodup_append] at own
  constructor
  · intro hmem
    have hbefore := List.mem_filterMap.mpr ⟨_, hmem, hticket⟩
    exact own.2.2 t hbefore t List.mem_cons_self rfl
  · intro hmem
    have hlater := List.mem_filterMap.mpr ⟨_, hmem, hticket⟩
    exact (List.nodup_cons.mp own.2.1).1 hlater

/-- A call begins at one place only. -/
theorem OwnTickets.unique {before later before' later' : List (Action α)}
    {script script' : Script α} (own : OwnTickets (before ++ .start t script :: later))
    (split : before ++ .start t script :: later = before' ++ .start t script' :: later') :
    before' = before ∧ script' = script := by
  obtain ⟨hbefore, hlater⟩ := own.not_mem script'
  rcases List.append_eq_append_iff.mp split with ⟨between, hmore, hrest⟩ | ⟨between, hmore, hrest⟩
  · cases between with
    | nil =>
      cases hrest
      exact ⟨by simpa using hmore, rfl⟩
    | cons b between =>
      obtain ⟨-, rfl⟩ := List.cons.inj hrest
      exact (hlater (List.mem_append_right _ List.mem_cons_self)).elim
  · cases between with
    | nil =>
      cases hrest
      exact ⟨by simpa using hmore.symm, rfl⟩
    | cons b between =>
      obtain ⟨rfl, -⟩ := List.cons.inj hrest
      rw [hmore] at hbefore
      exact (hbefore (List.mem_append_right _ List.mem_cons_self)).elim

/-- A call that has its ticket to itself does what its script ensures. -/
theorem Setup.obeyed_start (s : Setup) {before later : List (Action α)} {script : Script α}
    (own : OwnTickets (before ++ .start t script :: later))
    (ensures : script.Ensures P Q (s.after before).states) :
    Obeyed P Q t (s.log (before ++ .start t script :: later)) := by
  apply s.obeyed
  intro before' script' later' split
  obtain ⟨rfl, rfl⟩ := own.unique split
  exact ensures

/-- Nothing happens to a call before it begins. -/
theorem Setup.log_of_start (s : Setup) {before later : List (Action α)} {script : Script α}
    (own : OwnTickets (before ++ .start t script :: later)) {earlier rest : Happened α}
    {o : Occurrence α}
    (split : s.log (before ++ .start t script :: later) = earlier ++ o :: rest)
    (concerned : ∀ states, ¬Meets (fun _ _ => False) (fun _ _ => False) t states o) :
    ∃ mid, earlier = s.log before ++ mid := by
  rw [s.log_append] at split
  rcases List.append_eq_append_iff.mp split with ⟨mid, hmid, -⟩ | ⟨left, hbefore, hrest⟩
  · exact ⟨mid, hmid⟩
  · cases left with
    | nil => exact ⟨[], by simpa using hbefore.symm⟩
    | cons o' left =>
      obtain ⟨rfl, -⟩ := List.cons.inj hrest
      -- a call that has not begun obeys even what nothing can meet
      have hobeyed := s.obeyed (t := t) (P := fun _ _ => False) (Q := fun _ _ => False) before
        (by
          intro first script' later' hstart
          refine ((own.not_mem script').1 ?_).elim
          rw [hstart]
          exact List.mem_append_right _ List.mem_cons_self)
      exact (concerned _ (hobeyed _ _ _ hbefore)).elim

end Session

end Pushdown
