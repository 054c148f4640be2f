/-
  Pushdown/Proofs/Session/History.lean
  ====================================
  **Runs of a session.**  A session starts with a pipe and settings and takes one input
  after the other; its log holds all that has happened.  `Setup.induction` proves a
  property of all runs: it holds at the start, it does not break when an input arrives,
  and it is kept within an input.

  The first use is that the run states are a replay of the log (`states_after`): nothing
  changes them but the events that have been taken in and the end of the session.
-/
import Mathlib.Data.List.Induction
import Pushdown.Proofs.RunStates.Epochs
import Pushdown.Proofs.Session.Moments

namespace Pushdown

deriving instance DecidableEq for Ended

deriving instance DecidableEq for Occurrence

namespace Session

/-- What a run starts from. -/
structure Setup where
  capacity : Nat
  reading : Bool
  settings : Settings

variable {α : Type}

theorem run_append (s : Session α) (as bs : List (Action α)) :
    s.run (as ++ bs) = ((s.run as).1 ++ ((s.run as).2.run bs).1, ((s.run as).2.run bs).2) := by
  induction as generalizing s with
  | nil => rfl
  | cons a as ih => simp only [List.cons_append, run, ih]

namespace Setup

variable (s : Setup)

def session (α : Type) : Session α := Session.new (Pipe.new s.capacity s.reading) s.settings

/-- The session after the inputs. -/
def after (as : List (Action α)) : Session α := ((s.session α).run as).2

def reports (as : List (Action α)) : List (Report α) := ((s.session α).run as).1

/-- All that happens in the run, in order. -/
def log (as : List (Action α)) : Happened α :=
  ((s.session α).run as).1.flatMap Report.happened

def deliveries (as : List (Action α)) : List Delivery := (s.log as).deliveries

/-- The bytes the VM has read. -/
def sent (as : List (Action α)) : List UInt8 :=
  ((s.session α).run as).1.flatMap Report.sent

theorem after_append (as bs : List (Action α)) :
    s.after (as ++ bs) = ((s.after as).run bs).2 := by
  simp only [after, run_append]

theorem reports_append (as bs : List (Action α)) :
    s.reports (as ++ bs) = s.reports as ++ ((s.after as).run bs).1 := by
  simp only [reports, after, run_append]

theorem log_append (as bs : List (Action α)) :
    s.log (as ++ bs) = s.log as ++ ((s.after as).run bs).1.flatMap Report.happened := by
  simp only [log, after, run_append, List.flatMap_append]

theorem after_snoc (as : List (Action α)) (a : Action α) :
    s.after (as ++ [a]) = ((s.after as).step a).2 := by
  rw [after_append]
  rfl

theorem log_snoc (as : List (Action α)) (a : Action α) :
    s.log (as ++ [a]) = s.log as ++ ((s.after as).step a).1.happened := by
  rw [log_append]
  simp [run]

/-- What holds at the start, does not break when an input arrives, and is kept within
    each input, holds after every run. -/
theorem induction {P : List (Action α) → Moment α → Prop}
    (start : P [] (between [] (s.session α)))
    (input : ∀ as a reading m, P as (between (s.log as) (s.after as)) →
      Arrived (s.log as) { s.after as with link := (s.after as).link.setReading reading } a m →
      P (as ++ [a]) m)
    (kept : ∀ as, Kept (P as)) (as : List (Action α)) :
    P as (between (s.log as) (s.after as)) := by
  induction as using List.reverseRecOn with
  | nil => exact start
  | append_singleton as a ih =>
    rw [log_snoc, after_snoc]
    exact (kept _).step (input as a _ _ ih (arrived_begun _ _ a))

end Setup

end Session

/-! ### Run states -/

namespace Happened

variable {α : Type}

open RunStates (Change)

/-- What the occurrence changes of the run states. -/
def changeOf? : Occurrence α → Option Change
  | .event e _ => some (.event e)
  | .tearDown _ => some .terminate
  | .request .. | .ended _ => none

def changes (h : Happened α) : List Change := h.filterMap changeOf?

/-- What the occurrence has to say to the listeners. -/
def eventOf? : Occurrence α → Option Event
  | .event e _ => some e
  | .tearDown _ => some .terminated
  | .request .. | .ended _ => none

/-- The events taken in, and a `terminated` for every time that the session is torn down. -/
def announced (h : Happened α) : List Event := h.filterMap eventOf?

/-- The run states of a session in which all this has happened. -/
def states (h : Happened α) : RunStates := RunStates.new.opened.changeAll h.changes

theorem deliveries_append (h k : Happened α) :
    deliveries (h ++ k) = h.deliveries ++ k.deliveries :=
  List.flatMap_append

theorem announced_append (h k : Happened α) :
    announced (h ++ k) = h.announced ++ k.announced :=
  List.filterMap_append

theorem changes_append (h k : Happened α) : changes (h ++ k) = h.changes ++ k.changes :=
  List.filterMap_append

theorem states_append (h k : Happened α) : states (h ++ k) = h.states.changeAll k.changes := by
  rw [states, changes_append, RunStates.changeAll, List.foldl_append]
  rfl

theorem isBounded_states (h : Happened α) : h.states.IsBounded :=
  (RunStates.isBounded_new.change .open).changeAll _

end Happened

namespace Session

variable {α : Type}

/-- The run states are a replay of the log. -/
def IsReplayed (m : Moment α) : Prop := m.session.states = m.log.states

theorem isReplayed_tearDown {log : Happened α} {s : Session α} (replayed : s.states = log.states) :
    s.tearDown.2.states = Happened.states (log ++ s.tearDown.1) := by
  rw [Happened.states_append, tearDown_states, replayed]
  rfl

theorem isReplayed_handleIncoming {log : Happened α} {s : Session α} (item : Incoming)
    (replayed : s.states = log.states) :
    (s.handleIncoming item).2.states = Happened.states (log ++ (s.handleIncoming item).1) := by
  rw [Happened.states_append]
  cases item with
  | reply | malformed => exact replayed
  | event e =>
    simp only [handleIncoming, handleEvent]
    split
    · exact replayed
    · rw [← replayed]
      rfl

theorem kept_isReplayed : Kept (IsReplayed (α := α)) where
  next m m' h step := by
    cases step with
    | line => exact isReplayed_handleIncoming _ h
    | closes => exact isReplayed_tearDown h
    | looks | turnedAway => exact h
    | asks | ends =>
      change _ = Happened.states (_ ++ _)
      rw [Happened.states_append]
      exact h
    | turns =>
      obtain ⟨calls, running, heq⟩ := awakened_eq _ _ _
      rw [heq]
      exact h
  drain log s reading h := h

theorem isReplayed_arrived {log : Happened α} {s : Session α} {a : Action α} {m : Moment α}
    (arrived : Arrived log s a m) (replayed : s.states = log.states) : IsReplayed m := by
  cases arrived with
  | streamEnds => exact isReplayed_tearDown replayed
  | _ => exact replayed

theorem Setup.states_after (s : Setup) (as : List (Action α)) :
    (s.after as).states = (s.log as).states :=
  s.induction (P := fun _ => IsReplayed) rfl
    (fun _ _ _ _ replayed arrived => isReplayed_arrived arrived replayed)
    (fun _ => kept_isReplayed) as

end Session

end Pushdown
