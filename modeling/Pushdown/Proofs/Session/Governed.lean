/-
  Pushdown/Proofs/Session/Governed.lean
  =====================================
  **What is true of the calls while they go on.**  A call goes on when its command is over,
  and by then everything else may have changed.  What can be said of it at all times is
  said of its script: of what is left of it while it runs, and of the continuation with
  which it waits.  `Governs` lists what such a property has to keep; then it is true of
  the calls of every run (`Setup.governed`).
-/
import Pushdown.Proofs.Session.History

namespace Pushdown

namespace Session

variable {α : Type}

/-- A property of what is left of a call, in the run states in which the call goes on, and
    one of how a call goes on that waits for a command: each step of a call leads from the
    one to the other. -/
structure Governs (R : Ticket → RunStates → Script α → Prop)
    (W : Ticket → (Except Error Payload → Script α) → Prop) : Prop where
  looks : ∀ {t states next}, R t states (.look next) → R t states (next states)
  sends : ∀ {t states turn c next}, R t states (.send turn c next) → W t next
  wakes : ∀ {t next}, W t next → ∀ outcome states, R t states (next outcome)
  closes : ∀ {t states next}, R t states (.close next) → R t states.terminated next

structure Governed (R : Ticket → RunStates → Script α → Prop)
    (W : Ticket → (Except Error Payload → Script α) → Prop) (m : Moment α) : Prop where
  waiting : ∀ w ∈ m.session.calls, W w.ticket w.next
  running : ∀ t script, m.running = some (t, script) → R t m.session.states script

namespace Governed

variable {R : Ticket → RunStates → Script α → Prop}
  {W : Ticket → (Except Error Payload → Script α) → Prop} {log : Happened α} {x : Session α}

theorem between (waiting : ∀ w ∈ x.calls, W w.ticket w.next) :
    Governed R W (between log x) where
  waiting := waiting
  running t script hrun := by cases hrun

theorem of_running {t : Ticket} {script : Script α} (waiting : ∀ w ∈ x.calls, W w.ticket w.next)
    (goesOn : R t x.states script) : Governed R W ⟨log, x, [], some (t, script)⟩ where
  waiting := waiting
  running u next hrun := by
    obtain ⟨rfl, rfl⟩ := Prod.mk.inj (Option.some.inj hrun)
    exact goesOn

theorem awakened (governs : Governs R W) (governed : Governed R W (Session.between log x))
    (finished : Option Finished) : Governed R W (awakened log x finished) where
  waiting w hw := governed.waiting w (awakened_calls hw)
  running t script hrun := by
    obtain ⟨result, w, -, hw, rfl, rfl⟩ := awakened_running hrun
    obtain ⟨calls, running, heq⟩ := awakened_eq log x finished
    rw [heq]
    exact governs.wakes (governed.waiting w hw) _ _

theorem arrived {a : Action α} {m : Moment α} (arrived : Arrived log x a m)
    (governed : Governed R W (Session.between log x))
    (starts : ∀ t script, a = .start t script → R t x.states script) : Governed R W m := by
  have hwaiting := governed.waiting
  cases arrived with
  | lines => exact ⟨hwaiting, fun t script hrun => by cases hrun⟩
  | starts => exact .of_running hwaiting (starts _ _ rfl)
  | leaves =>
    refine .between ?_
    intro w hw
    exact hwaiting w (List.mem_filter.mp hw).1
  | _ => exact .between hwaiting

end Governed

variable {R : Ticket → RunStates → Script α → Prop}
  {W : Ticket → (Except Error Payload → Script α) → Prop}

theorem kept_governed (governs : Governs R W) : Kept (Governed R W) where
  next m m' h step := by
    cases step with
    | @line log x item =>
      refine ⟨?_, fun t script hrun => by cases hrun⟩
      rw [handleIncoming_calls]
      exact h.waiting
    | looks => exact .of_running h.waiting (governs.looks (h.running _ _ rfl))
    | turnedAway =>
      have hsends := governs.sends (h.running _ _ rfl)
      exact .of_running h.waiting (governs.wakes hsends _ _)
    | asks =>
      refine .between ?_
      intro w hw
      rcases List.mem_append.mp hw with hbefore | hnew
      · exact h.waiting w hbefore
      · obtain rfl := List.mem_singleton.mp hnew
        exact governs.sends (h.running _ _ rfl)
    | closes => exact .of_running h.waiting (governs.closes (h.running _ _ rfl))
    | ends => exact .between h.waiting
    | @turns log x =>
      have hlink : Governed R W (between log { x with link := x.link.turn.2 }) :=
        .between h.waiting
      exact hlink.awakened governs _
  drain log x reading h := .between h.waiting

theorem Setup.governed (s : Setup) (governs : Governs R W) (as : List (Action α))
    (starts : ∀ before t script later, as = before ++ .start t script :: later →
      R t (s.after before).states script) :
    Governed R W (between (s.log as) (s.after as)) := by
  induction as using List.reverseRecOn with
  | nil => exact .between fun w hw => by cases hw
  | append_singleton as a ih =>
    have hearlier : Governed R W (between (s.log as) (s.after as)) := by
      apply ih
      intro before t script later split
      -- a start in the shorter run is one in the longer run
      apply starts before t script (later ++ [a])
      rw [split, List.append_assoc, List.cons_append]
    rw [Setup.log_snoc, Setup.after_snoc]
    refine (kept_governed governs).step (.arrived (arrived_begun _ _ a) ?_ ?_)
    · exact .between hearlier.waiting
    · rintro t script rfl
      exact starts as t script [] rfl

end Session

end Pushdown
