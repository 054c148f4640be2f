/-
  Pushdown/Proofs/Script/Deeds.lean
  =================================
  **What a script does, and when.**  A call can be watched from outside.  It asks for the
  writer, again and again, and at last it is over: these are its *deeds*, each done in the
  run states of its moment.  `Does` says which deeds a script can do, begun in given run
  states, when this is what comes of its commands.  When the script looks, it sees the run
  states of that very moment; only while it waits for a command may they change.

  A command that is turned away is an exchange without a deed.  A call that still waits, or
  has been left by its caller, has asked and gone no further.
-/
import Pushdown.Proofs.Script.Course

namespace Pushdown

/-- One thing that a call does for others to see. -/
inductive Deed (α : Type) where
  | asked (c : Command)
  | ended (result : Except Error α)

/-- What a call does, one thing after the other, each with the run states of the moment. -/
abbrev Deeds (α : Type) := List (RunStates × Deed α)

namespace Script

variable {α : Type}

/-- Begun in these run states, the script can do this up to now, with these exchanges. -/
def Does : Script α → RunStates → Exchanges → Deeds α → Prop
  | done result, s, es, ds => es = [] ∧ ds = [(s, .ended result)]
  | look next, s, es, ds => (next s).Does s es ds
  | send _ c next, s, es, ds =>
    (es = [] ∧ ds = [(s, .asked c)]) ∨
    (∃ outcome rest s' later, es = (c, outcome) :: rest ∧ ds = (s, .asked c) :: later ∧
      (next outcome).Does s' rest later) ∨
    ∃ e rest, es = (c, .error e) :: rest ∧ (next (.error e)).Does s rest ds
  | close next, s, es, ds => next.Does s.terminated es ds

/-- After these exchanges and deeds this is left of the script, in run states `s`. -/
def LeftAt (x : Script α) (s₀ : RunStates) (es : Exchanges) (ds : Deeds α) (y : Script α)
    (s : RunStates) : Prop :=
  ∀ rest later, y.Does s rest later → x.Does s₀ (es ++ rest) (ds ++ later)

namespace LeftAt

variable {x : Script α} {s₀ s : RunStates} {es : Exchanges} {ds : Deeds α} {turn : Turn}
  {c : Command} {next : Except Error Payload → Script α}

theorem start (x : Script α) (s : RunStates) : x.LeftAt s [] [] x s := fun _ _ does => does

theorem look {next : RunStates → Script α} (left : x.LeftAt s₀ es ds (.look next) s) :
    x.LeftAt s₀ es ds (next s) s :=
  left

theorem close {next : Script α} (left : x.LeftAt s₀ es ds (.close next) s) :
    x.LeftAt s₀ es ds next s.terminated :=
  left

theorem done {result : Except Error α} (left : x.LeftAt s₀ es ds (.done result) s) :
    x.Does s₀ es (ds ++ [(s, .ended result)]) := by
  have hdoes := left [] _ ⟨rfl, rfl⟩
  rwa [List.append_nil] at hdoes

/-- The script has asked, and nothing has come of it yet. -/
theorem asks (left : x.LeftAt s₀ es ds (.send turn c next) s) :
    x.Does s₀ es (ds ++ [(s, .asked c)]) := by
  have hdoes := left [] _ (.inl ⟨rfl, rfl⟩)
  rwa [List.append_nil] at hdoes

/-- When something comes of it, the run states may be others. -/
theorem goesOn (left : x.LeftAt s₀ es ds (.send turn c next) s) (outcome : Except Error Payload)
    (s' : RunStates) :
    x.LeftAt s₀ (es ++ [(c, outcome)]) (ds ++ [(s, .asked c)]) (next outcome) s' := by
  intro rest later does
  have hdoes := left _ _ (.inr (.inl ⟨outcome, rest, s', later, rfl, rfl, does⟩))
  simpa using hdoes

theorem turnedAway (left : x.LeftAt s₀ es ds (.send turn c next) s) (e : Error) :
    x.LeftAt s₀ (es ++ [(c, .error e)]) ds (next (.error e)) s := by
  intro rest later does
  have hdoes := left _ _ (.inr (.inr ⟨e, rest, rfl, does⟩))
  simpa using hdoes

end LeftAt

end Script

end Pushdown
