/-
  Pushdown/Proofs/Script/GivesUp.lean
  ===================================
  **After a failure nothing more is sent.**  A call whose command has failed has no
  business left with the VM: it may look around and close the session, but it sends no
  further command.  A session relies on this when it lets everything happen that can
  happen, since otherwise one call could go on failing for ever.

  Sequencing does not keep this by itself, for the first part could make a success of a
  failure and the second part go on from there.  Most scripts never do that: a failure of
  a command is theirs at once (`Script.IsSteady`), and this is kept by sequencing.

  A script that is about to send has found its command by looking alone: `opening?`.
-/
import Pushdown.Script

namespace Pushdown

namespace Script

variable {α β : Type}

/-- The script sends nothing, and its result is one of these. -/
def EndsWith (Q : Except Error α → Prop) : Script α → Prop
  | done result => Q result
  | look next => ∀ s, (next s).EndsWith Q
  | send .. => False
  | close next => next.EndsWith Q

/-- After a command has failed the script ends without sending another, with one of these
    results. -/
def GivesUpWith (Q : Except Error α → Prop) : Script α → Prop
  | done _ => True
  | look next => ∀ s, (next s).GivesUpWith Q
  | send _ _ next =>
    (∀ e, (next (.error e)).EndsWith Q) ∧ ∀ payload, (next (.ok payload)).GivesUpWith Q
  | close next => next.GivesUpWith Q

/-- Any result will do. -/
abbrev Anyhow (_ : Except Error α) : Prop := True

def NeverSends (script : Script α) : Prop := script.EndsWith Anyhow

def GivesUp (script : Script α) : Prop := script.GivesUpWith Anyhow

/-! ### Sequencing -/

theorem NeverSends.bind {x : Script α} {k : α → Script β} (first : x.NeverSends)
    (rest : ∀ a, (k a).NeverSends) : (x >>= k).NeverSends := by
  change (x.bind k).NeverSends
  induction x with
  | done result =>
    cases result with
    | ok a => exact rest a
    | error e => trivial
  | look next ih =>
    intro s
    exact ih s (first s)
  | send => exact first.elim
  | close next ih => exact ih first

theorem NeverSends.map {x : Script α} (f : α → β) (never : x.NeverSends) :
    (f <$> x).NeverSends :=
  never.bind fun _ => trivial

/-- What is made of the result does not matter. -/
theorem GivesUp.map {x : Script α} (f : α → β) (givesUp : x.GivesUp) : (f <$> x).GivesUp := by
  change (x.bind fun a => done (.ok (f a))).GivesUp
  induction x with
  | done result =>
    cases result with
    | ok a => trivial
    | error e => trivial
  | look next ih =>
    intro s
    exact ih s (givesUp s)
  | send turn c next ih =>
    constructor
    · intro e
      exact NeverSends.map f (givesUp.1 e)
    · intro payload
      exact ih _ (givesUp.2 payload)
  | close next ih => exact ih givesUp

theorem NeverSends.givesUp {x : Script α} (never : x.NeverSends) : x.GivesUp := by
  induction x with
  | done result => trivial
  | look next ih =>
    intro s
    exact ih s (never s)
  | send => exact never.elim
  | close next ih => exact ih never

/-! ### The first command -/

/-- A command that a call is about to send, and how it goes on. -/
structure Opening (α : Type) where
  turn : Turn
  command : Command
  next : Except Error Payload → Script α

/-- What the script sends first if it comes to it by looking alone. -/
def opening? : Script α → RunStates → Option (Opening α)
  | look next, s => (next s).opening? s
  | send turn c next, _ => some ⟨turn, c, next⟩
  | done _, _ | close _, _ => none

theorem opening?_bind {x : Script α} {s : RunStates} {o : Opening α} (k : α → Script β)
    (first : x.opening? s = some o) :
    (x >>= k).opening? s = some ⟨o.turn, o.command, fun r => o.next r >>= k⟩ := by
  change (x.bind k).opening? s = _
  induction x with
  | done | close => cases first
  | look next ih => exact ih s first
  | send turn c next =>
    obtain rfl := Option.some.inj first
    rfl

end Script

end Pushdown
