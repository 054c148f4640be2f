/-
  Pushdown/Proofs/Script/Ensures.lean
  ===================================
  **What a script makes sure of.**  Between a script's commands anything can happen: the
  outcome of a command is any outcome, and it finds any run states.  What a script
  ensures all the same, it ensures by looking.

  `Ensures P Q` follows the script from the run states in which it starts: every command
  is sent in run states that `P` allows, and every result is reached in run states that
  go with it by `Q`.  Nothing is asked of failures.
-/
import Pushdown.Script

namespace Pushdown

namespace Script

variable {α β : Type} {P : RunStates → Command → Prop} {Q : RunStates → α → Prop}
  {s : RunStates}

def Ensures (P : RunStates → Command → Prop) (Q : RunStates → α → Prop) :
    Script α → RunStates → Prop
  | done (.ok a), s => Q s a
  | done (.error _), _ => True
  | look next, s => (next s).Ensures P Q s
  | send _ c next, s => P s c ∧ ∀ outcome s', (next outcome).Ensures P Q s'
  | close next, s => next.Ensures P Q s.terminated

theorem Ensures.mono {script : Script α} {Q' : RunStates → α → Prop}
    (ensures : script.Ensures P Q s) (weaker : ∀ s a, Q s a → Q' s a) :
    script.Ensures P Q' s := by
  induction script generalizing s with
  | done result =>
    cases result with
    | ok a => exact weaker s a ensures
    | error e => trivial
  | look next ih => exact ih s ensures
  | send turn c next ih => exact ⟨ensures.1, fun outcome s' => ih outcome (ensures.2 outcome s')⟩
  | close next ih => exact ih ensures

/-! ### Sequencing -/

theorem ensures_bind (script : Script α) (k : α → Script β) {Q : RunStates → β → Prop}
    {s : RunStates} : (script >>= k).Ensures P Q s ↔
      script.Ensures P (fun s a => (k a).Ensures P Q s) s := by
  change (script.bind k).Ensures P Q s ↔ _
  induction script generalizing s with
  | done result =>
    cases result with
    | ok a => exact Iff.rfl
    | error e => exact Iff.rfl
  | look next ih => exact ih s
  | send turn c next ih =>
    constructor
    · intro h
      exact ⟨h.1, fun outcome s' => (ih outcome).mp (h.2 outcome s')⟩
    · intro h
      exact ⟨h.1, fun outcome s' => (ih outcome).mpr (h.2 outcome s')⟩
  | close next ih => exact ih

theorem ensures_map (f : α → β) (script : Script α) {Q : RunStates → β → Prop} :
    (f <$> script).Ensures P Q s ↔ script.Ensures P (fun s a => Q s (f a)) s :=
  ensures_bind script (fun a => pure (f a))

/-! ### Steps -/

/-- What can be read of a reply is read, and nothing is known of it. -/
theorem ensures_lift (x : Except Error α) :
    (liftM x : Script α).Ensures P Q s ↔ ∀ a, x = .ok a → Q s a := by
  constructor
  · rintro h a rfl
    exact h
  · intro h
    cases x with
    | ok a => exact h a rfl
    | error e => trivial

theorem ensures_request (c : Command) {Q : RunStates → Payload → Prop} :
    (request c).Ensures P Q s ↔ P s c ∧ ∀ s' payload, Q s' payload := by
  constructor
  · intro h
    exact ⟨h.1, fun s' payload => h.2 (.ok payload) s'⟩
  · rintro ⟨hc, hq⟩
    refine ⟨hc, fun outcome s' => ?_⟩
    cases outcome with
    | ok payload => exact hq s' payload
    | error e => trivial

theorem ensures_require (t : ThreadId) (epoch : Option Nat) {Q : RunStates → Nat → Prop} :
    (require t epoch).Ensures P Q s ↔ ∀ e, s.requireSuspended t epoch = .ok e → Q s e := by
  change (done _).Ensures P Q s ↔ _
  cases s.requireSuspended t epoch with
  | ok e =>
    constructor
    · rintro h _ ⟨⟩
      exact h
    · intro h
      exact h e rfl
  | error fault =>
    constructor
    · rintro - e ⟨⟩
    · intro _
      trivial

/-! ### Answers at once -/

/-- What the script comes to if it comes to it by looking alone. -/
def answer? : Script α → RunStates → Option (Except Error α)
  | done result, _ => some result
  | look next, s => (next s).answer? s
  | send .., _ | close _, _ => none

theorem answer?_bind {script : Script α} {e : Error} (k : α → Script β)
    (failed : script.answer? s = some (.error e)) : (script >>= k).answer? s = some (.error e) := by
  change (script.bind k).answer? s = _
  induction script with
  | done result =>
    obtain rfl := Option.some.inj failed
    rfl
  | look next ih => exact ih s failed
  | send turn c next => cases failed
  | close next => cases failed

theorem answer?_require {t : ThreadId} {epoch : Option Nat} {fault : StateFault}
    (refused : s.requireSuspended t epoch = .error fault) :
    (require t epoch).answer? s = some (.error (.invalidState fault)) := by
  change some (Except.mapError _ _) = _
  rw [refused]
  rfl

end Script

end Pushdown
