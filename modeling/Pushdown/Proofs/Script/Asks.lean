/-
  Pushdown/Proofs/Script/Asks.lean
  ================================
  **Scripts that ask one thing.**  Most operations look, ask the VM for one thing, look
  again and work out their result.  `Asks` says of such a script what it asks for and what
  it comes to, given the outcome and the run states before and after.  It is put together
  like the script itself: what comes before the question only looks (`Asks.after`), and so
  does what comes after it (`Asks.bind`).
-/
import Pushdown.Proofs.Script.Ensures
import Pushdown.Proofs.Script.GivesUp

namespace Pushdown

namespace Script

variable {α β : Type} {s s' : RunStates} {c : Command} {outcome : Except Error Payload}

/-- Begun in run states `s`, the script asks for `c` and, whatever comes of it, for nothing
    else.  If this outcome comes of it, and the run states are `s'` by then, the script
    comes to this result. -/
def Asks (script : Script α) (s : RunStates) (c : Command) (outcome : Except Error Payload)
    (s' : RunStates) (result : Except Error α) : Prop :=
  ∃ next, script.opening? s = some ⟨.wait, c, next⟩ ∧ (∀ other, (next other).NeverSends) ∧
    (next outcome).answer? s' = some result

theorem NeverSends.ensures {x : Script α} (never : x.NeverSends) (s : RunStates)
    {P : RunStates → Command → Prop} : x.Ensures P (fun _ _ => True) s := by
  induction x generalizing s with
  | done result => cases result <;> trivial
  | look next ih => exact ih s (never s) s
  | send => exact never.elim
  | close next ih => exact ih never _

/-- The question is the only one. -/
theorem Asks.ensures {x : Script α} {result : Except Error α} (asks : x.Asks s c outcome s' result) :
    x.Ensures (fun _ d => d = c) (fun _ _ => True) s := by
  obtain ⟨next, first, never, -⟩ := asks
  induction x generalizing next with
  | done | close => cases first
  | look more ih => exact ih s next first never
  | send turn d next' =>
    obtain ⟨rfl, rfl, rfl⟩ := Opening.mk.inj (Option.some.inj first)
    exact ⟨rfl, fun other s' => (never other).ensures s'⟩

theorem asks_request (c : Command) : (request c).Asks s c outcome s' outcome :=
  ⟨done, rfl, fun _ => trivial, rfl⟩

/-! ### Before and after the question -/

theorem answer?_bind_ok {x : Script α} {a : α} (k : α → Script β)
    (first : x.answer? s = some (.ok a)) : (x >>= k).answer? s = (k a).answer? s := by
  change (x.bind k).answer? s = _
  induction x with
  | done result =>
    obtain rfl := Option.some.inj first
    rfl
  | look next ih => exact ih s first
  | send | close => cases first

theorem opening?_bind_ok {x : Script α} {a : α} (k : α → Script β)
    (first : x.answer? s = some (.ok a)) : (x >>= k).opening? s = (k a).opening? s := by
  change (x.bind k).opening? s = _
  induction x with
  | done result =>
    obtain rfl := Option.some.inj first
    rfl
  | look next ih => exact ih s first
  | send | close => cases first

namespace Asks

variable {x : Script α} {k : α → Script β} {a : α} {result : Except Error β}

/-- First the script looks, and then it asks. -/
theorem after (looked : x.answer? s = some (.ok a)) (asks : (k a).Asks s c outcome s' result) :
    (x >>= k).Asks s c outcome s' result := by
  obtain ⟨next, first, never, answer⟩ := asks
  exact ⟨next, (opening?_bind_ok k looked).trans first, never, answer⟩

/-- First the script asks, and then it looks. -/
theorem bind (asks : x.Asks s c outcome s' (.ok a)) (never : ∀ a, (k a).NeverSends)
    (answer : (k a).answer? s' = some result) : (x >>= k).Asks s c outcome s' result := by
  obtain ⟨next, first, hnever, hanswer⟩ := asks
  refine ⟨fun r => next r >>= k, opening?_bind k first, ?_, ?_⟩
  · intro other
    exact (hnever other).bind never
  · rw [answer?_bind_ok k hanswer, answer]

/-- A failure is passed on by what comes after it. -/
theorem bind_error {e : Error} (asks : x.Asks s c outcome s' (.error e))
    (never : ∀ a, (k a).NeverSends) : (x >>= k).Asks s c outcome s' (.error e) := by
  obtain ⟨next, first, hnever, hanswer⟩ := asks
  refine ⟨fun r => next r >>= k, opening?_bind k first, ?_, answer?_bind k hanswer⟩
  intro other
  exact (hnever other).bind never

theorem map {result : Except Error α} (asks : x.Asks s c outcome s' result) (f : α → β) :
    (f <$> x).Asks s c outcome s' (result.map f) := by
  cases result with
  | ok a => exact asks.bind (fun _ => trivial) rfl
  | error e => exact asks.bind_error fun _ => trivial

end Asks

/-! ### Looking -/

theorem answer?_require_ok {t : ThreadId} {epoch : Option Nat} {e : Nat}
    (found : s.requireSuspended t epoch = .ok e) :
    (require t epoch).answer? s = some (.ok e) := by
  change some (Except.mapError _ _) = _
  rw [found]
  rfl

theorem neverSends_lift (x : Except Error α) : (liftM x : Script α).NeverSends := trivial

theorem neverSends_require (t : ThreadId) (epoch : Option Nat) : (require t epoch).NeverSends :=
  fun _ => trivial

end Script

end Pushdown
