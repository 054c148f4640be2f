/-
  Pushdown/Proofs/Script/Course.lean
  ==================================
  **What a script can come to.**  Every time a script sends a command something comes of
  it.  The commands and what came of them are the *exchanges* of the script, and they
  decide, together with the run states it finds when it looks, how it goes on.
  `Comes` says which exchanges a script can go through and with which result; for a script
  in two parts the parts can be looked at one by one (`comes_bind`).

  A call that is not over yet has gone through some exchanges and has the rest before it:
  `Leaves`.
-/
import Pushdown.Proofs.Script.GivesUp

namespace Pushdown

/-- The commands of a call with what came of them, in order. -/
abbrev Exchanges := List (Command × Except Error Payload)

/-- Every command went well. -/
def Exchanges.AllOk (es : Exchanges) : Prop := ∀ c e, (c, .error e) ∉ es

namespace Script

variable {α β : Type}

/-- The script can go through these exchanges and come to this result. -/
def Comes : Script α → Exchanges → Except Error α → Prop
  | done result, es, r => es = [] ∧ r = result
  | look next, es, r => ∃ s, (next s).Comes es r
  | send _ c next, es, r =>
    ∃ outcome rest, es = (c, outcome) :: rest ∧ (next outcome).Comes rest r
  | close next, es, r => next.Comes es r

/-- Whatever is done with it, a script comes to an end, even if all its commands fail. -/
theorem exists_comes (x : Script α) : ∃ es r, x.Comes es r ∧ ∀ c payload, (c, .ok payload) ∉ es := by
  induction x with
  | done result => exact ⟨[], result, ⟨rfl, rfl⟩, fun _ _ => List.not_mem_nil⟩
  | look next ih =>
    obtain ⟨es, r, comes, failed⟩ := ih RunStates.new
    exact ⟨es, r, ⟨_, comes⟩, failed⟩
  | send turn c next ih =>
    obtain ⟨es, r, comes, failed⟩ := ih (.error .connectionClosed)
    refine ⟨(c, _) :: es, r, ⟨_, es, rfl, comes⟩, ?_⟩
    intro d payload hmem
    rcases List.mem_cons.mp hmem with heq | hmem
    · cases heq
    · exact failed d payload hmem
  | close next ih => exact ih

/-- A script that cannot have exchanges sends nothing. -/
theorem neverSends_of_comes {x : Script α} (silent : ∀ es r, x.Comes es r → es = []) :
    x.NeverSends := by
  induction x with
  | done result => trivial
  | look next ih => exact fun s => ih s fun es r comes => silent es r ⟨s, comes⟩
  | send turn c next ih =>
    obtain ⟨es, r, comes, -⟩ := (next (.error .connectionClosed)).exists_comes
    cases silent _ r ⟨_, es, rfl, comes⟩
  | close next ih => exact ih silent

/-! ### One part after the other -/

theorem comes_bind (x : Script α) (k : α → Script β) {es : Exchanges} {r : Except Error β} :
    (x >>= k).Comes es r ↔ (∃ e, r = .error e ∧ x.Comes es (.error e)) ∨
      ∃ a first rest, es = first ++ rest ∧ x.Comes first (.ok a) ∧ (k a).Comes rest r := by
  change (x.bind k).Comes es r ↔ _
  induction x generalizing es with
  | done result =>
    cases result with
    | error e =>
      constructor
      · rintro ⟨rfl, rfl⟩
        exact .inl ⟨e, rfl, rfl, rfl⟩
      · rintro (⟨_, rfl, rfl, ⟨⟩⟩ | ⟨a, first, rest, -, ⟨-, ⟨⟩⟩, -⟩)
        exact ⟨rfl, rfl⟩
    | ok a =>
      constructor
      · intro comes
        exact .inr ⟨a, [], es, rfl, ⟨rfl, rfl⟩, comes⟩
      · rintro (⟨e, -, -, ⟨⟩⟩ | ⟨_, _, rest, rfl, ⟨rfl, ⟨⟩⟩, comes⟩)
        exact comes
  | look next ih =>
    constructor
    · rintro ⟨s, comes⟩
      rcases (ih s).mp comes with ⟨e, hr, hx⟩ | ⟨a, first, rest, hes, hx, hk⟩
      · exact .inl ⟨e, hr, s, hx⟩
      · exact .inr ⟨a, first, rest, hes, ⟨s, hx⟩, hk⟩
    · rintro (⟨e, hr, s, hx⟩ | ⟨a, first, rest, hes, ⟨s, hx⟩, hk⟩)
      · exact ⟨s, (ih s).mpr (.inl ⟨e, hr, hx⟩)⟩
      · exact ⟨s, (ih s).mpr (.inr ⟨a, first, rest, hes, hx, hk⟩)⟩
  | send turn c next ih =>
    constructor
    · rintro ⟨outcome, later, rfl, comes⟩
      rcases (ih outcome).mp comes with ⟨e, hr, hx⟩ | ⟨a, first, rest, rfl, hx, hk⟩
      · exact .inl ⟨e, hr, outcome, later, rfl, hx⟩
      · exact .inr ⟨a, (c, outcome) :: first, rest, rfl, ⟨outcome, first, rfl, hx⟩, hk⟩
    · rintro (⟨e, hr, outcome, later, rfl, hx⟩ |
        ⟨a, _, rest, rfl, ⟨outcome, first, rfl, hx⟩, hk⟩)
      · exact ⟨outcome, later, rfl, (ih outcome).mpr (.inl ⟨e, hr, hx⟩)⟩
      · exact ⟨outcome, first ++ rest, rfl,
          (ih outcome).mpr (.inr ⟨a, first, rest, rfl, hx, hk⟩)⟩
  | close next ih => exact ih

theorem comes_map (f : α → β) (x : Script α) {es : Exchanges} {r : Except Error β} :
    (f <$> x).Comes es r ↔ ∃ r', x.Comes es r' ∧ r = r'.map f := by
  change (x >>= fun a => done (.ok (f a))).Comes es r ↔ _
  rw [comes_bind]
  constructor
  · rintro (⟨e, rfl, hx⟩ | ⟨a, first, rest, rfl, hx, rfl, rfl⟩)
    · exact ⟨.error e, hx, rfl⟩
    · exact ⟨.ok a, by rwa [List.append_nil], rfl⟩
  · rintro ⟨r', hx, rfl⟩
    cases r' with
    | error e => exact .inl ⟨e, rfl, hx⟩
    | ok a => exact .inr ⟨a, es, [], (List.append_nil es).symm, hx, rfl, rfl⟩

/-! ### The first failure -/

/-- The first command that fails is the last one, and the script fails for the same
    reason. -/
def StopsAtFailure (x : Script α) : Prop :=
  ∀ es r, x.Comes es r → ∀ first c e rest, es = first ++ (c, .error e) :: rest →
    rest = [] ∧ r = .error e

theorem stopsAtFailure_done (result : Except Error α) : StopsAtFailure (.done result) := by
  rintro es r ⟨rfl, -⟩ first c e rest split
  exact (List.append_ne_nil_of_right_ne_nil first (List.cons_ne_nil _ rest) split.symm).elim

theorem stopsAtFailure_send {turn : Turn} {c : Command} {next : Except Error Payload → Script α}
    (fails : ∀ e, next (.error e) = done (.error e))
    (goesOn : ∀ payload, (next (.ok payload)).StopsAtFailure) :
    StopsAtFailure (.send turn c next) := by
  rintro es r ⟨outcome, later, rfl, comes⟩ first d e rest split
  rcases first with _ | ⟨p, first⟩
  · obtain ⟨heq, rfl⟩ := List.cons.inj split
    obtain ⟨rfl, rfl⟩ := Prod.mk.inj heq
    rw [fails e] at comes
    exact comes
  · obtain ⟨-, hlater⟩ := List.cons.inj split
    cases outcome with
    | error e' =>
      rw [fails e'] at comes
      exact stopsAtFailure_done _ later r comes first d e rest hlater
    | ok payload => exact goesOn payload later r comes first d e rest hlater

/-- What stops at a failure sends nothing after it. -/
theorem StopsAtFailure.givesUp {x : Script α} (stops : x.StopsAtFailure) : x.GivesUp := by
  induction x with
  | done result => trivial
  | look next ih =>
    intro s
    exact ih s fun es r comes => stops es r ⟨s, comes⟩
  | send turn c next ih =>
    constructor
    · intro e
      refine neverSends_of_comes fun es r comes => ?_
      exact (stops _ r ⟨_, es, rfl, comes⟩ [] c e es rfl).1
    · intro payload
      refine ih (.ok payload) fun es r comes first d e rest split => ?_
      refine stops _ r ⟨.ok payload, es, rfl, comes⟩ ((c, .ok payload) :: first) d e rest ?_
      rw [split, List.cons_append]
  | close next ih => exact ih stops

/-! ### Sequencing commands -/

/-- The script waits for the writer whenever it sends. -/
def IsPatient : Script α → Prop
  | done _ => True
  | look next => ∀ s, (next s).IsPatient
  | send turn _ next => turn = .wait ∧ ∀ outcome, (next outcome).IsPatient
  | close next => next.IsPatient

/-- The script looks and sends one command after the other, as `request` sends them, and
    leaves the session as it is.  This is kept by sequencing. -/
def IsSteady : Script α → Prop
  | done _ => True
  | look next => ∀ s, (next s).IsSteady
  | send turn _ next => turn = .wait ∧ (∀ e, next (.error e) = done (.error e)) ∧
      ∀ payload, (next (.ok payload)).IsSteady
  | close _ => False

theorem IsPatient.map {x : Script α} (f : α → β) (patient : x.IsPatient) :
    (f <$> x).IsPatient := by
  change (x.bind fun a => done (.ok (f a))).IsPatient
  induction x with
  | done result => cases result <;> trivial
  | look next ih =>
    intro s
    exact ih s (patient s)
  | send turn c next ih => exact ⟨patient.1, fun outcome => ih outcome (patient.2 outcome)⟩
  | close next ih => exact ih patient

theorem isSteady_request (c : Command) : (request c).IsSteady :=
  ⟨rfl, fun _ => rfl, fun _ => trivial⟩

theorem isSteady_lift (x : Except Error α) : (liftM x : Script α).IsSteady := trivial

theorem isSteady_pure (a : α) : (pure a : Script α).IsSteady := trivial

theorem isSteady_states : states.IsSteady := fun _ => trivial

theorem isSteady_require (t : ThreadId) (epoch : Option Nat) : (require t epoch).IsSteady :=
  fun _ => trivial

namespace IsSteady

theorem bind {x : Script α} {k : α → Script β} (first : x.IsSteady)
    (later : ∀ a, (k a).IsSteady) : (x >>= k).IsSteady := by
  change (x.bind k).IsSteady
  induction x with
  | done result =>
    cases result with
    | ok a => exact later a
    | error e => trivial
  | look next ih =>
    intro s
    exact ih s (first s)
  | send turn c next ih =>
    obtain ⟨patient, fails, goesOn⟩ := first
    refine ⟨patient, fun e => ?_, fun payload => ih _ (goesOn payload)⟩
    exact congrArg (Script.bind · k) (fails e)
  | close => exact first.elim

theorem map {x : Script α} (f : α → β) (steady : x.IsSteady) : (f <$> x).IsSteady :=
  steady.bind fun _ => trivial

theorem isPatient {x : Script α} (steady : x.IsSteady) : x.IsPatient := by
  induction x with
  | done => trivial
  | look next ih =>
    intro s
    exact ih s (steady s)
  | send turn c next ih =>
    obtain ⟨patient, fails, goesOn⟩ := steady
    refine ⟨patient, fun outcome => ?_⟩
    cases outcome with
    | error e =>
      rw [fails e]
      trivial
    | ok payload => exact ih _ (goesOn payload)
  | close => exact steady.elim

theorem stopsAtFailure {x : Script α} (steady : x.IsSteady) : x.StopsAtFailure := by
  induction x with
  | done result => exact stopsAtFailure_done result
  | look next ih =>
    rintro es r ⟨s, comes⟩
    exact ih s (steady s) es r comes
  | send turn c next ih =>
    exact stopsAtFailure_send steady.2.1 fun payload => ih _ (steady.2.2 payload)
  | close => exact steady.elim

end IsSteady

/-! ### What is left of a script -/

/-- After these exchanges this is left of the script. -/
def Leaves (x : Script α) (es : Exchanges) (y : Script α) : Prop :=
  ∀ rest r, y.Comes rest r → x.Comes (es ++ rest) r

namespace Leaves

variable {x : Script α} {es : Exchanges}

theorem start (x : Script α) : x.Leaves [] x := fun _ _ comes => comes

theorem look {next : RunStates → Script α} (left : x.Leaves es (.look next)) (s : RunStates) :
    x.Leaves es (next s) :=
  fun rest r comes => left rest r ⟨s, comes⟩

theorem close {next : Script α} (left : x.Leaves es (.close next)) : x.Leaves es next :=
  left

theorem send {turn : Turn} {c : Command} {next : Except Error Payload → Script α}
    (left : x.Leaves es (.send turn c next)) (outcome : Except Error Payload) :
    x.Leaves (es ++ [(c, outcome)]) (next outcome) := by
  intro rest r comes
  have hcomes := left ((c, outcome) :: rest) r ⟨outcome, rest, rfl, comes⟩
  simpa using hcomes

theorem done {result : Except Error α} (left : x.Leaves es (.done result)) :
    x.Comes es result := by
  have hcomes := left [] result ⟨rfl, rfl⟩
  rwa [List.append_nil] at hcomes

end Leaves

/-! ### What a script can have sent -/

/-- With these exchanges behind it the script can have sent these commands: there is a way on
    from here, be it that everything fails, that begins with them. -/
def CanSend (x : Script α) (es : Exchanges) (cs : List Command) : Prop :=
  ∃ later r, x.Comes (es ++ later) r ∧ (∀ c payload, (c, .ok payload) ∉ later) ∧
    cs <+: (es ++ later).map Prod.fst

namespace Leaves

variable {x : Script α} {es : Exchanges} {cs : List Command}

theorem canSend {y : Script α} (left : x.Leaves es y) (part : cs <+: es.map Prod.fst) :
    x.CanSend es cs := by
  obtain ⟨later, r, comes, failed⟩ := y.exists_comes
  refine ⟨later, r, left later r comes, failed, part.trans ?_⟩
  rw [List.map_append]
  exact List.prefix_append _ _

theorem canSend_next {turn : Turn} {c : Command} {next : Except Error Payload → Script α}
    (left : x.Leaves es (.send turn c next)) (part : cs <+: es.map Prod.fst ++ [c]) :
    x.CanSend es cs := by
  obtain ⟨later, r, comes, failed⟩ := (next (.error .connectionClosed)).exists_comes
  refine ⟨(c, .error .connectionClosed) :: later, r, left _ r ⟨_, later, rfl, comes⟩, ?_, ?_⟩
  · intro d payload hmem
    rcases List.mem_cons.mp hmem with heq | hmem
    · cases heq
    · exact failed d payload hmem
  · exact part.trans ⟨later.map Prod.fst, by simp⟩

end Leaves

end Script

end Pushdown
