/-
  Pushdown/Proofs/Script/Follows.lean
  ===================================
  **Following a plan.**  A *plan* is a list of stages: a look at a thread, which must be
  suspended, a command to the VM, or the end of all plans, a failure that is certain.  A
  script follows a plan if it goes through these stages in their order and does nothing else
  that others could see, supposing that the VM answers its commands in an expected way
  (`Script.Follows`).

  `Keeps` says what this comes to for somebody who watches the call: each stage is decided
  by the run states of its moment and by what comes of its command, and where a stage fails,
  the call ends with that failure.  So it is not only known what a call may do that keeps to
  a plan, but also what it must do.

  Two scripts in sequence follow the two plans one after the other (`Follows.bind`), so the
  plan of an operation is put together from those of its parts.
-/
import Pushdown.Proofs.RunStates.Epochs
import Pushdown.Proofs.Script.Deeds

namespace Pushdown

theorem Exchanges.allOk_cons {c : Command} {payload : Payload} {es : Exchanges} :
    Exchanges.AllOk ((c, .ok payload) :: es) ↔ es.AllOk := by
  simp [Exchanges.AllOk]

/-! ### Plans -/

/-- One stage of a plan. -/
inductive Stage where
  /-- The thread must be suspended.  At a second look it must still be in the suspension in
      which the first look has found it. -/
  | suspended (t : ThreadId)
  | ask (c : Command)
  | fail (e : Error)

abbrev Plan := List Stage

namespace Plan

def command? : Stage → Option Command
  | .ask c => some c
  | .suspended _ | .fail _ => none

/-- What the plan asks of the VM, in order. -/
def commands (plan : Plan) : List Command := plan.filterMap command?

@[simp] theorem commands_nil : commands [] = [] := rfl

@[simp] theorem commands_suspended (t : ThreadId) (plan : Plan) :
    commands (.suspended t :: plan) = plan.commands := rfl

@[simp] theorem commands_ask (c : Command) (plan : Plan) :
    commands (.ask c :: plan) = c :: plan.commands := rfl

@[simp] theorem commands_fail (e : Error) (plan : Plan) :
    commands (.fail e :: plan) = plan.commands := rfl

/-- After each command there is a look at the thread. -/
def Rechecks (t : ThreadId) : Plan → Prop
  | [] => True
  | .ask _ :: plan => plan.head? = some (.suspended t) ∧ Rechecks t plan
  | _ :: plan => Rechecks t plan

end Plan

/-- A call that begins in run states `s`, and has found its thread suspended in the given
    epoch if it has looked before, does this while it keeps to the plan. -/
def Keeps {α : Type} : RunStates → Option Nat → Plan → Exchanges → Deeds α → Prop
  | s, _, [], es, ds => es = [] ∧ ∃ a, ds = [(s, .ended (.ok a))]
  | s, _, .fail e :: _, es, ds => es = [] ∧ ds = [(s, .ended (.error e))]
  | s, epoch, .suspended t :: plan, es, ds =>
    match s.requireSuspended t epoch with
    | .ok e => Keeps s (some e) plan es ds
    | .error fault => es = [] ∧ ds = [(s, .ended (.error (.invalidState fault)))]
  | s, epoch, .ask c :: plan, es, ds =>
    -- nothing has come of the command, it has failed, perhaps before it was asked for, or it
    -- has gone well
    (es = [] ∧ ds = [(s, .asked c)]) ∨
    (∃ e, es = [(c, .error e)] ∧ (ds = [(s, .ended (.error e))] ∨
      ∃ s', ds = [(s, .asked c), (s', .ended (.error e))])) ∨
    ∃ payload s' later deeds, es = (c, .ok payload) :: later ∧ ds = (s, .asked c) :: deeds ∧
      Keeps s' epoch plan later deeds

namespace Script

variable {α β : Type} {Answer : Command → Payload → Prop} {Q : Option Nat → α → Prop}
  {R : Option Nat → β → Prop} {epoch : Option Nat} {plan later : Plan} {c : Command}

/-- With the thread found in this epoch before, the script goes through these stages, as
    long as each command is answered by a payload that is an `Answer`.  When nothing is left
    of the plan, it comes to a result with `Q`. -/
def Follows (Answer : Command → Payload → Prop) (Q : Option Nat → α → Prop) :
    Script α → Option Nat → Plan → Prop
  | done (.ok a), epoch, plan => plan = [] ∧ Q epoch a
  | done (.error e), _, plan => ∃ rest, plan = .fail e :: rest
  | look next, epoch, plan =>
    (∀ s, (next s).Follows Answer Q epoch plan) ∨
    ∃ t rest, plan = .suspended t :: rest ∧
      (∀ s e, s.requireSuspended t epoch = .ok e → (next s).Follows Answer Q (some e) rest) ∧
      ∀ s fault, s.requireSuspended t epoch = .error fault →
        next s = done (.error (.invalidState fault))
  | send _ c next, epoch, plan => ∃ rest, plan = .ask c :: rest ∧
      ∀ payload, Answer c payload → (next (.ok payload)).Follows Answer Q epoch rest
  | close _, _, _ => False

theorem follows_pure {a : α} (good : Q epoch a) : (pure a : Script α).Follows Answer Q epoch [] :=
  ⟨rfl, good⟩

theorem follows_fail {e : Error} : (fail e : Script α).Follows Answer Q epoch [.fail e] :=
  ⟨[], rfl⟩

theorem follows_lift {x : Except Error α} {a : α} (heq : x = .ok a) (good : Q epoch a) :
    (liftM x : Script α).Follows Answer Q epoch [] := by
  subst heq
  exact ⟨rfl, good⟩

theorem follows_states : states.Follows Answer (fun e _ => e = epoch) epoch [] :=
  .inl fun _ => ⟨rfl, rfl⟩

theorem follows_request :
    (request c).Follows Answer (fun e payload => e = epoch ∧ Answer c payload) epoch [.ask c] :=
  ⟨[], rfl, fun _ answer => ⟨rfl, rfl, answer⟩⟩

/-- A look, and what is done with the epoch that it finds. -/
theorem follows_require {t : ThreadId} {k : Nat → Script β}
    (goesOn : ∀ s e, RunStates.requireSuspended s t epoch = .ok e →
      (k e).Follows Answer R (some e) later) :
    (require t epoch >>= k).Follows Answer R epoch (.suspended t :: later) := by
  refine .inr ⟨t, later, rfl, fun s e found => ?_, fun s fault found => ?_⟩
  · simp only [found]
    exact goesOn s e found
  · simp only [found]
    rfl

/-- A second look, which finds the epoch of the first. -/
theorem follows_require_again {t : ThreadId} {e : Nat} {k : Nat → Script β}
    (goesOn : (k e).Follows Answer R (some e) later) :
    (require t (some e) >>= k).Follows Answer R (some e) (.suspended t :: later) := by
  refine follows_require fun s e' found => ?_
  rw [RunStates.epoch_of_require found]
  exact goesOn

namespace Follows

theorem bind {x : Script α} {k : α → Script β} (first : x.Follows Answer Q epoch plan)
    (second : ∀ e a, Q e a → (k a).Follows Answer R e later) :
    (x >>= k).Follows Answer R epoch (plan ++ later) := by
  change (x.bind k).Follows Answer R epoch (plan ++ later)
  induction x generalizing epoch plan with
  | done result =>
    cases result with
    | ok a =>
      obtain ⟨rfl, good⟩ := first
      exact second epoch a good
    | error e =>
      obtain ⟨rest, rfl⟩ := first
      exact ⟨rest ++ later, rfl⟩
  | look next ih =>
    rcases first with any | ⟨t, rest, rfl, goesOn, fails⟩
    · exact .inl fun s => ih s (any s)
    · refine .inr ⟨t, rest ++ later, rfl, fun s e found => ih s (goesOn s e found), ?_⟩
      intro s fault found
      exact congrArg (Script.bind · k) (fails s fault found)
  | send turn c next ih =>
    obtain ⟨rest, rfl, goesOn⟩ := first
    exact ⟨rest ++ later, rfl, fun payload answer => ih _ (goesOn payload answer)⟩
  | close => exact first.elim

theorem mono {x : Script α} {Q' : Option Nat → α → Prop} (follows : x.Follows Answer Q epoch plan)
    (weaker : ∀ e a, Q e a → Q' e a) : x.Follows Answer Q' epoch plan := by
  induction x generalizing epoch plan with
  | done result =>
    cases result with
    | ok a => exact ⟨follows.1, weaker epoch a follows.2⟩
    | error e => exact follows
  | look next ih =>
    rcases follows with any | ⟨t, rest, rfl, goesOn, fails⟩
    · exact .inl fun s => ih s (any s)
    · exact .inr ⟨t, rest, rfl, fun s e found => ih s (goesOn s e found), fails⟩
  | send turn c next ih =>
    obtain ⟨rest, rfl, goesOn⟩ := follows
    exact ⟨rest, rfl, fun payload answer => ih _ (goesOn payload answer)⟩
  | close => exact follows.elim

/-- The first script has no stage of its own. -/
theorem quietly {x : Script α} {k : α → Script β} (first : x.Follows Answer Q epoch [])
    (second : ∀ e a, Q e a → (k a).Follows Answer R e later) :
    (x >>= k).Follows Answer R epoch later :=
  first.bind second

/-- The second script has no stage of its own. -/
theorem lastly {x : Script α} {k : α → Script β} (first : x.Follows Answer Q epoch plan)
    (second : ∀ e a, Q e a → (k a).Follows Answer R e []) :
    (x >>= k).Follows Answer R epoch plan := by
  rw [← List.append_nil plan]
  exact first.bind second

/-- The first script is one stage. -/
theorem andThen {x : Script α} {k : α → Script β} {stage : Stage}
    (first : x.Follows Answer Q epoch [stage])
    (second : ∀ e a, Q e a → (k a).Follows Answer R e later) :
    (x >>= k).Follows Answer R epoch (stage :: later) :=
  first.bind second

theorem map {x : Script α} (follows : x.Follows Answer Q epoch plan) (f : α → β) :
    (f <$> x).Follows Answer (fun _ _ => True) epoch plan :=
  follows.lastly fun _ _ _ => follows_pure trivial

end Follows

/-! ### Keeping to a plan -/

/-- The commands of a plan, of which these are the exchanges, are answered as expected. -/
def AnsweredBy (Answer : Command → Payload → Prop) (plan : Plan) (es : Exchanges) : Prop :=
  ∀ (i : Nat) c payload, es[i]? = some (c, .ok payload) → plan.commands[i]? = some c →
    Answer c payload

theorem AnsweredBy.tail {payload : Payload} {es : Exchanges}
    (answered : AnsweredBy Answer (.ask c :: plan) ((c, .ok payload) :: es)) :
    Answer c payload ∧ AnsweredBy Answer plan es :=
  ⟨answered 0 c payload rfl rfl, fun i d p he hp => answered (i + 1) d p he hp⟩

/-- What a script that follows a plan asks for is the beginning of the plan, whatever the run
    states are when it looks. -/
theorem Follows.part {x : Script α} (follows : x.Follows Answer Q epoch plan)
    (steady : x.IsSteady) {es : Exchanges} {r : Except Error α} (comes : x.Comes es r)
    (answered : AnsweredBy Answer plan es) : es.map Prod.fst <+: plan.commands := by
  induction x generalizing epoch plan es with
  | done result =>
    obtain ⟨rfl, -⟩ := comes
    exact List.nil_prefix
  | look next ih =>
    obtain ⟨s, comes⟩ := comes
    rcases follows with any | ⟨t, rest, rfl, goesOn, fails⟩
    · exact ih s (any s) (steady s) comes answered
    · cases found : s.requireSuspended t epoch with
      | ok e => exact ih s (goesOn s e found) (steady s) comes answered
      | error fault =>
        rw [fails s fault found] at comes
        obtain ⟨rfl, -⟩ := comes
        exact List.nil_prefix
  | send turn c next ih =>
    obtain ⟨later, rfl, goesOn⟩ := follows
    obtain ⟨-, fails, steady⟩ := steady
    obtain ⟨outcome, rest, rfl, comes⟩ := comes
    cases outcome with
    | error e =>
      rw [fails e] at comes
      obtain ⟨rfl, -⟩ := comes
      simp
    | ok payload =>
      obtain ⟨answer, hlater⟩ := answered.tail
      have hpart := ih _ (goesOn payload answer) (steady payload) comes hlater
      simpa using hpart
  | close => exact steady.elim

/-- **What follows a plan keeps to it.** -/
theorem Follows.keeps {x : Script α} (follows : x.Follows Answer Q epoch plan)
    (steady : x.IsSteady) {s : RunStates} {es : Exchanges} {ds : Deeds α} (does : x.Does s es ds)
    (answered : AnsweredBy Answer plan es) : Keeps s epoch plan es ds := by
  induction x generalizing epoch plan s es ds with
  | done result =>
    obtain ⟨rfl, rfl⟩ := does
    cases result with
    | ok a =>
      obtain ⟨rfl, -⟩ := follows
      exact ⟨rfl, a, rfl⟩
    | error e =>
      obtain ⟨rest, rfl⟩ := follows
      exact ⟨rfl, rfl⟩
  | look next ih =>
    rcases follows with any | ⟨t, rest, rfl, goesOn, fails⟩
    · exact ih s (any s) (steady s) does answered
    · rw [Keeps]
      split
      · next e found => exact ih s (goesOn s e found) (steady s) does answered
      · next fault found =>
        change (next s).Does s es ds at does
        rwa [fails s fault found] at does
  | send turn c next ih =>
    obtain ⟨later, rfl, goesOn⟩ := follows
    obtain ⟨-, fails, steady⟩ := steady
    rcases does with waits | ⟨outcome, rest, s', more, rfl, rfl, does⟩ | ⟨e, rest, rfl, does⟩
    · exact .inl waits
    · cases outcome with
      | error e =>
        rw [fails e] at does
        obtain ⟨rfl, rfl⟩ := does
        exact .inr (.inl ⟨e, rfl, .inr ⟨s', rfl⟩⟩)
      | ok payload =>
        obtain ⟨answer, hlater⟩ := answered.tail
        have keeps := ih _ (goesOn payload answer) (steady payload) does hlater
        exact .inr (.inr ⟨payload, s', rest, more, rfl, rfl, keeps⟩)
    · rw [fails e] at does
      obtain ⟨rfl, rfl⟩ := does
      exact .inr (.inl ⟨e, rfl, .inl rfl⟩)
  | close => exact steady.elim

end Script

/-! ### What is known of a call that keeps to a plan -/

namespace Keeps

variable {α : Type} {s s₁ : RunStates} {epoch : Option Nat} {plan : Plan} {es : Exchanges}
  {ds : Deeds α}

/-- A success means that all of the plan has gone well. -/
theorem whole (keeps : Keeps s epoch plan es ds) {a : α} (ended : (s₁, .ended (.ok a)) ∈ ds) :
    es.map Prod.fst = plan.commands ∧ es.AllOk ∧ ∀ e, .fail e ∉ plan := by
  induction plan generalizing s epoch es ds with
  | nil =>
    obtain ⟨rfl, -⟩ := keeps
    exact ⟨rfl, fun _ _ => List.not_mem_nil, fun _ => List.not_mem_nil⟩
  | cons stage plan ih =>
    cases stage with
    | fail e =>
      obtain ⟨-, rfl⟩ := keeps
      cases List.mem_singleton.mp ended
    | suspended t =>
      rw [Keeps] at keeps
      split at keeps
      · simpa using ih keeps ended
      · obtain ⟨-, rfl⟩ := keeps
        cases List.mem_singleton.mp ended
    | ask c =>
      rcases keeps with ⟨-, rfl⟩ | ⟨e, -, rfl | ⟨s', rfl⟩⟩ |
        ⟨payload, s', later, deeds, rfl, rfl, keeps⟩
      · cases List.mem_singleton.mp ended
      · cases List.mem_singleton.mp ended
      · simp at ended
      · have hended : (s₁, Deed.ended (.ok a)) ∈ deeds := by simpa using ended
        obtain ⟨hplan, ok, never⟩ := ih keeps hended
        exact ⟨by simp [hplan], Exchanges.allOk_cons.mpr ok, by simpa using never⟩

/-- A failure is that of the last command.  Otherwise all has gone well, and it is one that
    the plan foresees, or a look has just failed; and if the thread has been found in an
    epoch before, this look was for that epoch. -/
theorem why (keeps : Keeps s epoch plan es ds) {e : Error} (ended : (s₁, .ended (.error e)) ∈ ds) :
    (∃ first d, es = first ++ [(d, .error e)]) ∨
      es.AllOk ∧ (.fail e ∈ plan ∨ ∃ t found fault, .suspended t ∈ plan ∧
        s₁.requireSuspended t found = .error fault ∧ e = .invalidState fault ∧
        ∀ known, epoch = some known → found = some known) := by
  induction plan generalizing s epoch es ds with
  | nil =>
    obtain ⟨-, a, rfl⟩ := keeps
    cases List.mem_singleton.mp ended
  | cons stage plan ih =>
    cases stage with
    | fail e' =>
      obtain ⟨rfl, rfl⟩ := keeps
      cases List.mem_singleton.mp ended
      exact .inr ⟨fun _ _ => List.not_mem_nil, .inl List.mem_cons_self⟩
    | suspended t =>
      rw [Keeps] at keeps
      split at keeps
      · next e' present =>
        rcases ih keeps ended with failed |
          ⟨ok, certain | ⟨u, found, fault, hu, hfault, he, hknown⟩⟩
        · exact .inl failed
        · exact .inr ⟨ok, .inl (List.mem_cons_of_mem _ certain)⟩
        · refine .inr ⟨ok, .inr ⟨u, found, fault, List.mem_cons_of_mem _ hu, hfault, he, ?_⟩⟩
          rintro known rfl
          rw [hknown e' rfl, RunStates.epoch_of_require present]
      · next fault failed =>
        obtain ⟨rfl, rfl⟩ := keeps
        cases List.mem_singleton.mp ended
        exact .inr ⟨fun _ _ => List.not_mem_nil,
          .inr ⟨t, epoch, fault, List.mem_cons_self, failed, rfl, fun _ known => known⟩⟩
    | ask c =>
      rcases keeps with ⟨-, rfl⟩ | ⟨e', rfl, rfl | ⟨s', rfl⟩⟩ |
        ⟨payload, s', later, deeds, rfl, rfl, keeps⟩
      · cases List.mem_singleton.mp ended
      · cases List.mem_singleton.mp ended
        exact .inl ⟨[], c, rfl⟩
      · obtain ⟨-, rfl⟩ : _ ∧ e = e' := by simpa using ended
        exact .inl ⟨[], c, rfl⟩
      · have hended : (s₁, Deed.ended (.error e)) ∈ deeds := by simpa using ended
        rcases ih keeps hended with ⟨first, d, rfl⟩ | ⟨ok, why⟩
        · exact .inl ⟨(c, .ok payload) :: first, d, rfl⟩
        · refine .inr ⟨Exchanges.allOk_cons.mpr ok, ?_⟩
          simpa using why

/-- Where the plan has a look after each command, a call whose thread has left the suspension
    goes no further: that is its result, unless a command has failed. -/
theorem stale (keeps : Keeps s epoch plan es ds) {t : ThreadId} {e : Nat}
    (known : epoch = some e) (rechecks : plan.Rechecks t)
    (begins : s.IsSuspendedIn t e ∨ plan.head? = some (.suspended t)) {fault : StateFault}
    (left : s₁.requireSuspended t (some e) = .error fault) {d : Deed α} (done : (s₁, d) ∈ ds) :
    d = .ended (.error (.invalidState fault)) ∨
      ∃ first c e', es = first ++ [(c, .error e')] ∧ d = .ended (.error e') := by
  have hstill : ∀ {s : RunStates}, s.IsSuspendedIn t e → s₁ ≠ s := by
    rintro s still rfl
    cases left.symm.trans still
  induction plan generalizing s epoch es ds with
  | nil =>
    obtain ⟨-, a, rfl⟩ := keeps
    have still : s.IsSuspendedIn t e := begins.resolve_right (by simp)
    exact (hstill still (Prod.mk.inj (List.mem_singleton.mp done)).1).elim
  | cons stage plan ih =>
    cases stage with
    | fail e' =>
      obtain ⟨-, rfl⟩ := keeps
      have still : s.IsSuspendedIn t e := begins.resolve_right (by simp)
      exact (hstill still (Prod.mk.inj (List.mem_singleton.mp done)).1).elim
    | suspended u =>
      subst known
      rw [Keeps] at keeps
      split at keeps
      · next e' found =>
        obtain rfl := RunStates.epoch_of_require found
        have still : s.IsSuspendedIn t e' := by
          rcases begins with still | hhead
          · exact still
          · cases hhead
            exact found
        exact ih keeps rfl rechecks (.inl still) done
      · next fault' found =>
        obtain ⟨-, rfl⟩ := keeps
        obtain ⟨rfl, rfl⟩ := Prod.mk.inj (List.mem_singleton.mp done)
        rcases begins with still | hhead
        · exact (hstill still rfl).elim
        · cases hhead
          cases found.symm.trans left
          exact .inl rfl
    | ask c =>
      obtain ⟨hhead, hlater⟩ := rechecks
      have hs₁ : s₁ ≠ s := hstill (begins.resolve_right (by simp))
      rcases keeps with ⟨-, rfl⟩ | ⟨e', rfl, rfl | ⟨s', rfl⟩⟩ |
        ⟨payload, s', later, deeds, rfl, rfl, keeps⟩
      · exact (hs₁ (Prod.mk.inj (List.mem_singleton.mp done)).1).elim
      · exact (hs₁ (Prod.mk.inj (List.mem_singleton.mp done)).1).elim
      · obtain ⟨-, rfl⟩ : s₁ = s' ∧ d = .ended (.error e') := by simpa [hs₁] using done
        exact .inr ⟨[], c, e', rfl, rfl⟩
      · have hdone : (s₁, d) ∈ deeds := by simpa [hs₁] using done
        rcases ih keeps known hlater (.inr hhead) hdone with result | ⟨first, c', e', rfl, rfl⟩
        · exact .inl result
        · exact .inr ⟨(c, .ok payload) :: first, c', e', rfl, rfl⟩

end Keeps

end Pushdown
