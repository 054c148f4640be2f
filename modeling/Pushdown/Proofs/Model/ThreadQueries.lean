/-
  Pushdown/Proofs/Model/ThreadQueries.lean
  ========================================
  **Queries of a thread as a whole.**  The depth of a stack, the operand stack and the
  value of an expression are asked of a thread and belong to no node.  Such a query looks
  once: a thread that is not suspended is not asked, and the question joins the queue in
  the run states of the look (`LooksOnce.refused`, `LooksOnce.asked`).

  Nobody looks when the reply comes.  It is taken for the answer in whatever run states it
  finds (`LooksOnce.replied`), so the answer is from one suspension exactly if no event of
  the thread has come in since the call began (`LooksOnce.answered`).  The last theorem is
  a run in which all three queries are answered although their thread has left the
  suspension in which it was asked: it runs, it has stopped again, or it has exited.
-/
import Pushdown.Proofs.Model.Operations
import Pushdown.Proofs.Model.Shown

namespace Pushdown

open Script

variable {β : Type} {s s' : RunStates}

inductive ThreadQuery : Type → Type where
  | stackDepth (t : ThreadId) : ThreadQuery Int64
  | dataStack (t : ThreadId) : ThreadQuery (List String)
  | evaluate (t : ThreadId) (expression : String) : ThreadQuery Value

namespace ThreadQuery

def script : ThreadQuery β → Script β
  | stackDepth t => Thread.stackDepth t
  | dataStack t => Thread.dataStack t
  | evaluate t expression => Thread.evaluate t expression

def thread : ThreadQuery β → ThreadId
  | stackDepth t | dataStack t | evaluate t _ => t

/-- The one command of the query. -/
def question : ThreadQuery β → Command
  | stackDepth t => .stackDepth t
  | dataStack t => .data t
  | evaluate t expression => .eval t expression

/-- What the query makes of the payload. -/
def read : ThreadQuery β → Payload → Except Error β
  | stackDepth _, p => p.toInteger
  | dataStack _, p => p.toStrings
  | evaluate _ _, p => p.toText.map Value.detached

/-- All of them look, ask and read. -/
theorem script_eq (q : ThreadQuery β) : q.script =
    require q.thread none >>= fun _ => request q.question >>= fun p => liftM (q.read p) := by
  cases q with
  | stackDepth t => rfl
  | dataStack t => rfl
  | evaluate t expression =>
    have hread : ∀ p : Payload,
        (liftM p.toText >>= fun text => pure (Value.detached text) : Script Value) =
          liftM (p.toText.map Value.detached) := by
      intro p
      cases p.toText <;> rfl
    simp only [script, Thread.evaluate, hread]
    rfl

/-- The question is sent in the run states in which the query starts, and the thread is
    suspended in them. -/
theorem ensures (q : ThreadQuery β) (s : RunStates) :
    q.script.Ensures (fun s' c => s' = s ∧ c = q.question ∧ ∃ e, s.IsSuspendedIn q.thread e)
      (fun _ _ => ∃ e, s.IsSuspendedIn q.thread e) s := by
  rw [script_eq, ensures_bind, ensures_require]
  intro e found
  have suspended := RunStates.isSuspendedIn_of_require found
  rw [ensures_bind, ensures_request]
  refine ⟨⟨rfl, rfl, e, suspended⟩, ?_⟩
  intro s' p
  rw [ensures_lift]
  intro x _
  exact ⟨e, suspended⟩

theorem answer?_script (q : ThreadQuery β) (stale : ∀ e, ¬s.IsSuspendedIn q.thread e) :
    ∃ fault, q.script.answer? s = some (.error (.invalidState fault)) := by
  obtain ⟨fault, refused⟩ := RunStates.require_none_eq_error stale
  refine ⟨fault, ?_⟩
  rw [script_eq]
  apply answer?_bind
  exact answer?_require refused

/-- Whatever the run states are when the reply comes, it is read. -/
theorem asks (q : ThreadQuery β) {e : Nat} (suspended : s.IsSuspendedIn q.thread e)
    (outcome : Except Error Payload) :
    q.script.Asks s q.question outcome s' (outcome >>= q.read) := by
  rw [script_eq]
  apply Asks.after (answer?_require_ok suspended.require_none)
  cases outcome with
  | error err =>
    apply (asks_request _).bind_error
    intro p
    exact neverSends_lift _
  | ok payload =>
    apply (asks_request _).bind
    · intro p
      exact neverSends_lift _
    · rfl

end ThreadQuery

namespace Session

namespace Setup

variable {α : Type} {s : Setup} {q : ThreadQuery β} {f : β → α} {t : Ticket}
  {before later : List (Action α)}

theorem obeyed_threadQuery (s : Setup) (q : ThreadQuery β) (f : β → α)
    (own : OwnTickets (before ++ .start t (f <$> q.script) :: later)) :
    Obeyed (fun states c => states = (s.after before).states ∧ c = q.question ∧
        ∃ e, (s.after before).states.IsSuspendedIn q.thread e)
      (fun _ a => (∃ x, a = f x) ∧ ∃ e, (s.after before).states.IsSuspendedIn q.thread e) t
      (s.log (before ++ .start t (f <$> q.script) :: later)) := by
  apply s.obeyed_start own
  rw [Script.ensures_map]
  apply (q.ensures _).mono
  intro states x suspended
  exact ⟨⟨x, rfl⟩, suspended⟩

/-- What becomes of the queries of threads in a run, and of one that begins after it. -/
structure LooksOnce (s : Setup) (as : List (Action α)) : Prop where
  /-- A thread that is not suspended when the query starts is not asked: the query is
      refused in that step, which otherwise is one in which nobody asks for anything. -/
  refused : ∀ {β : Type} (q : ThreadQuery β) (f : β → α) (t : Ticket),
    (∀ e, ¬(s.after as).states.IsSuspendedIn q.thread e) →
    ∃ fault,
      let idle := (s.after as).step (.advance 0)
      (s.after as).step (.start t (f <$> q.script)) =
        (⟨idle.1.sent, .ended ⟨t, .error (.invalidState fault)⟩ :: idle.1.happened⟩, idle.2)
  /-- The question joins the queue before anything changes the run states of the start, in
      which the thread is suspended. -/
  asked : ∀ {β : Type} (q : ThreadQuery β) (f : β → α) (t : Ticket)
      (before later : List (Action α)),
    as = before ++ .start t (f <$> q.script) :: later →
    ∀ (earlier : Happened α) (c : Command) (rest : Happened α),
      s.log as = earlier ++ .request t c :: rest →
      c = q.question ∧ earlier.states = (s.after before).states ∧
        ∃ e, earlier.states.IsSuspendedIn q.thread e
  /-- An answered query has found its thread suspended.  At each moment from then to its end
      the thread is still in that suspension exactly if no event of the thread has been taken
      in by then, and the session has not been terminated. -/
  answered : ∀ {β : Type} (q : ThreadQuery β) (f : β → α) (t : Ticket)
      (before later : List (Action α)),
    as = before ++ .start t (f <$> q.script) :: later →
    ∀ (earlier : Happened α) (a : α) (rest : Happened α),
      s.log as = earlier ++ .ended ⟨t, .ok a⟩ :: rest →
      ∃ e x mid, a = f x ∧ (s.after before).states.IsSuspendedIn q.thread e ∧
        earlier = s.log before ++ mid ∧
        ∀ h, h <+: mid → ((Happened.states (s.log before ++ h)).IsSuspendedIn q.thread e ↔
          ∀ c ∈ Happened.changes h, ¬c.Concerns q.thread)
  /-- A query that has found its thread suspended ends with the reply to its question, and
      comes to what the reply says, whatever the thread does by then. -/
  replied : ∀ {β : Type} (q : ThreadQuery β) (f : β → α) {before mid : List (Action α)}
      {t : Ticket} {token : Nat} {payload : String} {bytes : List UInt8} {e : Nat},
    as = before ++ .start t (f <$> q.script) :: mid →
    (s.after before).states.IsSuspendedIn q.thread e →
    s.Exchange before t (f <$> q.script) mid ⟨token, q.question⟩ payload bytes →
    FitsEnd payload →
    ∃ later, ((s.after as).step (.vm bytes)).1.happened = ((s.after as).receive bytes).1 ++
      .ended ⟨t, (readReply q.question.opcode payload >>= q.read).map f⟩ :: later

/-- **Queries of threads look before they ask, and only then.** -/
theorem looksOnce (s : Setup) (as : List (Action α)) (own : OwnTickets as) : s.LooksOnce as where
  refused := by
    intro β q f t stale
    obtain ⟨fault, failed⟩ := q.answer?_script stale
    refine ⟨fault, ?_⟩
    apply step_of_answer?
    exact Script.answer?_bind _ failed
  asked := by
    rintro β q f t before later rfl earlier c rest split
    obtain ⟨hstates, hc, hsuspended⟩ := s.obeyed_threadQuery q f own _ _ _ split rfl
    rw [hstates]
    exact ⟨hc, rfl, hsuspended⟩
  answered := by
    rintro β q f t before later rfl earlier a rest split
    obtain ⟨mid, rfl⟩ := s.log_of_start own split fun states meets => meets rfl
    obtain ⟨⟨x, rfl⟩, e, suspended⟩ := s.obeyed_threadQuery q f own _ _ _ split rfl
    refine ⟨e, x, mid, rfl, suspended, rfl, ?_⟩
    intro h _
    rw [s.states_after] at suspended
    rw [Happened.states_append]
    exact RunStates.isSuspendedIn_changeAll_iff suspended (Happened.isBounded_states _) _
  replied := by
    rintro β q f before mid t token payload bytes e rfl suspended exchange fits
    apply answered exchange fits
    exact (q.asks suspended _).map f

/-- The depth of a stack is asked for, and the reply comes after the thread has gone on. -/
theorem exchange_resumed :
    let s : Setup := ⟨64, true, Settings.default⟩
    let before : List (Action Int64) := [.vm (Text.Utf8.encode "started 1\n".toList)]
    s.Exchange before 1 (id <$> (ThreadQuery.stackDepth 1).script) [] ⟨1, .stackDepth 1⟩ "3"
      (Text.Utf8.encode "resumed 1 client\n#1 ok 3\n".toList) := by
  intro s before
  have hline : "#1 ok 3" = "#" ++ (toString 1 ++ (" " ++ ("ok" ++ (" " ++ "3")))) := by
    decide +kernel
  have hmessage : message? (Text.Utf8.encode "resumed 1 client".toList) =
      some (.event (.resumed 1 .client)) := by decide +kernel
  refine ⟨by decide, ?_, by decide +kernel, ?_⟩
  · intro t script hstart
    rcases List.mem_append.mp hstart with hvm | hcall
    · cases List.mem_singleton.mp hvm
    · cases List.mem_singleton.mp hcall
      exact (Operation.stackDepth 1).givesUp.map id
  · refine ⟨by decide, [Text.Utf8.encode "resumed 1 client".toList], "#1 ok 3", .feed, [], ?_⟩
    refine ⟨?_, ?_, ?_⟩
    · decide +kernel
    · rw [hline]
      exact .reply (.ok (.spaced "3"))
    · intro line hmem
      obtain rfl := List.mem_singleton.mp hmem
      refine ⟨by decide +kernel, ?_⟩
      intro other hother
      rw [hmessage] at hother
      cases hother

/-- The thread goes on before the reply about its stack comes: the reply counts. -/
theorem looksOnce_resumed :
    let s : Setup := ⟨64, true, Settings.default⟩
    let before : List (Action Int64) := [.vm (Text.Utf8.encode "started 1\n".toList)]
    let as := before ++ [.start 1 (id <$> (ThreadQuery.stackDepth 1).script)]
    let bytes := Text.Utf8.encode "resumed 1 client\n#1 ok 3\n".toList
    OwnTickets as ∧ s.LooksOnce as ∧
      ((s.after as).receive bytes).2.states.threadState? 1 = some .running ∧
      ∃ later, ((s.after as).step (.vm bytes)).1.happened =
        ((s.after as).receive bytes).1 ++ .ended ⟨1, .ok 3⟩ :: later := by
  intro s before as bytes
  have own : OwnTickets as := by decide
  have looks : s.LooksOnce as := looksOnce s as own
  have suspended : (s.after before).states.IsSuspendedIn 1 1 := by
    decide +kernel
  have hread : (readReply (ThreadQuery.stackDepth 1).question.opcode "3" >>=
      (ThreadQuery.stackDepth 1).read).map id = .ok 3 := by
    decide +kernel
  have fits : FitsEnd "3" := ⟨by decide, by decide⟩
  have exchange : s.Exchange before 1 (id <$> (ThreadQuery.stackDepth 1).script) []
      ⟨1, (ThreadQuery.stackDepth 1).question⟩ "3" bytes := exchange_resumed
  have hreplied := looks.replied (ThreadQuery.stackDepth 1) id rfl suspended exchange fits
  rw [hread] at hreplied
  exact ⟨own, looks, by decide +kernel, hreplied⟩

/-- The thread runs when the depth of its stack is answered, has run and stopped again when
    its operand stack is, and has exited when an expression is. -/
theorem answered_after_suspension :
    let s : Setup := ⟨64, true, Settings.default⟩
    let vm := fun line : String => Action.vm (Text.Utf8.encode line.toList)
    let depth : List (Action (Int64 ⊕ List String ⊕ Value)) := [vm "started 1\n",
      .start 1 (Sum.inl <$> Thread.stackDepth 1), vm "resumed 1 client\n"]
    let data := depth ++ [vm "#1 ok 3\n", vm "suspended 1 client\n",
      .start 2 ((fun fields => .inr (.inl fields)) <$> Thread.dataStack 1),
      vm "resumed 1 step\nsuspended 1 step\n"]
    let eval := data ++ [vm "#2 ok a|b\n",
      .start 3 ((fun value => .inr (.inr value)) <$> Thread.evaluate 1 "x + 1"), vm "exited 1\n"]
    (s.after depth).states.threadState? 1 = some .running ∧
      (s.after data).states.requireSuspended 1 (some 3) = .error (.stale 1) ∧
      (s.after eval).states.threadState? 1 = none ∧
      s.log (eval ++ [vm "#3 ok 7\n"]) =
        [.event (.started 1) [], .request 1 (.stackDepth 1), .event (.resumed 1 .client) [],
          .ended ⟨1, .ok (.inl 3)⟩,
          .event (.suspended 1 .client) [], .request 2 (.data 1), .event (.resumed 1 .step) [],
          .event (.suspended 1 .step) [], .ended ⟨2, .ok (.inr (.inl ["a", "b"]))⟩,
          .request 3 (.eval 1 "x + 1"), .event (.exited 1) [],
          .ended ⟨3, .ok (.inr (.inr (Value.detached "7")))⟩] := by
  decide +kernel

end Setup

end Session

end Pushdown
