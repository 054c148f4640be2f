/-
  Pushdown/Proofs/Model/Suspension.lean
  =====================================
  **Nodes and the suspensions they are from.**  A query is one call of a session in which
  anything can happen between its looks.  What it ensures carries over to every run: if
  it is answered, its thread stood still from the start of the call to its end, and the
  answer is stamped with that suspension; if it is stale, it is refused in the step in
  which it begins, and nothing else comes of it (`unmixed`).

  The command of a query is checked when it joins the queue, and not again when its turn
  comes.  By then the thread may have gone on: the last theorem is a run in which the VM
  is asked for the variables of a frame that is gone.
-/
import Pushdown.Proofs.Model.Query
import Pushdown.Proofs.Session.Calls

namespace Pushdown

namespace Session

namespace Setup

variable {α β : Type} {s : Setup} {q : Query β} {f : β → α} {t : Ticket}
  {before later : List (Action α)}

/-- A query of a run is as its script ensures. -/
theorem obeyed_query (s : Setup) (q : Query β) (f : β → α)
    (own : OwnTickets (before ++ .start t (f <$> q.script) :: later)) :
    Obeyed (fun states _ => ∃ e, q.IsFreshIn states e)
      (fun states a => ∃ x, a = f x ∧ q.IsAnswer (s.after before).states states x) t
      (s.log (before ++ .start t (f <$> q.script) :: later)) := by
  apply s.obeyed_start own
  rw [Script.ensures_map]
  refine (q.ensures _).mono ?_
  intro states x answer
  exact ⟨x, rfl, answer⟩

/-- From the start of an answered query to its end the thread has been in one suspension. -/
theorem answered_in_suspension
    (own : OwnTickets (before ++ .start t (f <$> q.script) :: later)) {earlier rest : Happened α}
    {a : α} (ended : s.log (before ++ .start t (f <$> q.script) :: later) =
      earlier ++ .ended ⟨t, .ok a⟩ :: rest) :
    ∃ e x mid, a = f x ∧ q.IsStamped e x ∧ q.IsFreshIn (s.after before).states e ∧
      earlier = s.log before ++ mid ∧ (∀ c ∈ mid.changes, ¬c.Concerns q.thread) ∧
      ∀ h, h <+: mid → (Happened.states (s.log before ++ h)).IsSuspendedIn q.thread e := by
  obtain ⟨mid, rfl⟩ := s.log_of_start own ended fun states meets => meets rfl
  obtain ⟨x, rfl, e, fresh, still, stamped⟩ := s.obeyed_query q f own _ _ _ ended rfl
  have hstart : (s.log before).states.IsSuspendedIn q.thread e := by
    rw [← s.states_after]
    exact fresh.1
  -- suspended in one epoch at both ends, so no change between them concerns the thread
  have hiff := RunStates.isSuspendedIn_changeAll_iff hstart (Happened.isBounded_states _)
  rw [Happened.states_append, hiff] at still
  refine ⟨e, x, mid, rfl, stamped, fresh, rfl, still, ?_⟩
  rintro h ⟨k, rfl⟩
  rw [Happened.states_append, hiff]
  intro c hc
  apply still c
  rw [Happened.changes_append]
  exact List.mem_append_left _ hc

/-- What becomes of the queries of a run, and of one that begins after it. -/
structure Unmixed (s : Setup) (as : List (Action α)) : Prop where
  /-- A query that is answered: from its start, at which it was fresh, to its end no event
      of its thread was taken in, and the session was not terminated; the thread was
      suspended all the time in the epoch with which the answer is stamped. -/
  answered : ∀ {β : Type} (q : Query β) (f : β → α) (t : Ticket) (before later : List (Action α)),
    as = before ++ .start t (f <$> q.script) :: later →
    ∀ (earlier : Happened α) (a : α) (rest : Happened α),
      s.log as = earlier ++ .ended ⟨t, .ok a⟩ :: rest →
      ∃ e x mid, a = f x ∧ q.IsStamped e x ∧ q.IsFreshIn (s.after before).states e ∧
        earlier = s.log before ++ mid ∧ (∀ c ∈ mid.changes, ¬c.Concerns q.thread) ∧
        ∀ h, h <+: mid → (Happened.states (s.log before ++ h)).IsSuspendedIn q.thread e
  /-- A query that is stale when it starts: it is refused in that step, which otherwise is
      one in which nobody asks for anything. -/
  refused : ∀ {β : Type} (q : Query β) (f : β → α) (t : Ticket),
    (∀ e, ¬q.IsFreshIn (s.after as).states e) →
    ∃ err, q.IsRefusal err ∧
      let idle := (s.after as).step (.advance 0)
      (s.after as).step (.start t (f <$> q.script)) =
        (⟨idle.1.sent, .ended ⟨t, .error err⟩ :: idle.1.happened⟩, idle.2)

/-- **Nodes never mix suspensions.** -/
theorem unmixed (s : Setup) (as : List (Action α)) (own : OwnTickets as) : s.Unmixed as where
  answered := by
    rintro β q f t before later rfl earlier a rest ended
    exact answered_in_suspension own ended
  refused := by
    intro β q f t stale
    obtain ⟨err, refusal, failed⟩ := q.answer?_of_stale stale
    refine ⟨err, refusal, step_of_answer? ?_⟩
    exact Script.answer?_bind _ failed

/-- The thread goes on before the reply about its frame comes, and stops again: the reply
    is of no use. -/
theorem unmixed_resumed :
    let s : Setup := ⟨64, true, Settings.default⟩
    let f : StackFrame := ⟨⟨1, 0, 1⟩, ⟨"prog.pda", 1, "main", ["x"]⟩⟩
    let vm := fun line : String => Action.vm (Text.Utf8.encode line.toList)
    let as : List (Action (List FrameRef)) := [vm "started 1\n",
      .start 1 (List.map StackFrame.ref <$> (Query.stackFrames 1).script),
      vm "#1 ok prog.pda|1|main|x\n",
      .start 2 (List.map Variable.ref <$> (Query.allVariables f).script),
      vm "resumed 1 client\nsuspended 1 client\n#2 ok x|5\n"]
    OwnTickets as ∧
      (s.log as).ended =
        [⟨1, .ok [f.ref]⟩, ⟨2, .error (.invalidState (.stale 1))⟩] ∧ s.Unmixed as :=
  ⟨by decide, by decide +kernel, unmixed _ _ (by decide)⟩

/-- **A query asks only in its suspension.**  When its command joins the queue the thread is
    suspended, and if the query is of a node, in the epoch of the node. -/
theorem asks_fresh (s : Setup) (as : List (Action α)) (own : OwnTickets as) (q : Query β)
    (f : β → α) {t : Ticket} {before later : List (Action α)}
    (starts : as = before ++ .start t (f <$> q.script) :: later) {earlier rest : Happened α}
    {c : Command} (asks : s.log as = earlier ++ .request t c :: rest) :
    ∃ e, q.IsFreshIn earlier.states e := by
  subst starts
  exact s.obeyed_query q f own _ _ _ asks rfl

/-- A frame is asked for its variables while its thread is suspended. -/
theorem asks_fresh_variables :
    let s : Setup := ⟨64, true, Settings.default⟩
    let q := Query.allVariables ⟨⟨1, 0, 1⟩, ⟨"prog.pda", 1, "main", ["x"]⟩⟩
    let vm : List (Action (List Variable)) := [.vm (Text.Utf8.encode "started 1\n".toList)]
    let as := vm ++ .start 1 (id <$> q.script) :: []
    let started : Happened (List Variable) := [.event (.started 1) []]
    OwnTickets as ∧ s.log as = started ++ .request 1 (.children 1 0 none) :: [] ∧
      ∃ e, q.IsFreshIn started.states e := by
  intro s q vm as started
  have own : OwnTickets as := by decide
  have asked : s.log as = started ++ .request 1 (.children 1 0 none) :: [] := by decide +kernel
  exact ⟨own, asked, s.asks_fresh as own q id rfl asked⟩

/-- The VM is asked for the variables of a frame whose thread runs: the query was fresh when
    it joined the queue behind another call, and nobody looks when its turn comes. -/
theorem stale_when_written :
    let s : Setup := ⟨64, true, Settings.default⟩
    let f : StackFrame := ⟨⟨1, 0, 1⟩, ⟨"prog.pda", 1, "main", ["x"]⟩⟩
    let vm := fun line : String => Action.vm (Text.Utf8.encode line.toList)
    let before : List (Action (List FrameRef)) := [vm "started 1\n",
      .start 1 (List.map StackFrame.ref <$> Thread.stackFrames 1),
      vm "#1 ok prog.pda|1|main|x\n",
      .start 2 ((fun _ => []) <$> Target.threads),
      .start 3 (List.map Variable.ref <$> f.allVariables),
      vm "resumed 1 client\n"]
    let written := fun text : String => Text.Utf8.encode text.toList
    (s.log before).ended = [⟨1, .ok [f.ref]⟩] ∧
      (s.after before).states.requireSuspended f.ref.thread (some f.ref.epoch) =
        .error (.notSuspended 1) ∧
      s.sent before = written "#1 stack 1\n#2 threads\n" ∧
      s.sent (before ++ [vm "#2 ok 1\n"]) =
        written "#1 stack 1\n#2 threads\n#3 children 1 0\n" := by
  decide +kernel

end Setup

end Session

end Pushdown
