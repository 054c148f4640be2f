/-
  Pushdown/Proofs/Session/Noise.lean
  ==================================
  **Noise does not disturb a session.**  A line that is blank or malformed says nothing,
  and so does a reply that nobody expects at that moment.  A run in which such lines are
  strewn among the VM's lines, at one place or many, whole or in pieces, is the run
  without them: the same bytes go to the VM, the same is delivered, the same calls end
  with the same results in the same steps, and what is left of the session is the same,
  except that the last line may be incomplete (`Undisturbed.strewn`).  If whole lines of
  noise are put in at the end of a line not even that differs (`inserted`, `alone`).

  The two runs are compared step by step.  A session that has read other bytes of a line
  that is not complete does all else in the same way (`withInput`), and the lines that
  are completed by a piece of input come to the same (`Strewn.handleAll`).
-/
import Pushdown.Proofs.Link.Effect
import Pushdown.Proofs.Model.Operations
import Pushdown.Proofs.Session.Replay
import Pushdown.Proofs.Session.Rest

namespace Pushdown

namespace Session

variable {α : Type}

/-! ### Noise -/

/-- The line says nothing to the session as it is: it is blank, or malformed, or a reply
    that nobody expects. -/
def IsNoise (x : Session α) (line : List UInt8) : Prop :=
  ∀ item, message? line = some item →
    (∃ text, item = .malformed text) ∨
      ∃ reply, item = .reply reply ∧ ∀ r, x.link.expected = some r → r.token ≠ reply.token

/-- Whether this message says nothing to the session as it is. -/
def ignores (x : Session α) : Incoming → Bool
  | .malformed _ => true
  | .reply reply => x.link.expected.all fun r => r.token != reply.token
  | .event _ => false

theorem isNoise_iff {x : Session α} {line : List UInt8} :
    x.IsNoise line ↔ (message? line).all x.ignores = true := by
  cases hmessage : message? line with
  | none => simp [IsNoise, hmessage]
  | some item =>
    cases item with
    | event e => simp [IsNoise, hmessage, ignores]
    | malformed text => simp [IsNoise, hmessage, ignores]
    | reply reply =>
      cases hexpected : x.link.expected <;> simp [IsNoise, hmessage, ignores, hexpected]

instance (x : Session α) (line : List UInt8) : Decidable (x.IsNoise line) :=
  decidable_of_iff _ isNoise_iff.symm

/-- The second lines are the first ones with noise among them. -/
inductive Strewn : Session α → List (List UInt8) → List (List UInt8) → Prop
  | done {x : Session α} : Strewn x [] []
  | line {x : Session α} {line : List UInt8} {lines noisy : List (List UInt8)}
      (rest : Strewn (x.handleAll (message? line).toList).2 lines noisy) :
      Strewn x (line :: lines) (line :: noisy)
  | noise {x : Session α} {line : List UInt8} {lines noisy : List (List UInt8)}
      (noise : x.IsNoise line) (rest : Strewn x lines noisy) : Strewn x lines (line :: noisy)

/-- The second inputs are the first ones, except that the lines of the VM, as they become
    complete, have noise among them. -/
inductive Littered : Session α → LineBuffer → List (Action α) → List (Action α) → Prop
  | done {x : Session α} {buffer : LineBuffer} : Littered x buffer [] []
  | chunk {x : Session α} {buffer : LineBuffer} {bytes noisy : List UInt8}
      {as bs : List (Action α)}
      (strewn : x.isReading = true →
        Strewn x (splitLines (x.input.rest ++ bytes)).1 (splitLines (buffer.rest ++ noisy)).1)
      (rest : Littered (x.step (.vm bytes)).2 (buffer.receive noisy).2 as bs) :
      Littered x buffer (.vm bytes :: as) (.vm noisy :: bs)
  | other {x : Session α} {buffer : LineBuffer} {a : Action α} {as bs : List (Action α)}
      (silent : ∀ bytes, a ≠ .vm bytes) (rest : Littered (x.step a).2 buffer as bs) :
      Littered x buffer (a :: as) (a :: bs)

theorem handleIncoming_of_isNoise {x : Session α} {line : List UInt8} {item : Incoming}
    (noise : x.IsNoise line) (message : message? line = some item) :
    x.handleIncoming item = ([], x) := by
  rcases noise item message with ⟨text, rfl⟩ | ⟨reply, rfl, stray⟩
  · rfl
  · simp only [handleIncoming, Link.resolve_of_stray stray]

theorem handleAll_append (x : Session α) (items more : List Incoming) :
    x.handleAll (items ++ more) =
      ((x.handleAll items).1 ++ ((x.handleAll items).2.handleAll more).1,
        ((x.handleAll items).2.handleAll more).2) := by
  induction items generalizing x with
  | nil => rfl
  | cons item items ih => simp only [List.cons_append, handleAll, ih, List.append_assoc]

theorem handleAll_of_isNoise {x : Session α} {noise : List (List UInt8)}
    (silent : ∀ line ∈ noise, x.IsNoise line) :
    x.handleAll (noise.filterMap message?) = ([], x) := by
  induction noise with
  | nil => rfl
  | cons line noise ih =>
    have hrest := ih fun l hl => silent l (List.mem_cons_of_mem _ hl)
    cases hmessage : message? line with
    | none => rwa [List.filterMap_cons_none hmessage]
    | some item =>
      have hnone := handleIncoming_of_isNoise (silent line List.mem_cons_self) hmessage
      rw [List.filterMap_cons_some hmessage]
      simp only [handleAll, hnone, hrest, List.append_nil]

/-- Lines with noise among them come to the same. -/
theorem Strewn.handleAll {x : Session α} {lines noisy : List (List UInt8)}
    (strewn : Strewn x lines noisy) :
    x.handleAll (noisy.filterMap message?) = x.handleAll (lines.filterMap message?) := by
  have hsplit : ∀ (line : List UInt8) (rest : List (List UInt8)),
      (line :: rest).filterMap message? = (message? line).toList ++ rest.filterMap message? := by
    intro line rest
    cases hmessage : message? line with
    | none => simp [hmessage]
    | some item => simp [hmessage]
  induction strewn with
  | done => rfl
  | line _ ih => rw [hsplit, hsplit, handleAll_append, handleAll_append, ih]
  | @noise x line lines noisy noise _ ih =>
    have hnone : x.handleAll ([line].filterMap message?) = ([], x) :=
      handleAll_of_isNoise (by simpa using noise)
    rw [← List.singleton_append, List.filterMap_append, handleAll_append, hnone]
    exact ih

/-! ### Other bytes of a line that is not complete -/

/-- The session as if it had read these bytes of a line. -/
def withInput (x : Session α) (input : LineBuffer) : Session α := { x with input }

theorem handleAll_withInput (x : Session α) (b : LineBuffer) (items : List Incoming) :
    (x.withInput b).handleAll items =
      ((x.handleAll items).1, (x.handleAll items).2.withInput b) := by
  have hline : ∀ (x : Session α) item, (x.withInput b).handleIncoming item =
      ((x.handleIncoming item).1, (x.handleIncoming item).2.withInput b) := by
    intro x item
    cases item with
    | reply | malformed => rfl
    | event e =>
      by_cases past : x.listeners.terminated = true
      · simp [handleIncoming, handleEvent, withInput, past]
      · simp [handleIncoming, handleEvent, withInput, past, deliver]
  induction items generalizing x with
  | nil => rfl
  | cons item items ih => simp only [handleAll, hline, ih]

theorem runScript_withInput {t : Ticket} (script : Script α) (x : Session α) (b : LineBuffer) :
    runScript t script (x.withInput b) =
      ((runScript t script x).1, (runScript t script x).2.withInput b) := by
  induction script generalizing x with
  | done result => rfl
  | look next ih => exact ih _ x
  | send turn c next ih =>
    cases why : x.link.refusal? turn with
    | some e => simpa only [runScript, withInput, why] using ih _ x
    | none => simp only [runScript, withInput, why]
  | close next ih =>
    have hnext := ih x.close.2
    simp only [runScript]
    exact congrArg (fun r => (x.close.1 ++ r.1, r.2)) hnext

theorem settleIn_withInput (n : Nat) (x : Session α) (b : LineBuffer) :
    settleIn n (x.withInput b) = ((settleIn n x).1, (settleIn n x).2.withInput b) := by
  induction n generalizing x with
  | zero => rfl
  | succ n ih =>
    have hgoOn : ∀ (t : Ticket) result (x : Session α), goOn t result (x.withInput b) =
        ((goOn t result x).1, (goOn t result x).2.withInput b) := by
      intro t result x
      have hcalls : (x.withInput b).calls = x.calls := rfl
      cases hfind : x.calls.find? (fun w => w.ticket = t) with
      | none => simp [goOn, hcalls, hfind]
      | some w =>
        simp only [goOn, hcalls, hfind]
        exact runScript_withInput (w.next result)
          { x with calls := x.calls.filter (fun v => v.ticket != t) } b
    have hturn : (x.withInput b).link.turn = x.link.turn := rfl
    have hlink : ∀ link, ({ x.withInput b with link } : Session α) =
        ({ x with link } : Session α).withInput b := fun _ => rfl
    rcases hended : x.link.turn with ⟨_ | ⟨t, result⟩ | t, link⟩
    · simp only [settleIn, hturn, hended, hlink]
    · simp only [settleIn, hturn, hended, hlink, hgoOn, ih]
    · simp only [settleIn, hturn, hended, hlink, ih]

theorem settle_withInput (x : Session α) (b : LineBuffer) :
    (x.withInput b).settle = (x.settle.1, x.settle.2.withInput b) :=
  settleIn_withInput _ x b

theorem step_withInput {x : Session α} {a a' : Action α} {b c : LineBuffer}
    (reads : a'.isRead = a.isRead)
    (performed : ((x.opened a).withInput b).perform a' =
      (((x.opened a).perform a).1, ((x.opened a).perform a).2.withInput c)) :
    (x.withInput b).step a' = ((x.step a).1, (x.step a).2.withInput c) := by
  have hopened : (x.withInput b).opened a' = (x.opened a).withInput b := by
    rw [opened, reads]
    rfl
  rw [← hopened] at performed
  rw [opened] at performed
  simp only [step, performed, settle_withInput]
  rfl

/-- Only the VM's bytes, and the end of its stream, have to do with what has been read. -/
theorem perform_withInput (x : Session α) (b : LineBuffer) {a : Action α}
    (silent : ∀ bytes, a ≠ .vm bytes) :
    ∃ c, (x.withInput b).perform a = ((x.perform a).1, (x.perform a).2.withInput c) ∧
      (a ≠ .vmEnd → c = b) := by
  cases a with
  | vm bytes => exact (silent bytes rfl).elim
  | vmEnd =>
    cases hreading : x.isReading with
    | true =>
      refine ⟨LineBuffer.empty, ?_, by simp⟩
      simp [perform, endInput, withInput, hreading]
      rfl
    | false => exact ⟨b, by simp [perform, endInput, withInput, hreading], fun _ => rfl⟩
  | start t script => exact ⟨b, runScript_withInput script x b, fun _ => rfl⟩
  | cancel | advance | read | dropReader | listen | unlisten => exact ⟨b, rfl, fun _ => rfl⟩

/-- Reading that has ended has ended for good, and with the stream it ends. -/
theorem isReading_of_step {x : Session α} {a : Action α}
    (reading : (x.step a).2.isReading = true) : x.isReading = true ∧ a ≠ .vmEnd := by
  have hbegun : (begun [] (x.opened a) a).session.isReading = true := by
    by_contra ended
    rw [Bool.not_eq_true] at ended
    exact Bool.false_ne_true ((kept_ended.step ended).symm.trans reading)
  have goes : a ≠ .vmEnd := by
    rintro rfl
    simp only [begun, perform, endInput] at hbegun
    split at hbegun
    · cases hbegun
    · next ended => exact ended hbegun
  rw [begun_isReading _ _ goes] at hbegun
  exact ⟨hbegun, goes⟩

/-! ### Noise among the lines -/

theorem receive_eq_withInput {x : Session α} (reading : x.isReading = true) (bytes : List UInt8) :
    x.receive bytes = ((x.handleAll (x.input.receive bytes).1).1,
      (x.handleAll (x.input.receive bytes).1).2.withInput (x.input.receive bytes).2) := by
  rw [← handleAll_withInput, receive, if_pos reading]
  rfl

theorem receive_of_strewn {x : Session α} {b : LineBuffer} {bytes noisy : List UInt8}
    (reading : x.isReading = true)
    (strewn : Strewn x (splitLines (x.input.rest ++ bytes)).1 (splitLines (b.rest ++ noisy)).1) :
    (x.withInput b).receive noisy =
      ((x.receive bytes).1, (x.receive bytes).2.withInput (b.receive noisy).2) := by
  have hsame : x.handleAll (b.receive noisy).1 = x.handleAll (x.input.receive bytes).1 :=
    strewn.handleAll
  have hnoisy := receive_eq_withInput (x := x.withInput b) reading noisy
  change _ = (((x.withInput b).handleAll (b.receive noisy).1).1,
    ((x.withInput b).handleAll (b.receive noisy).1).2.withInput (b.receive noisy).2) at hnoisy
  rw [hnoisy, handleAll_withInput, hsame, receive_eq_withInput reading]
  rfl

/-- A run with noise among the lines and the run without it, from sessions that differ at
    most in what they have read of a line. -/
theorem Littered.run {x : Session α} {buffer : LineBuffer} {as bs : List (Action α)}
    (littered : Littered x buffer as bs) {b : LineBuffer} (same : x.isReading = true → b = buffer) :
    ((x.withInput b).run bs).1 = (x.run as).1 ∧
      ∀ n, ∃ c, ((x.withInput b).run (bs.take n)).2 = ((x.run (as.take n)).2).withInput c := by
  -- one step, and then the rest
  have hcons : ∀ {x : Session α} {a a' : Action α} {as bs : List (Action α)} {b c : LineBuffer},
      (x.withInput b).step a' = ((x.step a).1, (x.step a).2.withInput c) →
      (((x.step a).2.withInput c).run bs).1 = ((x.step a).2.run as).1 ∧
        (∀ n, ∃ d, (((x.step a).2.withInput c).run (bs.take n)).2 =
          (((x.step a).2.run (as.take n)).2).withInput d) →
      ((x.withInput b).run (a' :: bs)).1 = (x.run (a :: as)).1 ∧
        ∀ n, ∃ d, ((x.withInput b).run ((a' :: bs).take n)).2 =
          ((x.run ((a :: as).take n)).2).withInput d := by
    rintro x a a' as bs b c hstep ⟨hreports, hafter⟩
    constructor
    · simp only [Session.run, hstep, hreports]
    · intro n
      cases n with
      | zero => exact ⟨b, rfl⟩
      | succ n =>
        obtain ⟨d, hd⟩ := hafter n
        refine ⟨d, ?_⟩
        simp only [List.take_succ_cons, Session.run, hstep, hd]
  induction littered generalizing b with
  | done => exact ⟨rfl, fun n => ⟨b, by simp [Session.run]⟩⟩
  | @chunk x buffer bytes noisy as bs strewn _ ih =>
    cases hreading : x.isReading with
    | true =>
      obtain rfl := same hreading
      refine hcons (step_withInput (c := (b.receive noisy).2) rfl ?_) (ih fun _ => rfl)
      rw [opened_eq x (a := .vm bytes) rfl]
      exact receive_of_strewn hreading (strewn hreading)
    | false =>
      refine hcons (step_withInput (c := b) rfl ?_) (ih ?_)
      · simp [opened_eq x (a := .vm bytes) rfl, perform, receive, withInput, hreading]
      · intro reading
        rw [(isReading_of_step reading).1] at hreading
        cases hreading
  | @other x buffer a as bs silent _ ih =>
    obtain ⟨c, hperform, hsame⟩ := perform_withInput (x.opened a) b silent
    refine hcons (step_withInput rfl hperform) (ih ?_)
    intro reading
    obtain ⟨hbefore, goes⟩ := isReading_of_step reading
    rw [hsame goes, same hbefore]

/-! ### Noise at the end of a line -/

/-- The bytes of the lines. -/
def unlines (lines : List (List UInt8)) : List UInt8 := lines.flatMap (· ++ [lineFeed])

/-- If the session reads, no line is incomplete after these bytes, and the lines that are
    put in then are noise. -/
structure Ignores (x : Session α) (bytes : List UInt8) (noise : List (List UInt8)) : Prop where
  complete : ∀ line ∈ noise, lineFeed ∉ line
  boundary : x.isReading = true → (x.receive bytes).2.input = LineBuffer.empty
  silent : x.isReading = true → ∀ line ∈ noise, (x.receive bytes).2.IsNoise line

theorem ignores_iff {x : Session α} {bytes : List UInt8} {noise : List (List UInt8)} :
    x.Ignores bytes noise ↔ (∀ line ∈ noise, lineFeed ∉ line) ∧
      (x.isReading = true → (x.receive bytes).2.input = LineBuffer.empty ∧
        ∀ line ∈ noise, (x.receive bytes).2.IsNoise line) := by
  constructor
  · intro ignored
    exact ⟨ignored.complete, fun reading => ⟨ignored.boundary reading, ignored.silent reading⟩⟩
  · rintro ⟨complete, silent⟩
    exact ⟨complete, fun reading => (silent reading).1, fun reading => (silent reading).2⟩

instance (x : Session α) (bytes : List UInt8) (noise : List (List UInt8)) :
    Decidable (x.Ignores bytes noise) :=
  decidable_of_iff _ ignores_iff.symm

theorem receive_unlines {noise : List (List UInt8)} (complete : ∀ line ∈ noise, lineFeed ∉ line) :
    LineBuffer.empty.receive (unlines noise) = (noise.filterMap message?, LineBuffer.empty) := by
  rw [LineBuffer.receive_eq]
  exact LineBuffer.takeAll_of_isCut ⟨(List.append_nil _).symm, complete, List.not_mem_nil⟩

/-- Whole lines of noise come to nothing. -/
theorem receive_of_ignores {x : Session α} {bytes : List UInt8} {noise : List (List UInt8)}
    (ignores : x.Ignores bytes noise) (more : List UInt8) :
    x.receive (bytes ++ unlines noise ++ more) = x.receive (bytes ++ more) := by
  cases reading : x.isReading with
  | false => simp [receive, reading]
  | true =>
    have hinput : (x.input.receive bytes).2 = LineBuffer.empty := by
      have hboundary := ignores.boundary reading
      rwa [receive_eq_withInput reading] at hboundary
    have hnoise : x.handleAll ((x.input.receive bytes).1 ++ noise.filterMap message?) =
        x.handleAll (x.input.receive bytes).1 := by
      have hsilent : ∀ line ∈ noise, (x.handleAll (x.input.receive bytes).1).2.IsNoise line := by
        have hignored := ignores.silent reading
        rwa [receive_eq_withInput reading] at hignored
      rw [handleAll_append, handleAll_of_isNoise hsilent, List.append_nil]
    rw [receive_eq_withInput reading, receive_eq_withInput reading, List.append_assoc,
      LineBuffer.receive_append, LineBuffer.receive_append (x.input) bytes more, hinput,
      LineBuffer.receive_append, receive_unlines ignores.complete, ← List.append_assoc]
    simp only [handleAll_append _ _ (LineBuffer.empty.receive more).1, hnoise]

theorem step_of_receive_eq {x : Session α} {bytes noisy : List UInt8}
    (same : x.receive noisy = x.receive bytes) : x.step (.vm noisy) = x.step (.vm bytes) := by
  have hperform : (x.opened (.vm noisy)).perform (.vm noisy) =
      (x.opened (.vm bytes)).perform (.vm bytes) := by
    rw [x.opened_eq rfl, x.opened_eq rfl]
    exact same
  rw [opened] at hperform
  simp only [step, hperform]
  rfl

/-- The session has kept no more than a part of a line. -/
def HasNoLine (x : Session α) : Prop := x.isReading = true → lineFeed ∉ x.input.rest

theorem receive_nil {x : Session α} (unfinished : x.HasNoLine) : x.receive [] = ([], x) := by
  cases reading : x.isReading with
  | false => simp [receive, reading]
  | true =>
    have hinput : x.input.receive [] = ([], x.input) := by
      rw [LineBuffer.receive_eq, LineBuffer.append, List.append_nil]
      exact LineBuffer.takeAll_of_not_mem (unfinished reading)
    rw [receive_eq_withInput reading, hinput]
    rfl

theorem step_of_ignores {x : Session α} {noise : List (List UInt8)} (ignores : x.Ignores [] noise)
    (sound : x.link.Sound) (rest : x.link.AtRest) (unfinished : x.HasNoLine) :
    x.step (.vm (unlines noise)) = (⟨[], []⟩, x) := by
  have hnone := receive_of_ignores ignores []
  rw [List.nil_append, List.append_nil, List.append_nil, receive_nil unfinished] at hnone
  exact step_of_perform rfl hnone sound rest rfl

namespace Setup

theorem hasNoLine (s : Setup) (as : List (Action α)) : (s.after as).HasNoLine := by
  intro reading
  have hinput := (s.tells as).input reading
  change (s.after as).input = _ at hinput
  rw [hinput]
  exact (isCut_splitLines _).rest

/-! ### The theorem -/

/-- What noise comes to in a run. -/
structure Undisturbed (s : Setup) (as : List (Action α)) : Prop where
  /-- Noise may be strewn among the VM's lines anywhere, in whole lines or in pieces.  It
      leaves the reports as they are, and the session after each input, except that there
      may be another incomplete line. -/
  strewn : ∀ bs, Littered (s.session α) LineBuffer.empty as bs →
    s.reports bs = s.reports as ∧
      ∀ n, ∃ input, s.after (bs.take n) = { s.after (as.take n) with input }
  /-- Where the VM's bytes have come to the end of a line, whole lines of noise may be put
      in.  They leave everything as it is. -/
  inserted : ∀ (before later : List (Action α)) (bytes more : List UInt8)
      (noise : List (List UInt8)), as = before ++ .vm (bytes ++ more) :: later →
    (s.after before).Ignores bytes noise →
    let bs := before ++ .vm (bytes ++ unlines noise ++ more) :: later
    s.reports bs = s.reports as ∧ s.after bs = s.after as
  /-- They may also come by themselves, and are then an input of which nothing comes.  This
      is said of calls that have tickets of their own and give up after a failure. -/
  alone : ∀ (before later : List (Action α)) (noise : List (List UInt8)),
    as = before ++ later → OwnTickets before → AllGiveUp before →
    (s.after before).Ignores [] noise →
    let bs := before ++ .vm (unlines noise) :: later
    ∃ reports, s.reports as = s.reports before ++ reports ∧
      s.reports bs = s.reports before ++ ⟨[], []⟩ :: reports ∧ s.after bs = s.after as
  /-- All operations give up after a failure. -/
  operations : ∀ {β : Type} (op : Operation β) (f : β → α), (f <$> op.script).GivesUp

/-- **Noise does not disturb a session.** -/
theorem undisturbed (s : Setup) (as : List (Action α)) : s.Undisturbed as where
  strewn := by
    intro bs littered
    have hstart : (s.session α).withInput LineBuffer.empty = s.session α := rfl
    obtain ⟨hreports, hafter⟩ := littered.run fun _ => rfl
    rw [hstart] at hreports hafter
    exact ⟨hreports, hafter⟩
  inserted := by
    rintro before later bytes more noise rfl ignores bs
    have hstep : (s.after before).step (.vm (bytes ++ unlines noise ++ more)) =
        (s.after before).step (.vm (bytes ++ more)) :=
      step_of_receive_eq (receive_of_ignores ignores more)
    constructor
    · simp only [bs, reports_append, run, hstep]
    · simp only [bs, after_append, run, hstep]
  alone := by
    rintro before later noise rfl own giveUp ignores bs
    have hstep := step_of_ignores ignores (s.staffed own giveUp).sound (s.atRest own giveUp)
      (s.hasNoLine before)
    refine ⟨((s.after before).run later).1, reports_append _ _ _, ?_, ?_⟩
    · simp only [bs, reports_append, run, hstep]
    · simp only [bs, after_append, run, hstep]
  operations := by
    intro β op f
    exact op.givesUp.map f

/-- While the frames of thread 1 are asked for there come a blank line, a line that is no event,
    a reply that nobody waits for, and an event that lacks its thread.  The frames are as they
    would be without them, wherever these lines come. -/
theorem undisturbed_stray_reply :
    let s : Setup := ⟨64, true, Settings.default⟩
    let vm : String → Action (List FrameRef) := fun text => .vm (Text.Utf8.encode text.toList)
    let before := [vm "started 1\n",
      .start 1 (List.map StackFrame.ref <$> (Query.stackFrames 1).script)]
    let noise := ["", "hello", "#7 ok", "resumed"].map fun text : String =>
      Text.Utf8.encode text.toList
    let reply := Text.Utf8.encode "#1 ok prog.pda|1|main|x\n".toList
    (s.reports (before ++ [.vm ([] ++ unlines noise ++ reply)]) =
        s.reports (before ++ [.vm ([] ++ reply)]) ∧
      s.after (before ++ [.vm ([] ++ unlines noise ++ reply)]) =
        s.after (before ++ [.vm ([] ++ reply)])) ∧
    ∃ reports, s.reports (before ++ [.vm reply]) = s.reports before ++ reports ∧
      s.reports (before ++ .vm (unlines noise) :: [.vm reply]) =
        s.reports before ++ ⟨[], []⟩ :: reports ∧
      s.after (before ++ .vm (unlines noise) :: [.vm reply]) =
        s.after (before ++ [.vm reply]) ∧
      (s.log (before ++ .vm (unlines noise) :: [.vm reply])).ended = [⟨1, .ok [⟨1, 0, 1⟩]⟩] := by
  intro s vm before noise reply
  have own : OwnTickets before := by
    decide +kernel
  have giveUp : AllGiveUp before := by
    rintro t script hstart
    obtain ⟨rfl, rfl⟩ : t = 1 ∧
        script = List.map StackFrame.ref <$> (Query.stackFrames 1).script := by
      simpa [before, vm] using hstart
    exact (Operation.query (.stackFrames 1)).givesUp.map _
  have ignored : (s.after before).Ignores [] noise := by
    decide +kernel
  have within := undisturbed s (before ++ [.vm ([] ++ reply)])
  have between := undisturbed s (before ++ [.vm reply])
  constructor
  · exact within.inserted before [] [] reply noise rfl ignored
  · obtain ⟨reports, hquiet, hnoisy, hafter⟩ :=
      between.alone before [.vm reply] noise rfl own giveUp ignored
    exact ⟨reports, hquiet, hnoisy, hafter, by decide +kernel⟩

end Setup

end Session

end Pushdown
