/-
  Pushdown/Proofs/Session/Replay.lean
  ===================================
  **A session is what its VM has said.**  What is delivered in a run are the events among
  the complete lines of the *intake*, the bytes that the VM has sent while the session was
  reading, up to the first `terminated`; if reading has ended and there was none, one
  `terminated` is added.  The run states are those of these events.  So two runs with the
  same intake deliver the same and come to the same run states, however the bytes were cut,
  whoever was listening and whatever commands were sent and became of them.

  What can still make a difference is when reading ends.  It ends with the VM's stream or
  because a call closes the session, and until then the intake is all that the VM has sent
  (`Replayed.reading`, `Replayed.ended`).
-/
import Pushdown.Proofs.Session.Delivered
import Pushdown.Proofs.Session.Governed
import Pushdown.Proofs.Wire.Framing

namespace Pushdown

/-- The event of the line, if it is one. -/
def Incoming.event? : Incoming → Option Event
  | .event e => some e
  | .reply _ | .malformed _ => none

/-- The events among the complete lines of the bytes. -/
def eventsIn (bytes : List UInt8) : List Event :=
  (LineBuffer.empty.receive bytes).1.filterMap Incoming.event?

theorem eventsIn_append (bytes more : List UInt8) :
    eventsIn (bytes ++ more) =
      eventsIn bytes ++ (((LineBuffer.empty.receive bytes).2.receive more).1).filterMap
        Incoming.event? := by
  rw [eventsIn, LineBuffer.receive_append, List.filterMap_append]
  rfl

namespace Script

variable {α : Type}

/-- Whatever it finds and whatever comes of its commands, the script does not close the
    session. -/
def NeverCloses : Script α → Prop
  | done _ => True
  | look next => ∀ states, (next states).NeverCloses
  | send _ _ next => ∀ outcome, (next outcome).NeverCloses
  | close _ => False

end Script

namespace Session

variable {α : Type}

/-! ### What the VM has sent -/

/-- The bytes that the VM sends by this input. -/
def Action.bytes : Action α → List UInt8
  | .vm bytes => bytes
  | _ => []

def sentBytes (as : List (Action α)) : List UInt8 := as.flatMap Action.bytes

theorem sentBytes_snoc (as : List (Action α)) (a : Action α) :
    sentBytes (as ++ [a]) = sentBytes as ++ a.bytes := by
  simp [sentBytes]

/-- The bytes that the VM sends before the end of its stream. -/
def streamed : List (Action α) → List UInt8
  | [] => []
  | .vmEnd :: _ => []
  | a :: as => a.bytes ++ streamed as

/-- The bytes of the input, if anybody reads them. -/
def taken (x : Session α) (a : Action α) : List UInt8 := if x.isReading then a.bytes else []

/-- The bytes that the VM sends while the session reads. -/
def intake (x : Session α) : List (Action α) → List UInt8
  | [] => []
  | a :: as => x.taken a ++ (x.step a).2.intake as

def Setup.intake (s : Setup) (as : List (Action α)) : List UInt8 := (s.session α).intake as

theorem intake_append (x : Session α) (as bs : List (Action α)) :
    x.intake (as ++ bs) = x.intake as ++ (x.run as).2.intake bs := by
  induction as generalizing x with
  | nil => rfl
  | cons a as ih =>
    rw [List.cons_append, Session.intake, ih, Session.intake, List.append_assoc]
    rfl

theorem Setup.intake_snoc (s : Setup) (as : List (Action α)) (a : Action α) :
    s.intake (as ++ [a]) = s.intake as ++ (s.after as).taken a := by
  rw [intake, intake_append, Session.intake, Session.intake, List.append_nil]
  rfl

/-! ### Lines that are told -/

/-- What it adds to the events that reading has ended. -/
def ending (reading : Bool) : List Event := if reading then [] else [.terminated]

/-- The log and the lines to be taken in tell what these bytes and the end of reading do, and
    the rest of the bytes is kept. -/
structure Tells (bytes : List UInt8) (m : Moment α) : Prop where
  marked : Marked m.session.listeners m.log.announced
  told : upToTerminated (m.log.announced ++ m.lines.filterMap Incoming.event?) =
    upToTerminated (eventsIn bytes ++ ending m.session.isReading)
  input : m.session.isReading = true →
    m.session.input = (LineBuffer.empty.receive bytes).2

namespace Tells

variable {bytes : List UInt8} {log : Happened α} {x : Session α}

/-- A moment with the same registry, input and lines tells the same if nothing has been
    announced. -/
theorem of_same {m m' : Moment α} (tells : Tells bytes m)
    (announced : m'.log.announced = m.log.announced) (lines : m'.lines = m.lines)
    (mark : m'.session.listeners.terminated = m.session.listeners.terminated)
    (reading : m'.session.isReading = m.session.isReading)
    (input : m'.session.input = m.session.input) : Tells bytes m' where
  marked := by
    unfold Marked
    rw [mark, announced]
    exact tells.marked
  told := by
    rw [announced, lines, reading]
    exact tells.told
  input h := by
    rw [input]
    exact tells.input (reading ▸ h)

theorem tearDown (tells : Tells bytes (between log x)) :
    Tells bytes (between (log ++ x.tearDown.1) x.tearDown.2) where
  marked := abiding_marked.tearDown tells.marked
  told := by
    have htold : upToTerminated log.announced =
        upToTerminated (eventsIn bytes ++ ending x.isReading) := by
      simpa [between] using tells.told
    have hlog : Happened.announced (log ++ x.tearDown.1) = log.announced ++ [.terminated] :=
      Happened.announced_append _ _
    change upToTerminated (Happened.announced (log ++ x.tearDown.1) ++ []) =
      upToTerminated (eventsIn bytes ++ [.terminated])
    rw [hlog, List.append_nil, upToTerminated_append_congr htold]
    -- if reading has ended before, there is a `terminated` already
    cases x.isReading with
    | true => rw [ending, if_pos rfl, List.append_nil]
    | false =>
      exact upToTerminated_append_of_mem
        (List.mem_append_right _ (List.mem_singleton_self _)) _
  input h := by cases h

theorem handleIncoming {item : Incoming} {rest : List Incoming}
    (tells : Tells bytes ⟨log, x, item :: rest, none⟩) :
    Tells bytes ⟨log ++ (x.handleIncoming item).1, (x.handleIncoming item).2, rest, none⟩ := by
  cases item with
  | reply | malformed =>
    have htold : upToTerminated (log.announced ++ rest.filterMap Incoming.event?) =
        upToTerminated (eventsIn bytes ++ ending x.isReading) := tells.told
    have hsilent : Tells bytes ⟨log, x, rest, none⟩ := ⟨tells.marked, htold, tells.input⟩
    exact hsilent.of_same (congrArg Happened.announced (List.append_nil log)) rfl rfl rfl rfl
  | event e =>
    have htold : upToTerminated (log.announced ++ e :: rest.filterMap Incoming.event?) =
        upToTerminated (eventsIn bytes ++ ending x.isReading) := tells.told
    refine ⟨abiding_marked.handleIncoming tells.marked _, ?_, ?_⟩
    · simp only [Session.handleIncoming, handleEvent_isReading]
      rw [← htold]
      unfold handleEvent
      split
      · next past =>
        -- after `terminated` an event is not taken in, but nor does it count
        have hpast : .terminated ∈ log.announced := tells.marked.mp past
        rw [List.append_nil, upToTerminated_append_of_mem hpast,
          upToTerminated_append_of_mem hpast]
      · rw [Happened.announced_append, List.append_assoc]
        rfl
    · have hinput : (x.handleEvent e).2.input = x.input := by
        unfold handleEvent
        split <;> rfl
      simp only [Session.handleIncoming, handleEvent_isReading, hinput]
      exact tells.input

end Tells

theorem kept_tells (bytes : List UInt8) : Kept (Tells (α := α) bytes) where
  next m m' h step := by
    cases step with
    | line => exact h.handleIncoming
    | looks | turnedAway => exact h.of_same rfl rfl rfl rfl rfl
    | asks | ends =>
      refine h.of_same ?_ rfl rfl rfl rfl
      exact (Happened.announced_append _ _).trans (List.append_nil _)
    | closes =>
      have htorn := Tells.tearDown (h.of_same rfl rfl rfl rfl rfl)
      exact htorn.of_same rfl rfl rfl rfl rfl
    | turns =>
      obtain ⟨calls, running, heq⟩ := awakened_eq _ _ _
      rw [heq]
      exact h.of_same rfl rfl rfl rfl rfl
  drain log s reading h := h.of_same rfl rfl rfl rfl rfl

/-- The lines that come with new bytes are those that complete what was kept. -/
theorem tells_lines {bytes more : List UInt8} {log : Happened α} {x : Session α}
    (reading : x.isReading = true) (tells : Tells bytes (between log x)) :
    Tells (bytes ++ more)
      ⟨log, { x with input := (x.input.receive more).2 }, (x.input.receive more).1, none⟩ where
  marked := tells.marked
  told := by
    have htold : upToTerminated log.announced = upToTerminated (eventsIn bytes) := by
      simpa [between, ending, reading] using tells.told
    rw [eventsIn_append, ← tells.input reading, ending, if_pos reading, List.append_nil]
    exact upToTerminated_append_congr htold _
  input _ := by
    rw [LineBuffer.receive_append, ← tells.input reading]
    rfl

theorem tells_begun {bytes : List UInt8} {log : Happened α} {x : Session α}
    (tells : Tells bytes (between log x)) (a : Action α) :
    Tells (bytes ++ x.taken a) (begun log x a) := by
  -- what is not bytes is not taken
  have hnone : a.bytes = [] → bytes ++ x.taken a = bytes := by
    intro silent
    rw [taken, silent, ite_self, List.append_nil]
  have hlog : (log ++ []).announced = log.announced :=
    congrArg Happened.announced (List.append_nil log)
  cases a with
  | vm more =>
    simp only [begun, taken]
    split
    · next reading => exact tells_lines reading tells
    · rw [List.append_nil]
      exact tells
  | vmEnd =>
    rw [hnone rfl]
    simp only [begun, perform, endInput]
    split
    · have htorn := Tells.tearDown tells
      exact ⟨htorn.marked, htorn.told, fun h => by cases h⟩
    · exact tells.of_same hlog rfl rfl rfl rfl
  | start =>
    rw [hnone rfl]
    exact tells.of_same rfl rfl rfl rfl rfl
  | cancel | advance | read | dropReader | listen | unlisten =>
    rw [hnone rfl]
    exact tells.of_same hlog rfl rfl rfl rfl

/-! ### When reading ends -/

theorem kept_ended : Kept (fun m : Moment α => m.session.isReading = false) where
  next m m' h step := by
    cases step with
    | line => exact (handleIncoming_isReading _ _).trans h
    | closes => rfl
    | looks | turnedAway | asks | ends => exact h
    | turns =>
      obtain ⟨calls, running, heq⟩ := awakened_eq _ _ _
      rw [heq]
      exact h
  drain log s reading h := h

/-- Whatever happens, no call closes the session. -/
structure LeavesOpen (m : Moment α) : Prop where
  waiting : ∀ w ∈ m.session.calls, ∀ outcome, (w.next outcome).NeverCloses
  running : ∀ t script, m.running = some (t, script) → script.NeverCloses

theorem leavesOpen_iff {m : Moment α} : LeavesOpen m ↔
    Governed (fun _ _ script => script.NeverCloses)
      (fun _ next => ∀ outcome, (next outcome).NeverCloses) m :=
  ⟨fun h => ⟨h.waiting, h.running⟩, fun h => ⟨h.waiting, h.running⟩⟩

/-- A script that never closes is not about to close. -/
theorem governs_neverCloses :
    Governs (α := α) (fun _ _ script => script.NeverCloses)
      (fun _ next => ∀ outcome, (next outcome).NeverCloses) where
  looks never := never _
  sends never := never
  wakes never outcome _ := never outcome
  closes never := never.elim

theorem LeavesOpen.begun {log : Happened α} {x : Session α} {a : Action α}
    (leaves : LeavesOpen (between log x))
    (never : ∀ t script, a = .start t script → script.NeverCloses) : LeavesOpen (begun log x a) :=
  leavesOpen_iff.mpr (.arrived (arrived_begun log x a) (leavesOpen_iff.mp leaves) never)

theorem kept_leavesOpen : Kept (LeavesOpen (α := α)) := by
  have hkept := kept_governed (governs_neverCloses (α := α))
  constructor
  · constructor
    intro m m' h step
    exact leavesOpen_iff.mpr (hkept.next _ _ (leavesOpen_iff.mp h) step)
  · intro log x reading h
    exact leavesOpen_iff.mpr (hkept.drain _ _ _ (leavesOpen_iff.mp h))

theorem begun_isReading (log : Happened α) (x : Session α) {a : Action α} (goes : a ≠ .vmEnd) :
    (begun log x a).session.isReading = x.isReading := by
  cases a with
  | vm bytes =>
    simp only [begun]
    split <;> rfl
  | vmEnd => exact (goes rfl).elim
  | _ => rfl

/-- None of the calls that begin closes the session. -/
def CloseNothing (as : List (Action α)) : Prop :=
  ∀ t script, .start t script ∈ as → script.NeverCloses

theorem CloseNothing.of_append {as bs : List (Action α)} (never : CloseNothing (as ++ bs)) :
    CloseNothing as :=
  fun t script h => never t script (List.mem_append_left _ h)

namespace Setup

variable (s : Setup) {as : List (Action α)} {a : Action α}

theorem tells (as : List (Action α)) : Tells (s.intake as) (between (s.log as) (s.after as)) := by
  induction as using List.reverseRecOn with
  | nil => exact ⟨s.marked [], rfl, fun _ => rfl⟩
  | append_singleton as a ih =>
    rw [intake_snoc]
    have hawaiting : Tells (s.intake as) (between (s.log as) (s.awaiting as a)) :=
      ih.of_same rfl rfl rfl rfl rfl
    exact kept_snoc (kept_tells _) s (tells_begun hawaiting a)

/-- Once reading has ended it has ended for good. -/
theorem isReading_of_snoc (reading : (s.after (as ++ [a])).isReading = true) :
    (s.after as).isReading = true := by
  by_contra hended
  rw [Bool.not_eq_true] at hended
  have hbegun : (begun (s.log as) (s.awaiting as a) a).session.isReading = false := by
    have arrived := arrived_begun (s.log as) (s.awaiting as a) a
    generalize begun (s.log as) (s.awaiting as a) a = m at arrived ⊢
    cases arrived with
    | streamEnds => rfl
    | _ => exact hended
  have hafter := kept_snoc kept_ended s hbegun
  exact Bool.false_ne_true (hafter.symm.trans reading)

/-- The end of the stream is the end of reading. -/
theorem isReading_vmEnd (as : List (Action α)) :
    (s.after (as ++ [.vmEnd])).isReading = false := by
  refine kept_snoc kept_ended s ?_
  simp only [begun, perform, endInput]
  split
  · rfl
  · next ended => exact Bool.not_eq_true _ ▸ ended

/-- While the session reads, the intake is all that the VM has sent. -/
theorem intake_of_reading (reading : (s.after as).isReading = true) :
    s.intake as = sentBytes as ∧ .vmEnd ∉ as := by
  induction as using List.reverseRecOn with
  | nil => exact ⟨rfl, List.not_mem_nil⟩
  | append_singleton as a ih =>
    have hbefore := s.isReading_of_snoc reading
    obtain ⟨hintake, hgoes⟩ := ih hbefore
    constructor
    · rw [intake_snoc, hintake, taken, if_pos hbefore, sentBytes_snoc]
    · intro hmem
      rcases List.mem_append.mp hmem with h | h
      · exact hgoes h
      · obtain rfl := List.mem_singleton.mp h
        exact Bool.false_ne_true ((s.isReading_vmEnd as).symm.trans reading)

theorem Passes.leavesOpen {s : Setup} {m : Moment α} (passes : s.Passes as m)
    (never : CloseNothing as) : LeavesOpen m := by
  refine passes.invariant (P := fun as m => CloseNothing as → LeavesOpen m) ?_ ?_ ?_ never
  · exact fun _ => leavesOpen_iff.mpr (.between fun w hw => by cases hw)
  · intro as a ih never
    have hawaiting : LeavesOpen (between (s.log as) (s.awaiting as a)) :=
      leavesOpen_iff.mpr (.between (ih never.of_append).waiting)
    refine hawaiting.begun ?_
    rintro t script rfl
    exact never t script (List.mem_append_right _ (List.mem_singleton_self _))
  · intro as
    exact ⟨⟨fun m m' h step never => kept_leavesOpen.next m m' (h never) step⟩,
      fun log x reading h never => kept_leavesOpen.drain log x reading (h never)⟩

/-- While the session reads, a call is about to close it. -/
structure IsClosing (m : Moment α) : Prop where
  reading : m.session.isReading = true
  running : ∃ t next, m.running = some (t, .close next)

/-- Within an input reading does not end but by a call. -/
def ReadsOn (s : Setup) (as : List (Action α)) (m : Moment α) : Prop :=
  s.Passes as m ∧ (m.session.isReading = true ∨ ∃ m', s.Passes as m' ∧ IsClosing m')

theorem kept_readsOn (as : List (Action α)) : Kept (s.ReadsOn as) where
  next m m' h step := by
    refine ⟨.next h.1 step, ?_⟩
    cases step with
    | line => exact h.2.imp_left (handleIncoming_isReading _ _).trans
    | looks | turnedAway | asks | ends => exact h.2
    | @closes log x t next =>
      right
      rcases h.2 with reading | found
      · exact ⟨_, h.1, reading, t, next, rfl⟩
      · exact found
    | turns =>
      obtain ⟨calls, running, heq⟩ := awakened_eq _ _ _
      rw [heq]
      exact h.2
  drain log x reading h := ⟨.drain h.1, h.2⟩

/-- How reading has come to its end: by the end of the stream, or by a call that closes the
    session. -/
structure EndsAt (s : Setup) (as before : List (Action α)) (a : Action α)
    (later : List (Action α)) : Prop where
  split : as = before ++ a :: later
  reading : (s.after before).isReading = true
  ended : (s.after (before ++ [a])).isReading = false
  intake : s.intake as = sentBytes (before ++ [a])
  cause : a = .vmEnd ∨ ∃ m, s.Passes (before ++ [a]) m ∧ IsClosing m

theorem exists_endsAt (ended : (s.after as).isReading = false) :
    ∃ before a later, s.EndsAt as before a later := by
  induction as using List.reverseRecOn with
  | nil => cases ended
  | append_singleton as a ih =>
    cases hbefore : (s.after as).isReading with
    | false =>
      obtain ⟨before, b, later, ends⟩ := ih hbefore
      refine ⟨before, b, later ++ [a], ?_, ends.reading, ends.ended, ?_, ends.cause⟩
      · rw [ends.split, List.append_assoc]
        rfl
      · rw [intake_snoc, taken, hbefore, ends.intake]
        exact List.append_nil _
    | true =>
      refine ⟨as, a, [], rfl, hbefore, ended, ?_, ?_⟩
      · rw [intake_snoc, (s.intake_of_reading hbefore).1, taken, if_pos hbefore, sentBytes_snoc]
      · by_cases hend : a = .vmEnd
        · exact Or.inl hend
        · have hbegun : s.ReadsOn (as ++ [a]) (begun (s.log as) (s.awaiting as a) a) :=
            ⟨.input (s.passes_after as) a, Or.inl ((begun_isReading _ _ hend).trans hbefore)⟩
          have hafter := kept_snoc (s.kept_readsOn _) s hbegun
          exact Or.inr (hafter.2.resolve_left (Bool.eq_false_iff.mp ended))

theorem streamed_append (goes : .vmEnd ∉ as) (later : List (Action α)) :
    streamed (as ++ later) = sentBytes as ++ streamed later := by
  induction as with
  | nil => rfl
  | cons a as ih =>
    obtain ⟨ha, has⟩ := List.ne_and_not_mem_of_not_mem_cons goes
    rw [sentBytes, List.flatMap_cons, ← sentBytes, List.append_assoc, ← ih has]
    cases a with
    | vmEnd => exact (ha rfl).elim
    | _ => rfl

/-- If no call closes the session, it reads all that the VM sends before the end of its
    stream. -/
theorem intake_of_closeNothing (never : CloseNothing as) :
    s.intake as = streamed as ∧ ((s.after as).isReading = true ↔ .vmEnd ∉ as) := by
  cases hreading : (s.after as).isReading with
  | true =>
    obtain ⟨hintake, hgoes⟩ := s.intake_of_reading hreading
    have hstreamed := streamed_append hgoes []
    rw [List.append_nil, streamed, List.append_nil] at hstreamed
    exact ⟨hintake.trans hstreamed.symm, iff_of_true rfl hgoes⟩
  | false =>
    obtain ⟨before, a, later, rfl, reading, -, hintake, cause⟩ := s.exists_endsAt hreading
    have hnever : CloseNothing (before ++ [a]) := by
      rw [List.append_cons] at never
      exact never.of_append
    obtain rfl : a = .vmEnd := by
      refine cause.resolve_right ?_
      rintro ⟨m, hpasses, -, t, next, hrun⟩
      exact (hpasses.leavesOpen hnever).running t _ hrun
    constructor
    · rw [hintake, streamed_append (s.intake_of_reading reading).2, sentBytes_snoc]
      rfl
    · refine iff_of_false Bool.false_ne_true ?_
      exact not_not_intro (List.mem_append_right _ List.mem_cons_self)

/-! ### The replay -/

/-- What a run delivers, and what its run states are. -/
structure Replayed (s : Setup) (as : List (Action α)) : Prop where
  /-- At every moment the run states are those of the events delivered so far. -/
  states : ∀ m, s.Passes as m → m.session.states = RunStates.new.opened.applyAll m.log.events
  /-- One of these moments is the end of the run. -/
  last : s.Passes as (between (s.log as) (s.after as))
  /-- For everything that happens, such as the delivery of an event, there is a moment at
      which it is the last thing that has happened. -/
  each : ∀ earlier o later, s.log as = earlier ++ o :: later →
    ∃ bs m, bs <+: as ∧ s.Passes bs m ∧ m.log = earlier ++ [o] ∧
      m.session.states = RunStates.new.opened.applyAll (Happened.events (earlier ++ [o])) ∧
      Happened.events (earlier ++ [o]) <+: s.delivered as
  /-- A listener that is not removed hears what is delivered while it is registered. -/
  heard : ∀ before later id, as = before ++ later →
    (s.after before).listeners.isRegistered id = true → .unlisten id ∉ later →
    ∃ news, s.delivered as = s.delivered before ++ news ∧
      heardBy id (s.deliveries as) = heardBy id (s.deliveries before) ++ news
  /-- What is delivered are the events of the intake up to the first `terminated`, which is
      added if reading has ended without one. -/
  stream : s.delivered as = upToTerminated (eventsIn (s.intake as)) ++
    if (s.after as).isReading || decide (.terminated ∈ eventsIn (s.intake as)) then []
    else [.terminated]
  reading : (s.after as).isReading = true → s.intake as = sentBytes as ∧ .vmEnd ∉ as
  ended : (s.after as).isReading = false → ∃ before a later, s.EndsAt as before a later
  calm : CloseNothing as →
    s.intake as = streamed as ∧ ((s.after as).isReading = true ↔ .vmEnd ∉ as)
  /-- Nothing else makes a difference: not the pieces in which the bytes come, not the
      replies among them, not the settings, the pipe, the calls, the clock or the listeners. -/
  nothing_else : ∀ {β : Type} (s' : Setup) (bs : List (Action β)),
    eventsIn (s'.intake bs) = eventsIn (s.intake as) →
    (s'.after bs).isReading = (s.after as).isReading →
    s'.delivered bs = s.delivered as ∧ (s'.after bs).states = (s.after as).states

theorem delivered_eq (as : List (Action α)) : s.delivered as =
    upToTerminated (eventsIn (s.intake as) ++ ending (s.after as).isReading) := by
  have htold := (s.tells as).told
  rw [between, List.filterMap_nil, List.append_nil] at htold
  exact htold

theorem states_eq (as : List (Action α)) :
    (s.after as).states = RunStates.new.opened.applyAll (s.delivered as) :=
  (s.passes_after as).states

/-- **The run states are a replay of what is delivered, and what is delivered is what the VM
    has sent while the session was reading.** -/
theorem replayed (s : Setup) (as : List (Action α)) : s.Replayed as where
  states m passes := passes.states
  last := s.passes_after as
  each := by
    intro earlier o later split
    obtain ⟨bs, m, hwithin, hpasses, hlog⟩ := (s.passes_after as).isPassed earlier o later split
    refine ⟨bs, m, hwithin, hpasses, hlog, ?_, ?_⟩
    · rw [← hlog]
      exact hpasses.states
    · have hsplit : s.log as = (earlier ++ [o]) ++ later := by simpa using split
      rw [delivered, hsplit]
      exact Happened.events_prefix _ _
  heard := by
    rintro before later id rfl registered stays
    exact s.heardBy_delivered registered stays
  stream := by
    rw [delivered_eq, upToTerminated_append]
    by_cases hends : .terminated ∈ eventsIn (s.intake as)
    · simp [hends]
    · cases (s.after as).isReading <;> simp [hends, ending, upToTerminated]
  reading := s.intake_of_reading
  ended := s.exists_endsAt
  calm := s.intake_of_closeNothing
  nothing_else := by
    intro β s' bs hevents hreading
    have hdelivered : s'.delivered bs = s.delivered as := by
      rw [delivered_eq, delivered_eq, hevents, hreading]
    refine ⟨hdelivered, ?_⟩
    rw [states_eq, states_eq, hdelivered]

/-- A line in two pieces, and one that comes after the end. -/
example :
    let as : List (Action Payload) := [.vm (Text.Utf8.encode "started 1\nterm".toList),
      .vm (Text.Utf8.encode "inated\nstarted 2\n".toList), .vmEnd]
    (Setup.mk 64 false Settings.default).delivered as = [.started 1, .terminated] := by
  decide +kernel

end Setup

end Session
end Pushdown
