/-
  Pushdown/Proofs/Session/Moments.lean
  ====================================
  **One thing after the other.**  While a session takes an input it goes through several
  *moments*.  First come the lines of the VM, one by one.  Then the link takes its
  turns; when a turn ends the command of a call, this call goes on, and nothing else
  happens until it asks for another command or is over.

  `Next` lists all that can lie between one moment and the next.  A property that every
  such step keeps, and that does not mind the VM reading, is kept by an input as a whole
  (`Kept.step`).
-/
import Pushdown.Session.Step

namespace Pushdown

/-! ### Parts of a session -/

namespace Session

variable {α : Type} (s : Session α)

@[simp] theorem tearDown_states : s.tearDown.2.states = s.states.terminated := rfl

@[simp] theorem handleEvent_link (e : Event) : (s.handleEvent e).2.link = s.link := by
  unfold handleEvent
  split <;> rfl

@[simp] theorem handleEvent_isReading (e : Event) :
    (s.handleEvent e).2.isReading = s.isReading := by
  unfold handleEvent
  split <;> rfl

@[simp] theorem handleEvent_calls (e : Event) : (s.handleEvent e).2.calls = s.calls := by
  unfold handleEvent
  split <;> rfl

@[simp] theorem handleIncoming_calls (item : Incoming) :
    (s.handleIncoming item).2.calls = s.calls := by
  cases item with
  | reply | malformed => rfl
  | event e => exact s.handleEvent_calls e

@[simp] theorem handleIncoming_isReading (item : Incoming) :
    (s.handleIncoming item).2.isReading = s.isReading := by
  cases item with
  | reply | malformed => rfl
  | event e => exact s.handleEvent_isReading e

end Session

/-! ### Moments -/

/-- A session in the middle of an input. -/
structure Moment (α : Type) where
  /-- What has happened up to now. -/
  log : Happened α
  session : Session α
  /-- The lines of the VM that are still to be taken in. -/
  lines : List Incoming
  /-- The call that is going on, with what is left of its script. -/
  running : Option (Ticket × Script α)

namespace Session

variable {α : Type}

/-- Between two inputs no line is left, and no call is going on. -/
def between (log : Happened α) (s : Session α) : Moment α := ⟨log, s, [], none⟩

/-- The moment at which an input has just arrived. -/
def begun (log : Happened α) (s : Session α) : Action α → Moment α
  | .vm bytes =>
    if s.isReading then
      ⟨log, { s with input := (s.input.receive bytes).2 }, (s.input.receive bytes).1, none⟩
    else between log s
  | .start t script => ⟨log, s, [], some (t, script)⟩
  | a => between (log ++ (s.perform a).1) (s.perform a).2

/-- All that an input can come to before anything else happens. -/
inductive Arrived (log : Happened α) (s : Session α) : Action α → Moment α → Prop
  | lines {bytes : List UInt8} (reading : s.isReading = true) :
      Arrived log s (.vm bytes)
        ⟨log, { s with input := (s.input.receive bytes).2 }, (s.input.receive bytes).1, none⟩
  | streamEnds (reading : s.isReading = true) :
      Arrived log s .vmEnd (between (log ++ s.tearDown.1)
        { s.tearDown.2 with input := LineBuffer.empty })
  | nothing {a : Action α} : Arrived log s a (between log s)
  | starts {t : Ticket} {script : Script α} :
      Arrived log s (.start t script) ⟨log, s, [], some (t, script)⟩
  | leaves {t : Ticket} :
      Arrived log s (.cancel t) (between log { s with
        link := s.link.cancel t
        calls := s.calls.filter (fun w => w.ticket != t) })
  | timePasses {ms : Nat} :
      Arrived log s (.advance ms) (between log { s with link := s.link.advance ms })
  | hangsUp : Arrived log s .dropReader (between log { s with link := s.link.dropReader })
  | registers {a : Action α} (c : ListenerChange String) :
      Arrived log s a (between log { s with listeners := s.listeners.change c })

theorem arrived_begun (log : Happened α) (s : Session α) (a : Action α) :
    Arrived log s a (begun log s a) := by
  -- nothing happens at once, but the log is written as if something did
  have hidle : ∀ {a : Action α} {s' : Session α}, Arrived log s a (between log s') →
      Arrived log s a (between (log ++ []) s') := by
    intro a s' arrived
    rwa [List.append_nil]
  cases a with
  | vm bytes =>
    simp only [begun]
    split
    · next reading => exact .lines reading
    · exact .nothing
  | vmEnd =>
    simp only [begun, perform, endInput]
    split
    · next reading => exact .streamEnds reading
    · exact hidle .nothing
  | start t script => exact .starts
  | cancel t => exact hidle .leaves
  | advance ms => exact hidle .timePasses
  | read => exact hidle .nothing
  | dropReader => exact hidle .hangsUp
  | listen label => exact hidle (.registers (.add label))
  | unlisten id => exact hidle (.registers (.remove id))

/-- What a turn of the link means for the calls: one of them may go on. -/
def awakened (log : Happened α) (s : Session α) : Option Finished → Moment α
  | some (.command t result) =>
    match s.calls.find? (fun w => w.ticket = t) with
    | some w =>
      ⟨log, { s with calls := s.calls.filter (fun v => v.ticket != t) }, [],
        some (t, w.next result)⟩
    | none => between log s
  | _ => between log s

theorem awakened_eq (log : Happened α) (s : Session α) (finished : Option Finished) :
    ∃ calls running, awakened log s finished = ⟨log, { s with calls }, [], running⟩ := by
  unfold awakened
  split
  · split
    · exact ⟨_, _, rfl⟩
    · exact ⟨_, _, rfl⟩
  · exact ⟨_, _, rfl⟩

theorem awakened_calls {log : Happened α} {s : Session α} {finished : Option Finished}
    {w : Waiting α} (waits : w ∈ (awakened log s finished).session.calls) : w ∈ s.calls := by
  unfold awakened at waits
  split at waits
  · split at waits
    · exact (List.mem_filter.mp waits).1
    · exact waits
  · exact waits

/-- Only the call whose command is over goes on. -/
theorem awakened_running {log : Happened α} {s : Session α} {finished : Option Finished}
    {t : Ticket} {script : Script α}
    (runs : (awakened log s finished).running = some (t, script)) :
    ∃ result w, finished = some (.command t result) ∧ w ∈ s.calls ∧ w.ticket = t ∧
      script = w.next result := by
  unfold awakened at runs
  split at runs
  · next u result =>
    split at runs
    · next w hfind =>
      obtain ⟨rfl, rfl⟩ := Prod.mk.inj (Option.some.inj runs)
      have own : w.ticket = u := by simpa using List.find?_some hfind
      exact ⟨result, w, rfl, List.mem_of_find?_eq_some hfind, own, rfl⟩
    · cases runs
  · cases runs

/-- All that can lie between one moment and the next. -/
inductive Next : Moment α → Moment α → Prop
  | line {log : Happened α} {s : Session α} {item : Incoming} {rest : List Incoming} :
      Next ⟨log, s, item :: rest, none⟩
        ⟨log ++ (s.handleIncoming item).1, (s.handleIncoming item).2, rest, none⟩
  | looks {log : Happened α} {s : Session α} {t : Ticket} {next : RunStates → Script α} :
      Next ⟨log, s, [], some (t, .look next)⟩ ⟨log, s, [], some (t, next s.states)⟩
  | turnedAway {log : Happened α} {s : Session α} {t : Ticket} {turn : Turn} {c : Command}
      {next : Except Error Payload → Script α} {e : Error}
      (why : s.link.refusal? turn = some e) :
      Next ⟨log, s, [], some (t, .send turn c next)⟩ ⟨log, s, [], some (t, next (.error e))⟩
  | asks {log : Happened α} {s : Session α} {t : Ticket} {turn : Turn} {c : Command}
      {next : Except Error Payload → Script α} (welcome : s.link.refusal? turn = none) :
      Next ⟨log, s, [], some (t, .send turn c next)⟩
        (between (log ++ [.request t c]) { s with
          link := s.link.enqueue ⟨t, .command c⟩
          calls := s.calls ++ [⟨t, next⟩] })
  | closes {log : Happened α} {s : Session α} {t : Ticket} {next : Script α} :
      Next ⟨log, s, [], some (t, .close next)⟩ ⟨log ++ s.close.1, s.close.2, [], some (t, next)⟩
  | ends {log : Happened α} {s : Session α} {t : Ticket} {result : Except Error α} :
      Next ⟨log, s, [], some (t, .done result)⟩ (between (log ++ [.ended ⟨t, result⟩]) s)
  | turns {log : Happened α} {s : Session α} :
      Next (between log s) (awakened log { s with link := s.link.turn.2 } s.link.turn.1)

/-- A property that is kept from one moment to the next. -/
structure KeptWithin (P : Moment α → Prop) : Prop where
  next : ∀ m m', P m → Next m m' → P m'

/-- A property that is kept whatever happens within an input. -/
structure Kept (P : Moment α → Prop) : Prop extends KeptWithin P where
  drain : ∀ log s reading, P (between log s) →
    P (between log { s with link := s.link.drain.2.setReading reading })

section

variable {P : Moment α → Prop} {log : Happened α} {s : Session α}

namespace KeptWithin

theorem handleAll (kept : KeptWithin P) (items : List Incoming) (h : P ⟨log, s, items, none⟩) :
    P (between (log ++ (s.handleAll items).1) (s.handleAll items).2) := by
  induction items generalizing log s with
  | nil => simpa [Session.handleAll, between] using h
  | cons item rest ih =>
    have hline := kept.next _ _ h .line
    simpa [Session.handleAll, List.append_assoc] using ih hline

theorem runScript (kept : KeptWithin P) {t : Ticket} (script : Script α)
    (h : P ⟨log, s, [], some (t, script)⟩) :
    P (between (log ++ (runScript t script s).1) (runScript t script s).2) := by
  induction script generalizing log s with
  | done result => exact kept.next _ _ h .ends
  | look next ih => exact ih _ (kept.next _ _ h .looks)
  | send turn c next ih =>
    simp only [Session.runScript]
    split
    · next e why => exact ih _ (kept.next _ _ h (.turnedAway why))
    · next welcome => exact kept.next _ _ h (.asks welcome)
  | close next ih =>
    have hclosed := ih (kept.next _ _ h .closes)
    simpa [Session.runScript, List.append_assoc] using hclosed

theorem perform (kept : KeptWithin P) {a : Action α} (h : P (begun log s a)) :
    P (between (log ++ (s.perform a).1) (s.perform a).2) := by
  cases a with
  | vm bytes =>
    simp only [Session.perform, receive]
    by_cases hreading : s.isReading = true
    · rw [begun, if_pos hreading] at h
      rw [if_pos hreading]
      exact kept.handleAll _ h
    · rw [begun, if_neg hreading] at h
      rw [if_neg hreading, List.append_nil]
      exact h
  | start t script => exact kept.runScript script h
  | _ => exact h

theorem goOn (kept : KeptWithin P) {t : Ticket} {result : Except Error Payload}
    (h : P (awakened log s (some (.command t result)))) :
    P (between (log ++ (goOn t result s).1) (goOn t result s).2) := by
  simp only [awakened] at h
  simp only [Session.goOn]
  split
  · next hnone =>
    rw [hnone] at h
    rwa [List.append_nil]
  · next w hsome =>
    rw [hsome] at h
    exact kept.runScript _ h

theorem settleIn (kept : KeptWithin P) (n : Nat) (h : P (between log s)) :
    P (between (log ++ (settleIn n s).1) (settleIn n s).2) := by
  induction n generalizing log s with
  | zero => simpa [Session.settleIn] using h
  | succ n ih =>
    have hturn := kept.next _ _ h .turns
    unfold Session.settleIn
    split
    · next link heq =>
      rw [heq] at hturn
      simpa [awakened] using hturn
    · next t result link heq =>
      rw [heq] at hturn
      simpa [List.append_assoc] using ih (kept.goOn hturn)
    · next heq =>
      rw [heq] at hturn
      exact ih hturn

theorem settle (kept : KeptWithin P) (h : P (between log s)) :
    P (between (log ++ s.settle.1) s.settle.2) :=
  kept.settleIn _ h

end KeptWithin

theorem Kept.step (kept : Kept P) {a : Action α}
    (h : P (begun log
      { s with link := s.link.setReading (s.link.pipe.reading || a.isRead) } a)) :
    P (between (log ++ (s.step a).1.happened) (s.step a).2) := by
  have hsettled := kept.settle (kept.perform h)
  have hdrained := kept.drain _ _ s.link.pipe.reading hsettled
  simpa [Session.step, List.append_assoc] using hdrained

end

end Session

end Pushdown
