/-
  Pushdown/Proofs/Session/Lines.lean
  ==================================
  **What a session sends.**  A command is asked for once, when a call joins the queue.  From
  then on it is in one place: in the queue, with the call that has the writer, or on a line
  in the buffer; or it is gone, because its call has ended before its line.  So the lines
  that have been put into the buffer, and after them the commands that still wait, are some
  of the commands that have been asked for, in the same order (`Sends`).

  With what is known of the bytes (`OnWire`) this says what the VM reads in a run of a
  session: lines of commands that calls have asked for, in this order (`Setup.sends`).
-/
import Pushdown.Proofs.Link.Stream
import Pushdown.Proofs.Session.Teardown

namespace Pushdown

/-- The call and the command of a line. -/
def Sending.asked (p : Sending) : Ticket × Command := (p.ticket, p.request.command)

/-- What a call in the queue asks for, if it is not a shutdown. -/
def Queued.asked? (q : Queued) : Option (Ticket × Command) :=
  match q.errand with
  | .command c => some (q.ticket, c)
  | .shutdown _ => none

/-- What the call that has the writer asks for, if its line is not in the buffer yet. -/
def Holder.asked? (h : Holder) : Option (Ticket × Command) :=
  if h.phase.isEarly then some (h.ticket, h.request.command) else none

namespace Link

variable {l g : Link}

/-- The commands whose lines are not in the buffer yet, the oldest first. -/
def unsent (l : Link) : List (Ticket × Command) :=
  (l.holder.bind Holder.asked?).toList ++ l.queue.filterMap Queued.asked?

/-! ### Inputs -/

theorem unsent_enqueue (l : Link) (t : Ticket) (c : Command) :
    (l.enqueue ⟨t, .command c⟩).unsent = l.unsent ++ [(t, c)] := by
  simp [unsent, enqueue, Queued.asked?]

theorem unsent_withQueue {queue : List Queued} (fewer : queue.Sublist l.queue) :
    (unsent { l with queue }).Sublist l.unsent :=
  List.Sublist.append (.refl _) (fewer.filterMap _)

theorem bind_asked?_handOver (o : Option Holder) (r : Request) (result : Except Error Payload) :
    (o.map (handOver r result)).bind Holder.asked? = o.bind Holder.asked? := by
  cases o with
  | none => rfl
  | some h =>
    simp only [Option.map_some, Option.bind_some, handOver]
    split <;> rfl

/-- Only a call that begins asks for more. -/
theorem unsent_begin (l : Link) {a : Action} (quiet : ∀ t turn c, a ≠ .send t turn c) :
    (l.begin a).2.unsent.Sublist l.unsent := by
  have begun := begun_begin l a
  generalize l.begin a = r at begun ⊢
  cases begun with
  | joins => exact (quiet _ _ _ rfl).elim
  | letsGo => exact List.sublist_append_right _ _
  | leaves => exact unsent_withQueue List.filter_sublist
  | handed =>
    rw [unsent, bind_asked?_handOver]
    exact .refl _
  | shutsDown => simp [unsent, enqueue, close, Queued.asked?]
  | _ => exact .refl _

/-! ### Turns -/

theorem unsent_grant (sound : l.Sound) : l.grant.unsent = l.unsent := by
  generalize hg : l.grant = g
  cases hg ▸ granted_grant sound with
  | unchanged => rfl
  | acquired free queue =>
    simp [unsent, acquire, free, queue, Holder.asked?, Queued.asked?, nextRequest, Phase.isEarly]

/-- A line that goes into the buffer is that of the call that has the writer. -/
theorem Entered.asked_sublist {h : Holder} {p : Progress} {line : Option Sending}
    (entered : Entered g h l p line) :
    (line.toList.map Sending.asked).Sublist h.asked?.toList := by
  cases entered with
  | earlier | never => exact List.nil_sublist _
  | now early =>
    rw [Holder.asked?, if_pos early]
    exact .refl _

/-- It is either still to be put in, or it is there. -/
theorem Entered.asked_eq {h h' : Holder} {line : Option Sending}
    (entered : Entered g h l (.ok h') line) (same : h' = { h with phase := h'.phase }) :
    line.toList.map Sending.asked ++ h'.asked?.toList = h.asked?.toList := by
  rw [same]
  cases entered with
  | earlier still => simp [Holder.asked?, still]
  | now early late => simp [Holder.asked?, early, late, Sending.asked]

theorem Entered.isOneLine {h : Holder} {l : Link} {p : Progress} {q : Sending}
    (entered : Entered g h l p (some q)) : q.request.command.IsOneLine := by
  cases entered with
  | now early late oneLine => exact oneLine

theorem isOneLine_of_enters? (sound : g.Sound) {p : Sending} (enters : g.enters? = some p) :
    p.request.command.IsOneLine := by
  cases held : g.holder with
  | none =>
    rw [enters?_of_free held] at enters
    cases enters
  | some h =>
    by_cases isClosed : g.closed = true
    · rw [enters?_of_closed isClosed] at enters
      cases enters
    · have entered := entered_write sound held (by simpa using isClosed) rfl
      rw [enters] at entered
      exact entered.isOneLine

theorem Turned.unsent_sublist {result : Option Finished × Link} (turned : Turned g result)
    (sound : g.Sound) :
    (g.enters?.toList.map Sending.asked ++ result.2.unsent).Sublist g.unsent := by
  cases turned with
  | idle free => simp [enters?_of_free free]
  | refused _ isClosed =>
    rw [enters?_of_closed isClosed]
    exact List.sublist_append_right _ _
  | dismissed free queue | shuts free queue =>
    rw [enters?_of_free free]
    exact unsent_withQueue (queue ▸ List.sublist_cons_self _ _)
  | @goesOn h h' l' held isOpen polled =>
    have hqueue := polled.wrote_ok.queue_eq
    obtain ⟨p, heq⟩ := polled.write_eq
    have entered := entered_write sound held isOpen heq
    cases polled with
    | goesOn wrote =>
      obtain rfl : p = .ok h' := congrArg Prod.snd (heq.symm.trans wrote)
      have hline := entered.asked_eq (wrote_of_eq wrote).holder_eq
      rw [unsent, unsent, held, hqueue, ← List.append_assoc]
      exact (hline ▸ .refl _ : List.Sublist _ h.asked?.toList).append (.refl _)
  | ended held isOpen polled =>
    obtain ⟨p, heq⟩ := polled.write_eq
    obtain ⟨_, wrote⟩ := polled.wrote
    have entered := entered_write sound held isOpen heq
    rw [unsent, unsent, held, release_queue, wrote.queue_eq]
    exact entered.asked_sublist.append (.refl _)

theorem unsent_turn (sound : l.Sound) :
    (l.grant.enters?.toList.map Sending.asked ++ l.turn.2.unsent).Sublist l.unsent := by
  rw [← unsent_grant sound]
  exact (turned_turn sound).unsent_sublist sound.grant

end Link

/-! ### Lines, and commands that wait -/

/-- The bytes sent are those of these lines, and the lines and the commands that wait are
    some of these requests, in their order. -/
structure Sends (sent : List UInt8) (lines : List Sending) (requests : List (Ticket × Command))
    (l : Link) : Prop where
  sound : l.Sound
  onWire : OnWire sent lines l
  oneLine : ∀ p ∈ lines, p.request.command.IsOneLine
  order : (lines.map Sending.asked ++ l.unsent).Sublist requests

namespace Sends

variable {sent : List UInt8} {lines : List Sending} {requests : List (Ticket × Command)} {l : Link}

theorem perform (sends : Sends sent lines requests l) {a : Link.Action}
    (quiet : ∀ t turn c, a ≠ .send t turn c) (unread : a ≠ .read) :
    Sends sent lines requests (l.perform a).2 := by
  rw [← Link.begin_eq l unread]
  refine ⟨sends.sound.begin a, sends.onWire.begin a, sends.oneLine, ?_⟩
  exact (List.Sublist.append (.refl _) (l.unsent_begin quiet)).trans sends.order

theorem withPipe (sends : Sends sent lines requests l) {pipe : Pipe}
    (content : pipe.content = l.pipe.content) : Sends sent lines requests { l with pipe } :=
  ⟨sends.sound.withPipe pipe, sends.onWire.of_same content rfl id, sends.oneLine, sends.order⟩

theorem enqueue (sends : Sends sent lines requests l) (t : Ticket) (c : Command) :
    Sends sent lines (requests ++ [(t, c)]) (l.enqueue ⟨t, .command c⟩) where
  sound := sends.sound.enqueue fun _ => ⟨c, rfl⟩
  onWire := sends.onWire.of_same rfl rfl id
  oneLine := sends.oneLine
  order := by
    rw [Link.unsent_enqueue, ← List.append_assoc]
    exact sends.order.append (.refl _)

theorem turn (sends : Sends sent lines requests l) :
    Sends sent (lines ++ l.grant.enters?.toList) requests l.turn.2 where
  sound := sends.sound.turn
  onWire := sends.onWire.turn sends.sound
  oneLine := by
    intro p hp
    rcases List.mem_append.mp hp with hbefore | hnew
    · exact sends.oneLine p hbefore
    · exact Link.isOneLine_of_enters? sends.sound.grant (Option.mem_toList.mp hnew)
  order := by
    rw [List.map_append, List.append_assoc]
    exact (List.Sublist.append (.refl _) (Link.unsent_turn sends.sound)).trans sends.order

theorem drain (sends : Sends sent lines requests l) (reading : Bool) :
    Sends (sent ++ l.drain.1) lines requests (l.drain.2.setReading reading) :=
  ⟨sends.sound.drain.withPipe _, sends.onWire.drain reading, sends.oneLine, sends.order⟩

end Sends

/-! ### Sessions -/

namespace Happened

variable {α : Type}

def asked? : Occurrence α → Option (Ticket × Command)
  | .request t c => some (t, c)
  | .event .. | .tearDown _ | .ended _ => none

/-- What calls have asked for, in this order. -/
def requests (h : Happened α) : List (Ticket × Command) := h.filterMap asked?

theorem requests_append (h k : Happened α) : requests (h ++ k) = h.requests ++ k.requests :=
  List.filterMap_append

theorem exists_of_mem_requests {h : Happened α} {t : Ticket} {c : Command}
    (asked : (t, c) ∈ h.requests) : ∃ earlier later, h = earlier ++ .request t c :: later := by
  obtain ⟨o, ho, hasked⟩ := List.mem_filterMap.mp asked
  cases o with
  | request u d =>
    obtain ⟨rfl, rfl⟩ := Prod.mk.inj (Option.some.inj hasked)
    exact List.append_of_mem ho
  | event | tearDown | ended => cases hasked

end Happened

/-- The line that goes out before the next moment. -/
def Moment.entering? {α : Type} (m : Moment α) : Option Sending :=
  match m.lines, m.running with
  | [], none => m.session.link.grant.enters?
  | _, _ => none

namespace Session

variable {α : Type} {sent : List UInt8}

theorem requests_handleIncoming (s : Session α) (item : Incoming) :
    (s.handleIncoming item).1.requests = [] := by
  cases item with
  | reply | malformed => rfl
  | event e =>
    simp only [handleIncoming, handleEvent]
    split <;> rfl

/-- There are lines for the bytes that the VM has read by now. -/
def SendsLines (sent : List UInt8) (m : Moment α) : Prop :=
  ∃ lines, Sends sent lines m.log.requests m.session.link

theorem sends_of_quiet {lines : List Sending} {log o : Happened α} {l l' : Link}
    (sends : Sends sent lines log.requests l) (quiet : o.requests = [])
    (link : ∀ requests, Sends sent lines requests l → Sends sent lines requests l') :
    Sends sent lines (Happened.requests (log ++ o)) l' := by
  rw [Happened.requests_append, quiet, List.append_nil]
  exact link _ sends

/-- From one moment to the next one line may go out. -/
theorem sends_next {lines : List Sending} {m m' : Moment α} (step : Next m m')
    (sends : Sends sent lines m.log.requests m.session.link) :
    Sends sent (lines ++ m.entering?.toList) m'.log.requests m'.session.link := by
  cases step with
  | @line log s item =>
    rw [Moment.entering?, Option.toList_none, List.append_nil]
    refine sends_of_quiet sends (requests_handleIncoming s item) fun requests sends => ?_
    cases item with
    | reply r => exact sends.perform (a := .resolve r) (by simp) (by simp)
    | event e => simpa [handleIncoming] using sends
    | malformed => exact sends
  | looks | turnedAway =>
    rw [Moment.entering?, Option.toList_none, List.append_nil]
    exact sends
  | @asks log s t turn c =>
    have hasks : Sends sent lines (log.requests ++ [(t, c)]) (s.link.enqueue ⟨t, .command c⟩) :=
      Sends.enqueue sends t c
    rw [Moment.entering?, Option.toList_none, List.append_nil, between, Happened.requests_append]
    exact hasks
  | closes =>
    rw [Moment.entering?, Option.toList_none, List.append_nil]
    refine sends_of_quiet sends rfl fun requests sends => ?_
    exact (sends.perform (a := .close) (by simp) (by simp)).withPipe rfl
  | ends =>
    rw [Moment.entering?, Option.toList_none, List.append_nil]
    exact sends_of_quiet sends rfl fun _ sends => sends
  | turns =>
    obtain ⟨calls, running, heq⟩ := awakened_eq _ _ _
    rw [heq]
    exact Sends.turn sends

theorem keptWithin_sendsLines : KeptWithin (SendsLines (α := α) sent) where
  next _ _ h step := by
    obtain ⟨lines, sends⟩ := h
    exact ⟨_, sends_next step sends⟩

/-- No line goes out when an input arrives. -/
theorem sends_arrived {lines : List Sending} {log : Happened α} {s : Session α} {a : Action α}
    {m : Moment α} (arrived : Arrived log s a m) (sends : Sends sent lines log.requests s.link) :
    Sends sent lines m.log.requests m.session.link := by
  cases arrived with
  | streamEnds =>
    refine sends_of_quiet sends rfl fun requests sends => ?_
    exact sends.perform (a := .close) (by simp) (by simp)
  | @leaves t => exact sends.perform (a := .cancel t) (by simp) (by simp)
  | @timePasses ms => exact sends.perform (a := .advance ms) (by simp) (by simp)
  | hangsUp => exact sends.perform (a := .dropReader) (by simp) (by simp)
  | _ => exact sends

/-- What an input adds to the log and to the bytes that the VM has read fits together. -/
theorem SendsLines.step {log : Happened α} {s : Session α} (h : SendsLines sent (between log s))
    (a : Action α) : SendsLines (sent ++ (s.step a).1.sent)
      (between (log ++ (s.step a).1.happened) (s.step a).2) := by
  have hbegun : SendsLines sent
      (begun log { s with link := s.link.setReading (s.link.pipe.reading || a.isRead) } a) := by
    obtain ⟨lines, sends⟩ := h
    have hopened : Sends sent lines log.requests
        (s.link.setReading (s.link.pipe.reading || a.isRead)) := sends.withPipe rfl
    exact ⟨lines, sends_arrived (arrived_begun _ _ a) hopened⟩
  have hkept : KeptWithin (SendsLines (α := α) sent) := keptWithin_sendsLines
  obtain ⟨lines, sends⟩ := hkept.settle (hkept.perform hbegun)
  rw [List.append_assoc] at sends
  exact ⟨lines, sends.drain s.link.pipe.reading⟩

namespace Setup

theorem sent_snoc (s : Setup) (as : List (Action α)) (a : Action α) :
    s.sent (as ++ [a]) = s.sent as ++ ((s.after as).step a).1.sent := by
  simp only [sent, after, run_append, List.flatMap_append]
  simp [run]

/-- **The VM reads lines of what has been asked for, in the order in which it was.** -/
theorem sends (s : Setup) (as : List (Action α)) :
    ∃ lines, Sends (s.sent as) lines (s.log as).requests (s.after as).link := by
  induction as using List.reverseRecOn with
  | nil =>
    refine ⟨[], Link.Sound.of_free rfl rfl fun _ q hq => (by cases hq), ?_, ?_, List.nil_sublist _⟩
    · exact ⟨List.prefix_rfl, fun _ => rfl⟩
    · intro p hp
      cases hp
  | append_singleton as a ih =>
    rw [sent_snoc, log_snoc, after_snoc]
    exact SendsLines.step ih a

end Setup

end Session

end Pushdown
