/-
  Pushdown/Proofs/Session/Answered.lean
  =====================================
  **The reply ends the call.**  A call whose script asks one thing waits for the reply with
  the continuation that its script had at the start, whatever else has happened
  (`Setup.next_of_opening`).  When the VM's bytes complete the line of that reply, in one
  piece or many, with any other lines before it and after it, the call is the first to go
  on, and comes to the result that its script has for this payload (`Setup.answered`).
-/
import Pushdown.Proofs.Script.Asks
import Pushdown.Proofs.Session.Noise
import Pushdown.Proofs.Session.Teardown
import Pushdown.Proofs.Wire.Transcript

namespace Pushdown

open Text

/-! ### The reply and the link -/

namespace Link

variable {l : Link} {t : Ticket} {r : Request}

/-- The call has the writer, and the line of its request is in the pipe. -/
def HasAsked (l : Link) (t : Ticket) (r : Request) : Prop :=
  ∃ h, l.holder = some h ∧ h.ticket = t ∧ h.request = r ∧ h.phase = .waiting

instance (l : Link) (t : Ticket) (r : Request) : Decidable (l.HasAsked t r) :=
  decidable_of_iff (l.holder.any fun h => h.ticket = t ∧ h.request = r ∧ h.phase = .waiting)
    (by simp [HasAsked, Option.any_eq_true])

theorem HasAsked.awaits (asked : l.HasAsked t r) (sound : l.Sound) (rest : l.AtRest) :
    l.Awaits t r := by
  obtain ⟨h, held, rfl, rfl, hphase⟩ := asked
  obtain ⟨isOpen, stuck⟩ := rest.holder_stuck h held
  exact ⟨sound.holder_expected h held (stuck.unanswered hphase) isOpen, h, held, rfl, rfl⟩

/-- With its reply a call that has asked is over. -/
theorem turn_resolve (asked : l.HasAsked t r) (expected : l.expected = some r)
    (isOpen : l.closed = false) (outcome : Outcome) :
    (l.resolve ⟨r.token, outcome⟩).turn.1 = some (.command t (outcomeOf r outcome)) := by
  obtain ⟨h, held, rfl, rfl, hphase⟩ := asked
  simp [resolve, expected, held, handOver, turn, grant, isOpen, drive, poll, write, hphase,
    awaitReply]

end Link

namespace Session

variable {α : Type} {t : Ticket} {r : Request}

/-! ### The lines -/

@[simp] theorem handleAll_calls (x : Session α) (items : List Incoming) :
    (x.handleAll items).2.calls = x.calls := by
  induction items generalizing x with
  | nil => rfl
  | cons item items ih => exact (ih _).trans (handleIncoming_calls _ _)

theorem handleAll_link {x : Session α} {items : List Incoming}
    (stray : ∀ reply, .reply reply ∈ items →
      ∀ r, x.link.expected = some r → r.token ≠ reply.token) :
    (x.handleAll items).2.link = x.link := by
  induction items generalizing x with
  | nil => rfl
  | cons item items ih =>
    have hfirst : (x.handleIncoming item).2.link = x.link := by
      rcases handleIncoming_link_eq x item with hsame | ⟨reply, rfl, hresolve⟩
      · exact hsame
      · rw [hresolve, Link.resolve_of_stray (stray reply List.mem_cons_self)]
    refine (ih ?_).trans hfirst
    intro reply hreply r hr
    have hexpected : (x.handleIncoming item).2.link.expected = some r := hr
    rw [hfirst] at hexpected
    exact stray reply (List.mem_cons_of_mem _ hreply) r hexpected

/-- Of the replies with one token the first counts. -/
theorem handleAll_link_of_reply {x : Session α} {earlier later : List Incoming} {reply : Reply}
    (expected : x.link.expected = some r) (own : r.token = reply.token)
    (first : ∀ other, .reply other ∈ earlier → other.token ≠ reply.token) :
    (x.handleAll (earlier ++ .reply reply :: later)).2.link = x.link.resolve reply := by
  have hearlier : (x.handleAll earlier).2.link = x.link := by
    refine handleAll_link fun other hother r' hr' => ?_
    obtain rfl := Option.some.inj (expected.symm.trans hr')
    rw [own]
    exact (first other hother).symm
  rw [handleAll_append]
  simp only [handleAll, handleIncoming, hearlier]
  refine handleAll_link fun other _ r' hr' => ?_
  simp [Link.resolve, expected, own] at hr'

/-- The bytes complete the line of the reply; no reply that they complete before it has the
    same token. -/
structure Brings (x : Session α) (bytes : List UInt8) (reply : Reply) : Prop where
  token : reply.token < UInt64.size
  line : ∃ (lines : List (List UInt8)) (line : String) (ending : LineEnd) (more : List UInt8),
    x.input.rest ++ bytes = unlines lines ++ (Utf8.encode line.toList ++ ending.bytes ++ more) ∧
      (Incoming.reply reply).IsWritten line ∧
      ∀ before ∈ lines, lineFeed ∉ before ∧
        ∀ other, message? before = some (.reply other) → other.token ≠ reply.token

theorem Brings.received {x : Session α} {bytes : List UInt8} {reply : Reply}
    (brings : x.Brings bytes reply) (sendable : reply.outcome.IsSendable) :
    ∃ earlier later, (x.input.receive bytes).1 = earlier ++ .reply reply :: later ∧
      ∀ other, .reply other ∈ earlier → other.token ≠ reply.token := by
  obtain ⟨lines, line, ending, more, hbytes, written, hlines⟩ := brings.line
  have hsendable : (Incoming.reply reply).IsSendable := ⟨brings.token, sendable⟩
  have hread := takeAll_message hsendable written ending more
  have hall : x.input.receive bytes = LineBuffer.empty.receive (x.input.rest ++ bytes) := by
    rw [LineBuffer.receive_eq, LineBuffer.receive_eq]
    rfl
  have hrest := receive_unlines fun before hbefore => (hlines before hbefore).1
  refine ⟨lines.filterMap message?, (LineBuffer.takeAll ⟨more⟩).1, ?_, ?_⟩
  · rw [hall, hbytes, LineBuffer.receive_append, hrest, LineBuffer.receive_eq]
    exact congrArg (fun r => lines.filterMap message? ++ r.1) hread
  · intro other hother
    obtain ⟨before, hbefore, hmessage⟩ := List.mem_filterMap.mp hother
    exact (hlines before hbefore).2 other hmessage

/-! ### The call -/

/-- If a call comes to its result as soon as its command is over, this is what happens
    first. -/
theorem settle_of_answer? {x : Session α} {w : Waiting α} {outcome : Except Error Payload}
    {result : Except Error α} (ended : x.link.turn.1 = some (.command t outcome))
    (found : x.calls.find? (fun w => w.ticket = t) = some w)
    (answer : (w.next outcome).answer? x.states = some result) :
    ∃ later, x.settle.1 = .ended ⟨t, result⟩ :: later := by
  rcases hturn : x.link.turn with ⟨f, link⟩
  rw [hturn] at ended
  obtain rfl : f = some (.command t outcome) := ended
  have hgoOn : (goOn t outcome { x with link }).1 = [.ended ⟨t, result⟩] := by
    simp only [goOn, found]
    exact congrArg Prod.fst (runScript_of_answer? (s := { x with link, calls := _ }) answer)
  refine ⟨(settleIn (2 * x.calls.length + 1) (goOn t outcome { x with link }).2).1, ?_⟩
  simp only [settle, settleIn, hturn, hgoOn]
  rfl

/-- A call that asks one thing is about to ask it, or has asked it and waits to go on like
    this, or asks for nothing more. -/
theorem governs_next (t : Ticket) {next : Except Error Payload → Script α}
    (never : ∀ outcome, (next outcome).NeverSends) :
    Governs (fun u states script => u = t →
        script.NeverSends ∨ ∃ turn c, script.opening? states = some ⟨turn, c, next⟩)
      (fun u next' => u = t → next' = next) where
  looks h own := (h own).imp_left fun hnever => hnever _
  sends h own := by
    rcases h own with hnever | ⟨turn, c, first⟩
    · exact hnever.elim
    · exact (Script.Opening.mk.inj (Option.some.inj first)).2.2
  wakes h outcome states own := by
    rw [h own]
    exact Or.inl (never outcome)
  closes h own := by
    rcases h own with hnever | ⟨turn, c, first⟩
    · exact Or.inl hnever
    · cases first

namespace Setup

variable {s : Setup} {before mid : List (Action α)} {script : Script α} {c : Command}
  {next : Except Error Payload → Script α}

theorem next_of_opening (own : OwnTickets (before ++ .start t script :: mid)) {turn : Turn}
    (first : script.opening? (s.after before).states = some ⟨turn, c, next⟩)
    (never : ∀ outcome, (next outcome).NeverSends) :
    ∀ w ∈ (s.after (before ++ .start t script :: mid)).calls, w.ticket = t → w.next = next := by
  refine (s.governed (governs_next t never) _ ?_).waiting
  rintro before' u script' later split rfl
  obtain ⟨rfl, rfl⟩ := own.unique split
  exact Or.inr ⟨turn, c, first⟩

/-- A call and the reply to what it asks: after some inputs the call begins, further inputs
    come, its request is in the pipe, and now the VM's bytes complete the line of a reply
    with this payload. -/
structure Exchange (s : Setup) (before : List (Action α)) (t : Ticket) (script : Script α)
    (mid : List (Action α)) (r : Request) (payload : String) (bytes : List UInt8) : Prop where
  own : OwnTickets (before ++ .start t script :: mid)
  giveUp : AllGiveUp (before ++ .start t script :: mid)
  asked : (s.after (before ++ .start t script :: mid)).link.HasAsked t r
  brings : (s.after (before ++ .start t script :: mid)).Brings bytes ⟨r.token, .ok payload⟩

/-- The session when it has taken in the reply and no call has gone on yet. -/
def received (s : Setup) (as : List (Action α)) (bytes : List UInt8) : Session α :=
  ((s.after as).receive bytes).2

/-- **The call comes to its result with the reply.** -/
theorem answered {payload : String} {bytes : List UInt8} {result : Except Error α}
    (exchange : s.Exchange before t script mid r payload bytes) (fits : FitsEnd payload)
    (asks : script.Asks (s.after before).states r.command (readReply r.command.opcode payload)
      (s.received (before ++ .start t script :: mid) bytes).states result) :
    ∃ later, ((s.after (before ++ .start t script :: mid)).step (.vm bytes)).1.happened =
      ((s.after (before ++ .start t script :: mid)).receive bytes).1 ++
        .ended ⟨t, result⟩ :: later := by
  obtain ⟨own, giveUp, asked, brings⟩ := exchange
  obtain ⟨next, first, never, answer⟩ := asks
  have hnext := next_of_opening own first never
  have hstaffed := s.staffed own giveUp
  have hrest := s.atRest own giveUp
  have hcloses := s.closesTogether (before ++ .start t script :: mid)
  rw [received] at answer
  generalize s.after (before ++ .start t script :: mid) = x at *
  have awaits := asked.awaits hcloses.sound hrest
  have isOpen : x.link.closed = false := by
    obtain ⟨h, held, -⟩ := asked
    exact (hrest.holder_stuck h held).1
  have reading : x.isReading = true := by
    by_contra ended
    rw [Bool.not_eq_true] at ended
    exact Bool.false_ne_true (isOpen.symm.trans (hcloses.ended ended))
  obtain ⟨earlier, later, hitems, hfirst⟩ := brings.received fits
  have hreceive := receive_eq_withInput reading bytes
  have hlink : (x.receive bytes).2.link = x.link.resolve ⟨r.token, .ok payload⟩ := by
    rw [hreceive, hitems]
    exact handleAll_link_of_reply awaits.1 rfl hfirst
  have hcalls : (x.receive bytes).2.calls = x.calls := by
    rw [hreceive]
    exact handleAll_calls _ _
  obtain ⟨w, hfind, hw, hticket⟩ := hstaffed.exists_waiting awaits.mem_tickets
  have hended : (x.receive bytes).2.link.turn.1 =
      some (.command t (readReply r.command.opcode payload)) := by
    rw [hlink]
    exact Link.turn_resolve asked awaits.1 isOpen _
  obtain ⟨rest, hsettle⟩ := settle_of_answer? hended (hcalls ▸ hfind)
    (by rwa [hnext w hw hticket])
  refine ⟨rest, ?_⟩
  have hstep : (x.step (.vm bytes)).1.happened =
      ((x.opened (.vm bytes)).receive bytes).1 ++ ((x.opened (.vm bytes)).receive bytes).2.settle.1 :=
    rfl
  rw [hstep, x.opened_eq rfl, hsettle]

end Setup

end Session

end Pushdown
