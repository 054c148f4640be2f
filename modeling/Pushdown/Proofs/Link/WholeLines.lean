/-
  Pushdown/Proofs/Link/WholeLines.lean
  ====================================
  **No line is torn, doubled or out of order.**  However small the pipe is, whenever
  the VM reads, and whichever calls are cancelled, run out of time or are refused: what
  goes into the pipe begins the lines of calls that got the writer, one after the other
  in the order of their tokens.

  A call that is told what the VM said has its whole line in the pipe, and one that is
  told that its argument is invalid has no byte of it there.
-/
import Pushdown.Proofs.Link.Service
import Pushdown.Proofs.Link.Stream

namespace Pushdown

open Link

/-! ### Lines of calls that are over -/

/-- The whole line of the call is in the pipe. -/
def IsWritten (sent : List UInt8) (lines : List Sending) (l : Link) (t : Ticket) : Prop :=
  ∃ earlier p later, lines = earlier ++ p :: later ∧ p.ticket = t ∧
    (earlier ++ [p]).flatMap Sending.bytes <+: sent ++ l.pipe.content

theorem IsWritten.mono {sent sent' : List UInt8} {lines : List Sending} {l l' : Link}
    {t : Ticket} (written : IsWritten sent lines l t) (more : List Sending)
    (grows : sent ++ l.pipe.content <+: sent' ++ l'.pipe.content) :
    IsWritten sent' (lines ++ more) l' t := by
  obtain ⟨earlier, p, later, rfl, hticket, hpart⟩ := written
  exact ⟨earlier, p, later ++ more, by simp, hticket, hpart.trans grows⟩

/-- Some argument of the command that the call was to send would break its line. -/
def IsSeveralLines (as : List Action) (t : Ticket) : Prop :=
  ∃ turn c, .send t turn c ∈ as ∧ ¬c.IsOneLine

namespace Setup

/-- The calls and the bytes of a run as far as it has come. -/
structure Streaming (s : Setup) (as : List Action) (history : History) (l : Link) : Prop where
  underway : l.IsUnderway
  serving : Serving as (servedIn history.moments) l
  lined : Lined (servedIn history.moments) (linesIn history.moments) l
  onWire : OnWire history.sent (linesIn history.moments) l
  traced : s.Traced as history.finished l
  answered : ∀ t result, .command t result ∈ history.finished → IsAnswer result →
    IsWritten history.sent (linesIn history.moments) l t
  rejected : ∀ t fault, .command t (.error (.invalidArgument fault)) ∈ history.finished →
    IsSeveralLines as t

variable {s : Setup} {as : List Action} {history : History} {l : Link}

theorem Streaming.begin (streaming : s.Streaming as history l) (sound : l.Sound)
    (now : s.after as = l) (a : Action) :
    s.Streaming (as ++ [a])
      ⟨history.moments, history.finished ++ (l.begin a).1, history.sent⟩ (l.begin a).2 := by
  -- a call that is turned away at once is told neither what the VM said nor that its
  -- argument is invalid
  have hrefused : ∀ t result, .command t result ∈ (l.begin a).1 →
      ¬IsAnswer result ∧ ∀ fault, result ≠ .error (.invalidArgument fault) := by
    intro t result hmem
    have begun := begun_begin l a
    generalize l.begin a = r at begun hmem
    cases begun with
    | turnedAway hrefusal =>
      cases List.mem_singleton.mp hmem
      constructor
      · exact refusal?_not_answer hrefusal
      · intro fault h
        obtain rfl := Except.error.inj h
        rcases refusal?_eq_some hrefusal with h | h <;> cases h
    | _ => cases hmem
  refine ⟨streaming.underway.begin a, streaming.serving.begin a, streaming.lined.begin a,
    streaming.onWire.begin a, streaming.traced.begin sound now a, ?_, ?_⟩
  · intro t result hmem his
    rcases List.mem_append.mp hmem with hmem | hmem
    · simpa [IsWritten, begin_content] using streaming.answered t result hmem his
    · exact ((hrefused t result hmem).1 his).elim
  · intro t fault hmem
    rcases List.mem_append.mp hmem with hmem | hmem
    · obtain ⟨turn, c, hsent, hbreak⟩ := streaming.rejected t fault hmem
      exact ⟨turn, c, List.mem_append_left _ hsent, hbreak⟩
    · exact ((hrefused t _ hmem).2 fault rfl).elim

/-- What a call is told when it is over goes with what has become of its line. -/
theorem written_or_rejected {h : Holder} {result : Except Error Payload} {sent : List UInt8}
    {served lines : List Sending} {l' : Link} {finished : List Finished}
    (traced : s.Traced as finished l) (lined : Lined served lines l)
    (onWire : OnWire sent lines l) (sound : l.Sound)
    (newest : served.getLast? = some ⟨h.ticket, h.request⟩) (held : l.holder = some h)
    (isOpen : l.closed = false) (polled : Polled l h l' (.error result)) :
    (IsAnswer result → IsWritten sent (lines ++ l.enters?.toList) l' h.ticket) ∧
      ∀ fault, result = .error (.invalidArgument fault) → IsSeveralLines as h.ticket := by
  cases polled with
  | @answered h' _ wrote written handed =>
    have hsame := (wrote_of_eq wrote).holder_eq
    have hentered := entered_write sound held isOpen wrote
    have hwire := onWire.entered_write isOpen hentered
    have hlined := (lined.entered_write held newest hentered).2 h' rfl (by rw [hsame])
      (by rw [hsame])
    have hopen : l'.closed = false := (wrote_of_eq wrote).closed_eq.trans isOpen
    constructor
    · intro _
      have hlast := hlined.late h' rfl (by simp [written, Phase.isEarly])
      have hsplit := List.dropLast_append_getLast? _ hlast
      have hwhole := hwire.whole hopen
      rw [hentered.buffer_eq_nil written, List.append_nil] at hwhole
      refine ⟨_, _, [], hsplit.symm, by rw [hsame], [], ?_⟩
      rw [hsplit, ← hwhole, List.append_nil]
    · rintro fault rfl
      rw [hsame] at handed
      obtain ⟨_, _, _, _, ⟨_, _, _, _, hmeaning⟩, _⟩ := traced.handed_answered h _ held handed
      exact hmeaning.isAnswer.elim
  | overdue => exact ⟨False.elim, fun fault hresult => by cases hresult⟩
  | failed wrote =>
    constructor
    · intro his
      exact ((wrote_of_eq wrote).not_answer his).elim
    · rintro fault rfl
      obtain ⟨turn, hsent⟩ := traced.holder_sent h held
      cases wrote_of_eq wrote with
      | refused _ severalLines => exact ⟨turn, _, hsent, severalLines⟩

theorem Streaming.turn (streaming : s.Streaming as history l) (sound : l.Sound) :
    s.Streaming as ⟨history.moments ++ [l.grant], history.finished ++ l.turn.1.toList,
      history.sent⟩ l.turn.2 := by
  have hserving := streaming.serving.grant sound streaming.underway
  have hlined := streaming.lined.grant sound streaming.underway
  have hwire := streaming.onWire.grant sound
  have htraced := streaming.traced.grant sound
  have hsound := sound.grant
  have hcontent := turn_content sound
  have hturned := turned_turn sound
  have hover : ∀ t result, l.turn.1 = some (.command t result) →
      (IsAnswer result → IsWritten history.sent
        (linesIn history.moments ++ l.grant.enters?.toList) l.turn.2 t) ∧
      ∀ fault, result = .error (.invalidArgument fault) → IsSeveralLines as t := by
    intro t result hend
    generalize l.turn = r at hturned hend ⊢
    generalize l.grant = g at *
    cases hturned with
    | idle | goesOn | shuts => cases hend
    | refused | dismissed =>
      cases hend
      exact ⟨False.elim, fun fault h => by cases h⟩
    | ended held isOpen polled =>
      cases hend
      have hend := written_or_rejected htraced hlined hwire hsound (hserving.newest _ held) held
        isOpen polled
      exact hend
  refine ⟨underway_turn sound, ?_, ?_, ?_, streaming.traced.turn sound, ?_, ?_⟩
  · simpa using hserving.turned hturned
  · simpa using hlined.turned hsound hserving.newest hturned
  · simpa using streaming.onWire.turn sound
  · intro t result hmem his
    simp only [linesIn_append, linesIn_cons, linesIn_nil, List.append_nil]
    rcases List.mem_append.mp hmem with hmem | hmem
    · exact (streaming.answered t result hmem his).mono _
        (List.prefix_append_right_inj _ |>.mpr hcontent)
    · exact (hover t result (by simpa using hmem)).1 his
  · intro t fault hmem
    rcases List.mem_append.mp hmem with hmem | hmem
    · exact streaming.rejected t fault hmem
    · exact (hover t _ (by simpa using hmem)).2 fault rfl

theorem Streaming.drain (streaming : s.Streaming as history l) (reading : Bool) :
    s.Streaming as ⟨history.moments, history.finished, history.sent ++ l.drain.1⟩
      (l.drain.2.setReading reading) := by
  obtain ⟨underway, serving, lined, onWire, traced, answered, rejected⟩ := streaming
  refine ⟨underway, ⟨serving.1, serving.2, serving.3, serving.4, serving.5⟩,
    ⟨lined.1, lined.2, lined.3, lined.4⟩, onWire.drain reading,
    ⟨traced.1, traced.2, traced.3, traced.4⟩, fun t result hmem his => ?_, rejected⟩
  have hall : history.sent ++ l.drain.1 ++ (l.drain.2.setReading reading).pipe.content =
      history.sent ++ l.pipe.content := by
    rw [List.append_assoc]
    exact congrArg (history.sent ++ ·) l.drain_pipe
  obtain ⟨earlier, p, later, hlines, hticket, hpart⟩ := answered t result hmem his
  exact ⟨earlier, p, later, hlines, hticket, hall ▸ hpart⟩

theorem streaming (s : Setup) (as : List Action) :
    s.Streaming as (s.history as) (s.after as) := by
  refine s.induction (P := s.Streaming) ?_ ?_ ?_ ?_ as
  · refine ⟨s.underway [], s.serving [], .of_free (.refl _) (fun p hp => by cases hp) rfl,
      ⟨List.prefix_rfl, fun _ => rfl⟩, s.traced [], fun t result hmem => ?_,
      fun t fault hmem => ?_⟩
    · cases hmem
    · cases hmem
  · exact fun as a sound ih => ih.begin sound rfl a
  · exact fun as history l sound ih => ih.turn sound
  · exact fun as history l reading _ ih => ih.drain reading

/-! ### Whole lines -/

/-- What goes into the pipe are lines, whole and in order. -/
structure WholeLines (s : Setup) (as : List Action) : Prop where
  /-- What has gone into the pipe begins the lines, one after the other, … -/
  entered : s.sent as ++ (s.after as).pipe.content <+: (s.lines as).flatMap Sending.bytes
  /-- … also at any time within the next input; … -/
  entered_within : ∀ a n, s.sent as ++ (s.within as a n).pipe.content <+:
    (s.lines (as ++ [a])).flatMap Sending.bytes
  /-- … and as long as the link is open the buffer holds the rest of them. -/
  unwritten : (s.after as).closed = false →
    s.sent as ++ (s.after as).pipe.content ++ (s.after as).buffer =
      (s.lines as).flatMap Sending.bytes
  /-- Lines that are there stay, and those that come go behind them. -/
  extends_later : ∀ bs, s.lines as <+: s.lines (as ++ bs)
  /-- The lines are in the order of their tokens. -/
  ordered : (s.lines as).Pairwise fun p q => p.request.token < q.request.token
  /-- They are lines of calls that have got the writer, … -/
  served : (s.lines as).Sublist (s.served as)
  /-- … each with the command that its call was to send, … -/
  sent : ∀ p ∈ s.lines as, ∃ turn, .send p.ticket turn p.request.command ∈ as
  /-- … which no argument breaks, so that it is encoded as it is; … -/
  oneLine : ∀ p ∈ s.lines as,
    p.request.command.IsOneLine ∧ p.request.encode = .ok p.request.line
  /-- … and no call has two of them. -/
  once : ((s.lines as).map Sending.ticket).Nodup
  /-- A call whose argument is rejected has no line. -/
  rejected : ∀ t fault, .command t (.error (.invalidArgument fault)) ∈ s.finished as →
    ∀ p ∈ s.lines as, p.ticket ≠ t
  /-- A call that is told what the VM said has its whole line in the pipe. -/
  answered : ∀ t result, .command t result ∈ s.finished as → IsAnswer result →
    IsWritten (s.sent as) (s.lines as) (s.after as) t

/-- No two calls go by the same number, so the number tells the command. -/
theorem send_unique (own : OwnTickets as) {t : Ticket} {turn turn' : Turn} {c c' : Command}
    (h : .send t turn c ∈ as) (h' : .send t turn' c' ∈ as) : c = c' := by
  obtain ⟨before, later, rfl⟩ := List.append_of_mem h
  have hsplit : ticketsOf (before ++ .send t turn c :: later) =
      ticketsOf before ++ t :: ticketsOf later := by
    simp [ticketsOf, Action.ticket?]
  rw [OwnTickets, hsplit] at own
  obtain ⟨-, hright, hapart⟩ := List.nodup_append.mp own
  rcases List.mem_append.mp h' with h' | h'
  · exact (hapart t (mem_ticketsOf h' rfl) t (by simp) rfl).elim
  · rcases List.mem_cons.mp h' with h' | h'
    · exact (Action.send.inj h').2.2.symm
    · exact ((List.nodup_cons.mp hright).1 (mem_ticketsOf h' rfl)).elim

theorem momentsOf_prefix {k : Nat} {l : Link} (sound : l.Sound) (enough : l.tickets.length < k)
    (n : Nat) : momentsOf n l <+: momentsOf k l := by
  induction k generalizing l n with
  | zero => omega
  | succ k ih =>
    cases n with
    | zero => exact List.nil_prefix
    | succ n =>
      simp only [momentsOf]
      rcases hturn : l.turn with ⟨_ | f, l'⟩
      · exact List.prefix_rfl
      · have hsound := sound.of_turn hturn
        have hlength : l'.tickets.length + 1 = l.tickets.length :=
          congrArg List.length (tickets_of_turn sound hturn)
        exact (List.prefix_cons_inj _).mpr (ih hsound (by omega) n)

theorem lines_append (s : Setup) (as bs : List Action) :
    s.lines as <+: s.lines (as ++ bs) := by
  rw [lines, lines, moments, moments, runMoments_append, linesIn_append]
  exact List.prefix_append _ _

theorem streaming_within (s : Setup) (as : List Action) (a : Action) (n : Nat) :
    s.Streaming (as ++ [a])
      ⟨s.moments as ++ momentsOf n ((s.after as).begin a).2,
        s.finished as ++ ((s.after as).begin a).1 ++ (turns n ((s.after as).begin a).2).1,
        s.sent as⟩ (s.within as a n) :=
  turns_induction (P := s.Streaming (as ++ [a])) (fun _ _ sound ih => ih.turn sound) n
    ⟨s.moments as, s.finished as ++ ((s.after as).begin a).1, s.sent as⟩ ((s.sound as).begin a)
    ((s.streaming as).begin (s.sound as) rfl a)

theorem entered_within (s : Setup) (as : List Action) (a : Action) (n : Nat) :
    s.sent as ++ (s.within as a n).pipe.content <+:
      (s.lines (as ++ [a])).flatMap Sending.bytes := by
  have hmoments : momentsOf n ((s.after as).begin a).2 <+: (s.after as).moments a :=
    momentsOf_prefix ((s.sound as).begin a) (by rw [tickets_length]; omega) n
  obtain ⟨more, hmore⟩ := hmoments
  refine (s.streaming_within as a n).onWire.entered.trans ?_
  rw [lines, moments_snoc, ← hmore]
  simp

/-- **Command lines are never torn, doubled or reordered.** -/
theorem wholeLines (s : Setup) (as : List Action) (own : OwnTickets as) : s.WholeLines as := by
  have hstreaming := s.streaming as
  have hamong := hstreaming.lined.among
  have htickets : ((s.served as).map Sending.ticket).Nodup :=
    own.sublist ((List.sublist_append_left _ _).trans (s.serving as).order)
  exact {
    entered := hstreaming.onWire.entered
    entered_within := s.entered_within as
    unwritten := hstreaming.onWire.whole
    extends_later := s.lines_append as
    ordered := by
      have htokens : (s.served as).Pairwise fun p q => p.request.token < q.request.token := by
        have hrange := @List.pairwise_lt_range' 1 (s.served as).length 1 Nat.one_pos
        rw [← (s.serving as).tokens, List.pairwise_map] at hrange
        exact hrange
      exact htokens.sublist hamong
    served := hamong
    sent := fun p hp => s.served_sent (hamong.subset hp)
    oneLine := fun p hp =>
      have honeLine := hstreaming.lined.oneLine p hp
      ⟨honeLine, Request.encode_of_isOneLine honeLine⟩
    once := htickets.sublist (hamong.map _)
    rejected := by
      rintro t fault hmem p hp rfl
      obtain ⟨turn, c, hsent, hbreak⟩ := hstreaming.rejected _ fault hmem
      obtain ⟨turn', hsent'⟩ := s.served_sent (hamong.subset hp)
      rw [send_unique own hsent hsent'] at hbreak
      exact hbreak (hstreaming.lined.oneLine p hp)
    answered := hstreaming.answered }

/-- A pipe of four bytes: the first call runs out of time in the middle of its line, the
    second is refused, and the third writes the rest of the first line before its own. -/
theorem wholeLines_interrupted :
    let s : Setup := ⟨4, false, some 50⟩
    let as : List Action := [.send 1 .wait (.step 1), .advance 50, .send 2 .wait (.eval 1 "a\nb"),
      .send 3 .wait .exit, .read, .resolve ⟨3, .ok ""⟩]
    OwnTickets as ∧ s.sent as = Text.Utf8.encode "#1 step 1\n#3 exit\n".toList ∧
      (s.lines as).map Sending.ticket = [1, 3] ∧ s.WholeLines as :=
  ⟨by decide, by decide, by decide, wholeLines _ _ (by decide)⟩

end Setup

end Pushdown
