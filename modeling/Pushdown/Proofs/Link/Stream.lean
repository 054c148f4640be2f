/-
  Pushdown/Proofs/Link/Stream.lean
  ================================
  **What stands on the wire.**  What the VM has read, what is in the pipe and what is
  left in the buffer make up the lines that have been put into the buffer, one after
  the other (`OnWire`).  They are lines of calls that got the writer, in the order in
  which they got it, and no call has two of them (`Lined`).

  Nothing is ever taken out of the buffer but to be written.  So an interrupted call
  leaves either no trace, if it had not put its line into the buffer yet, or the rest of
  its line, which goes before any line put in later.

  As with the calls that have got the writer, the lines are read off the moments of a
  run.
-/
import Pushdown.Proofs.Link.Serving

namespace Pushdown

open Link

/-- The bytes of the line by which the call sends its request. -/
def Sending.bytes (p : Sending) : List UInt8 := p.request.bytes

namespace Link

/-! ### Putting a line into the buffer -/

/-- Whether the call was without its line in the buffer and is not any more. -/
def hasEntered (h : Holder) : Progress → Bool
  | .ok h' => h.phase.isEarly && !h'.phase.isEarly
  | .error _ => false

/-- The call whose line goes into the buffer in the turn that starts here. -/
def enters? (m : Link) : Option Sending :=
  m.holder.bind fun h =>
    if m.closed = false ∧ hasEntered h (m.write h).2 = true then some ⟨h.ticket, h.request⟩
    else none

theorem enters?_of_free {m : Link} (free : m.holder = none) : m.enters? = none := by
  simp [enters?, free]

theorem enters?_of_closed {m : Link} (isClosed : m.closed = true) : m.enters? = none := by
  unfold enters?
  cases m.holder <;> simp [isClosed]

theorem isEarly_phaseAt (rest : List UInt8) : (phaseAt rest).isEarly = false := by
  unfold phaseAt
  split <;> rfl

/-- What comes of writing, and whether the line of the call goes into the buffer. -/
inductive Entered (g : Link) (h : Holder) : Link → Progress → Option Sending → Prop
  /-- The line is there already, or not yet. -/
  | earlier {l : Link} {h' : Holder} {written rest : List UInt8}
      (same : h'.phase.isEarly = h.phase.isEarly) (bytes : written ++ rest = g.buffer)
      (shift : l = g.shift written rest) (empty : h'.phase = .waiting → rest = []) :
      Entered g h l (.ok h') none
  | now {l : Link} {h' : Holder} {written rest : List UInt8} (early : h.phase.isEarly = true)
      (late : h'.phase.isEarly = false) (oneLine : h.request.command.IsOneLine)
      (bytes : written ++ rest = g.buffer ++ h.request.bytes)
      (shift : l = g.shift written rest) (empty : h'.phase = .waiting → rest = []) :
      Entered g h l (.ok h') (some ⟨h.ticket, h.request⟩)
  | never {l : Link} {result : Except Error Payload} {written : List UInt8}
      (content : l.pipe.content = g.pipe.content ++ written)
      (left : l.closed = false → written ++ l.buffer = g.buffer)
      (part : written <+: g.buffer) : Entered g h l (.error result) none

theorem Entered.buffer_eq_nil {g l : Link} {h h' : Holder} {line : Option Sending}
    (entered : Entered g h l (.ok h') line) (waiting : h'.phase = .waiting) : l.buffer = [] := by
  cases entered with
  | earlier _ _ shift empty =>
    rw [shift]
    exact empty waiting
  | now _ _ _ _ shift empty =>
    rw [shift]
    exact empty waiting

theorem entered_write {g l : Link} {h : Holder} {p : Progress} (sound : g.Sound)
    (held : g.holder = some h) (isOpen : g.closed = false) (heq : g.write h = (l, p)) :
    Entered g h l p g.enters? := by
  have henters : g.enters? = if hasEntered h p then some ⟨h.ticket, h.request⟩ else none := by
    simp [enters?, held, isOpen, heq]
  rw [henters]
  cases wrote_of_eq heq with
  | unchanged =>
    rw [if_neg (by simp [hasEntered])]
    exact .earlier rfl (List.nil_append _) (shift_nil g).symm (sound.waiting_buffer h held)
  | stalled early bytes left =>
    rw [if_neg (by simp [hasEntered, Phase.isEarly])]
    exact .earlier early.symm bytes rfl fun hphase => by cases hphase
  | written late bytes =>
    rw [if_neg (by simp [hasEntered, late, Phase.isEarly])]
    refine .earlier ?_ bytes rfl phaseAt_eq_waiting
    simp only [isEarly_phaseAt, late]
    rfl
  | entered early oneLine bytes =>
    rw [if_pos (by simp [hasEntered, early, isEarly_phaseAt])]
    exact .now early (isEarly_phaseAt _) oneLine bytes rfl phaseAt_eq_waiting
  | refused early severalLines bytes => exact .never rfl (fun _ => bytes) ⟨_, bytes⟩
  | broken gone =>
    refine .never (List.append_nil _).symm ?_ List.nil_prefix
    intro isOpen
    cases isOpen

end Link

/-- The lines that are put into the buffer in these moments. -/
def linesIn (moments : List Link) : List Sending := moments.filterMap enters?

/-- The lines that have been put into the buffer, in this order. -/
def Setup.lines (s : Setup) (as : List Action) : List Sending := linesIn (s.moments as)

@[simp] theorem linesIn_nil : linesIn [] = [] := rfl

@[simp] theorem linesIn_append (ms ns : List Link) :
    linesIn (ms ++ ns) = linesIn ms ++ linesIn ns := List.filterMap_append

@[simp] theorem linesIn_cons (m : Link) (ms : List Link) :
    linesIn (m :: ms) = m.enters?.toList ++ linesIn ms := by
  cases h : m.enters? <;> simp [linesIn, h]

/-! ### The bytes -/

/-- The bytes sent and those still in the pipe begin the lines; if the link is open the
    buffer holds the rest. -/
structure OnWire (sent : List UInt8) (lines : List Sending) (l : Link) : Prop where
  entered : sent ++ l.pipe.content <+: lines.flatMap Sending.bytes
  whole : l.closed = false →
    sent ++ l.pipe.content ++ l.buffer = lines.flatMap Sending.bytes

namespace OnWire

variable {sent : List UInt8} {lines : List Sending} {l l' : Link}

theorem of_same (onWire : OnWire sent lines l) (content : l'.pipe.content = l.pipe.content)
    (buffer : l'.buffer = l.buffer) (isOpen : l'.closed = false → l.closed = false) :
    OnWire sent lines l' where
  entered := content ▸ onWire.entered
  whole h := by
    rw [content, buffer]
    exact onWire.whole (isOpen h)

theorem begin (onWire : OnWire sent lines l) (a : Action) :
    OnWire sent lines (l.begin a).2 := by
  apply onWire.of_same (begin_content l a) (begin_buffer l a)
  intro isOpen
  cases hclosed : l.closed with
  | false => rfl
  | true =>
    rw [begin_closed a hclosed] at isOpen
    cases isOpen

theorem grant (onWire : OnWire sent lines l) (sound : l.Sound) : OnWire sent lines l.grant := by
  generalize hg : l.grant = g
  cases hg ▸ granted_grant sound with
  | unchanged => exact onWire
  | acquired => exact onWire.of_same rfl rfl id

/-- What is written moves from the buffer into the pipe; what is put into the buffer is a
    whole line. -/
theorem entered_write {h : Holder} {p : Progress} {line : Option Sending}
    (onWire : OnWire sent lines l) (isOpen : l.closed = false) (entered : Entered l h l' p line) :
    OnWire sent (lines ++ line.toList) l' := by
  have hwhole := onWire.whole isOpen
  cases entered with
  | earlier _ bytes shift =>
    have hnow : sent ++ l'.pipe.content ++ l'.buffer = lines.flatMap Sending.bytes := by
      rw [shift, ← hwhole, ← bytes]
      simp [Link.shift]
    rw [Option.toList_none, List.append_nil]
    exact ⟨⟨_, hnow⟩, fun _ => hnow⟩
  | now _ _ _ bytes shift =>
    have hnow : sent ++ l'.pipe.content ++ l'.buffer =
        (lines ++ [(⟨h.ticket, h.request⟩ : Sending)]).flatMap Sending.bytes := by
      have hline : [(⟨h.ticket, h.request⟩ : Sending)].flatMap Sending.bytes = h.request.bytes := by
        simp [Sending.bytes]
      rw [shift, List.flatMap_append, ← hwhole, hline, List.append_assoc _ l.buffer, ← bytes]
      simp [Link.shift]
    exact ⟨⟨_, hnow⟩, fun _ => hnow⟩
  | never content left part =>
    rw [Option.toList_none, List.append_nil]
    constructor
    · obtain ⟨rest, hrest⟩ := part
      exact ⟨rest, by rw [content, ← hwhole, ← hrest]; simp⟩
    · intro hopen
      rw [content, ← hwhole, ← left hopen]
      simp

theorem turn (onWire : OnWire sent lines l) (sound : l.Sound) :
    OnWire sent (lines ++ l.grant.enters?.toList) l.turn.2 := by
  have hgrant := onWire.grant sound
  have hsound := sound.grant
  have turned := turned_turn sound
  generalize l.turn = r at turned ⊢
  generalize l.grant = g at *
  cases turned with
  | idle free => simpa [enters?_of_free free] using hgrant
  | refused _ isClosed =>
    rw [enters?_of_closed isClosed, Option.toList_none, List.append_nil]
    exact hgrant.of_same rfl rfl id
  | dismissed free | shuts free =>
    rw [enters?_of_free free, Option.toList_none, List.append_nil]
    exact hgrant.of_same rfl rfl id
  | goesOn held isOpen polled =>
    obtain ⟨p, heq⟩ := polled.write_eq
    exact (hgrant.entered_write isOpen (Link.entered_write hsound held isOpen heq)).of_same
      rfl rfl id
  | ended held isOpen polled =>
    obtain ⟨p, heq⟩ := polled.write_eq
    exact (hgrant.entered_write isOpen (Link.entered_write hsound held isOpen heq)).of_same
      rfl rfl id

theorem drain (onWire : OnWire sent lines l) (reading : Bool) :
    OnWire (sent ++ l.drain.1) lines (l.drain.2.setReading reading) := by
  have hall : sent ++ l.drain.1 ++ (l.drain.2.setReading reading).pipe.content =
      sent ++ l.pipe.content := by
    rw [List.append_assoc]
    exact congrArg (sent ++ ·) l.drain_pipe
  constructor
  · rw [hall]
    exact onWire.entered
  · intro isOpen
    rw [hall]
    exact onWire.whole isOpen

end OnWire

/-! ### The lines -/

/-- Every line is the line of a call that has got the writer, and the call that has it is
    before its line or has just put it in. -/
structure Lined (served lines : List Sending) (l : Link) : Prop where
  among : lines.Sublist served
  oneLine : ∀ p ∈ lines, p.request.command.IsOneLine
  early : ∀ h, l.holder = some h → h.phase.isEarly = true → lines.Sublist served.dropLast
  late : ∀ h, l.holder = some h → h.phase.isEarly = false →
    lines.getLast? = some ⟨h.ticket, h.request⟩

namespace Lined

variable {served lines : List Sending} {l l' : Link}

theorem of_free (among : lines.Sublist served)
    (oneLine : ∀ p ∈ lines, p.request.command.IsOneLine) (free : l.holder = none) :
    Lined served lines l where
  among := among
  oneLine := oneLine
  early h held := by rw [free] at held; cases held
  late h held := by rw [free] at held; cases held

theorem begin (lined : Lined served lines l) (a : Action) :
    Lined served lines (l.begin a).2 := by
  refine ⟨lined.among, lined.oneLine, fun h' held hearly => ?_, fun h' held hlate => ?_⟩
  · obtain ⟨h, hwas, -, -, hphase, -⟩ := begin_holder held
    exact lined.early h hwas (hphase ▸ hearly)
  · obtain ⟨h, hwas, hticket, hrequest, hphase, -⟩ := begin_holder held
    rw [hticket, hrequest]
    exact lined.late h hwas (hphase ▸ hlate)

theorem grant (lined : Lined served lines l) (sound : l.Sound) (underway : l.IsUnderway) :
    Lined (served ++ l.grant.starter?.toList) lines l.grant := by
  generalize hg : l.grant = g
  cases hg ▸ granted_grant sound with
  | unchanged => simpa [starter?_eq_none underway] using lined
  | @acquired t c rest =>
    have hstarter : starter? ({ l with queue := rest }.acquire t c) =
        some ⟨t, l.nextRequest c⟩ := rfl
    rw [hstarter]
    refine ⟨lined.among.trans (List.sublist_append_left _ _), lined.oneLine, ?_, ?_⟩
    · intro h held hearly
      simpa using lined.among
    · rintro _ ⟨⟩ hlate
      cases hlate

theorem entered_write {h : Holder} {p : Progress} {line : Option Sending}
    (lined : Lined served lines l) (held : l.holder = some h)
    (newest : served.getLast? = some ⟨h.ticket, h.request⟩) (entered : Entered l h l' p line) :
    Lined served (lines ++ line.toList) { l' with holder := none } ∧
      ∀ h', p = .ok h' → h'.ticket = h.ticket → h'.request = h.request →
        Lined served (lines ++ line.toList) { l' with holder := some h' } := by
  cases entered with
  | @earlier h₁ _ _ same =>
    rw [Option.toList_none, List.append_nil]
    refine ⟨.of_free lined.among lined.oneLine rfl, ?_⟩
    rintro h' ⟨⟩ hticket hrequest
    refine ⟨lined.among, lined.oneLine, ?_, ?_⟩
    · rintro _ ⟨⟩ hearly
      exact lined.early h held (same ▸ hearly)
    · rintro _ ⟨⟩ hlate
      rw [hticket, hrequest]
      exact lined.late h held (same ▸ hlate)
  | now early late oneLine =>
    have hamong : (lines ++ [(⟨h.ticket, h.request⟩ : Sending)]).Sublist served := by
      rw [← List.dropLast_append_getLast? _ newest]
      exact (lined.early h held early).append (.refl _)
    have hone : ∀ p ∈ lines ++ [(⟨h.ticket, h.request⟩ : Sending)],
        p.request.command.IsOneLine := by
      intro p hp
      rcases List.mem_append.mp hp with hp | hp
      · exact lined.oneLine p hp
      · rw [List.mem_singleton.mp hp]
        exact oneLine
    refine ⟨.of_free hamong hone rfl, ?_⟩
    rintro h' ⟨⟩ hticket hrequest
    refine ⟨hamong, hone, ?_, ?_⟩
    · rintro _ ⟨⟩ hearly
      rw [late] at hearly
      cases hearly
    · rintro _ ⟨⟩ -
      rw [hticket, hrequest, Option.toList_some, List.getLast?_concat]
  | never =>
    rw [Option.toList_none, List.append_nil]
    exact ⟨.of_free lined.among lined.oneLine rfl, fun h' hp => by cases hp⟩

theorem turned {result : Option Finished × Link} (lined : Lined served lines l) (sound : l.Sound)
    (newest : ∀ h, l.holder = some h → served.getLast? = some ⟨h.ticket, h.request⟩)
    (turned : Turned l result) : Lined served (lines ++ l.enters?.toList) result.2 := by
  cases turned with
  | idle free => simpa [enters?_of_free free] using lined
  | refused _ isClosed =>
    rw [enters?_of_closed isClosed, Option.toList_none, List.append_nil]
    exact .of_free lined.among lined.oneLine rfl
  | dismissed free | shuts free =>
    rw [enters?_of_free free, Option.toList_none, List.append_nil]
    exact .of_free lined.among lined.oneLine free
  | goesOn held isOpen polled =>
    obtain ⟨p, heq⟩ := polled.write_eq
    have hentered := Link.entered_write sound held isOpen heq
    cases polled with
    | goesOn wrote =>
      have hp := congrArg Prod.snd (heq.symm.trans wrote)
      have hsame := (wrote_of_eq wrote).holder_eq
      exact (lined.entered_write held (newest _ held) hentered).2 _ hp (by rw [hsame])
        (by rw [hsame])
  | ended held isOpen polled =>
    obtain ⟨p, heq⟩ := polled.write_eq
    have hnow := (lined.entered_write held (newest _ held)
      (Link.entered_write sound held isOpen heq)).1
    exact .of_free hnow.among hnow.oneLine rfl

end Lined

end Pushdown
