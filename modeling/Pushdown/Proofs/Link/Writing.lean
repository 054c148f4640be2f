/-
  Pushdown/Proofs/Link/Writing.lean
  =================================
  **How far a call can come.**  The call that has the writer writes what the pipe
  has room for, and then looks for its reply and at the clock.  This file says once
  what may come of that:

  * `Wrote` — which bytes have gone into the pipe, which are left, and whether the
    line of the call is among them;
  * `Polled` — whether the call goes on, and if not, why it is over.

  What other files need of `write` and `poll` they read off these two.
-/
import Pushdown.Link.Step

namespace Pushdown

/-! ### Lines -/

/-- No argument would break the line. -/
def Command.IsOneLine (c : Command) : Prop := ∀ arg ∈ c.args, hasLineBreak arg = false

namespace Request

/-- The bytes of the request's line. -/
def bytes (r : Request) : List UInt8 := Text.Utf8.encode r.line.toList

theorem encode_eq_ok {r : Request} {line : String} (h : r.encode = .ok line) :
    line = r.line ∧ r.command.IsOneLine := by
  unfold encode at h
  cases hfind : r.command.args.find? hasLineBreak with
  | some arg => simp [hfind] at h
  | none =>
    simp only [hfind, Except.ok.injEq] at h
    exact ⟨h.symm, fun arg harg => by simpa using List.find?_eq_none.mp hfind arg harg⟩

theorem encode_of_isOneLine {r : Request} (h : r.command.IsOneLine) : r.encode = .ok r.line := by
  have hnone : r.command.args.find? hasLineBreak = none :=
    List.find?_eq_none.mpr fun arg harg => by simp [h arg harg]
  rw [encode, hnone]

theorem encode_eq_error {r : Request} {e : Error} (h : r.encode = .error e) :
    (∃ fault, e = .invalidArgument fault) ∧ ¬r.command.IsOneLine := by
  unfold encode at h
  cases hfind : r.command.args.find? hasLineBreak with
  | some arg =>
    simp only [hfind, Except.error.injEq] at h
    constructor
    · exact ⟨_, h.symm⟩
    · intro oneLine
      have hbreak := List.find?_some hfind
      rw [oneLine arg (List.mem_of_find?_eq_some hfind)] at hbreak
      cases hbreak
  | none => simp [hfind] at h

end Request

/-- The line of the call is not in the buffer yet. -/
def Phase.isEarly : Phase → Bool
  | .starting | .stalled => true
  | .writing | .waiting => false

namespace Link

/-! ### Writing -/

/-- The first bytes of the buffer have gone into the pipe. -/
def shift (l : Link) (written rest : List UInt8) : Link :=
  { l with pipe := { l.pipe with content := l.pipe.content ++ written }, buffer := rest }

/-- Where a call stands whose line is in the buffer. -/
def phaseAt (rest : List UInt8) : Phase := if rest.isEmpty then .waiting else .writing

theorem phaseAt_eq_waiting {rest : List UInt8} (h : phaseAt rest = .waiting) : rest = [] := by
  unfold phaseAt at h
  split at h
  · next hempty => simpa using hempty
  · cases h

theorem ne_nil_of_phaseAt {rest : List UInt8}
    (h : phaseAt rest = .writing ∨ phaseAt rest = .stalled) : rest ≠ [] := by
  rintro rfl
  simp [phaseAt] at h

theorem shift_nil (l : Link) : l.shift [] l.buffer = l := by simp [shift]

theorem flush?_eq_some {l l' : Link} {n : Nat} (h : l.flush? n = some l') :
    l' = l.shift (l.buffer.take n) (l.buffer.drop n) ∧
      (l.buffer = [] ∨ l.pipe.readerGone = false) := by
  unfold flush? at h
  by_cases hempty : l.buffer = []
  · have htake : l.buffer.take n = [] := by simp [hempty]
    have hdrop : l.buffer.drop n = l.buffer := by simp [hempty]
    rw [if_pos (by simp [hempty])] at h
    rw [htake, hdrop, shift_nil]
    exact ⟨(Option.some.inj h).symm, Or.inl hempty⟩
  · rw [if_neg (by simpa using hempty)] at h
    by_cases hgone : l.pipe.readerGone = true
    · rw [if_pos hgone] at h
      cases h
    · rw [if_neg hgone] at h
      exact ⟨(Option.some.inj h).symm, Or.inr (by simpa using hgone)⟩

theorem flush?_eq_none {l : Link} {n : Nat} (h : l.flush? n = none) :
    l.buffer ≠ [] ∧ l.pipe.readerGone = true := by
  unfold flush? at h
  by_cases hempty : l.buffer = []
  · simp [hempty] at h
  · by_cases hgone : l.pipe.readerGone = true
    · exact ⟨hempty, hgone⟩
    · simp [hempty, hgone] at h

/-- What may come of writing. -/
inductive Wrote (l : Link) (h : Holder) : Link → Progress → Prop
  /-- There is nothing to write, or no reason to try. -/
  | unchanged (resting : h.phase = .waiting ∨ h.phase = .stalled) : Wrote l h l (.ok h)
  /-- Earlier lines take all the room there is. -/
  | stalled {written rest : List UInt8} (early : h.phase.isEarly = true)
      (bytes : written ++ rest = l.buffer) (left : rest ≠ []) :
      Wrote l h (l.shift written rest) (.ok { h with phase := .stalled })
  | written {written rest : List UInt8} (late : h.phase = .writing)
      (bytes : written ++ rest = l.buffer) :
      Wrote l h (l.shift written rest) (.ok { h with phase := phaseAt rest })
  | entered {written rest : List UInt8} (early : h.phase.isEarly = true)
      (oneLine : h.request.command.IsOneLine)
      (bytes : written ++ rest = l.buffer ++ h.request.bytes) :
      Wrote l h (l.shift written rest) (.ok { h with phase := phaseAt rest })
  | refused {written rest : List UInt8} {fault : ArgumentFault}
      (early : h.phase.isEarly = true) (severalLines : ¬h.request.command.IsOneLine)
      (bytes : written ++ rest = l.buffer) :
      Wrote l h (l.shift written rest) (.error (.error (.invalidArgument fault)))
  | broken {buffer : List UInt8} (gone : l.pipe.readerGone = true) :
      Wrote l h { l with buffer }.close (.error (.error .connectionClosed))

theorem wrote_writeLine {l : Link} {h : Holder} (late : h.phase = .writing) :
    Wrote l h (l.writeLine h).1 (l.writeLine h).2 := by
  unfold writeLine
  cases hflush : l.flush? (l.pipe.room (!l.isOverdue h) l.buffer.length) with
  | none => exact .broken (flush?_eq_none hflush).2
  | some l' =>
    obtain ⟨rfl, -⟩ := flush?_eq_some hflush
    exact .written late (List.take_append_drop _ _)

/-- A line is put into a buffer from which bytes have been written before, or none. -/
theorem wrote_putLine {l : Link} {h : Holder} (early : h.phase.isEarly = true)
    {written rest : List UInt8} (bytes : written ++ rest = l.buffer)
    (reader : rest = l.buffer ∧ written = [] ∨ l.pipe.readerGone = false) :
    Wrote l h ((l.shift written rest).putLine h).1 ((l.shift written rest).putLine h).2 := by
  unfold putLine
  cases hencode : h.request.encode with
  | error e =>
    obtain ⟨⟨fault, rfl⟩, severalLines⟩ := Request.encode_eq_error hencode
    exact .refused early severalLines bytes
  | ok line =>
    obtain ⟨rfl, oneLine⟩ := Request.encode_eq_ok hencode
    simp only [writeLine]
    split
    · next hflush =>
      have hgone := (flush?_eq_none hflush).2
      rcases reader with ⟨rfl, rfl⟩ | hhere
      · rw [shift_nil] at hgone ⊢
        exact .broken hgone
      · simp [shift, hhere] at hgone
    · next l' hflush =>
      obtain ⟨rfl, -⟩ := flush?_eq_some hflush
      simp only [shift, List.append_assoc]
      refine .entered early oneLine ?_
      rw [List.append_assoc, List.take_append_drop, ← List.append_assoc, bytes]
      rfl

theorem wrote_startLine {l : Link} {h : Holder} (early : h.phase.isEarly = true) :
    Wrote l h (l.startLine h).1 (l.startLine h).2 := by
  unfold startLine
  split
  · have hput := @wrote_putLine l h early [] l.buffer rfl (Or.inl ⟨rfl, rfl⟩)
    rwa [shift_nil] at hput
  · next hfull =>
    simp only
    split
    · next hflush => exact .broken (flush?_eq_none hflush).2
    · next l' hflush =>
      obtain ⟨rfl, hhere⟩ := flush?_eq_some hflush
      have hhere : l.pipe.readerGone = false := hhere.resolve_left fun hempty => by
        simp [hempty, bufferLimit] at hfull
      split
      · exact wrote_putLine early (List.take_append_drop _ _) (Or.inr hhere)
      · next hleft =>
        refine .stalled early (List.take_append_drop _ _) fun hempty => hleft ?_
        simp [shift, hempty]

theorem wrote_write (l : Link) (h : Holder) : Wrote l h (l.write h).1 (l.write h).2 := by
  unfold write
  split
  · next hphase => exact wrote_startLine (by simp [hphase, Phase.isEarly])
  · next hphase =>
    split
    · exact wrote_startLine (by simp [hphase, Phase.isEarly])
    · exact .unchanged (Or.inr hphase)
  · next hphase => exact wrote_writeLine hphase
  · next hphase => exact .unchanged (Or.inl hphase)

theorem wrote_of_eq {l l' : Link} {h : Holder} {p : Progress} (heq : l.write h = (l', p)) :
    Wrote l h l' p := by
  simpa only [heq] using wrote_write l h

namespace Wrote

variable {l l' : Link} {h h' : Holder} {p : Progress}

theorem nextToken_eq (w : Wrote l h l' p) : l'.nextToken = l.nextToken := by
  cases w <;> rfl

theorem queue_eq (w : Wrote l h l' p) : l'.queue = l.queue := by
  cases w <;> rfl

theorem clock_eq (w : Wrote l h l' p) : l'.clock = l.clock := by
  cases w <;> rfl

theorem timeLimit_eq (w : Wrote l h l' p) : l'.timeLimit = l.timeLimit := by
  cases w <;> rfl

theorem pipe_eq (w : Wrote l h l' p) :
    ∃ written, l'.pipe = { l.pipe with content := l.pipe.content ++ written } := by
  cases w with
  | unchanged | broken => exact ⟨[], by simp [close]⟩
  | stalled | written | entered | refused => exact ⟨_, rfl⟩

theorem holder_eq (w : Wrote l h l' (.ok h')) : h' = { h with phase := h'.phase } := by
  cases w <;> rfl

theorem closed_eq (w : Wrote l h l' (.ok h')) : l'.closed = l.closed := by
  cases w <;> rfl

theorem expected_eq (w : Wrote l h l' (.ok h')) : l'.expected = l.expected := by
  cases w <;> rfl

/-- Unless writing has failed the link is as open as before. -/
theorem closed_or (w : Wrote l h l' p) :
    (l'.closed = l.closed ∧ l'.expected = l.expected) ∨
      (l'.closed = true ∧ l'.expected = none ∧ l'.pipe = l.pipe ∧
        p = .error (.error .connectionClosed)) := by
  cases w with
  | broken gone => exact Or.inr ⟨rfl, rfl, rfl, rfl⟩
  | unchanged | stalled | written | entered | refused => exact Or.inl ⟨rfl, rfl⟩

end Wrote

/-! ### Having to wait -/

theorem Wrote.isOverdue_eq {l l' : Link} {h h' : Holder} (w : Wrote l h l' (.ok h')) :
    l'.isOverdue h' = l.isOverdue h := by
  rw [w.holder_eq, isOverdue, isOverdue, w.timeLimit_eq, w.clock_eq]

/-- The call waits for its reply, or for room in a pipe that has none. -/
def IsBlocked (l : Link) (h : Holder) : Prop :=
  h.phase = .waiting ∨
    (h.phase = .writing ∨ h.phase = .stalled) ∧ l.pipe.room true 1 = 0 ∧
      l.pipe.readerGone = false

theorem room_shift {l : Link} {patient : Bool} {n : Nat}
    (full : n = l.pipe.room patient l.buffer.length) (left : l.buffer.drop n ≠ []) :
    (l.shift (l.buffer.take n) (l.buffer.drop n)).pipe.room patient 1 = 0 := by
  have hless : n < l.buffer.length := by simpa using left
  by_cases hflows : l.pipe.flows patient = true
  · rw [Pipe.room, if_pos hflows] at full
    omega
  · rw [Pipe.room, if_neg hflows, Pipe.free] at full
    have hfree : l.pipe.capacity - (l.pipe.content.length + n) = 0 := by omega
    have hflows' : ¬(l.shift (l.buffer.take n) (l.buffer.drop n)).pipe.flows patient = true := hflows
    rw [Pipe.room, if_neg hflows']
    have hlength : min n l.buffer.length = n := by omega
    simp [Pipe.free, shift, hlength, hfree]

theorem isBlocked_writeLine {l l' : Link} {h h' : Holder} (inTime : l.isOverdue h = false)
    (heq : l.writeLine h = (l', .ok h')) : l'.IsBlocked h' := by
  unfold writeLine at heq
  split at heq
  · cases heq
  · next hflush =>
    obtain ⟨rfl, hreader⟩ := flush?_eq_some hflush
    cases heq
    by_cases hleft : l.buffer.drop (l.pipe.room true l.buffer.length) = []
    · exact Or.inl (by simp [shift, inTime, hleft])
    · refine Or.inr ⟨Or.inl (by simp [shift, inTime, hleft]), ?_, ?_⟩
      · simpa [inTime] using room_shift rfl hleft
      · exact hreader.resolve_left fun hempty => hleft (by simp [hempty])

theorem isBlocked_startLine {l l' : Link} {h h' : Holder} (inTime : l.isOverdue h = false)
    (heq : l.startLine h = (l', .ok h')) : l'.IsBlocked h' := by
  have hput : ∀ m : Link, m.isOverdue h = false → m.putLine h = (l', .ok h') →
      l'.IsBlocked h' := by
    intro m hm hput
    unfold putLine at hput
    split at hput
    · cases hput
    · next line _ =>
      exact isBlocked_writeLine
        (l := { m with buffer := m.buffer ++ Text.Utf8.encode line.toList }) hm hput
  unfold startLine at heq
  split at heq
  · exact hput l inTime heq
  · simp only [inTime, Bool.not_false] at heq
    split at heq
    · cases heq
    · next hflush =>
      obtain ⟨rfl, hreader⟩ := flush?_eq_some hflush
      split at heq
      · exact hput (l.shift _ _) inTime heq
      · next hstalled =>
        cases heq
        simp only [Bool.or_eq_true, not_or] at hstalled
        obtain ⟨hleft, hflows⟩ := hstalled
        -- a pipe that does not flow has as much room for the way down as for all
        have hroom : l.pipe.roomDownTo true bufferLimit l.buffer.length =
            l.pipe.room true l.buffer.length := by
          rw [Pipe.roomDownTo, Pipe.room, if_neg hflows, if_neg hflows]
        refine Or.inr ⟨Or.inr rfl, room_shift hroom ?_, ?_⟩
        · simpa [shift] using hleft
        · refine hreader.resolve_left fun hempty => hleft ?_
          simp [shift, hempty]

theorem isBlocked_write {l l' : Link} {h h' : Holder} (inTime : l.isOverdue h = false)
    (heq : l.write h = (l', .ok h')) : l'.IsBlocked h' := by
  unfold write at heq
  split at heq
  · exact isBlocked_startLine inTime heq
  · next hphase =>
    split at heq
    · exact isBlocked_startLine inTime heq
    · next hasleep =>
      cases heq
      simp only [wakesStalled, Bool.or_eq_true, not_or] at hasleep
      exact Or.inr ⟨Or.inr hphase, by simpa using hasleep.1.1, by simpa using hasleep.1.2⟩
  · exact isBlocked_writeLine inTime heq
  · next hphase =>
    cases heq
    exact Or.inl hphase

/-- Without further input the call cannot come further, nor is it over. -/
structure IsStuck (l : Link) (h : Holder) : Prop where
  inTime : l.isOverdue h = false
  unanswered : h.phase = .waiting → h.handed = none
  blocked : l.IsBlocked h

theorem poll_of_isStuck {l : Link} {h : Holder} (stuck : l.IsStuck h)
    (buffer : h.phase = .writing → l.buffer ≠ []) : l.poll h = (l, .ok h) := by
  have hwrite : l.write h = (l, .ok h) := by
    rcases stuck.blocked with hphase | ⟨hphase | hphase, hroom, hreader⟩
    · simp [write, hphase]
    · have hzero : l.pipe.room true l.buffer.length = 0 := by
        by_cases hflows : l.pipe.flows true = true
        · simp [Pipe.room, hflows] at hroom
        · simp only [Pipe.room, hflows] at hroom ⊢
          simp only [Bool.false_eq_true, if_false] at hroom ⊢
          omega
      have hflush : l.flush? 0 = some (l.shift [] l.buffer) := by
        unfold flush?
        rw [if_neg (by simpa using buffer hphase), if_neg (by simp [hreader])]
        rfl
      have hself : { h with phase := .writing } = h := by rw [← hphase]
      rw [shift_nil] at hflush
      simp [write, hphase, writeLine, stuck.inTime, hzero, hflush, buffer hphase, hself]
    · simp [write, hphase, wakesStalled, hroom, hreader, stuck.inTime]
  have hawait : l.awaitReply h = .ok h := by
    unfold awaitReply
    split
    · next hphase hhanded =>
      rw [stuck.unanswered hphase] at hhanded
      cases hhanded
    · rw [if_neg (by simp [stuck.inTime])]
  simp [poll, hwrite, hawait]

/-! ### Coming further -/

/-- What may come of the holder's attempt to come further. -/
inductive Polled (l : Link) (h : Holder) : Link → Progress → Prop
  | goesOn {l' : Link} {h' : Holder} (wrote : l.write h = (l', .ok h'))
      (stuck : l'.IsStuck h') : Polled l h l' (.ok h')
  | answered {l' : Link} {h' : Holder} {result : Except Error Payload}
      (wrote : l.write h = (l', .ok h')) (written : h'.phase = .waiting)
      (handed : h'.handed = some result) : Polled l h l' (.error result)
  | overdue {l' : Link} {h' : Holder} (wrote : l.write h = (l', .ok h'))
      (late : l'.isOverdue h' = true) (unanswered : h'.phase = .waiting → h'.handed = none) :
      Polled l h l' (.error (.error (.timeout h'.request.command.text)))
  | failed {l' : Link} {result : Except Error Payload}
      (wrote : l.write h = (l', .error result)) : Polled l h l' (.error result)

theorem polled_poll (l : Link) (h : Holder) : Polled l h (l.poll h).1 (l.poll h).2 := by
  unfold poll
  split
  · next l' h' heq =>
    unfold awaitReply
    split
    · next result hphase hhanded => exact .answered heq hphase hhanded
    · next hnot =>
      have unanswered : h'.phase = .waiting → h'.handed = none := by
        intro hphase
        cases hhanded : h'.handed with
        | none => rfl
        | some result => exact (hnot result hphase hhanded).elim
      by_cases hlate : l'.isOverdue h' = true
      · rw [if_pos hlate]
        exact .overdue heq hlate unanswered
      · rw [if_neg hlate]
        have inTime : l'.isOverdue h' = false := by simpa using hlate
        have blocked := isBlocked_write ((wrote_of_eq heq).isOverdue_eq ▸ inTime) heq
        exact .goesOn heq ⟨inTime, unanswered, blocked⟩
  · next l' result heq => exact .failed heq

theorem Polled.write_eq {l l' : Link} {h : Holder} {p : Progress} (polled : Polled l h l' p) :
    ∃ p', l.write h = (l', p') := by
  cases polled with
  | goesOn wrote => exact ⟨_, wrote⟩
  | answered wrote => exact ⟨_, wrote⟩
  | overdue wrote => exact ⟨_, wrote⟩
  | failed wrote => exact ⟨_, wrote⟩

theorem Polled.wrote {l l' : Link} {h : Holder} {p : Progress} (polled : Polled l h l' p) :
    ∃ p', Wrote l h l' p' := by
  obtain ⟨p', heq⟩ := polled.write_eq
  exact ⟨p', wrote_of_eq heq⟩

theorem Polled.wrote_ok {l l' : Link} {h h' : Holder} (polled : Polled l h l' (.ok h')) :
    Wrote l h l' (.ok h') := by
  cases polled with
  | goesOn wrote => exact wrote_of_eq wrote

end Link

end Pushdown
