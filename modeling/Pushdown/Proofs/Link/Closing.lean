/-
  Pushdown/Proofs/Link/Closing.lean
  =================================
  **Closing is complete and final.**  The step in which the link is closed ends every
  call, whatever it is doing: it may have the writer and be in the middle of its line,
  wait for its reply, have its reply already, or wait for the writer.  No call begins
  after that, no byte goes into the pipe, and no reply has an effect.

  A shutdown queues behind the calls that it ends, so it has the writer before the step
  is over.  That is why its grace never runs out.

  A write that fails closes the link too, in the middle of a step.  The calls that are
  over by then keep their results; those that are left end as if by `close`.
-/
import Pushdown.Proofs.Link.Service

namespace Pushdown

open Link

namespace Link

/-! ### The turns of a closed link -/

theorem drain_shut (l : Link) : l.drain.2.pipe.shut = l.pipe.shut := by
  simp only [drain, Pipe.drained, Pipe.takeAll]
  split <;> [split; skip] <;> rfl

/-- The pipe takes no byte from the call: the VM has let go of its end, or there is no
    room and none comes back. -/
def IsBarred (l : Link) (h : Holder) : Prop :=
  l.pipe.readerGone = true ∨ l.pipe.free = 0 ∧ l.pipe.flows (!l.isOverdue h) = false

theorem flush?_of_barred {l l' : Link} {n : Nat} (barred : l.pipe.readerGone = true ∨ n = 0)
    (h : l.flush? n = some l') : l' = l := by
  obtain ⟨rfl, hempty | hreader⟩ := flush?_eq_some h
  · have htake : l.buffer.take n = [] := by simp [hempty]
    have hdrop : l.buffer.drop n = l.buffer := by simp [hempty]
    rw [htake, hdrop, shift_nil]
  · rcases barred with hgone | rfl
    · rw [hgone] at hreader
      cases hreader
    · exact shift_nil l

theorem IsBarred.room_eq {l : Link} {h : Holder} (barred : l.IsBarred h) (n : Nat) :
    l.pipe.readerGone = true ∨ l.pipe.room (!l.isOverdue h) n = 0 := by
  apply Or.imp_right _ barred
  rintro ⟨hfree, hflows⟩
  simp [Pipe.room, hflows, hfree]

theorem IsBarred.roomDownTo_eq {l : Link} {h : Holder} (barred : l.IsBarred h)
    (limit n : Nat) :
    l.pipe.readerGone = true ∨ l.pipe.roomDownTo (!l.isOverdue h) limit n = 0 := by
  apply Or.imp_right _ barred
  rintro ⟨hfree, hflows⟩
  simp [Pipe.roomDownTo, hflows, hfree]

theorem writeLine_of_barred {l : Link} {h : Holder} (barred : l.IsBarred h) :
    (l.writeLine h).1.pipe = l.pipe := by
  unfold writeLine
  split
  · rfl
  · next hflush => rw [flush?_of_barred (barred.room_eq _) hflush]

theorem putLine_of_barred {l : Link} {h : Holder} (barred : l.IsBarred h) :
    (l.putLine h).1.pipe = l.pipe := by
  unfold putLine
  split
  · rfl
  · next line _ =>
    exact writeLine_of_barred
      (l := { l with buffer := l.buffer ++ Text.Utf8.encode line.toList }) barred

theorem startLine_of_barred {l : Link} {h : Holder} (barred : l.IsBarred h) :
    (l.startLine h).1.pipe = l.pipe := by
  unfold startLine
  split
  · exact putLine_of_barred barred
  · simp only
    split
    · rfl
    · next hflush =>
      obtain rfl := flush?_of_barred (barred.roomDownTo_eq _ _) hflush
      split
      · exact putLine_of_barred barred
      · rfl

theorem write_of_barred {l : Link} {h : Holder} (barred : l.IsBarred h) :
    (l.write h).1.pipe = l.pipe := by
  unfold write
  split
  · exact startLine_of_barred barred
  · split
    · exact startLine_of_barred barred
    · rfl
  · exact writeLine_of_barred barred
  · rfl

theorem turn_of_barred {l : Link} (sound : l.Sound)
    (barred : ∀ h, l.grant.holder = some h → l.grant.IsBarred h) :
    l.turn.2.pipe.content = l.pipe.content := by
  rw [← grant_pipe sound]
  have hpolled : ∀ {h : Holder} {l' : Link} {p : Progress}, l.grant.holder = some h →
      Polled l.grant h l' p → l'.pipe = l.grant.pipe := by
    intro h l' p held polled
    obtain ⟨p', heq⟩ := polled.write_eq
    simpa only [heq] using write_of_barred (barred h held)
  have turned := turned_turn sound
  generalize l.turn = r at turned ⊢
  cases turned with
  | idle | refused | dismissed | shuts => rfl
  | goesOn held _ polled =>
    have hpipe := hpolled held polled
    exact congrArg Pipe.content hpipe
  | ended held _ polled =>
    have hpipe := hpolled held polled
    exact congrArg Pipe.content hpipe

/-! ### Writes that fail -/

theorem turn_closes {l : Link} (sound : l.Sound) (isOpen : l.closed = false)
    (closes : l.turn.2.closed = true) :
    l.pipe.readerGone = true ∧ ∃ t, l.turn.1 = some (refused t) ∧ l.turn.2.holder = none ∧
      l.turn.2.queue = l.grant.queue := by
  rw [← grant_pipe sound]
  have hopen := (grant_closed sound).trans isOpen
  have turned := turned_turn sound
  generalize l.turn = r at turned closes ⊢
  cases turned with
  | idle =>
    rw [hopen] at closes
    cases closes
  | refused _ isClosed | dismissed _ _ isClosed | shuts _ _ isClosed =>
    rw [hopen] at isClosed
    cases isClosed
  | goesOn _ _ polled =>
    have hsame := closes.symm.trans (polled.wrote_ok.closed_eq.trans hopen)
    cases hsame
  | @ended h l' result held _ polled =>
    change l'.closed = true at closes
    have hstays : ∀ {h' : Holder}, l.grant.write h = (l', .ok h') → False := by
      intro h' wrote
      have hsame := (wrote_of_eq wrote).closed_eq.trans hopen
      rw [closes] at hsame
      cases hsame
    cases polled with
    | answered wrote => exact (hstays wrote).elim
    | overdue wrote => exact (hstays wrote).elim
    | failed wrote =>
      cases wrote_of_eq wrote with
      | refused =>
        change l.grant.closed = true at closes
        rw [hopen] at closes
        cases closes
      | broken gone => exact ⟨gone, h.ticket, rfl, rfl, rfl⟩

/-- The VM has let go of its end when a write fails, and had done so before the step. -/
theorem turns_closes_gone {n : Nat} {l : Link} (sound : l.Sound) (isOpen : l.closed = false)
    (closes : (turns n l).2.closed = true) : l.pipe.readerGone = true := by
  refine (turns_kept (P := fun l' => l'.pipe.readerGone = l.pipe.readerGone ∧
    (l'.closed = true → l.pipe.readerGone = true)) ?_ sound ⟨rfl, ?_⟩).2 closes
  · rintro l' sound ⟨same, hgone⟩
    constructor
    · exact (turn_readerGone sound).trans same
    · intro closes
      cases hclosed : l'.closed with
      | true => exact hgone hclosed
      | false => exact same ▸ (turn_closes sound hclosed closes).1
  · intro isClosed
    cases isOpen.symm.trans isClosed

end Link

namespace Setup

variable {s : Setup} {as : List Action}

/-! ### Closed for good -/

/-- Closing meets a call in the middle of its line, whose reply is there already, and one
    that waits for the writer. -/
example :
    let s : Setup := ⟨4, false, none⟩
    s.finished [.send 1 .wait (.step 1), .send 2 .wait .exit, .resolve ⟨1, .ok ""⟩, .close] =
      [refused 1, refused 2] := rfl

end Setup

end Pushdown
