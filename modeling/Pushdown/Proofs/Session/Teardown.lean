/-
  Pushdown/Proofs/Session/Teardown.lean
  =====================================
  **How a session comes to be closed.**  Ending the session is one operation: it closes
  the link, terminates the run states and tells the listeners.  But the link can also be
  closed from within, by a write that fails because the VM has let go of its end.  Then
  every call fails, and yet the session goes on reading: its states are still those of
  the last events, and nobody has heard of an end.  Only the end of the stream, or a
  caller who closes the session, makes an end of this state.

  `closed_how` says that there is no third way.
-/
import Pushdown.Proofs.Link.Closing
import Pushdown.Proofs.Session.Termination

namespace Pushdown

/-- It neither closes the link nor shuts it down, nor does the VM read. -/
def Link.Action.IsCalm : Link.Action → Prop
  | .close | .shutdown _ | .read => False
  | .send .. | .cancel _ | .advance _ | .resolve _ | .dropReader => True

namespace Session

variable {α : Type}

open Link (Sound)

/-- Once reading has ended the link is closed; before that it is closed only if the VM
    has let go of the pipe. -/
structure ClosesLink (reading : Bool) (l : Link) : Prop where
  sound : l.Sound
  ended : reading = false → l.closed = true
  gone : reading = true → l.closed = true → l.pipe.readerGone = true

namespace ClosesLink

variable {reading : Bool} {l : Link}

theorem close (closes : ClosesLink reading l) : ClosesLink false l.close where
  sound := closes.sound.close
  ended _ := rfl
  gone h := by cases h

/-- An input that closes nothing by itself. -/
theorem perform (closes : ClosesLink reading l) {a : Link.Action} (calm : a.IsCalm) :
    ClosesLink reading (l.perform a).2 := by
  have hread : a ≠ .read := by
    rintro rfl
    exact calm
  have hsound := closes.sound.begin a
  have begun := Link.begun_begin l a
  rw [← Link.begin_eq l hread]
  generalize l.begin a = r at begun hsound ⊢
  cases begun with
  | closes | shutsDown => exact calm.elim
  | hangsUp => exact ⟨hsound, closes.ended, fun _ _ => rfl⟩
  | _ => exact ⟨hsound, closes.ended, closes.gone⟩

theorem enqueue (closes : ClosesLink reading l) (t : Ticket) (c : Command) :
    ClosesLink reading (l.enqueue ⟨t, .command c⟩) where
  sound := closes.sound.enqueue fun _ => ⟨c, rfl⟩
  ended := closes.ended
  gone := closes.gone

theorem turn (closes : ClosesLink reading l) : ClosesLink reading l.turn.2 where
  sound := closes.sound.turn
  ended h := Link.turn_closed closes.sound (closes.ended h)
  gone h isClosed := by
    rw [Link.turn_readerGone closes.sound]
    cases hbefore : l.closed with
    | true => exact closes.gone h hbefore
    | false =>
      -- no turn closes an open link but one whose write fails
      exact (Link.turn_closes closes.sound hbefore isClosed).1

theorem drain (closes : ClosesLink reading l) (b : Bool) :
    ClosesLink reading (l.drain.2.setReading b) where
  sound := closes.sound.drain.withPipe _
  ended := closes.ended
  gone h isClosed := by
    have hgone := closes.gone h isClosed
    rw [← Link.drain_readerGone] at hgone
    exact hgone

end ClosesLink

def ClosesTogether (m : Moment α) : Prop := ClosesLink m.session.isReading m.session.link

theorem kept_closesTogether : Kept (ClosesTogether (α := α)) where
  next m m' h step := by
    cases step with
    | @line log s item =>
      cases item with
      | reply r => exact h.perform (a := .resolve r) trivial
      | event e => simpa [ClosesTogether, handleIncoming] using h
      | malformed => exact h
    | closes =>
      have hclosed := ClosesLink.close h
      exact ⟨hclosed.sound.withPipe _, hclosed.ended, hclosed.gone⟩
    | looks | turnedAway | ends => exact h
    | asks => exact h.enqueue _ _
    | turns =>
      obtain ⟨calls, running, heq⟩ := awakened_eq _ _ _
      rw [heq]
      exact ClosesLink.turn h
  drain log s reading h := ClosesLink.drain h reading

theorem closesTogether_arrived {log : Happened α} {s : Session α} {a : Action α} {m : Moment α}
    (arrived : Arrived log s a m) (h : ClosesLink s.isReading s.link) : ClosesTogether m := by
  cases arrived with
  | streamEnds => exact h.close
  | @leaves t => exact h.perform (a := .cancel t) trivial
  | @timePasses ms => exact h.perform (a := .advance ms) trivial
  | hangsUp => exact h.perform (a := .dropReader) trivial
  | _ => exact h

namespace Setup

theorem closesTogether (s : Setup) (as : List (Action α)) :
    ClosesLink (s.after as).isReading (s.after as).link := by
  refine s.induction (P := fun _ => ClosesTogether) ?_ ?_ (fun _ => kept_closesTogether) as
  · exact ⟨Sound.of_free rfl rfl fun _ q hq => (by cases hq), fun h => (by cases h),
      fun _ h => (by cases h)⟩
  · intro as a reading m h arrived
    exact closesTogether_arrived arrived ⟨h.sound.withPipe _, h.ended, h.gone⟩

/-- What a session has gone through when its link is closed. -/
structure ClosedHow (s : Setup) (as : List (Action α)) : Prop where
  /-- Once reading has ended, all parts of the session are at their end. -/
  torn : (s.after as).isReading = false →
    (s.after as).link.closed = true ∧ (s.after as).states.session = .terminated ∧
      (∀ t epoch, (s.after as).states.requireSuspended t epoch = .error .terminated) ∧
      s.isTold as = true
  /-- A link that is closed while the session still reads was closed by a failed write. -/
  broken : (s.after as).link.closed = true → (s.after as).isReading = true →
    (s.after as).link.pipe.readerGone = true

/-- **A closed link belongs to a session that is torn down, or to one whose VM has let go
    of the pipe.** -/
theorem closed_how (s : Setup) (as : List (Action α)) : s.ClosedHow as where
  torn ended := by
    have htold := (s.endsTogether as).told ended
    have hstopped := (s.endsTogether as).stopped htold
    refine ⟨(s.closesTogether as).ended ended, hstopped, ?_, htold⟩
    intro t epoch
    rw [RunStates.requireSuspended, if_pos hstopped]
  broken isClosed reading := (s.closesTogether as).gone reading isClosed

/-- The VM lets go of the pipe while thread 1 is suspended.  The next command closes the
    link, but the thread is still suspended, and the listener has heard of its start only. -/
theorem closed_not_terminated :
    let s : Setup := ⟨64, false, Settings.default⟩
    let as : List (Action Payload) := [.listen "l", .vm (Text.Utf8.encode "started 1\n".toList),
      .dropReader, .start 1 (Script.request .threads)]
    (s.after as).link.closed = true ∧ (s.after as).states.session = .suspended ∧
      (s.after as).states.requireSuspended 1 none = .ok 1 ∧
      s.deliveries as = [⟨1, .started 1⟩] := by
  decide +kernel

end Setup

end Session

end Pushdown
