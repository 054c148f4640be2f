/-
  Pushdown/Proofs/RunStates/Owners.lean
  =====================================
  **An epoch is good for its own suspension and for nothing else.**  Every epoch is drawn
  for one thread, and no other thread ever has it: a record's epoch is either the one just
  drawn, and then the event was about this thread, or one that the thread had before
  (`epoch_of_change`).  So epochs have owners (`IsOwnedBy`), and who owns an epoch at one
  point of a run owns it at every later one.

  With what makes an end of a suspension this gives the exact life of an epoch
  (`valid_exactly`): it is good from the suspension for which it was drawn until the first
  change that concerns the thread, never again after that, and at no time for another
  thread.
-/
import Pushdown.Proofs.RunStates.Epochs

namespace Pushdown

namespace RunStates

variable {s : RunStates} {t u : ThreadId} {e : Nat}

/-! ### Which epochs there are after a change -/

/-- The thread of the event that is taken in, if it has one. -/
def Change.thread? : Change → Option ThreadId
  | .event e => e.thread?
  | .open | .terminate => none

/-- After a change a thread has an epoch that was drawn for it just now, or one that it
    had before. -/
theorem epoch_of_change {c : Change} {r : ThreadRecord}
    (known : (s.change c).record? t = some r) :
    (c.thread? = some t ∧ r.epoch = s.lastEpoch + 1) ∨
      ∃ r', s.record? t = some r' ∧ r.epoch = r'.epoch := by
  cases c with
  | «open» =>
    rw [change, record?_opened] at known
    exact Or.inr ⟨r, known, rfl⟩
  | terminate => cases known
  | event ev =>
    simp only [change, apply] at known
    split at known
    · exact Or.inr ⟨r, known, rfl⟩
    · cases ev with
      | started u | suspended u =>
        rw [record?_suspend] at known
        split at known
        · next hu =>
          obtain rfl := Option.some.inj known
          exact Or.inl ⟨congrArg some hu.symm, rfl⟩
        · exact Or.inr ⟨r, known, rfl⟩
      | resumed u =>
        by_cases hu : t = u
        · subst hu
          rcases resume_epoch_le s t known with hnew | hkept
          · exact Or.inl ⟨rfl, hnew⟩
          · exact Or.inr hkept
        · obtain ⟨kept, hresumed⟩ := record?_resume s t u
          rw [hresumed, if_neg hu] at known
          exact Or.inr ⟨r, known, rfl⟩
      | exited u =>
        rw [record?_exit] at known
        split at known
        · cases known
        · exact Or.inr ⟨r, known, rfl⟩
      | terminated => cases known
      | output => exact Or.inr ⟨r, known, rfl⟩

/-! ### Owners -/

/-- The epoch has been drawn, and nobody has it but this thread. -/
structure IsOwnedBy (s : RunStates) (e : Nat) (u : ThreadId) : Prop where
  drawn : e ≤ s.lastEpoch
  only : ∀ t r, s.record? t = some r → r.epoch = e → t = u

theorem IsOwnedBy.change (owned : s.IsOwnedBy e u) (c : Change) : (s.change c).IsOwnedBy e u where
  drawn := Nat.le_trans owned.drawn (lastEpoch_le_change s c)
  only := by
    intro t r known hepoch
    rcases epoch_of_change known with ⟨-, hnew⟩ | ⟨r', hold, hkept⟩
    · -- the epoch that is drawn now is greater than all that have an owner
      have hdrawn := owned.drawn
      omega
    · exact owned.only t r' hold (hkept.symm.trans hepoch)

theorem IsOwnedBy.changeAll (owned : s.IsOwnedBy e u) (cs : List Change) :
    (s.changeAll cs).IsOwnedBy e u := by
  induction cs generalizing s with
  | nil => exact owned
  | cons c cs ih => exact ih (owned.change c)

/-- Every thread owns the epoch that it has. -/
def HasOwners (s : RunStates) : Prop := ∀ t r, s.record? t = some r → s.IsOwnedBy r.epoch t

theorem HasOwners.isBounded (owners : s.HasOwners) : s.IsBounded :=
  fun t r known => (owners t r known).drawn

theorem hasOwners_new : RunStates.new.HasOwners := by
  intro t r known
  cases known

theorem HasOwners.change (owners : s.HasOwners) (c : Change) : (s.change c).HasOwners := by
  intro t r known
  rcases epoch_of_change known with ⟨hthread, hnew⟩ | ⟨r', hold, hkept⟩
  · refine ⟨owners.isBounded.change c t r known, fun u r' known' hepoch => ?_⟩
    rcases epoch_of_change known' with ⟨hthread', -⟩ | ⟨r'', hold, hkept⟩
    · exact Option.some.inj (hthread'.symm.trans hthread)
    · -- an epoch of before is not the one that is drawn now
      have hdrawn := (owners u r'' hold).drawn
      omega
  · rw [hkept]
    exact (owners t r' hold).change c

theorem HasOwners.changeAll (owners : s.HasOwners) (cs : List Change) :
    (s.changeAll cs).HasOwners := by
  induction cs generalizing s with
  | nil => exact owners
  | cons c cs ih => exact ih (owners.change c)

theorem HasOwners.of_isSuspendedIn (owners : s.HasOwners) (suspended : s.IsSuspendedIn t e) :
    s.IsOwnedBy e t :=
  owners t _ (isSuspendedIn_iff.mp suspended).2

theorem IsOwnedBy.eq_of_isSuspendedIn (owned : s.IsOwnedBy e u) (suspended : s.IsSuspendedIn t e) :
    t = u :=
  owned.only t _ (isSuspendedIn_iff.mp suspended).2 rfl

/-! ### Runs from the start -/

/-- The run states after some changes. -/
def after (cs : List Change) : RunStates := RunStates.new.changeAll cs

theorem changeAll_append (s : RunStates) (cs ds : List Change) :
    s.changeAll (cs ++ ds) = (s.changeAll cs).changeAll ds :=
  List.foldl_append

theorem after_append (cs ds : List Change) : after (cs ++ ds) = (after cs).changeAll ds :=
  changeAll_append ..

theorem hasOwners_after (cs : List Change) : (after cs).HasOwners :=
  hasOwners_new.changeAll cs

/-- Of two points of a run the earlier settles who can be suspended in an epoch at the
    later. -/
theorem eq_of_isSuspendedIn {cs ds : List Change} (earlier : (after cs).IsSuspendedIn u e)
    (later : (after (cs ++ ds)).IsSuspendedIn t e) : t = u := by
  rw [after_append] at later
  exact (((hasOwners_after cs).of_isSuspendedIn earlier).changeAll ds).eq_of_isSuspendedIn later

/-! ### How many epochs there are -/

def Change.isEvent : Change → Bool
  | .event _ => true
  | .open | .terminate => false

theorem lastEpoch_change_le (s : RunStates) (c : Change) :
    (s.change c).lastEpoch ≤ s.lastEpoch + if c.isEvent then 1 else 0 := by
  cases c with
  | «open» =>
    simp only [change, opened]
    split <;> exact Nat.le_refl _
  | terminate => exact Nat.le_refl _
  | event ev =>
    simp only [change, apply]
    split
    · exact Nat.le_succ _
    · cases ev with
      | started | suspended | resumed => exact Nat.le_refl _
      | exited | terminated | output => exact Nat.le_succ _

/-- No more epochs are drawn than events are taken in. -/
theorem lastEpoch_changeAll_le (s : RunStates) (cs : List Change) :
    (s.changeAll cs).lastEpoch ≤ s.lastEpoch + cs.countP Change.isEvent := by
  induction cs generalizing s with
  | nil => exact Nat.le_refl _
  | cons c cs ih =>
    have hfirst := lastEpoch_change_le s c
    have hrest := ih (s.change c)
    rw [List.countP_cons]
    change ((s.change c).changeAll cs).lastEpoch ≤ _
    omega

/-! ### The life of an epoch -/

/-- What becomes of an epoch that a thread has after some changes. -/
structure ValidExactly (cs : List Change) (t : ThreadId) (e : Nat) : Prop where
  /-- It is good as long as nothing concerns the thread. -/
  while_unconcerned : ∀ later, (after (cs ++ later)).requireSuspended t (some e) = .ok e ↔
    ∀ c ∈ later, ¬c.Concerns t
  /-- Once it has failed it fails for ever. -/
  once_failed : ∀ later more fault,
    (after (cs ++ later)).requireSuspended t (some e) = .error fault →
      ∃ fault', (after (cs ++ later ++ more)).requireSuspended t (some e) = .error fault'
  /-- It fails for every other thread at every point of the run, before and after. -/
  for_others : ∀ later point u, point <+: cs ++ later → u ≠ t →
    ∃ fault, (after point).requireSuspended u (some e) = .error fault
  /-- The counter of the epochs does not reach a bound that the number of events does not
      reach. -/
  counter_fits : ∀ later, (cs ++ later).countP Change.isEvent < UInt64.size →
    (after (cs ++ later)).lastEpoch < UInt64.size

/-- **An epoch is good for the suspension for which it was drawn, and for nothing
    else.** -/
theorem valid_exactly (cs : List Change) (t : ThreadId) (e : Nat)
    (suspended : (after cs).requireSuspended t none = .ok e) : ValidExactly cs t e := by
  have hsuspended : (after cs).IsSuspendedIn t e := isSuspendedIn_of_require suspended
  have hvalid : ∀ later, (after (cs ++ later)).requireSuspended t (some e) = .ok e ↔
      ∀ c ∈ later, ¬c.Concerns t := by
    intro later
    rw [after_append]
    exact isSuspendedIn_changeAll_iff hsuspended (hasOwners_after cs).isBounded later
  refine ⟨hvalid, ?_, ?_, ?_⟩
  · intro later more fault failed
    apply require_eq_error
    intro again
    -- were it good again, nothing could have concerned the thread in the meantime either
    rw [List.append_assoc] at again
    have hnothing := (hvalid (later ++ more)).mp again
    have hstill := (hvalid later).mpr fun c hc => hnothing c (List.mem_append_left _ hc)
    rw [hstill] at failed
    cases failed
  · intro later point u reached other
    apply require_eq_error
    intro hother
    rcases List.prefix_or_prefix_of_prefix reached (List.prefix_append cs later) with
      ⟨rest, rfl⟩ | ⟨rest, rfl⟩
    · exact other (eq_of_isSuspendedIn hother hsuspended).symm
    · exact other (eq_of_isSuspendedIn hsuspended hother)
  · intro later few
    have hcount := lastEpoch_changeAll_le RunStates.new (cs ++ later)
    have hstart : RunStates.new.lastEpoch = 0 := rfl
    rw [after]
    omega

/-- Thread 1 has stopped for the second time, thread 2 runs: epoch 4 is that of the second
    stop of thread 1. -/
theorem valid_exactly_second_stop :
    let cs : List Change := [.open, .event (.started 1), .event (.resumed 1 .client),
      .event (.resumed 2 .step), .event (.suspended 1 .step)]
    (after cs).requireSuspended 1 none = .ok 4 ∧ ValidExactly cs 1 4 :=
  ⟨rfl, valid_exactly _ 1 4 rfl⟩

/-- Nor is it good for a new thread under the old number. -/
example : (after [.open, .event (.started 1), .event (.exited 1),
    .event (.started 1)]).requireSuspended 1 (some 1) = .error (.stale 1) := rfl

end RunStates

end Pushdown
