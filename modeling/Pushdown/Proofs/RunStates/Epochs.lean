/-
  Pushdown/Proofs/RunStates/Epochs.lean
  =====================================
  **A suspension that is over never comes back.**  Run states change when the session
  opens, when an event is taken in, and when the session is terminated.  A change
  *concerns* a thread if it is an event of this thread or ends the session.

  A thread that is suspended in some epoch stays so as long as no change concerns it
  (`IsSuspendedIn.change`), and the first one that does makes an end of the suspension:
  the epoch has been drawn, later stops draw greater ones, and a resumption, which keeps
  the epoch, leaves the thread running (`IsOver`).  Together this says exactly when an
  epoch is still good after any number of changes (`isSuspendedIn_changeAll_iff`).
-/
import Pushdown.RunStates

namespace Pushdown

/-! ### Records by thread -/

theorem lookup_cons_eq (t u : ThreadId) (r : ThreadRecord)
    (threads : List (ThreadId × ThreadRecord)) :
    ((t, r) :: threads).lookup u = if u = t then some r else threads.lookup u := by
  rw [List.lookup_cons]
  by_cases hu : u = t
  · simp [hu]
  · rw [if_neg hu, beq_eq_false_iff_ne.mpr hu]

theorem lookup_putRecord (t u : ThreadId) (r : ThreadRecord)
    (threads : List (ThreadId × ThreadRecord)) :
    (putRecord t r threads).lookup u = if u = t then some r else threads.lookup u := by
  induction threads with
  | nil => rw [putRecord, lookup_cons_eq]
  | cons p rest ih =>
    obtain ⟨v, s⟩ := p
    unfold putRecord
    split
    · rw [lookup_cons_eq]
    · split
      · next hv =>
        subst hv
        rw [lookup_cons_eq, lookup_cons_eq]
        split <;> rfl
      · next hv =>
        rw [lookup_cons_eq, lookup_cons_eq, ih]
        by_cases hu : u = t
        · rw [if_pos hu, if_pos hu, if_neg (hu ▸ hv)]
        · rw [if_neg hu, if_neg hu]

theorem lookup_eraseRecord (t u : ThreadId) (threads : List (ThreadId × ThreadRecord)) :
    (eraseRecord t threads).lookup u = if u = t then none else threads.lookup u := by
  induction threads with
  | nil => simp [eraseRecord]
  | cons p rest ih =>
    obtain ⟨v, s⟩ := p
    by_cases hv : v = t
    · subst hv
      have herase : eraseRecord v ((v, s) :: rest) = eraseRecord v rest := by simp [eraseRecord]
      rw [herase, ih, lookup_cons_eq]
      split <;> rfl
    · have herase : eraseRecord t ((v, s) :: rest) = (v, s) :: eraseRecord t rest := by
        simp [eraseRecord, hv]
      rw [herase, lookup_cons_eq, lookup_cons_eq, ih]
      by_cases hu : u = t
      · rw [if_pos hu, if_pos hu, if_neg (hu ▸ Ne.symm hv)]
      · rw [if_neg hu, if_neg hu]

namespace RunStates

variable {s : RunStates} {t u : ThreadId} {e : Nat}

theorem record?_suspend (s : RunStates) (t u : ThreadId) :
    (s.suspend u).record? t =
      if t = u then some ⟨.suspended, s.lastEpoch + 1⟩ else s.record? t :=
  lookup_putRecord ..

/-- A thread that goes on runs, in an epoch that it had before or that is new. -/
theorem record?_resume (s : RunStates) (t u : ThreadId) :
    ∃ kept, (s.resume u).record? t = if t = u then some ⟨.running, kept⟩ else s.record? t :=
  ⟨_, lookup_putRecord ..⟩

theorem resume_epoch_le (s : RunStates) (u : ThreadId) {r : ThreadRecord}
    (known : (s.resume u).record? u = some r) :
    r.epoch = s.lastEpoch + 1 ∨ ∃ r', s.record? u = some r' ∧ r.epoch = r'.epoch := by
  have hput := lookup_putRecord u u
    ⟨.running, ((s.record? u).map ThreadRecord.epoch).getD (s.lastEpoch + 1)⟩ s.threads
  rw [if_pos rfl] at hput
  obtain rfl := Option.some.inj (known.symm.trans hput)
  cases hrecord : s.record? u with
  | none => exact Or.inl rfl
  | some r' => exact Or.inr ⟨r', rfl, rfl⟩

theorem record?_exit (s : RunStates) (t u : ThreadId) :
    (s.withThreads (eraseRecord u s.threads)).record? t =
      if t = u then none else s.record? t :=
  lookup_eraseRecord ..

theorem sessionOf_ne_terminated (threads : List (ThreadId × ThreadRecord)) :
    sessionOf threads ≠ .terminated := by
  unfold sessionOf
  split
  · intro h
    cases h
  · split <;> intro h <;> cases h

/-! ### Changes -/

/-- What can change run states. -/
inductive Change where
  | open
  | event (e : Event)
  | terminate

/-- The run states after a change. -/
def change (s : RunStates) : Change → RunStates
  | .open => s.opened
  | .event e => s.apply e
  | .terminate => s.terminated

def changeAll (s : RunStates) (cs : List Change) : RunStates := cs.foldl change s

/-- An event of this thread, or the end of the session. -/
def Change.Concerns (t : ThreadId) : Change → Prop
  | .open => False
  | .event e => e.thread? = some t ∨ e = .terminated
  | .terminate => True

theorem record?_opened (s : RunStates) (t : ThreadId) : s.opened.record? t = s.record? t := by
  unfold opened
  split <;> rfl

/-! ### Epochs -/

/-- No thread has an epoch that has not been drawn. -/
def IsBounded (s : RunStates) : Prop := ∀ t r, s.record? t = some r → r.epoch ≤ s.lastEpoch

theorem isBounded_new : RunStates.new.IsBounded := by
  intro t r known
  cases known

theorem lastEpoch_le_change (s : RunStates) (c : Change) :
    s.lastEpoch ≤ (s.change c).lastEpoch := by
  cases c with
  | «open» =>
    simp only [change, opened]
    split <;> exact Nat.le_refl _
  | terminate => exact Nat.le_refl _
  | event e =>
    simp only [change, apply]
    split
    · exact Nat.le_refl _
    · cases e with
      | started | suspended | resumed => exact Nat.le_succ _
      | exited | terminated | output => exact Nat.le_refl _

theorem IsBounded.suspend (bounded : s.IsBounded) (u : ThreadId) : (s.suspend u).IsBounded := by
  intro t r known
  rw [record?_suspend] at known
  change r.epoch ≤ s.lastEpoch + 1
  split at known
  · obtain rfl := Option.some.inj known
    exact Nat.le_refl _
  · have hle := bounded t r known
    omega

theorem IsBounded.resume (bounded : s.IsBounded) (u : ThreadId) : (s.resume u).IsBounded := by
  intro t r known
  change r.epoch ≤ s.lastEpoch + 1
  by_cases ht : t = u
  · subst ht
    rcases resume_epoch_le s t known with heq | ⟨r', hrecord, heq⟩
    · omega
    · have hle := bounded t r' hrecord
      omega
  · obtain ⟨kept, hrecord⟩ := record?_resume s t u
    rw [hrecord, if_neg ht] at known
    have hle := bounded t r known
    omega

theorem IsBounded.change (bounded : s.IsBounded) (c : Change) : (s.change c).IsBounded := by
  cases c with
  | «open» =>
    intro t r known
    rw [RunStates.change, record?_opened] at known
    exact Nat.le_trans (bounded t r known) (lastEpoch_le_change s .open)
  | terminate =>
    intro t r known
    cases known
  | event e =>
    simp only [RunStates.change, apply]
    split
    · exact bounded
    · cases e with
      | started u | suspended u => exact bounded.suspend u
      | resumed u => exact bounded.resume u
      | exited u =>
        intro t r known
        rw [record?_exit] at known
        split at known
        · cases known
        · exact bounded t r known
      | terminated =>
        intro t r known
        cases known
      | output => exact bounded

/-! ### Being suspended -/

/-- The thread is suspended, and the epoch is that of its suspension. -/
def IsSuspendedIn (s : RunStates) (t : ThreadId) (e : Nat) : Prop :=
  s.requireSuspended t (some e) = .ok e

theorem isSuspendedIn_iff :
    s.IsSuspendedIn t e ↔ s.session ≠ .terminated ∧ s.record? t = some ⟨.suspended, e⟩ := by
  unfold IsSuspendedIn requireSuspended
  split
  · next past => simp [past]
  · next going =>
    cases hrecord : s.record? t with
    | none => simp
    | some r =>
      obtain ⟨state, epoch⟩ := r
      cases state with
      | running => simp
      | suspended =>
        by_cases hepoch : e = epoch
        · subst hepoch
          simp [going]
        · simp [hepoch, Ne.symm hepoch]

instance (s : RunStates) (t : ThreadId) (e : Nat) : Decidable (s.IsSuspendedIn t e) :=
  decidable_of_iff _ isSuspendedIn_iff.symm

/-- Whatever epoch is asked for, the answer is that of the suspension. -/
theorem isSuspendedIn_of_require {epoch : Option Nat} (h : s.requireSuspended t epoch = .ok e) :
    s.IsSuspendedIn t e := by
  rw [isSuspendedIn_iff]
  unfold requireSuspended at h
  split at h
  · cases h
  · next going =>
    split at h
    · cases h
    · next r hrecord =>
      split at h
      · cases h
      · next hstate =>
        split at h
        · cases h
          have hsuspended : r.state = .suspended := by
            cases hr : r.state with
            | suspended => rfl
            | running => exact (hstate hr).elim
          exact ⟨going, by rw [hrecord, ← hsuspended]⟩
        · cases h

/-- If an epoch is given, the answer is no other. -/
theorem epoch_of_require {e' : Nat} (h : s.requireSuspended t (some e) = .ok e') : e' = e := by
  obtain ⟨going, hrecord⟩ := isSuspendedIn_iff.mp (isSuspendedIn_of_require h)
  by_cases heq : e' = e
  · exact heq
  · simp [requireSuspended, going, hrecord, Ne.symm heq] at h

theorem IsSuspendedIn.require_none (suspended : s.IsSuspendedIn t e) :
    s.requireSuspended t none = .ok e := by
  obtain ⟨going, hrecord⟩ := isSuspendedIn_iff.mp suspended
  simp [requireSuspended, going, hrecord]

theorem require_eq_error (stale : ¬s.IsSuspendedIn t e) :
    ∃ fault, s.requireSuspended t (some e) = .error fault := by
  cases h : s.requireSuspended t (some e) with
  | error fault => exact ⟨fault, rfl⟩
  | ok e' =>
    obtain rfl := epoch_of_require h
    exact (stale h).elim

theorem require_none_eq_error (stale : ∀ e, ¬s.IsSuspendedIn t e) :
    ∃ fault, s.requireSuspended t none = .error fault := by
  cases h : s.requireSuspended t none with
  | error fault => exact ⟨fault, rfl⟩
  | ok e => exact (stale e (isSuspendedIn_of_require h)).elim

/-- The thread is not suspended in the epoch, nor will it ever be. -/
structure IsOver (s : RunStates) (t : ThreadId) (e : Nat) : Prop where
  drawn : e ≤ s.lastEpoch
  running : ∀ r, s.record? t = some r → r.epoch = e → r.state = .running

theorem IsOver.not_isSuspendedIn (past : s.IsOver t e) : ¬s.IsSuspendedIn t e := by
  intro suspended
  cases past.running _ (isSuspendedIn_iff.mp suspended).2 rfl

theorem IsOver.suspend (past : s.IsOver t e) (u : ThreadId) : (s.suspend u).IsOver t e := by
  refine ⟨Nat.le_succ_of_le past.drawn, fun r known hepoch => ?_⟩
  rw [record?_suspend] at known
  split at known
  · -- the new epoch is greater than the one that is over
    obtain rfl := Option.some.inj known
    have hdrawn := past.drawn
    simp only at hepoch
    omega
  · exact past.running r known hepoch

theorem IsOver.resume (past : s.IsOver t e) (u : ThreadId) : (s.resume u).IsOver t e := by
  refine ⟨Nat.le_succ_of_le past.drawn, fun r known hepoch => ?_⟩
  obtain ⟨kept, hrecord⟩ := record?_resume s t u
  rw [hrecord] at known
  split at known
  · obtain rfl := Option.some.inj known
    rfl
  · exact past.running r known hepoch

theorem IsOver.change (past : s.IsOver t e) (c : Change) : (s.change c).IsOver t e := by
  refine ⟨Nat.le_trans past.drawn (lastEpoch_le_change s c), ?_⟩
  cases c with
  | «open» =>
    rw [RunStates.change]
    intro r known
    rw [record?_opened] at known
    exact past.running r known
  | terminate =>
    intro r known
    cases known
  | event ev =>
    simp only [RunStates.change, apply]
    split
    · exact past.running
    · cases ev with
      | started u | suspended u => exact (past.suspend u).running
      | resumed u => exact (past.resume u).running
      | exited u =>
        intro r known
        rw [record?_exit] at known
        split at known
        · cases known
        · exact past.running r known
      | terminated =>
        intro r known
        cases known
      | output => exact past.running

theorem IsOver.changeAll (past : s.IsOver t e) (cs : List Change) :
    (s.changeAll cs).IsOver t e := by
  induction cs generalizing s with
  | nil => exact past
  | cons c cs ih => exact ih (past.change c)

/-- A change that concerns the thread makes an end of its suspension. -/
theorem IsSuspendedIn.isOver_change (suspended : s.IsSuspendedIn t e) (bounded : s.IsBounded)
    {c : Change} (concerned : c.Concerns t) : (s.change c).IsOver t e := by
  obtain ⟨going, hrecord⟩ := isSuspendedIn_iff.mp suspended
  have hdrawn : e ≤ s.lastEpoch := bounded t _ hrecord
  refine ⟨Nat.le_trans hdrawn (lastEpoch_le_change s c), ?_⟩
  intro r known hepoch
  cases c with
  | «open» => cases concerned
  | terminate => cases known
  | event ev =>
    simp only [RunStates.change, apply, if_neg going] at known
    rcases concerned with hthread | rfl
    · cases ev with
      | started | suspended =>
        obtain rfl := Option.some.inj hthread
        rw [record?_suspend, if_pos rfl] at known
        obtain rfl := Option.some.inj known
        simp only at hepoch
        omega
      | resumed =>
        obtain rfl := Option.some.inj hthread
        obtain ⟨kept, hresumed⟩ := record?_resume s _ _
        rw [hresumed, if_pos rfl] at known
        obtain rfl := Option.some.inj known
        rfl
      | exited =>
        obtain rfl := Option.some.inj hthread
        rw [record?_exit, if_pos rfl] at known
        cases known
      | terminated | output => cases hthread
    · cases known

/-- Other changes leave the suspension alone. -/
theorem IsSuspendedIn.change (suspended : s.IsSuspendedIn t e) {c : Change}
    (unconcerned : ¬c.Concerns t) : (s.change c).IsSuspendedIn t e := by
  obtain ⟨going, hrecord⟩ := isSuspendedIn_iff.mp suspended
  rw [isSuspendedIn_iff]
  cases c with
  | «open» =>
    rw [RunStates.change, record?_opened]
    refine ⟨?_, hrecord⟩
    unfold opened
    split
    · intro h
      cases h
    · exact going
  | terminate => exact (unconcerned trivial).elim
  | event ev =>
    simp only [Change.Concerns, not_or] at unconcerned
    obtain ⟨hthread, hnot⟩ := unconcerned
    simp only [RunStates.change, apply, if_neg going]
    cases ev with
    | started u | suspended u =>
      refine ⟨sessionOf_ne_terminated _, ?_⟩
      rw [record?_suspend, if_neg, hrecord]
      rintro rfl
      exact hthread rfl
    | resumed u =>
      refine ⟨sessionOf_ne_terminated _, ?_⟩
      obtain ⟨kept, hresumed⟩ := record?_resume s t u
      rw [hresumed, if_neg, hrecord]
      rintro rfl
      exact hthread rfl
    | exited u =>
      refine ⟨sessionOf_ne_terminated _, ?_⟩
      rw [record?_exit, if_neg, hrecord]
      rintro rfl
      exact hthread rfl
    | terminated => exact (hnot rfl).elim
    | output => exact ⟨going, hrecord⟩

/-- An epoch is still good after some changes exactly if none of them concerns the
    thread. -/
theorem isSuspendedIn_changeAll_iff (suspended : s.IsSuspendedIn t e) (bounded : s.IsBounded)
    (cs : List Change) :
    (s.changeAll cs).IsSuspendedIn t e ↔ ∀ c ∈ cs, ¬c.Concerns t := by
  induction cs generalizing s with
  | nil => exact iff_of_true suspended fun c hc => by cases hc
  | cons c cs ih =>
    change ((s.change c).changeAll cs).IsSuspendedIn t e ↔ _
    by_cases concerned : c.Concerns t
    · have past := (suspended.isOver_change bounded concerned).changeAll cs
      exact iff_of_false past.not_isSuspendedIn fun h => h c List.mem_cons_self concerned
    · rw [ih (suspended.change concerned) (bounded.change c), List.forall_mem_cons]
      exact ⟨fun h => ⟨concerned, h⟩, fun h => h.2⟩

theorem IsBounded.changeAll (bounded : s.IsBounded) (cs : List Change) :
    (s.changeAll cs).IsBounded := by
  induction cs generalizing s with
  | nil => exact bounded
  | cons c cs ih => exact ih (bounded.change c)

end RunStates

end Pushdown
