/-
  Pushdown/Proofs/Link/History.lean
  =================================
  **What has been seen of a run.**  A run takes one input after the other.  Within an
  input the link goes through several *moments*, one for each turn: the writer has
  been given away as far as it can be, and the call that has it is about to come
  further.  The history of a run keeps these moments, the calls that are over, and
  the bytes that the VM has read.

  Inputs, turns and reading by the VM are all that ever changes a link.
  `Setup.induction` proves a property of all runs by looking at one of each.
-/
import Mathlib.Data.List.Induction
import Pushdown.Proofs.Link.Sound

namespace Pushdown

namespace Link

/-! ### Moments -/

/-- The moments of up to `n` turns. -/
def momentsOf : Nat → Link → List Link
  | 0, _ => []
  | n + 1, l =>
    l.grant :: match l.turn with
      | (none, _) => []
      | (some _, l) => momentsOf n l

def moments (l : Link) (a : Action) : List Link :=
  let begun := (l.begin a).2
  momentsOf (begun.callCount + 1) begun

def runMoments (l : Link) : List Action → List Link
  | [] => []
  | a :: rest => l.moments a ++ (l.step a).2.runMoments rest

end Link

/-! ### Calls -/

/-- The calls that the inputs begin, in order. -/
def ticketsOf (as : List Link.Action) : List Ticket := as.filterMap Link.Action.ticket?

/-- No two calls go by the same number: a ticket stands for the call itself, which begins
    once. -/
def OwnTickets (as : List Link.Action) : Prop := (ticketsOf as).Nodup

instance (as : List Link.Action) : Decidable (OwnTickets as) :=
  inferInstanceAs (Decidable (List.Nodup _))

/-! ### Runs -/

/-- What a run starts from. -/
structure Setup where
  capacity : Nat
  reading : Bool
  timeLimit : Option Nat

/-- What has been seen of a run. -/
structure History where
  moments : List Link
  finished : List Finished
  sent : List UInt8

namespace Setup

variable (s : Setup)

def link : Link := Link.new (Pipe.new s.capacity s.reading) s.timeLimit

/-- The link after the inputs. -/
def after (as : List Link.Action) : Link := (s.link.run as).2

def reports (as : List Link.Action) : List Link.Report := (s.link.run as).1

/-- The calls that are over after the inputs. -/
def finished (as : List Link.Action) : List Finished :=
  (s.reports as).flatMap Link.Report.finished

def sent (as : List Link.Action) : List UInt8 := (s.reports as).flatMap Link.Report.sent

def moments (as : List Link.Action) : List Link := s.link.runMoments as

def history (as : List Link.Action) : History := ⟨s.moments as, s.finished as, s.sent as⟩

end Setup

namespace Link

theorem run_cons (l : Link) (a : Action) (as : List Action) :
    l.run (a :: as) =
      ((l.step a).1 :: ((l.step a).2.run as).1, ((l.step a).2.run as).2) := rfl

theorem run_append (l : Link) (as bs : List Action) :
    l.run (as ++ bs) = ((l.run as).1 ++ ((l.run as).2.run bs).1, ((l.run as).2.run bs).2) := by
  induction as generalizing l with
  | nil => rfl
  | cons a as ih => simp only [List.cons_append, run, ih]

theorem runMoments_append (l : Link) (as bs : List Action) :
    l.runMoments (as ++ bs) = l.runMoments as ++ (l.run as).2.runMoments bs := by
  induction as generalizing l with
  | nil => rfl
  | cons a as ih => simp only [List.cons_append, runMoments, run, ih, List.append_assoc]

end Link

namespace Setup

variable (s : Setup)

theorem after_append (as bs : List Link.Action) :
    s.after (as ++ bs) = ((s.after as).run bs).2 := by
  simp only [after, Link.run_append]

theorem reports_append (as bs : List Link.Action) :
    s.reports (as ++ bs) = s.reports as ++ ((s.after as).run bs).1 := by
  simp only [reports, after, Link.run_append]

theorem after_snoc (as : List Link.Action) (a : Link.Action) :
    s.after (as ++ [a]) = ((s.after as).step a).2 := by
  rw [after_append]
  rfl

theorem reports_snoc (as : List Link.Action) (a : Link.Action) :
    s.reports (as ++ [a]) = s.reports as ++ [((s.after as).step a).1] := by
  rw [reports_append]
  rfl

theorem finished_snoc (as : List Link.Action) (a : Link.Action) :
    s.finished (as ++ [a]) = s.finished as ++ ((s.after as).step a).1.finished := by
  simp [finished, reports_snoc]

theorem sent_snoc (as : List Link.Action) (a : Link.Action) :
    s.sent (as ++ [a]) = s.sent as ++ ((s.after as).step a).1.sent := by
  simp [sent, reports_snoc]

theorem moments_snoc (as : List Link.Action) (a : Link.Action) :
    s.moments (as ++ [a]) = s.moments as ++ (s.after as).moments a := by
  simp [moments, Link.runMoments_append, Link.runMoments, after]

theorem sound_link : s.link.Sound :=
  Link.Sound.of_free rfl rfl fun _ q hq => by cases hq

end Setup

/-- A place in a longer run is the end, or a place in the shorter one. -/
theorem snoc_eq_split {α : Type} {xs before later : List α} {x y : α}
    (h : xs ++ [x] = before ++ y :: later) :
    (before = xs ∧ y = x ∧ later = []) ∨
      ∃ later', later = later' ++ [x] ∧ xs = before ++ y :: later' := by
  rcases List.eq_nil_or_concat later with rfl | ⟨later', z, hlater⟩
  · obtain ⟨hxs, hx⟩ := List.append_inj' h rfl
    exact Or.inl ⟨hxs.symm, (List.cons.inj hx).1.symm, rfl⟩
  · rw [List.concat_eq_append] at hlater
    subst hlater
    have hassoc : before ++ y :: (later' ++ [z]) = (before ++ y :: later') ++ [z] := by simp
    obtain ⟨hxs, hx⟩ := List.append_inj' (h.trans hassoc) rfl
    obtain rfl := (List.cons.inj hx).1
    exact Or.inr ⟨later', rfl, hxs⟩

/-! ### Induction over runs -/

namespace Link

/-- What holds of a link and is kept by every turn holds after any number of turns. -/
theorem turns_induction {P : History → Link → Prop}
    (turn : ∀ history l, l.Sound → P history l →
      P ⟨history.moments ++ [l.grant], history.finished ++ l.turn.1.toList, history.sent⟩
        l.turn.2)
    (n : Nat) : ∀ (history : History) {l : Link}, l.Sound → P history l →
      P ⟨history.moments ++ momentsOf n l, history.finished ++ (turns n l).1, history.sent⟩
        (turns n l).2 := by
  induction n with
  | zero =>
    intro history l sound h
    simpa [turns, momentsOf] using h
  | succ n ih =>
    intro history l sound h
    have hnext := turn history l sound h
    have hsound := sound.turn
    rcases hturn : l.turn with ⟨_ | f, l'⟩
    · rw [hturn] at hnext
      simpa [turns, momentsOf, hturn] using hnext
    · rw [hturn] at hnext hsound
      simpa [turns, momentsOf, hturn, List.append_assoc] using ih _ hsound hnext

/-! ### Single turns -/

section

variable {k n : Nat} {l g : Link} {f : Finished}

/-- When the first turns end a call each, the others go on from there. -/
theorem turns_split (all : (turns k l).1.length = k) (n : Nat) :
    turns (k + n) l = ((turns k l).1 ++ (turns n (turns k l).2).1, (turns n (turns k l).2).2) ∧
      momentsOf (k + n) l = momentsOf k l ++ momentsOf n (turns k l).2 := by
  induction k generalizing l with
  | zero => simp [turns, momentsOf]
  | succ k ih =>
    rw [Nat.add_right_comm]
    rcases hturn : l.turn with ⟨_ | f, l'⟩
    · simp [turns, hturn] at all
    · have hall : (turns k l').1.length = k := by simpa [turns, hturn] using all
      obtain ⟨hturns, hmoments⟩ := ih hall
      simp [turns, momentsOf, hturn, hturns, hmoments]

/-- Each moment is the moment of a turn, and the turns before it have ended a call each. -/
theorem exists_turn_of_moment (moment : g ∈ momentsOf n l) :
    ∃ k < n, (turns k l).1.length = k ∧ (turns k l).2.grant = g := by
  induction n generalizing l with
  | zero => cases moment
  | succ n ih =>
    simp only [momentsOf] at moment
    rcases List.mem_cons.mp moment with rfl | moment
    · exact ⟨0, Nat.succ_pos n, rfl, rfl⟩
    · rcases hturn : l.turn with ⟨_ | f, l'⟩
      · simp [hturn] at moment
      · obtain ⟨k, hk, hall, hgrant⟩ := ih (by simpa [hturn] using moment)
        exact ⟨k + 1, Nat.succ_lt_succ hk, by simpa [turns, hturn] using hall,
          by simpa [turns, hturn] using hgrant⟩

theorem grant_mem_momentsOf (all : (turns k l).1.length = k) (early : k < n) :
    (turns k l).2.grant ∈ momentsOf n l := by
  obtain ⟨j, rfl⟩ := Nat.exists_eq_add_of_lt early
  rw [Nat.add_assoc, (turns_split all (j + 1)).2]
  exact List.mem_append_right _ (by simp [momentsOf])

theorem exists_turn_of_finished (finished : f ∈ (turns n l).1) :
    ∃ k < n, (turns k l).1.length = k ∧ (turns k l).2.turn.1 = some f := by
  induction n generalizing l with
  | zero => cases finished
  | succ n ih =>
    rcases hturn : l.turn with ⟨_ | f', l'⟩
    · simp [turns, hturn] at finished
    · simp only [turns, hturn] at finished
      rcases List.mem_cons.mp finished with rfl | finished
      · exact ⟨0, Nat.succ_pos n, rfl, by rw [turns, hturn]⟩
      · obtain ⟨k, hk, hall, hend⟩ := ih finished
        exact ⟨k + 1, Nat.succ_lt_succ hk, by simpa [turns, hturn] using hall,
          by simpa [turns, hturn] using hend⟩

/-- A turn that ends a call is followed by those that are left. -/
theorem turns_at (all : (turns k l).1.length = k) (early : k < n)
    (ended : (turns k l).2.turn.1 = some f) :
    ∃ j, n = k + (j + 1) ∧
      turns n l = ((turns k l).1 ++ f :: (turns j (turns k l).2.turn.2).1,
        (turns j (turns k l).2.turn.2).2) ∧
      momentsOf n l =
        momentsOf k l ++ (turns k l).2.grant :: momentsOf j (turns k l).2.turn.2 := by
  obtain ⟨j, rfl⟩ := Nat.exists_eq_add_of_lt early
  obtain ⟨hturns, hmoments⟩ := turns_split all (j + 1)
  refine ⟨j, rfl, ?_⟩
  rw [Nat.add_assoc, hturns, hmoments]
  rcases hturn : (turns k l).2.turn with ⟨_ | f', m⟩
  · rw [hturn] at ended
    cases ended
  · rw [hturn] at ended
    cases ended
    simp [turns, momentsOf, hturn]

/-- A turn that ends no call is the last. -/
theorem turns_last (all : (turns k l).1.length = k) (early : k < n)
    (last : (turns k l).2.turn.1 = none) : (turns n l).2 = (turns k l).2.turn.2 := by
  obtain ⟨j, rfl⟩ := Nat.exists_eq_add_of_lt early
  rw [Nat.add_assoc, (turns_split all (j + 1)).1]
  rcases hturn : (turns k l).2.turn with ⟨_ | f, m⟩
  · simp [turns, hturn]
  · rw [hturn] at last
    cases last

end

/-- The calls that are over after a step: those that were turned away, and those whose
    turn it was. -/
theorem step_finished (l : Link) (a : Action) :
    (l.step a).1.finished =
      (l.begin a).1 ++ (turns ((l.begin a).2.callCount + 1) (l.begin a).2).1 := rfl

end Link

namespace Setup

variable (s : Setup)

theorem sound (as : List Link.Action) : (s.after as).Sound := by
  induction as using List.reverseRecOn with
  | nil => exact s.sound_link
  | append_singleton as a ih =>
    rw [after_snoc]
    exact ih.step a

/-- What holds at the start and is kept by every input, every turn and all reading
    holds after every run. -/
theorem induction {P : List Link.Action → History → Link → Prop}
    (start : P [] ⟨[], [], []⟩ s.link)
    (begin : ∀ as a, (s.after as).Sound → P as (s.history as) (s.after as) →
      P (as ++ [a]) ⟨s.moments as, s.finished as ++ ((s.after as).begin a).1, s.sent as⟩
        ((s.after as).begin a).2)
    (turn : ∀ as history l, l.Sound → P as history l →
      P as ⟨history.moments ++ [l.grant], history.finished ++ l.turn.1.toList, history.sent⟩
        l.turn.2)
    (drain : ∀ as history l reading, l.Sound → P as history l →
      P as ⟨history.moments, history.finished, history.sent ++ l.drain.1⟩
        (l.drain.2.setReading reading))
    (as : List Link.Action) : P as (s.history as) (s.after as) := by
  induction as using List.reverseRecOn with
  | nil => exact start
  | append_singleton as a ih =>
    have hbegun := (s.sound as).begin a
    have hturns := Link.turns_induction (turn (as ++ [a]))
      (((s.after as).begin a).2.callCount + 1) _ hbegun (begin as a (s.sound as) ih)
    have hdrain := drain _ _ _ (s.after as).pipe.reading hbegun.turns hturns
    simpa [history, after_snoc, finished_snoc, sent_snoc, moments_snoc, Link.step,
      Link.settle, Link.moments, List.append_assoc] using hdrain

end Setup

end Pushdown
