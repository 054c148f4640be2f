/-
  Pushdown/Proofs/Session/Accounted.lean
  ======================================
  **No call gets lost.**  A call that has begun is under way, or it is over, or its caller
  has gone away; and a call of which a command has failed is not one that its caller has
  left before (`Setup.Carries.accounted`).  So whatever a script does with a failure, it
  does: the call comes to its result.
-/
import Pushdown.Proofs.Session.Torn

namespace Pushdown

namespace Session

variable {α : Type} {s : Setup} {as : List (Action α)} {m : Moment α} {tr : Traffic} {t : Ticket}

/-- The call is under way or over, or its caller has gone away before anything failed, if
    it was ever there. -/
def Accounted (as : List (Action α)) (t : Ticket) (m : Moment α) (tr : Traffic) : Prop :=
  t ∈ m.tickets ∨ (∃ r, .ended ⟨t, r⟩ ∈ m.log) ∨
    (tr.exchanges t).AllOk ∧ (t ∈ ticketsOf as → .cancel t ∈ as)

/-- Nothing comes back to a call that is not there. -/
theorem exchanges_of_absent {began : List Ticket} (staffed : Staffed began m)
    (absent : t ∉ m.tickets) : m.traffic.exchanges t = [] := by
  obtain ⟨log, x, lines, running⟩ := m
  cases lines with
  | cons item rest => rfl
  | nil =>
    rcases running with _ | ⟨u, _ | _ | ⟨turn, c, next⟩ | _⟩
    · rcases Link.traffic_turn staffed.sound staffed.tickets_nodup t with
        ⟨c, outcome, -, asks, -⟩ | ⟨-, silent, -⟩
      · have hcalls := staffed.staffed.mem_iff.mp (Link.mem_tickets_of_asks asks)
        exact (absent (List.mem_append_left _ hcalls)).elim
      · exact silent
    · rfl
    · rfl
    · have hother : u ≠ t := by
        rintro rfl
        exact absent (by simp [Moment.tickets])
      change Traffic.exchanges (Option.map _ (x.link.refusal? turn)).toList t = []
      cases x.link.refusal? turn <;> simp [Traffic.exchanges, Traffic.exchange?, hother]
    · rfl

theorem Accounted.next {m' : Moment α} {began : List Ticket} (accounted : Accounted as t m tr)
    (staffed : Staffed began m) (step : Next m m') : Accounted as t m' (tr ++ m.traffic) := by
  by_cases there : t ∈ m.tickets
  · cases step with
    | line => exact .inl (by simpa [Moment.tickets] using there)
    | looks | turnedAway | closes => exact .inl there
    | asks => exact .inl (by simpa [Moment.tickets, between] using there)
    | @ends log x u result =>
      rcases List.mem_append.mp there with waits | runs
      · exact .inl (List.mem_append_left _ waits)
      · obtain rfl : t = u := by simpa using runs
        exact .inr (.inl ⟨result, by simp [between]⟩)
    | @turns log x =>
      obtain ⟨w, hw, rfl⟩ : ∃ w ∈ x.calls, w.ticket = t := by
        simpa [Moment.tickets, between] using there
      rcases turns_waiting staffed hw with still | ⟨c, outcome, -, hrun⟩
      · exact .inl (List.mem_append_left _ (List.mem_map_of_mem still))
      · exact .inl (List.mem_append_right _ (by simp [hrun]))
  · rcases accounted with known | ⟨r, ended⟩ | ⟨ok, gone⟩
    · exact (there known).elim
    · exact .inr (.inl ⟨r, log_subset_next step ended⟩)
    · refine .inr (.inr ⟨?_, gone⟩)
      rwa [Traffic.exchanges_append, exchanges_of_absent staffed there, List.append_nil]

theorem Accounted.begun {log : Happened α} {x : Session α}
    (accounted : Accounted as t (between log x) tr) (a : Action α)
    (ok : t ∈ (between log x).tickets → (tr.exchanges t).AllOk) :
    Accounted (as ++ [a]) t (begun log x a) tr := by
  have hknown : t ∈ (between log x).tickets → t ∈ x.calls.map Waiting.ticket := by
    intro known
    simpa [Moment.tickets, between] using known
  by_cases hstart : ∃ u script, a = .start u script
  · obtain ⟨u, script, rfl⟩ := hstart
    by_cases own : u = t
    · exact .inl (by simp [Session.begun, Moment.tickets, own])
    · rcases accounted with known | ended | ⟨ok, gone⟩
      · exact .inl (List.mem_append_left _ (hknown known))
      · exact .inr (.inl ended)
      · refine .inr (.inr ⟨ok, fun began => List.mem_append_left _ (gone ?_)⟩)
        simpa [ticketsOf, Action.ticket?, Ne.symm own] using began
  · have hbegan : ticketsOf (as ++ [a]) = ticketsOf as := by
      cases a with
      | start u script => exact (hstart ⟨u, script, rfl⟩).elim
      | _ => simp [ticketsOf, Action.ticket?]
    have arrived := arrived_begun log x a
    have hended : ∀ r, .ended ⟨t, r⟩ ∈ log → .ended ⟨t, r⟩ ∈ (Session.begun log x a).log :=
      fun r => (ended_of_arrived arrived).mpr
    rcases accounted with known | ⟨r, ended⟩ | ⟨ok, gone⟩
    · generalize Session.begun log x a = m at arrived
      cases arrived with
      | starts => exact (hstart ⟨_, _, rfl⟩).elim
      | @leaves u =>
        by_cases own : u = t
        · subst own
          exact .inr (.inr ⟨ok known, fun _ => by simp⟩)
        · refine .inl ?_
          obtain ⟨w, hw, rfl⟩ := List.mem_map.mp (hknown known)
          refine List.mem_append_left _ (List.mem_map_of_mem (List.mem_filter.mpr ⟨hw, ?_⟩))
          simpa using Ne.symm own
      | _ => exact .inl (List.mem_append_left _ (hknown known))
    · exact .inr (.inl ⟨r, hended r ended⟩)
    · exact .inr (.inr ⟨ok, fun began => List.mem_append_left _ (gone (hbegan ▸ began))⟩)

/-- What has come back to a call that waits is all good. -/
theorem Tracked.allOk_of_waiting {log : Happened α} {x : Session α} (own : OwnTickets as)
    (tracked : Tracked as (between log x) tr) (there : t ∈ (between log x).tickets) :
    (tr.exchanges t).AllOk := by
  obtain ⟨a, ha, hticket⟩ := List.mem_filterMap.mp (tracked.staffed.known t there)
  cases a with
  | start u script =>
    obtain rfl := Option.some.inj hticket
    obtain ⟨w, hw, own'⟩ : ∃ w ∈ x.calls, w.ticket = u := by
      simpa [Moment.tickets, between] using there
    obtain ⟨-, -, -, -, ok, -⟩ := (tracked.course u script (own.isScriptOf ha)).waiting w hw own'
    exact ok
  | _ => cases hticket

/-- **All calls are accounted for.** -/
theorem Setup.Carries.accounted (own : OwnTickets as) (giveUp : AllGiveUp as)
    (carries : s.Carries as m tr) (t : Ticket) : Accounted as t m tr := by
  induction carries with
  | start => exact .inr (.inr ⟨fun _ _ => List.not_mem_nil, fun began => by cases began⟩)
  | @input as tr carries a ih =>
    have hown := own.of_append
    have hgiveUp := giveUp.of_append.1
    refine Accounted.begun (x := s.awaiting as a) (ih hown hgiveUp) a ?_
    exact fun there => (carries.tracked hown hgiveUp).allOk_of_waiting hown there
  | next carries step ih =>
    exact (ih own giveUp).next (carries.tracked own giveUp).staffed step
  | drain carries ih => exact ih own giveUp

/-- A call of which a command has failed comes to its result. -/
theorem Setup.Carries.ended_of_failed (own : OwnTickets as) (giveUp : AllGiveUp as)
    (carries : s.Carries as (between (s.log as) (s.after as)) tr) {d : Command} {e : Error}
    (failed : (d, .error e) ∈ tr.exchanges t) : ∃ r, .ended ⟨t, r⟩ ∈ s.log as := by
  rcases carries.accounted own giveUp t with there | ended | ⟨ok, -⟩
  · exact ((carries.tracked own giveUp).allOk_of_waiting own there d e failed).elim
  · exact ended
  · exact (ok d e failed).elim

end Session

end Pushdown
