/-
  Pushdown/Proofs/Session/Origin.lean
  ===================================
  **Where an outcome comes from.**  What comes back to a call for its command is either
  what a reply of the VM has said, a reply to this very command that was taken in while
  the call awaited it, or one of the failures that the client knows by itself: the time is
  up, an argument would break the line, the connection is closed, or somebody else has the
  writer (`Setup.Origin`).  The last can only happen to a call that does not want to wait.

  `Setup.Carries.traced` has this of all the traffic of a run.
-/
import Pushdown.Proofs.Session.Traffic

namespace Pushdown

/-! ### Turns -/

namespace Link

variable {l : Link} {t : Ticket} {c : Command} {outcome : Except Error Payload}

/-- Why a line is not written. -/
inductive WriteFault (c : Command) : Except Error Payload → Prop
  /-- The link is closed, or the VM has let go. -/
  | closed : WriteFault c (.error .connectionClosed)
  /-- It would be more than one line. -/
  | severalLines {arg : String} (there : arg ∈ c.args) (breaks : hasLineBreak arg = true) :
      WriteFault c (.error (.invalidArgument (.lineBreak c.opcode arg)))

theorem fault_encode {r : Request} {e : Error} (h : r.encode = .error e) :
    WriteFault r.command (.error e) := by
  unfold Request.encode at h
  cases hfind : r.command.args.find? hasLineBreak with
  | none => simp [hfind] at h
  | some arg =>
    simp only [hfind, Except.error.injEq] at h
    subst h
    exact .severalLines (List.mem_of_find?_eq_some hfind) (List.find?_some hfind)

section

variable {l' : Link} {h : Holder} {result : Except Error Payload}

theorem fault_writeLine (failed : l.writeLine h = (l', .error result)) :
    WriteFault h.request.command result := by
  unfold writeLine at failed
  split at failed <;> cases failed
  exact .closed

theorem fault_putLine (failed : l.putLine h = (l', .error result)) :
    WriteFault h.request.command result := by
  unfold putLine at failed
  split at failed
  · next e hencode =>
    cases failed
    exact fault_encode hencode
  · exact fault_writeLine failed

theorem fault_startLine (failed : l.startLine h = (l', .error result)) :
    WriteFault h.request.command result := by
  unfold startLine at failed
  split at failed
  · exact fault_putLine failed
  · simp only at failed
    split at failed
    · cases failed
      exact .closed
    · split at failed
      · exact fault_putLine failed
      · cases failed

theorem fault_write (failed : l.write h = (l', .error result)) :
    WriteFault h.request.command result := by
  unfold write at failed
  split at failed
  · exact fault_startLine failed
  · split at failed
    · exact fault_startLine failed
    · cases failed
  · exact fault_writeLine failed
  · cases failed

end

/-- What comes back in a turn was handed over before, or is a failure. -/
theorem returned_eq_some (sound : l.Sound) (returned : l.returned? = some (.outcome t c outcome)) :
    (∃ h, l.holder = some h ∧ h.ticket = t ∧ h.request.command = c ∧ h.handed = some outcome) ∨
    outcome = .error (.timeout c.text) ∨ WriteFault c outcome := by
  obtain ⟨rest, hturn, hasks⟩ : ∃ rest, l.turn.1 = some (.command t outcome) ∧
      l.asks = (t, c) :: rest := by
    rcases l.asks_turn sound with ⟨u, d, result, hturn, hasks, hsome⟩ | ⟨-, -, hnone⟩
    · cases hsome.symm.trans returned
      exact ⟨_, hturn, hasks⟩
    · cases hnone.symm.trans returned
  rw [← asks_grant sound] at hasks
  have turned := turned_turn sound
  have hholder : ∀ {h}, l.grant.holder = some h → l.holder = some h ∨ h.handed = none :=
    fun held => (grant_holder sound held).imp_right fun fresh => fresh.2.2.2.1
  generalize l.turn = r at turned hturn
  generalize l.grant = g at *
  cases turned with
  | idle | goesOn => cases hturn
  | shuts => cases hturn
  | refused | dismissed =>
    cases hturn
    exact .inr (.inr .closed)
  | @ended h l' result held _ polled =>
    obtain ⟨rfl, rfl⟩ := Finished.command.inj (Option.some.inj hturn)
    obtain rfl : h.request.command = c := by
      rw [asks, held] at hasks
      exact congrArg Prod.snd (List.cons.inj hasks).1
    cases polled with
    | answered wrote _ handed =>
      rw [(wrote_of_eq wrote).holder_eq] at handed
      rcases hholder held with hbefore | hnone
      · exact .inl ⟨h, hbefore, rfl, rfl, handed⟩
      · cases handed.symm.trans hnone
    | overdue wrote =>
      rw [(wrote_of_eq wrote).holder_eq]
      exact .inr (.inl rfl)
    | failed wrote => exact .inr (.inr (fault_write wrote))

/-- A call that goes on in a turn has been handed no more than before. -/
theorem turn_handed {h' : Holder} (sound : l.Sound) (held' : l.turn.2.holder = some h')
    (handed : h'.handed = some outcome) :
    ∃ h, l.holder = some h ∧ h.ticket = h'.ticket ∧ h.request = h'.request ∧
      h.handed = some outcome := by
  have turned := turned_turn sound
  have hholder : ∀ {h}, l.grant.holder = some h → l.holder = some h ∨ h.handed = none :=
    fun held => (grant_holder sound held).imp_right fun fresh => fresh.2.2.2.1
  generalize l.turn = r at turned held'
  generalize l.grant = g at *
  cases turned with
  | idle free =>
    rw [free] at held'
    cases held'
  | dismissed free | shuts free =>
    change g.holder = some h' at held'
    rw [free] at held'
    cases held'
  | refused | ended => cases held'
  | @goesOn h _ l' held _ polled =>
    obtain rfl := Option.some.inj held'
    rw [polled.wrote_ok.holder_eq] at handed ⊢
    rcases hholder held with hbefore | hnone
    · exact ⟨h, hbefore, rfl, rfl, handed⟩
    · cases handed.symm.trans hnone

/-- What a reply hands over goes to the call that awaits it. -/
theorem resolve_handed {reply : Reply} {h' : Holder} (sound : l.Sound)
    (held' : (l.resolve reply).holder = some h') (handed : h'.handed = some outcome) :
    l.holder = some h' ∨ l.Awaits h'.ticket h'.request ∧ h'.request.token = reply.token ∧
      outcome = outcomeOf h'.request reply.outcome := by
  cases hexpected : l.expected with
  | none =>
    simp only [resolve, hexpected] at held'
    exact .inl held'
  | some r =>
    by_cases own : r.token = reply.token
    · obtain ⟨h, held, rfl, hover⟩ := sound.handOver_eq hexpected
      simp only [resolve, hexpected, if_pos own, hover] at held'
      obtain rfl := Option.some.inj held'
      obtain rfl := Option.some.inj handed
      exact .inr ⟨⟨hexpected, h, held, rfl, rfl⟩, own, rfl⟩
    · simp only [resolve, hexpected, if_neg own] at held'
      exact .inl held'

theorem cancel_holder {u : Ticket} {h : Holder} (held : (l.cancel u).holder = some h) :
    l.holder = some h := by
  unfold cancel at held
  split at held
  · next h' hbefore =>
    split at held
    · cases held
    · exact held
  · exact held

theorem refusal?_wait {e : Error} (refused : l.refusal? .wait = some e) :
    e = .connectionClosed := by
  simp only [refusal?] at refused
  split at refused
  · exact (Option.some.inj refused).symm
  · cases refused

end Link

/-! ### Calls that wait for the writer -/

namespace Session

variable {α : Type} {s : Setup} {as : List (Action α)} {t : Ticket} {c : Command}

/-- All calls with this ticket wait for the writer. -/
def WaitsAlways (as : List (Action α)) (t : Ticket) : Prop :=
  ∀ script, .start t script ∈ as → script.IsPatient

theorem governs_isPatient (as : List (Action α)) :
    Governs (fun t _ script => WaitsAlways as t → Script.IsPatient script)
      (fun t (next : Except Error Payload → Script α) =>
        WaitsAlways as t → ∀ outcome, (next outcome).IsPatient) where
  looks patient waits := patient waits _
  sends patient waits := (patient waits).2
  wakes patient outcome _ waits := patient waits outcome
  closes patient waits := patient waits

/-! ### Outcomes -/

/-- The VM has sent a reply with this outcome, and it was taken in while the call awaited
    the reply to this request. -/
def Setup.HasReplied (s : Setup) (as : List (Action α)) (t : Ticket) (r : Request)
    (outcome : Outcome) : Prop :=
  ∃ before log x rest, before <+: as ∧
    s.Passes before ⟨log, x, .reply ⟨r.token, outcome⟩ :: rest, none⟩ ∧ x.link.Awaits t r

/-- Where the outcome of a command comes from. -/
inductive Setup.Origin (s : Setup) (as : List (Action α)) (t : Ticket) (c : Command) :
    Except Error Payload → Prop
  | replied {token : Nat} {outcome : Outcome} (reply : s.HasReplied as t ⟨token, c⟩ outcome) :
      s.Origin as t c (Link.outcomeOf ⟨token, c⟩ outcome)
  | timedOut : s.Origin as t c (.error (.timeout c.text))
  | severalLines {arg : String} (there : arg ∈ c.args) (breaks : hasLineBreak arg = true) :
      s.Origin as t c (.error (.invalidArgument (.lineBreak c.opcode arg)))
  | closed : s.Origin as t c (.error .connectionClosed)
  | busy (impatient : ¬WaitsAlways as t) : s.Origin as t c (.error .busy)

namespace Setup

theorem HasReplied.append {r : Request} {outcome : Outcome}
    (replied : s.HasReplied as t r outcome) (bs : List (Action α)) :
    s.HasReplied (as ++ bs) t r outcome := by
  obtain ⟨before, log, x, rest, earlier, passes, awaits⟩ := replied
  exact ⟨before, log, x, rest, earlier.trans (List.prefix_append _ _), passes, awaits⟩

theorem Origin.append {outcome : Except Error Payload} (origin : s.Origin as t c outcome)
    (bs : List (Action α)) : s.Origin (as ++ bs) t c outcome := by
  cases origin with
  | replied reply => exact .replied (reply.append bs)
  | timedOut => exact .timedOut
  | severalLines there breaks => exact .severalLines there breaks
  | closed => exact .closed
  | busy impatient =>
    exact .busy fun waits => impatient fun script h => waits script (List.mem_append_left _ h)

/-- The call that has the writer has been handed no more than its reply has said. -/
def Informed (s : Setup) (as : List (Action α)) (l : Link) : Prop :=
  ∀ h outcome, l.holder = some h → h.handed = some outcome →
    ∃ said, s.HasReplied as h.ticket h.request said ∧ outcome = Link.outcomeOf h.request said

/-- All that has come back, or has been handed over, has an origin. -/
structure Traced (s : Setup) (as : List (Action α)) (m : Moment α) (tr : Traffic) : Prop where
  patient : Governed (fun t _ script => WaitsAlways as t → Script.IsPatient script)
    (fun t next => WaitsAlways as t → ∀ outcome, (next outcome).IsPatient) m
  handed : s.Informed as m.session.link
  outcomes : ∀ t c outcome, .outcome t c outcome ∈ tr → s.Origin as t c outcome

theorem Informed.append {l : Link} (informed : s.Informed as l) (bs : List (Action α)) :
    s.Informed (as ++ bs) l := by
  intro h outcome held handed
  obtain ⟨said, replied, heq⟩ := informed h outcome held handed
  exact ⟨said, replied.append bs, heq⟩

theorem Informed.turn {l : Link} (informed : s.Informed as l) (sound : l.Sound) :
    s.Informed as l.turn.2 := by
  intro h' outcome held' handed
  obtain ⟨h, held, hticket, hrequest, hbefore⟩ := Link.turn_handed sound held' handed
  rw [← hticket, ← hrequest]
  exact informed h outcome held hbefore

theorem informed_next {m m' : Moment α} (passes : s.Passes as m) (sound : m.session.link.Sound)
    (informed : s.Informed as m.session.link) (step : Next m m') :
    s.Informed as m'.session.link := by
  cases step with
  | @line log x item rest =>
    cases item with
    | event e => simpa [handleIncoming] using informed
    | malformed => exact informed
    | reply reply =>
      intro h' outcome held' handed
      rcases Link.resolve_handed sound held' handed with hbefore | ⟨awaits, own, heq⟩
      · exact informed h' outcome hbefore handed
      · refine ⟨reply.outcome, ⟨as, log, x, rest, List.prefix_rfl, ?_, awaits⟩, heq⟩
        rw [own]
        exact passes
  | looks | turnedAway | ends => exact informed
  | asks => exact informed
  | closes => exact informed
  | turns =>
    obtain ⟨calls, running, heq⟩ := awakened_eq _ _ _
    rw [heq]
    exact Informed.turn informed sound

theorem informed_arrived {log : Happened α} {x : Session α} {a : Action α} {m : Moment α}
    (arrived : Arrived log x a m) (informed : s.Informed as x.link) :
    s.Informed as m.session.link := by
  cases arrived with
  | leaves => exact fun h outcome held => informed h outcome (Link.cancel_holder held)
  | _ => exact informed

/-- What comes back next has an origin. -/
theorem origin_of_traffic {m : Moment α} {tr : Traffic} (traced : s.Traced as m tr)
    (sound : m.session.link.Sound) {outcome : Except Error Payload} (new : .outcome t c outcome ∈ m.traffic) :
    s.Origin as t c outcome := by
  obtain ⟨log, x, lines, running⟩ := m
  cases lines with
  | cons item rest => cases new
  | nil =>
    rcases running with _ | ⟨u, _ | _ | ⟨turn, d, next⟩ | _⟩
    · have hreturned : x.link.returned? = some (.outcome t c outcome) := by
        rcases List.mem_append.mp (show _ ∈ x.link.traffic from new) with hline | hreturned
        · obtain ⟨p, -, hp⟩ := List.mem_map.mp hline
          cases hp
        · exact Option.mem_toList.mp hreturned
      rcases Link.returned_eq_some sound hreturned with
        ⟨h, held, rfl, rfl, handed⟩ | rfl | fault
      · obtain ⟨said, replied, rfl⟩ := traced.handed h outcome held handed
        have hreplied : s.HasReplied as h.ticket ⟨h.request.token, h.request.command⟩ said :=
          replied
        exact .replied hreplied
      · exact .timedOut
      · cases fault with
        | closed => exact .closed
        | severalLines there breaks => exact .severalLines there breaks
    · cases new
    · cases new
    · obtain ⟨e, why, heq⟩ := Option.map_eq_some_iff.mp (Option.mem_toList.mp new)
      cases heq
      rcases Link.refusal?_eq_some why with rfl | rfl
      · exact .closed
      · refine .busy fun waits => ?_
        obtain ⟨rfl, -⟩ := traced.patient.running _ _ rfl waits
        cases Link.refusal?_wait why
    · cases new

theorem Passes.sound {m : Moment α} (passes : s.Passes as m) : m.session.link.Sound := by
  have hcloses : ClosesTogether m := by
    refine passes.invariant (P := fun _ => ClosesTogether) (s.closesTogether []) ?_
      fun _ => kept_closesTogether
    intro as a closes
    obtain ⟨sound, ended, gone⟩ := closes
    exact closesTogether_arrived (arrived_begun _ _ _) ⟨sound.withPipe _, ended, gone⟩
  exact hcloses.sound

/-- **All the traffic of a run has an origin.** -/
theorem Carries.traced {m : Moment α} {tr : Traffic} (carries : s.Carries as m tr) :
    s.Traced as m tr := by
  induction carries with
  | start =>
    refine ⟨.between fun w hw => (by cases hw), ?_, ?_⟩
    · intro h outcome held
      cases held
    · intro t c outcome h
      cases h
  | @input as tr carries a ih =>
    have arrived := arrived_begun (s.log as) (s.awaiting as a) a
    refine ⟨.arrived arrived (.between fun w hw waits => ?_) ?_,
      informed_arrived arrived (ih.handed.append [a]), fun t c outcome h =>
        (ih.outcomes t c outcome h).append [a]⟩
    · exact ih.patient.waiting w hw fun script h => waits script (List.mem_append_left _ h)
    · rintro t script rfl waits
      exact waits script (by simp)
  | @next as m m' tr carries step ih =>
    have sound := carries.passes.sound
    refine ⟨(kept_governed (governs_isPatient as)).next _ _ ih.patient step,
      informed_next carries.passes sound ih.handed step, ?_⟩
    intro t c outcome h
    rcases List.mem_append.mp h with hbefore | hnew
    · exact ih.outcomes t c outcome hbefore
    · exact origin_of_traffic ih sound hnew
  | drain carries ih => exact ⟨.between ih.patient.waiting, ih.handed, ih.outcomes⟩

end Setup

end Session

end Pushdown
