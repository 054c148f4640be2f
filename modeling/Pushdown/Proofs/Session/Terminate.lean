/-
  Pushdown/Proofs/Session/Terminate.lean
  ======================================
  **Asking the VM to exit tears the session down.**  `Target.terminate` sends one command,
  and whatever becomes of it, closes the session before it returns.  What can become of
  the command is listed in `Setup.ExitFate`, with what `terminate` makes of it.

  `Setup.terminates` says that it returns as soon as its command is over
  (`Setup.Carries.ending`), and what there is then: a session that is torn down, with no
  call left, in which nothing that is done later makes a difference (`IsOver`).
-/
import Pushdown.Proofs.Model.Operations
import Pushdown.Proofs.Session.Torn

namespace Pushdown

open Text

theorem Target.closes_terminate {α : Type} (f : Unit → α) :
    Script.Closes (f <$> Target.terminate) :=
  fun _ => trivial

namespace Session

variable {α : Type} {s : Setup} {as : List (Action α)} {m : Moment α} {tr : Traffic} {t : Ticket}

/-! ### Once its command is over, the call returns -/

theorem isEnding_next {m' : Moment α} {S : Script α} {began : List Ticket}
    (once : ∀ es r, S.Comes es r → es.length ≤ 1) (staffed : Staffed began m)
    (course' : OnCourse S t m' (tr ++ m.traffic)) (step : Next m m')
    (before : tr.exchanges t ≠ [] → IsEnding m t)
    (asked : Traffic.exchanges (tr ++ m.traffic) t ≠ []) : IsEnding m' t := by
  -- with one exchange behind it the script has none before it
  have hlast : ∀ script, S.Leaves (Traffic.exchanges (tr ++ m.traffic) t) script →
      script.NeverSends := by
    intro script left
    refine Script.neverSends_of_comes fun es r comes => ?_
    have hlength := once _ r (left es r comes)
    have hpositive := List.length_pos_iff.mpr asked
    rw [List.length_append] at hlength
    exact List.length_eq_zero_iff.mp (by omega)
  have hruns : ∀ script, m'.running = some (t, script) → IsEnding m' t :=
    fun script hrun => .inl ⟨script, hrun, hlast script (course'.running script hrun).1⟩
  by_cases earlier : tr.exchanges t = []
  · rw [Traffic.exchanges_append, earlier, List.nil_append] at asked
    cases step with
    | line | looks | closes | ends => exact (asked rfl).elim
    | asks welcome =>
      rw [Moment.traffic] at asked
      simp [welcome, Traffic.exchanges] at asked
    | @turnedAway log x u turn c next e why =>
      have hu : u = t := by
        rw [Moment.traffic] at asked
        simpa [why, Traffic.exchanges, Traffic.exchange?, Option.map] using asked
      exact hruns _ (by rw [hu])
    | @turns log x =>
      rcases Link.traffic_turn staffed.sound staffed.tickets_nodup t with
        ⟨c, outcome, -, hasks, -⟩ | ⟨-, silent, -⟩
      · obtain ⟨w, -, hw, own⟩ := staffed.exists_waiting (Link.mem_tickets_of_asks hasks)
        subst own
        rcases turns_waiting staffed hw with still | ⟨-, outcome, -, hrun⟩
        · obtain ⟨turn, d, -, left, -⟩ := course'.waiting w still rfl
          exact (hlast _ left).elim
        · exact hruns _ hrun
      · exact (asked silent).elim
  · exact (before earlier).next step

/-- A call that sends one command is about to end as soon as the command is over. -/
theorem Setup.Carries.isEnding {S : Script α} (own : OwnTickets as) (giveUp : AllGiveUp as)
    (carries : s.Carries as m tr) (isScript : IsScriptOf as t S)
    (once : ∀ es r, S.Comes es r → es.length ≤ 1) (asked : tr.exchanges t ≠ []) :
    IsEnding m t := by
  induction carries with
  | start => exact (asked rfl).elim
  | @input as tr carries a ih =>
    have hbefore := ih own.of_append giveUp.of_append.1
      (fun script h => isScript script (List.mem_append_left _ h)) asked
    rcases hbefore with ⟨script, hrun, -⟩ | ⟨r, ended⟩
    · cases hrun
    · exact .inr ⟨r, (ended_of_arrived (arrived_begun _ _ a)).mpr ended⟩
  | @next as m m' tr carries step ih =>
    exact isEnding_next once (carries.tracked own giveUp).staffed
      (((carries.next step).tracked own giveUp).course t S isScript) step
      (ih own giveUp isScript) asked
  | drain carries ih => exact ih own giveUp isScript asked

/-! ### What becomes of the command -/

/-- What can become of `exit`, and what `terminate` makes of it. -/
inductive Setup.ExitFate (s : Setup) (as : List (Action α)) (t : Ticket) :
    Except Error Payload → Except Error Unit → Prop
  /-- The VM acknowledges it, with nothing or blanks. -/
  | acknowledged {token : Nat} {text : String}
      (reply : s.HasReplied as t ⟨token, .exit⟩ (.ok text))
      (blank : text.toList.all isBlank = true) : s.ExitFate as t (.ok .ack) (.ok ())
  /-- The VM sends more than it should. -/
  | unwanted {token : Nat} {text : String}
      (reply : s.HasReplied as t ⟨token, .exit⟩ (.ok text))
      (more : text.toList.all isBlank = false) :
      s.ExitFate as t (.error (.malformedReply (.unwantedPayload text)))
        (.error (.malformedReply (.unwantedPayload text)))
  | failed {token : Nat} {code : Int64} {message : String}
      (reply : s.HasReplied as t ⟨token, .exit⟩ (.error code message)) :
      s.ExitFate as t (.error (.commandFailed "exit" code message))
        (.error (.commandFailed "exit" code message))
  | unreadable {token : Nat} {body : String}
      (reply : s.HasReplied as t ⟨token, .exit⟩ (.unreadable body)) :
      s.ExitFate as t (.error (.malformedReply (.noOutcome "exit" body)))
        (.error (.malformedReply (.noOutcome "exit" body)))
  | timedOut : s.ExitFate as t (.error (.timeout "exit")) (.error (.timeout "exit"))
  /-- The connection is closed, be it before, by a failed write, or while it waits. -/
  | closed : s.ExitFate as t (.error .connectionClosed) (.ok ())

namespace Setup

theorem exitFate_of_origin {outcome : Except Error Payload} (origin : s.Origin as t .exit outcome)
    (waits : WaitsAlways as t) : s.ExitFate as t outcome (match outcome >>= Payload.toAck with
      | .error .connectionClosed => .ok ()
      | result => result) := by
  cases origin with
  | @replied token said reply =>
    cases said with
    | ok text =>
      cases hblank : text.toList.all isBlank with
      | true =>
        have hread : Link.outcomeOf ⟨token, .exit⟩ (.ok text) = .ok .ack := by
          simp [Link.outcomeOf, readReply, Command.opcode, ReplyForm.ofOpcode?, ReplyForm.read,
            hblank, Except.mapError]
        rw [hread]
        exact .acknowledged reply hblank
      | false =>
        have hread : Link.outcomeOf ⟨token, .exit⟩ (.ok text) =
            .error (.malformedReply (.unwantedPayload text)) := by
          simp [Link.outcomeOf, readReply, Command.opcode, ReplyForm.ofOpcode?, ReplyForm.read,
            hblank, Except.mapError]
        rw [hread]
        exact .unwanted reply hblank
    | error code message => exact .failed reply
    | unreadable body => exact .unreadable reply
  | timedOut => exact .timedOut
  | severalLines there => cases there
  | closed => exact .closed
  | busy impatient => exact (impatient waits).elim

/-- It succeeds if `exit` is acknowledged or the connection is closed. -/
theorem ExitFate.ok_iff {outcome : Except Error Payload} {r : Except Error Unit}
    (fate : s.ExitFate as t outcome r) :
    r = .ok () ↔ outcome = .ok .ack ∨ outcome = .error .connectionClosed := by
  cases fate <;> simp

/-- Otherwise it fails as `exit` did. -/
theorem ExitFate.error_iff {outcome : Except Error Payload} {r : Except Error Unit}
    (fate : s.ExitFate as t outcome r) (e : Error) :
    r = .error e ↔ outcome = .error e ∧ e ≠ .connectionClosed := by
  cases fate <;> simp <;> rintro rfl <;> simp

end Setup

/-! ### Once more -/

theorem close_of_torn {x : Session α} (torn : x.IsTorn) (sound : x.link.Sound) :
    x.close = ([.tearDown []], x) := by
  have hexpected := sound.closed_expected torn.closed
  obtain ⟨⟨pipe, buffer, timeLimit, clock, closed, nextToken, expected, holder, queue⟩,
    ⟨session, threads, lastEpoch⟩, listeners, input, isReading, calls⟩ := x
  obtain ⟨capacity, content, reading, readerGone, shut, hasEnded⟩ := pipe
  obtain rfl : closed = true := torn.closed
  obtain rfl : shut = true := torn.shut
  obtain rfl : isReading = false := torn.stopped
  obtain rfl : session = .terminated := torn.terminated
  obtain rfl : threads = [] := torn.noThreads
  obtain rfl : expected = none := hexpected
  have htold : listeners.terminated = true := torn.told
  have hdispatch := Listeners.dispatch_of_terminated (e := .terminated) (fun _ _ => []) htold
  simp only [close, tearDown, deliver, hdispatch]
  rfl

/-- A script that closes the session at once changes nothing of what is torn down. -/
theorem step_of_torn {x : Session α} (torn : x.IsTorn) (sound : x.link.Sound)
    (rest : x.link.AtRest) {u : Ticket} {script : Script α} {result : Except Error α}
    (runs : runScript u script x = runScript u (.close (.done result)) x) :
    x.step (.start u script) = (⟨[], [.tearDown [], .ended ⟨u, result⟩]⟩, x) := by
  refine step_of_perform rfl ?_ sound rest rfl
  rw [perform, runs]
  simp [runScript, close_of_torn torn sound]

/-! ### The end -/

/-- A session that is torn down, with no call left. -/
structure IsOver (x : Session α) : Prop extends IsTorn x where
  noCalls : x.calls = []
  noCommands : x.link.tickets = []

/-- What there is when `terminate` has returned this. -/
structure Setup.Terminates (s : Setup) (as : List (Action α)) (tr : Traffic) (t : Ticket)
    (f : Unit → α) (r : Except Error α) : Prop where
  /-- Whenever it is looked at, the session is over. -/
  isOver : (s.after as).IsOver
  /-- One input delivered `terminated`: everybody who was registered then has heard it
      once, everybody else never, … -/
  once : ∃ before a later, as = before ++ a :: later ∧
    s.isTold before = false ∧ s.isTold (before ++ [a]) = true ∧
    ∀ id, (s.deliveries as).count ⟨id, .terminated⟩ =
      if (s.after (before ++ [a])).listeners.isRegistered id then 1 else 0
  /-- … and nobody will hear anything more. -/
  silent : ∀ bs, s.deliveries (as ++ bs) = s.deliveries as
  /-- It has sent `exit`, and no other command, and what became of this says what it
      returns: … -/
  result : ∃ outcome r', tr.exchanges t = [(.exit, outcome)] ∧ s.ExitFate as t outcome r' ∧
    r = r'.map f
  /-- … a success if `exit` was acknowledged or the connection is closed, … -/
  succeeds : r = .ok (f ()) ↔ tr.exchanges t = [(.exit, .ok .ack)] ∨
    tr.exchanges t = [(.exit, .error .connectionClosed)]
  /-- … otherwise the very error of `exit`. -/
  fails : ∀ e, r = .error e ↔ tr.exchanges t = [(.exit, .error e)] ∧ e ≠ .connectionClosed
  /-- When it returns the session is torn down.  All that comes back to other calls from
      then on is that the connection is closed, and those that were waiting are over in the
      same step; if they pass their failures on, this is their result. -/
  others : ∃ step log x first rest, step <+: as ∧
    s.Carries step ⟨log, x, [], some (t, .done r)⟩ first ∧ x.IsTorn ∧ tr = first ++ rest ∧
    (∀ p ∈ rest, ∃ u c, p = .outcome u c (.error .connectionClosed)) ∧
    ∀ w ∈ x.calls, (∃ c, .outcome w.ticket c (.error .connectionClosed) ∈ rest) ∧
      ∃ r', .ended ⟨w.ticket, r'⟩ ∈ s.log step ∧
        ∀ S, IsScriptOf as w.ticket S → S.StopsAtFailure → r' = .error .connectionClosed
  /-- To terminate once more changes nothing, delivers nothing and succeeds, … -/
  again : ∀ u (g : Unit → α), (s.after as).step (.start u (g <$> Target.terminate)) =
    (⟨[], [.tearDown [], .ended ⟨u, .ok (g ())⟩]⟩, s.after as)
  /-- … and to close the session changes and delivers nothing either. -/
  closed : ∀ u result, (s.after as).step (.start u (.close (.done result))) =
    (⟨[], [.tearDown [], .ended ⟨u, result⟩]⟩, s.after as)

namespace Setup

theorem count_told {ids : List ListenerId} {ds : List Delivery} (nodup : ids.Nodup)
    (told : Told ids ds) (id : ListenerId) :
    ds.count ⟨id, .terminated⟩ = if id ∈ ids then 1 else 0 := by
  split
  · next registered => exact told_count nodup told registered
  · next absent =>
    obtain ⟨earlier, untold, rfl⟩ := told
    refine List.count_eq_zero.mpr fun hd => ?_
    rcases List.mem_append.mp hd with hbefore | hlast
    · exact untold _ hbefore rfl
    · obtain ⟨id', hmem, heq⟩ := List.mem_map.mp hlast
      obtain ⟨rfl, -⟩ := Delivery.mk.inj heq
      exact absent hmem

theorem told_once (told : s.isTold as = true) : ∃ before a later, as = before ++ a :: later ∧
    s.isTold before = false ∧ s.isTold (before ++ [a]) = true ∧
    ∀ id, (s.deliveries as).count ⟨id, .terminated⟩ =
      if (s.after (before ++ [a])).listeners.isRegistered id then 1 else 0 := by
  obtain ⟨before, a, later, rfl, going, told⟩ := exists_telling told
  refine ⟨before, a, later, rfl, going, told, fun id => ?_⟩
  rw [count_told (Listeners.nodup_ids _) (told_ids going told)]
  simp only [Listeners.mem_ids_iff]

variable {r : Except Error α} {f : Unit → α}

/-- What the call returns is decided by what became of its command. -/
theorem terminate_result (carries : s.Carries as (between (s.log as) (s.after as)) tr)
    (course : OnCourse (f <$> Target.terminate) t (between (s.log as) (s.after as)) tr)
    (waits : WaitsAlways as t) (ended : .ended ⟨t, r⟩ ∈ s.log as) :
    ∃ outcome r', tr.exchanges t = [(.exit, outcome)] ∧ s.ExitFate as t outcome r' ∧
      r = r'.map f := by
  obtain ⟨-, comes, -⟩ := course.ended r ended
  obtain ⟨r', hcomes, rfl⟩ := (Script.comes_map _ _).mp comes
  obtain ⟨outcome, hexchanges, rfl⟩ := Target.comes_terminate.mp hcomes
  refine ⟨outcome, _, hexchanges, exitFate_of_origin ?_ waits, rfl⟩
  refine carries.traced.outcomes t .exit outcome ?_
  have hmem : (.exit, outcome) ∈ tr.exchanges t := by
    rw [hexchanges]
    exact List.mem_singleton_self _
  exact Traffic.mem_exchanges.mp hmem

theorem terminate_others (own : OwnTickets as) (giveUp : AllGiveUp as)
    (carries : s.Carries as (between (s.log as) (s.after as)) tr)
    (closes : ∀ script, .start t script ∈ as → script.Closes)
    (ended : .ended ⟨t, r⟩ ∈ s.log as) :
    (s.after as).IsTorn ∧ ∃ step log x first rest, step <+: as ∧
      s.Carries step ⟨log, x, [], some (t, .done r)⟩ first ∧ x.IsTorn ∧ tr = first ++ rest ∧
      (∀ p ∈ rest, ∃ u c, p = .outcome u c (.error .connectionClosed)) ∧
      ∀ w ∈ x.calls, (∃ c, .outcome w.ticket c (.error .connectionClosed) ∈ rest) ∧
        ∃ r', .ended ⟨w.ticket, r'⟩ ∈ s.log step ∧
          ∀ S, IsScriptOf as w.ticket S → S.StopsAtFailure → r' = .error .connectionClosed := by
  obtain ⟨step, log, x, first, rest, earlier, hcarries, htorn, rfl, after⟩ :=
    carries.aftermath own giveUp closes ended
  refine ⟨after.torn, step, log, x, first, rest, earlier, hcarries, htorn, rfl, after.failed, ?_⟩
  intro w hw
  have hcalls := (s.no_calls own giveUp after.torn.closed).1
  rcases after.calls w hw with ⟨-, waits⟩ | ⟨⟨c, came⟩, ending, isOver⟩
  · rw [show (between (s.log as) (s.after as)).session.calls = [] from hcalls] at waits
    cases waits
  · obtain ⟨r', hended⟩ : ∃ r', .ended ⟨w.ticket, r'⟩ ∈ s.log step := by
      by_cases now : as = step
      · rcases ending with ⟨script, hrun, -⟩ | ⟨r', hended⟩
        · cases hrun
        · exact ⟨r', now ▸ hended⟩
      · exact isOver now
    refine ⟨⟨c, came⟩, r', hended, fun S isScript stops => ?_⟩
    have hlater : .ended ⟨w.ticket, r'⟩ ∈ s.log as := by
      obtain ⟨later, rfl⟩ := earlier
      rw [log_append]
      exact List.mem_append_left _ hended
    have course := (carries.tracked own giveUp).course w.ticket S isScript
    obtain ⟨-, comes, -⟩ := course.ended r' hlater
    have hmem : (c, .error .connectionClosed) ∈
        Traffic.exchanges (first ++ rest) w.ticket :=
      Traffic.mem_exchanges.mpr (List.mem_append_right _ came)
    obtain ⟨es, es', hsplit⟩ := List.append_of_mem hmem
    exact (stops _ _ comes es c _ es' hsplit).2

/-- **Asking the VM to exit tears the session down**, whatever becomes of the command. -/
theorem terminates (s : Setup) (own : OwnTickets as) (giveUp : AllGiveUp as)
    (called : .start t (f <$> Target.terminate) ∈ as) :
    ∃ tr, s.Carries as (between (s.log as) (s.after as)) tr ∧
      (tr.exchanges t ≠ [] → ∃ r, .ended ⟨t, r⟩ ∈ s.log as) ∧
      ∀ r, .ended ⟨t, r⟩ ∈ s.log as → s.Terminates as tr t f r := by
  obtain ⟨tr, carries, -⟩ := s.exists_carries as
  have isScript : IsScriptOf as t (f <$> Target.terminate) := own.isScriptOf called
  have course := (carries.tracked own giveUp).course t _ isScript
  refine ⟨tr, carries, fun asked => ?_, fun r ended => ?_⟩
  · have once : ∀ es r, (f <$> Target.terminate).Comes es r → es.length ≤ 1 := by
      intro es r comes
      obtain ⟨r', hcomes, -⟩ := (Script.comes_map _ _).mp comes
      obtain ⟨outcome, rfl, -⟩ := Target.comes_terminate.mp hcomes
      exact Nat.le_refl 1
    rcases carries.isEnding own giveUp isScript once asked with ⟨script, hrun, -⟩ | ended
    · cases hrun
    · exact ended
  · have waits : WaitsAlways as t := fun script h => isScript script h ▸ Target.isPatient_terminate f
    obtain ⟨outcome, r', hexchanges, fate, rfl⟩ := terminate_result carries course waits ended
    obtain ⟨torn, others⟩ := terminate_others own giveUp carries
      (fun script h => isScript script h ▸ Target.closes_terminate f) ended
    obtain ⟨hcalls, htickets⟩ := s.no_calls own giveUp torn.closed
    have hsound := (s.staffed own giveUp).sound
    have hrest := s.atRest own giveUp
    exact {
      isOver := ⟨torn, hcalls, htickets⟩
      once := told_once torn.told
      silent := fun bs => (silenced torn.told bs).2
      result := ⟨outcome, r', hexchanges, fate, rfl⟩
      succeeds := by
        have hmap : r'.map f = .ok (f ()) ↔ r' = .ok () := by cases r' <;> simp [Except.map]
        rw [hexchanges, hmap, fate.ok_iff]
        simp
      fails := by
        intro e
        have hmap : r'.map f = .error e ↔ r' = .error e := by cases r' <;> simp [Except.map]
        rw [hexchanges, hmap, fate.error_iff]
        simp
      others := others
      again := by
        intro u g
        refine step_of_torn torn hsound hrest ?_
        have hrefusal : (s.after as).link.refusal? .wait = some .connectionClosed := by
          simp [Link.refusal?, torn.closed]
        change runScript u (.send .wait .exit _) _ = _
        simp only [runScript, hrefusal]
        rfl
      closed := fun u result => step_of_torn torn hsound hrest rfl }

/-- Call 2 asks the VM to exit while call 1 has the writer, and call 3 comes after it.  The
    VM answers both, and says that it terminates. -/
theorem terminates_acknowledged :
    let s : Setup := ⟨64, true, Settings.default⟩
    let vm := fun line : String => Action.vm (Utf8.encode line.toList)
    let state : Script String := Target.vmState
    let exit : Script String := (fun _ => "bye") <$> Target.terminate
    let as := [.listen "l", .start 1 state, .start 2 exit, .start 3 state,
      vm "#1 ok running\n", vm "terminated\n#2 ok \n"]
    OwnTickets as ∧ AllGiveUp as ∧ .start 2 exit ∈ as ∧
      (s.log as).ended = [⟨1, .ok "running"⟩, ⟨2, .ok "bye"⟩, ⟨3, .error .connectionClosed⟩] ∧
      ∃ tr, s.Terminates as tr 2 (fun _ => "bye") (.ok "bye") := by
  intro s vm state exit as
  have own : OwnTickets as := by decide
  have giveUp : AllGiveUp as := by
    have hstate : state.GivesUp := Operation.vmState.givesUp
    have hexit : exit.GivesUp := Operation.terminate.givesUp.map _
    intro t script hmem
    simp only [as, List.mem_cons, List.not_mem_nil, or_false, Action.start.injEq, vm,
      reduceCtorEq, false_or] at hmem
    rcases hmem with ⟨-, rfl⟩ | ⟨-, rfl⟩ | ⟨-, rfl⟩
    · exact hstate
    · exact hexit
    · exact hstate
  have called : .start 2 exit ∈ as := by simp [as]
  have hended : (s.log as).ended =
      [⟨1, .ok "running"⟩, ⟨2, .ok "bye"⟩, ⟨3, .error .connectionClosed⟩] := by
    decide +kernel
  obtain ⟨tr, -, -, done⟩ := terminates s own giveUp called
  refine ⟨own, giveUp, called, hended, tr, done (.ok "bye") ?_⟩
  have hmem : (⟨2, .ok "bye"⟩ : Ended String) ∈ (s.log as).ended := by
    rw [hended]
    simp
  obtain ⟨o, ho, heq⟩ := List.mem_filterMap.mp hmem
  cases o with
  | ended call => exact Option.some.inj heq ▸ ho
  | event | tearDown | request => cases heq

end Setup

end Session

end Pushdown
