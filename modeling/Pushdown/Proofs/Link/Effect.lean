/-
  Pushdown/Proofs/Link/Effect.lean
  ================================
  **What a reply can change.**  A reply with a token that is not expected changes
  nothing, neither at once nor later.  A reply with the expected token changes the
  result of one call, the one that expects it: if the VM had said something else, all
  other calls would still end as they do, at the same time and in the same order.

  The second is a statement about two runs.  Their links are `Alike`: they differ at
  most in what the call that has the writer has been handed.
-/
import Mathlib.Data.List.Forall2
import Pushdown.Proofs.Link.Answers

namespace Pushdown

namespace Link

/-! ### Replies that nobody expects -/

theorem resolve_of_stray {l : Link} {reply : Reply}
    (stray : ∀ r, l.expected = some r → r.token ≠ reply.token) : l.resolve reply = l := by
  rw [resolve]
  cases hexp : l.expected with
  | none => rfl
  | some r => simp only [if_neg (stray r hexp)]

theorem begin_resolve_eq {l : Link} {reply : Reply}
    (stray : ∀ r, l.expected = some r → r.token ≠ reply.token) :
    l.begin (.resolve reply) = ([], l) := by
  rw [begin_eq _ (by simp), perform, resolve_of_stray stray]

theorem step_resolve_eq {l : Link} (sound : l.Sound) (rest : l.AtRest) {reply : Reply}
    (stray : ∀ r, l.expected = some r → r.token ≠ reply.token) :
    l.step (.resolve reply) = (⟨[], []⟩, l) :=
  step_of_begin_eq sound rest (begin_resolve_eq stray)

/-! ### Links that differ in one result -/

/-- The call has the writer and has been handed a result. -/
def handing (l : Link) (h : Holder) (result : Except Error Payload) : Link :=
  { l with holder := some { h with handed := some result } }

/-- The links are the same, except that the call may have been handed different results. -/
inductive Alike (t : Ticket) : Link → Link → Prop
  | same (l : Link) : Alike t l l
  | handed (l : Link) (h : Holder) (own : h.ticket = t) (x y : Except Error Payload) :
      Alike t (l.handing h x) (l.handing h y)

end Link

/-- The calls are the same, and so are their results unless it is this call. -/
inductive Finished.AgreeBut (t : Ticket) : Finished → Finished → Prop
  | same (f : Finished) : AgreeBut t f f
  | result (x y : Except Error Payload) : AgreeBut t (.command t x) (.command t y)

/-- The VM has read the same, and the same calls are over with the same results, but for
    the result of this call. -/
structure Link.Report.AgreeBut (t : Ticket) (r r' : Link.Report) : Prop where
  sent : r.sent = r'.sent
  finished : List.Forall₂ (Finished.AgreeBut t) r.finished r'.finished

namespace Link

/-! ### Writing does not depend on the calls -/

section

variable (f : List Queued → List Queued) (g : Option Holder → Option Holder)
  (y : Option (Except Error Payload) → Option (Except Error Payload)) (l : Link) (h : Holder)

/-- The link with other calls in it. -/
def withCalls (l : Link) : Link := { l with holder := g l.holder, queue := f l.queue }

/-- The call with another result in hand. -/
def withHanded (h : Holder) : Holder := { h with handed := y h.handed }

/-- What comes of writing, with other calls in the link and another result in hand. -/
def besides : Link × Progress → Link × Progress
  | (l, p) => (l.withCalls f g, p.map (withHanded y))

theorem flush?_besides (n : Nat) :
    (l.withCalls f g).flush? n = (l.flush? n).map (withCalls f g) := by
  unfold flush? withCalls
  split
  · rfl
  · split <;> rfl

theorem isOverdue_besides : (l.withCalls f g).isOverdue (withHanded y h) = l.isOverdue h := rfl

theorem wakesStalled_besides :
    (l.withCalls f g).wakesStalled (withHanded y h) = l.wakesStalled h := rfl

theorem writeLine_besides :
    (l.withCalls f g).writeLine (withHanded y h) = besides f g y (l.writeLine h) := by
  have hflush := flush?_besides f g l (l.pipe.room (!l.isOverdue h) l.buffer.length)
  change (l.withCalls f g).flush? ((l.withCalls f g).pipe.room
    (!(l.withCalls f g).isOverdue (withHanded y h)) (l.withCalls f g).buffer.length) = _ at hflush
  rw [writeLine, writeLine, hflush]
  cases l.flush? (l.pipe.room (!l.isOverdue h) l.buffer.length) <;> rfl

theorem putLine_besides :
    (l.withCalls f g).putLine (withHanded y h) = besides f g y (l.putLine h) := by
  have hrequest : (withHanded y h).request = h.request := rfl
  rw [putLine, putLine, hrequest]
  cases h.request.encode with
  | error e => rfl
  | ok line =>
    exact writeLine_besides f g y { l with buffer := l.buffer ++ Text.Utf8.encode line.toList } h

theorem startLine_besides :
    (l.withCalls f g).startLine (withHanded y h) = besides f g y (l.startLine h) := by
  have hflush := flush?_besides f g l
    (l.pipe.roomDownTo (!l.isOverdue h) bufferLimit l.buffer.length)
  have hlength : (l.withCalls f g).buffer.length = l.buffer.length := rfl
  have hpipe : (l.withCalls f g).pipe = l.pipe := rfl
  simp only [startLine, hlength, hpipe, isOverdue_besides, hflush]
  split
  · exact putLine_besides f g y l h
  · cases l.flush? (l.pipe.roomDownTo (!l.isOverdue h) bufferLimit l.buffer.length) with
    | none => rfl
    | some l' =>
      have hempty : (l'.withCalls f g).buffer = l'.buffer := rfl
      simp only [Option.map_some, hempty]
      split
      · exact putLine_besides f g y l' h
      · rfl

theorem write_besides :
    (l.withCalls f g).write (withHanded y h) = besides f g y (l.write h) := by
  have hphase : (withHanded y h).phase = h.phase := rfl
  rw [write, write, hphase]
  cases h.phase with
  | starting => exact startLine_besides f g y l h
  | stalled =>
    by_cases hwakes : l.wakesStalled h = true
    · simp only [wakesStalled_besides, hwakes, if_true]
      exact startLine_besides f g y l h
    · simp only [wakesStalled_besides, hwakes]
      rfl
  | writing => exact writeLine_besides f g y l h
  | waiting => rfl

end

/-! ### Going on with different results in hand -/

/-- What comes of a call that has been handed a result: it is over when its line is
    written, unless its time is over before. -/
theorem poll_handing (l : Link) (h : Holder) (x : Except Error Payload) :
    (l.handing h x).poll { h with handed := some x } =
      match l.write h with
      | (m, .ok h') => (m.handing h x,
          if h'.phase = .waiting then .error x
          else if m.isOverdue h' then .error (.error (.timeout h'.request.command.text))
          else .ok { h' with handed := some x })
      | (m, .error result) => (m.handing h x, .error result) := by
  have hwrite : (l.handing h x).write { h with handed := some x } =
      besides id (fun _ => some { h with handed := some x }) (fun _ => some x) (l.write h) :=
    write_besides id (fun _ => some { h with handed := some x }) (fun _ => some x) l h
  rw [poll, hwrite]
  rcases l.write h with ⟨m, result | h'⟩
  · rfl
  · obtain ⟨t, r, phase, since, handed⟩ := h'
    cases phase <;> rfl

/-- The calls that the two turns end are the same but for one result. -/
inductive TurnAgreeBut (t : Ticket) : Option Finished → Option Finished → Prop
  | none : TurnAgreeBut t none none
  | some {f f' : Finished} (agree : Finished.AgreeBut t f f') :
      TurnAgreeBut t (some f) (some f')

theorem drive_alike {l : Link} {h : Holder} {t : Ticket} (own : h.ticket = t)
    {x y : Except Error Payload} (sound : (l.handing h x).Sound)
    (sound' : (l.handing h y).Sound) (isOpen : l.closed = false) :
    TurnAgreeBut t ((l.handing h x).drive { h with handed := some x }).1
        ((l.handing h y).drive { h with handed := some y }).1 ∧
      Alike t ((l.handing h x).drive { h with handed := some x }).2
        ((l.handing h y).drive { h with handed := some y }).2 := by
  have hstays : ∀ (z : Except Error Payload) (m : Link) (h' : Holder),
      (l.handing h z).Sound → l.write h = (m, .ok h') →
      giveUp { m.handing h z with holder := some { h' with handed := some z } } =
        (none, m.handing h' z) := by
    intro z m h' hsound hwrite
    have hwrote := wrote_write (l.handing h z) { h with handed := some z }
    have hbesides : (l.handing h z).write { h with handed := some z } =
        besides id (fun _ => some { h with handed := some z }) (fun _ => some z) (l.write h) :=
      write_besides id (fun _ => some { h with handed := some z }) (fun _ => some z) l h
    rw [hbesides, hwrite] at hwrote
    have hnow := hsound.goesOn rfl hwrote
    exact hnow.giveUp_eq (hwrote.closed_eq.trans isOpen)
  simp only [drive, poll_handing]
  rcases hwrite : l.write h with ⟨m, result | h'⟩
  · exact ⟨.some (.same _), .same _⟩
  · have hx := hstays x m h' sound hwrite
    have hy := hstays y m h' sound' hwrite
    have hticket : h'.ticket = t := by
      have hwrote := wrote_write l h
      rw [hwrite] at hwrote
      rw [hwrote.holder_eq]
      exact own
    by_cases hwaiting : h'.phase = .waiting
    · simp only [hwaiting, if_true]
      rw [own]
      exact ⟨.some (.result x y), .same _⟩
    · by_cases hlate : m.isOverdue h' = true
      · simp only [hwaiting, hlate, if_false, if_true]
        exact ⟨.some (.same _), .same _⟩
      · simp only [hwaiting, hlate, Bool.false_eq_true, if_false, hx, hy]
        exact ⟨.none, .handed m h' hticket x y⟩

theorem turn_alike {t : Ticket} {l l' : Link} (alike : Alike t l l') (sound : l.Sound)
    (sound' : l'.Sound) :
    TurnAgreeBut t l.turn.1 l'.turn.1 ∧ Alike t l.turn.2 l'.turn.2 := by
  cases alike with
  | same =>
    refine ⟨?_, .same _⟩
    cases l.turn.1 with
    | none => exact .none
    | some f => exact .some (.same f)
  | handed m h own x y =>
    have hturn : ∀ z, (m.handing h z).turn =
        if m.closed then (some (refused h.ticket), (m.handing h z).release h.request.token)
        else (m.handing h z).drive { h with handed := some z } := fun _ => rfl
    rw [hturn x, hturn y]
    cases hclosed : m.closed with
    | true => exact ⟨.some (.same _), .same _⟩
    | false => exact drive_alike own sound sound' hclosed

theorem turns_alike {t : Ticket} (n : Nat) : ∀ {l l' : Link}, Alike t l l' → l.Sound →
    l'.Sound → List.Forall₂ (Finished.AgreeBut t) (turns n l).1 (turns n l').1 ∧
      Alike t (turns n l).2 (turns n l').2 := by
  induction n with
  | zero => exact fun alike _ _ => ⟨.nil, alike⟩
  | succ n ih =>
    intro l l' alike sound sound'
    obtain ⟨hagree, hnext⟩ := turn_alike alike sound sound'
    have hsound := sound.turn
    have hsound' := sound'.turn
    rcases hl : l.turn with ⟨f, m⟩
    rcases hl' : l'.turn with ⟨f', m'⟩
    rw [hl, hl'] at hagree hnext
    rw [hl] at hsound
    rw [hl'] at hsound'
    simp only [turns, hl, hl']
    cases hagree with
    | none => exact ⟨.nil, hnext⟩
    | some agree =>
      obtain ⟨hrest, hlast⟩ := ih hnext hsound hsound'
      exact ⟨.cons agree hrest, hlast⟩

/-! ### Runs with different results in hand -/

theorem perform_alike {t : Ticket} {l l' : Link} (alike : Alike t l l') (sound : l.Sound)
    (a : Action) :
    (l.perform a).1 = (l'.perform a).1 ∧ Alike t (l.perform a).2 (l'.perform a).2 := by
  cases alike with
  | same => exact ⟨rfl, .same _⟩
  | handed m h own x y =>
    cases a with
    | send t' turn c =>
      have hrefusal : (m.handing h x).refusal? turn = (m.handing h y).refusal? turn := by
        cases turn <;> rfl
      simp only [perform, hrefusal]
      cases (m.handing h y).refusal? turn with
      | some e => exact ⟨rfl, .handed m h own x y⟩
      | none => exact ⟨rfl, .handed (m.enqueue _) h own x y⟩
    | cancel t' =>
      have hcancel : ∀ z, (m.handing h z).cancel t' =
          if h.ticket = t' then (m.handing h z).release h.request.token
          else handing { m with queue := m.queue.filter (fun q => q.ticket != t') } h z :=
        fun _ => rfl
      refine ⟨rfl, ?_⟩
      simp only [perform, hcancel]
      by_cases hthis : h.ticket = t'
      · rw [if_pos hthis, if_pos hthis]
        exact .same _
      · rw [if_neg hthis, if_neg hthis]
        exact .handed _ h own x y
    | resolve reply =>
      -- a call that has its result expects no reply
      have hnone : m.expected = none := by
        cases hexp : m.expected with
        | none => rfl
        | some r =>
          obtain ⟨-, hhanded⟩ := sound.expected_eq rfl hexp
          cases hhanded
      have hresolve : ∀ z, (m.handing h z).resolve reply = m.handing h z := by
        intro z
        simp [resolve, handing, hnone]
      refine ⟨rfl, ?_⟩
      simp only [perform, hresolve]
      exact .handed m h own x y
    | advance ms => exact ⟨rfl, .handed (m.advance ms) h own x y⟩
    | close => exact ⟨rfl, .handed m.close h own x y⟩
    | shutdown t' => exact ⟨rfl, .handed (m.close.enqueue _) h own x y⟩
    | read => exact ⟨rfl, .handed m h own x y⟩
    | dropReader => exact ⟨rfl, .handed m.dropReader h own x y⟩

theorem begin_alike {t : Ticket} {l l' : Link} (alike : Alike t l l') (sound : l.Sound)
    (a : Action) :
    (l.begin a).1 = (l'.begin a).1 ∧ Alike t (l.begin a).2 (l'.begin a).2 := by
  refine perform_alike ?_ (sound.withPipe _) a
  cases alike with
  | same => exact .same _
  | handed m h own x y => exact .handed (m.setReading _) h own x y

theorem step_of_begin_alike {t : Ticket} {l l' : Link} {a a' : Action}
    (reading : l.pipe.reading = l'.pipe.reading) (refused : (l.begin a).1 = (l'.begin a').1)
    (begun : Alike t (l.begin a).2 (l'.begin a').2) (sound : (l.begin a).2.Sound)
    (sound' : (l'.begin a').2.Sound) :
    Report.AgreeBut t (l.step a).1 (l'.step a').1 ∧ Alike t (l.step a).2 (l'.step a').2 := by
  have hcount : (l.begin a).2.callCount = (l'.begin a').2.callCount := by
    generalize (l.begin a).2 = m at begun
    generalize (l'.begin a').2 = m' at begun
    cases begun <;> rfl
  obtain ⟨hfinished, hsettled⟩ :=
    turns_alike ((l.begin a).2.callCount + 1) begun sound sound'
  have hdrained : (l.begin a).2.settle.2.drain.1 = (l'.begin a').2.settle.2.drain.1 ∧
      Alike t (l.step a).2 (l'.step a').2 := by
    simp only [step, settle, ← hcount, ← reading]
    generalize (turns ((l.begin a).2.callCount + 1) (l.begin a).2).2 = m at *
    generalize (turns ((l.begin a).2.callCount + 1) (l'.begin a').2).2 = m' at *
    cases hsettled with
    | same => exact ⟨rfl, .same _⟩
    | handed m h own x y => exact ⟨rfl, .handed (m.drain.2.setReading _) h own x y⟩
  refine ⟨⟨hdrained.1, ?_⟩, hdrained.2⟩
  simp only [step, settle, ← hcount, refused]
  exact List.rel_append (List.forall₂_same.mpr fun f _ => .same f) hfinished

theorem step_alike {t : Ticket} {l l' : Link} (alike : Alike t l l') (sound : l.Sound)
    (sound' : l'.Sound) (a : Action) :
    Report.AgreeBut t (l.step a).1 (l'.step a).1 ∧ Alike t (l.step a).2 (l'.step a).2 := by
  obtain ⟨hrefused, hbegun⟩ := begin_alike alike sound a
  have hreading : l.pipe.reading = l'.pipe.reading := by
    cases alike <;> rfl
  exact step_of_begin_alike hreading hrefused hbegun (sound.begin a) (sound'.begin a)

/-- The reply to a call may say one thing or another: the links differ only in what the
    call has been handed. -/
theorem resolve_alike {l : Link} {t : Ticket} {r : Request} (awaits : l.Awaits t r)
    {reply : Reply} (same : r.token = reply.token) (outcome : Outcome) :
    Alike t (l.resolve reply) (l.resolve { reply with outcome }) := by
  obtain ⟨hexp, h, held, own, rfl⟩ := awaits
  have hresolve : ∀ outcome, l.resolve { reply with outcome } =
      handing { l with expected := none } h (outcomeOf h.request outcome) := by
    intro outcome
    simp [resolve, hexp, same, held, handOver, handing]
  rw [hresolve outcome]
  exact (hresolve reply.outcome).symm ▸ .handed _ h own _ _

theorem run_alike {t : Ticket} (as : List Action) : ∀ {l l' : Link}, Alike t l l' →
    l.Sound → l'.Sound → List.Forall₂ (Report.AgreeBut t) (l.run as).1 (l'.run as).1 := by
  induction as with
  | nil => exact fun _ _ _ => .nil
  | cons a as ih =>
    intro l l' alike sound sound'
    obtain ⟨hreport, hnext⟩ := step_alike alike sound sound' a
    exact .cons hreport (ih hnext (sound.step a) (sound'.step a))

end Link

end Pushdown
