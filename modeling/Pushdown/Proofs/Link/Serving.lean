/-
  Pushdown/Proofs/Link/Serving.lean
  =================================
  **First come, first served.**  The calls that have got the writer, in the order in
  which they got it, have drawn the tokens 1, 2, 3, …; and the calls that have begun
  come before those that wait in the order in which all of them began (`Serving`).

  The list of them is not kept by the link.  It is read off the moments of a run: a
  call has just got the writer when it is the holder and has not begun to write.
-/
import Mathlib.Data.List.Range
import Pushdown.Proofs.Link.Answers

namespace Pushdown

open Link

/-- A call that has got the writer, and the request that it sends. -/
structure Sending where
  ticket : Ticket
  request : Request

namespace Link

/-! ### Getting the writer -/

/-- The call that has just got the writer. -/
def starter? (m : Link) : Option Sending :=
  m.holder.bind fun h => if h.phase = .starting then some ⟨h.ticket, h.request⟩ else none

/-- The call that has the writer has begun to use it. -/
def IsUnderway (l : Link) : Prop := ∀ h, l.holder = some h → h.phase ≠ .starting

theorem starter?_eq_none {l : Link} (underway : l.IsUnderway) : l.starter? = none := by
  unfold starter?
  cases hholder : l.holder with
  | none => rfl
  | some h => simp [underway h hholder]

/-- Who has the writer when it has been given away had it before, or has just got it. -/
theorem grant_holder {l : Link} (sound : l.Sound) {h : Holder} (held : l.grant.holder = some h) :
    l.holder = some h ∨ l.holder = none ∧ l.closed = false ∧ h.since = l.clock ∧
      h.handed = none ∧ l.grant.starter? = some ⟨h.ticket, h.request⟩ := by
  generalize hg : l.grant = g at held ⊢
  cases hg ▸ granted_grant sound with
  | unchanged => exact Or.inl held
  | acquired free queue isOpen =>
    obtain rfl := Option.some.inj held
    exact Or.inr ⟨free, isOpen, rfl, rfl, rfl⟩

theorem Wrote.not_starting {l l' : Link} {h h' : Holder} (wrote : Wrote l h l' (.ok h')) :
    h'.phase ≠ .starting := by
  have hlater : ∀ rest : List UInt8, phaseAt rest ≠ .starting := by
    intro rest
    unfold phaseAt
    split <;> simp
  cases wrote with
  | unchanged resting =>
    rcases resting with hphase | hphase <;> simp [hphase]
  | stalled => simp
  | written => exact hlater _
  | entered => exact hlater _

theorem IsUnderway.of_free {l : Link} (free : l.holder = none) : l.IsUnderway := by
  intro h held
  rw [free] at held
  cases held

theorem underway_turn {l : Link} (sound : l.Sound) : l.turn.2.IsUnderway := by
  have turned := turned_turn sound
  generalize l.turn = r at turned ⊢
  cases turned with
  | idle free | dismissed free | shuts free => exact .of_free free
  | refused => exact .of_free rfl
  | goesOn _ _ polled =>
    rintro _ ⟨⟩
    exact polled.wrote_ok.not_starting
  | ended => exact .of_free rfl

/-! ### Inputs and those who wait -/

theorem IsUnderway.begin {l : Link} (underway : l.IsUnderway) (a : Action) :
    (l.begin a).2.IsUnderway := by
  intro h' held
  obtain ⟨h, hwas, -, -, hphase, -⟩ := begin_holder held
  rw [hphase]
  exact underway h hwas

end Link

/-! ### The order of service -/

/-- The calls that have got the writer in these moments. -/
def servedIn (moments : List Link) : List Sending := moments.filterMap starter?

/-- The calls that have got the writer, in this order. -/
def Setup.served (s : Setup) (as : List Action) : List Sending := servedIn (s.moments as)

@[simp] theorem servedIn_nil : servedIn [] = [] := rfl

@[simp] theorem servedIn_append (ms ns : List Link) :
    servedIn (ms ++ ns) = servedIn ms ++ servedIn ns := List.filterMap_append

@[simp] theorem servedIn_cons (m : Link) (ms : List Link) :
    servedIn (m :: ms) = m.starter?.toList ++ servedIn ms := by
  cases h : m.starter? <;> simp [servedIn, h]

/-- The calls have been served in the order in which they began. -/
structure Serving (as : List Action) (served : List Sending) (l : Link) : Prop where
  tokens : served.map (fun p => p.request.token) = List.range' 1 served.length
  nextToken : l.nextToken = served.length + 1
  order : (served.map Sending.ticket ++ l.queue.map Queued.ticket).Sublist (ticketsOf as)
  newest : ∀ h, l.holder = some h → served.getLast? = some ⟨h.ticket, h.request⟩
  /-- A call that is ready to wait is served, unless it is cancelled or the link closed. -/
  waits : ∀ t c, .send t .wait c ∈ as → t ∈ served.map Sending.ticket ∨ IsCancelled as t ∨
    t ∈ l.queue.map Queued.ticket ∨ l.closed = true

namespace Serving

variable {as : List Action} {served : List Sending} {l : Link}

theorem of_fewer {l' : Link} (serving : Serving as served l)
    (nextToken : l'.nextToken = l.nextToken)
    (queue : l'.queue.Sublist l.queue)
    (holder : ∀ h', l'.holder = some h' →
      ∃ h, l.holder = some h ∧ h'.ticket = h.ticket ∧ h'.request = h.request)
    (waits : l'.queue = l.queue ∨ l'.closed = true)
    (stays : l.closed = true → l'.closed = true) : Serving as served l' where
  tokens := serving.tokens
  nextToken := nextToken.trans serving.nextToken
  order := ((List.Sublist.refl _).append (queue.map _)).trans serving.order
  newest h' held := by
    obtain ⟨h, hwas, hticket, hrequest⟩ := holder h' held
    rw [hticket, hrequest]
    exact serving.newest h hwas
  waits t c hsent := by
    rcases serving.waits t c hsent with h | h | h | h
    · exact Or.inl h
    · exact Or.inr (Or.inl h)
    · rcases waits with hqueue | hclosed
      · exact Or.inr (Or.inr (Or.inl (hqueue ▸ h)))
      · exact Or.inr (Or.inr (Or.inr hclosed))
    · exact Or.inr (Or.inr (Or.inr (stays h)))

theorem begin (serving : Serving as served l) (a : Action) :
    Serving (as ++ [a]) served (l.begin a).2 := by
  obtain ⟨kept, joined, hqueue, hkept, hjoined, hcancel⟩ := begin_queue l a
  refine ⟨serving.tokens, (begin_nextToken l a).trans serving.nextToken, ?_, ?_, ?_⟩
  · rw [ticketsOf_snoc, hqueue, List.map_append, ← List.append_assoc]
    have hearlier : (served.map Sending.ticket ++ kept.map Queued.ticket).Sublist
        (ticketsOf as) := ((List.Sublist.refl _).append (hkept.map _)).trans serving.order
    exact hearlier.append hjoined
  · intro h' held
    obtain ⟨h, hwas, hticket, hrequest, -⟩ := begin_holder held
    rw [hticket, hrequest]
    exact serving.newest h hwas
  · intro t c hsent
    rcases List.mem_append.mp hsent with hsent | hnew
    · rcases serving.waits t c hsent with h | h | h | h
      · exact Or.inl h
      · exact Or.inr (Or.inl (h.append [a]))
      · obtain ⟨q, hq, rfl⟩ := List.mem_map.mp h
        by_cases hk : q ∈ kept
        · refine Or.inr (Or.inr (Or.inl (List.mem_map_of_mem ?_)))
          rw [hqueue]
          exact List.mem_append_left _ hk
        · rw [hcancel q hq hk]
          exact Or.inr (Or.inl ⟨as, [], rfl, mem_ticketsOf hsent rfl⟩)
      · exact Or.inr (Or.inr (Or.inr (begin_closed a h)))
    · obtain rfl := List.mem_singleton.mp hnew
      rw [begin_eq _ (by simp)]
      cases hclosed : l.closed with
      | true => exact Or.inr (Or.inr (Or.inr (by simp [perform, refusal?, hclosed])))
      | false => exact Or.inr (Or.inr (Or.inl (by simp [perform, refusal?, hclosed, enqueue])))

theorem grant (serving : Serving as served l) (sound : l.Sound) (underway : l.IsUnderway) :
    Serving as (served ++ l.grant.starter?.toList) l.grant := by
  generalize hg : l.grant = g
  cases hg ▸ granted_grant sound with
  | unchanged =>
    rw [starter?_eq_none underway]
    simpa using serving
  | @acquired t c rest free hqueue isOpen =>
    have hstarter : starter? ({ l with queue := rest }.acquire t c) =
        some ⟨t, l.nextRequest c⟩ := rfl
    have hlength : (served ++ [(⟨t, l.nextRequest c⟩ : Sending)]).length = served.length + 1 := by
      simp
    rw [hstarter, Option.toList_some]
    refine ⟨?_, ?_, ?_, ?_, ?_⟩
    · rw [List.map_append, serving.tokens, hlength, List.range'_concat]
      simp [Link.nextRequest, serving.nextToken, Nat.add_comm]
    · rw [hlength]
      exact congrArg (· + 1) serving.nextToken
    · have horder := serving.order
      rw [hqueue] at horder
      simpa [acquire] using horder
    · rintro _ ⟨⟩
      simp [Link.nextRequest]
    · intro t' c' hsent
      rcases serving.waits t' c' hsent with h | h | h | h
      · exact Or.inl (by simpa using Or.inl (List.mem_map.mp h))
      · exact Or.inr (Or.inl h)
      · rw [hqueue, List.map_cons, List.mem_cons] at h
        rcases h with rfl | h
        · exact Or.inl (by simp)
        · exact Or.inr (Or.inr (Or.inl h))
      · rw [isOpen] at h
        cases h

theorem turned {g : Link} {result : Option Finished × Link} (serving : Serving as served g)
    (turned : Turned g result) : Serving as served result.2 := by
  have hqueue : result.2.queue = g.queue ∨ result.2.closed = true := by
    cases hclosed : result.2.closed with
    | true => exact Or.inr rfl
    | false => exact Or.inl (turned.queue_eq hclosed)
  refine serving.of_fewer turned.nextToken_eq ?_ ?_ hqueue turned.closed
  · cases turned with
    | idle | refused => exact .refl _
    | dismissed _ queue | shuts _ queue =>
      rw [queue]
      exact List.sublist_cons_self _ _
    | goesOn _ _ polled => rw [polled.wrote_ok.queue_eq]
    | ended _ _ polled =>
      obtain ⟨p, wrote⟩ := polled.wrote
      simp [wrote.queue_eq]
  · intro h' held
    cases turned with
    | idle | dismissed | shuts => exact ⟨h', held, rfl, rfl⟩
    | refused | ended => cases held
    | goesOn hwas _ polled =>
      obtain rfl := Option.some.inj held
      refine ⟨_, hwas, ?_, ?_⟩ <;> rw [polled.wrote_ok.holder_eq]

theorem turn (serving : Serving as served l) (sound : l.Sound) (underway : l.IsUnderway) :
    Serving as (served ++ l.grant.starter?.toList) l.turn.2 :=
  (serving.grant sound underway).turned (turned_turn sound)

end Serving

/-- Of two different members of a list only one comes before the other. -/
theorem not_sublist_pair {α : Type} {xs ys : List α} {x y : α} (nodup : (xs ++ x :: ys).Nodup)
    (later : y ∈ ys) : ¬[y, x].Sublist (xs ++ x :: ys) := by
  obtain ⟨-, hright, hapart⟩ := List.nodup_append.mp nodup
  have hx : x ∉ ys := (List.nodup_cons.mp hright).1
  intro hsub
  obtain ⟨l₁, l₂, hsplit, h₁, h₂⟩ := List.sublist_append_iff.mp hsub
  rcases l₁ with _ | ⟨z, l₁⟩
  · -- both would stand in the second part, where `x` is the first
    obtain rfl := hsplit.symm
    cases h₂ with
    | cons _ h => exact hx (h.subset (by simp))
    | cons_cons _ h => exact hx (h.subset (by simp))
  · obtain ⟨rfl, -⟩ := List.cons.inj hsplit
    exact hapart y (h₁.subset (by simp)) y (List.mem_cons_of_mem _ later) rfl

/-- Nobody is served before a call that has been waiting for longer. -/
def NoOvertaking (as : List Action) (served : List Sending) : Prop :=
  ∀ before t c later, as = before ++ .send t .wait c :: later →
    ∀ t' ∈ ticketsOf later, t' ∈ served.map Sending.ticket →
      t ∈ served.map Sending.ticket ∨ IsCancelled as t

namespace NoOvertaking

variable {as : List Action} {served : List Sending} {l : Link}

theorem begin (fair : NoOvertaking as served) (serving : Serving as served l) {a : Action}
    (own : OwnTickets (as ++ [a])) : NoOvertaking (as ++ [a]) served := by
  intro before t c later hsplit t' hlater hserved
  rcases snoc_eq_split hsplit with ⟨-, -, rfl⟩ | ⟨later', rfl, has⟩
  · cases hlater
  · rw [ticketsOf_snoc] at hlater
    rcases List.mem_append.mp hlater with hlater | hnew
    · exact (fair before t c later' has t' hlater hserved).imp_right fun h => h.append [a]
    · -- a call that only begins now has not been served
      have hold : t' ∈ ticketsOf as := serving.order.subset (List.mem_append_left _ hserved)
      rw [OwnTickets, ticketsOf_snoc] at own
      exact ((List.nodup_append.mp own).2.2 t' hold t' hnew rfl).elim

theorem turn (fair : NoOvertaking as served) (serving : Serving as served l) (sound : l.Sound)
    (underway : l.IsUnderway) (own : OwnTickets as) :
    NoOvertaking as (served ++ l.grant.starter?.toList) := by
  intro before t c later hsplit t' hlater hserved
  generalize hg : l.grant = g at hserved ⊢
  rw [List.map_append] at hserved ⊢
  rcases List.mem_append.mp hserved with hserved | hnew
  · exact (fair before t c later hsplit t' hlater hserved).imp_left (List.mem_append_left _)
  cases hg ▸ granted_grant sound with
  | unchanged => simp [starter?_eq_none underway] at hnew
  | @acquired t₀ c₀ rest free hqueue isOpen =>
    have hstarter : starter? ({ l with queue := rest }.acquire t₀ c₀) =
        some ⟨t₀, l.nextRequest c₀⟩ := rfl
    rw [hstarter] at hnew ⊢
    obtain rfl : t' = t₀ := by simpa using hnew
    rcases serving.waits t c (by simp [hsplit]) with h | h | h | h
    · exact Or.inl (List.mem_append_left _ h)
    · exact Or.inr h
    · rw [hqueue, List.map_cons, List.mem_cons] at h
      rcases h with rfl | h
      · exact Or.inl (by simp)
      · have hpair : [t', t].Sublist (ticketsOf as) := by
          refine List.Sublist.trans ?_ serving.order
          rw [hqueue]
          refine List.Sublist.trans ?_ (List.sublist_append_right _ _)
          exact (List.singleton_sublist.mpr h).cons_cons t'
        have hsplit' : ticketsOf as = ticketsOf before ++ t :: ticketsOf later := by
          simp [hsplit, ticketsOf, Action.ticket?]
        rw [OwnTickets, hsplit'] at own
        exact (not_sublist_pair own hlater (hsplit' ▸ hpair)).elim
    · rw [isOpen] at h
      cases h

end NoOvertaking

namespace Setup

variable (s : Setup)

theorem underway_and_serving (as : List Action) :
    (s.after as).IsUnderway ∧ Serving as (s.served as) (s.after as) ∧
      (OwnTickets as → NoOvertaking as (s.served as)) := by
  refine s.induction (P := fun as history l => l.IsUnderway ∧
    Serving as (servedIn history.moments) l ∧
      (OwnTickets as → NoOvertaking as (servedIn history.moments))) ?_ ?_ ?_ ?_ as
  · refine ⟨.of_free rfl, ⟨rfl, rfl, .refl _, fun h held => ?_, fun t c hsent => ?_⟩, fun _ => ?_⟩
    · cases held
    · cases hsent
    · intro before t c later hsplit
      simp at hsplit
  · rintro as a - ⟨underway, serving, fair⟩
    refine ⟨underway.begin a, serving.begin a, fun own => (fair ?_).begin serving own⟩
    rw [OwnTickets, ticketsOf_snoc] at own
    exact (List.nodup_append.mp own).1
  · rintro as history l sound ⟨underway, serving, fair⟩
    simp only [servedIn_append, servedIn_cons, servedIn_nil, List.append_nil]
    exact ⟨underway_turn sound, serving.turn sound underway,
      fun own => (fair own).turn serving sound underway own⟩
  · rintro as history l reading - ⟨underway, serving, fair⟩
    exact ⟨underway, ⟨serving.1, serving.2, serving.3, serving.4, serving.5⟩, fair⟩

theorem underway (as : List Action) : (s.after as).IsUnderway := (s.underway_and_serving as).1

theorem serving (as : List Action) : Serving as (s.served as) (s.after as) :=
  (s.underway_and_serving as).2.1

/-- Who has been served was sent, and the request is for the command that was sent. -/
theorem served_sent {as : List Action} {p : Sending} (served : p ∈ s.served as) :
    ∃ turn, .send p.ticket turn p.request.command ∈ as := by
  suffices h : (s.after as).IsUnderway ∧ s.Traced as (s.finished as) (s.after as) ∧
      ∀ p ∈ s.served as, ∃ turn, .send p.ticket turn p.request.command ∈ as from
    h.2.2 p served
  refine s.induction (P := fun as history l => l.IsUnderway ∧ s.Traced as history.finished l ∧
    ∀ p ∈ servedIn history.moments, ∃ turn, .send p.ticket turn p.request.command ∈ as)
    ?_ ?_ ?_ ?_ as
  · exact ⟨s.underway [], s.traced [], fun p hp => by cases hp⟩
  · rintro as a sound ⟨underway, traced, hsent⟩
    refine ⟨underway.begin a, traced.begin sound rfl a, fun p hp => ?_⟩
    exact (hsent p hp).imp fun _ => List.mem_append_left [a]
  · rintro as history l sound ⟨underway, traced, hsent⟩
    refine ⟨underway_turn sound, traced.turn sound, fun p hp => ?_⟩
    rw [servedIn_append] at hp
    rcases List.mem_append.mp hp with hp | hp
    · exact hsent p hp
    · generalize hg : l.grant = g at hp
      cases hg ▸ granted_grant sound with
      | unchanged => simp [starter?_eq_none underway] at hp
      | @acquired t c rest _ hqueue =>
        obtain rfl : p = ⟨t, l.nextRequest c⟩ := by
          simpa [starter?, acquire, nextRequest] using hp
        exact traced.queue_sent t c (by simp [hqueue])
  · rintro as history l reading - ⟨underway, traced, hsent⟩
    exact ⟨underway, ⟨traced.1, traced.2, traced.3, traced.4⟩, hsent⟩

theorem no_overtaking {as : List Action} (own : OwnTickets as) :
    NoOvertaking as (s.served as) := (s.underway_and_serving as).2.2 own

end Setup

end Pushdown
