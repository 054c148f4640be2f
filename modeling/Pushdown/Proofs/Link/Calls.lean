/-
  Pushdown/Proofs/Link/Calls.lean
  ===============================
  **Every call is accounted for.**  A call that has begun is over, or has been
  cancelled, or has the writer or waits for it; and it is over at most once.  This
  needs that no two calls of a run go by the same number (`OwnTickets`).

  * `finished_nodup` — no call is over twice, or over and still there;
  * `accounted_for` — no call is lost;
  * `cancelled_gone` — a cancelled call is not there any more.
-/
import Pushdown.Proofs.Link.Rest

namespace Pushdown

open Link

/-! ### Inputs and calls -/

theorem ticketsOf_snoc (as : List Action) (a : Action) :
    ticketsOf (as ++ [a]) = ticketsOf as ++ a.ticket?.toList := by
  cases h : a.ticket? <;> simp [ticketsOf, h]

theorem mem_ticketsOf {as : List Action} {a : Action} {t : Ticket} (h : a ∈ as)
    (began : a.ticket? = some t) : t ∈ ticketsOf as :=
  List.mem_filterMap.mpr ⟨a, h, began⟩

/-- The call began in time to be cancelled, and was. -/
def IsCancelled (as : List Action) (t : Ticket) : Prop :=
  ∃ before later, as = before ++ .cancel t :: later ∧ t ∈ ticketsOf before

theorem IsCancelled.append {as : List Action} {t : Ticket} (h : IsCancelled as t)
    (bs : List Action) : IsCancelled (as ++ bs) t := by
  obtain ⟨before, later, rfl, ht⟩ := h
  exact ⟨before, later ++ bs, by simp, ht⟩

/-! ### Runs and calls -/

namespace Setup

variable {s : Setup} {as : List Action}

theorem finished_and_left (s : Setup) (as : List Action) (own : OwnTickets as) :
    ((s.finished as).map Finished.ticket ++ (s.after as).tickets).Nodup ∧
      ∀ t ∈ (s.finished as).map Finished.ticket ++ (s.after as).tickets, t ∈ ticketsOf as := by
  refine s.induction (P := fun as history l => OwnTickets as →
    (history.finished.map Finished.ticket ++ l.tickets).Nodup ∧
      ∀ t ∈ history.finished.map Finished.ticket ++ l.tickets, t ∈ ticketsOf as)
    ?_ ?_ ?_ ?_ as own
  · intro _
    simp [link, new, tickets]
  · intro as a _ ih own
    rw [OwnTickets, ticketsOf_snoc, List.nodup_append] at own
    obtain ⟨hnodup, hmem⟩ := ih own.1
    obtain ⟨kept, hkept, hperm, -⟩ := begin_tickets (s.after as) a
    have hperm' : (((s.finished as) ++ ((s.after as).begin a).1).map Finished.ticket ++
        ((s.after as).begin a).2.tickets).Perm
          (((s.finished as).map Finished.ticket ++ kept) ++ a.ticket?.toList) := by
      simpa [List.append_assoc] using hperm.append_left ((s.finished as).map Finished.ticket)
    have hsub : ((s.finished as).map Finished.ticket ++ kept).Sublist
        ((s.finished as).map Finished.ticket ++ (s.after as).tickets) :=
      (List.Sublist.refl _).append hkept
    refine ⟨hperm'.nodup_iff.mpr (List.nodup_append.mpr ⟨hnodup.sublist hsub, own.2.1, ?_⟩), ?_⟩
    · exact fun t ht t' ht' => own.2.2 t (hmem t (hsub.subset ht)) t' ht'
    · intro t ht
      rw [ticketsOf_snoc]
      rcases List.mem_append.mp (hperm'.mem_iff.mp ht) with ht | ht
      · exact List.mem_append_left _ (hmem t (hsub.subset ht))
      · exact List.mem_append_right _ ht
  · intro as history l sound ih own
    have hturn := turn_tickets sound
    simpa [List.append_assoc, ← hturn] using ih own
  · intro as history l reading _ ih own
    exact ih own

theorem finished_nodup (own : OwnTickets as) :
    ((s.finished as).map Finished.ticket ++ (s.after as).tickets).Nodup :=
  (s.finished_and_left as own).1

theorem accounted_for {t : Ticket} (began : t ∈ ticketsOf as) :
    t ∈ (s.finished as).map Finished.ticket ∨ IsCancelled as t ∨ t ∈ (s.after as).tickets := by
  refine s.induction (P := fun as history l => ∀ t ∈ ticketsOf as,
    t ∈ history.finished.map Finished.ticket ∨ IsCancelled as t ∨ t ∈ l.tickets)
    ?_ ?_ ?_ ?_ as t began
  · intro t ht
    cases ht
  · intro as a _ ih t ht
    obtain ⟨kept, -, hperm, hcancel⟩ := begin_tickets (s.after as) a
    have hnew : t ∈ kept ++ a.ticket?.toList →
        t ∈ (s.finished as ++ ((s.after as).begin a).1).map Finished.ticket ∨
          IsCancelled (as ++ [a]) t ∨ t ∈ ((s.after as).begin a).2.tickets := by
      intro h
      rcases List.mem_append.mp (hperm.mem_iff.mpr h) with h | h
      · rw [List.map_append]
        exact Or.inl (List.mem_append_right _ h)
      · exact Or.inr (Or.inr h)
    rw [ticketsOf_snoc] at ht
    rcases List.mem_append.mp ht with ht | ht
    · rcases ih t ht with hover | hcancelled | hthere
      · rw [List.map_append]
        exact Or.inl (List.mem_append_left _ hover)
      · exact Or.inr (Or.inl (hcancelled.append [a]))
      · by_cases hk : t ∈ kept
        · exact hnew (List.mem_append_left _ hk)
        · rw [hcancel t hthere hk]
          exact Or.inr (Or.inl ⟨as, [], rfl, ht⟩)
    · exact hnew (List.mem_append_right _ ht)
  · intro as history l sound ih t ht
    rw [List.map_append]
    rcases ih t ht with hover | hcancelled | hthere
    · exact Or.inl (List.mem_append_left _ hover)
    · exact Or.inr (Or.inl hcancelled)
    · rw [← turn_tickets sound] at hthere
      rcases List.mem_append.mp hthere with h | h
      · exact Or.inl (List.mem_append_right _ h)
      · exact Or.inr (Or.inr h)
  · intro as history l reading _ ih t ht
    exact ih t ht

theorem cancelled_gone (own : OwnTickets as) {t : Ticket} (cancelled : IsCancelled as t) :
    t ∉ (s.after as).tickets := by
  refine s.induction (P := fun as _ l => OwnTickets as → ∀ t, IsCancelled as t → t ∉ l.tickets)
    ?_ ?_ ?_ ?_ as own t cancelled
  · rintro _ t ⟨before, later, h, -⟩
    simp at h
  · rintro as a sound ih own t ⟨before, later, h, ht⟩
    have hown : (ticketsOf as ++ a.ticket?.toList).Nodup := ticketsOf_snoc as a ▸ own
    have hown' : OwnTickets as := (List.nodup_append.mp hown).1
    obtain ⟨kept, hkept, hperm, -⟩ := begin_tickets (s.after as) a
    rcases snoc_eq_split h with ⟨rfl, rfl, -⟩ | ⟨later', -, rfl⟩
    · -- the call is cancelled by this very input
      have hdistinct := (List.nodup_append.mp (finished_nodup (s := s) hown')).2.1
      exact begin_cancel_tickets hdistinct t
    · intro hmem
      have hbegan : t ∈ ticketsOf (before ++ .cancel t :: later') := by
        rw [ticketsOf, List.filterMap_append]
        exact List.mem_append_left _ ht
      rcases List.mem_append.mp (hperm.mem_iff.mp (List.mem_append_right _ hmem)) with hk | hk
      · exact ih hown' t ⟨before, later', rfl, ht⟩ (hkept.subset hk)
      · exact (List.nodup_append.mp hown).2.2 t hbegan t hk rfl
  · intro as history l sound ih own t hcancelled hmem
    refine ih own t hcancelled ?_
    rw [← turn_tickets sound]
    exact List.mem_append_right _ hmem
  · intro as history l reading _ ih own t hcancelled
    exact ih own t hcancelled

end Setup

end Pushdown
