/-
  Pushdown/Proofs/Listeners/Delivery.lean
  =======================================
  **Who hears an event, and what it leaves behind.**  Until `terminated` has been
  delivered an event goes to everybody who is registered, each of them once; from then
  on it goes to nobody.  Listeners that come or go while they are notified have no part
  in this: they change the registry, not the audience, and never the mark that
  `terminated` leaves.
-/
import Pushdown.Listeners

namespace Pushdown

namespace Listeners

variable {β : Type}

/-- The numbers of those who are registered, in order. -/
def ids (ls : Listeners β) : List ListenerId := ls.registered.map Prod.fst

theorem numbered_ids (ls : Listeners β) :
    ls.numbered.map Prod.fst = List.range' 1 ls.entries.length := by
  apply List.ext_getElem
  · simp [numbered]
  · intro i _ _
    simp [numbered, Nat.add_comm]

/-- Nobody is registered twice under one number. -/
theorem nodup_ids (ls : Listeners β) : ls.ids.Nodup := by
  have hsublist : ls.ids.Sublist (ls.numbered.map Prod.fst) := by
    rw [ids, registered, List.map_map]
    exact List.filter_sublist.map _
  rw [numbered_ids] at hsublist
  exact hsublist.nodup List.nodup_range'

theorem mem_ids_iff (ls : Listeners β) (id : ListenerId) :
    id ∈ ls.ids ↔ ls.isRegistered id = true := by
  rw [ids, isRegistered, List.mem_map, List.any_eq_true]
  simp only [decide_eq_true_eq]

/-- A number is that of an active entry. -/
theorem mem_ids_iff_entry (ls : Listeners β) (id : ListenerId) :
    id ∈ ls.ids ↔ ∃ i e, ls.entries[i]? = some e ∧ e.active = true ∧ i + 1 = id := by
  simp only [ids, registered, numbered, List.mem_map, List.mem_filter, List.mem_mapIdx]
  constructor
  · rintro ⟨_, ⟨_, ⟨⟨i, hi, rfl⟩, hactive⟩, rfl⟩, rfl⟩
    exact ⟨i, ls.entries[i], List.getElem?_eq_getElem hi, hactive, rfl⟩
  · rintro ⟨i, e, hentry, hactive, rfl⟩
    obtain ⟨hi, rfl⟩ := List.getElem?_eq_some_iff.mp hentry
    exact ⟨_, ⟨_, ⟨⟨i, hi, rfl⟩, hactive⟩, rfl⟩, rfl⟩

/-- Whoever is registered stays so until it is removed. -/
theorem mem_ids_change {ls : Listeners β} {id : ListenerId} {c : ListenerChange β}
    (registered : id ∈ ls.ids) (other : c ≠ .remove id) : id ∈ (ls.change c).ids := by
  rw [mem_ids_iff_entry] at registered ⊢
  obtain ⟨i, e, hentry, hactive, rfl⟩ := registered
  refine ⟨i, e, ?_, hactive, rfl⟩
  cases c with
  | add listener =>
    have hi := (List.getElem?_eq_some_iff.mp hentry).1
    exact (List.getElem?_append_left hi).trans hentry
  | remove id =>
    have hne : ¬i + 1 = id := by
      rintro rfl
      exact other rfl
    simp [change, remove, numbered, hentry, hne]

theorem change_terminated (ls : Listeners β) (c : ListenerChange β) :
    (ls.change c).terminated = ls.terminated := by
  cases c <;> rfl

theorem notify_terminated (react : Listeners β → ListenerId × β → List (ListenerChange β))
    (ls : Listeners β) (audience : List (ListenerId × β)) :
    (ls.notify react audience).terminated = ls.terminated := by
  have hchanges : ∀ (cs : List (ListenerChange β)) (ls : Listeners β),
      (cs.foldl change ls).terminated = ls.terminated := by
    intro cs
    induction cs with
    | nil => exact fun ls => rfl
    | cons c cs ih => exact fun ls => (ih _).trans (change_terminated ls c)
  induction audience generalizing ls with
  | nil => rfl
  | cons l audience ih => exact (ih _).trans (hchanges _ ls)

/-- Once `terminated` has been delivered nobody hears anything. -/
theorem dispatch_of_terminated (react : Listeners β → ListenerId × β → List (ListenerChange β))
    {ls : Listeners β} (past : ls.terminated = true) (e : Event) :
    ls.dispatch react e = ([], ls) := by
  rw [dispatch, if_pos past]

theorem dispatch_audience (react : Listeners β → ListenerId × β → List (ListenerChange β))
    {ls : Listeners β} (going : ls.terminated = false) (e : Event) :
    (ls.dispatch react e).1 = ls.ids := by
  rw [dispatch, if_neg (by simp [going])]
  rfl

/-- It is the delivery of `terminated` that leaves the mark. -/
theorem dispatch_terminated (react : Listeners β → ListenerId × β → List (ListenerChange β))
    (ls : Listeners β) (e : Event) :
    (ls.dispatch react e).2.terminated = (ls.terminated || decide (e = .terminated)) := by
  cases hover : ls.terminated with
  | true => rw [dispatch_of_terminated react hover, hover, Bool.true_or]
  | false =>
    rw [dispatch, if_neg (by simp [hover]), Bool.false_or]
    exact notify_terminated react _ _

/-- Listeners that do nothing but listen leave the registry as it is. -/
theorem notify_nothing (ls : Listeners β) (audience : List (ListenerId × β)) :
    ls.notify (fun _ _ => []) audience = ls := by
  induction audience with
  | nil => rfl
  | cons l audience ih => exact ih

theorem dispatch_ids (ls : Listeners β) (e : Event) :
    (ls.dispatch (fun _ _ => []) e).2.ids = ls.ids := by
  unfold dispatch
  split
  · rfl
  · simp only [notify_nothing]
    rfl

end Listeners

end Pushdown
