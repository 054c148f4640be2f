/-
  Pushdown/Proofs/Listeners/FanOut.lean
  =====================================
  **Each event goes to those who were there when it began.**  Listeners may add and remove
  listeners, themselves included, while they are notified.  To see what comes of it, a run
  of a registry is written down one incident after the other: a listener is added, one is
  removed, one hears an event.

  The history alone says who is registered (`audience`): an addition puts a listener at the
  end, a removal takes this one out and no other.  The registry, which keeps an entry for
  every listener there ever was, agrees with it at every incident (`Accounts`).  So an event
  is heard by the audience of the moment in which its delivery begins, whatever the
  listeners do meanwhile; who comes in meanwhile hears the next event, who goes out hears
  this one and no more (`fansOut`).
-/
import Mathlib.Data.List.Induction
import Pushdown.Proofs.Listeners.Delivery

namespace Pushdown

namespace Listeners

variable {β : Type}

/-! ### Registering -/

theorem registered_add (ls : Listeners β) (listener : β) :
    (ls.add listener).2.registered = ls.registered ++ [(ls.entries.length + 1, listener)] := by
  simp [registered, numbered, add, List.mapIdx_append]

theorem numbered_remove (ls : Listeners β) (id : ListenerId) :
    (ls.remove id).2.numbered = ls.numbered.map fun p =>
      (p.1, if p.1 = id then { p.2 with active := false } else p.2) := by
  apply List.ext_getElem
  · simp [numbered, remove]
  · intro i _ _
    simp [numbered, remove]

theorem registered_remove (ls : Listeners β) (id : ListenerId) :
    (ls.remove id).2.registered = ls.registered.filter (fun p => p.1 != id) := by
  rw [registered, numbered_remove, registered]
  induction ls.numbered with
  | nil => rfl
  | cons p rest ih =>
    by_cases same : p.1 = id <;> by_cases active : p.2.active = true <;>
      simpa [same, active] using ih

/-! ### Runs of a registry -/

/-- What a listener does when it is notified.  It finds the registry as those before it
    have left it. -/
abbrev Reaction (β : Type) := Listeners β → ListenerId × β → List (ListenerChange β)

/-- One thing that is done with a registry. -/
inductive Operation (β : Type) where
  | change (c : ListenerChange β)
  /-- An event is delivered, and this is how the listeners react to it. -/
  | dispatch (e : Event) (react : Reaction β)

/-- One thing that happens to a registry or to a listener of it. -/
inductive Incident (β : Type) where
  | added (id : ListenerId) (listener : β)
  | removed (id : ListenerId) (answer : Bool)
  | heard (id : ListenerId) (e : Event)

/-- What a change comes to. -/
def incident (ls : Listeners β) : ListenerChange β → Incident β
  | .add listener => .added (ls.add listener).1 listener
  | .remove id => .removed id (ls.remove id).1

/-- Make the changes one after the other. -/
def changing (ls : Listeners β) : List (ListenerChange β) → List (Incident β) × Listeners β
  | [] => ([], ls)
  | c :: cs =>
    let (later, ls') := (ls.change c).changing cs
    (ls.incident c :: later, ls')

/-- Notify the given listeners of an event one after the other. -/
def notifying (react : Reaction β) (e : Event) (ls : Listeners β) :
    List (ListenerId × β) → List (Incident β) × Listeners β
  | [] => ([], ls)
  | l :: rest =>
    let (first, ls) := ls.changing (react ls l)
    let (later, ls) := notifying react e ls rest
    (.heard l.1 e :: first ++ later, ls)

def perform (ls : Listeners β) : Operation β → List (Incident β) × Listeners β
  | .change c => ([ls.incident c], ls.change c)
  | .dispatch e react =>
    if ls.terminated then ([], ls)
    else notifying react e { ls with terminated := e = Event.terminated } ls.registered

def run (ls : Listeners β) : List (Operation β) → List (Incident β) × Listeners β
  | [] => ([], ls)
  | op :: ops =>
    let (first, ls) := ls.perform op
    let (later, ls) := ls.run ops
    (first ++ later, ls)

/-- The registry after these operations. -/
def after (ops : List (Operation β)) : Listeners β := (empty.run ops).2

/-- All incidents, in order. -/
def history (ops : List (Operation β)) : List (Incident β) := (empty.run ops).1

theorem run_append (ls : Listeners β) (ops more : List (Operation β)) :
    ls.run (ops ++ more) =
      ((ls.run ops).1 ++ ((ls.run ops).2.run more).1, ((ls.run ops).2.run more).2) := by
  induction ops generalizing ls with
  | nil => rfl
  | cons op ops ih => simp only [List.cons_append, run, ih, List.append_assoc]

theorem after_snoc (ops : List (Operation β)) (op : Operation β) :
    after (ops ++ [op]) = ((after ops).perform op).2 := by
  simp only [after, run_append, run]

theorem history_append (ops more : List (Operation β)) :
    history (ops ++ more) = history ops ++ ((after ops).run more).1 := by
  simp only [history, after, run_append]

theorem history_snoc (ops : List (Operation β)) (op : Operation β) :
    history (ops ++ [op]) = history ops ++ ((after ops).perform op).1 := by
  rw [history_append]
  simp [run]

/-! ### What the history says -/

/-- Who hears what. -/
def Incident.hearing? : Incident β → Option (ListenerId × Event)
  | .heard id e => some (id, e)
  | .added .. | .removed .. => none

/-- Who has heard what, one after the other. -/
def hearings (h : List (Incident β)) : List (ListenerId × Event) := h.filterMap Incident.hearing?

def Incident.number? : Incident β → Option ListenerId
  | .added id _ => some id
  | .removed .. | .heard .. => none

/-- The numbers that have been given to listeners, in order. -/
def numbers (h : List (Incident β)) : List ListenerId := h.filterMap Incident.number?

/-- The incident takes the listener with this number out, if it is there. -/
def Incident.removes (id : ListenerId) : Incident β → Bool
  | .removed gone _ => gone = id
  | .added .. | .heard .. => false

/-- What an incident means for those who are registered. -/
def amend (registered : List (ListenerId × β)) : Incident β → List (ListenerId × β)
  | .added id listener => registered ++ [(id, listener)]
  | .removed id _ => registered.filter (fun p => p.1 != id)
  | .heard .. => registered

/-- Who is registered after these incidents, in the order in which they came. -/
def audience (h : List (Incident β)) : List (ListenerId × β) := h.foldl amend []

theorem audience_snoc (h : List (Incident β)) (i : Incident β) :
    audience (h ++ [i]) = amend (audience h) i := by
  rw [audience, List.foldl_append]
  rfl

/-- Whoever is not removed stays where he is, and whoever comes goes behind. -/
theorem audience_append (h k : List (Incident β)) : ∃ newer,
    audience (h ++ k) =
      (audience h).filter (fun p => !k.any (Incident.removes p.1)) ++ newer ∧
      ∀ p ∈ newer, .added p.1 p.2 ∈ k := by
  induction k using List.reverseRecOn with
  | nil =>
    refine ⟨[], ?_, fun p hp => by cases hp⟩
    simp [List.filter_eq_self.mpr]
  | append_singleton k i ih =>
    obtain ⟨newer, heq, hnewer⟩ := ih
    rw [← List.append_assoc, audience_snoc, heq]
    cases i with
    | heard id e =>
      refine ⟨newer, ?_, ?_⟩
      · simp [amend, Incident.removes]
      · exact fun p hp => List.mem_append_left _ (hnewer p hp)
    | added id listener =>
      refine ⟨newer ++ [(id, listener)], ?_, ?_⟩
      · simp [amend, Incident.removes]
      · intro p hp
        rcases List.mem_append.mp hp with hp | hp
        · exact List.mem_append_left _ (hnewer p hp)
        · rw [List.mem_singleton.mp hp]
          exact List.mem_append_right _ List.mem_cons_self
    | removed id answer =>
      refine ⟨newer.filter (fun p => p.1 != id), ?_, ?_⟩
      · simp only [amend, List.filter_append, List.filter_filter]
        congr 1
        apply List.filter_congr
        intro p _
        by_cases same : p.1 = id
        · simp [Incident.removes, same]
        · simp [Incident.removes, same, Ne.symm same]
      · intro p hp
        exact List.mem_append_left _ (hnewer p (List.mem_filter.mp hp).1)

/-! ### The registry and its history -/

/-- The registry is what the history makes of it. -/
structure Accounts (h : List (Incident β)) (ls : Listeners β) : Prop where
  registered : ls.registered = audience h
  numbers : numbers h = List.range' 1 ls.entries.length
  answers : ∀ earlier id answer later, h = earlier ++ .removed id answer :: later →
    (answer = true ↔ id ∈ (audience earlier).map Prod.fst)

namespace Accounts

variable {h : List (Incident β)} {ls : Listeners β}

theorem answers_snoc (accounts : Accounts h ls) {i : Incident β}
    (right : ∀ id answer, i = .removed id answer →
      (answer = true ↔ id ∈ (audience h).map Prod.fst)) :
    ∀ earlier id answer later, h ++ [i] = earlier ++ .removed id answer :: later →
      (answer = true ↔ id ∈ (audience earlier).map Prod.fst) := by
  intro earlier id answer later split
  rcases List.eq_nil_or_concat later with rfl | ⟨later', last, rfl⟩
  · obtain ⟨rfl, hi⟩ := List.append_inj' split rfl
    exact right id answer (List.cons.inj hi).1
  · rw [List.concat_eq_append, ← List.cons_append, ← List.append_assoc] at split
    exact accounts.answers _ _ _ _ (List.append_inj' split rfl).1

theorem change (accounts : Accounts h ls) (c : ListenerChange β) :
    Accounts (h ++ [ls.incident c]) (ls.change c) := by
  cases c with
  | add listener =>
    refine ⟨?_, ?_, accounts.answers_snoc fun id answer heq => by cases heq⟩
    · rw [audience_snoc, ← accounts.registered]
      exact registered_add ls listener
    · have hlength : (ls.change (.add listener)).entries.length = ls.entries.length + 1 := by
        simp [Listeners.change, add]
      rw [hlength, List.range'_concat, ← accounts.numbers]
      simp [Listeners.numbers, incident, Incident.number?, add, Nat.add_comm]
  | remove id =>
    refine ⟨?_, ?_, accounts.answers_snoc ?_⟩
    · rw [audience_snoc, ← accounts.registered]
      exact registered_remove ls id
    · have hlength : (ls.change (.remove id)).entries.length = ls.entries.length := by
        simp [Listeners.change, remove, numbered]
      rw [hlength, ← accounts.numbers]
      simp [Listeners.numbers, incident, Incident.number?]
    · rintro id' answer ⟨⟩
      rw [← accounts.registered]
      exact (mem_ids_iff ls id).symm

theorem heard (accounts : Accounts h ls) (id : ListenerId) (e : Event) :
    Accounts (h ++ [.heard id e]) ls where
  registered := by
    rw [audience_snoc]
    exact accounts.registered
  numbers := by
    rw [← accounts.numbers]
    simp [Listeners.numbers, Incident.number?]
  answers := accounts.answers_snoc fun id answer heq => by cases heq

theorem changing (accounts : Accounts h ls) (cs : List (ListenerChange β)) :
    Accounts (h ++ (ls.changing cs).1) (ls.changing cs).2 := by
  induction cs generalizing h ls with
  | nil => simpa [Listeners.changing] using accounts
  | cons c cs ih => simpa [Listeners.changing] using ih (accounts.change c)

theorem notifying (accounts : Accounts h ls) (react : Reaction β) (e : Event)
    (audience : List (ListenerId × β)) :
    Accounts (h ++ (notifying react e ls audience).1) (notifying react e ls audience).2 := by
  induction audience generalizing h ls with
  | nil => simpa [Listeners.notifying] using accounts
  | cons l rest ih =>
    have hnotified := (accounts.heard l.1 e).changing (react ls l)
    simpa [Listeners.notifying] using ih hnotified

theorem perform (accounts : Accounts h ls) (op : Operation β) :
    Accounts (h ++ (ls.perform op).1) (ls.perform op).2 := by
  cases op with
  | change c => exact accounts.change c
  | dispatch e react =>
    simp only [Listeners.perform]
    split
    · simpa using accounts
    · -- the mark of the end is none of the history's business
      have hmarked : Accounts h { ls with terminated := e = Event.terminated } :=
        ⟨accounts.registered, accounts.numbers, accounts.answers⟩
      exact hmarked.notifying react e ls.registered

end Accounts

theorem accounts_after (ops : List (Operation β)) : Accounts (history ops) (after ops) := by
  induction ops using List.reverseRecOn with
  | nil =>
    refine ⟨rfl, rfl, ?_⟩
    intro earlier id answer later split
    cases earlier <;> cases split
  | append_singleton ops op ih =>
    rw [history_snoc, after_snoc]
    exact ih.perform op

/-! ### Delivery -/

@[simp] theorem hearings_changing (ls : Listeners β) (cs : List (ListenerChange β)) :
    hearings (ls.changing cs).1 = [] := by
  induction cs generalizing ls with
  | nil => rfl
  | cons c cs ih =>
    have hfirst : (ls.incident c).hearing? = none := by
      cases c <;> rfl
    rw [changing, hearings, List.filterMap_cons, hfirst]
    exact ih _

theorem hearings_append (h k : List (Incident β)) :
    hearings (h ++ k) = hearings h ++ hearings k :=
  List.filterMap_append

theorem changing_registry (ls : Listeners β) (cs : List (ListenerChange β)) :
    (ls.changing cs).2 = cs.foldl change ls := by
  induction cs generalizing ls with
  | nil => rfl
  | cons c cs ih => exact ih _

/-- All those who are to be notified hear the event, whatever they do. -/
theorem hearings_notifying (react : Reaction β) (e : Event) (ls : Listeners β)
    (audience : List (ListenerId × β)) :
    hearings (notifying react e ls audience).1 = audience.map fun l => (l.1, e) := by
  induction audience generalizing ls with
  | nil => rfl
  | cons l rest ih =>
    have hfirst : ∀ h : List (Incident β),
        hearings (.heard l.1 e :: h) = (l.1, e) :: hearings h := fun h => rfl
    simp only [notifying, List.cons_append, hfirst, hearings_append, hearings_changing, ih]
    rfl

theorem notifying_registry (react : Reaction β) (e : Event) (ls : Listeners β)
    (audience : List (ListenerId × β)) :
    (notifying react e ls audience).2 = ls.notify react audience := by
  induction audience generalizing ls with
  | nil => rfl
  | cons l rest ih =>
    rw [notifying, ih, changing_registry]
    rfl

theorem perform_dispatch_registry (ls : Listeners β) (e : Event) (react : Reaction β) :
    (ls.perform (.dispatch e react)).2 = (ls.dispatch react e).2 := by
  simp only [perform, dispatch]
  split
  · rfl
  · exact notifying_registry ..

theorem hearings_perform_dispatch (ls : Listeners β) (e : Event) (react : Reaction β) :
    hearings (ls.perform (.dispatch e react)).1 =
      if ls.terminated then [] else ls.registered.map fun l => (l.1, e) := by
  simp only [perform]
  split
  · rfl
  · exact hearings_notifying ..

/-- The operation delivers the last event. -/
def Operation.isLast : Operation β → Bool
  | .dispatch e _ => e = Event.terminated
  | .change _ => false

theorem terminated_after (ops : List (Operation β)) :
    (after ops).terminated = ops.any Operation.isLast := by
  induction ops using List.reverseRecOn with
  | nil => rfl
  | append_singleton ops op ih =>
    rw [after_snoc, List.any_append, ← ih]
    cases op with
    | change c => simpa [perform, Operation.isLast] using change_terminated _ c
    | dispatch e react =>
      rw [perform_dispatch_registry, dispatch_terminated]
      simp [Operation.isLast]

/-! ### Numbers and places -/

theorem numbers_append (h k : List (Incident β)) : numbers (h ++ k) = numbers h ++ numbers k :=
  List.filterMap_append

/-- No number is given twice. -/
theorem nodup_numbers (ops : List (Operation β)) : (numbers (history ops)).Nodup := by
  rw [(accounts_after ops).numbers]
  exact List.nodup_range'

/-- Who is registered has got his number, and has his place by it. -/
theorem audience_sublist (h : List (Incident β)) :
    ((audience h).map Prod.fst).Sublist (numbers h) := by
  induction h using List.reverseRecOn with
  | nil => exact .refl _
  | append_singleton h i ih =>
    rw [audience_snoc, numbers_append]
    cases i with
    | added id listener =>
      have hplaced : (audience h ++ [(id, listener)]).map Prod.fst =
          (audience h).map Prod.fst ++ [id] := by simp
      exact hplaced ▸ ih.append (.refl _)
    | removed id answer =>
      have hfewer : ((audience h).filter (fun p => p.1 != id)).Sublist (audience h) :=
        List.filter_sublist
      exact ((hfewer.map _).trans ih).trans (List.sublist_append_left _ _)
    | heard id e => exact ih.trans (List.sublist_append_left _ _)

theorem mem_audience_of_added {h k : List (Incident β)} {id : ListenerId} {listener : β}
    (added : .added id listener ∈ k) (stays : k.any (Incident.removes id) = false) :
    (id, listener) ∈ audience (h ++ k) := by
  obtain ⟨earlier, later, rfl⟩ := List.append_of_mem added
  have hthen : (id, listener) ∈ audience (h ++ earlier ++ [.added id listener]) := by
    rw [audience_snoc]
    exact List.mem_append_right _ List.mem_cons_self
  obtain ⟨newer, heq, -⟩ := audience_append (h ++ earlier ++ [.added id listener]) later
  have hlater : later.any (Incident.removes id) = false := by
    simp only [List.any_append, List.any_cons, Bool.or_eq_false_iff] at stays
    exact stays.2.2
  have hsame : h ++ (earlier ++ .added id listener :: later) =
      h ++ earlier ++ [.added id listener] ++ later := by simp
  rw [hsame, heq]
  apply List.mem_append_left
  rw [List.mem_filter]
  exact ⟨hthen, by simp [hlater]⟩

/-- Who has been removed never comes back. -/
theorem not_mem_audience_of_removed {ops : List (Operation β)} {id : ListenerId}
    (removed : .removed id true ∈ history ops) :
    id ∉ (audience (history ops)).map Prod.fst := by
  have hnodup := nodup_numbers ops
  obtain ⟨earlier, later, hsplit⟩ := List.append_of_mem removed
  have hwas : id ∈ numbers earlier :=
    (audience_sublist earlier).subset (((accounts_after ops).answers _ _ _ _ hsplit).mp rfl)
  have hsame : history ops = earlier ++ [.removed id true] ++ later := by simp [hsplit]
  rw [hsame, numbers_append, numbers_append] at hnodup
  rw [hsame]
  obtain ⟨newer, heq, hnewer⟩ := audience_append (earlier ++ [.removed id true]) later
  intro hmem
  obtain ⟨l, hl, rfl⟩ := List.mem_map.mp hmem
  rw [heq, audience_snoc] at hl
  rcases List.mem_append.mp hl with hold | hnew
  · -- he is not among those who were left
    have hleft := (List.mem_filter.mp (List.mem_filter.mp hold).1).2
    simp at hleft
  · -- nor has his number been given again
    have hagain : l.1 ∈ numbers later := List.mem_filterMap.mpr ⟨_, hnewer l hnew, rfl⟩
    have hapart := (List.nodup_append.mp hnodup).2.2
    exact hapart l.1 (List.mem_append_left _ hwas) l.1 hagain rfl

/-! ### Hearing -/

theorem after_append (ops more : List (Operation β)) :
    after (ops ++ more) = ((after ops).run more).2 := by
  simp only [after, run_append]

theorem hearings_dispatch (ops : List (Operation β)) (e : Event) (react : Reaction β) :
    hearings ((after ops).perform (.dispatch e react)).1 =
      if ops.any Operation.isLast then [] else (audience (history ops)).map fun l => (l.1, e) := by
  rw [hearings_perform_dispatch, terminated_after, (accounts_after ops).registered]

theorem hearings_change (ls : Listeners β) (c : ListenerChange β) :
    hearings (ls.perform (.change c)).1 = [] := by
  cases c <;> rfl

/-- Who hears something in the course of further operations is in the audience of one of
    them. -/
theorem mem_audience_of_hearing {ops more : List (Operation β)} {id : ListenerId} {e : Event}
    (hears : (id, e) ∈ hearings ((after ops).run more).1) :
    ∃ earlier, earlier <+: more ∧ ops.any Operation.isLast = false ∧
      id ∈ (audience (history (ops ++ earlier))).map Prod.fst := by
  induction more using List.reverseRecOn with
  | nil => cases hears
  | append_singleton more op ih =>
    rw [run_append, hearings_append, ← after_append] at hears
    rcases List.mem_append.mp hears with hbefore | hnow
    · obtain ⟨earlier, begins, going, hmem⟩ := ih hbefore
      exact ⟨earlier, begins.trans (List.prefix_append _ _), going, hmem⟩
    · have hop : (id, e) ∈ hearings ((after (ops ++ more)).perform op).1 := by
        simpa [run] using hnow
      refine ⟨more, List.prefix_append _ _, ?_⟩
      cases op with
      | change c =>
        rw [hearings_change] at hop
        cases hop
      | dispatch e' react =>
        rw [hearings_dispatch, List.any_append] at hop
        split at hop
        · cases hop
        · next going =>
          rw [Bool.not_eq_true, Bool.or_eq_false_iff] at going
          obtain ⟨l, hl, heq⟩ := List.mem_map.mp hop
          exact ⟨going.1, List.mem_map.mpr ⟨l, hl, congrArg Prod.fst heq⟩⟩

/-- Who has heard something has got his number before. -/
theorem mem_numbers_of_hearing {ops : List (Operation β)} {id : ListenerId} {e : Event}
    (hears : (id, e) ∈ hearings (history ops)) : id ∈ numbers (history ops) := by
  have hrun : (id, e) ∈ hearings ((after []).run ops).1 := hears
  obtain ⟨earlier, ⟨rest, rfl⟩, -, hmem⟩ := mem_audience_of_hearing hrun
  rw [history_append, numbers_append]
  exact List.mem_append_left _ ((audience_sublist _).subset hmem)

/-! ### The whole run -/

/-- What a run of a registry comes to, and what it comes to with one more operation or with
    many. -/
structure FansOut (ops : List (Operation β)) : Prop where
  /-- Until the last event has been delivered, an event is heard by those who are registered
      when its delivery begins, by each once, in the order of their registration and after
      all that was heard before.  From then on it is heard by nobody. -/
  heard : ∀ e react, hearings (history (ops ++ [.dispatch e react])) = hearings (history ops) ++
    if ops.any Operation.isLast then [] else (audience (history ops)).map fun l => (l.1, e)
  unheard : ∀ c, hearings (history (ops ++ [.change c])) = hearings (history ops)
  silent : ops.any Operation.isLast = true → ∀ more,
    hearings (history (ops ++ more)) = hearings (history ops)
  /-- Those who hear an event, and what has become of the registry then. -/
  dispatched : ∀ e react, (after ops).dispatch react e =
    (if ops.any Operation.isLast then [] else (audience (history ops)).map Prod.fst,
      after (ops ++ [.dispatch e react]))
  registered : (after ops).registered = audience (history ops)
  /-- The order of registration is that of the numbers, … -/
  ascending : ((audience (history ops)).map Prod.fst).Pairwise (· < ·)
  /-- … which are given one after the other, so that none is given twice. -/
  counted : numbers (history ops) = List.range' 1 (numbers (history ops)).length
  /-- At any time, also within a delivery, the answer to a removal says whether the listener
      is registered. -/
  answered : ∀ earlier id answer later, history ops = earlier ++ .removed id answer :: later →
    (answer = true ↔ id ∈ (audience earlier).map Prod.fst)
  /-- A removal leaves everybody else in his place, and who comes goes to the end. -/
  placed : ∀ more, ∃ newer, audience (history (ops ++ more)) =
      (audience (history ops)).filter
        (fun p => !((after ops).run more).1.any (Incident.removes p.1)) ++ newer ∧
      ∀ p ∈ newer, .added p.1 p.2 ∈ ((after ops).run more).1
  /-- Who is added while an event is delivered does not hear this event but is there for the
      next, unless he is removed before. -/
  comes : ∀ e react id listener,
    .added id listener ∈ ((after ops).perform (.dispatch e react)).1 →
      (∀ e', (id, e') ∉ hearings (history (ops ++ [.dispatch e react]))) ∧
      ∀ more, ((after ops).run (.dispatch e react :: more)).1.any (Incident.removes id) = false →
        (id, listener) ∈ audience (history (ops ++ .dispatch e react :: more))
  /-- Who has been removed, within a delivery or not, hears no event after that one. -/
  goes : ∀ id, .removed id true ∈ history ops → ∀ more e,
    (id, e) ∉ hearings ((after ops).run more).1

/-- **Each event goes to those who were there when its delivery began.** -/
theorem fansOut (ops : List (Operation β)) : FansOut ops where
  heard e react := by
    rw [history_snoc, hearings_append, hearings_dispatch]
  unheard c := by
    rw [history_snoc, hearings_append, hearings_change, List.append_nil]
  silent := by
    intro past more
    rw [history_append, hearings_append]
    have hnobody : hearings ((after ops).run more).1 = [] := by
      apply List.eq_nil_iff_forall_not_mem.mpr
      rintro ⟨id, e⟩ hears
      obtain ⟨-, -, going, -⟩ := mem_audience_of_hearing hears
      rw [past] at going
      cases going
    rw [hnobody, List.append_nil]
  dispatched := by
    intro e react
    apply Prod.ext
    · have hregistered := (accounts_after ops).registered
      simp only [dispatch, terminated_after, hregistered]
      split <;> rfl
    · rw [after_snoc, perform_dispatch_registry]
  registered := (accounts_after ops).registered
  ascending := by
    apply List.Pairwise.sublist (audience_sublist _)
    rw [(accounts_after ops).numbers]
    exact List.pairwise_lt_range'
  counted := by
    rw [(accounts_after ops).numbers, List.length_range']
  answered := (accounts_after ops).answers
  placed := by
    intro more
    rw [history_append]
    exact audience_append _ _
  comes := by
    intro e react id listener added
    have hround : .added id listener ∈ ((after ops).run [.dispatch e react]).1 := by
      simpa [run] using added
    constructor
    · intro e' hears
      have hnumber : id ∈ numbers (history ops) := by
        rw [history_snoc, hearings_append] at hears
        rcases List.mem_append.mp hears with hbefore | hnow
        · exact mem_numbers_of_hearing hbefore
        · rw [hearings_dispatch] at hnow
          split at hnow
          · cases hnow
          · obtain ⟨l, hl, heq⟩ := List.mem_map.mp hnow
            have hplace := (audience_sublist _).subset (List.mem_map_of_mem (f := Prod.fst) hl)
            rwa [congrArg Prod.fst heq] at hplace
      have hagain : id ∈ numbers ((after ops).perform (.dispatch e react)).1 :=
        List.mem_filterMap.mpr ⟨_, added, rfl⟩
      have hnodup := nodup_numbers (ops ++ [.dispatch e react])
      rw [history_snoc, numbers_append] at hnodup
      exact (List.nodup_append.mp hnodup).2.2 id hnumber id hagain rfl
    · intro more stays
      rw [history_append]
      apply mem_audience_of_added _ stays
      rw [← List.singleton_append, run_append]
      exact List.mem_append_left _ hround
  goes := by
    intro id removed more e hears
    obtain ⟨earlier, -, -, hmem⟩ := mem_audience_of_hearing hears
    apply not_mem_audience_of_removed _ hmem
    rw [history_append]
    exact List.mem_append_left _ removed

/-- The first listener removes the second and itself, and adds a third: the second hears the
    event all the same, the third only the next. -/
example :
    let react : Reaction String := fun _ l =>
      if l.2 = "first" then [.remove 2, .remove 1, .add "third"] else []
    hearings (history [.change (.add "first"), .change (.add "second"),
      .dispatch (.started 1) react, .dispatch .terminated react,
      .dispatch (.started 2) react]) =
      [(1, .started 1), (2, .started 1), (3, .terminated)] := by
  decide

end Listeners

end Pushdown
