/-
  Pushdown/Proofs/Link/Input.lean
  ===============================
  **What an input changes at once.**  `Begun` lists all that can come of an input before
  any turn is taken: a call joins the queue or is turned away, a call goes away, a reply
  is handed over or thrown away, the link is closed, time goes on, or the VM does
  something with its end of the pipe.

  No input writes, draws a token, gives the writer to a call, or makes a reply expected.
-/
import Pushdown.Link.Step

namespace Pushdown

namespace Link

@[simp] theorem release_holder (l : Link) (token : Nat) : (l.release token).holder = none := rfl

@[simp] theorem release_queue (l : Link) (token : Nat) :
    (l.release token).queue = l.queue := rfl

@[simp] theorem release_pipe (l : Link) (token : Nat) : (l.release token).pipe = l.pipe := rfl

@[simp] theorem release_expected (l : Link) (token : Nat) :
    (l.release token).expected = l.expected.filter (fun r => r.token != token) := rfl

/-- The queue without a call. -/
def without (l : Link) (t : Ticket) : Link :=
  { l with queue := l.queue.filter (fun q => q.ticket != t) }

/-- What may come of an input: calls that are turned away, and the link. -/
inductive Begun (l : Link) : Action → List Finished × Link → Prop
  | turnedAway {t : Ticket} {turn : Turn} {c : Command} {e : Error}
      (why : l.refusal? turn = some e) : Begun l (.send t turn c) ([.command t (.error e)], l)
  | joins {t : Ticket} {turn : Turn} {c : Command} (welcome : l.refusal? turn = none) :
      Begun l (.send t turn c) ([], l.enqueue ⟨t, .command c⟩)
  | letsGo {h : Holder} (held : l.holder = some h) :
      Begun l (.cancel h.ticket) ([], l.release h.request.token)
  | leaves {t : Ticket} (other : ∀ h, l.holder = some h → h.ticket ≠ t) :
      Begun l (.cancel t) ([], l.without t)
  | handed {r : Request} {reply : Reply} (expected : l.expected = some r)
      (own : r.token = reply.token) :
      Begun l (.resolve reply) ([], { l with
        expected := none
        holder := l.holder.map (handOver r (outcomeOf r reply.outcome)) })
  | stray {reply : Reply} (stray : ∀ r, l.expected = some r → r.token ≠ reply.token) :
      Begun l (.resolve reply) ([], l)
  | closes : Begun l .close ([], l.close)
  | shutsDown {t : Ticket} :
      Begun l (.shutdown t) ([], l.close.enqueue ⟨t, .shutdown (l.clock + shutdownGrace)⟩)
  | goesOn {ms : Nat} : Begun l (.advance ms) ([], l.advance ms)
  | reads : Begun l .read ([], l.setReading true)
  | hangsUp : Begun l .dropReader ([], l.dropReader)

theorem begin_eq (l : Link) {a : Action} (h : a ≠ .read) : l.begin a = l.perform a := by
  have hself : l.setReading (l.pipe.reading || decide (a = .read)) = l := by
    simp [h, setReading]
  rw [begin, hself]

theorem begun_begin (l : Link) (a : Action) : Begun l a (l.begin a) := by
  by_cases hread : a = .read
  · subst hread
    have hbegin : l.begin .read = ([], l.setReading true) := by simp [begin, perform]
    rw [hbegin]
    exact .reads
  rw [begin_eq l hread]
  cases a with
  | send t turn c =>
    simp only [perform]
    split
    · next e hrefusal => exact .turnedAway hrefusal
    · next hrefusal => exact .joins hrefusal
  | cancel t =>
    simp only [perform, cancel]
    split
    · next h held =>
      split
      · next heq =>
        subst heq
        exact .letsGo held
      · next hne =>
        apply Begun.leaves
        intro h' held'
        rwa [Option.some.inj (held'.symm.trans held)]
    · next free =>
      apply Begun.leaves
      intro h held
      rw [free] at held
      cases held
  | resolve reply =>
    simp only [perform, resolve]
    split
    · next r hexp =>
      split
      · next htoken => exact .handed hexp htoken
      · next hne =>
        apply Begun.stray
        intro r' hexp'
        rwa [Option.some.inj (hexp'.symm.trans hexp)]
    · next hexp =>
      apply Begun.stray
      intro r' hexp'
      rw [hexp] at hexp'
      cases hexp'
  | advance ms => exact .goesOn
  | close => exact .closes
  | shutdown t => exact .shutsDown
  | read => exact (hread rfl).elim
  | dropReader => exact .hangsUp

/-! ### What stays -/

theorem begin_buffer (l : Link) (a : Action) : (l.begin a).2.buffer = l.buffer := by
  have begun := begun_begin l a
  generalize l.begin a = r at begun ⊢
  cases begun <;> rfl

theorem begin_nextToken (l : Link) (a : Action) : (l.begin a).2.nextToken = l.nextToken := by
  have begun := begun_begin l a
  generalize l.begin a = r at begun ⊢
  cases begun <;> rfl

theorem begin_closed {l : Link} (a : Action) (isClosed : l.closed = true) :
    (l.begin a).2.closed = true := by
  have begun := begun_begin l a
  generalize l.begin a = r at begun ⊢
  cases begun with
  | closes | shutsDown => rfl
  | _ => exact isClosed

theorem begin_expected {l : Link} {a : Action} {r : Request}
    (expected : (l.begin a).2.expected = some r) : l.expected = some r := by
  have begun := begun_begin l a
  generalize l.begin a = result at begun expected
  cases begun with
  | letsGo => exact (Option.filter_eq_some_iff.mp expected).1
  | handed | closes | shutsDown => cases expected
  | _ => exact expected

theorem begin_holder {l : Link} {a : Action} {h' : Holder}
    (held : (l.begin a).2.holder = some h') :
    ∃ h, l.holder = some h ∧ h'.ticket = h.ticket ∧ h'.request = h.request ∧
      h'.phase = h.phase ∧ h'.since = h.since := by
  have begun := begun_begin l a
  generalize l.begin a = result at begun held
  cases begun with
  | letsGo => cases held
  | handed =>
    obtain ⟨h, hwas, rfl⟩ := Option.map_eq_some_iff.mp held
    refine ⟨h, hwas, ?_⟩
    unfold handOver
    split <;> exact ⟨rfl, rfl, rfl, rfl⟩
  | _ => exact ⟨h', held, rfl, rfl, rfl, rfl⟩

/-! ### The pipe -/

/-- All that an input changes of the pipe at once is whether the VM reads, or is there. -/
theorem begin_pipe (l : Link) (a : Action) :
    (l.begin a).2.pipe =
      { l.pipe with
        reading := l.pipe.reading || a = .read
        readerGone := l.pipe.readerGone || a = .dropReader } := by
  have begun := begun_begin l a
  generalize l.begin a = r at begun ⊢
  cases begun <;> simp [enqueue, without, close, advance, setReading, dropReader]

theorem begin_reading (l : Link) (a : Action) :
    (l.begin a).2.pipe.reading = (l.pipe.reading || a = .read) := by
  rw [begin_pipe]

theorem begin_content (l : Link) (a : Action) :
    (l.begin a).2.pipe.content = l.pipe.content := by
  rw [begin_pipe]

/-! ### Calls -/

/-- The calls that have the writer or wait for it, the oldest first. -/
def tickets (l : Link) : List Ticket :=
  l.holder.toList.map Holder.ticket ++ l.queue.map Queued.ticket

/-- The call that an input begins. -/
def Action.ticket? : Action → Option Ticket
  | .send t _ _ | .shutdown t => some t
  | _ => none

theorem mem_without {l : Link} {t : Ticket} {q : Queued} (there : q ∈ l.queue)
    (gone : q ∉ (l.without t).queue) : q.ticket = t := by
  by_cases hticket : q.ticket = t
  · exact hticket
  · exact (gone (List.mem_filter.mpr ⟨there, by simpa using hticket⟩)).elim

/-- A reply that is handed over leaves the holder's call and command as they are. -/
theorem map_handOver {β : Type} {g : Holder → β}
    (kept : ∀ h handed, g { h with handed } = g h) (o : Option Holder) (r : Request)
    (result : Except Error Payload) :
    (o.map (handOver r result)).toList.map g = o.toList.map g := by
  cases o with
  | none => rfl
  | some h =>
    simp only [Option.map_some, Option.toList_some, List.map_cons, List.map_nil, handOver]
    split <;> simp [kept]

/-- An input adds the call that it begins to the end of the queue, and takes away the
    call that it cancels. -/
theorem begin_queue (l : Link) (a : Action) :
    ∃ kept joined, (l.begin a).2.queue = kept ++ joined ∧ kept.Sublist l.queue ∧
      (joined.map Queued.ticket).Sublist a.ticket?.toList ∧
      ∀ q ∈ l.queue, q ∉ kept → a = .cancel q.ticket := by
  have begun := begun_begin l a
  generalize l.begin a = r at begun ⊢
  have hsame : ∀ q ∈ l.queue, q ∉ l.queue → a = .cancel q.ticket :=
    fun q hq hnot => (hnot hq).elim
  cases begun with
  | joins | shutsDown => exact ⟨l.queue, [_], rfl, .refl _, .refl _, hsame⟩
  | @leaves t =>
    refine ⟨(l.without t).queue, [], (List.append_nil _).symm, List.filter_sublist,
      List.nil_sublist _, ?_⟩
    intro q hq hnot
    rw [mem_without hq hnot]
  | _ => exact ⟨l.queue, [], (List.append_nil _).symm, .refl _, List.nil_sublist _, hsame⟩

/-- No call is lost by an input but the one that it cancels. -/
theorem begin_tickets (l : Link) (a : Action) :
    ∃ kept, kept.Sublist l.tickets ∧
      ((l.begin a).1.map Finished.ticket ++ (l.begin a).2.tickets).Perm
        (kept ++ a.ticket?.toList) ∧
      ∀ t ∈ l.tickets, t ∉ kept → a = .cancel t := by
  have begun := begun_begin l a
  generalize l.begin a = r at begun ⊢
  have hsame : ∀ t ∈ l.tickets, t ∉ l.tickets → a = .cancel t := fun t ht hnot => (hnot ht).elim
  cases begun with
  | turnedAway => exact ⟨l.tickets, .refl _, List.perm_append_comm, hsame⟩
  | joins | shutsDown =>
    refine ⟨l.tickets, .refl _, ?_, hsame⟩
    simp [tickets, enqueue, close, Action.ticket?]
  | @letsGo h held =>
    have htickets : l.tickets = h.ticket :: l.queue.map Queued.ticket := by simp [tickets, held]
    refine ⟨l.queue.map Queued.ticket, ?_, ?_, ?_⟩
    · rw [htickets]
      exact List.sublist_cons_self _ _
    · simp [tickets, Action.ticket?]
    · intro t ht hnot
      rw [htickets] at ht
      rcases List.mem_cons.mp ht with rfl | ht
      · rfl
      · exact (hnot ht).elim
  | @leaves t =>
    refine ⟨(l.without t).tickets, ?_, ?_, ?_⟩
    · exact (List.Sublist.refl _).append (List.filter_sublist.map _)
    · simp [Action.ticket?]
    · intro t' ht hnot
      rcases List.mem_append.mp ht with hholder | hqueue
      · exact (hnot (List.mem_append_left _ hholder)).elim
      · obtain ⟨q, hq, rfl⟩ := List.mem_map.mp hqueue
        have hgone : q ∉ (l.without t).queue := fun hstays =>
          hnot (List.mem_append_right _ (List.mem_map_of_mem hstays))
        rw [mem_without hq hgone]
  | handed =>
    refine ⟨l.tickets, .refl _, ?_, hsame⟩
    have hholder := map_handOver (g := Holder.ticket) fun _ _ => rfl
    simp [tickets, hholder, Action.ticket?]
  | _ =>
    refine ⟨l.tickets, .refl _, ?_, hsame⟩
    simp [tickets, close, advance, setReading, dropReader, Action.ticket?]

theorem begin_cancel_tickets {l : Link} (distinct : l.tickets.Nodup) (t : Ticket) :
    t ∉ (l.begin (.cancel t)).2.tickets := by
  have begun := begun_begin l (.cancel t)
  generalize l.begin (.cancel t) = r at begun ⊢
  cases begun with
  | @letsGo h held =>
    have hrest : h.ticket ∉ l.queue.map Queued.ticket := by
      simp only [tickets, held, Option.toList_some, List.map_cons, List.map_nil,
        List.cons_append, List.nil_append] at distinct
      exact (List.nodup_cons.mp distinct).1
    simpa [tickets] using hrest
  | leaves other =>
    simpa [tickets, without] using fun h held => other h held

end Link

end Pushdown
