/-
  Pushdown/Proofs/Link/Answers.lean
  =================================
  **Where a result comes from.**  A call that ends with a payload, with the failure
  that the VM reports, or with a reply that makes no sense, has got this from a
  reply.  `Answers` says from which one: the first that bore the token of the call
  since that token was drawn, taken in while the call was expecting it, and read in
  the form that belongs to the opcode of the call.

  A token is *spent* once a reply with it has been taken in: it is drawn already, and
  no call will ever expect it again.
-/
import Pushdown.Proofs.Link.Calls

namespace Pushdown

open Link

/-! ### Results that come from the VM -/

/-- The result says what the VM has replied. -/
def IsAnswer : Except Error Payload → Prop
  | .ok _ | .error (.commandFailed _ _ _) | .error (.malformedReply _) => True
  | .error _ => False

/-- What the outcome of a reply means to the caller of a command. -/
inductive Says (c : Command) : Outcome → Except Error Payload → Prop
  /-- The payload is read in the form that belongs to the command's own opcode. -/
  | payload {form : ReplyForm} {text : String}
      (own : ReplyForm.ofOpcode? c.opcode = some form) :
      Says c (.ok text) ((form.read text).mapError .malformedReply)
  /-- A failure is reported under the command's own opcode. -/
  | failed {code : Int64} {message : String} :
      Says c (.error code message) (.error (.commandFailed c.opcode code message))
  | unreadable {body : String} :
      Says c (.unreadable body) (.error (.malformedReply (.noOutcome c.text body)))

theorem says_outcomeOf (r : Request) (outcome : Outcome) :
    Says r.command outcome (outcomeOf r outcome) := by
  cases outcome with
  | ok text =>
    obtain ⟨form, own⟩ := ofOpcode?_opcode r.command
    have hread : outcomeOf r (.ok text) = (form.read text).mapError .malformedReply := by
      simp [outcomeOf, readReply, own]
    rw [hread]
    exact .payload own
  | error code message => exact .failed
  | unreadable body => exact .unreadable

theorem Says.isAnswer {c : Command} {outcome : Outcome} {result : Except Error Payload}
    (said : Says c outcome result) : IsAnswer result := by
  cases said with
  | @payload form text => cases form.read text <;> exact trivial
  | failed | unreadable => exact trivial

namespace Link

theorem refusal?_eq_some {l : Link} {turn : Turn} {e : Error} (h : l.refusal? turn = some e) :
    e = .connectionClosed ∨ e = .busy := by
  cases turn <;> simp only [refusal?] at h <;> split at h
  · exact Or.inl (Option.some.inj h).symm
  · cases h
  · exact Or.inl (Option.some.inj h).symm
  · split at h
    · cases h
    · exact Or.inr (Option.some.inj h).symm

theorem refusal?_not_answer {l : Link} {turn : Turn} {e : Error}
    (h : l.refusal? turn = some e) : ¬IsAnswer (.error e) := by
  rcases refusal?_eq_some h with rfl | rfl <;> exact id

theorem Wrote.not_answer {l l' : Link} {h : Holder} {result : Except Error Payload}
    (wrote : Wrote l h l' (.error result)) : ¬IsAnswer result := by
  cases wrote <;> exact id

/-- The call has the writer, and the reply to this request of it is expected. -/
def Awaits (l : Link) (t : Ticket) (r : Request) : Prop :=
  l.expected = some r ∧ ∃ h, l.holder = some h ∧ h.ticket = t ∧ h.request = r

theorem Sound.awaits {l : Link} (sound : l.Sound) {r : Request} (h : l.expected = some r) :
    ∃ t, l.Awaits t r := by
  obtain ⟨holder, held, hreq, -⟩ := sound.expected_holder r h
  exact ⟨holder.ticket, h, holder, held, rfl, hreq⟩

theorem Awaits.mem_tickets {l : Link} {t : Ticket} {r : Request} (h : l.Awaits t r) :
    t ∈ l.tickets := by
  obtain ⟨-, holder, held, rfl, -⟩ := h
  simp [tickets, held]

/-! ### Spent tokens -/

/-- The token is drawn, and no call expects a reply with it. -/
def Spent (l : Link) (token : Nat) : Prop :=
  token < l.nextToken ∧ ∀ r, l.expected = some r → r.token ≠ token

theorem begin_resolve_spent {l : Link} {reply : Reply}
    (drawn : reply.token < l.nextToken) : (l.begin (.resolve reply)).2.Spent reply.token := by
  have begun := begun_begin l (.resolve reply)
  generalize l.begin (.resolve reply) = r at begun ⊢
  cases begun with
  | handed => exact ⟨drawn, fun r hr => by cases hr⟩
  | stray stray => exact ⟨drawn, stray⟩

theorem Spent.begin {l : Link} {token : Nat} (spent : l.Spent token) (a : Action) :
    (l.begin a).2.Spent token :=
  ⟨(begin_nextToken l a).symm ▸ spent.1, fun r expected => spent.2 r (begin_expected expected)⟩

theorem Spent.grant {l : Link} {token : Nat} (spent : l.Spent token) (sound : l.Sound) :
    l.grant.Spent token := by
  obtain ⟨hdrawn, hexp⟩ := spent
  generalize hg : l.grant = g
  cases hg ▸ granted_grant sound with
  | unchanged => exact ⟨hdrawn, hexp⟩
  | acquired =>
    -- the token drawn now is newer than any that is spent
    constructor
    · exact Nat.lt_succ_of_lt hdrawn
    · rintro _ ⟨⟩
      exact Nat.ne_of_gt hdrawn

theorem Spent.turn {l : Link} {token : Nat} (spent : l.Spent token) (sound : l.Sound) :
    l.turn.2.Spent token := by
  obtain ⟨hdrawn, hexp⟩ := spent.grant sound
  have hturned := turned_turn sound
  exact ⟨hturned.nextToken_eq ▸ hdrawn, fun r hr => hexp r (hturned.expected_of hr)⟩

theorem Spent.step {l : Link} {token : Nat} (spent : l.Spent token) (sound : l.Sound)
    (a : Action) : (l.step a).2.Spent token := by
  have hsettled : (l.begin a).2.settle.2.Spent token :=
    turns_kept (P := fun l => l.Spent token) (fun _ sound spent => spent.turn sound)
      (sound.begin a) (spent.begin a)
  exact hsettled

theorem Spent.run {l : Link} {token : Nat} (spent : l.Spent token) (sound : l.Sound)
    (as : List Action) : (l.run as).2.Spent token := by
  induction as generalizing l with
  | nil => exact spent
  | cons a as ih => exact ih (spent.step sound a) (sound.step a)

end Link

namespace Setup

variable {s : Setup} {as : List Action}

/-- A reply was too early, or it has made its token a spent one. -/
theorem early_or_spent {before later : List Action} {reply : Reply}
    (split : as = before ++ .resolve reply :: later) :
    (s.after before).nextToken ≤ reply.token ∨ (s.after as).Spent reply.token := by
  refine s.induction (P := fun as _ l => ∀ before reply later,
    as = before ++ .resolve reply :: later →
      (s.after before).nextToken ≤ reply.token ∨ l.Spent reply.token)
    ?_ ?_ ?_ ?_ as before reply later split
  · intro before reply later h
    simp at h
  · intro as a _ ih before reply later h
    rcases snoc_eq_split h with ⟨rfl, rfl, -⟩ | ⟨later', -, has⟩
    · rcases Nat.lt_or_ge reply.token (s.after before).nextToken with hdrawn | hearly
      · exact Or.inr (begin_resolve_spent hdrawn)
      · exact Or.inl hearly
    · exact (ih before reply later' has).imp_right fun spent => spent.begin a
  · intro as history l sound ih before reply later h
    exact (ih before reply later h).imp_right fun spent => spent.turn sound
  · intro as history l reading _ ih before reply later h
    exact ih before reply later h

/-! ### The reply behind a result -/

/-- The result of the call is what this reply said: of the replies with the token of the
    call it is the first since the token was drawn, and it came while the call was
    expecting it. -/
structure Answers (s : Setup) (t : Ticket) (result : Except Error Payload)
    (before : List Action) (reply : Reply) : Prop where
  said : ∃ c turn, .send t turn c ∈ before ∧ (s.after before).Awaits t ⟨reply.token, c⟩ ∧
    Says c reply.outcome result
  first : ∀ before' reply' later', before = before' ++ .resolve reply' :: later' →
    reply'.token = reply.token → (s.after before').nextToken ≤ reply.token

/-- Some reply among the inputs is behind the result of the call. -/
def IsAnswered (s : Setup) (as : List Action) (t : Ticket) (result : Except Error Payload) :
    Prop :=
  ∃ before reply later, as = before ++ .resolve reply :: later ∧ s.Answers t result before reply

theorem IsAnswered.append {t : Ticket} {result : Except Error Payload}
    (h : s.IsAnswered as t result) (bs : List Action) : s.IsAnswered (as ++ bs) t result := by
  obtain ⟨before, reply, later, rfl, hanswers⟩ := h
  exact ⟨before, reply, later ++ bs, by simp, hanswers⟩

/-- Calls come from `send`, and what they have been handed or have ended with comes from
    replies. -/
structure Traced (s : Setup) (as : List Action) (finished : List Finished) (l : Link) :
    Prop where
  holder_sent : ∀ h, l.holder = some h → ∃ turn, .send h.ticket turn h.request.command ∈ as
  queue_sent : ∀ t c, ⟨t, .command c⟩ ∈ l.queue → ∃ turn, .send t turn c ∈ as
  handed_answered : ∀ h result, l.holder = some h → h.handed = some result →
    s.IsAnswered as h.ticket result
  finished_answered : ∀ t result, .command t result ∈ finished → IsAnswer result →
    s.IsAnswered as t result

theorem Traced.append {finished : List Finished} {l : Link} (traced : s.Traced as finished l)
    (bs : List Action) : s.Traced (as ++ bs) finished l where
  holder_sent h held := (traced.holder_sent h held).imp fun _ => List.mem_append_left bs
  queue_sent t c hq := (traced.queue_sent t c hq).imp fun _ => List.mem_append_left bs
  handed_answered h result held handed := (traced.handed_answered h result held handed).append bs
  finished_answered t result hf his := (traced.finished_answered t result hf his).append bs

theorem Traced.of_free {finished : List Finished} {l : Link} (free : l.holder = none)
    (queue : ∀ t c, ⟨t, .command c⟩ ∈ l.queue → ∃ turn, .send t turn c ∈ as)
    (results : ∀ t result, .command t result ∈ finished → IsAnswer result →
      s.IsAnswered as t result) : s.Traced as finished l where
  holder_sent h held := by rw [free] at held; cases held
  queue_sent := queue
  handed_answered h result held := by rw [free] at held; cases held
  finished_answered := results

theorem Traced.begin {l : Link} {finished : List Finished} (traced : s.Traced as finished l)
    (sound : l.Sound) (now : s.after as = l) (a : Action) :
    s.Traced (as ++ [a]) (finished ++ (l.begin a).1) (l.begin a).2 := by
  have hbefore := traced.append [a]
  have begun := begun_begin l a
  generalize l.begin a = r at begun ⊢
  cases begun with
  | turnedAway hrefused =>
    refine ⟨hbefore.holder_sent, hbefore.queue_sent, hbefore.handed_answered, ?_⟩
    intro t' result hmem his
    rcases List.mem_append.mp hmem with hmem | hmem
    · exact hbefore.finished_answered t' result hmem his
    · cases List.mem_singleton.mp hmem
      exact (refusal?_not_answer hrefused his).elim
  | @joins t turn c =>
    rw [List.append_nil]
    refine ⟨hbefore.holder_sent, ?_, hbefore.handed_answered, hbefore.finished_answered⟩
    intro t' c' hmem
    rcases List.mem_append.mp hmem with hmem | hmem
    · exact hbefore.queue_sent t' c' hmem
    · cases List.mem_singleton.mp hmem
      exact ⟨turn, by simp⟩
  | letsGo =>
    rw [List.append_nil]
    exact .of_free rfl hbefore.queue_sent hbefore.finished_answered
  | leaves =>
    rw [List.append_nil]
    exact ⟨hbefore.holder_sent, fun t' c hq => hbefore.queue_sent t' c (List.mem_filter.mp hq).1,
      hbefore.handed_answered, hbefore.finished_answered⟩
  | @handed r reply hexp htoken =>
    obtain ⟨h, held, rfl, hover⟩ := sound.handOver_eq hexp
    obtain ⟨turn, hsent⟩ := traced.holder_sent h held
    rw [List.append_nil, hover]
    refine ⟨?_, hbefore.queue_sent, ?_, hbefore.finished_answered⟩
    · rintro _ ⟨⟩
      exact hbefore.holder_sent h held
    · rintro _ _ ⟨⟩ ⟨⟩
      refine ⟨as, reply, [], rfl, ⟨h.request.command, turn, hsent, ?_, says_outcomeOf _ _⟩, ?_⟩
      · rw [now, ← htoken]
        exact ⟨hexp, h, held, rfl, rfl⟩
      · intro before' reply' later' hsplit hsame
        rcases early_or_spent (s := s) hsplit with hearly | spent
        · exact hsame ▸ hearly
        · exact (spent.2 _ (now ▸ hexp) (htoken.trans hsame.symm)).elim
  | shutsDown =>
    rw [List.append_nil]
    refine ⟨hbefore.holder_sent, ?_, hbefore.handed_answered, hbefore.finished_answered⟩
    intro t' c hmem
    rcases List.mem_append.mp hmem with hmem | hmem
    · exact hbefore.queue_sent t' c hmem
    · simp at hmem
  | _ =>
    rw [List.append_nil]
    exact ⟨hbefore.holder_sent, hbefore.queue_sent, hbefore.handed_answered,
      hbefore.finished_answered⟩

theorem Traced.grant {l : Link} {finished : List Finished} (traced : s.Traced as finished l)
    (sound : l.Sound) : s.Traced as finished l.grant := by
  generalize hg : l.grant = g
  cases hg ▸ granted_grant sound with
  | unchanged => exact traced
  | @acquired t c rest _ hqueue =>
    refine ⟨?_, ?_, ?_, traced.finished_answered⟩
    · rintro _ ⟨⟩
      exact traced.queue_sent t c (by simp [hqueue])
    · intro t' c' hq
      exact traced.queue_sent t' c' (hqueue ▸ List.mem_cons_of_mem _ hq)
    · rintro _ result ⟨⟩ handed
      cases handed

theorem Traced.turn {l : Link} {finished : List Finished} (traced : s.Traced as finished l)
    (sound : l.Sound) : s.Traced as (finished ++ l.turn.1.toList) l.turn.2 := by
  have hgrant := traced.grant sound
  have turned := turned_turn sound
  generalize l.turn = r at turned ⊢
  generalize l.grant = g at *
  -- after a call that is over the writer is free, so only its result is left to explain
  have hover : ∀ (g' : Link) (f : Finished), g'.holder = none → (∀ q ∈ g'.queue, q ∈ g.queue) →
      (∀ t result, f = .command t result → IsAnswer result → s.IsAnswered as t result) →
      s.Traced as (finished ++ [f]) g' := by
    intro g' f free hqueue hresult
    refine .of_free free (fun t c hq => hgrant.queue_sent t c (hqueue _ hq)) ?_
    intro t result hmem his
    rcases List.mem_append.mp hmem with hmem | hmem
    · exact hgrant.finished_answered t result hmem his
    · exact hresult t result (List.mem_singleton.mp hmem).symm his
  cases turned with
  | idle => simpa using hgrant
  | refused held =>
    refine hover _ _ rfl (fun q hq => hq) ?_
    rintro t result ⟨⟩ his
    exact his.elim
  | dismissed free hqueue =>
    refine hover _ _ free (fun q hq => hqueue ▸ List.mem_cons_of_mem _ hq) ?_
    rintro t result ⟨⟩ his
    exact his.elim
  | shuts free hqueue =>
    refine hover _ _ free (fun q hq => hqueue ▸ List.mem_cons_of_mem _ hq) ?_
    rintro t result ⟨⟩
  | @goesOn h _ _ held isOpen polled =>
    have hsame := polled.wrote_ok.holder_eq
    refine ⟨?_, ?_, ?_, by simpa using hgrant.finished_answered⟩
    · rintro _ ⟨⟩
      rw [hsame]
      exact hgrant.holder_sent h held
    · intro t c hq
      exact hgrant.queue_sent t c (polled.wrote_ok.queue_eq ▸ hq)
    · rintro _ result ⟨⟩ handed
      rw [hsame] at handed ⊢
      exact hgrant.handed_answered h result held handed
  | ended held isOpen polled =>
    obtain ⟨p, wrote⟩ := polled.wrote
    refine hover _ _ rfl (fun q hq => wrote.queue_eq ▸ hq) ?_
    rintro t result ⟨⟩ his
    cases polled with
    | answered wrote _ handed =>
      rw [(wrote_of_eq wrote).holder_eq] at handed
      exact hgrant.handed_answered _ _ held handed
    | overdue => exact his.elim
    | failed wrote => exact ((wrote_of_eq wrote).not_answer his).elim

theorem traced (s : Setup) (as : List Action) : s.Traced as (s.finished as) (s.after as) := by
  refine s.induction (P := fun as history l => s.Traced as history.finished l)
    ?_ ?_ ?_ ?_ as
  · exact .of_free rfl (fun t c hq => by cases hq) (fun t result hf => by cases hf)
  · exact fun as a sound ih => ih.begin sound rfl a
  · exact fun as history l sound ih => ih.turn sound
  · exact fun as history l reading _ ih => ⟨ih.1, ih.2, ih.3, ih.4⟩

end Setup

end Pushdown
