/-
  Pushdown/Proofs/Link/Correlation.lean
  =====================================
  **Every reply goes to the call it answers.**  Whatever is sent, cancelled, timed out,
  answered and closed, in whatever order:

  * a call that ends with what the VM said has been told so by the first reply to its
    own request;
  * a reply decides the result of at most one call, and no call has two results;
  * a reply that nobody expects changes nothing, now or later.
-/
import Pushdown.Proofs.Link.Effect

namespace Pushdown

open Link

namespace Setup

/-- Replies and results belong together. -/
structure Correlated (s : Setup) (as : List Action) : Prop where
  /-- What the VM said to a call was said in the first reply with its token, while it was
      expected, and is read and reported under the opcode of that very call. -/
  answered : ∀ t result, .command t result ∈ s.finished as → IsAnswer result →
    s.IsAnswered as t result
  /-- No call ends twice. -/
  once : ((s.finished as).map Finished.ticket).Nodup
  /-- If the reply to a call had another outcome, only the result of this call could be
      another. -/
  one_call : ∀ t r reply outcome later, (s.after as).Awaits t r → r.token = reply.token →
    List.Forall₂ (Report.AgreeBut t) (s.reports (as ++ .resolve reply :: later))
      (s.reports (as ++ .resolve { reply with outcome } :: later))
  /-- A run goes on after a reply with another token as if the reply had not come. -/
  stray : ∀ reply later, (∀ r, (s.after as).expected = some r → r.token ≠ reply.token) →
    s.after (as ++ .resolve reply :: later) = s.after (as ++ later) ∧
    ∃ reports, s.reports (as ++ later) = s.reports as ++ reports ∧
      s.reports (as ++ .resolve reply :: later) = s.reports as ++ ⟨[], []⟩ :: reports
  /-- The token that is expected has been drawn, by a call that is neither over nor
      cancelled, and no reply with it has come since. -/
  pending : ∀ r, (s.after as).expected = some r →
    r.token < (s.after as).nextToken ∧
    (∃ t, (s.after as).Awaits t r ∧ t ∉ (s.finished as).map Finished.ticket ∧
      ¬IsCancelled as t) ∧
    ∀ before reply later, as = before ++ .resolve reply :: later → reply.token = r.token →
      (s.after before).nextToken ≤ r.token

variable {s : Setup} {as : List Action}

theorem agreeBut_of_awaits {t : Ticket} {r : Request} {reply : Reply} (outcome : Outcome)
    (later : List Action) (awaits : (s.after as).Awaits t r) (same : r.token = reply.token) :
    List.Forall₂ (Report.AgreeBut t) (s.reports (as ++ .resolve reply :: later))
      (s.reports (as ++ .resolve { reply with outcome } :: later)) := by
  have sound := s.sound as
  have hbegin : ∀ reply', (s.after as).begin (.resolve reply') =
      ([], (s.after as).resolve reply') := fun _ => begin_eq _ (by simp)
  have halike := resolve_alike awaits same outcome
  rw [reports_append, reports_append]
  apply List.rel_append
  · apply List.forall₂_same.mpr
    intro report _
    exact ⟨rfl, List.forall₂_same.mpr fun f _ => .same f⟩
  have hbegun : Alike t ((s.after as).begin (.resolve reply)).2
      ((s.after as).begin (.resolve { reply with outcome })).2 := by
    rw [hbegin, hbegin]
    exact halike
  obtain ⟨hreport, hnext⟩ := step_of_begin_alike rfl (by rw [hbegin, hbegin]) hbegun
    (sound.begin _) (sound.begin _)
  rw [run_cons, run_cons]
  exact .cons hreport (run_alike later hnext (sound.step _) (sound.step _))

theorem stray_resolve {reply : Reply} (later : List Action)
    (stray : ∀ r, (s.after as).expected = some r → r.token ≠ reply.token) :
    s.after (as ++ .resolve reply :: later) = s.after (as ++ later) ∧
    ∃ reports, s.reports (as ++ later) = s.reports as ++ reports ∧
      s.reports (as ++ .resolve reply :: later) = s.reports as ++ ⟨[], []⟩ :: reports := by
  have hstep := step_resolve_eq (s.sound as) (s.atRest as) stray
  refine ⟨?_, ((s.after as).run later).1, reports_append s as later, ?_⟩
  · rw [after_append, after_append, run_cons, hstep]
  · rw [reports_append, run_cons, hstep]

theorem pending_of_expected (own : OwnTickets as) {r : Request}
    (expected : (s.after as).expected = some r) :
    ∃ t, (s.after as).Awaits t r ∧ t ∉ (s.finished as).map Finished.ticket ∧
      ¬IsCancelled as t := by
  obtain ⟨t, awaits⟩ := (s.sound as).awaits expected
  have hthere := awaits.mem_tickets
  refine ⟨t, awaits, fun hover => ?_, fun hcancelled => cancelled_gone own hcancelled hthere⟩
  exact (List.nodup_append.mp (finished_nodup own)).2.2 t hover t hthere rfl

/-- **Correlation.**  In every run each reply goes to the call it answers. -/
theorem correlated (s : Setup) (as : List Action) (own : OwnTickets as) : s.Correlated as where
  answered := (s.traced as).finished_answered
  once := (List.nodup_append.mp (finished_nodup own)).1
  one_call t r reply outcome later := agreeBut_of_awaits outcome later
  stray reply later := stray_resolve later
  pending r expected := by
    obtain ⟨h, held, hreq, -⟩ := (s.sound as).expected_holder r expected
    have hnewest := (s.sound as).holder_newest h held
    refine ⟨by rw [← hreq]; omega, pending_of_expected own expected, ?_⟩
    intro before reply later hsplit hsame
    rcases early_or_spent (s := s) hsplit with hearly | spent
    · exact hsame ▸ hearly
    · exact (spent.2 r expected hsame.symm).elim

/-- One call is answered, and the reply to another comes when its time is over. -/
theorem correlated_late_reply :
    let s : Setup := ⟨64, false, some 50⟩
    let as : List Action := [.send 1 .wait (.step 1), .send 2 .wait .exit,
      .resolve ⟨1, .ok ""⟩, .advance 50, .resolve ⟨2, .ok ""⟩]
    OwnTickets as ∧ s.finished as =
      [.command 1 (.ok .ack), .command 2 (.error (.timeout "exit"))] ∧ s.Correlated as :=
  ⟨by decide, rfl, correlated _ _ (by decide)⟩

end Setup

end Pushdown
