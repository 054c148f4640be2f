/-
  Pushdown/Proofs/Model/Plans.lean
  ================================
  **The plans of the operations.**  Each operation on the model goes through fixed stages,
  with the thread, the frame and the path of its node as their arguments.  What is asked
  about a suspension is asked between two looks at the thread, and the epoch that the first
  look has found is the one that the second look is for (`Plan.about`).

  No operation fails because a name is not one word, when it is one, nor because a payload
  has another shape than is asked for, since the payload has been read as what its command
  is answered with.
-/
import Pushdown.Proofs.Model.Shown
import Pushdown.Proofs.Script.Follows
import Pushdown.Proofs.Wire.Shapes
import Pushdown.Text.Spacing

namespace Pushdown

open Text Script

/-- Ask about a suspension of the thread, which must be the same before and afterwards. -/
def Plan.about (t : ThreadId) (c : Command) : Plan := [.suspended t, .ask c, .suspended t]

@[simp] theorem Plan.commands_about (t : ThreadId) (c : Command) (plan : Plan) :
    Plan.commands (about t c ++ plan) = c :: plan.commands := rfl

section

-- What the VM answers belongs to the command.
variable {Answer : Command → Payload → Prop} {Q : Option Nat → Unit → Prop} {epoch : Option Nat}
  (answers : ∀ c payload, Answer c payload → c.IsAnsweredBy payload)

/-! ### Parts of operations -/

theorem follows_requireWord {role : NameRole} {name : String} (word : IsWord name.toList)
    (good : Q epoch ()) : (requireWord role name).Follows Answer Q epoch [] := by
  have hempty : name.isEmpty = false := by simpa using word.ne_nil
  have hany : name.toList.any isBlank = false := by
    rw [List.any_eq_false]
    intro c hc
    simp [word.unbroken c hc]
  rw [requireWord, hempty, hany]
  exact follows_pure good

include answers in
theorem follows_acknowledged {c : Command} (form : ReplyForm.ofOpcode? c.opcode = some .nothing)
    (good : Q epoch ()) : (acknowledged c).Follows Answer Q epoch [.ask c] := by
  refine follows_request.andThen ?_
  rintro _ payload ⟨rfl, answer⟩
  exact follows_lift (Payload.toAck_of_shape ((answers c payload answer).shape form)) good

include answers in
/-- A command with a name in it. -/
theorem follows_named {role : NameRole} {name : String} {c : Command} (word : IsWord name.toList)
    (form : ReplyForm.ofOpcode? c.opcode = some .nothing) :
    (requireWord role name >>= fun _ => acknowledged c).Follows Answer (fun _ _ => True) epoch
      [.ask c] :=
  (follows_requireWord (Q := fun _ _ => True) word trivial).quietly fun _ _ _ =>
    follows_acknowledged answers form trivial

namespace FrameRef

variable {r : FrameRef}

theorem follows_check : r.check.Follows Answer (fun e _ => e = some r.epoch) (some r.epoch)
    [.suspended r.thread] :=
  follows_require_again (follows_pure rfl)

include answers

theorem follows_children (path : Option String) :
    (r.children path).Follows Answer (fun e _ => e = some r.epoch) (some r.epoch)
      (Plan.about r.thread (.children r.thread r.frame path)) := by
  refine follows_check.andThen ?_
  rintro _ _ rfl
  refine follows_request.andThen ?_
  rintro _ payload ⟨rfl, answer⟩
  obtain ⟨fields, hfields⟩ := Payload.toStrings_of_shape ((answers _ payload answer).shape rfl)
  refine (follows_lift (Q := fun e _ => e = some r.epoch) hfields rfl).quietly ?_
  rintro _ _ rfl
  refine follows_check.lastly ?_
  rintro _ _ rfl
  exact follows_pure rfl

theorem follows_fetch (path : String) :
    (r.fetch path).Follows Answer (fun e v => e = some r.epoch ∧ v.ref = r ∧ v.path = path)
      (some r.epoch) (Plan.about r.thread (.var r.thread r.frame path)) := by
  refine follows_check.andThen ?_
  rintro _ _ rfl
  refine follows_request.andThen ?_
  rintro _ payload ⟨rfl, answer⟩
  obtain ⟨content, hcontent⟩ := Payload.toText_of_shape ((answers _ payload answer).shape rfl)
  refine (follows_lift (Q := fun e _ => e = some r.epoch) hcontent rfl).quietly ?_
  rintro _ _ rfl
  refine follows_check.lastly ?_
  rintro _ _ rfl
  exact follows_pure ⟨rfl, rfl, rfl⟩

end FrameRef

/-! ### Operations -/

include answers

theorem StackFrame.follows_variableNamed {f : StackFrame} {name : String}
    (word : IsWord name.toList) :
    (f.variableNamed name).Follows Answer
      (fun e v => e = some f.ref.epoch ∧ v.ref = f.ref ∧ v.path = name) (some f.ref.epoch)
      (Plan.about f.ref.thread (.var f.ref.thread f.ref.frame name)) := by
  refine (follows_requireWord (Q := fun e _ => e = some f.ref.epoch) word rfl).quietly ?_
  rintro _ _ rfl
  exact FrameRef.follows_fetch answers name

theorem Variable.follows_setValue {v : Variable} (content : String) :
    (v.setValue content).Follows Answer (fun _ _ => True) (some v.ref.epoch)
      (.suspended v.ref.thread :: .ask (.setVar v.ref.thread v.ref.frame v.path content) ::
        Plan.about v.ref.thread (.var v.ref.thread v.ref.frame v.path)) := by
  refine FrameRef.follows_check.andThen ?_
  rintro _ _ rfl
  refine (follows_acknowledged (Q := fun e _ => e = some v.ref.epoch) answers rfl rfl).andThen ?_
  rintro _ _ rfl
  exact (FrameRef.follows_fetch answers v.path).mono fun _ _ _ => trivial

namespace Thread

variable {t : ThreadId}

theorem follows_stackFrames :
    (stackFrames t).Follows Answer (fun e frames => ∃ found stack, e = some found ∧
      Answer (.stack t) (.frames stack) ∧ frames = framesFrom t found stack) none
      (Plan.about t (.stack t)) := by
  refine follows_require fun _ found _ => ?_
  refine follows_request.andThen ?_
  rintro _ payload ⟨rfl, answer⟩
  obtain ⟨stack, rfl, hstack⟩ := Payload.toFrames_of_shape ((answers _ _ answer).shape rfl)
  refine (follows_lift (Q := fun e frames => e = some found ∧ frames = stack) hstack
    ⟨rfl, rfl⟩).quietly ?_
  rintro _ frames ⟨rfl, rfl⟩
  exact follows_require_again (follows_pure ⟨found, frames, rfl, answer, rfl⟩)

theorem follows_dataStack :
    (dataStack t).Follows Answer (fun _ _ => True) none [.suspended t, .ask (.data t)] := by
  refine follows_require fun _ _ _ => ?_
  refine follows_request.andThen ?_
  rintro _ payload ⟨-, answer⟩
  obtain ⟨fields, hfields⟩ := Payload.toStrings_of_shape ((answers _ payload answer).shape rfl)
  exact follows_lift hfields trivial

theorem follows_evaluate (expression : String) :
    (evaluate t expression).Follows Answer (fun _ _ => True) none
      [.suspended t, .ask (.eval t expression)] := by
  refine follows_require fun _ _ _ => ?_
  refine follows_request.andThen ?_
  rintro _ payload ⟨-, answer⟩
  obtain ⟨text, htext⟩ := Payload.toText_of_shape ((answers _ payload answer).shape rfl)
  refine (follows_lift (Q := fun _ _ => True) htext trivial).quietly fun _ _ _ => ?_
  exact follows_pure trivial

theorem follows_advance {c : Command} (form : ReplyForm.ofOpcode? c.opcode = some .nothing) :
    (advance t c).Follows Answer (fun _ _ => True) none [.suspended t, .ask c] := by
  refine follows_require fun _ _ _ => ?_
  exact follows_acknowledged answers form trivial

end Thread

namespace Target

theorem follows_threads :
    threads.Follows Answer (fun _ _ => True) epoch [.ask .threads] := by
  refine follows_request.andThen ?_
  rintro _ payload ⟨-, answer⟩
  obtain ⟨ids, hids⟩ := Payload.toThreads_of_shape ((answers _ payload answer).shape rfl)
  exact follows_lift hids trivial

theorem follows_vmState :
    vmState.Follows Answer (fun _ _ => True) epoch [.ask (.state none)] := by
  refine follows_request.andThen ?_
  rintro _ payload ⟨-, answer⟩
  obtain ⟨text, htext⟩ := Payload.toText_of_shape ((answers _ payload answer).shape rfl)
  exact follows_lift htext trivial

end Target

end

end Pushdown
