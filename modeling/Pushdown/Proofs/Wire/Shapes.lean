/-
  Pushdown/Proofs/Wire/Shapes.lean
  ================================
  **The shape of a payload.**  The form in which a command is answered determines the
  shape of the payload that is read (`readReply_shape`), and a payload of the right shape
  can be narrowed to it.  So `otherShape` is not among the faults that reading finds
  (`readReply_eq_error`), and nobody who asks for the shape that belongs to the
  command will ever see it.
-/
import Pushdown.Proofs.Wire.Fields

namespace Pushdown

open Text

def Payload.shape : Payload → Shape
  | ack => .ack
  | threads _ => .threads
  | frames _ => .frames
  | text _ => .text
  | integer _ => .integer
  | strings _ => .strings

/-- The shape of what is written in this form. -/
def ReplyForm.shape : ReplyForm → Shape
  | nothing => .ack
  | text => .text
  | integer => .integer
  | threads => .threads
  | fields | pairs => .strings
  | stack => .frames

/-! ### Reading -/

theorem ReplyForm.read_shape {form : ReplyForm} {text : String} {payload : Payload}
    (h : form.read text = .ok payload) : payload.shape = form.shape := by
  cases form with
  | text | fields =>
    cases h
    rfl
  | nothing | pairs =>
    simp only [read] at h
    split at h <;> cases h
    rfl
  | integer =>
    simp only [read] at h
    split at h <;> cases h
    rfl
  | threads =>
    obtain ⟨ids, -, rfl⟩ := map_eq_ok.mp h
    rfl
  | stack =>
    obtain ⟨stack, -, rfl⟩ := map_eq_ok.mp h
    rfl

theorem readReply_shape {opcode text : String} {payload : Payload} {form : ReplyForm}
    (answered : ReplyForm.ofOpcode? opcode = some form)
    (h : readReply opcode text = .ok payload) : payload.shape = form.shape := by
  exact ReplyForm.read_shape ((readReply_eq_ok answered).mp h)

/-- The payload has been read from a reply to this command. -/
def Command.IsAnsweredBy (c : Command) (payload : Payload) : Prop :=
  ∃ text, readReply c.opcode text = .ok payload

theorem Command.IsAnsweredBy.shape {c : Command} {payload : Payload} {form : ReplyForm}
    (answered : c.IsAnsweredBy payload) (form_eq : ReplyForm.ofOpcode? c.opcode = some form) :
    payload.shape = form.shape := by
  obtain ⟨text, h⟩ := answered
  exact readReply_shape form_eq h

/-- Only a request for the stack is answered by frames. -/
theorem Command.IsAnsweredBy.stack_of_frames {c : Command} {stack : List FrameData}
    (answered : c.IsAnsweredBy (.frames stack)) : ∃ t, c = .stack t := by
  cases c with
  | stack t => exact ⟨t, rfl⟩
  | _ => cases answered.shape rfl

/-! ### Narrowing -/

namespace Payload

variable {payload : Payload}

theorem toAck_of_shape (h : payload.shape = .ack) : payload.toAck = .ok () := by
  cases payload <;> cases h
  rfl

theorem toThreads_of_shape (h : payload.shape = .threads) : ∃ ids, payload.toThreads = .ok ids := by
  cases payload <;> cases h
  exact ⟨_, rfl⟩

theorem toFrames_of_shape (h : payload.shape = .frames) :
    ∃ stack, payload = .frames stack ∧ payload.toFrames = .ok stack := by
  cases payload <;> cases h
  exact ⟨_, rfl, rfl⟩

theorem toText_of_shape (h : payload.shape = .text) : ∃ text, payload.toText = .ok text := by
  cases payload <;> cases h
  exact ⟨_, rfl⟩

theorem toStrings_of_shape (h : payload.shape = .strings) :
    ∃ fields, payload.toStrings = .ok fields := by
  cases payload <;> cases h
  exact ⟨_, rfl⟩

end Payload

/-! ### Faults -/

/-- To read a payload finds no fault with its shape. -/
theorem ReplyForm.read_ne_otherShape {form : ReplyForm} {text : String} {fault : ReplyFault}
    (h : form.read text = .error fault) (wanted : Shape) (got : Payload) :
    fault ≠ .otherShape wanted got := by
  rintro rfl
  cases form with
  | text | fields => cases h
  | nothing | pairs =>
    simp only [read] at h
    split at h <;> cases h
  | integer =>
    simp only [read] at h
    split at h <;> cases h
  | threads =>
    obtain ⟨-, field, -, -, -, heq⟩ := mapM_eq_error.mp (map_eq_error.mp h)
    rw [← String.toList_ofList (l := field)] at heq
    cases (readNumber_eq_error.mp heq).2
  | stack =>
    obtain ⟨-, segment, -, -, -, heq⟩ := mapM_eq_error.mp (map_eq_error.mp h)
    rw [← String.toList_ofList (l := segment)] at heq
    cases readFrame_eq_error.mp heq

theorem readReply_eq_error {opcode text : String} {e : Error}
    (h : readReply opcode text = .error e) : ∃ fault, e = .malformedReply fault ∧
      ∀ wanted got, fault ≠ .otherShape wanted got := by
  cases answered : ReplyForm.ofOpcode? opcode with
  | some form =>
    obtain ⟨fault, hread, rfl⟩ := (readReply_eq_malformed answered).mp h
    exact ⟨fault, rfl, form.read_ne_otherShape hread⟩
  | none =>
    simp only [readReply, answered] at h
    cases h
    exact ⟨_, rfl, fun wanted got heq => by cases heq⟩

end Pushdown
