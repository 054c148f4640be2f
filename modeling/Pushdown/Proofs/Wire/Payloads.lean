/-
  Pushdown/Proofs/Wire/Payloads.lean
  ==================================
  **A payload reads back.**  The VM writes a list into the payload of a reply with a
  separator between each two of its entries: a bar between the fields of a frame and a
  hash sign between the frames, or bars between paths and values in turn.  Nothing is
  escaped, so a text that holds a separator would be taken apart.  All other texts come
  back as they were, empty ones and numbers too (`readReply_stackText`,
  `readReply_childrenText`).
-/
import Pushdown.Model.Query
import Pushdown.Proofs.Wire.Fields
import Pushdown.Proofs.Wire.Messages

namespace Pushdown

open Text

/-- None of these characters is in the text. -/
def Lacks (separators : List Char) (text : String) : Prop := ∀ c ∈ separators, c ∉ text.toList

instance (separators : List Char) (text : String) : Decidable (Lacks separators text) :=
  List.decidableBAll (fun c => c ∉ text.toList) separators

namespace Lacks

variable {separators : List Char}

theorem mono {fewer : List Char} {text : String} (lacks : Lacks separators text)
    (sub : fewer.all separators.contains = true) : Lacks fewer text := by
  intro c hc
  exact lacks c (List.contains_iff_mem.mp (List.all_eq_true.mp sub c hc))

theorem isTidy {text : String} (lacks : Lacks ['\n', '\r'] text) : IsTidy text :=
  ⟨lacks '\n' (by decide), lacks '\r' (by decide)⟩

theorem intercalate {sep : String} (hsep : Lacks separators sep) {texts : List String}
    (htexts : ∀ text ∈ texts, Lacks separators text) : Lacks separators (sep.intercalate texts) :=
  fun c hc => not_mem_intercalate (hsep c hc) fun text htext => htexts text htext c hc

theorem numeral (n : UInt64) (signs : separators.any Char.isDigit = false) :
    Lacks separators (toString n) := by
  intro c hc hmem
  rw [toList_toString_uInt64] at hmem
  have hsign : c.isDigit = false := by simpa using List.any_eq_false.mp signs c hc
  exact ne_of_mem_digits hmem hsign rfl

end Lacks

/-! ### Fields -/

/-- The texts with a bar between each two. -/
def withBars (fields : List String) : String := "|".intercalate fields

theorem withBars_ne_empty {first second : String} (rest : List String) :
    withBars (first :: second :: rest) ≠ "" := by
  rw [withBars, String.intercalate_cons_cons, String.append_assoc]
  intro hempty
  simpa using congrArg String.toList hempty

theorem areParts_withBars {fields : List String} (hne : fields ≠ [])
    (apart : ∀ text ∈ fields, '|' ∉ text.toList) : AreParts '|' fields (withBars fields) :=
  ⟨hne, apart, rfl⟩

/-- The one list that cannot be told from the empty one has an empty text alone. -/
theorem fieldsOf_withBars {fields : List String} (apart : ∀ text ∈ fields, '|' ∉ text.toList)
    (several : fields ≠ [""]) : fieldsOf (withBars fields).toList = fields := by
  cases fields with
  | nil => rfl
  | cons field fields =>
    have parts := areParts_withBars (List.cons_ne_nil field fields) apart
    have hne : withBars (field :: fields) ≠ "" := by
      cases fields with
      | nil => simpa [withBars] using several
      | cons next fields => exact withBars_ne_empty fields
    rw [fieldsOf, if_neg (by simpa using hne), parts.cutAt_eq, map_ofList_toList]

/-! ### Frames -/

namespace FrameData

/-- The fields of a frame as the VM writes them. -/
def fields (f : FrameData) : List String :=
  f.file :: toString f.line :: f.function :: f.variableNames

def text (f : FrameData) : String := withBars f.fields

/-- None of the texts of the frame holds one of the separators. -/
def IsApart (f : FrameData) : Prop :=
  ∀ text ∈ f.file :: f.function :: f.variableNames, Lacks ['|', '#'] text

/-- The texts of the frame can be told apart in a reply. -/
def IsPlain (f : FrameData) : Prop :=
  ∀ text ∈ f.file :: f.function :: f.variableNames, Lacks ['|', '#', '\n', '\r'] text

instance (f : FrameData) : Decidable f.IsPlain :=
  List.decidableBAll _ _

variable {f : FrameData}

theorem IsPlain.isApart (plain : f.IsPlain) : f.IsApart :=
  fun text htext => (plain text htext).mono (by decide)

/-- What the texts of the frame lack, its fields lack. -/
theorem lacks_fields {separators : List Char} (signs : separators.any Char.isDigit = false)
    (lacks : ∀ text ∈ f.file :: f.function :: f.variableNames, Lacks separators text) :
    ∀ field ∈ f.fields, Lacks separators field := by
  obtain ⟨hfile, hrest⟩ := List.forall_mem_cons.mp lacks
  have hline : Lacks separators (toString f.line) := .numeral f.line signs
  exact List.forall_mem_cons.mpr ⟨hfile, List.forall_mem_cons.mpr ⟨hline, hrest⟩⟩

theorem isRead_text (apart : f.IsApart) : f.IsRead f.text := by
  have hfields := lacks_fields (by decide) apart
  refine ⟨toString f.line, ?_, Console.isNumeral_toString f.line⟩
  exact areParts_withBars (List.cons_ne_nil _ _)
    fun field hfield => hfields field hfield '|' (by decide)

theorem lacks_text {separators : List Char} (signs : separators.any Char.isDigit = false)
    (bar : '|' ∉ separators)
    (lacks : ∀ text ∈ f.file :: f.function :: f.variableNames, Lacks separators text) :
    Lacks separators f.text := by
  refine Lacks.intercalate (fun c hc hbar => bar ?_) (lacks_fields signs lacks)
  have heq : c = '|' := List.mem_singleton.mp hbar
  exact heq ▸ hc

theorem hash_not_mem_text (apart : f.IsApart) : '#' ∉ f.text.toList := by
  have hlacks : Lacks ['#'] f.text :=
    lacks_text (by decide) (by decide) fun text htext => (apart text htext).mono (by decide)
  exact hlacks '#' (by decide)

theorem text_ne_empty (f : FrameData) : f.text ≠ "" := withBars_ne_empty _

end FrameData

/-- A stack as the VM writes it, the outermost frame first. -/
def stackText (stack : List FrameData) : String := "#".intercalate (stack.map FrameData.text)

theorem readFrames_stackText {stack : List FrameData} (apart : ∀ f ∈ stack, f.IsApart) :
    readFrames (stackText stack).toList = .ok stack := by
  cases stack with
  | nil => rfl
  | cons f stack =>
    have parts : AreParts '#' ((f :: stack).map FrameData.text) (stackText (f :: stack)) :=
      ⟨List.cons_ne_nil _ _,
        List.forall_mem_map.mpr fun g hg => FrameData.hash_not_mem_text (apart g hg), rfl⟩
    have hall : ((f :: stack).map FrameData.text).filter (· ≠ "") =
        (f :: stack).map FrameData.text := by
      rw [List.filter_eq_self]
      exact List.forall_mem_map.mpr fun g _ => by simpa using g.text_ne_empty
    rw [readFrames_eq_ok parts, hall, List.forall₂_map_left_iff, List.forall₂_same]
    exact fun g hg => FrameData.isRead_text (apart g hg)

theorem fitsEnd_stackText {stack : List FrameData} (plain : ∀ f ∈ stack, f.IsPlain) :
    FitsEnd (stackText stack) := by
  have htexts : ∀ text ∈ stack.map FrameData.text, Lacks ['\n', '\r'] text := by
    refine List.forall_mem_map.mpr fun f hf => FrameData.lacks_text (by decide) (by decide) ?_
    exact fun text htext => (plain f hf text htext).mono (by decide)
  exact .of_isTidy (Lacks.intercalate (by decide) htexts).isTidy

/-- **The reply about a stack is read as that stack.** -/
theorem readReply_stackText (t : ThreadId) {stack : List FrameData}
    (plain : ∀ f ∈ stack, f.IsPlain) :
    readReply (Command.stack t).opcode (stackText stack) = .ok (.frames stack) := by
  change Except.mapError _ (Payload.frames <$> readFrames (stackText stack).toList) = _
  rw [readFrames_stackText fun f hf => (plain f hf).isApart]
  rfl

/-! ### Children -/

/-- Names and values in turn. -/
def inTurn (ps : List (String × String)) : List String := ps.flatMap fun p => [p.1, p.2]

/-- Paths and values as the VM writes them. -/
def childrenText (ps : List (String × String)) : String := withBars (inTurn ps)

theorem pairs_inTurn (ps : List (String × String)) : pairs (inTurn ps) = ps := by
  induction ps with
  | nil => rfl
  | cons p ps ih => exact congrArg (p :: ·) ih

theorem inTurn_length (ps : List (String × String)) : (inTurn ps).length = 2 * ps.length := by
  induction ps with
  | nil => rfl
  | cons p ps ih =>
    rw [inTurn, List.flatMap_cons, List.length_append, ← inTurn, ih, List.length_cons]
    exact Nat.add_comm 2 _

/-- The paths and values can be told apart in a reply. -/
def ArePlain (ps : List (String × String)) : Prop :=
  ∀ field ∈ inTurn ps, Lacks ['|', '\n', '\r'] field

instance (ps : List (String × String)) : Decidable (ArePlain ps) :=
  List.decidableBAll _ _

theorem fitsEnd_childrenText {ps : List (String × String)} (plain : ArePlain ps) :
    FitsEnd (childrenText ps) := by
  have hfields : ∀ field ∈ inTurn ps, Lacks ['\n', '\r'] field :=
    fun field hfield => (plain field hfield).mono (by decide)
  exact .of_isTidy (Lacks.intercalate (by decide) hfields).isTidy

/-- **The reply about children is read as their paths and values.** -/
theorem readReply_childrenText (r : FrameRef) (path : Option String)
    {ps : List (String × String)} (plain : ArePlain ps) :
    readReply (Command.children r.thread r.frame path).opcode (childrenText ps) =
      .ok (.strings (inTurn ps)) := by
  have hfields : fieldsOf (childrenText ps).toList = inTurn ps := by
    refine fieldsOf_withBars (fun field hfield => plain field hfield '|' (by decide)) ?_
    intro alone
    have hlength := inTurn_length ps
    rw [alone, List.length_singleton] at hlength
    omega
  change Except.mapError _ (ReplyForm.read (childrenText ps) .pairs) = _
  simp only [ReplyForm.read, hfields, inTurn_length, Nat.mul_mod_right, if_true]
  rfl

end Pushdown
