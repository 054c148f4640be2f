/-
  Pushdown/Proofs/Wire/Reasons.lean
  =================================
  **Reasons that nobody knows.**  A reason that is none of the known forms is meant to be kept
  as it is.  It is kept as its words, with single spaces between them, since the line has been
  cut into words before the reason is looked at.

  So a reason comes back unchanged exactly if it was spaced once before
  (`KeepsReasons.verbatim`).  Any other blanks in it are lost, and reasons that differ only
  in their blanks cannot be told apart (`KeepsReasons.alike`); `reason_respaced` has an
  instance.
-/
import Pushdown.Proofs.Wire.Lists

namespace Pushdown

open Text

theorem StopReason.IsKnown.ofWords_ne_other {ws : List String} (known : IsKnown ws)
    (text : String) : ofWords ws ≠ .other text := by
  cases known with
  | client | step | drop | watch | event => simp [ofWords]
  | breakpoint number => simp [ofWords, number]

theorem StopReason.ofWords_eq_other {ws : List String} {text : String} :
    ofWords ws = .other text ↔ ¬IsKnown ws ∧ text = unwords ws := by
  by_cases known : IsKnown ws
  · simp [known, known.ofWords_ne_other]
  · simp [known, ofWords_of_not_isKnown known, eq_comm]

theorem ResumeReason.IsKnown.ofWords_ne_other {ws : List String} (known : IsKnown ws)
    (text : String) : ofWords ws ≠ .other text := by
  cases known with
  | client | step | drop => simp [ofWords]

theorem ResumeReason.ofWords_eq_other {ws : List String} {text : String} :
    ofWords ws = .other text ↔ ¬IsKnown ws ∧ text = unwords ws := by
  by_cases known : IsKnown ws
  · simp [known, known.ofWords_ne_other]
  · simp [known, ofWords_of_not_isKnown known, eq_comm]

theorem ofLine?_suspended (t : ThreadId) (r : String) :
    Event.ofLine? ("suspended " ++ toString t ++ " " ++ r) =
      some (.suspended t (StopReason.ofWords (wordsOf r))) := by
  change Event.ofLine? ("suspended" ++ " " ++ toString t ++ " " ++ r) = _
  rw [String.append_assoc, String.append_assoc, ofLine?_thread (by decide) (by decide) t (.spaced r)]
  simp only [Event.ofWords?, readThread?_toString, Option.map_some]

theorem ofLine?_resumed (t : ThreadId) (r : String) :
    Event.ofLine? ("resumed " ++ toString t ++ " " ++ r) =
      some (.resumed t (ResumeReason.ofWords (wordsOf r))) := by
  change Event.ofLine? ("resumed" ++ " " ++ toString t ++ " " ++ r) = _
  rw [String.append_assoc, String.append_assoc, ofLine?_thread (by decide) (by decide) t (.spaced r)]
  simp only [Event.ofWords?, readThread?_toString, Option.map_some]

theorem unwords_wordsOf_eq_self_iff {text : String} :
    unwords (wordsOf text) = text ↔ IsSpacedOnce text.toList := by
  rw [← joinWith_words_eq_self_iff, ← String.toList_inj, toList_unwords, wordsOf,
    map_toList_ofList]

/-- How the reasons on a line are kept, if the event of an unknown one has its text and some
    reasons are known by their words. -/
structure KeepsReasons (lineOf : String → String) (eventOf : String → Event)
    (known : List String → Prop) : Prop where
  /-- An unknown reason is kept as its words. -/
  read : ∀ r ws, AreWords ws r → ∀ text,
    (Event.ofLine? (lineOf r) = some (eventOf text) ↔ ¬known ws ∧ text = unwords ws)
  verbatim : ∀ r ws, AreWords ws r →
    (Event.ofLine? (lineOf r) = some (eventOf r) ↔ ¬known ws ∧ IsSpacedOnce r.toList)
  /-- Unknown reasons of the same words cannot be told apart, all others can. -/
  alike : ∀ r r' ws ws', AreWords ws r → AreWords ws' r' → ¬known ws → ¬known ws' →
    (Event.ofLine? (lineOf r) = Event.ofLine? (lineOf r') ↔ ws = ws')

variable {lineOf : String → String} {eventOf : String → Event} {known : List String → Prop}

/-- All this follows from what is read. -/
theorem KeepsReasons.of_read (injective : ∀ text text', eventOf text = eventOf text' → text = text')
    (read : ∀ r text, Event.ofLine? (lineOf r) = some (eventOf text) ↔
      ¬known (wordsOf r) ∧ text = unwords (wordsOf r)) :
    KeepsReasons lineOf eventOf known where
  read r ws are text := by
    obtain rfl := wordsOf_eq_iff.mpr are
    exact read r text
  verbatim r ws are := by
    obtain rfl := wordsOf_eq_iff.mpr are
    rw [read, ← unwords_wordsOf_eq_self_iff, eq_comm (a := r)]
  alike r r' ws ws' are are' unknown unknown' := by
    have hunwords : ∀ s vs, AreWords vs s → ¬known vs →
        Event.ofLine? (lineOf s) = some (eventOf (unwords vs)) := by
      intro s vs are unknown
      obtain rfl := wordsOf_eq_iff.mpr are
      exact (read s _).mpr ⟨unknown, rfl⟩
    rw [hunwords r ws are unknown, hunwords r' ws' are' unknown']
    constructor
    · intro h
      have htext := injective _ _ (Option.some.inj h)
      rw [← wordsOf_unwords are.unbroken, htext, wordsOf_unwords are'.unbroken]
    · rintro rfl
      rfl

/-- **Unknown reasons are kept as their words**, of a stop as of a start. -/
theorem keepsReasons (t : ThreadId) :
    KeepsReasons (fun r => "suspended " ++ toString t ++ " " ++ r)
      (fun text => .suspended t (.other text)) StopReason.IsKnown ∧
    KeepsReasons (fun r => "resumed " ++ toString t ++ " " ++ r)
      (fun text => .resumed t (.other text)) ResumeReason.IsKnown := by
  constructor
  · refine .of_read (by simp) fun r text => ?_
    simp [ofLine?_suspended, StopReason.ofWords_eq_other]
  · refine .of_read (by simp) fun r text => ?_
    simp [ofLine?_resumed, ResumeReason.ofWords_eq_other]

/-- The two spaces in an unknown reason become one, and so it is taken for another reason. -/
theorem reason_respaced :
    IsText "a  b".toList ∧ '\n' ∉ "a  b".toList ∧ ¬StopReason.IsKnown (wordsOf "a  b") ∧
      Event.ofLine? "suspended 1 a  b" = some (.suspended 1 (.other "a b")) ∧
      Event.ofLine? "suspended 1 a  b" ≠ some (.suspended 1 (.other "a  b")) ∧
      Event.ofLine? "suspended 1 a  b" = Event.ofLine? "suspended 1 a b" := by
  have hother : StopReason.ofWords (wordsOf "a  b") = .other "a b" := by decide +kernel
  have htext : IsText "a  b".toList := ⟨by decide, by simp [isBlank], by simp [isBlank]⟩
  refine ⟨htext, by decide, ?_, ?_⟩
  · exact (StopReason.ofWords_eq_other.mp hother).1
  · decide +kernel

end Pushdown
