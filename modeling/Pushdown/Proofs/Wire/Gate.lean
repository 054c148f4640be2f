/-
  Pushdown/Proofs/Wire/Gate.lean
  ==============================
  **Which events get through.**  A line is looked at twice.  The gate takes the text before
  the first space and lets the line through if that is a keyword; the reader then cuts the
  line into words at all blank characters, the ones at the front included.

  So the reader would take more lines than the gate lets through: those with blanks in front
  of the keyword or with another blank than a space behind it.  Such a line is thrown away
  although it has an event (`event_behind_tab`).  `letsThrough` says which lines these are,
  that none of them is taken for a reply, and that there is none among the lines that are
  blank only where they have spaces.
-/
import Pushdown.Proofs.Wire.Classification

namespace Pushdown

open Text

/-- The keyword of the event's line. -/
def Event.keyword : Event → String
  | .started _ => "started"
  | .exited _ => "exited"
  | .suspended _ _ => "suspended"
  | .resumed _ _ => "resumed"
  | .terminated => "terminated"
  | .output _ => "output"

namespace Event

theorem keyword_mem_keywords (e : Event) : e.keyword ∈ keywords := by
  cases e <;> simp [keyword, keywords]

theorem isWord_of_mem_keywords {word : String} (hword : word ∈ keywords) : IsWord word.toList := by
  have hall : ∀ word ∈ keywords, IsWord word.toList := by decide
  exact hall word hword

variable {e : Event} {line word : String}

/-! ### The first word -/

theorem wordsOf_of_opensWith (opens : OpensWith word line) (hword : IsWord word.toList) :
    ∃ later, wordsOf line = word :: later := by
  obtain ⟨-, text, tail, follows, rfl⟩ := opens
  exact ⟨_, wordsOf_append hword follows⟩

/-- The keyword of an event is the first word of its line. -/
theorem wordsOf_of_ofLine? (h : ofLine? line = some e) :
    ∃ later, wordsOf line = e.keyword :: later := by
  unfold ofLine? at h
  split at h
  · next houtput =>
    cases h
    have opens := keywordOf_eq_iff.mp houtput
    exact wordsOf_of_opensWith opens (isWord_of_mem_keywords (keyword_mem_keywords _))
  · change ofWords? (wordsOf line) = some e at h
    generalize wordsOf line = ws at h
    unfold ofWords? at h
    split at h
    · obtain ⟨t, -, rfl⟩ := Option.map_eq_some_iff.mp h
      exact ⟨_, rfl⟩
    · obtain ⟨t, -, rfl⟩ := Option.map_eq_some_iff.mp h
      exact ⟨_, rfl⟩
    · obtain ⟨t, -, rfl⟩ := Option.map_eq_some_iff.mp h
      exact ⟨_, rfl⟩
    · obtain ⟨t, -, rfl⟩ := Option.map_eq_some_iff.mp h
      exact ⟨_, rfl⟩
    · cases h
      exact ⟨_, rfl⟩
    · cases h

/-- The line begins with the keyword, blanks before it and a break behind it. -/
theorem exists_gap_of_ofLine? (h : ofLine? line = some e) :
    ∃ gap later, IsGap gap ∧ AtBreak later ∧
      line.toList = gap ++ (e.keyword.toList ++ later) := by
  obtain ⟨later, hwords⟩ := wordsOf_of_ofLine? h
  obtain ⟨-, rest, leads, -⟩ := isTyped_words line.toList
  have hlists : words line.toList = e.keyword.toList :: later.map String.toList := by
    rw [← List.map_cons, ← hwords, wordsOf, map_toList_ofList]
  rw [hlists] at leads
  generalize hline : line.toList = cs at leads
  cases leads with
  | cons blank apart _ => exact ⟨_, _, blank, apart, rfl⟩

/-! ### The gate -/

/-- The gate and the reader agree on a keyword only if it is the same. -/
theorem isEventLine_iff_opensWith (h : ofLine? line = some e) :
    isEventLine line = true ↔ OpensWith e.keyword line := by
  constructor
  · intro isEvent
    have opens := opensWith_keywordOf line
    have hmem := (isEventLine_iff opens).mp isEvent
    obtain ⟨later, hfirst⟩ := wordsOf_of_opensWith opens (isWord_of_mem_keywords hmem)
    obtain ⟨later', hkeyword⟩ := wordsOf_of_ofLine? h
    obtain ⟨heq, -⟩ := List.cons.inj (hfirst.symm.trans hkeyword)
    rwa [heq] at opens
  · exact fun opens => (isEventLine_iff opens).mpr e.keyword_mem_keywords

/-- A line that has an event is not taken for a reply. -/
theorem head?_of_ofLine? (h : ofLine? line = some e) : line.toList.head? ≠ some '#' := by
  obtain ⟨gap, later, blank, -, hline⟩ := exists_gap_of_ofLine? h
  rw [hline]
  cases gap with
  | nil =>
    have hword := isWord_of_mem_keywords e.keyword_mem_keywords
    rw [List.nil_append, List.head?_append_of_ne_nil _ hword.ne_nil]
    exact head?_of_mem_keywords e.keyword_mem_keywords
  | cons b gap =>
    intro hhash
    obtain rfl : b = '#' := Option.some.inj hhash
    cases blank '#' List.mem_cons_self

/-- The keyword is not where the gate looks for it: the line begins with a blank, or a blank
    other than a space stands behind the keyword. -/
def IsAstray (word line : String) : Prop :=
  (∃ c ∈ line.toList.head?, isBlank c = true) ∨
    ∃ c rest, line.toList = word.toList ++ c :: rest ∧ isBlank c = true ∧ c ≠ ' '

theorem opensWith_iff_toList :
    OpensWith word line ↔ ' ' ∉ word.toList ∧
      (line.toList = word.toList ∨ ∃ rest, line.toList = word.toList ++ ' ' :: rest) := by
  refine and_congr_right fun _ => ⟨?_, ?_⟩
  · rintro ⟨text, tail, follows, rfl⟩
    cases follows with
    | spaced => exact .inr ⟨text.toList, by simp [String.toList_append]⟩
    | bare => exact .inl (by rw [String.append_empty])
  · rintro (hline | ⟨rest, hline⟩)
    · exact ⟨"", "", .bare, by rw [String.append_empty, String.toList_inj.mp hline]⟩
    · refine ⟨String.ofList rest, _, .spaced _, String.toList_inj.mp ?_⟩
      rw [hline]
      simp [String.toList_append]

/-- An event is lost exactly on the lines on which its keyword is astray. -/
theorem not_opensWith_iff (h : ofLine? line = some e) :
    ¬OpensWith e.keyword line ↔ IsAstray e.keyword line := by
  have hword := isWord_of_mem_keywords e.keyword_mem_keywords
  have hspace : ' ' ∉ e.keyword.toList := by
    intro hmem
    cases hword.unbroken ' ' hmem
  rw [opensWith_iff_toList]
  obtain ⟨gap, later, blank, apart, hline⟩ := exists_gap_of_ofLine? h
  constructor
  · intro shut
    cases gap with
    | cons b gap =>
      refine .inl ⟨b, ?_, blank b List.mem_cons_self⟩
      rw [hline]
      rfl
    | nil =>
      cases later with
      | nil => exact (shut ⟨hspace, .inl (by simpa using hline)⟩).elim
      | cons c later =>
        refine .inr ⟨c, later, hline, apart c rfl, ?_⟩
        rintro rfl
        exact shut ⟨hspace, .inr ⟨later, hline⟩⟩
  · rintro (⟨c, hc, hblank⟩ | ⟨c, rest, hrest, hblank, hother⟩) ⟨-, opens⟩
    · -- the line would begin with the keyword, which begins with no blank
      have hhead : c ∈ e.keyword.toList.head? := by
        rcases opens with hline | ⟨rest, hline⟩
        · rwa [hline] at hc
        · rwa [hline, List.head?_append_of_ne_nil _ hword.ne_nil] at hc
      cases hblank.symm.trans (hword.unbroken c (List.mem_of_mem_head? hhead))
    · rw [hrest] at opens
      rcases opens with hline | ⟨rest', hline⟩
      · simp at hline
      · obtain ⟨rfl, -⟩ := List.cons.inj (List.append_cancel_left hline)
        exact hother rfl

end Event

/-- What becomes of the event that can be read from a line. -/
structure LetsThrough (line : String) : Prop where
  /-- What the line is taken for is the event that is read from it, if the keyword stands
      where the gate looks for it. -/
  event : ∀ e, Incoming.ofLine line = .event e ↔
    Event.ofLine? line = some e ∧ OpensWith e.keyword line
  /-- The line of an event that does not get through is malformed, -/
  fate : ∀ e, Event.ofLine? line = some e →
    Incoming.ofLine line = .event e ∨ Incoming.ofLine line = .malformed line
  /-- and it is so exactly if the keyword is astray. -/
  lost : ∀ e, Event.ofLine? line = some e →
    (Incoming.ofLine line = .malformed line ↔ Event.IsAstray e.keyword line)
  /-- No output is ever lost. -/
  output : ∀ text, Event.ofLine? line = some (.output text) ↔
    Incoming.ofLine line = .event (.output text)
  /-- The gate and the reader agree on the lines that hold no blanks but spaces, and none of
      these at the front. -/
  spaced : (∀ c ∈ line.toList, isBlank c = true → c = ' ') → line.toList.head? ≠ some ' ' →
    ∀ e, Incoming.ofLine line = .event e ↔ Event.ofLine? line = some e

/-- **The gate lets an event through unless its keyword is astray.** -/
theorem letsThrough (line : String) : LetsThrough line := by
  have event : ∀ e, Incoming.ofLine line = .event e ↔
      Event.ofLine? line = some e ∧ OpensWith e.keyword line := by
    intro e
    rw [Incoming.ofLine_eq_event, and_comm]
    exact and_congr_right fun h => Event.isEventLine_iff_opensWith h
  have malformed : ∀ e, Event.ofLine? line = some e → ¬OpensWith e.keyword line →
      Incoming.ofLine line = .malformed line := by
    intro e h shut
    have noReply : readReply? line.toList = none := by
      rw [Option.eq_none_iff_forall_ne_some]
      intro r hr
      obtain ⟨body, ⟨-, -, -, -⟩, -⟩ := isAddressed_of_readReply? hr
      exact Event.head?_of_ofLine? h (by simp [String.toList_append])
    have noEvent := mt (Event.isEventLine_iff_opensWith h).mp shut
    simp [Incoming.ofLine, noEvent, noReply]
  have lost : ∀ e, Event.ofLine? line = some e →
      (Incoming.ofLine line = .malformed line ↔ Event.IsAstray e.keyword line) := by
    intro e h
    rw [← Event.not_opensWith_iff h]
    refine ⟨fun hline opens => ?_, malformed e h⟩
    cases hline.symm.trans ((event e).mpr ⟨h, opens⟩)
  refine ⟨event, fun e h => ?_, lost, fun text => ?_, fun spaces starts e => ?_⟩
  · by_cases opens : OpensWith e.keyword line
    · exact .inl ((event e).mpr ⟨h, opens⟩)
    · exact .inr (malformed e h opens)
  · refine ⟨fun h => (event _).mpr ⟨h, ?_⟩, fun h => ((event _).mp h).1⟩
    unfold Event.ofLine? at h
    split at h
    · next hkeyword => exact keywordOf_eq_iff.mp hkeyword
    · next hother =>
      -- words alone make no output
      change Event.ofWords? (wordsOf line) = _ at h
      unfold Event.ofWords? at h
      split at h <;> simp at h
  · refine ⟨fun h => ((event e).mp h).1, fun h => (event e).mpr ⟨h, ?_⟩⟩
    by_contra shut
    rcases (Event.not_opensWith_iff h).mp shut with ⟨c, hc, blank⟩ | ⟨c, rest, hline, blank, hother⟩
    · obtain rfl := spaces c (List.mem_of_mem_head? hc) blank
      exact starts hc
    · exact hother (spaces c (by simp [hline]) blank)

/-- A tab behind the keyword: the reader takes the line for an event, but it is thrown away. -/
theorem event_behind_tab :
    Event.ofLine? "started\t1" = some (.started 1) ∧
      Event.isEventLine "started\t1" = false ∧
      Incoming.ofLine "started\t1" = .malformed "started\t1" := by
  decide +kernel

end Pushdown
