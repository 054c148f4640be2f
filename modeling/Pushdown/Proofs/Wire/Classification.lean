/-
  Pushdown/Proofs/Wire/Classification.lean
  ========================================
  **What a line is taken for.**  The text before the first space decides whether a line can be
  an event or a reply (`OpensWith`).  A reply has a token and a body, `IsAddressed` says where,
  and the body is one of the known ways to report an outcome or it is unreadable
  (`Outcome.IsSaid`).  Both relations are read off the text and not off the reader, and the
  reader agrees with them in both directions (`readReply?_eq_some`, `readOutcome_eq_iff`).

  A line may be written in more ways than one: with more blanks, leading zeros, or no space
  before an empty text.  What it is taken for has one line of its own, and that line is taken
  for the same again.  `classifies` has all this for every line.
-/
import Pushdown.Proofs.Wire.Messages

namespace Pushdown

open Text

theorem eq_append_ofList {text word : String} {rest : List Char}
    (h : text.toList = word.toList ++ rest) : text = word ++ String.ofList rest := by
  rw [← String.toList_inj, h, String.toList_append, String.toList_ofList]

/-! ### The first word -/

/-- The word stands before the first space of the line, or it is the whole line. -/
def OpensWith (word line : String) : Prop :=
  ' ' ∉ word.toList ∧ ∃ text tail, IsTail text tail ∧ line = word ++ tail

theorem opensWith_keywordOf (line : String) : OpensWith (Event.keywordOf line) line := by
  have hsplit := List.takeWhile_append_dropWhile (p := (· != ' ')) (l := line.toList)
  have hhead := List.head?_dropWhile_not (· != ' ') line.toList
  constructor
  · rw [Event.keywordOf, String.toList_ofList]
    intro hspace
    simpa using List.mem_takeWhile_imp hspace
  · cases hrest : line.toList.dropWhile (· != ' ') with
    | nil =>
      refine ⟨"", "", .bare, ?_⟩
      rw [hrest, List.append_nil] at hsplit
      rw [Event.keywordOf, hsplit, String.ofList_toList, String.append_empty]
    | cons c rest =>
      rw [hrest] at hsplit hhead
      obtain rfl : c = ' ' := by simpa using hhead
      refine ⟨String.ofList rest, _, .spaced _, ?_⟩
      rw [← String.toList_inj, ← hsplit]
      simp [Event.keywordOf, String.toList_append]

theorem keywordOf_eq_iff {word line : String} :
    Event.keywordOf line = word ↔ OpensWith word line := by
  constructor
  · rintro rfl
    exact opensWith_keywordOf line
  · rintro ⟨hword, text, tail, follows, rfl⟩
    exact keywordOf_append hword follows

theorem isEventLine_iff {word line : String} (opens : OpensWith word line) :
    Event.isEventLine line = true ↔ word ∈ Event.keywords := by
  rw [Event.isEventLine, keywordOf_eq_iff.mpr opens]
  exact List.contains_iff_mem

/-! ### Outcomes -/

/-- What a body says: one of the outcomes that can be stated, or nothing that can be read. -/
inductive Outcome.IsSaid : Outcome → String → Prop
  | stated {outcome : Outcome} {body : String} (stated : outcome.IsStated body) :
      IsSaid outcome body
  | unreadable {body : String} (unstated : ∀ outcome : Outcome, ¬outcome.IsStated body) :
      IsSaid (.unreadable body) body

theorem spanSigned_append (cs : List Char) : (spanSigned cs).1 ++ (spanSigned cs).2 = cs := by
  unfold spanSigned
  split <;> simp

theorem spanSigned_no_plus (cs : List Char) : (spanSigned cs).1.head? ≠ some '+' := by
  unfold spanSigned
  split
  · simp
  · intro hhead
    have hmem := List.mem_of_mem_head? hhead
    cases List.mem_takeWhile_imp hmem

theorem isStated_of_readFailure? {text : String} {outcome : Outcome}
    (h : readFailure? text.toList = some outcome) : outcome.IsStated ("error " ++ text) := by
  simp only [readFailure?, Option.bind_eq_bind, Option.bind_eq_some_iff] at h
  obtain ⟨code, hcode, message, hmessage, houtcome⟩ := h
  obtain rfl := Option.some.inj houtcome
  generalize hnumeral : (spanSigned text.toList).1 = numeral at hcode
  generalize htail : (spanSigned text.toList).2 = tail at hmessage
  have htext : text = String.ofList numeral ++ String.ofList tail := by
    refine eq_append_ofList ?_
    rw [String.toList_ofList, ← hnumeral, ← htail, spanSigned_append]
  have signed := (readInt64?_eq_some (hnumeral ▸ spanSigned_no_plus text.toList)).mp hcode
  rw [htext]
  refine .error (by rwa [String.toList_ofList]) (afterWord?_eq_some.mp ?_)
  rwa [String.toList_ofList, String.toList_ofList]

theorem isStated_or_unreadable (body : String) :
    (readOutcome body.toList).IsStated body ∨ readOutcome body.toList = .unreadable body := by
  unfold readOutcome
  split
  · next rest hbody =>
    have hok : body = "ok" ++ String.ofList rest := eq_append_ofList hbody
    cases hrest : afterWord? rest with
    | none => exact .inr (by simp)
    | some payload =>
      rw [hok]
      refine .inl (.ok (afterWord?_eq_some.mp ?_))
      simpa using hrest
  · next rest hbody =>
    have herror : body = "error " ++ String.ofList rest := eq_append_ofList hbody
    cases hrest : readFailure? rest with
    | none => exact .inr (by simp)
    | some outcome =>
      rw [herror]
      exact .inl (isStated_of_readFailure? (by simpa using hrest))
  · exact .inr (by simp)

theorem readOutcome_eq_iff {body : String} {outcome : Outcome} :
    readOutcome body.toList = outcome ↔ outcome.IsSaid body := by
  constructor
  · rintro rfl
    rcases isStated_or_unreadable body with stated | hunreadable
    · exact .stated stated
    · rw [hunreadable]
      refine .unreadable fun outcome stated => ?_
      -- such an outcome would have been read
      rw [readOutcome_of_isStated stated] at hunreadable
      rw [hunreadable] at stated
      cases stated
  · intro said
    cases said with
    | stated stated => exact readOutcome_of_isStated stated
    | unreadable unstated =>
      rcases isStated_or_unreadable body with stated | hunreadable
      · cases unstated _ stated
      · exact hunreadable

/-- The word cannot be the code of a failure: it has a foreign character, such as a plus sign
    or a digit of another script, or it is a number that does not fit. -/
inductive IsBadCode : String → Prop
  | foreign {code : String} {c : Char} (mem : c ∈ code.toList) (no_digit : c.isDigit = false)
      (no_minus : c ≠ '-') : IsBadCode code
  | wide {code : String} {i : Int} (signed : IsSigned code.toList i)
      (outside : i < -0x8000000000000000 ∨ 0x8000000000000000 ≤ i) : IsBadCode code

theorem IsBadCode.not_isSigned {code : String} (bad : IsBadCode code) (i : Int64) :
    ¬IsSigned code.toList i.toInt := by
  intro signed
  cases bad with
  | foreign mem no_digit no_minus =>
    rcases signed.isDigit_or_minus mem with digit | minus
    · cases no_digit.symm.trans digit
    · exact no_minus minus
  | wide signed' outside =>
    have hlow := i.le_toInt
    have hhigh := i.toInt_lt
    rw [signed'.unique signed] at outside
    omega

/-- The code of a failure is the whole word after `error`. -/
theorem not_isStated_of_isBadCode {code message tail : String} (bad : IsBadCode code)
    (one_word : ' ' ∉ code.toList) (follows : IsTail message tail) (outcome : Outcome) :
    ¬outcome.IsStated ("error " ++ (code ++ tail)) := by
  intro stated
  generalize hbody : "error " ++ (code ++ tail) = body at stated
  cases stated with
  | ok =>
    have hhead := congrArg (fun s : String => s.toList.head?) hbody
    simp [String.toList_append] at hhead
  | @error _ numeral message' tail' signed follows' =>
    have hrest : code ++ tail = numeral ++ tail' := by
      simpa [← String.toList_inj, String.toList_append] using hbody
    have hspace : ' ' ∉ numeral.toList := by
      intro hmem
      rcases signed.isDigit_or_minus hmem with digit | minus
      · cases digit
      · cases minus
    have hcode : code = numeral := by
      rw [← keywordOf_append one_word follows, hrest, keywordOf_append hspace follows']
    exact bad.not_isSigned _ (hcode ▸ signed)

/-! ### Replies -/

/-- The line is a hash sign, a token in digits that fits, and then the body after one space,
    or nothing at all. -/
inductive IsAddressed : Nat → String → String → Prop
  | intro {token : Nat} {numeral body tail : String} (digits : IsDigits numeral.toList token)
      (fits : token < UInt64.size) (follows : IsTail body tail) (one_line : '\n' ∉ body.toList) :
      IsAddressed token body ("#" ++ (numeral ++ tail))

theorem isAddressed_of_readReply? {line : String} {r : Reply}
    (h : readReply? line.toList = some r) :
    ∃ body, IsAddressed r.token body line ∧ r.outcome.IsSaid body := by
  unfold readReply? at h
  split at h
  · next rest hline =>
    simp only [Option.bind_eq_bind, Option.bind_eq_some_iff] at h
    obtain ⟨token, htoken, body, hbody, h⟩ := h
    split at h
    · next hfits =>
      obtain rfl := Option.some.inj h
      simp only [Bool.and_eq_true, decide_eq_true_eq, Bool.not_eq_true', List.contains_eq_mem,
        decide_eq_false_iff_not] at hfits
      generalize hnumeral : rest.takeWhile Char.isDigit = numeral at htoken
      generalize htail : rest.dropWhile Char.isDigit = tail at hbody
      have hrest : numeral ++ tail = rest := by
        rw [← hnumeral, ← htail, List.takeWhile_append_dropWhile]
      have hline : line = "#" ++ String.ofList rest := eq_append_ofList hline
      rw [hline, ← hrest, String.ofList_append]
      refine ⟨String.ofList body, .intro ?_ hfits.1 (afterWord?_eq_some.mp ?_) ?_, ?_⟩
      · rw [String.toList_ofList]
        exact readDigits?_eq_some.mp htoken
      · rwa [String.toList_ofList, String.toList_ofList]
      · rw [String.toList_ofList]
        exact hfits.2
      · rw [← readOutcome_eq_iff, String.toList_ofList]
    · cases h
  · cases h

theorem readReply?_eq_some {line : String} {r : Reply} : readReply? line.toList = some r ↔
    ∃ body, IsAddressed r.token body line ∧ r.outcome.IsSaid body := by
  constructor
  · exact isAddressed_of_readReply?
  · rintro ⟨body, addressed, said⟩
    obtain ⟨token, outcome⟩ := r
    cases addressed with
    | intro digits fits follows one_line =>
      exact readReply?_of_isDigits digits fits follows one_line (readOutcome_eq_iff.mpr said)

/-! ### Events -/

theorem StopReason.isSendable_ofWords {ws : List String} (hws : ∀ w ∈ ws, IsWord w.toList) :
    (ofWords ws).IsSendable := by
  by_cases known : IsKnown ws
  · cases known with
    | client | step | drop => trivial
    | breakpoint number => simp only [ofWords, number, IsSendable]
    | watch => exact ⟨hws _ (by simp), hws _ (by simp)⟩
    | event => exact hws _ (by simp)
  · rw [ofWords_of_not_isKnown known]
    exact ⟨ws, hws, known, rfl⟩

theorem ResumeReason.isSendable_ofWords {ws : List String} (hws : ∀ w ∈ ws, IsWord w.toList) :
    (ofWords ws).IsSendable := by
  by_cases known : IsKnown ws
  · cases known with
    | client | step | drop => trivial
  · rw [ofWords_of_not_isKnown known]
    exact ⟨ws, hws, known, rfl⟩

/-- The reason of an event that has been read can be told apart. -/
theorem Event.isReadable_of_ofLine? {e : Event} {line : String} (h : ofLine? line = some e) :
    e.IsReadable := by
  have hwords : ∀ w ∈ wordsOf line, IsWord w.toList := fun _ hw => isWord_of_mem_wordsOf hw
  unfold ofLine? at h
  split at h
  · cases h
    trivial
  · change ofWords? (wordsOf line) = some e at h
    generalize wordsOf line = ws at h hwords
    unfold ofWords? at h
    split at h
    · obtain ⟨t, -, rfl⟩ := Option.map_eq_some_iff.mp h
      trivial
    · obtain ⟨t, -, rfl⟩ := Option.map_eq_some_iff.mp h
      trivial
    · next thread reason =>
      obtain ⟨t, -, rfl⟩ := Option.map_eq_some_iff.mp h
      refine StopReason.isSendable_ofWords fun w hw => hwords w ?_
      exact List.mem_cons_of_mem _ (List.mem_cons_of_mem _ hw)
    · next thread reason =>
      obtain ⟨t, -, rfl⟩ := Option.map_eq_some_iff.mp h
      refine ResumeReason.isSendable_ofWords fun w hw => hwords w ?_
      exact List.mem_cons_of_mem _ (List.mem_cons_of_mem _ hw)
    · cases h
      trivial
    · cases h

/-! ### Lines -/

namespace Incoming

variable {line : String}

theorem ofLine_eq_event {e : Event} :
    ofLine line = .event e ↔ Event.isEventLine line = true ∧ Event.ofLine? line = some e := by
  unfold ofLine
  split
  · next isEvent => cases h : Event.ofLine? line <;> simp [isEvent]
  · next noEvent => cases h : readReply? line.toList <;> simp [noEvent]

theorem ofLine_eq_reply {r : Reply} : ofLine line = .reply r ↔
    ∃ body, IsAddressed r.token body line ∧ r.outcome.IsSaid body := by
  rw [← readReply?_eq_some]
  unfold ofLine
  split
  · next isEvent =>
    have hreply : readReply? line.toList ≠ some r := by
      intro h
      obtain ⟨body, ⟨-, -, -, -⟩, -⟩ := isAddressed_of_readReply? h
      cases isEvent.symm.trans (isEventLine_of_hash _)
    cases h : Event.ofLine? line <;> simp [hreply]
  · cases h : readReply? line.toList <;> simp

theorem eq_of_ofLine_eq_malformed {text : String} (h : ofLine line = .malformed text) :
    text = line := by
  unfold ofLine at h
  split at h
  · cases hread : Event.ofLine? line <;> simp_all
  · cases hread : readReply? line.toList <;> simp_all

end Incoming

theorem IsTail.not_mem {text tail : String} (follows : IsTail text tail) {c : Char}
    (hc : c ∉ tail.toList) : c ∉ text.toList := by
  cases follows with
  | spaced =>
    rw [String.toList_append] at hc
    exact fun hmem => hc (List.mem_append_right _ hmem)
  | bare => exact hc

/-- The text of an outcome says the same as the body it was read from, -/
theorem Outcome.IsSaid.text {outcome : Outcome} {body : String} (said : outcome.IsSaid body) :
    outcome.IsSaid outcome.text := by
  rcases outcome.isWritten_text with written | ⟨_, rfl⟩
  · exact .stated written.isStated
  · cases said with
    | stated stated => cases stated
    | unreadable unstated => exact .unreadable unstated

/-- and it is on one line if the body is. -/
theorem Outcome.IsSaid.one_line {outcome : Outcome} {body : String} (said : outcome.IsSaid body)
    (one_line : '\n' ∉ body.toList) : '\n' ∉ outcome.text.toList := by
  cases said with
  | stated stated =>
    cases stated with
    | ok follows =>
      rw [String.toList_append] at one_line
      have htail := follows.not_mem fun hmem => one_line (List.mem_append_right _ hmem)
      simpa [Outcome.text, String.toList_append] using htail
    | @error code _ _ _ signed follows =>
      rw [String.toList_append, String.toList_append] at one_line
      have htail := follows.not_mem fun hmem =>
        one_line (List.mem_append_right _ (List.mem_append_right _ hmem))
      have hcode := (isTidy_toString code).1
      simp [Outcome.text, String.toList_append, hcode, htail]
  | unreadable => exact one_line

theorem isAddressed_line {token : Nat} {outcome : Outcome} (fits : token < UInt64.size)
    (one_line : '\n' ∉ outcome.text.toList) :
    IsAddressed token outcome.text (Incoming.reply ⟨token, outcome⟩).line := by
  have htoken : (toString token).toList = digits token := Nat.toList_repr
  have addressed := IsAddressed.intro (htoken ▸ isDigits_digits token) fits
    (.spaced outcome.text) one_line
  rwa [← String.append_assoc, ← String.append_assoc] at addressed

/-- **Writing what a line is taken for changes nothing.** -/
theorem Incoming.ofLine_line (line : String) : ofLine (ofLine line).line = ofLine line := by
  cases hline : ofLine line with
  | reply r =>
    obtain ⟨token, outcome⟩ := r
    obtain ⟨body, addressed, said⟩ := ofLine_eq_reply.mp hline
    cases addressed with
    | intro _ fits _ one_line =>
      have addressed := isAddressed_line fits (said.one_line one_line)
      exact ofLine_eq_reply.mpr ⟨outcome.text, addressed, said.text⟩
  | event e =>
    have readable := Event.isReadable_of_ofLine? (ofLine_eq_event.mp hline).2
    have written := e.isWritten_line
    exact ofLine_eq_event.mpr ⟨Event.isEventLine_of_isWritten written,
      Event.ofLine?_of_isWritten readable written⟩
  | malformed text =>
    obtain rfl := eq_of_ofLine_eq_malformed hline
    exact hline

/-- What a line is taken for. -/
structure Classifies (line : String) : Prop where
  /-- The line has a first word, and it is determined by it. -/
  opening : ∃! word, OpensWith word line
  event : ∀ word, OpensWith word line → word ∈ Event.keywords →
    (∃ e, Incoming.ofLine line = .event e) ∨ Incoming.ofLine line = .malformed line
  other : ∀ word, OpensWith word line → word ∉ Event.keywords →
    (∃ r, Incoming.ofLine line = .reply r) ∨ Incoming.ofLine line = .malformed line
  reply : ∀ r, Incoming.ofLine line = .reply r ↔
    ∃ body, IsAddressed r.token body line ∧ r.outcome.IsSaid body
  /-- A body with a code that is none is unreadable. -/
  bad_code : ∀ token code message tail, IsBadCode code → ' ' ∉ code.toList → IsTail message tail →
    IsAddressed token ("error " ++ (code ++ tail)) line →
    Incoming.ofLine line = .reply ⟨token, .unreadable ("error " ++ (code ++ tail))⟩
  malformed : ∀ text, Incoming.ofLine line = .malformed text → text = line
  /-- What the line is taken for has a line that is taken for the same. -/
  again : Incoming.ofLine (Incoming.ofLine line).line = Incoming.ofLine line

/-- **Every line is taken for exactly what it says.** -/
theorem classifies (line : String) : Classifies line where
  opening := ⟨_, opensWith_keywordOf line, fun _ opens => (keywordOf_eq_iff.mpr opens).symm⟩
  event word opens keyword := by
    have isEvent := (isEventLine_iff opens).mpr keyword
    cases hread : Event.ofLine? line with
    | some e => exact .inl ⟨e, Incoming.ofLine_eq_event.mpr ⟨isEvent, hread⟩⟩
    | none => exact .inr (by simp [Incoming.ofLine, isEvent, hread])
  other word opens no_keyword := by
    have noEvent := mt (isEventLine_iff opens).mp no_keyword
    cases hread : readReply? line.toList with
    | some r => exact .inl ⟨r, by simp [Incoming.ofLine, noEvent, hread]⟩
    | none => exact .inr (by simp [Incoming.ofLine, noEvent, hread])
  reply _ := Incoming.ofLine_eq_reply
  bad_code token code message tail bad one_word follows addressed := by
    refine Incoming.ofLine_eq_reply.mpr ⟨_, addressed, ?_⟩
    exact .unreadable (not_isStated_of_isBadCode bad one_word follows)
  malformed _ := Incoming.eq_of_ofLine_eq_malformed
  again := Incoming.ofLine_line line

/-- A token with leading zeros, and a code with a plus sign. -/
example : Incoming.ofLine "#007 error +5 x" = .reply ⟨7, .unreadable "error +5 x"⟩ := by
  decide +kernel

/-- The largest token, and the first that does not fit. -/
example : Incoming.ofLine "#18446744073709551615" = .reply ⟨18446744073709551615, .unreadable ""⟩ ∧
    Incoming.ofLine "#18446744073709551616" = .malformed "#18446744073709551616" := by
  decide +kernel

end Pushdown
