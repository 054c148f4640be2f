/-
  Pushdown/Proofs/Wire/Messages.lean
  ==================================
  **A message reads back from its line.**  `Incoming.IsWritten` is the grammar of the lines
  that the VM sends, one constructor for each form of message; where a text may follow a
  word, `IsTail` leaves out the space before an empty text or writes it.  Not every value
  of the type has a line of its own: words must be words, a text at the end of a line must
  not run into the next one, and an unknown reason must not look like a known one.
  `Incoming.IsSendable` says so.

  A message that is sendable and written by the grammar is the one that its line is taken
  for (`ofLine_of_isWritten`), and its line can be framed (`fitsEnd_of_isWritten`).
-/
import Pushdown.Text.Numeral
import Pushdown.Text.Spacing
import Pushdown.Wire.Incoming

namespace Pushdown

open Text

/-! ### What can be sent -/

/-- The text can stand at the end of a line: it is on one line, and no carriage return at
    its end would be taken for part of the line's end. -/
structure FitsEnd (text : String) : Prop where
  one_line : '\n' ∉ text.toList
  no_return : text.toList.getLast? ≠ some '\r'

/-- The words of a known reason for a stop. -/
inductive StopReason.IsKnown : List String → Prop
  | client : IsKnown ["client"]
  | step : IsKnown ["step"]
  | drop : IsKnown ["drop"]
  | breakpoint {line : String} {n : UInt64} (number : readUInt64? line.toList = some n) :
      IsKnown ["breakpoint", line]
  | watch {access name : String} : IsKnown ["watch", access, name]
  | event {name : String} : IsKnown ["event", name]

/-- The words of a known reason for a start. -/
inductive ResumeReason.IsKnown : List String → Prop
  | client : IsKnown ["client"]
  | step : IsKnown ["step"]
  | drop : IsKnown ["drop"]

/-- The text is some words with single spaces between them, and no known reason. -/
def IsOther (known : List String → Prop) (text : String) : Prop :=
  ∃ ws : List String, (∀ w ∈ ws, IsWord w.toList) ∧ ¬known ws ∧ text = unwords ws

def StopReason.IsSendable : StopReason → Prop
  | .client | .step | .drop | .breakpoint _ => True
  | .watch access name => IsWord access.toList ∧ IsWord name.toList
  | .event name => IsWord name.toList
  | .other text => IsOther IsKnown text

def ResumeReason.IsSendable : ResumeReason → Prop
  | .client | .step | .drop => True
  | .other text => IsOther IsKnown text

def Event.IsSendable : Event → Prop
  | .started _ | .exited _ | .terminated => True
  | .suspended _ reason => reason.IsSendable
  | .resumed _ reason => reason.IsSendable
  | .output text => FitsEnd text

/-- The reason of the event can be told apart. -/
def Event.IsReadable : Event → Prop
  | .suspended _ reason => reason.IsSendable
  | .resumed _ reason => reason.IsSendable
  | _ => True

theorem Event.IsSendable.isReadable {e : Event} (sendable : e.IsSendable) : e.IsReadable := by
  cases e with
  | suspended | resumed => exact sendable
  | started | exited | terminated | output => trivial

def Outcome.IsSendable : Outcome → Prop
  | .ok payload => FitsEnd payload
  | .error _ message => FitsEnd message
  | .unreadable _ => False

/-- Replies to tokens of 64 bits and events, of texts that can be told apart. -/
def Incoming.IsSendable : Incoming → Prop
  | .reply r => r.token < UInt64.size ∧ r.outcome.IsSendable
  | .event e => e.IsSendable
  | .malformed _ => False

/-! ### The grammar of the lines -/

/-- What follows a word before this text: a space and the text, or nothing at all if the
    text is empty. -/
inductive IsTail : String → String → Prop
  | spaced (text : String) : IsTail text (" " ++ text)
  | bare : IsTail "" ""

inductive Event.IsWritten : Event → String → Prop
  | started (t : ThreadId) : IsWritten (.started t) ("started " ++ toString t)
  | exited (t : ThreadId) : IsWritten (.exited t) ("exited " ++ toString t)
  | suspended (t : ThreadId) {reason : StopReason} {tail : String}
      (follows : IsTail reason.text tail) :
      IsWritten (.suspended t reason) ("suspended " ++ (toString t ++ tail))
  | resumed (t : ThreadId) {reason : ResumeReason} {tail : String}
      (follows : IsTail reason.text tail) :
      IsWritten (.resumed t reason) ("resumed " ++ (toString t ++ tail))
  | terminated : IsWritten .terminated "terminated"
  | output {text tail : String} (follows : IsTail text tail) :
      IsWritten (.output text) ("output" ++ tail)

inductive Outcome.IsWritten : Outcome → String → Prop
  | ok {payload tail : String} (follows : IsTail payload tail) :
      IsWritten (.ok payload) ("ok" ++ tail)
  | error (code : Int64) {message tail : String} (follows : IsTail message tail) :
      IsWritten (.error code message) ("error " ++ (toString code ++ tail))

/-- The ways to say that a command has succeeded or failed.  The code of a failure is any
    number with at most a minus sign. -/
inductive Outcome.IsStated : Outcome → String → Prop
  | ok {payload tail : String} (follows : IsTail payload tail) :
      IsStated (.ok payload) ("ok" ++ tail)
  | error {code : Int64} {numeral message tail : String}
      (signed : IsSigned numeral.toList code.toInt) (follows : IsTail message tail) :
      IsStated (.error code message) ("error " ++ (numeral ++ tail))

/-- The lines by which the VM may send the message. -/
inductive Incoming.IsWritten : Incoming → String → Prop
  | reply {token : Nat} {outcome : Outcome} {said : String} (reports : outcome.IsWritten said) :
      IsWritten (.reply ⟨token, outcome⟩) ("#" ++ (toString token ++ (" " ++ said)))
  | event {e : Event} {line : String} (reports : e.IsWritten line) : IsWritten (.event e) line

/-- The text of an outcome is written by the grammar, unless it could not be read. -/
theorem Outcome.isWritten_text (outcome : Outcome) :
    outcome.IsWritten outcome.text ∨ ∃ body, outcome = .unreadable body := by
  cases outcome with
  | ok payload =>
    have h := IsWritten.ok (.spaced payload)
    rw [← String.append_assoc] at h
    exact .inl h
  | error code message =>
    have h := IsWritten.error code (.spaced message)
    rw [← String.append_assoc, ← String.append_assoc] at h
    exact .inl h
  | unreadable body => exact .inr ⟨body, rfl⟩

/-- The line of an event is one of those by which it may be sent. -/
theorem Event.isWritten_line (e : Event) : e.IsWritten e.line := by
  cases e with
  | started t => exact .started t
  | exited t => exact .exited t
  | suspended t reason =>
    have h := IsWritten.suspended t (.spaced reason.text)
    rwa [← String.append_assoc, ← String.append_assoc] at h
  | resumed t reason =>
    have h := IsWritten.resumed t (.spaced reason.text)
    rwa [← String.append_assoc, ← String.append_assoc] at h
  | terminated => exact .terminated
  | output text =>
    have h := IsWritten.output (.spaced text)
    rwa [← String.append_assoc] at h

/-- So is the line of a sendable message. -/
theorem Incoming.isWritten_line {m : Incoming} (sendable : m.IsSendable) : m.IsWritten m.line := by
  cases m with
  | reply r =>
    obtain ⟨token, outcome⟩ := r
    have hline : (Incoming.reply ⟨token, outcome⟩).line =
        "#" ++ (toString token ++ (" " ++ outcome.text)) := by
      simp only [Incoming.line, String.append_assoc]
    rw [hline]
    rcases outcome.isWritten_text with written | ⟨body, rfl⟩
    · exact .reply written
    · exact sendable.2.elim
  | event e => exact .event e.isWritten_line
  | malformed line => exact sendable.elim

/-! ### Words -/

/-- The words of a text, each as a text. -/
def wordsOf (text : String) : List String := (words text.toList).map String.ofList

theorem isWord_of_mem_wordsOf {text w : String} (hw : w ∈ wordsOf text) : IsWord w.toList := by
  obtain ⟨cs, hcs, rfl⟩ := List.mem_map.mp hw
  rw [String.toList_ofList]
  exact (isTyped_words text.toList).1 cs hcs

theorem toList_unwords (ws : List String) :
    (unwords ws).toList = joinWith ' ' (ws.map String.toList) :=
  String.toList_intercalate

theorem wordsOf_append {word text tail : String} (hword : IsWord word.toList)
    (follows : IsTail text tail) : wordsOf (word ++ tail) = word :: wordsOf text := by
  cases follows with
  | spaced =>
    have hwords := words_append_cons hword (b := ' ') rfl text.toList
    simp [wordsOf, String.toList_append, hwords]
  | bare => simp [wordsOf, words_of_isWord hword]

theorem wordsOf_word {word : String} (hword : IsWord word.toList) : wordsOf word = [word] := by
  have h := wordsOf_append hword .bare
  simpa [wordsOf] using h

theorem wordsOf_unwords {ws : List String} (hws : ∀ w ∈ ws, IsWord w.toList) :
    wordsOf (unwords ws) = ws := by
  have hlists : ∀ w ∈ ws.map String.toList, IsWord w := List.forall_mem_map.mpr hws
  rw [wordsOf, toList_unwords, words_joinWith_space hlists, map_ofList_toList]

theorem isWord_digits (n : Nat) : IsWord (digits n) :=
  ⟨digits_ne_nil n, fun c hc => isBlank_of_isDigit ((isDigits_digits n).digits c hc)⟩

theorem isWord_toString (n : UInt64) : IsWord (toString n).toList := by
  rw [toList_toString_uInt64]
  exact isWord_digits _

/-! ### Events -/

theorem StopReason.ofWords_of_not_isKnown {ws : List String} (unknown : ¬IsKnown ws) :
    ofWords ws = .other (unwords ws) := by
  unfold ofWords
  split
  · exact (unknown .client).elim
  · exact (unknown .step).elim
  · exact (unknown .drop).elim
  · split
    · next n hnumber => exact (unknown (.breakpoint hnumber)).elim
    · rfl
  · exact (unknown .watch).elim
  · exact (unknown .event).elim
  · rfl

theorem ResumeReason.ofWords_of_not_isKnown {ws : List String} (unknown : ¬IsKnown ws) :
    ofWords ws = .other (unwords ws) := by
  unfold ofWords
  split
  · exact (unknown .client).elim
  · exact (unknown .step).elim
  · exact (unknown .drop).elim
  · rfl

theorem StopReason.ofWords_text {reason : StopReason} (sendable : reason.IsSendable) :
    ofWords (wordsOf reason.text) = reason := by
  cases reason with
  | client | step | drop => rfl
  | breakpoint line =>
    change ofWords (wordsOf ("breakpoint" ++ " " ++ toString line)) = _
    rw [String.append_assoc, wordsOf_append (by decide) (.spaced _),
      wordsOf_word (isWord_toString line)]
    simp only [ofWords, readUInt64?_toString]
  | watch access name =>
    change ofWords (wordsOf ("watch" ++ " " ++ access ++ " " ++ name)) = _
    rw [String.append_assoc, String.append_assoc, String.append_assoc,
      wordsOf_append (by decide) (.spaced _), wordsOf_append sendable.1 (.spaced _),
      wordsOf_word sendable.2]
    rfl
  | event name =>
    change ofWords (wordsOf ("event" ++ " " ++ name)) = _
    rw [String.append_assoc, wordsOf_append (by decide) (.spaced _), wordsOf_word sendable]
    rfl
  | other text =>
    obtain ⟨ws, hws, unknown, rfl⟩ := sendable
    rw [text, wordsOf_unwords hws, ofWords_of_not_isKnown unknown]

theorem ResumeReason.ofWords_text {reason : ResumeReason} (sendable : reason.IsSendable) :
    ofWords (wordsOf reason.text) = reason := by
  cases reason with
  | client | step | drop => rfl
  | other text =>
    obtain ⟨ws, hws, unknown, rfl⟩ := sendable
    rw [text, wordsOf_unwords hws, ofWords_of_not_isKnown unknown]

theorem keywordOf_append {word text tail : String} (hword : ' ' ∉ word.toList)
    (follows : IsTail text tail) : Event.keywordOf (word ++ tail) = word := by
  have hall : ∀ c ∈ word.toList, (c != ' ') = true := by
    intro c hc
    rw [bne_iff_ne]
    rintro rfl
    exact hword hc
  cases follows with
  | spaced =>
    simp [Event.keywordOf, String.toList_append, List.takeWhile_append_of_pos hall]
  | bare =>
    have hwhole : (word.toList ++ []).takeWhile (· != ' ') = word.toList ++ [] :=
      List.takeWhile_append_of_pos hall
    rw [List.append_nil] at hwhole
    rw [String.append_empty, Event.keywordOf, hwhole, String.ofList_toList]

/-- A line with a keyword other than `output` is read as words. -/
theorem ofLine?_append {word text tail : String} (hword : IsWord word.toList)
    (other : word ≠ "output") (follows : IsTail text tail) :
    Event.ofLine? (word ++ tail) = Event.ofWords? (word :: wordsOf text) := by
  have hspace : ' ' ∉ word.toList := by
    intro hmem
    cases hword.unbroken ' ' hmem
  have hwords := wordsOf_append hword follows
  rw [wordsOf] at hwords
  rw [Event.ofLine?, keywordOf_append hspace follows, if_neg other, hwords]

/-- The same for a line with a thread after its keyword. -/
theorem ofLine?_thread {word text tail : String} (hword : IsWord word.toList)
    (other : word ≠ "output") (t : ThreadId) (follows : IsTail text tail) :
    Event.ofLine? (word ++ " " ++ (toString t ++ tail)) =
      Event.ofWords? (word :: toString t :: wordsOf text) := by
  rw [String.append_assoc, ofLine?_append hword other (.spaced _),
    wordsOf_append (isWord_toString t) follows]

theorem readThread?_toString (t : ThreadId) : Event.readThread? (toString t) = some t :=
  readUInt64?_toString t

theorem Event.ofLine?_of_isWritten {e : Event} {line : String} (readable : e.IsReadable)
    (written : e.IsWritten line) : ofLine? line = some e := by
  cases written with
  | started t =>
    change ofLine? ("started" ++ " " ++ toString t) = _
    rw [String.append_assoc, ofLine?_append (by decide) (by decide) (.spaced _),
      wordsOf_word (isWord_toString t)]
    simp only [ofWords?, readThread?_toString, Option.map_some]
  | exited t =>
    change ofLine? ("exited" ++ " " ++ toString t) = _
    rw [String.append_assoc, ofLine?_append (by decide) (by decide) (.spaced _),
      wordsOf_word (isWord_toString t)]
    simp only [ofWords?, readThread?_toString, Option.map_some]
  | @suspended t reason tail follows =>
    change ofLine? ("suspended" ++ " " ++ (toString t ++ tail)) = _
    rw [ofLine?_thread (by decide) (by decide) t follows]
    simp only [ofWords?, readThread?_toString, Option.map_some,
      StopReason.ofWords_text readable]
  | @resumed t reason tail follows =>
    change ofLine? ("resumed" ++ " " ++ (toString t ++ tail)) = _
    rw [ofLine?_thread (by decide) (by decide) t follows]
    simp only [ofWords?, readThread?_toString, Option.map_some,
      ResumeReason.ofWords_text readable]
  | terminated => rfl
  | @output text tail follows =>
    rw [ofLine?, if_pos (keywordOf_append (by decide) follows)]
    cases follows with
    | spaced =>
      have htext : ("output" ++ (" " ++ text)).toList.drop ("output".length + 1) = text.toList := by
        rw [← String.append_assoc, String.toList_append]
        exact List.drop_left' rfl
      rw [htext, String.ofList_toList]
    | bare => rfl

theorem append_eq_of_spaced {spaced word : String} (hspaced : spaced = word ++ " ")
    (text : String) : spaced ++ text = word ++ (" " ++ text) := by
  rw [hspaced, String.append_assoc]

/-- The line of an event is one of the keywords and what follows it. -/
theorem Event.keyword_of_isWritten {e : Event} {line : String} (written : e.IsWritten line) :
    ∃ word ∈ keywords, ∃ text tail, IsTail text tail ∧ line = word ++ tail := by
  cases written with
  | started t =>
    refine ⟨"started", by decide, _, _, .spaced (toString t), ?_⟩
    exact append_eq_of_spaced (by decide) _
  | exited t =>
    refine ⟨"exited", by decide, _, _, .spaced (toString t), ?_⟩
    exact append_eq_of_spaced (by decide) _
  | @suspended t _ tail _ =>
    refine ⟨"suspended", by decide, _, _, .spaced (toString t ++ tail), ?_⟩
    exact append_eq_of_spaced (by decide) _
  | @resumed t _ tail _ =>
    refine ⟨"resumed", by decide, _, _, .spaced (toString t ++ tail), ?_⟩
    exact append_eq_of_spaced (by decide) _
  | terminated => exact ⟨"terminated", by decide, _, _, .bare, rfl⟩
  | output follows => exact ⟨"output", by decide, _, _, follows, rfl⟩

theorem Event.isEventLine_of_isWritten {e : Event} {line : String} (written : e.IsWritten line) :
    isEventLine line = true := by
  have hspaces : ∀ word ∈ keywords, ' ' ∉ word.toList := by decide
  obtain ⟨word, hword, text, tail, follows, rfl⟩ := keyword_of_isWritten written
  rw [isEventLine, keywordOf_append (hspaces word hword) follows]
  exact List.contains_iff_mem.mpr hword

/-! ### Texts that fit into a line -/

/-- Neither a line feed nor a carriage return. -/
def IsTidy (text : String) : Prop := '\n' ∉ text.toList ∧ '\r' ∉ text.toList

instance (text : String) : Decidable (IsTidy text) := inferInstanceAs (Decidable (_ ∧ _))

theorem IsTidy.append {s t : String} (hs : IsTidy s) (ht : IsTidy t) : IsTidy (s ++ t) := by
  simp only [IsTidy, String.toList_append, List.mem_append, not_or]
  exact ⟨⟨hs.1, ht.1⟩, ⟨hs.2, ht.2⟩⟩

theorem isTidy_of_isWord {word : String} (hword : IsWord word.toList) : IsTidy word := by
  constructor
  · intro hmem
    cases hword.unbroken _ hmem
  · intro hmem
    cases hword.unbroken _ hmem

/-- A character of the whole is one of the separator or of a part. -/
theorem not_mem_intercalate {c : Char} {sep : String} (hsep : c ∉ sep.toList)
    {texts : List String} (htexts : ∀ text ∈ texts, c ∉ text.toList) :
    c ∉ (sep.intercalate texts).toList := by
  induction texts with
  | nil => simp
  | cons text texts ih =>
    obtain ⟨htext, hrest⟩ := List.forall_mem_cons.mp htexts
    cases texts with
    | nil => simpa using htext
    | cons next texts =>
      rw [String.intercalate_cons_cons, String.toList_append, String.toList_append]
      exact List.not_mem_append (List.not_mem_append htext hsep) (ih hrest)

theorem isTidy_unwords {ws : List String} (hws : ∀ w ∈ ws, IsWord w.toList) :
    IsTidy (unwords ws) := by
  have htidy : ∀ w ∈ ws, IsTidy w := fun w hw => isTidy_of_isWord (hws w hw)
  constructor
  · exact not_mem_intercalate (by decide) fun w hw => (htidy w hw).1
  · exact not_mem_intercalate (by decide) fun w hw => (htidy w hw).2

theorem isTidy_toString (i : Int64) : IsTidy (toString i) := by
  have hdigits := isWord_digits i.toInt.natAbs
  have hword : IsWord (toString i).toList := by
    rw [toList_toString_int64, signedDigits]
    split
    · exact ⟨List.cons_ne_nil _ _, List.forall_mem_cons.mpr ⟨rfl, hdigits.unbroken⟩⟩
    · exact hdigits
  exact isTidy_of_isWord hword

namespace FitsEnd

theorem of_isTidy {text : String} (tidy : IsTidy text) : FitsEnd text where
  one_line := tidy.1
  no_return hlast := tidy.2 (List.mem_of_getLast? hlast)

theorem append {opening text : String} (tidy : IsTidy opening) (fits : FitsEnd text) :
    FitsEnd (opening ++ text) where
  one_line := by
    rw [String.toList_append, List.mem_append]
    exact not_or.mpr ⟨tidy.1, fits.one_line⟩
  no_return := by
    rw [String.toList_append, List.getLast?_append]
    intro hlast
    cases htext : text.toList.getLast? with
    | some c =>
      rw [htext] at hlast
      exact fits.no_return (htext.trans hlast)
    | none =>
      rw [htext] at hlast
      exact tidy.2 (List.mem_of_getLast? hlast)

theorem tail {text tail : String} (fits : FitsEnd text) (follows : IsTail text tail) :
    FitsEnd tail := by
  cases follows with
  | spaced => exact fits.append (by decide)
  | bare => exact fits

end FitsEnd

theorem StopReason.isTidy_text {reason : StopReason} (sendable : reason.IsSendable) :
    IsTidy reason.text := by
  cases reason with
  | client | step | drop => exact (by decide)
  | breakpoint line => exact IsTidy.append (by decide) (isTidy_of_isWord (isWord_toString line))
  | watch access name =>
    obtain ⟨haccess, hname⟩ := sendable
    have haccess := IsTidy.append (s := "watch ") (by decide) (isTidy_of_isWord haccess)
    exact (haccess.append (by decide)).append (isTidy_of_isWord hname)
  | event name => exact IsTidy.append (by decide) (isTidy_of_isWord sendable)
  | other text =>
    obtain ⟨ws, hws, -, rfl⟩ := sendable
    exact isTidy_unwords hws

theorem ResumeReason.isTidy_text {reason : ResumeReason} (sendable : reason.IsSendable) :
    IsTidy reason.text := by
  cases reason with
  | client | step | drop => exact (by decide)
  | other text =>
    obtain ⟨ws, hws, -, rfl⟩ := sendable
    exact isTidy_unwords hws

theorem Event.fitsEnd_of_isWritten {e : Event} {line : String} (sendable : e.IsSendable)
    (written : e.IsWritten line) : FitsEnd line := by
  have hthread : ∀ t : ThreadId, IsTidy (toString t) :=
    fun t => isTidy_of_isWord (isWord_toString t)
  cases written with
  | started t | exited t => exact .of_isTidy (.append (by decide) (hthread t))
  | suspended t follows =>
    have htail := (FitsEnd.of_isTidy (StopReason.isTidy_text sendable)).tail follows
    exact (htail.append (hthread t)).append (by decide)
  | resumed t follows =>
    have htail := (FitsEnd.of_isTidy (ResumeReason.isTidy_text sendable)).tail follows
    exact (htail.append (hthread t)).append (by decide)
  | terminated => exact .of_isTidy (by decide)
  | output follows => exact (sendable.tail follows).append (by decide)

theorem Outcome.fitsEnd_of_isWritten {outcome : Outcome} {said : String}
    (sendable : outcome.IsSendable) (written : outcome.IsWritten said) : FitsEnd said := by
  cases written with
  | ok follows => exact (sendable.tail follows).append (by decide)
  | error code follows =>
    exact ((sendable.tail follows).append (isTidy_toString code)).append (by decide)

/-- The line of a message is one line, and the line's end is no part of it. -/
theorem Incoming.fitsEnd_of_isWritten {m : Incoming} {line : String} (sendable : m.IsSendable)
    (written : m.IsWritten line) : FitsEnd line := by
  cases written with
  | @reply token outcome said reports =>
    have hsaid := Outcome.fitsEnd_of_isWritten sendable.2 reports
    have htoken : IsTidy (toString token) := by
      have hdigits : (toString token).toList = digits token := Nat.toList_repr
      exact isTidy_of_isWord (hdigits ▸ isWord_digits token)
    exact ((hsaid.append (by decide)).append htoken).append (by decide)
  | event reports => exact Event.fitsEnd_of_isWritten sendable reports

/-! ### Replies -/

theorem afterWord?_eq_some {text tail : String} :
    afterWord? tail.toList = some text.toList ↔ IsTail text tail := by
  constructor
  · intro h
    unfold afterWord? at h
    split at h
    · next hnil =>
      obtain rfl := String.toList_eq_nil_iff.mp hnil
      obtain rfl := String.toList_eq_nil_iff.mp (Option.some.inj h).symm
      exact .bare
    · next rest hspace =>
      have htail : tail = " " ++ text := by
        rw [← String.toList_inj, hspace, Option.some.inj h, String.toList_append]
        rfl
      exact htail ▸ .spaced text
    · cases h
  · intro follows
    cases follows with
    | spaced => rw [String.toList_append]; rfl
    | bare => rfl

/-- No digit follows a number at once. -/
theorem not_isDigit_of_isTail {text tail : String} (follows : IsTail text tail) :
    ∀ c ∈ tail.toList.head?, c.isDigit = false := by
  intro c hc
  cases follows with
  | spaced =>
    rw [String.toList_append] at hc
    obtain rfl := Option.some.inj hc
    rfl
  | bare => cases hc

theorem spanSigned_of_isSigned {numeral rest : List Char} {i : Int} (signed : IsSigned numeral i)
    (hrest : ∀ c ∈ rest.head?, c.isDigit = false) :
    spanSigned (numeral ++ rest) = (numeral, rest) := by
  cases signed with
  | plain digits =>
    obtain ⟨htake, hdrop⟩ := digits.span hrest
    unfold spanSigned
    split
    · next rest' heq =>
      -- the first digit is no minus sign
      obtain ⟨d, ds, hcons⟩ := List.exists_cons_of_ne_nil digits.ne_nil
      rw [hcons, List.cons_append] at heq
      cases digits.ne_cons (c := '-') rfl ds ((List.cons.inj heq).1 ▸ hcons)
    · rw [htake, hdrop]
  | minus digits =>
    obtain ⟨htake, hdrop⟩ := digits.span hrest
    rw [List.cons_append]
    simp only [spanSigned, htake, hdrop]

theorem readFailure?_of_isSigned {numeral message tail : String} {code : Int64}
    (signed : IsSigned numeral.toList code.toInt) (follows : IsTail message tail) :
    readFailure? (numeral ++ tail).toList = some (.error code message) := by
  have hread := (readInt64?_eq_some signed.no_plus).mpr signed
  rw [String.toList_append, readFailure?,
    spanSigned_of_isSigned signed (not_isDigit_of_isTail follows)]
  simp [hread, afterWord?_eq_some.mpr follows]

theorem readOutcome_of_isStated {outcome : Outcome} {said : String}
    (stated : outcome.IsStated said) : readOutcome said.toList = outcome := by
  cases stated with
  | @ok payload tail follows =>
    have hsaid : ("ok" ++ tail).toList = 'o' :: 'k' :: tail.toList := String.toList_append
    rw [hsaid]
    simp [readOutcome, afterWord?_eq_some.mpr follows]
  | @error code numeral message tail signed follows =>
    have hsaid : ("error " ++ (numeral ++ tail)).toList =
        'e' :: 'r' :: 'r' :: 'o' :: 'r' :: ' ' :: (numeral ++ tail).toList :=
      String.toList_append
    rw [hsaid, readOutcome]
    simp only [readFailure?_of_isSigned signed follows, Option.getD_some]

theorem Outcome.IsWritten.isStated {outcome : Outcome} {said : String}
    (written : outcome.IsWritten said) : outcome.IsStated said := by
  cases written with
  | ok follows => exact .ok follows
  | error code follows =>
    refine .error ?_ follows
    rw [toList_toString_int64]
    exact isSigned_signedDigits _

theorem readReply?_of_isDigits {token : Nat} {outcome : Outcome} {numeral body tail : String}
    (digits : IsDigits numeral.toList token) (fits : token < UInt64.size)
    (follows : IsTail body tail) (one_line : '\n' ∉ body.toList)
    (reads : readOutcome body.toList = outcome) :
    readReply? ("#" ++ (numeral ++ tail)).toList = some ⟨token, outcome⟩ := by
  have hline : ("#" ++ (numeral ++ tail)).toList = '#' :: (numeral.toList ++ tail.toList) := by
    rw [String.toList_append, String.toList_append]
    rfl
  obtain ⟨htake, hdrop⟩ := digits.span (not_isDigit_of_isTail follows)
  rw [hline, readReply?]
  simp [htake, hdrop, readDigits?_eq_some.mpr digits, afterWord?_eq_some.mpr follows, fits,
    one_line, reads]

/-- No keyword begins with a hash sign. -/
theorem Event.head?_of_mem_keywords {word : String} (hword : word ∈ keywords) :
    word.toList.head? ≠ some '#' := by
  have hkeywords : ∀ word ∈ keywords, word.toList.head? ≠ some '#' := by decide
  exact hkeywords word hword

theorem isEventLine_of_hash (rest : String) : Event.isEventLine ("#" ++ rest) = false := by
  rw [Event.isEventLine, List.contains_eq_mem, decide_eq_false_iff_not]
  intro hmem
  refine Event.head?_of_mem_keywords hmem ?_
  rw [Event.keywordOf, String.toList_append, String.toList_ofList]
  rfl

/-- **A message reads back from its line.** -/
theorem Incoming.ofLine_of_isWritten {m : Incoming} {line : String} (sendable : m.IsSendable)
    (written : m.IsWritten line) : ofLine line = m := by
  cases written with
  | @reply token outcome said reports =>
    have hfits := Outcome.fitsEnd_of_isWritten sendable.2 reports
    have htoken : (toString token).toList = digits token := Nat.toList_repr
    have hread := readReply?_of_isDigits (htoken ▸ isDigits_digits token) sendable.1
      (.spaced said) hfits.one_line (readOutcome_of_isStated reports.isStated)
    rw [ofLine, isEventLine_of_hash, hread]
    rfl
  | event reports =>
    rw [ofLine, Event.isEventLine_of_isWritten reports,
      Event.ofLine?_of_isWritten sendable.isReadable reports]
    rfl

end Pushdown
