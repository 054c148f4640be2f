/-
  Pushdown/Proofs/Wire/Framing.lean
  =================================
  **However a stream is cut, it has the same lines.**  A stream of bytes is a number of
  lines, each with its line feed, and a rest without one, and it is so in one way only
  (`IsCut`).  The messages that a line buffer hands on are those of the complete lines and
  what it keeps is the rest, no matter in how many pieces the stream comes: a piece is
  taken in like any other continuation of the rest that was kept (`takeAll_append`).

  `chunking` puts this together with what happens at the end of the stream.
-/
import Mathlib.Data.List.DropRight
import Mathlib.Data.List.Forall2
import Pushdown.Wire.Framing

namespace Pushdown

open Text

/-! ### Lines and a rest -/

/-- The bytes are these lines, each with a line feed after it, and this rest. -/
structure IsCut (bytes : List UInt8) (lines : List (List UInt8)) (rest : List UInt8) : Prop where
  whole : bytes = lines.flatMap (· ++ [lineFeed]) ++ rest
  lines : ∀ line ∈ lines, lineFeed ∉ line
  rest : lineFeed ∉ rest

namespace IsCut

variable {bytes line rest more : List UInt8} {lines later : List (List UInt8)}

theorem of_not_mem (none : lineFeed ∉ bytes) : IsCut bytes [] bytes where
  whole := rfl
  lines line hline := by cases hline
  rest := none

theorem cons (hline : lineFeed ∉ line) (cut : IsCut bytes lines rest) :
    IsCut (line ++ lineFeed :: bytes) (line :: lines) rest where
  whole := by
    rw [cut.whole]
    simp
  lines := List.forall_mem_cons.mpr ⟨hline, cut.lines⟩
  rest := cut.rest

/-- What is kept of a stream is continued by what comes next. -/
theorem append (cut : IsCut bytes lines rest) {left : List UInt8}
    (next : IsCut (rest ++ more) later left) : IsCut (bytes ++ more) (lines ++ later) left where
  whole := by
    rw [cut.whole, List.append_assoc, next.whole, List.flatMap_append, List.append_assoc]
  lines := List.forall_mem_append.mpr ⟨cut.lines, next.lines⟩
  rest := next.rest

end IsCut

theorem firstLine?_append {line : List UInt8} (hline : lineFeed ∉ line) (rest : List UInt8) :
    firstLine? (line ++ lineFeed :: rest) = some (line, rest) := by
  induction line with
  | nil => simp [firstLine?]
  | cons b line ih =>
    obtain ⟨hb, hrest⟩ := List.ne_and_not_mem_of_not_mem_cons hline
    simp [firstLine?, Ne.symm hb, ih hrest]

theorem firstLine?_of_not_mem {bytes : List UInt8} (hnone : lineFeed ∉ bytes) :
    firstLine? bytes = none := by
  induction bytes with
  | nil => rfl
  | cons b bytes ih =>
    obtain ⟨hb, hrest⟩ := List.ne_and_not_mem_of_not_mem_cons hnone
    simp [firstLine?, Ne.symm hb, ih hrest]

theorem beq_lineFeed_of_not_mem {bytes : List UInt8} (hnone : lineFeed ∉ bytes) :
    ∀ b ∈ bytes, (b == lineFeed) = false := by
  intro b hb
  rw [beq_eq_false_iff_ne]
  rintro rfl
  exact hnone hb

theorem splitLines_append {line : List UInt8} (hline : lineFeed ∉ line) (rest : List UInt8) :
    splitLines (line ++ lineFeed :: rest) = (line :: (splitLines rest).1, (splitLines rest).2) := by
  have hne := List.splitOnP_ne_nil (· == lineFeed) rest
  simp only [splitLines,
    List.splitOnP_append_cons_of_forall_mem (beq_lineFeed_of_not_mem hline) lineFeed
      (beq_self_eq_true _),
    List.dropLast_cons_of_ne_nil hne, List.getLast?_cons]
  simp [List.getLast?_eq_some_getLast hne]

theorem splitLines_of_not_mem {bytes : List UInt8} (hnone : lineFeed ∉ bytes) :
    splitLines bytes = ([], bytes) := by
  simp [splitLines, List.splitOnP_eq_singleton (beq_lineFeed_of_not_mem hnone)]

/-- Every stream is some lines and a rest, -/
theorem isCut_splitLines (bytes : List UInt8) :
    IsCut bytes (splitLines bytes).1 (splitLines bytes).2 := by
  by_cases hmem : lineFeed ∈ bytes
  · obtain ⟨line, rest, rfl, hline⟩ := List.eq_append_cons_of_mem hmem
    rw [splitLines_append hline]
    exact (isCut_splitLines rest).cons hline
  · rw [splitLines_of_not_mem hmem]
    exact .of_not_mem hmem
termination_by bytes.length

/-- and it is so in one way only. -/
theorem IsCut.splitLines_eq {bytes rest : List UInt8} {lines : List (List UInt8)}
    (cut : IsCut bytes lines rest) : splitLines bytes = (lines, rest) := by
  obtain ⟨rfl, hlines, hrest⟩ := cut
  induction lines with
  | nil => exact splitLines_of_not_mem hrest
  | cons line lines ih =>
    obtain ⟨hline, hlater⟩ := List.forall_mem_cons.mp hlines
    have hbytes : (line :: lines).flatMap (· ++ [lineFeed]) ++ rest =
        line ++ lineFeed :: (lines.flatMap (· ++ [lineFeed]) ++ rest) := by simp
    rw [hbytes, splitLines_append hline, ih hlater]

/-- There is one line for each line feed. -/
theorem IsCut.count_lineFeed {bytes rest : List UInt8} {lines : List (List UInt8)}
    (cut : IsCut bytes lines rest) : bytes.count lineFeed = lines.length := by
  obtain ⟨rfl, hlines, hrest⟩ := cut
  rw [List.count_append, List.count_eq_zero.mpr hrest, Nat.add_zero]
  induction lines with
  | nil => rfl
  | cons line lines ih =>
    obtain ⟨hline, hlater⟩ := List.forall_mem_cons.mp hlines
    rw [List.flatMap_cons, List.count_append, List.count_append, List.count_eq_zero.mpr hline,
      ih hlater, List.length_cons]
    simp [Nat.add_comm]

/-! ### The text of a line -/

/-- The text reads as the line does, but for carriage returns at its end. -/
structure IsTextOf (line : List UInt8) (text : String) : Prop where
  returns : ∃ n, Utf8.decodeLossy line = text.toList ++ List.replicate n '\r'
  trimmed : text.toList.getLast? ≠ some '\r'

theorem isTextOf_lineText (line : List UInt8) : IsTextOf line (lineText line) := by
  have htext : (lineText line).toList = (Utf8.decodeLossy line).rdropWhile (· == '\r') :=
    String.toList_ofList
  constructor
  · refine ⟨((Utf8.decodeLossy line).rtakeWhile (· == '\r')).length, ?_⟩
    have hreturns : ∀ c ∈ (Utf8.decodeLossy line).rtakeWhile (· == '\r'), c = '\r' := by
      intro c hc
      have hreturn : (c == '\r') = true := List.mem_rtakeWhile_imp (p := (· == '\r')) hc
      exact eq_of_beq hreturn
    rw [htext, ← List.eq_replicate_of_mem hreturns, List.rdropWhile_append_rtakeWhile]
  · rw [htext]
    intro hlast
    have hne : (Utf8.decodeLossy line).rdropWhile (· == '\r') ≠ [] := by
      intro hnil
      rw [hnil] at hlast
      cases hlast
    rw [List.getLast?_eq_some_getLast hne] at hlast
    exact List.rdropWhile_last_not _ _ hne (by rw [Option.some.inj hlast]; rfl)

/-- The messages of some lines are those of their texts that are not empty. -/
theorem filterMap_message? (lines : List (List UInt8)) :
    lines.filterMap message? = ((lines.map lineText).filter (· ≠ "")).map Incoming.ofLine := by
  induction lines with
  | nil => rfl
  | cons line lines ih =>
    by_cases hempty : lineText line = ""
    · simp [message?, hempty, ih]
    · simp [message?, hempty, ih]

namespace LineBuffer

/-! ### One message at a time -/

variable {line rest : List UInt8}

/-- A line that is complete is taken out first, whether it is a message or not. -/
theorem takeAll_line (hline : lineFeed ∉ line) (rest : List UInt8) :
    takeAll ⟨line ++ lineFeed :: rest⟩ =
      ((message? line).toList ++ (takeAll ⟨rest⟩).1, (takeAll ⟨rest⟩).2) := by
  have hnext : next ⟨line ++ lineFeed :: rest⟩ =
      (message? line).elim (next ⟨rest⟩) (fun item => (some item, ⟨rest⟩)) := by
    rw [next]
    split
    · next hcut => cases (firstLine?_append hline rest).symm.trans hcut
    · next hcut =>
      cases (firstLine?_append hline rest).symm.trans hcut
      cases message? line <;> rfl
  cases hmessage : message? line with
  | some item =>
    rw [hmessage] at hnext
    rw [takeAll, hnext]
    rfl
  | none =>
    rw [hmessage] at hnext
    rw [takeAll, hnext, takeAll]
    rfl

theorem next_of_not_mem (hnone : lineFeed ∉ rest) : next ⟨rest⟩ = (none, ⟨rest⟩) := by
  rw [next]
  split
  · rfl
  · next hcut => cases (firstLine?_of_not_mem hnone).symm.trans hcut

theorem takeAll_of_not_mem (hnone : lineFeed ∉ rest) : takeAll ⟨rest⟩ = ([], ⟨rest⟩) := by
  rw [takeAll, next_of_not_mem hnone]

/-- All that is taken out is the messages of the lines, and the rest stays. -/
theorem takeAll_of_isCut {bytes : List UInt8} {lines : List (List UInt8)}
    (cut : IsCut bytes lines rest) : takeAll ⟨bytes⟩ = (lines.filterMap message?, ⟨rest⟩) := by
  obtain ⟨rfl, hlines, hrest⟩ := cut
  induction lines with
  | nil => exact takeAll_of_not_mem hrest
  | cons line lines ih =>
    obtain ⟨hline, hlater⟩ := List.forall_mem_cons.mp hlines
    have hbytes : (line :: lines).flatMap (· ++ [lineFeed]) ++ rest =
        line ++ lineFeed :: (lines.flatMap (· ++ [lineFeed]) ++ rest) := by simp
    rw [hbytes, takeAll_line hline, ih hlater, List.filterMap_cons]
    cases message? line <;> rfl

/-- To take in bytes is to take out all that is complete with them. -/
theorem receive_eq (buffer : LineBuffer) (bytes : List UInt8) :
    buffer.receive bytes = (buffer.append bytes).takeAll :=
  (takeAll_of_isCut (isCut_splitLines (buffer.rest ++ bytes))).symm

/-! ### Piece by piece -/

theorem append_append (buffer : LineBuffer) (bytes more : List UInt8) :
    (buffer.append bytes).append more = buffer.append (bytes ++ more) :=
  congrArg mk (List.append_assoc ..)

/-- Nothing is lost and nothing is gained if some bytes come later. -/
theorem takeAll_append (buffer : LineBuffer) (more : List UInt8) :
    (buffer.append more).takeAll =
      (buffer.takeAll.1 ++ (buffer.takeAll.2.append more).takeAll.1,
        (buffer.takeAll.2.append more).takeAll.2) := by
  have cut := isCut_splitLines buffer.rest
  have hnext := isCut_splitLines ((splitLines buffer.rest).2 ++ more)
  rw [append, takeAll_of_isCut (cut.append hnext), takeAll_of_isCut cut, append,
    takeAll_of_isCut hnext, List.filterMap_append]

/-- Of a stream that goes on, the later messages are those that complete what was kept. -/
theorem receive_append (buffer : LineBuffer) (bytes more : List UInt8) :
    buffer.receive (bytes ++ more) =
      ((buffer.receive bytes).1 ++ ((buffer.receive bytes).2.receive more).1,
        ((buffer.receive bytes).2.receive more).2) := by
  simp only [receive_eq]
  rw [← append_append, takeAll_append]

theorem takeChunks_eq {buffer : LineBuffer} (hrest : lineFeed ∉ buffer.rest)
    (chunks : List (List UInt8)) :
    buffer.takeChunks chunks = (buffer.append chunks.flatten).takeAll := by
  induction chunks generalizing buffer with
  | nil =>
    rw [takeChunks, List.flatten_nil, append, List.append_nil]
    exact (takeAll_of_not_mem hrest).symm
  | cons chunk chunks ih =>
    have cut := isCut_splitLines (buffer.rest ++ chunk)
    have hleft : lineFeed ∉ (buffer.append chunk).takeAll.2.rest := by
      rw [append, takeAll_of_isCut cut]
      exact cut.rest
    have hstep : buffer.takeChunks (chunk :: chunks) =
        ((buffer.append chunk).takeAll.1 ++ ((buffer.append chunk).takeAll.2.takeChunks chunks).1,
          ((buffer.append chunk).takeAll.2.takeChunks chunks).2) := rfl
    rw [hstep, ih hleft, List.flatten_cons, ← append_append]
    exact (takeAll_append (buffer.append chunk) chunks.flatten).symm

/-! ### The end of the stream -/

theorem takeLast_of_not_mem (hnone : lineFeed ∉ rest) :
    takeLast ⟨rest⟩ = ([], finish ⟨rest⟩, empty) := by
  have hlast : last ⟨rest⟩ = ((finish ⟨rest⟩).map (fun _ => none), empty) := by
    rw [last, next_of_not_mem hnone]
  rw [takeLast, hlast]
  cases finish ⟨rest⟩ <;> rfl

theorem isPadding_iff {b : UInt8} (hb : b ≠ lineFeed) :
    isPadding b = true ↔ b = 0x20 ∨ b = 0x09 ∨ b = 0x0C ∨ b = 0x0D := by
  have hfeed : (b == 0x0A) = false := beq_eq_false_iff_ne.mpr hb
  simp [isPadding, hfeed, or_assoc]

/-- The stream has broken off if something other than padding is left. -/
theorem finish_eq_error_iff (hnone : lineFeed ∉ rest) :
    finish ⟨rest⟩ = .error .connectionClosed ↔
      ∃ b ∈ rest, b ≠ 0x20 ∧ b ≠ 0x09 ∧ b ≠ 0x0C ∧ b ≠ 0x0D := by
  have hpadding : ∀ b ∈ rest, (¬isPadding b = true ↔
      b ≠ 0x20 ∧ b ≠ 0x09 ∧ b ≠ 0x0C ∧ b ≠ 0x0D) := by
    intro b hb
    rw [isPadding_iff (fun heq => hnone (heq ▸ hb))]
    simp only [not_or, ne_eq]
  have hall : rest.all isPadding = false ↔ ∃ b ∈ rest, ¬isPadding b = true := by
    simp
  unfold finish
  split
  · next hpadded =>
    refine iff_of_false (fun h => by cases h) ?_
    rintro ⟨b, hb, hother⟩
    exact (hpadding b hb).mpr hother (List.all_eq_true.mp hpadded b hb)
  · next hother =>
    refine iff_of_true rfl ?_
    obtain ⟨b, hb, hpad⟩ := hall.mp (Bool.eq_false_iff.mpr hother)
    exact ⟨b, hb, (hpadding b hb).mp hpad⟩

/-- What comes of a stream with lines of these texts and this rest, when it is taken in
    piece by piece. -/
structure Chunked (chunks : List (List UInt8)) (texts : List String) (rest : List UInt8) : Prop where
  /-- The messages are those of the texts, in order, and the buffer keeps the rest. -/
  taken : empty.takeChunks chunks = ((texts.filter (· ≠ "")).map Incoming.ofLine, ⟨rest⟩)
  /-- It is the same as if the stream had come at once. -/
  at_once : empty.takeChunks chunks = (empty.append chunks.flatten).takeAll
  /-- At the end of the stream there is no other message, and nothing is kept. -/
  ended : ∃ outcome, (empty.takeChunks chunks).2.takeLast = ([], outcome, empty) ∧
    (outcome = .ok () ∨ outcome = .error .connectionClosed) ∧
    (outcome = .error .connectionClosed ↔
      ∃ b ∈ rest, b ≠ 0x20 ∧ b ≠ 0x09 ∧ b ≠ 0x0C ∧ b ≠ 0x0D)

/-- **The messages of a stream do not depend on how it is cut into pieces.** -/
theorem chunking (chunks : List (List UInt8)) :
    ∃ lines texts rest, IsCut chunks.flatten lines rest ∧ List.Forall₂ IsTextOf lines texts ∧
      Chunked chunks texts rest := by
  have cut := isCut_splitLines chunks.flatten
  generalize (splitLines chunks.flatten).1 = lines at cut
  generalize (splitLines chunks.flatten).2 = rest at cut
  have hnone : lineFeed ∉ empty.rest := by
    intro h
    cases h
  have hwhole := takeChunks_eq hnone chunks
  have htaken : empty.takeChunks chunks =
      (((lines.map lineText).filter (· ≠ "")).map Incoming.ofLine, ⟨rest⟩) := by
    rw [hwhole, ← filterMap_message?]
    exact takeAll_of_isCut cut
  refine ⟨lines, lines.map lineText, rest, cut, ?_, htaken, hwhole, finish ⟨rest⟩, ?_, ?_, ?_⟩
  · rw [List.forall₂_map_right_iff, List.forall₂_same]
    exact fun line _ => isTextOf_lineText line
  · rw [htaken]
    exact takeLast_of_not_mem cut.rest
  · unfold finish
    split
    · exact Or.inl rfl
    · exact Or.inr rfl
  · exact finish_eq_error_iff cut.rest

end LineBuffer

end Pushdown
