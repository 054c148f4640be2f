/-
  Pushdown/Proofs/Wire/Forwarding.lean
  ====================================
  **What is forwarded of a stream.**  The bytes of a program's output are some lines and a
  rest (`IsCut`).  The texts handed on are those of the lines before the first that is not
  UTF-8, where `IsLineOf` says which line has which text.

  It does not matter in which pieces the stream comes (`writeAll_of_isCut`): of the pieces
  that have come so far the texts are handed on whose line feeds are among them, and the
  forwarding has stopped if there are more line feeds than texts.  `forwards` puts this
  together with what happens to the rest at the end of the stream.
-/
import Pushdown.Forward
import Pushdown.Proofs.Wire.Framing

namespace Pushdown

open Text

/-! ### The text of a line -/

/-- The bytes are those of a text. -/
def IsUtf8 (bytes : List UInt8) : Prop := ∃ cs, bytes = Utf8.encode cs

/-- The line has this text: a carriage return at its end does not belong to the text. -/
inductive IsLineOf : List UInt8 → String → Prop
  | bare {text : String} (no_return : text.toList.getLast? ≠ some '\r') :
      IsLineOf (Utf8.encode text.toList) text
  | returned (text : String) : IsLineOf (Utf8.encode text.toList ++ [carriageReturn]) text

theorem encode_return : Utf8.encode ['\r'] = [carriageReturn] := by decide

theorem getLast?_encode {cs : List Char} :
    (Utf8.encode cs).getLast? = some carriageReturn ↔ cs.getLast? = some '\r' := by
  rcases List.eq_nil_or_concat cs with rfl | ⟨init, c, rfl⟩
  · simp [Utf8.encode]
  · have hne : String.utf8EncodeChar c ≠ [] := by
      intro hnil
      have hpos := c.utf8Size_pos
      rw [← String.length_utf8EncodeChar, hnil] at hpos
      exact Nat.lt_irrefl 0 hpos
    have hlast : (Utf8.encode (init ++ [c])).getLast? = (String.utf8EncodeChar c).getLast? := by
      have hsingle : Utf8.encode [c] = String.utf8EncodeChar c := List.flatMap_singleton ..
      rw [Utf8.encode_append, hsingle, List.getLast?_append_of_ne_nil _ hne]
    rw [List.concat_eq_append, hlast, List.getLast?_concat]
    constructor
    · intro h
      have hmem := List.mem_of_getLast? h
      have hcode := Utf8.eq_of_mem_utf8EncodeChar (by decide) hmem
      exact congrArg some (Char.toNat_inj.mp hcode)
    · intro h
      rw [Option.some.inj h]
      decide

theorem plainLine?_eq_some {line : List UInt8} {text : String} :
    plainLine? line = some text ↔ IsLineOf line text := by
  have hplain : plainLine? line = some text ↔
      dropCarriageReturn line = Utf8.encode text.toList := by
    rw [plainLine?, Option.map_eq_some_iff, ← Utf8.decode?_eq_some]
    constructor
    · rintro ⟨cs, hcs, rfl⟩
      rwa [String.toList_ofList]
    · exact fun h => ⟨_, h, String.ofList_toList⟩
  rw [hplain, dropCarriageReturn]
  split
  · next hreturn =>
    obtain ⟨init, rfl⟩ := List.getLast?_eq_some_iff.mp hreturn
    rw [List.dropLast_concat]
    constructor
    · rintro rfl
      exact .returned text
    · intro isLine
      generalize hline : init ++ [13] = line at isLine
      cases isLine with
      | bare no_return => exact (no_return (getLast?_encode.mp (hline ▸ hreturn))).elim
      | returned => exact List.append_cancel_right hline
  · next no_return =>
    constructor
    · rintro rfl
      exact .bare fun hlast => no_return (getLast?_encode.mpr hlast)
    · intro isLine
      cases isLine with
      | bare => rfl
      | returned => exact (no_return (List.getLast?_concat ..)).elim

/-- A line has a text exactly if it is UTF-8. -/
theorem isUtf8_iff {line : List UInt8} : IsUtf8 line ↔ ∃ text, IsLineOf line text := by
  constructor
  · rintro ⟨cs, rfl⟩
    by_cases hlast : cs.getLast? = some '\r'
    · obtain ⟨init, rfl⟩ := List.getLast?_eq_some_iff.mp hlast
      rw [Utf8.encode_append, encode_return]
      have isLine := IsLineOf.returned (String.ofList init)
      rw [String.toList_ofList] at isLine
      exact ⟨_, isLine⟩
    · have isLine : IsLineOf (Utf8.encode (String.ofList cs).toList) (String.ofList cs) :=
        .bare (by rwa [String.toList_ofList])
      rw [String.toList_ofList] at isLine
      exact ⟨_, isLine⟩
  · rintro ⟨text, isLine⟩
    cases isLine with
    | bare => exact ⟨_, rfl⟩
    | returned => exact ⟨text.toList ++ ['\r'], by rw [Utf8.encode_append, encode_return]⟩

theorem plainLine?_eq_none {line : List UInt8} : plainLine? line = none ↔ ¬IsUtf8 line := by
  rw [isUtf8_iff, Option.eq_none_iff_forall_ne_some, not_exists]
  exact forall_congr' fun text => not_congr plainLine?_eq_some

/-! ### Lines in order -/

/-- The texts are those of the lines before the first that is not UTF-8. -/
def AreTextsOf (lines : List (List UInt8)) (texts : List String) : Prop :=
  ∃ good bad, lines = good ++ bad ∧ List.Forall₂ IsLineOf good texts ∧
    ∀ line ∈ bad.head?, ¬IsUtf8 line

theorem decodeLines_cons {line : List UInt8} {text : String} (hline : plainLine? line = some text)
    (lines : List (List UInt8)) :
    decodeLines (line :: lines) = (text :: (decodeLines lines).1, (decodeLines lines).2) := by
  rw [decodeLines, hline]

theorem decodeLines_cons_none {line : List UInt8} (hline : plainLine? line = none)
    (lines : List (List UInt8)) : decodeLines (line :: lines) = ([], true) := by
  rw [decodeLines, hline]

theorem decodeLines_of_broken {lines : List (List UInt8)} (broken : (decodeLines lines).2 = true)
    (later : List (List UInt8)) : decodeLines (lines ++ later) = decodeLines lines := by
  induction lines with
  | nil => cases broken
  | cons line lines ih =>
    rw [List.cons_append]
    cases hline : plainLine? line with
    | none => rw [decodeLines_cons_none hline, decodeLines_cons_none hline]
    | some text =>
      rw [decodeLines_cons hline] at broken
      rw [decodeLines_cons hline, decodeLines_cons hline, ih broken]

theorem decodeLines_append {lines : List (List UInt8)} (whole : (decodeLines lines).2 = false)
    (later : List (List UInt8)) :
    decodeLines (lines ++ later) =
      ((decodeLines lines).1 ++ (decodeLines later).1, (decodeLines later).2) := by
  induction lines with
  | nil => rfl
  | cons line lines ih =>
    rw [List.cons_append]
    cases hline : plainLine? line with
    | none =>
      rw [decodeLines_cons_none hline] at whole
      cases whole
    | some text =>
      rw [decodeLines_cons hline] at whole
      rw [decodeLines_cons hline, decodeLines_cons hline, ih whole, List.cons_append]

theorem decodeLines_good {good : List (List UInt8)} {texts : List String}
    (are : List.Forall₂ IsLineOf good texts) : decodeLines good = (texts, false) := by
  induction are with
  | nil => rfl
  | cons isLine _ ih => rw [decodeLines_cons (plainLine?_eq_some.mpr isLine), ih]

theorem decodeLines_bad {bad : List (List UInt8)} (unread : ∀ line ∈ bad.head?, ¬IsUtf8 line) :
    decodeLines bad = ([], !bad.isEmpty) := by
  cases bad with
  | nil => rfl
  | cons line bad => exact decodeLines_cons_none (plainLine?_eq_none.mpr (unread line rfl)) bad

/-- There are more lines than texts exactly if one of them cannot be read. -/
theorem AreTextsOf.decodeLines_eq {lines : List (List UInt8)} {texts : List String}
    (are : AreTextsOf lines texts) :
    decodeLines lines = (texts, decide (texts.length < lines.length)) := by
  obtain ⟨good, bad, rfl, goodTexts, unread⟩ := are
  have hgood := decodeLines_good goodTexts
  rw [decodeLines_append (by rw [hgood]), hgood, decodeLines_bad unread, List.append_nil,
    ← goodTexts.length_eq, List.length_append]
  cases bad <;> simp

theorem exists_areTextsOf (lines : List (List UInt8)) : ∃ texts, AreTextsOf lines texts := by
  induction lines with
  | nil => exact ⟨[], [], [], rfl, .nil, by simp⟩
  | cons line lines ih =>
    by_cases readable : IsUtf8 line
    · obtain ⟨text, isLine⟩ := isUtf8_iff.mp readable
      obtain ⟨texts, good, bad, rfl, goodTexts, unread⟩ := ih
      exact ⟨text :: texts, line :: good, bad, rfl, .cons isLine goodTexts, unread⟩
    · refine ⟨[], [], line :: lines, rfl, .nil, ?_⟩
      rintro _ ⟨⟩
      exact readable

/-- The first lines have the first texts. -/
theorem AreTextsOf.of_append {lines later : List (List UInt8)} {texts : List String}
    (are : AreTextsOf (lines ++ later) texts) : AreTextsOf lines (texts.take lines.length) := by
  obtain ⟨good, bad, hlines, goodTexts, unread⟩ := are
  rcases List.append_eq_append_iff.mp hlines with ⟨mid, rfl, -⟩ | ⟨mid, rfl, rfl⟩
  · refine ⟨lines, [], (List.append_nil _).symm, ?_, by simp⟩
    simpa using List.forall₂_take lines.length goodTexts
  · refine ⟨good, mid, rfl, ?_, ?_⟩
    · rwa [List.take_of_length_le]
      rw [← goodTexts.length_eq, List.length_append]
      exact Nat.le_add_right ..
    · intro line hline
      refine unread line ?_
      cases mid with
      | nil => cases hline
      | cons => exact hline

/-! ### Piece by piece -/

namespace Forwarder

variable {f : Forwarder} {rest : List UInt8} {lines : List (List UInt8)} {texts : List String}

theorem writeAll_cons (f : Forwarder) (chunk : List UInt8) (chunks : List (List UInt8)) :
    f.writeAll (chunk :: chunks) =
      ((f.write chunk).1 ++ ((f.write chunk).2.writeAll chunks).1,
        ((f.write chunk).2.writeAll chunks).2) :=
  rfl

theorem write_of_stopped (stopped : f.stopped = true) (bytes : List UInt8) :
    f.write bytes = ([], f) := by
  rw [write, if_pos stopped]

theorem writeAll_of_stopped (stopped : f.stopped = true) (chunks : List (List UInt8)) :
    f.writeAll chunks = ([], f) := by
  induction chunks with
  | nil => rfl
  | cons chunk chunks ih => rw [writeAll_cons, write_of_stopped stopped, ih, List.append_nil]

theorem write_of_isCut (going : f.stopped = false) {bytes : List UInt8}
    (cut : IsCut (f.rest ++ bytes) lines rest) :
    f.write bytes = ((decodeLines lines).1, ⟨rest, (decodeLines lines).2⟩) := by
  simp [write, going, cut.splitLines_eq]

/-- In what pieces a stream comes is of no account.  Once a line could not be read, what is
    kept is of no account either. -/
theorem writeAll_of_isCut {chunks : List (List UInt8)} (going : f.stopped = false)
    (hrest : lineFeed ∉ f.rest) (cut : IsCut (f.rest ++ chunks.flatten) lines rest) :
    (f.writeAll chunks).1 = (decodeLines lines).1 ∧
      (f.writeAll chunks).2.stopped = (decodeLines lines).2 ∧
      ((decodeLines lines).2 = false → (f.writeAll chunks).2.rest = rest) := by
  induction chunks generalizing f lines with
  | nil =>
    rw [List.flatten_nil, List.append_nil] at cut
    have hcut := (IsCut.of_not_mem hrest).splitLines_eq.symm.trans cut.splitLines_eq
    obtain ⟨rfl, rfl⟩ := Prod.mk.inj hcut
    exact ⟨rfl, going, fun _ => rfl⟩
  | cons chunk chunks ih =>
    -- the lines that the first piece completes, and those that the others do
    have first := isCut_splitLines (f.rest ++ chunk)
    generalize (splitLines (f.rest ++ chunk)).1 = done at first
    generalize (splitLines (f.rest ++ chunk)).2 = kept at first
    have second := isCut_splitLines (kept ++ chunks.flatten)
    generalize (splitLines (kept ++ chunks.flatten)).1 = later at second
    generalize (splitLines (kept ++ chunks.flatten)).2 = left at second
    have both := first.append second
    rw [List.append_assoc, ← List.flatten_cons] at both
    obtain ⟨rfl, rfl⟩ := Prod.mk.inj (both.splitLines_eq.symm.trans cut.splitLines_eq)
    rw [writeAll_cons, write_of_isCut going first]
    cases hdone : (decodeLines done).2 with
    | true =>
      rw [writeAll_of_stopped rfl, decodeLines_of_broken hdone, hdone, List.append_nil]
      exact ⟨rfl, rfl, fun h => by cases h⟩
    | false =>
      obtain ⟨hhanded, hstopped, hkept⟩ := ih (f := ⟨kept, false⟩) rfl first.rest second
      rw [decodeLines_append hdone]
      exact ⟨congrArg _ hhanded, hstopped, hkept⟩

/-- What has come of a stream whose lines have these texts. -/
theorem new_writeAll {chunks : List (List UInt8)} (cut : IsCut chunks.flatten lines rest)
    (are : AreTextsOf lines texts) :
    (new.writeAll chunks).1 = texts ∧
      (new.writeAll chunks).2.stopped = decide (texts.length < lines.length) ∧
      ((new.writeAll chunks).2.stopped = false → (new.writeAll chunks).2.rest = rest) := by
  have hnone : lineFeed ∉ new.rest := by
    intro h
    cases h
  obtain ⟨hhanded, hstopped, hkept⟩ := writeAll_of_isCut (f := new) rfl hnone cut
  rw [are.decodeLines_eq] at hhanded hstopped
  refine ⟨hhanded, hstopped, fun going => hkept ?_⟩
  rw [are.decodeLines_eq, ← hstopped, going]

/-- When some of the pieces have come, the lines of these are the first lines of all. -/
theorem new_writeAll_before {before after : List (List UInt8)}
    (cut : IsCut (before ++ after).flatten lines rest) (are : AreTextsOf lines texts) :
    (new.writeAll before).1 = texts.take (before.flatten.count lineFeed) ∧
      ((new.writeAll before).2.stopped = true ↔
        texts.length < before.flatten.count lineFeed) := by
  have first := isCut_splitLines before.flatten
  generalize (splitLines before.flatten).1 = done at first
  generalize (splitLines before.flatten).2 = kept at first
  have both := first.append (isCut_splitLines (kept ++ after.flatten))
  rw [← List.flatten_append] at both
  obtain ⟨rfl, -⟩ := Prod.mk.inj (both.splitLines_eq.symm.trans cut.splitLines_eq)
  obtain ⟨hhanded, hstopped, -⟩ := new_writeAll first are.of_append
  rw [first.count_lineFeed, hstopped, List.length_take, decide_eq_true_eq]
  refine ⟨hhanded, ?_⟩
  omega

end Forwarder

/-! ### The end of the stream -/

/-- What is handed on of the bytes behind the last line feed. -/
inductive IsRemainder : List UInt8 → List String → Prop
  | nothing : IsRemainder [] []
  | returned : IsRemainder [carriageReturn] []
  | line {rest : List UInt8} {text : String} (some_bytes : rest ≠ [])
      (no_return : rest ≠ [carriageReturn]) (isLine : IsLineOf rest text) : IsRemainder rest [text]
  | unreadable {rest : List UInt8} (unread : ¬IsUtf8 rest) : IsRemainder rest []

theorem isRemainder_finish {f : Forwarder} (going : f.stopped = false) :
    IsRemainder f.rest f.finish := by
  unfold Forwarder.finish
  split
  · next hskip =>
    rw [going, Bool.false_or, Bool.or_eq_true, List.isEmpty_iff, beq_iff_eq] at hskip
    rcases hskip with hnil | hreturn
    · rw [hnil]
      exact .nothing
    · rw [hreturn]
      exact .returned
  · next hskip =>
    rw [going, Bool.false_or, Bool.or_eq_true, not_or, List.isEmpty_iff, beq_iff_eq] at hskip
    cases hline : plainLine? f.rest with
    | none =>
      rw [decodeLines_cons_none hline]
      exact .unreadable (plainLine?_eq_none.mp hline)
    | some text =>
      rw [decodeLines_cons hline]
      exact .line hskip.1 hskip.2 (plainLine?_eq_some.mp hline)

theorem finish_of_stopped {f : Forwarder} (stopped : f.stopped = true) : f.finish = [] := by
  rw [Forwarder.finish, stopped]
  rfl

/-! ### All together -/

open Forwarder (new)

/-- What is forwarded of a stream with these lines and this rest, when it comes in these
    pieces. -/
structure Forwards (chunks lines : List (List UInt8)) (rest : List UInt8) (texts : List String) :
    Prop where
  handed : (new.writeAll chunks).1 = texts
  /-- When some of the pieces have come, there is a text for each line feed among them, but
      no more than there are. -/
  promptly : ∀ before after, chunks = before ++ after →
    (new.writeAll before).1 = texts.take (before.flatten.count lineFeed)
  /-- The line feed for which there is no text stops the forwarding, and nothing else does. -/
  stops : ∀ before after, chunks = before ++ after →
    ((new.writeAll before).2.stopped = true ↔ texts.length < before.flatten.count lineFeed)
  /-- Then nothing is handed on any more, whatever comes. -/
  silent : ∀ before after, chunks = before ++ after → (new.writeAll before).2.stopped = true →
    ∀ more, ((new.writeAll before).2.writeAll more).1 = [] ∧
      ((new.writeAll before).2.writeAll more).2.stopped = true ∧
      ((new.writeAll before).2.writeAll more).2.finish = []
  /-- Otherwise the end of the stream ends the last line. -/
  ended : texts.length = lines.length → IsRemainder rest (new.writeAll chunks).2.finish
  /-- Other pieces of the same stream come to the same. -/
  alike : ∀ others, others.flatten = chunks.flatten →
    (new.writeAll others).1 = (new.writeAll chunks).1 ∧
      (new.writeAll others).2.stopped = (new.writeAll chunks).2.stopped ∧
      (new.writeAll others).2.finish = (new.writeAll chunks).2.finish

/-- **What is forwarded of a stream does not depend on how it is cut into pieces.** -/
theorem forwards (chunks : List (List UInt8)) :
    ∃ lines rest texts, IsCut chunks.flatten lines rest ∧ AreTextsOf lines texts ∧
      Forwards chunks lines rest texts := by
  have cut := isCut_splitLines chunks.flatten
  generalize (splitLines chunks.flatten).1 = lines at cut
  generalize (splitLines chunks.flatten).2 = rest at cut
  obtain ⟨texts, are⟩ := exists_areTextsOf lines
  obtain ⟨hhanded, hstopped, hkept⟩ := Forwarder.new_writeAll cut are
  refine ⟨lines, rest, texts, cut, are, hhanded, ?_, ?_, ?_, ?_, ?_⟩
  · rintro before after rfl
    exact (Forwarder.new_writeAll_before cut are).1
  · rintro before after rfl
    exact (Forwarder.new_writeAll_before cut are).2
  · intro before _ _ stopped more
    rw [Forwarder.writeAll_of_stopped stopped]
    exact ⟨rfl, stopped, finish_of_stopped stopped⟩
  · intro hall
    have going : (new.writeAll chunks).2.stopped = false := by
      rw [hstopped, decide_eq_false_iff_not, hall]
      exact Nat.lt_irrefl _
    have remainder := isRemainder_finish going
    rwa [hkept going] at remainder
  · intro others hothers
    obtain ⟨hhanded', hstopped', hkept'⟩ := Forwarder.new_writeAll (hothers ▸ cut) are
    refine ⟨hhanded'.trans hhanded.symm, hstopped'.trans hstopped.symm, ?_⟩
    rw [← hstopped] at hstopped'
    cases hgoing : (new.writeAll chunks).2.stopped with
    | true => rw [finish_of_stopped hgoing, finish_of_stopped (hstopped'.trans hgoing)]
    | false =>
      have hstate := (hkept' (hstopped'.trans hgoing)).trans (hkept hgoing).symm
      rw [Forwarder.finish, Forwarder.finish, hstopped', hstate]

/-- The second line is not UTF-8, and its line feed comes with the last piece. -/
example : Forwarder.new.writeAll [[0x61, 0x0D], [0x0A, 0xFF], [0x0A, 0x62, 0x0A]] =
    (["a"], ⟨[], true⟩) := by
  decide +kernel

end Pushdown
