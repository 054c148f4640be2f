/-
  Pushdown/Text/Blank.lean
  ========================
  **Blank characters and words.**  The VM's protocol and the console both cut
  text at white space, and both mean the whole Unicode `White_Space` class: 25
  characters, among them the no-break space and the ideographic space, but not
  the zero-width ones.

  * `isBlank` is the class, `words` the maximal runs outside it;
  * `trim` takes the class off both ends;
  * `cutAt` splits at every single occurrence of a separator, empty parts kept —
    the other way the protocol cuts text, used for `|` and `#`.
-/

namespace Pushdown.Text

/-! ### The class -/

/-- The Unicode property `White_Space`. -/
def isBlank (c : Char) : Bool :=
  let n := c.toNat
  (9 ≤ n && n ≤ 13) || n == 0x20 || n == 0x85 || n == 0xA0 || n == 0x1680
    || (0x2000 ≤ n && n ≤ 0x200A) || n == 0x2028 || n == 0x2029 || n == 0x202F
    || n == 0x205F || n == 0x3000

/-- No digit is blank. -/
theorem isBlank_of_isDigit {c : Char} (h : c.isDigit = true) : isBlank c = false := by
  have hrange : 48 ≤ c.toNat ∧ c.toNat ≤ 57 := Char.isDigit_iff_toNat.mp h
  simp only [isBlank, Bool.or_eq_false_iff, Bool.and_eq_false_iff, decide_eq_false_iff_not,
    beq_eq_false_iff_ne, ne_eq]
  omega

/-! ### Cutting -/

/-- The maximal runs of characters that are not blank, in order. -/
def words (cs : List Char) : List (List Char) :=
  (cs.splitOnP isBlank).filter (fun w => !w.isEmpty)

/-- The parts between the occurrences of `sep`, empty ones included; a text
    without `sep` is its only part. -/
def cutAt (sep : Char) (cs : List Char) : List (List Char) :=
  cs.splitOnP (· == sep)

/-- The parts written with `sep` between each two. -/
def joinWith (sep : Char) (parts : List (List Char)) : List Char :=
  [sep].intercalate parts

/-- Leave out the longest end whose characters all satisfy `p`. -/
def dropEndWhile (p : Char → Bool) (cs : List Char) : List Char :=
  (cs.reverse.dropWhile p).reverse

/-- Leave out the blank characters at both ends. -/
def trim (cs : List Char) : List Char :=
  dropEndWhile isBlank (cs.dropWhile isBlank)

/-! ### Words of a text that is written word by word -/

/-- At least one character, and none of them blank. -/
structure IsWord (cs : List Char) : Prop where
  ne_nil : cs ≠ []
  unbroken : ∀ c ∈ cs, isBlank c = false

theorem isWord_iff (cs : List Char) :
    IsWord cs ↔ (!cs.isEmpty && cs.all (fun c => !isBlank c)) = true := by
  simp only [Bool.and_eq_true, Bool.not_eq_true', List.isEmpty_eq_false_iff, List.all_eq_true]
  exact ⟨fun h => ⟨h.ne_nil, h.unbroken⟩, fun h => ⟨h.1, h.2⟩⟩

instance (cs : List Char) : Decidable (IsWord cs) := decidable_of_iff' _ (isWord_iff cs)

section

variable {w cs : List Char}

@[simp] theorem words_nil : words [] = [] := by
  simp [words]

theorem words_of_isWord (hw : IsWord w) : words w = [w] := by
  simp [words, List.splitOnP_eq_singleton hw.unbroken, hw.ne_nil]

/-- A word ends at the first blank after it. -/
theorem words_append_cons (hw : IsWord w) {b : Char} (hb : isBlank b = true) (cs : List Char) :
    words (w ++ b :: cs) = w :: words cs := by
  simp [words, List.splitOnP_append_cons_of_forall_mem hw.unbroken b hb, hw.ne_nil]

theorem joinWith_cons_cons (sep : Char) (part next : List Char) (parts : List (List Char)) :
    joinWith sep (part :: next :: parts) = part ++ sep :: joinWith sep (next :: parts) := by
  simp [joinWith]

theorem words_joinWith_space {ws : List (List Char)} (h : ∀ w ∈ ws, IsWord w) :
    words (joinWith ' ' ws) = ws := by
  induction ws with
  | nil => exact words_nil
  | cons w ws ih =>
    obtain ⟨hw, hws⟩ := List.forall_mem_cons.mp h
    cases ws with
    | nil => simpa [joinWith] using words_of_isWord hw
    | cons v ws =>
      rw [joinWith_cons_cons, words_append_cons hw rfl, ih hws]

end

theorem map_ofList_toList (texts : List String) :
    (texts.map String.toList).map String.ofList = texts := by
  simp

theorem map_toList_ofList (texts : List (List Char)) :
    (texts.map String.ofList).map String.toList = texts := by
  simp [Function.comp_def]

/-- Cutting a joined list gives it back when no part holds the separator. -/
theorem cutAt_joinWith {sep : Char} {parts : List (List Char)} (hne : parts ≠ [])
    (h : ∀ p ∈ parts, sep ∉ p) : cutAt sep (joinWith sep parts) = parts := by
  have := List.splitOn_intercalate sep h hne
  simpa [cutAt, joinWith, List.splitOn_eq_splitOnP] using this

end Pushdown.Text
