/-
  Pushdown/Text/Spacing.lean
  ==========================
  **The parts of a line.**  A line that somebody has typed is made up of parts with blanks
  before, between and behind them.  `Leads` says how a line begins: with these parts, and
  then the rest.  Cutting a line into words (`Leads.words_eq`, `isTyped_words`) and trimming
  a text (`exists_trim`, `trim_of_isText`) are described by it.

  When the words of a text are joined again there are single spaces between them.  The
  result is the text itself exactly if it was so before (`joinWith_words_eq_self_iff`).
-/
import Mathlib.Data.List.Chain
import Mathlib.Data.List.DropRight
import Pushdown.Text.Blank

namespace Pushdown.Text

/-- Blank characters and nothing else. -/
def IsGap (cs : List Char) : Prop := ∀ c ∈ cs, isBlank c = true

/-- The text is empty or begins with a blank. -/
def AtBreak (cs : List Char) : Prop := ∀ c ∈ cs.head?, isBlank c = true

theorem IsGap.atBreak {cs : List Char} (blank : IsGap cs) : AtBreak cs :=
  fun c hc => blank c (List.mem_of_mem_head? hc)

/-- The line begins with these parts, blanks before each of them and a break behind it, and
    the rest follows. -/
inductive Leads : List (List Char) → List Char → List Char → Prop
  | nil (rest : List Char) : Leads [] rest rest
  | cons {gap part later rest : List Char} {parts : List (List Char)} (blank : IsGap gap)
      (apart : AtBreak later) (leads : Leads parts later rest) :
      Leads (part :: parts) (gap ++ (part ++ later)) rest

/-- The line consists of these parts, with blanks before, between and behind them. -/
def IsTyped (parts : List (List Char)) (line : List Char) : Prop :=
  ∃ rest, Leads parts line rest ∧ IsGap rest

/-- A text that neither begins nor ends with a blank. -/
structure IsText (cs : List Char) : Prop where
  ne_nil : cs ≠ []
  starts : ∀ c ∈ cs.head?, isBlank c = false
  ends : ∀ c ∈ cs.getLast?, isBlank c = false

variable {w cs gap line later mid rest : List Char} {ws vs : List (List Char)}

namespace Leads

theorem append (first : Leads ws line mid) (second : Leads vs mid rest) :
    Leads (ws ++ vs) line rest := by
  induction first with
  | nil mid => exact second
  | cons blank apart _ ih => exact .cons blank apart (ih second)

theorem split (h : Leads (ws ++ vs) line rest) :
    ∃ mid, Leads ws line mid ∧ Leads vs mid rest := by
  induction ws generalizing line with
  | nil => exact ⟨line, .nil line, h⟩
  | cons w ws ih =>
    rcases h with _ | ⟨blank, apart, leads⟩
    obtain ⟨mid, first, second⟩ := ih leads
    exact ⟨mid, .cons blank apart first, second⟩

/-- What leads to the rest leads as well to any other that begins at a break. -/
theorem exists_front (h : Leads ws line rest) :
    ∃ front, line = front ++ rest ∧ ∀ other, AtBreak other → Leads ws (front ++ other) other := by
  induction h with
  | nil rest => exact ⟨[], rfl, fun other _ => .nil other⟩
  | @cons gap w later rest ws blank apart _ ih =>
    obtain ⟨front, rfl, hfront⟩ := ih
    refine ⟨gap ++ (w ++ front), by simp, fun other atBreak => ?_⟩
    have hother : AtBreak (front ++ other) := by
      cases front with
      | nil => exact atBreak
      | cons c front => exact fun d hd => apart d hd
    simpa using Leads.cons blank hother (hfront other atBreak)

end Leads

/-! ### The words of a line -/

theorem words_gap_append (blank : IsGap gap) (cs : List Char) :
    words (gap ++ cs) = words cs := by
  induction gap with
  | nil => rfl
  | cons b gap ih =>
    obtain ⟨hb, hgap⟩ := List.forall_mem_cons.mp blank
    have hcons : words (b :: (gap ++ cs)) = words (gap ++ cs) := by
      simp [words, List.splitOnP_cons_eq_if_modifyHead, hb]
    rw [List.cons_append, hcons, ih hgap]

theorem words_of_isGap (blank : IsGap gap) : words gap = [] := by
  rw [← List.append_nil gap, words_gap_append blank, words_nil]

theorem words_append_of_atBreak (hw : IsWord w) (apart : AtBreak later) :
    words (w ++ later) = w :: words later := by
  cases later with
  | nil => rw [List.append_nil, words_of_isWord hw, words_nil]
  | cons b later =>
    have hb : IsGap [b] := by simpa [IsGap] using apart b rfl
    rw [words_append_cons hw (hb b (by simp)), ← words_gap_append hb later]
    rfl

theorem Leads.words_eq (h : Leads ws line rest) (hws : ∀ w ∈ ws, IsWord w) :
    words line = ws ++ words rest := by
  induction h with
  | nil => rfl
  | cons blank apart _ ih =>
    obtain ⟨hw, hws⟩ := List.forall_mem_cons.mp hws
    rw [words_gap_append blank, words_append_of_atBreak hw apart, ih hws, List.cons_append]

/-- Where a line does not begin with a blank it begins with a word. -/
theorem isWord_takeWhile (starts : ∀ c ∈ cs.head?, isBlank c = false) (hne : cs ≠ []) :
    IsWord (cs.takeWhile (fun c => !isBlank c)) ∧
      AtBreak (cs.dropWhile (fun c => !isBlank c)) := by
  refine ⟨⟨?_, fun c hc => by simpa using List.mem_takeWhile_imp hc⟩, fun c hc => ?_⟩
  · cases cs with
    | nil => exact (hne rfl).elim
    | cons c cs => simp [starts c rfl]
  · have hhead := List.head?_dropWhile_not (fun c => !isBlank c) cs
    rw [hc] at hhead
    simpa using hhead

theorem starts_dropWhile (cs : List Char) :
    ∀ c ∈ (cs.dropWhile isBlank).head?, isBlank c = false := by
  intro c hc
  have hhead := List.head?_dropWhile_not isBlank cs
  rw [hc] at hhead
  simpa using hhead

theorem isGap_takeWhile (cs : List Char) : IsGap (cs.takeWhile isBlank) :=
  fun _ hc => List.mem_takeWhile_imp hc

/-- Every line consists of its words. -/
theorem isTyped_words (line : List Char) :
    (∀ w ∈ words line, IsWord w) ∧ IsTyped (words line) line := by
  induction h : line.length using Nat.strongRecOn generalizing line with
  | _ n ih =>
    subst h
    have hline := List.takeWhile_append_dropWhile (p := isBlank) (l := line)
    by_cases hempty : line.dropWhile isBlank = []
    · rw [hempty, List.append_nil] at hline
      have blank : IsGap line := hline ▸ isGap_takeWhile line
      rw [words_of_isGap blank]
      exact ⟨List.forall_mem_nil _, line, .nil line, blank⟩
    · obtain ⟨hw, apart⟩ := isWord_takeWhile (starts_dropWhile line) hempty
      have hsplit := List.takeWhile_append_dropWhile (p := fun c => !isBlank c)
        (l := line.dropWhile isBlank)
      generalize (line.dropWhile isBlank).takeWhile (fun c => !isBlank c) = w at hw hsplit
      generalize (line.dropWhile isBlank).dropWhile (fun c => !isBlank c) = later at apart hsplit
      rw [← hsplit] at hline
      have hlen := congrArg List.length hline
      have hpos := List.length_pos_iff.mpr hw.ne_nil
      simp only [List.length_append] at hlen
      obtain ⟨hws, rest, leads, blank⟩ := ih later.length (by omega) later rfl
      rw [← hline, words_gap_append (isGap_takeWhile line), words_append_of_atBreak hw apart]
      refine ⟨List.forall_mem_cons.mpr ⟨hw, hws⟩, rest, ?_, blank⟩
      exact .cons (isGap_takeWhile line) apart leads

theorem words_eq_nil_iff : words line = [] ↔ IsGap line := by
  refine ⟨fun h => ?_, words_of_isGap⟩
  obtain ⟨-, rest, leads, blank⟩ := isTyped_words line
  rw [h] at leads
  cases leads
  exact blank

/-! ### Single spaces -/

/-- No blanks at the ends, and between words one space and nothing else. -/
structure IsSpacedOnce (cs : List Char) : Prop where
  starts : ∀ c ∈ cs.head?, isBlank c = false
  ends : ∀ c ∈ cs.getLast?, isBlank c = false
  spaces : ∀ c ∈ cs, isBlank c = true → c = ' '
  apart : cs.IsChain fun b c => isBlank b = true → isBlank c = false

namespace IsSpacedOnce

theorem of_isWord (hw : IsWord w) : IsSpacedOnce w where
  starts c hc := hw.unbroken c (List.mem_of_mem_head? hc)
  ends c hc := hw.unbroken c (List.mem_of_getLast? hc)
  spaces c hc blank := by cases (hw.unbroken c hc).symm.trans blank
  apart := by
    apply List.Pairwise.isChain
    exact List.pairwise_of_forall_mem_list fun _ _ c hc _ => hw.unbroken c hc

theorem append (first : IsSpacedOnce cs) (hcs : cs ≠ []) (second : IsSpacedOnce later)
    (hlater : later ≠ []) : IsSpacedOnce (cs ++ ' ' :: later) where
  starts := by
    rw [List.head?_append_of_ne_nil _ hcs]
    exact first.starts
  ends := by
    rw [List.getLast?_append_of_ne_nil _ (List.cons_ne_nil _ _),
      List.getLast?_cons_of_ne_nil hlater]
    exact second.ends
  spaces := by
    refine List.forall_mem_append.mpr ⟨first.spaces, List.forall_mem_cons.mpr ⟨?_, second.spaces⟩⟩
    exact fun _ => rfl
  apart := by
    refine first.apart.append (second.apart.cons fun c hc _ => second.starts c hc) ?_
    intro b hb c _ blank
    cases (first.ends b hb).symm.trans blank

/-- What follows a space is spaced once too, and it is not empty. -/
theorem of_append (once : IsSpacedOnce (cs ++ ' ' :: later)) : IsSpacedOnce later ∧ later ≠ [] := by
  have hne : later ≠ [] := by
    rintro rfl
    cases once.ends ' ' (by simp)
  have hchain := once.apart.right_of_append
  refine ⟨⟨?_, ?_, ?_, hchain.tail⟩, hne⟩
  · exact fun c hc => (List.isChain_cons.mp hchain).1 c hc rfl
  · have hends := once.ends
    rwa [List.getLast?_append_of_ne_nil _ (List.cons_ne_nil _ _),
      List.getLast?_cons_of_ne_nil hne] at hends
  · exact fun c hc => once.spaces c (by simp [hc])

end IsSpacedOnce

theorem joinWith_cons_ne_nil {sep : Char} {part : List Char} (hpart : part ≠ [])
    (parts : List (List Char)) : joinWith sep (part :: parts) ≠ [] := by
  cases parts with
  | nil => simpa [joinWith] using hpart
  | cons next parts => simp [joinWith_cons_cons]

theorem isSpacedOnce_joinWith (hws : ∀ w ∈ ws, IsWord w) : IsSpacedOnce (joinWith ' ' ws) := by
  induction ws with
  | nil => constructor <;> simp [joinWith]
  | cons w ws ih =>
    obtain ⟨hw, hws⟩ := List.forall_mem_cons.mp hws
    cases ws with
    | nil => simpa [joinWith] using IsSpacedOnce.of_isWord hw
    | cons v ws =>
      have hv : v ≠ [] := (hws v List.mem_cons_self).ne_nil
      rw [joinWith_cons_cons]
      exact (IsSpacedOnce.of_isWord hw).append hw.ne_nil (ih hws) (joinWith_cons_ne_nil hv ws)

theorem joinWith_words_eq_self (once : IsSpacedOnce cs) : joinWith ' ' (words cs) = cs := by
  induction h : cs.length using Nat.strongRecOn generalizing cs with
  | _ n ih =>
    subst h
    by_cases hempty : cs = []
    · rw [hempty, words_nil]
      rfl
    · obtain ⟨hw, apart⟩ := isWord_takeWhile once.starts hempty
      have hsplit := List.takeWhile_append_dropWhile (p := fun c => !isBlank c) (l := cs)
      generalize cs.takeWhile (fun c => !isBlank c) = w at hw hsplit
      generalize cs.dropWhile (fun c => !isBlank c) = later at apart hsplit
      rw [← hsplit, words_append_of_atBreak hw apart]
      cases later with
      | nil => simp [joinWith]
      | cons b later =>
        -- the blank behind the first word is a space, and a word follows it
        obtain rfl : b = ' ' := by
          refine once.spaces b ?_ (apart b rfl)
          simp [← hsplit]
        obtain ⟨onceLater, hne⟩ := (hsplit ▸ once).of_append
        have hlater := ih later.length (by simp [← hsplit]; omega) onceLater rfl
        have hspace : IsGap [' '] := by simp [IsGap, isBlank]
        have hwords : words (' ' :: later) = words later := words_gap_append hspace later
        rw [hwords]
        cases hnext : words later with
        | nil =>
          rw [hnext] at hlater
          exact (hne hlater.symm).elim
        | cons v ws => rw [joinWith_cons_cons, ← hnext, hlater]

theorem joinWith_words_eq_self_iff : joinWith ' ' (words cs) = cs ↔ IsSpacedOnce cs := by
  refine ⟨fun h => ?_, joinWith_words_eq_self⟩
  rw [← h]
  exact isSpacedOnce_joinWith (isTyped_words cs).1

/-! ### Free text -/

/-- A line is its trimmed text with blanks at both ends. -/
theorem exists_trim (line : List Char) :
    ∃ before after, IsGap before ∧ IsGap after ∧ line = before ++ (trim line ++ after) := by
  refine ⟨line.takeWhile isBlank, (line.dropWhile isBlank).rtakeWhile isBlank,
    isGap_takeWhile line, fun c hc => List.mem_rtakeWhile_imp hc, ?_⟩
  have hend : trim line ++ (line.dropWhile isBlank).rtakeWhile isBlank = line.dropWhile isBlank :=
    List.rdropWhile_append_rtakeWhile
  rw [hend, List.takeWhile_append_dropWhile]

theorem isText_trim (h : words line ≠ []) : IsText (trim line) := by
  obtain ⟨before, after, hbefore, hafter, hline⟩ := exists_trim line
  have hne : trim line ≠ [] := by
    intro hnil
    rw [hnil, List.nil_append] at hline
    have blank : IsGap (before ++ after) := List.forall_mem_append.mpr ⟨hbefore, hafter⟩
    exact h (hline ▸ words_of_isGap blank)
  refine ⟨hne, ?_, ?_⟩
  · -- Only its end has been cut off, so it begins as it did.
    intro c hc
    have hprefix : trim line <+: line.dropWhile isBlank := List.rdropWhile_prefix isBlank _
    obtain ⟨later, hlater⟩ := hprefix
    apply starts_dropWhile line c
    rw [← hlater, List.head?_append_of_ne_nil _ hne]
    exact hc
  · intro c hc
    have hlast := List.rdropWhile_last_not isBlank (line.dropWhile isBlank) hne
    rw [List.getLast?_eq_some_getLast hne, Option.mem_some] at hc
    rw [← hc]
    exact Bool.eq_false_iff.mpr hlast

/-- What is typed between blanks is what trimming leaves. -/
theorem trim_of_isText (hbefore : IsGap gap) (text : IsText cs) (hafter : IsGap rest) :
    trim (gap ++ (cs ++ rest)) = cs := by
  have hfront : (gap ++ (cs ++ rest)).dropWhile isBlank = cs ++ rest := by
    rw [List.dropWhile_append_of_pos hbefore]
    cases cs with
    | nil => exact (text.ne_nil rfl).elim
    | cons c cs => simp [text.starts c rfl]
  have hback : rest.reverse.dropWhile isBlank = [] := by
    apply List.dropWhile_eq_nil_iff.mpr
    exact fun c hc => hafter c (List.mem_reverse.mp hc)
  rw [trim, dropEndWhile, hfront, List.reverse_append, List.dropWhile_append, hback]
  have hself := List.rdropWhile_eq_self_iff (p := isBlank) (l := cs)
  simp only [List.isEmpty_nil, if_true]
  apply hself.mpr
  intro hne
  simp [text.ends _ (List.getLast?_eq_some_getLast hne)]

theorem words_ne_nil_of_isText (text : IsText cs) (later : List Char) : words (cs ++ later) ≠ [] := by
  intro hnil
  have blank := words_eq_nil_iff.mp hnil
  cases cs with
  | nil => exact text.ne_nil rfl
  | cons c cs =>
    cases (text.starts c rfl).symm.trans (blank c (by simp))

end Pushdown.Text
