/-
  Pushdown/Proofs/Json/Reader.lean
  ================================
  **Reading JSON.**  `read?` is a reader for all JSON texts of values whose numbers are whole,
  not only for those that are printed here.  Each of its parts takes what it reads off the
  front, and it does so by the grammar in both directions (`Reads`): what it takes off is a
  text of the value, and every text of a value is taken off as a whole where nothing follows
  that would continue it.

  `read?_eq_some` says this of whole texts.  So a JSON text has one value at most
  (`Padded.unique`), and whoever reads by the grammar reads what `read?` does.
-/
import Mathlib.Data.List.TakeWhile
import Pushdown.Proofs.Json.Grammar

namespace Pushdown.Text.Json

/-- A reader takes a value off the front. -/
abbrev Reader (α : Type) := List Char → Option (α × List Char)

/-! ### The reader -/

def readCodeUnit : Reader Nat
  | a :: b :: c :: d :: rest => do
    let i ← hexValue? a
    let j ← hexValue? b
    let k ← hexValue? c
    let l ← hexValue? d
    some (((i * 16 + j) * 16 + k) * 16 + l, rest)
  | _ => none

/-- The character of one code unit or, if that begins a pair, of two. -/
def readUnicode (cs : List Char) : Option (Char × List Char) := do
  let (high, rest) ← readCodeUnit cs
  if isHigh high then
    let '\\' :: 'u' :: rest := rest | none
    let (low, rest) ← readCodeUnit rest
    if isLow low then some (Char.ofNat (pairValue high low), rest) else none
  else if isLow high then none
  else some (Char.ofNat high, rest)

def readChar : Reader Char
  | '\\' :: 'u' :: rest => readUnicode rest
  | '\\' :: letter :: rest => (shortEscapes.lookup letter).map fun c => (c, rest)
  | c :: rest => if 0x20 ≤ c.toNat && c != '"' && c != '\\' then some (c, rest) else none
  | [] => none

/-- The characters before the next quote, and what comes behind it. -/
def readChars : Nat → Reader (List Char)
  | 0, _ => none
  | fuel + 1, cs =>
    match cs with
    | '"' :: rest => some ([], rest)
    | _ => do
      let (c, rest) ← readChar cs
      let (later, rest) ← readChars fuel rest
      some (c :: later, rest)

def readQuoted : Reader String
  | '"' :: rest => do
    let (cs, rest) ← readChars (rest.length + 1) rest
    some (String.ofList cs, rest)
  | _ => none

/-- The digits at the front, unless there is a zero before others. -/
def readWhole (cs : List Char) : Option (Nat × List Char) :=
  let ds := cs.takeWhile Char.isDigit
  if ds.head? = some '0' ∧ ds ≠ ['0'] then none
  else (readDigits? ds).map fun n => (n, cs.dropWhile Char.isDigit)

def readNumber : Reader Int
  | '-' :: rest => (readWhole rest).map fun p => (-p.1, p.2)
  | cs => (readWhole cs).map fun p => (p.1, p.2)

def skipSpaces (cs : List Char) : List Char := cs.dropWhile isSpace

section

variable {α : Type}

def readPadded (r : Reader α) : Reader α := fun cs => do
  let (a, rest) ← r (skipSpaces cs)
  some (a, skipSpaces rest)

/-- One or more with commas between them, and the closing bracket. -/
def readListed (r : Reader α) (close : Char) : Nat → Reader (List α)
  | 0, _ => none
  | fuel + 1, cs => do
    let (a, rest) ← r cs
    let c :: rest := rest | none
    if c = close then some ([a], rest)
    else if c = ',' then
      let (as, rest) ← readListed r close fuel rest
      some (a :: as, rest)
    else none

def readBody (r : Reader α) (close : Char) (fuel : Nat) : Reader (List α) := fun cs =>
  if (skipSpaces cs).head? = some close then some ([], (skipSpaces cs).tail)
  else readListed r close fuel cs

end

def readMember (r : Reader Json) : Reader (String × Json) := fun cs => do
  let (name, rest) ← readQuoted (skipSpaces cs)
  let ':' :: rest := skipSpaces rest | none
  let (v, rest) ← readPadded r rest
  some ((name, v), rest)

def readValue : Nat → Reader Json
  | 0, _ => none
  | fuel + 1, cs =>
    match cs with
    | 'n' :: 'u' :: 'l' :: 'l' :: rest => some (.null, rest)
    | 't' :: 'r' :: 'u' :: 'e' :: rest => some (.bool true, rest)
    | 'f' :: 'a' :: 'l' :: 's' :: 'e' :: rest => some (.bool false, rest)
    | '"' :: _ => (readQuoted cs).map fun p => (.text p.1, p.2)
    | '[' :: rest =>
      (readBody (readPadded (readValue fuel)) ']' fuel rest).map fun p => (.array p.1, p.2)
    | '\x7b' :: rest =>
      (readBody (readMember (readValue fuel)) '\x7d' fuel rest).map fun p => (.object p.1, p.2)
    | _ => (readNumber cs).map fun p => (.number p.1, p.2)

/-- The value of a JSON text. -/
def read? (cs : List Char) : Option Json :=
  match readPadded (readValue (cs.length + 1)) cs with
  | some (v, []) => some v
  | _ => none

/-! ### Readers and grammars -/

/-- The reader takes off what the grammar has: nothing else, and everything that is shorter
    than the bound where the rest ends it. -/
structure Reads {α : Type} (r : Reader α) (P : α → List Char → Prop) (bound : Nat)
    (ends : List Char → Prop) : Prop where
  sound : ∀ {a : α} {cs rest : List Char}, r cs = some (a, rest) →
    ∃ front, cs = front ++ rest ∧ P a front
  complete : ∀ {a : α} {front rest : List Char}, P a front → front.length < bound → ends rest →
    r (front ++ rest) = some (a, rest)

/-- What has been made of a value that was read. -/
theorem read_of_map {α β : Type} {f : α → β} {read : Option (α × List Char)} {b : β}
    {rest : List Char} (h : (read.map fun p => (f p.1, p.2)) = some (b, rest)) :
    ∃ a, read = some (a, rest) ∧ f a = b := by
  obtain ⟨⟨a, rest'⟩, hread, hpair⟩ := Option.map_eq_some_iff.mp h
  obtain ⟨rfl, rfl⟩ := Prod.mk.inj hpair
  exact ⟨a, hread, rfl⟩

/-- Where the length does not matter. -/
theorem Reads.take {α : Type} {r : Reader α} {P : α → List Char → Prop} {ends : List Char → Prop}
    (reads : ∀ bound, Reads r P bound ends) {a : α} {front : List Char} (inner : P a front)
    {rest : List Char} (hrest : ends rest) : r (front ++ rest) = some (a, rest) :=
  (reads _).complete inner (Nat.lt_succ_self _) hrest

/-- Everything ends it. -/
def Always (_ : List Char) : Prop := True

theorem always (rest : List Char) : Always rest := trivial

/-- No digit follows. -/
def NoDigit (rest : List Char) : Prop := ∀ c ∈ rest.head?, c.isDigit = false

/-- Neither a digit nor white space follows. -/
def Settled (rest : List Char) : Prop :=
  ∀ c ∈ rest.head?, c.isDigit = false ∧ isSpace c = false

/-! ### Characters -/

theorem reads_codeUnit (bound : Nat) : Reads readCodeUnit IsCodeUnit bound Always where
  sound := by
    intro n cs rest h
    unfold readCodeUnit at h
    split at h
    · next a b c d tail =>
      simp only [Option.bind_eq_bind, Option.bind_eq_some_iff, Option.some.injEq,
        Prod.mk.injEq] at h
      obtain ⟨i, first, j, second, k, third, l, fourth, rfl, rfl⟩ := h
      exact ⟨[a, b, c, d], rfl, .intro first second third fourth⟩
    · cases h
  complete := by
    intro n front rest unit _ _
    cases unit with
    | intro first second third fourth =>
      simp [readCodeUnit, first, second, third, fourth]

theorem hexValue?_lt {c : Char} {n : Nat} (h : hexValue? c = some n) : n < 16 := by
  simp only [hexValue?, Bool.and_eq_true, decide_eq_true_eq] at h
  split at h
  · cases h
    omega
  · split at h
    · cases h
      omega
    · split at h
      · cases h
        omega
      · cases h

theorem IsCodeUnit.lt {n : Nat} {ds : List Char} (unit : IsCodeUnit n ds) : n < 0x10000 := by
  cases unit with
  | intro first second third fourth =>
    have hfirst := hexValue?_lt first
    have hsecond := hexValue?_lt second
    have hthird := hexValue?_lt third
    have hfourth := hexValue?_lt fourth
    omega

/-- The number of a character is no half of a pair. -/
theorem not_isHigh_toNat (c : Char) : isHigh c.toNat = false ∧ isLow c.toNat = false := by
  have hvalid : c.toNat.isValidChar := c.valid
  simp only [isHigh, isLow, Bool.and_eq_false_iff, decide_eq_false_iff_not]
  rcases hvalid with hlow | hhigh
  · omega
  · omega

theorem toNat_ofNat {n : Nat} (valid : n.isValidChar) : (Char.ofNat n).toNat = n := by
  rw [Char.ofNat, dif_pos valid]
  rfl

theorem toNat_ofNat_unit {n : Nat} (small : n < 0x10000) (no_high : ¬isHigh n = true)
    (no_low : ¬isLow n = true) : (Char.ofNat n).toNat = n := by
  simp only [isHigh, isLow, Bool.and_eq_true, decide_eq_true_eq] at no_high no_low
  apply toNat_ofNat
  unfold Nat.isValidChar
  omega

theorem toNat_ofNat_pair {high low : Nat} (is_high : isHigh high = true)
    (is_low : isLow low = true) :
    (Char.ofNat (pairValue high low)).toNat = pairValue high low := by
  simp only [isHigh, isLow, Bool.and_eq_true, decide_eq_true_eq] at is_high is_low
  apply toNat_ofNat
  unfold Nat.isValidChar pairValue
  omega

theorem isChar_of_readUnicode {c : Char} {cs rest : List Char}
    (h : readUnicode cs = some (c, rest)) :
    ∃ front, '\\' :: 'u' :: cs = front ++ rest ∧ IsChar c front := by
  simp only [readUnicode, Option.bind_eq_bind, Option.bind_eq_some_iff] at h
  obtain ⟨⟨high, tail⟩, hhigh, h⟩ := h
  obtain ⟨ds, rfl, first⟩ := (reads_codeUnit 0).sound hhigh
  simp only at h
  split at h
  · next is_high =>
    split at h
    · next tail =>
      rw [Option.bind_eq_some_iff] at h
      obtain ⟨⟨low, tail'⟩, hlow, h⟩ := h
      obtain ⟨es, rfl, second⟩ := (reads_codeUnit 0).sound hlow
      split at h
      · next is_low =>
        obtain ⟨rfl, rfl⟩ := Prod.mk.inj (Option.some.inj h)
        refine ⟨_, ?_, .pair first second is_high is_low (toNat_ofNat_pair is_high is_low)⟩
        simp
      · cases h
    · cases h
  · next no_high =>
    split at h
    · cases h
    · next no_low =>
      obtain ⟨rfl, rfl⟩ := Prod.mk.inj (Option.some.inj h)
      rw [← toNat_ofNat_unit first.lt no_high no_low] at first
      exact ⟨_, rfl, .unit first⟩

theorem reads_char (bound : Nat) : Reads readChar IsChar bound Always where
  sound := by
    intro c cs rest h
    unfold readChar at h
    split at h
    · exact isChar_of_readUnicode h
    · next letter tail _ =>
      obtain ⟨c', known, hpair⟩ := Option.map_eq_some_iff.mp h
      obtain ⟨rfl, rfl⟩ := Prod.mk.inj hpair
      exact ⟨['\\', letter], rfl, .short known⟩
    · next c' tail _ _ =>
      split at h
      · next hplain =>
        obtain ⟨rfl, rfl⟩ := Prod.mk.inj (Option.some.inj h)
        simp only [Bool.and_eq_true, decide_eq_true_eq, bne_iff_ne] at hplain
        exact ⟨[c'], rfl, .plain hplain.1.1 hplain.1.2 hplain.2⟩
      · cases h
    · cases h
  complete := by
    intro c front rest written _ _
    cases written with
    | plain visible no_quote no_backslash =>
      rw [List.singleton_append]
      unfold readChar
      split
      · next heq => cases no_backslash (List.cons.inj heq).1
      · next heq => cases no_backslash (List.cons.inj heq).1
      · next heq =>
        obtain ⟨rfl, rfl⟩ := List.cons.inj heq
        simp [visible, no_quote, no_backslash]
      · next heq => cases heq
    | @short letter _ known =>
      change readChar ('\\' :: letter :: rest) = _
      unfold readChar
      split
      · next heq =>
        -- no escape of its own begins with this letter
        cases heq
        cases known
      · next heq =>
        cases heq
        rw [known]
        rfl
      · next hother heq =>
        cases heq
        exact (hother letter rest rfl rfl).elim
      · next heq => cases heq
    | unit unit =>
      obtain ⟨no_high, no_low⟩ := not_isHigh_toNat c
      have hunit := Reads.take reads_codeUnit unit (always rest)
      simp [readChar, readUnicode, hunit, no_high, no_low, Char.ofNat_toNat]
    | @pair _ high low ds es first second is_high is_low value =>
      have hsecond := Reads.take reads_codeUnit second (always rest)
      have hfirst := Reads.take reads_codeUnit first (always ('\\' :: 'u' :: (es ++ rest)))
      simp [readChar, readUnicode, hfirst, hsecond, is_high, is_low, ← value, Char.ofNat_toNat]

/-! ### Texts in quotes -/

theorem IsChar.starts {c : Char} {cs : List Char} (written : IsChar c cs) :
    ∃ d tail, cs = d :: tail ∧ d ≠ '"' := by
  cases written with
  | plain _ no_quote => exact ⟨_, _, rfl, no_quote⟩
  | short | unit | pair => exact ⟨'\\', _, rfl, by decide⟩

theorem IsChars.length_le {s cs : List Char} (chars : IsChars s cs) : s.length ≤ cs.length := by
  induction chars with
  | nil => exact Nat.le_refl 0
  | cons first _ ih =>
    obtain ⟨d, tail, rfl, -⟩ := first.starts
    simp only [List.length_cons, List.length_append]
    omega

theorem isChars_of_readChars {fuel : Nat} {s cs rest : List Char}
    (h : readChars fuel cs = some (s, rest)) :
    ∃ front, cs = front ++ '"' :: rest ∧ IsChars s front := by
  induction fuel generalizing s cs with
  | zero => cases h
  | succ fuel ih =>
    unfold readChars at h
    split at h
    · obtain ⟨rfl, rfl⟩ := Prod.mk.inj (Option.some.inj h)
      exact ⟨[], rfl, .nil⟩
    · simp only [Option.bind_eq_bind, Option.bind_eq_some_iff, Option.some.injEq,
        Prod.mk.injEq] at h
      obtain ⟨⟨c, tail⟩, hchar, ⟨later, rest'⟩, hlater, rfl, rfl⟩ := h
      obtain ⟨front, rfl, first⟩ := (reads_char 0).sound hchar
      obtain ⟨front', rfl, chars⟩ := ih hlater
      exact ⟨front ++ front', (List.append_assoc ..).symm, .cons first chars⟩

theorem readChars_of_isChars {s cs : List Char} (chars : IsChars s cs) {fuel : Nat}
    (enough : s.length < fuel) (rest : List Char) :
    readChars fuel (cs ++ '"' :: rest) = some (s, rest) := by
  induction chars generalizing fuel with
  | nil =>
    obtain ⟨fuel, rfl⟩ := Nat.exists_eq_add_of_lt enough
    rfl
  | @cons c later cs ds first _ ih =>
    rw [List.length_cons] at enough
    obtain ⟨fuel, rfl⟩ := Nat.exists_eq_add_of_lt enough
    have hlater : readChars (later.length + 1 + fuel) (ds ++ '"' :: rest) = some (later, rest) :=
      ih (by omega)
    have hchar := Reads.take reads_char first (always (ds ++ '"' :: rest))
    rw [List.append_assoc]
    unfold readChars
    split
    · next heq =>
      obtain ⟨d, tail, rfl, hquote⟩ := first.starts
      cases hquote (List.cons.inj heq).1
    · rw [hchar]
      simp [hlater]

theorem reads_quoted (bound : Nat) : Reads readQuoted IsQuoted bound Always where
  sound := by
    intro s cs rest h
    unfold readQuoted at h
    split at h
    · simp only [Option.bind_eq_bind, Option.bind_eq_some_iff, Option.some.injEq,
        Prod.mk.injEq] at h
      obtain ⟨⟨inside, rest'⟩, hchars, rfl, rfl⟩ := h
      obtain ⟨front, rfl, chars⟩ := isChars_of_readChars hchars
      refine ⟨'"' :: (front ++ ['"']), by simp, .intro ?_⟩
      rwa [String.toList_ofList]
    · cases h
  complete := by
    intro s front rest quoted _ _
    cases quoted with
    | @intro inside chars =>
      have hlength := chars.length_le
      have enough : s.toList.length < (inside ++ '"' :: rest).length + 1 := by
        rw [List.length_append]
        omega
      have hrest : inside ++ ['"'] ++ rest = inside ++ '"' :: rest := List.append_assoc ..
      rw [List.cons_append, hrest, readQuoted, readChars_of_isChars chars enough]
      simp

/-! ### Numbers -/

theorem isDigits_of_readWhole {n : Nat} {cs rest : List Char} (h : readWhole cs = some (n, rest)) :
    ∃ ds, cs = ds ++ rest ∧ IsDigits ds n ∧ (ds.head? = some '0' → ds = ['0']) := by
  simp only [readWhole] at h
  split at h
  · cases h
  · next no_zero =>
    obtain ⟨n', digits, hpair⟩ := Option.map_eq_some_iff.mp h
    obtain ⟨rfl, rfl⟩ := Prod.mk.inj hpair
    refine ⟨_, List.takeWhile_append_dropWhile.symm, readDigits?_eq_some.mp digits, ?_⟩
    exact fun hzero => Decidable.byContradiction fun hother => no_zero ⟨hzero, hother⟩

theorem readWhole_of_isDigits {n : Nat} {ds rest : List Char} (digits : IsDigits ds n)
    (no_zero : ds.head? = some '0' → ds = ['0']) (ends : NoDigit rest) :
    readWhole (ds ++ rest) = some (n, rest) := by
  obtain ⟨htake, hdrop⟩ := digits.span ends
  rw [readWhole]
  simp only [htake, hdrop]
  rw [if_neg, readDigits?_eq_some.mpr digits]
  · rfl
  · rintro ⟨hzero, hother⟩
    exact hother (no_zero hzero)

theorem reads_number (bound : Nat) : Reads readNumber IsNumber bound NoDigit where
  sound := by
    intro i cs rest h
    unfold readNumber at h
    split at h
    · obtain ⟨n, hwhole, rfl⟩ := read_of_map (f := fun n : Nat => (-n : Int)) h
      obtain ⟨ds, rfl, digits, no_zero⟩ := isDigits_of_readWhole hwhole
      exact ⟨'-' :: ds, rfl, .minus digits no_zero⟩
    · obtain ⟨n, hwhole, rfl⟩ := read_of_map (f := fun n : Nat => (n : Int)) h
      obtain ⟨ds, rfl, digits, no_zero⟩ := isDigits_of_readWhole hwhole
      exact ⟨ds, rfl, .plain digits no_zero⟩
  complete := by
    intro i front rest number _ ends
    cases number with
    | plain digits no_zero =>
      unfold readNumber
      split
      · next heq =>
        -- digits do not begin with a minus sign
        obtain ⟨d, ds, rfl⟩ := List.exists_cons_of_ne_nil digits.ne_nil
        obtain ⟨rfl, -⟩ := List.cons.inj heq
        cases digits.ne_cons rfl ds rfl
      · rw [readWhole_of_isDigits digits no_zero ends]
        rfl
    | minus digits no_zero =>
      rw [List.cons_append, readNumber, readWhole_of_isDigits digits no_zero ends]
      rfl

/-! ### White space -/

theorem skipSpaces_append {before : List Char} (blank : IsSpaces before) (cs : List Char) :
    skipSpaces (before ++ cs) = skipSpaces cs :=
  List.dropWhile_append_of_pos blank

theorem skipSpaces_cons {c : Char} (visible : isSpace c = false) (cs : List Char) :
    skipSpaces (c :: cs) = c :: cs := by
  simp [skipSpaces, visible]

theorem skipSpaces_of_settled {rest : List Char} (ends : Settled rest) :
    skipSpaces rest = rest := by
  cases rest with
  | nil => rfl
  | cons c rest => exact skipSpaces_cons (ends c rfl).2 rest

theorem exists_skipSpaces (cs : List Char) :
    ∃ before, IsSpaces before ∧ cs = before ++ skipSpaces cs := by
  refine ⟨cs.takeWhile isSpace, ?_, List.takeWhile_append_dropWhile.symm⟩
  intro c hc
  exact List.mem_takeWhile_imp hc

/-- White space has no digit in it. -/
theorem noDigit_spaces {before rest : List Char} (blank : IsSpaces before) (ends : Settled rest) :
    NoDigit (before ++ rest) := by
  intro c hc
  cases before with
  | nil => exact (ends c hc).1
  | cons b before =>
    obtain rfl : b = c := Option.some.inj hc
    have hblank := blank b List.mem_cons_self
    simp only [isSpace, Bool.or_eq_true, beq_iff_eq] at hblank
    rcases hblank with ((rfl | rfl) | rfl) | rfl <;> rfl

/-- What the grammar has begins, perhaps behind white space, with another character than this. -/
def Opens {α : Type} (P : α → List Char → Prop) (close : Char) : Prop :=
  ∀ {a : α} {cs : List Char}, P a cs → ∃ before c tail, cs = before ++ c :: tail ∧
    IsSpaces before ∧ isSpace c = false ∧ c ≠ close

section

variable {α : Type} {r : Reader α} {P : α → List Char → Prop} {bound : Nat}

theorem reads_padded (reads : Reads r P bound NoDigit)
    (starts : ∀ {a : α} {cs : List Char}, P a cs → ∃ c tail, cs = c :: tail ∧ isSpace c = false) :
    Reads (readPadded r) (Padded P) bound Settled where
  sound := by
    intro a cs rest h
    simp only [readPadded, Option.bind_eq_bind, Option.bind_eq_some_iff, Option.some.injEq,
      Prod.mk.injEq] at h
    obtain ⟨⟨a', rest'⟩, hread, rfl, rfl⟩ := h
    obtain ⟨front, hfront, inner⟩ := reads.sound hread
    obtain ⟨before, blank, hcs⟩ := exists_skipSpaces cs
    obtain ⟨after, blank', hrest⟩ := exists_skipSpaces rest'
    refine ⟨_, ?_, .intro blank inner blank'⟩
    rw [hfront] at hcs
    rw [hcs, List.append_assoc, List.append_assoc, ← hrest]
  complete := by
    intro a front rest padded short ends
    cases padded with
    | @intro before cs after _ blank inner blank' =>
      simp only [List.length_append] at short
      have hread := reads.complete inner (by omega) (noDigit_spaces blank' ends)
      obtain ⟨c, tail, rfl, visible⟩ := starts inner
      simp only [readPadded, List.append_assoc]
      rw [skipSpaces_append blank, List.cons_append, skipSpaces_cons visible, ← List.cons_append,
        hread]
      simp [skipSpaces_append blank', skipSpaces_of_settled ends]

/-! ### Lists -/

theorem listed_of_readListed (reads : Reads r P bound Settled) {close : Char} {fuel : Nat}
    {as : List α} {cs rest : List Char} (h : readListed r close fuel cs = some (as, rest)) :
    ∃ front, cs = front ++ close :: rest ∧ Listed P as front := by
  induction fuel generalizing as cs with
  | zero => cases h
  | succ fuel ih =>
    simp only [readListed, Option.bind_eq_bind, Option.bind_eq_some_iff] at h
    obtain ⟨⟨a, tail⟩, hread, h⟩ := h
    obtain ⟨front, rfl, inner⟩ := reads.sound hread
    simp only at h
    split at h
    · next c tail =>
      split at h
      · next hclose =>
        obtain ⟨rfl, rfl⟩ := Prod.mk.inj (Option.some.inj h)
        rw [hclose]
        exact ⟨front, rfl, .one inner⟩
      · split at h
        · next hcomma =>
          simp only [Option.bind_eq_some_iff, Option.some.injEq, Prod.mk.injEq] at h
          obtain ⟨⟨as', rest'⟩, hlater, rfl, rfl⟩ := h
          obtain ⟨front', rfl, listed⟩ := ih hlater
          refine ⟨front ++ ',' :: front', ?_, .more inner listed⟩
          rw [hcomma]
          simp
        · cases h
    · cases h

theorem readListed_of_listed (reads : Reads r P bound Settled) {close : Char}
    (settled : close.isDigit = false ∧ isSpace close = false) (no_comma : close ≠ ',')
    {as : List α} {front : List Char} (listed : Listed P as front) (short : front.length < bound)
    {fuel : Nat} (enough : as.length ≤ fuel) (rest : List Char) :
    readListed r close fuel (front ++ close :: rest) = some (as, rest) := by
  induction listed generalizing fuel with
  | one only =>
    obtain ⟨fuel, rfl⟩ := Nat.exists_eq_add_of_le' enough
    have ends : Settled (close :: rest) := by
      rintro _ ⟨⟩
      exact settled
    simp [readListed, reads.complete only short ends]
  | @more a as cs ds first _ ih =>
    rw [List.length_append, List.length_cons] at short
    rw [List.length_cons] at enough
    obtain ⟨fuel, rfl⟩ := Nat.exists_eq_add_of_le' enough
    have ends : Settled (',' :: (ds ++ close :: rest)) := by
      rintro _ ⟨⟩
      exact ⟨rfl, rfl⟩
    have hfirst := reads.complete first (by omega) ends
    have hlater : readListed r close (fuel + as.length) (ds ++ close :: rest) = some (as, rest) :=
      ih (by omega) (by omega)
    simp [readListed, hfirst, hlater, no_comma.symm]

theorem Listed.opens {close : Char} (opens : Opens P close) {as : List α} {front : List Char}
    (listed : Listed P as front) : ∃ before c tail, front = before ++ c :: tail ∧
      IsSpaces before ∧ isSpace c = false ∧ c ≠ close := by
  cases listed with
  | one only => exact opens only
  | @more _ _ _ ds first _ =>
    obtain ⟨before, c, tail, rfl, starts⟩ := opens first
    exact ⟨before, c, tail ++ ',' :: ds, by simp, starts⟩

theorem Listed.length_le {close : Char} (opens : Opens P close) {as : List α} {front : List Char}
    (listed : Listed P as front) : as.length ≤ front.length := by
  induction listed with
  | one only =>
    obtain ⟨before, c, tail, rfl, -⟩ := opens only
    simp only [List.length_append, List.length_cons, List.length_nil]
    omega
  | more _ _ ih =>
    simp only [List.length_append, List.length_cons]
    omega

theorem isBody_of_readBody (reads : Reads r P bound Settled) {close : Char} {fuel : Nat}
    {as : List α} {cs rest : List Char} (h : readBody r close fuel cs = some (as, rest)) :
    ∃ front, cs = front ++ close :: rest ∧ IsBody P as front := by
  unfold readBody at h
  split at h
  · next hclose =>
    obtain ⟨rfl, rfl⟩ := Prod.mk.inj (Option.some.inj h)
    obtain ⟨before, blank, hcs⟩ := exists_skipSpaces cs
    obtain ⟨tail, htail⟩ := List.head?_eq_some_iff.mp hclose
    refine ⟨before, ?_, .empty blank⟩
    rw [htail] at hcs ⊢
    exact hcs
  · obtain ⟨front, hcs, listed⟩ := listed_of_readListed reads h
    exact ⟨front, hcs, .listed listed⟩

theorem readBody_of_isBody (reads : Reads r P bound Settled) {close : Char}
    (opens : Opens P close) (settled : close.isDigit = false ∧ isSpace close = false)
    (no_comma : close ≠ ',') {as : List α} {front : List Char} (body : IsBody P as front)
    (short : front.length < bound) (rest : List Char) :
    readBody r close bound (front ++ close :: rest) = some (as, rest) := by
  unfold readBody
  cases body with
  | empty blank =>
    rw [skipSpaces_append blank, skipSpaces_cons settled.2]
    simp
  | listed listed =>
    obtain ⟨before, c, tail, hfront, blank, visible, hc⟩ := listed.opens opens
    have hskip : skipSpaces (front ++ close :: rest) = c :: (tail ++ close :: rest) := by
      rw [hfront, List.append_assoc, skipSpaces_append blank, List.cons_append,
        skipSpaces_cons visible]
    have hopen : (skipSpaces (front ++ close :: rest)).head? ≠ some close := by
      rw [hskip]
      exact fun heq => hc (Option.some.inj heq)
    rw [if_neg hopen]
    have hlength := listed.length_le opens
    exact readListed_of_listed reads settled no_comma listed short (by omega) rest

end

/-! ### Values -/

theorem isSpace_of_isDigit {c : Char} (digit : c.isDigit = true) :
    isSpace c = false ∧ c ≠ ']' := by
  have hrange : 48 ≤ c.toNat ∧ c.toNat ≤ 57 := Char.isDigit_iff_toNat.mp digit
  constructor
  · simp only [isSpace, Bool.or_eq_false_iff, beq_eq_false_iff_ne]
    refine ⟨⟨⟨?_, ?_⟩, ?_⟩, ?_⟩ <;> rintro rfl <;> simp at hrange
  · rintro rfl
    simp at hrange

theorem IsText.starts {v : Json} {cs : List Char} (isText : IsText v cs) :
    ∃ c tail, cs = c :: tail ∧ isSpace c = false ∧ c ≠ ']' := by
  cases isText with
  | null | yes | no | array | object => exact ⟨_, _, rfl, by decide, by decide⟩
  | text quoted =>
    cases quoted
    exact ⟨_, _, rfl, by decide, by decide⟩
  | number number =>
    cases number with
    | minus => exact ⟨_, _, rfl, by decide, by decide⟩
    | plain digits =>
      obtain ⟨c, ds, rfl⟩ := List.exists_cons_of_ne_nil digits.ne_nil
      exact ⟨c, ds, rfl, isSpace_of_isDigit (digits.digits c List.mem_cons_self)⟩

theorem exists_text {v : Json} {cs : List Char} (isText : IsText v cs) :
    ∃ c tail, cs = c :: tail ∧ isSpace c = false := by
  obtain ⟨c, tail, hcs, visible, -⟩ := isText.starts
  exact ⟨c, tail, hcs, visible⟩

theorem opens_padded : Opens (Padded IsText) ']' := by
  intro v cs padded
  cases padded with
  | @intro before _ after _ blank inner =>
    obtain ⟨c, tail, rfl, visible, hc⟩ := inner.starts
    exact ⟨before, c, tail ++ after, by simp, blank, visible, hc⟩

theorem opens_member : Opens (IsMember IsText) '\x7d' := by
  intro f cs member
  cases member with
  | @intro _ _ before _ after ds blank quoted =>
    cases quoted with
    | @intro inside =>
      exact ⟨before, '"', inside ++ '"' :: (after ++ ':' :: ds), by simp, blank, by decide,
        by decide⟩

theorem reads_member {r : Reader Json} {bound : Nat} (reads : Reads r IsText bound NoDigit) :
    Reads (readMember r) (IsMember IsText) bound Settled where
  sound := by
    intro f cs rest h
    simp only [readMember, Option.bind_eq_bind, Option.bind_eq_some_iff] at h
    obtain ⟨⟨name, tail⟩, hname, h⟩ := h
    obtain ⟨quotes, hquotes, quoted⟩ := (reads_quoted bound).sound hname
    simp only at h
    split at h
    · next tail' hcolon =>
      simp only [Option.bind_eq_some_iff, Option.some.injEq, Prod.mk.injEq] at h
      obtain ⟨⟨v, rest'⟩, hvalue, rfl, rfl⟩ := h
      obtain ⟨front, hfront, padded⟩ := (reads_padded reads exists_text).sound hvalue
      obtain ⟨before, blank, hcs⟩ := exists_skipSpaces cs
      obtain ⟨after, blank', htail⟩ := exists_skipSpaces tail
      refine ⟨_, ?_, .intro blank quoted blank' padded⟩
      rw [hcs, hquotes, htail, hcolon, hfront]
      simp
    · cases h
  complete := by
    intro f front rest member short ends
    cases member with
    | @intro name v before cs after ds blank quoted blank' value =>
      simp only [List.length_append, List.length_cons] at short
      have hname := Reads.take reads_quoted quoted (always (after ++ ':' :: (ds ++ rest)))
      have hvalue := (reads_padded reads exists_text).complete value (by omega) ends
      have hskip : skipSpaces (cs ++ (after ++ ':' :: (ds ++ rest))) =
          cs ++ (after ++ ':' :: (ds ++ rest)) := by
        cases quoted
        exact skipSpaces_cons rfl _
      simp only [readMember, List.append_assoc, List.cons_append]
      rw [skipSpaces_append blank, hskip, hname]
      simp [skipSpaces_append blank', skipSpaces_cons, isSpace, hvalue]

theorem readValue_of_isNumber {n : Int} {front : List Char} (number : IsNumber n front)
    {rest : List Char} (ends : NoDigit rest) (bound : Nat) :
    readValue (bound + 1) (front ++ rest) = some (.number n, rest) := by
  have hread := Reads.take reads_number number ends
  obtain ⟨c, tail, rfl, hc⟩ : ∃ c tail, front = c :: tail ∧ (c.isDigit = true ∨ c = '-') := by
    cases number with
    | plain digits =>
      obtain ⟨c, ds, rfl⟩ := List.exists_cons_of_ne_nil digits.ne_nil
      exact ⟨c, ds, rfl, .inl (digits.digits c List.mem_cons_self)⟩
    | minus => exact ⟨'-', _, rfl, .inr rfl⟩
  rw [List.cons_append] at hread ⊢
  unfold readValue
  split
  case h_7 =>
    rw [hread]
    rfl
  -- no other text begins with a digit or a minus sign
  all_goals
    next heq =>
    obtain ⟨rfl, -⟩ := List.cons.inj heq
    rcases hc with hc | hc <;> cases hc

theorem reads_value (bound : Nat) : Reads (readValue bound) IsText bound NoDigit := by
  induction bound with
  | zero =>
    constructor
    · rintro v cs rest ⟨⟩
    · intro v front rest _ short
      omega
  | succ bound ih =>
    have readsItem := reads_padded ih exists_text
    have readsMember := reads_member ih
    constructor
    · intro v cs rest h
      unfold readValue at h
      split at h
      · cases h
        exact ⟨_, rfl, .null⟩
      · cases h
        exact ⟨_, rfl, .yes⟩
      · cases h
        exact ⟨_, rfl, .no⟩
      · obtain ⟨s, hquoted, rfl⟩ := read_of_map h
        obtain ⟨front, hfront, quoted⟩ := (reads_quoted bound).sound hquoted
        exact ⟨front, hfront, .text quoted⟩
      · obtain ⟨items, hbody, rfl⟩ := read_of_map h
        obtain ⟨front, rfl, body⟩ := isBody_of_readBody readsItem hbody
        exact ⟨'[' :: (front ++ [']']), by simp, .array body⟩
      · obtain ⟨fields, hbody, rfl⟩ := read_of_map h
        obtain ⟨front, rfl, body⟩ := isBody_of_readBody readsMember hbody
        exact ⟨'\x7b' :: (front ++ ['\x7d']), by simp, .object body⟩
      · obtain ⟨n, hnumber, rfl⟩ := read_of_map h
        obtain ⟨front, hfront, number⟩ := (reads_number bound).sound hnumber
        exact ⟨front, hfront, .number number⟩
    · intro v front rest isText short ends
      cases isText with
      | null | yes | no => rfl
      | number number => exact readValue_of_isNumber number ends bound
      | text quoted =>
        have hread := Reads.take reads_quoted quoted (always rest)
        cases quoted
        rw [List.cons_append] at hread ⊢
        rw [readValue, hread]
        rfl
      | @array items cs body =>
        have hbody := readBody_of_isBody readsItem opens_padded ⟨rfl, rfl⟩ (by decide) body
          (by simp only [List.length_cons, List.length_append] at short; omega) rest
        simp [readValue, hbody]
      | @object fields cs body =>
        have hbody := readBody_of_isBody readsMember opens_member ⟨rfl, rfl⟩ (by decide) body
          (by simp only [List.length_cons, List.length_append] at short; omega) rest
        simp [readValue, hbody]

/-- **The reader keeps to the grammar, and the grammar to the reader.** -/
theorem read?_eq_some {cs : List Char} {v : Json} : read? cs = some v ↔ Padded IsText v cs := by
  have reads := reads_padded (reads_value (cs.length + 1)) exists_text
  have ends : Settled [] := fun _ hc => by cases hc
  unfold read?
  constructor
  · intro h
    split at h
    · next hread =>
      cases h
      obtain ⟨front, rfl, padded⟩ := reads.sound hread
      rwa [List.append_nil]
    · cases h
  · intro padded
    have hread := reads.complete padded (Nat.lt_succ_self _) ends
    rw [List.append_nil] at hread
    rw [hread]

/-- A JSON text has one value at most. -/
theorem Padded.unique {cs : List Char} {v w : Json} (hv : Padded IsText v cs)
    (hw : Padded IsText w cs) : v = w :=
  Option.some.inj ((read?_eq_some.mpr hv).symm.trans (read?_eq_some.mpr hw))

end Pushdown.Text.Json
