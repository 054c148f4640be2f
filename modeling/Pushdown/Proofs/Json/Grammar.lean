/-
  Pushdown/Proofs/Json/Grammar.lean
  =================================
  **What a JSON text is.**  `IsText v cs` says that the characters are a JSON text of the
  value, for values whose numbers are whole: with white space between the tokens, with any of
  the escapes that JSON has for a character, and with the fields of an object in any order.

  What is printed is such a text, and the strictest there is: no white space, and no control
  character anywhere, so it is on one line (`isText_print`, `visible_print`).
-/
import Pushdown.Text.Json
import Pushdown.Text.Numeral

namespace Pushdown.Text.Json

/-! ### Texts in quotes -/

/-- The value of a hexadecimal digit. -/
def hexValue? (c : Char) : Option Nat :=
  let n := c.toNat
  if 48 ≤ n && n ≤ 57 then some (n - 48)
  else if 65 ≤ n && n ≤ 70 then some (n - 55)
  else if 97 ≤ n && n ≤ 102 then some (n - 87)
  else none

/-- Four hexadecimal digits of this value. -/
inductive IsCodeUnit : Nat → List Char → Prop
  | intro {a b c d : Char} {i j k l : Nat} (first : hexValue? a = some i)
      (second : hexValue? b = some j) (third : hexValue? c = some k)
      (fourth : hexValue? d = some l) :
      IsCodeUnit (((i * 16 + j) * 16 + k) * 16 + l) [a, b, c, d]

/-- The letters that stand for a character behind a backslash. -/
def shortEscapes : List (Char × Char) :=
  [('"', '"'), ('\\', '\\'), ('/', '/'), ('b', '\x08'), ('f', '\x0c'), ('n', '\n'), ('r', '\r'),
    ('t', '\t')]

/-- The code units that begin a pair, and those that end one. -/
def isHigh (n : Nat) : Bool := 0xD800 ≤ n && n < 0xDC00

def isLow (n : Nat) : Bool := 0xDC00 ≤ n && n < 0xE000

/-- The number of the character that a pair of code units stands for. -/
def pairValue (high low : Nat) : Nat := 0x10000 + (high - 0xD800) * 0x400 + (low - 0xDC00)

/-- The ways to write a character inside quotes. -/
inductive IsChar : Char → List Char → Prop
  | plain {c : Char} (visible : 0x20 ≤ c.toNat) (no_quote : c ≠ '"') (no_backslash : c ≠ '\\') :
      IsChar c [c]
  | short {letter c : Char} (known : shortEscapes.lookup letter = some c) :
      IsChar c ['\\', letter]
  | unit {c : Char} {ds : List Char} (unit : IsCodeUnit c.toNat ds) :
      IsChar c ('\\' :: 'u' :: ds)
  | pair {c : Char} {high low : Nat} {ds es : List Char} (first : IsCodeUnit high ds)
      (second : IsCodeUnit low es) (is_high : isHigh high = true) (is_low : isLow low = true)
      (value : c.toNat = pairValue high low) :
      IsChar c ('\\' :: 'u' :: (ds ++ '\\' :: 'u' :: es))

inductive IsChars : List Char → List Char → Prop
  | nil : IsChars [] []
  | cons {c : Char} {later cs ds : List Char} (first : IsChar c cs) (rest : IsChars later ds) :
      IsChars (c :: later) (cs ++ ds)

inductive IsQuoted : String → List Char → Prop
  | intro {s : String} {cs : List Char} (chars : IsChars s.toList cs) :
      IsQuoted s ('"' :: (cs ++ ['"']))

/-! ### Numbers -/

/-- Digits without a leading zero, a minus sign before them or not. -/
inductive IsNumber : Int → List Char → Prop
  | plain {n : Nat} {ds : List Char} (digits : IsDigits ds n)
      (no_zero : ds.head? = some '0' → ds = ['0']) : IsNumber n ds
  | minus {n : Nat} {ds : List Char} (digits : IsDigits ds n)
      (no_zero : ds.head? = some '0' → ds = ['0']) : IsNumber (-n) ('-' :: ds)

/-! ### Values -/

/-- The white space of JSON. -/
def isSpace (c : Char) : Bool := c == ' ' || c == '\t' || c == '\n' || c == '\r'

def IsSpaces (cs : List Char) : Prop := ∀ c ∈ cs, isSpace c = true

section

variable {α : Type}

/-- With white space on both sides. -/
inductive Padded (P : α → List Char → Prop) : α → List Char → Prop
  | intro {before cs after : List Char} {a : α} (blank : IsSpaces before) (inner : P a cs)
      (blank' : IsSpaces after) : Padded P a (before ++ (cs ++ after))

/-- One or more, with a comma between each two. -/
inductive Listed (P : α → List Char → Prop) : List α → List Char → Prop
  | one {a : α} {cs : List Char} (only : P a cs) : Listed P [a] cs
  | more {a : α} {as : List α} {cs ds : List Char} (first : P a cs) (rest : Listed P as ds) :
      Listed P (a :: as) (cs ++ ',' :: ds)

/-- What stands between the brackets of an array or an object. -/
inductive IsBody (P : α → List Char → Prop) : List α → List Char → Prop
  | empty {cs : List Char} (blank : IsSpaces cs) : IsBody P [] cs
  | listed {as : List α} {cs : List Char} (listed : Listed P as cs) : IsBody P as cs

end

/-- A name, a colon and a value. -/
inductive IsMember (P : Json → List Char → Prop) : String × Json → List Char → Prop
  | intro {name : String} {v : Json} {before cs after ds : List Char} (blank : IsSpaces before)
      (quoted : IsQuoted name cs) (blank' : IsSpaces after) (value : Padded P v ds) :
      IsMember P (name, v) (before ++ (cs ++ (after ++ ':' :: ds)))

/-- The JSON texts of a value. -/
inductive IsText : Json → List Char → Prop
  | null : IsText .null ['n', 'u', 'l', 'l']
  | yes : IsText (.bool true) ['t', 'r', 'u', 'e']
  | no : IsText (.bool false) ['f', 'a', 'l', 's', 'e']
  | number {n : Int} {cs : List Char} (number : IsNumber n cs) : IsText (.number n) cs
  | text {s : String} {cs : List Char} (quoted : IsQuoted s cs) : IsText (.text s) cs
  | array {items : List Json} {cs : List Char} (body : IsBody (Padded IsText) items cs) :
      IsText (.array items) ('[' :: (cs ++ [']']))
  | object {fields : List (String × Json)} {cs : List Char}
      (body : IsBody (IsMember IsText) fields cs) :
      IsText (.object fields) ('\x7b' :: (cs ++ ['\x7d']))

/-! ### Values by their parts -/

/-- What holds of a list and of an object if it holds of their parts holds of every value. -/
theorem induction {P : Json → Prop} (null : P .null) (bool : ∀ b, P (.bool b))
    (number : ∀ n, P (.number n)) (text : ∀ s, P (.text s))
    (array : ∀ items, (∀ v ∈ items, P v) → P (.array items))
    (object : ∀ fields, (∀ f ∈ fields, P f.2) → P (.object fields)) : ∀ v, P v
  | .null => null
  | .bool b => bool b
  | .number n => number n
  | .text s => text s
  | .array items => array items fun v _ => induction null bool number text array object v
  | .object fields => object fields fun f _ => induction null bool number text array object f.2
termination_by v => sizeOf v
decreasing_by
  · have hsize := List.sizeOf_lt_of_mem ‹v ∈ items›
    simp only [Json.array.sizeOf_spec]
    omega
  · have hsize := List.sizeOf_lt_of_mem ‹f ∈ fields›
    have hpair : sizeOf f = 1 + sizeOf f.1 + sizeOf f.2 := by cases f; rfl
    simp only [Json.object.sizeOf_spec]
    omega

/-! ### What is printed -/

theorem hexValue?_digitChar : ∀ n < 16, hexValue? n.digitChar = some n := by decide

theorem visible_digitChar : ∀ n < 16, 0x20 ≤ n.digitChar.toNat := by decide

theorem isChar_escape (c : Char) : IsChar c (escape c) := by
  unfold escape
  split
  · exact .short rfl
  · exact .short rfl
  · exact .short rfl
  · exact .short rfl
  · exact .short rfl
  · exact .short rfl
  · exact .short rfl
  · next no_quote no_backslash _ _ _ _ _ =>
    split
    · next hcontrol =>
      have hvalue : c.toNat = ((0 * 16 + 0) * 16 + c.toNat / 16) * 16 + c.toNat % 16 := by omega
      have digits : IsCodeUnit _
          ['0', '0', Nat.digitChar (c.toNat / 16), Nat.digitChar (c.toNat % 16)] :=
        .intro (i := 0) (j := 0) (by decide) (by decide) (hexValue?_digitChar _ (by omega))
          (hexValue?_digitChar _ (by omega))
      rw [← hvalue] at digits
      exact .unit digits
    · next hvisible => exact .plain (by omega) no_quote no_backslash

theorem visible_escape {c d : Char} (hd : d ∈ escape c) : 0x20 ≤ d.toNat := by
  unfold escape at hd
  split at hd
  case h_8 =>
    split at hd
    · next hcontrol =>
      simp only [List.mem_cons, List.not_mem_nil, or_false] at hd
      rcases hd with rfl | rfl | rfl | rfl | rfl | rfl
      · decide
      · decide
      · decide
      · decide
      · exact visible_digitChar _ (by omega)
      · exact visible_digitChar _ (by omega)
    · next hvisible =>
      obtain rfl := List.mem_singleton.mp hd
      omega
  all_goals
    simp only [List.mem_cons, List.not_mem_nil, or_false] at hd
    rcases hd with rfl | rfl <;> decide

theorem isChars_flatMap_escape (cs : List Char) : IsChars cs (cs.flatMap escape) := by
  induction cs with
  | nil => exact .nil
  | cons c cs ih => exact .cons (isChar_escape c) ih

theorem isQuoted_printText (s : String) : IsQuoted s (printText s) :=
  .intro (isChars_flatMap_escape s.toList)

theorem visible_enclosed {before after : Char} (hbefore : 0x20 ≤ before.toNat)
    (hafter : 0x20 ≤ after.toNat) {cs : List Char} (inside : ∀ d ∈ cs, 0x20 ≤ d.toNat) :
    ∀ d ∈ before :: cs ++ [after], 0x20 ≤ d.toNat := by
  intro d hd
  simp only [List.cons_append, List.mem_cons, List.mem_append, List.not_mem_nil, or_false] at hd
  rcases hd with rfl | hd | rfl
  · exact hbefore
  · exact inside d hd
  · exact hafter

theorem visible_printText (s : String) : ∀ d ∈ printText s, 0x20 ≤ d.toNat := by
  apply visible_enclosed (by decide) (by decide)
  intro d hd
  obtain ⟨c, -, hd⟩ := List.mem_flatMap.mp hd
  exact visible_escape hd

theorem isNumber_toString (n : Int) : IsNumber n (toString n).toList := by
  rw [toList_toString_int, signedDigits]
  split
  · next hneg =>
    have habs : -(n.natAbs : Int) = n := by omega
    have number := IsNumber.minus (isDigits_digits n.natAbs) digits_of_head?
    rwa [habs] at number
  · next hpos =>
    have habs : (n.natAbs : Int) = n := by omega
    have number := IsNumber.plain (isDigits_digits n.natAbs) digits_of_head?
    rwa [habs] at number

theorem visible_toString (n : Int) : ∀ d ∈ (toString n).toList, 0x20 ≤ d.toNat := by
  intro d hd
  rw [toList_toString_int] at hd
  rcases (isSigned_signedDigits n).isDigit_or_minus hd with digit | rfl
  · have hrange : 48 ≤ d.toNat ∧ d.toNat ≤ 57 := Char.isDigit_iff_toNat.mp digit
    omega
  · decide

theorem isSpaces_nil : IsSpaces [] := List.forall_mem_nil _

theorem padded_of {P : Json → List Char → Prop} {v : Json} {cs : List Char} (inner : P v cs) :
    Padded P v cs := by
  have padded := Padded.intro isSpaces_nil inner isSpaces_nil
  rwa [List.nil_append, List.append_nil] at padded

theorem isMember_print {f : String × Json} (value : IsText f.2 f.2.print) :
    IsMember IsText f (printText f.1 ++ ':' :: f.2.print) :=
  .intro isSpaces_nil (isQuoted_printText f.1) isSpaces_nil (padded_of value)

theorem isBody_printItems {items : List Json} (parts : ∀ v ∈ items, IsText v v.print) :
    IsBody (Padded IsText) items (printItems items) := by
  cases items with
  | nil => exact .empty isSpaces_nil
  | cons v items =>
    refine .listed ?_
    induction items generalizing v with
    | nil => exact .one (padded_of (parts v List.mem_cons_self))
    | cons w items ih =>
      obtain ⟨hv, hrest⟩ := List.forall_mem_cons.mp parts
      exact .more (padded_of hv) (ih w hrest)

theorem printFields_cons_cons (f g : String × Json) (fields : List (String × Json)) :
    printFields (f :: g :: fields) =
      (printText f.1 ++ ':' :: f.2.print) ++ ',' :: printFields (g :: fields) := by
  simp [printFields]

theorem isBody_printFields {fields : List (String × Json)}
    (parts : ∀ f ∈ fields, IsText f.2 f.2.print) :
    IsBody (IsMember IsText) fields (printFields fields) := by
  cases fields with
  | nil => exact .empty isSpaces_nil
  | cons f fields =>
    refine .listed ?_
    induction fields generalizing f with
    | nil => exact .one (isMember_print (parts f List.mem_cons_self))
    | cons g fields ih =>
      obtain ⟨hf, hrest⟩ := List.forall_mem_cons.mp parts
      rw [printFields_cons_cons]
      exact .more (isMember_print hf) (ih g hrest)

/-- **What is printed of a value is a JSON text of it.** -/
theorem isText_print (v : Json) : IsText v v.print := by
  induction v using Json.induction with
  | null => exact .null
  | bool b =>
    cases b with
    | true => exact .yes
    | false => exact .no
  | number n => exact .number (isNumber_toString n)
  | text s => exact .text (isQuoted_printText s)
  | array items ih => exact .array (isBody_printItems ih)
  | object fields ih => exact .object (isBody_printFields ih)

theorem visible_printItems {items : List Json}
    (parts : ∀ v ∈ items, ∀ d ∈ v.print, 0x20 ≤ d.toNat) :
    ∀ d ∈ printItems items, 0x20 ≤ d.toNat := by
  induction items with
  | nil => simp [printItems]
  | cons v items ih =>
    obtain ⟨hv, hrest⟩ := List.forall_mem_cons.mp parts
    cases items with
    | nil => exact hv
    | cons w items =>
      rw [printItems]
      exact List.forall_mem_append.mpr ⟨hv, List.forall_mem_cons.mpr ⟨by decide, ih hrest⟩⟩

theorem visible_printFields {fields : List (String × Json)}
    (parts : ∀ f ∈ fields, ∀ d ∈ f.2.print, 0x20 ≤ d.toNat) :
    ∀ d ∈ printFields fields, 0x20 ≤ d.toNat := by
  induction fields with
  | nil => simp [printFields]
  | cons f fields ih =>
    obtain ⟨hf, hrest⟩ := List.forall_mem_cons.mp parts
    have hmember : ∀ d ∈ printText f.1 ++ ':' :: f.2.print, 0x20 ≤ d.toNat :=
      List.forall_mem_append.mpr
        ⟨visible_printText f.1, List.forall_mem_cons.mpr ⟨by decide, hf⟩⟩
    cases fields with
    | nil => exact hmember
    | cons g fields =>
      rw [printFields_cons_cons]
      exact List.forall_mem_append.mpr
        ⟨hmember, List.forall_mem_cons.mpr ⟨by decide, ih hrest⟩⟩

/-- No control character is printed. -/
theorem visible_print (v : Json) : ∀ d ∈ v.print, 0x20 ≤ d.toNat := by
  induction v using Json.induction with
  | null => simp [print]
  | bool b => cases b <;> simp [print]
  | number n => exact visible_toString n
  | text s => exact visible_printText s
  | array items ih =>
    rw [print]
    exact visible_enclosed (by decide) (by decide) (visible_printItems ih)
  | object fields ih =>
    rw [print]
    exact visible_enclosed (by decide) (by decide) (visible_printFields ih)

end Pushdown.Text.Json
