/-
  Pushdown/Proofs/Console/Numerals.lean
  =====================================
  **Numbers as they are typed.**  A number of 64 bits is typed as digits, and a plus sign may
  stand before them.  `IsNumeral` says this of a word without the reader, and these are exactly
  the words that the reader takes (`readUInt64?_eq_some`), on the console as in the VM's replies.
-/
import Pushdown.Text.Blank
import Pushdown.Text.Numeral

namespace Pushdown.Console

open Text

/-- The word is a number of this value: digits, perhaps with a plus sign before them. -/
def IsNumeral (w : String) (n : UInt64) : Prop :=
  ∃ ds : List Char, (w.toList = ds ∨ w.toList = '+' :: ds) ∧ ds ≠ [] ∧
    (∀ c ∈ ds, c.isDigit = true) ∧ Nat.ofDigitChars 10 ds 0 = n.toNat

variable {a : String} {n : UInt64}

theorem readUInt64?_eq_some : readUInt64? a.toList = some n ↔ IsNumeral a n := by
  rw [readUInt64?, Option.map_eq_some_iff]
  constructor
  · rintro ⟨m, hm, rfl⟩
    obtain ⟨hbound, ds, shape, digits⟩ := readBelow?_eq_some.mp hm
    have hvalue := digits.value.trans (UInt64.toNat_ofNat_of_lt' hbound).symm
    exact ⟨ds, shape, digits.ne_nil, digits.digits, hvalue⟩
  · rintro ⟨ds, shape, hne, hdigits, hvalue⟩
    refine ⟨n.toNat, ?_, UInt64.ofNat_toNat⟩
    exact readBelow?_eq_some.mpr ⟨n.toNat_lt_size, ds, shape, hne, hdigits, hvalue⟩

theorem isNumeral_toString (n : UInt64) : IsNumeral (toString n) n :=
  readUInt64?_eq_some.mp (readUInt64?_toString n)

/-- A word is a number of one value at most. -/
theorem IsNumeral.unique {m : UInt64} (hn : IsNumeral a n) (hm : IsNumeral a m) : n = m :=
  Option.some.inj ((readUInt64?_eq_some.mpr hn).symm.trans (readUInt64?_eq_some.mpr hm))

theorem isWord_of_isNumeral (h : IsNumeral a n) : IsWord a.toList := by
  obtain ⟨ds, rfl | hplus, hne, hdigits, -⟩ := h
  · exact ⟨hne, fun c hc => isBlank_of_isDigit (hdigits c hc)⟩
  · rw [hplus]
    refine ⟨List.cons_ne_nil _ _, fun c hc => ?_⟩
    rcases List.mem_cons.mp hc with rfl | hc
    · rfl
    · exact isBlank_of_isDigit (hdigits c hc)

end Pushdown.Console
