/-
  Pushdown/Text/Numeral.lean
  ==========================
  **Numbers in text.**  One rule for every number the debugger reads: an
  optional sign, then one or more ASCII digits, nothing else, and a value that
  fits.  A plus sign is always allowed, a minus sign only where negative numbers
  exist, so `-0` is a signed number and not an unsigned one.

  `IsDigits` and `IsSigned` say of a text which number it is.
-/

namespace Pushdown.Text

/-- The decimal digits of `n`, without leading zeros. -/
def digits (n : Nat) : List Char := Nat.toDigits 10 n

/-- The value of a non-empty list of ASCII digits. -/
def readDigits? (cs : List Char) : Option Nat :=
  if !cs.isEmpty && cs.all Char.isDigit then some (Nat.ofDigitChars 10 cs 0) else none

/-- An unsigned number below `bound`, an optional plus sign before it. -/
def readBelow? (bound : Nat) (cs : List Char) : Option Nat :=
  let unsigned := match cs with
    | '+' :: rest => rest
    | _ => cs
  (readDigits? unsigned).filter (· < bound)

/-- A number of 64 bits. -/
def readUInt64? (cs : List Char) : Option UInt64 :=
  (readBelow? UInt64.size cs).map UInt64.ofNat

/-- The signed numbers of 64 bits reach down to the negative of this number, which
    they do not reach themselves. -/
def signedBound : Nat := 0x8000000000000000

/-- A signed number of 64 bits. -/
def readInt64? (cs : List Char) : Option Int64 :=
  match cs with
  | '-' :: rest => ((readDigits? rest).filter (· ≤ signedBound)).map (fun n => Int64.ofInt (-n))
  | _ => (readBelow? signedBound cs).map (fun n => Int64.ofInt n)

/-- The written form of a signed number. -/
def signedDigits (i : Int) : List Char :=
  if i < 0 then '-' :: digits i.natAbs else digits i.natAbs

/-! ### The texts that are numbers -/

/-- ASCII digits that have this value. -/
structure IsDigits (cs : List Char) (n : Nat) : Prop where
  ne_nil : cs ≠ []
  digits : ∀ c ∈ cs, c.isDigit = true
  value : Nat.ofDigitChars 10 cs 0 = n

/-- Digits, or a minus sign and digits, that have this value. -/
inductive IsSigned : List Char → Int → Prop
  | plain {ds : List Char} {n : Nat} (digits : IsDigits ds n) : IsSigned ds n
  | minus {ds : List Char} {n : Nat} (digits : IsDigits ds n) : IsSigned ('-' :: ds) (-n)

theorem readDigits?_eq_some {cs : List Char} {n : Nat} :
    readDigits? cs = some n ↔ IsDigits cs n := by
  simp only [readDigits?, Option.ite_none_right_eq_some, Bool.and_eq_true, Bool.not_eq_true',
    List.isEmpty_eq_false_iff, List.all_eq_true, Option.some.injEq]
  exact ⟨fun h => ⟨h.1.1, h.1.2, h.2⟩, fun h => ⟨⟨h.ne_nil, h.digits⟩, h.value⟩⟩

/-- No sign stands before digits. -/
theorem IsDigits.ne_cons {ds : List Char} {n : Nat} (digits : IsDigits ds n) {c : Char}
    (hc : c.isDigit = false) (rest : List Char) : ds ≠ c :: rest := by
  rintro rfl
  cases hc.symm.trans (digits.digits c List.mem_cons_self)

theorem readBelow?_eq_some {cs : List Char} {bound n : Nat} :
    readBelow? bound cs = some n ↔
      n < bound ∧ ∃ ds, (cs = ds ∨ cs = '+' :: ds) ∧ IsDigits ds n := by
  unfold readBelow?
  simp only [Option.filter_eq_some_iff, decide_eq_true_eq, readDigits?_eq_some]
  split
  · next rest =>
    constructor
    · rintro ⟨digits, hn⟩
      exact ⟨hn, rest, .inr rfl, digits⟩
    · rintro ⟨hn, ds, rfl | hds, digits⟩
      · cases digits.ne_cons rfl rest rfl
      · obtain ⟨-, rfl⟩ := List.cons.inj hds
        exact ⟨digits, hn⟩
  · next unsigned =>
    constructor
    · rintro ⟨digits, hn⟩
      exact ⟨hn, cs, .inl rfl, digits⟩
    · rintro ⟨hn, ds, rfl | rfl, digits⟩
      · exact ⟨digits, hn⟩
      · cases unsigned ds rfl

theorem IsSigned.no_plus {cs : List Char} {i : Int} (signed : IsSigned cs i) :
    cs.head? ≠ some '+' := by
  intro hhead
  cases signed with
  | plain digits =>
    obtain ⟨rest, hcs⟩ := List.head?_eq_some_iff.mp hhead
    exact digits.ne_cons rfl rest hcs
  | minus => cases hhead

theorem IsSigned.isDigit_or_minus {cs : List Char} {i : Int} (signed : IsSigned cs i) {c : Char}
    (hc : c ∈ cs) : c.isDigit = true ∨ c = '-' := by
  cases signed with
  | plain digits => exact .inl (digits.digits c hc)
  | minus digits =>
    rcases List.mem_cons.mp hc with rfl | hc
    · exact .inr rfl
    · exact .inl (digits.digits c hc)

/-- A text is a number of one value at most. -/
theorem IsSigned.unique {cs : List Char} {i j : Int} (hi : IsSigned cs i) (hj : IsSigned cs j) :
    i = j := by
  cases hi with
  | plain digits =>
    cases hj with
    | plain digits' => rw [← digits.value, ← digits'.value]
    | minus => cases digits.ne_cons rfl _ rfl
  | minus digits =>
    generalize hcs : '-' :: _ = cs at hj
    cases hj with
    | plain digits' => cases digits'.ne_cons rfl _ hcs.symm
    | minus digits' =>
      obtain ⟨-, rfl⟩ := List.cons.inj hcs
      rw [← digits.value, ← digits'.value]

/-- Where no plus sign stands at the front, the signed numbers are the digits with at most
    a minus sign before them. -/
theorem readInt64?_eq_some {cs : List Char} {i : Int64} (no_plus : cs.head? ≠ some '+') :
    readInt64? cs = some i ↔ IsSigned cs i.toInt := by
  have hbound : signedBound = 2 ^ 63 := rfl
  unfold readInt64?
  split
  · next rest =>
    simp only [Option.map_eq_some_iff, Option.bind_eq_bind, Option.bind_eq_some_iff,
      Option.filter_eq_some_iff, decide_eq_true_eq, readDigits?_eq_some, Option.pure_def,
      Option.some.injEq]
    constructor
    · rintro ⟨_, ⟨n, ⟨digits, hn⟩, rfl⟩, rfl⟩
      rw [Int64.toInt_ofInt_of_le (by omega) (by omega)]
      exact .minus digits
    · intro signed
      generalize htoInt : i.toInt = v at signed
      cases signed with
      | plain digits => cases digits.ne_cons rfl rest rfl
      | @minus _ n digits =>
        have hlow := i.le_toInt
        refine ⟨n, ⟨n, ⟨digits, by omega⟩, rfl⟩, ?_⟩
        rw [← htoInt, Int64.ofInt_toInt]
  · next no_minus =>
    simp only [Option.map_eq_some_iff, Option.bind_eq_bind, Option.bind_eq_some_iff,
      readBelow?_eq_some, Option.pure_def, Option.some.injEq]
    constructor
    · rintro ⟨_, ⟨n, ⟨hn, ds, rfl | rfl, digits⟩, rfl⟩, rfl⟩
      · rw [Int64.toInt_ofInt_of_le (by omega) (by omega)]
        exact .plain digits
      · cases no_plus rfl
    · intro signed
      generalize htoInt : i.toInt = v at signed
      cases signed with
      | @plain _ n digits =>
        have hhigh := i.toInt_lt
        refine ⟨n, ⟨n, ⟨by omega, cs, .inl rfl, digits⟩, rfl⟩, ?_⟩
        rw [← htoInt, Int64.ofInt_toInt]
      | @minus ds n digits => cases no_minus ds rfl

/-! ### Reading what was written -/

theorem digits_ne_nil (n : Nat) : digits n ≠ [] := by
  simp [digits]

theorem all_isDigit_digits (n : Nat) : (digits n).all Char.isDigit = true :=
  List.all_eq_true.2 fun _ hc => Nat.isDigit_of_mem_toDigits (by decide) (by decide) hc

theorem isDigits_digits (n : Nat) : IsDigits (digits n) n where
  ne_nil := digits_ne_nil n
  digits := List.all_eq_true.mp (all_isDigit_digits n)
  value := by simp [digits]

/-- The digits of a number begin with a zero only if the number is zero. -/
theorem digits_of_head? {n : Nat} (h : (digits n).head? = some '0') : digits n = ['0'] := by
  induction n using Nat.strongRecOn with
  | _ n ih =>
    by_cases hsmall : n < 10
    · have hone : digits n = [n.digitChar] := Nat.toDigits_of_lt_base hsmall
      rw [hone] at h ⊢
      exact congrArg (· :: []) (Option.some.inj h)
    · have hfront : digits n = digits (n / 10) ++ [(n % 10).digitChar] :=
        Nat.toDigits_of_base_le (by decide) (by omega)
      have hhead : (digits (n / 10)).head? = some '0' := by
        rw [hfront, List.head?_append] at h
        cases hdigits : digits (n / 10) with
        | nil => exact (digits_ne_nil _ hdigits).elim
        | cons c rest => rwa [hdigits] at h
      have hzero := (isDigits_digits (n / 10)).value
      rw [ih (n / 10) (by omega) hhead] at hzero
      -- so there would be no more than one digit
      change 0 = n / 10 at hzero
      omega

theorem readDigits?_digits (n : Nat) : readDigits? (digits n) = some n :=
  readDigits?_eq_some.mpr (isDigits_digits n)

theorem ne_of_mem_digits {n : Nat} {c d : Char} (hc : c ∈ digits n) (hd : d.isDigit = false) :
    c ≠ d := by
  rintro rfl
  cases hd.symm.trans (List.all_eq_true.mp (all_isDigit_digits n) c hc)

/-- Digits end where no digit follows. -/
theorem IsDigits.span {ds : List Char} {n : Nat} (digits : IsDigits ds n) {rest : List Char}
    (hrest : ∀ c ∈ rest.head?, c.isDigit = false) :
    (ds ++ rest).takeWhile Char.isDigit = ds ∧ (ds ++ rest).dropWhile Char.isDigit = rest := by
  rw [List.takeWhile_append_of_pos digits.digits, List.dropWhile_append_of_pos digits.digits]
  cases rest with
  | nil => simp
  | cons c rest =>
    have hc : ¬c.isDigit = true := by simp [hrest c rfl]
    simp [hc]

theorem readBelow?_digits {n bound : Nat} (h : n < bound) :
    readBelow? bound (digits n) = some n :=
  readBelow?_eq_some.mpr ⟨h, _, .inl rfl, isDigits_digits n⟩

theorem toList_toString_uInt64 (n : UInt64) : (toString n).toList = digits n.toNat :=
  Nat.toList_repr

theorem readUInt64?_toString (n : UInt64) : readUInt64? (toString n).toList = some n := by
  rw [toList_toString_uInt64, readUInt64?, readBelow?_digits n.toNat_lt_size]
  simp

theorem toList_toString_int (i : Int) : (toString i).toList = signedDigits i := by
  cases i with
  | ofNat n => exact Nat.toList_repr
  | negSucc n =>
    change ("-" ++ Nat.repr (n + 1)).toList = _
    rw [String.toList_append, Nat.toList_repr, signedDigits, if_pos (Int.negSucc_lt_zero n)]
    rfl

theorem toList_toString_int64 (i : Int64) : (toString i).toList = signedDigits i.toInt :=
  toList_toString_int i.toInt

theorem isSigned_signedDigits (i : Int) : IsSigned (signedDigits i) i := by
  rw [signedDigits]
  split
  · next hneg =>
    have habs : -(i.natAbs : Int) = i := by omega
    have signed := IsSigned.minus (isDigits_digits i.natAbs)
    rwa [habs] at signed
  · next hpos =>
    have habs : (i.natAbs : Int) = i := by omega
    have signed := IsSigned.plain (isDigits_digits i.natAbs)
    rwa [habs] at signed

end Pushdown.Text
