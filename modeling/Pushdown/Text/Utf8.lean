/-
  Pushdown/Text/Utf8.lean
  =======================
  **UTF-8, strict and lossy.**  Text goes to the VM as UTF-8 and comes back as
  bytes that nobody vouches for.  Two readings are needed:

  * `decodeLossy` never fails: each *maximal subpart* of an ill-formed sequence —
    the longest piece that could still have become a character, or one byte —
    reads as one U+FFFD;
  * `decode?` refuses the whole text as soon as one sequence is ill-formed.

  Both take one character at a time off the front with `firstChar?`.
-/

namespace Pushdown.Text.Utf8

/-- The bytes of a text. -/
def encode (cs : List Char) : List UInt8 :=
  cs.flatMap String.utf8EncodeChar

/-- The well-formed character at the front, if there is one. -/
def firstChar? (bs : List UInt8) : Option Char :=
  (bs.take 4).toByteArray.utf8DecodeChar? 0

/-! ### Ill-formed sequences -/

/-- For a first byte of a longer sequence: how many bytes follow it, and the
    range of the first of them. -/
def followers? (lead : UInt8) : Option (Nat × UInt8 × UInt8) :=
  if 0xC2 ≤ lead && lead ≤ 0xDF then some (1, 0x80, 0xBF)
  else if lead == 0xE0 then some (2, 0xA0, 0xBF)
  else if lead == 0xED then some (2, 0x80, 0x9F)
  else if 0xE1 ≤ lead && lead ≤ 0xEF then some (2, 0x80, 0xBF)
  else if lead == 0xF0 then some (3, 0x90, 0xBF)
  else if lead == 0xF4 then some (3, 0x80, 0x8F)
  else if 0xF1 ≤ lead && lead ≤ 0xF3 then some (3, 0x80, 0xBF)
  else none

def isContinuation (b : UInt8) : Bool := 0x80 ≤ b && b ≤ 0xBF

/-- The length of the maximal subpart at the front of an ill-formed text. -/
def stubLength : List UInt8 → Nat
  | lead :: second :: rest =>
    match followers? lead with
    | some (count, low, high) =>
      if low ≤ second && second ≤ high then
        2 + ((rest.take (count - 1)).takeWhile isContinuation).length
      else 1
    | none => 1
  | _ => 1

theorem stubLength_pos (bs : List UInt8) : 0 < stubLength bs := by
  unfold stubLength
  split
  · split
    · split <;> omega
    · omega
  · omega

/-! ### Reading -/

/-- The text of the bytes, U+FFFD for each maximal ill-formed subpart. -/
def decodeLossy (bs : List UInt8) : List Char :=
  match bs with
  | [] => []
  | b :: rest =>
    match firstChar? (b :: rest) with
    | some c => c :: decodeLossy ((b :: rest).drop c.utf8Size)
    | none => '\uFFFD' :: decodeLossy ((b :: rest).drop (stubLength (b :: rest)))
termination_by bs.length
decreasing_by
  · have := Char.utf8Size_pos c
    simp only [List.length_drop, List.length_cons]
    omega
  · have := stubLength_pos (b :: rest)
    simp only [List.length_drop, List.length_cons]
    omega

/-- The text of the bytes, unless they are ill-formed. -/
def decode? (bs : List UInt8) : Option (List Char) :=
  match bs with
  | [] => some []
  | b :: rest =>
    match firstChar? (b :: rest) with
    | some c => (decode? ((b :: rest).drop c.utf8Size)).map (c :: ·)
    | none => none
termination_by bs.length
decreasing_by
  have := Char.utf8Size_pos c
  simp only [List.length_drop, List.length_cons]
  omega

/-! ### Reading what was written -/

theorem encode_append (cs ds : List Char) : encode (cs ++ ds) = encode cs ++ encode ds :=
  List.flatMap_append

theorem firstChar?_encode (c : Char) (bs : List UInt8) :
    firstChar? (String.utf8EncodeChar c ++ bs) = some c := by
  have hlength : (String.utf8EncodeChar c).length ≤ 4 := by
    rw [String.length_utf8EncodeChar]
    exact c.utf8Size_le_four
  rw [firstChar?, List.take_append, List.take_of_length_le hlength, List.toByteArray_append]
  exact ByteArray.utf8DecodeChar?_utf8EncodeChar_append

/-- A written character is at the front, and the rest is behind it. -/
theorem exists_encode_cons (c : Char) (cs : List Char) (bs : List UInt8) :
    ∃ b rest, encode (c :: cs) ++ bs = b :: rest ∧ firstChar? (b :: rest) = some c ∧
      (b :: rest).drop c.utf8Size = encode cs ++ bs := by
  have hsize := String.length_utf8EncodeChar c
  have hfirst := firstChar?_encode c (encode cs ++ bs)
  have hdrop : (String.utf8EncodeChar c ++ (encode cs ++ bs)).drop c.utf8Size =
      encode cs ++ bs := by
    rw [← hsize, List.drop_left]
  have hbytes : encode (c :: cs) ++ bs = String.utf8EncodeChar c ++ (encode cs ++ bs) := by
    simp [encode]
  rw [hbytes]
  -- the character takes at least one byte
  cases hencoded : String.utf8EncodeChar c ++ (encode cs ++ bs) with
  | nil =>
    have hpos := c.utf8Size_pos
    have hlength := congrArg List.length hencoded
    simp only [List.length_append, List.length_nil] at hlength
    omega
  | cons b rest =>
    rw [hencoded] at hfirst hdrop
    exact ⟨b, rest, rfl, hfirst, hdrop⟩

/-- What was written reads as it was, whatever comes after it. -/
theorem decodeLossy_encode_append (cs : List Char) (bs : List UInt8) :
    decodeLossy (encode cs ++ bs) = cs ++ decodeLossy bs := by
  induction cs with
  | nil => rfl
  | cons c cs ih =>
    obtain ⟨b, rest, hbytes, hfirst, hdrop⟩ := exists_encode_cons c cs bs
    rw [hbytes, List.cons_append, ← ih, decodeLossy, hfirst]
    simp only [hdrop]

theorem decodeLossy_encode (cs : List Char) : decodeLossy (encode cs) = cs := by
  have h := decodeLossy_encode_append cs []
  rwa [List.append_nil, decodeLossy, List.append_nil] at h

/-! ### Strict reading -/

theorem decode?_encode (cs : List Char) : decode? (encode cs) = some cs := by
  induction cs with
  | nil => rw [encode, List.flatMap_nil, decode?]
  | cons c cs ih =>
    obtain ⟨b, rest, hbytes, hfirst, hdrop⟩ := exists_encode_cons c cs []
    rw [List.append_nil] at hbytes hdrop
    rw [hbytes, decode?, hfirst]
    simp only [hdrop, ih, Option.map_some]

/-- The character at the front is there as its bytes. -/
theorem eq_of_firstChar? {bs : List UInt8} {c : Char} (h : firstChar? bs = some c) :
    bs = String.utf8EncodeChar c ++ bs.drop c.utf8Size := by
  obtain ⟨l, hl⟩ := ByteArray.exists_of_utf8DecodeChar?_eq_some h
  have htake : bs.take 4 = String.utf8EncodeChar c ++ l.data.toList := by
    have hdata := congrArg (fun b : ByteArray => b.data.toList) hl
    simpa using hdata
  have hbs : bs = String.utf8EncodeChar c ++ (l.data.toList ++ bs.drop 4) := by
    rw [← List.append_assoc, ← htake, List.take_append_drop]
  have hdrop : bs.drop c.utf8Size = l.data.toList ++ bs.drop 4 := by
    rw [← String.length_utf8EncodeChar c]
    exact (congrArg (List.drop _) hbs).trans List.drop_left
  rw [hdrop]
  exact hbs

theorem eq_encode_of_decode? {bs : List UInt8} {cs : List Char} (h : decode? bs = some cs) :
    bs = encode cs := by
  fun_induction decode? bs generalizing cs with
  | case1 =>
    cases h
    rfl
  | case2 b rest c hfirst ih =>
    obtain ⟨later, hlater, rfl⟩ := Option.map_eq_some_iff.mp h
    have hbytes := eq_of_firstChar? hfirst
    rw [ih hlater] at hbytes
    simpa [encode] using hbytes
  | case3 => cases h

/-- What is read is what has been written, and nothing else can be read. -/
theorem decode?_eq_some {bs : List UInt8} {cs : List Char} :
    decode? bs = some cs ↔ bs = encode cs :=
  ⟨eq_encode_of_decode?, fun h => h ▸ decode?_encode cs⟩

/-! ### Bytes of a text -/

/-- A byte below 128 is the whole of a character. -/
theorem eq_of_mem_utf8EncodeChar {c : Char} {b : UInt8} (hb : b < 0x80)
    (hmem : b ∈ String.utf8EncodeChar c) : c.toNat = b.toNat := by
  have hsmall : b.toNat < 128 := hb
  have hhigh : ∀ n, 128 ≤ n → n < 256 → b ≠ UInt8.ofNat n := by
    rintro n hlow hbound rfl
    rw [UInt8.toNat_ofNat_of_lt' hbound] at hsmall
    omega
  rw [String.utf8EncodeChar.eq_1] at hmem
  split at hmem
  · next hone =>
    obtain rfl := List.mem_singleton.mp hmem
    exact (UInt8.toNat_ofNat_of_lt' (Nat.lt_of_le_of_lt hone (by decide))).symm
  · -- all bytes of a longer sequence are above
    exfalso
    simp only [apply_ite (b ∈ ·), List.mem_cons, List.not_mem_nil, or_false] at hmem
    split at hmem
    · rcases hmem with heq | heq
      all_goals exact hhigh _ (by omega) (by omega) heq
    · split at hmem
      · rcases hmem with heq | heq | heq
        all_goals exact hhigh _ (by omega) (by omega) heq
      · rcases hmem with heq | heq | heq | heq
        all_goals exact hhigh _ (by omega) (by omega) heq

theorem not_mem_encode {b : UInt8} (hb : b < 0x80) {cs : List Char}
    (hcs : ∀ c ∈ cs, c.toNat ≠ b.toNat) : b ∉ encode cs := by
  intro hmem
  obtain ⟨c, hc, hin⟩ := List.mem_flatMap.mp hmem
  exact hcs c hc (eq_of_mem_utf8EncodeChar hb hin)

end Pushdown.Text.Utf8
