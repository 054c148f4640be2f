/-
  Pushdown/Proofs/Wire/Lists.lean
  ===============================
  **A list is read as it is written.**  The payload of a reply with a list has its entries
  one after the other, and there are two ways to write them.  Texts have a bar between each
  two (`AreFields`): every payload has fields, an empty one none, and so the list of one empty
  text cannot be written.  Numbers have blanks between them (`AreWords`), as many as the VM
  likes.

  Fields are read whatever they are, unless they have to come in pairs and one is left over.
  Words are read if all of them are numbers.  A command that only acts is answered by
  blanks.  What becomes of a payload in each of these forms is put together in `readsLists`.
-/
import Mathlib.Data.List.TakeDrop
import Pushdown.Proofs.Wire.Payloads

namespace Pushdown

open Text

variable {payload : String} {fields ws : List String} {p : Payload} {e : Error}

/-! ### Fields -/

/-- The payload consists of these fields with a bar between each two, and the bar is in none
    of them.  The empty payload has no fields. -/
structure AreFields (fields : List String) (payload : String) : Prop where
  apart : ∀ field ∈ fields, '|' ∉ field.toList
  several : fields ≠ [""]
  joined : withBars fields = payload

theorem areFields_fieldsOf (payload : String) : AreFields (fieldsOf payload.toList) payload := by
  unfold fieldsOf
  split
  · next hempty =>
    obtain rfl : payload = "" := by simpa using hempty
    exact ⟨List.forall_mem_nil _, (List.cons_ne_nil _ _).symm, rfl⟩
  · next hne =>
    obtain ⟨fields, parts⟩ := exists_areParts '|' payload
    rw [parts.cutAt_eq, map_ofList_toList]
    refine ⟨parts.apart, ?_, parts.joined⟩
    rintro rfl
    -- a single empty field would leave the payload empty
    have hempty : "" = payload := parts.joined
    exact hne (hempty ▸ rfl)

theorem fieldsOf_eq_iff : fieldsOf payload.toList = fields ↔ AreFields fields payload := by
  constructor
  · rintro rfl
    exact areFields_fieldsOf payload
  · rintro ⟨apart, several, rfl⟩
    exact fieldsOf_withBars apart several

theorem readReply_data_eq_ok :
    readReply "data" payload = .ok p ↔ ∃ fields, AreFields fields payload ∧ p = .strings fields := by
  rw [readReply_eq_ok (show ReplyForm.ofOpcode? "data" = some .fields from rfl)]
  simp [ReplyForm.read, ← fieldsOf_eq_iff, eq_comm]

theorem readReply_children_eq_ok : readReply "children" payload = .ok p ↔
    ∃ fields, AreFields fields payload ∧ fields.length % 2 = 0 ∧ p = .strings fields := by
  rw [readReply_eq_ok (show ReplyForm.ofOpcode? "children" = some .pairs from rfl)]
  simp only [ReplyForm.read, ← fieldsOf_eq_iff, exists_eq_left']
  split
  · next heven => simp [heven, eq_comm]
  · next hodd => simp [hodd]

theorem readReply_children_eq_error : readReply "children" payload = .error e ↔
    ∃ fields, AreFields fields payload ∧ fields.length % 2 ≠ 0 ∧
      e = .malformedReply (.unpairedFields fields.length payload) := by
  rw [readReply_eq_malformed (show ReplyForm.ofOpcode? "children" = some .pairs from rfl)]
  simp only [ReplyForm.read, ← fieldsOf_eq_iff, exists_eq_left']
  split
  · next heven => simp [heven]
  · next hodd => simp [hodd]

/-- Taking fields in pairs drops the last of an odd number, and no other. -/
theorem inTurn_pairs (fields : List String) :
    inTurn (pairs fields) = fields.take (fields.length - fields.length % 2) := by
  fun_induction pairs fields with
  | case1 name value rest ih =>
    have hlength : rest.length + 2 - (rest.length + 2) % 2 =
        rest.length - rest.length % 2 + 2 := by omega
    simp only [List.length_cons, hlength, List.take_succ_cons, ← ih]
    rfl
  | case2 fields short =>
    rcases fields with _ | ⟨name, _ | ⟨value, rest⟩⟩
    · rfl
    · rfl
    · exact (short name value rest rfl).elim

theorem inTurn_pairs_eq_self : inTurn (pairs fields) = fields ↔ fields.length % 2 = 0 := by
  rw [inTurn_pairs, List.take_eq_self_iff]
  omega

/-! ### Words -/

/-- The payload consists of these words, with blanks between each two and perhaps at both
    ends. -/
structure AreWords (ws : List String) (payload : String) : Prop where
  unbroken : ∀ w ∈ ws, IsWord w.toList
  typed : IsTyped (ws.map String.toList) payload.toList

theorem wordsOf_eq_iff : wordsOf payload = ws ↔ AreWords ws payload := by
  constructor
  · rintro rfl
    have typed := (isTyped_words payload.toList).2
    rw [← map_toList_ofList (words payload.toList)] at typed
    exact ⟨fun _ hw => isWord_of_mem_wordsOf hw, typed⟩
  · rintro ⟨unbroken, rest, leads, blank⟩
    rw [wordsOf, leads.words_eq (List.forall_mem_map.mpr unbroken), words_of_isGap blank,
      List.append_nil, map_ofList_toList]

/-- The threads of a payload are its words, each read as a number. -/
theorem readNumbers_eq (are : AreWords ws payload) :
    (words payload.toList).mapM readNumber = ws.mapM fun w => readNumber w.toList := by
  rw [← wordsOf_eq_iff.mpr are, wordsOf, List.mapM_map]
  simp [Function.comp_def]

theorem readReply_threads_eq_ok (are : AreWords ws payload) : readReply "threads" payload = .ok p ↔
    ∃ ids, List.Forall₂ Console.IsNumeral ws ids ∧ p = .threads ids := by
  rw [readReply_eq_ok (show ReplyForm.ofOpcode? "threads" = some .threads from rfl)]
  simp only [ReplyForm.read, map_eq_ok, readNumbers_eq are, mapM_eq_ok, readNumber_eq_ok]

/-- The first word that is no number is at fault. -/
theorem readReply_threads_eq_error (are : AreWords ws payload) :
    readReply "threads" payload = .error e ↔ ∃ before w after, ws = before ++ w :: after ∧
      (∀ v ∈ before, ∃ n, Console.IsNumeral v n) ∧ (∀ n, ¬Console.IsNumeral w n) ∧
      e = .malformedReply (.notNumber w) := by
  rw [readReply_eq_malformed (show ReplyForm.ofOpcode? "threads" = some .threads from rfl)]
  simp only [ReplyForm.read, map_eq_error, readNumbers_eq are, mapM_eq_error, readNumber_eq_ok,
    readNumber_eq_error]
  constructor
  · rintro ⟨fault, ⟨before, w, after, hws, hbefore, no_number, rfl⟩, rfl⟩
    exact ⟨before, w, after, hws, hbefore, no_number, rfl⟩
  · rintro ⟨before, w, after, hws, hbefore, no_number, rfl⟩
    exact ⟨.notNumber w, ⟨before, w, after, hws, hbefore, no_number, rfl⟩, rfl⟩

theorem exists_threads_iff (are : AreWords ws payload) :
    (∃ p, readReply "threads" payload = .ok p) ↔ ∀ w ∈ ws, ∃ n, Console.IsNumeral w n := by
  have hmap : (∃ ids, ws.mapM (fun w => readNumber w.toList) = .ok ids) ↔
      ∀ w ∈ ws, ∃ n, Console.IsNumeral w n := by
    simp only [exists_mapM_eq_ok, readNumber_eq_ok]
  rw [← hmap]
  simp only [readReply_threads_eq_ok are, mapM_eq_ok, readNumber_eq_ok]
  constructor
  · rintro ⟨_, ids, hids, -⟩
    exact ⟨ids, hids⟩
  · rintro ⟨ids, hids⟩
    exact ⟨_, ids, hids, rfl⟩

theorem areWords_numerals {ids : List ThreadId}
    (typed : IsTyped (ids.map fun id => (toString id).toList) payload.toList) :
    AreWords (ids.map toString) payload where
  unbroken := List.forall_mem_map.mpr fun id _ => isWord_toString id
  typed := by rwa [List.map_map]

/-! ### Nothing -/

/-- The opcodes of the commands that only act. -/
def ackOpcodes : List String :=
  ["setvar", "resume", "suspend", "step", "stepreturn", "drop", "set", "clear", "watch",
    "eventstop", "exit"]

theorem ofOpcode?_eq_nothing {opcode : String} :
    ReplyForm.ofOpcode? opcode = some .nothing ↔ opcode ∈ ackOpcodes := by
  constructor
  · intro h
    unfold ReplyForm.ofOpcode? at h
    split at h <;> cases h <;> decide
  · intro h
    have hall : ∀ opcode ∈ ackOpcodes, ReplyForm.ofOpcode? opcode = some .nothing := by
      decide +kernel
    exact hall opcode h

theorem isGap_iff {cs : List Char} : cs.all isBlank = true ↔ IsGap cs := List.all_eq_true

theorem readReply_acknowledged_eq_ok {opcode : String} (acts : opcode ∈ ackOpcodes) :
    readReply opcode payload = .ok p ↔ IsGap payload.toList ∧ p = .ack := by
  rw [readReply_eq_ok (ofOpcode?_eq_nothing.mpr acts)]
  rw [← isGap_iff, ReplyForm.read]
  split
  · next blank => simp [blank, eq_comm]
  · next text => simp [text]

theorem readReply_acknowledged_eq_error {opcode : String} (acts : opcode ∈ ackOpcodes) :
    readReply opcode payload = .error e ↔
      ¬IsGap payload.toList ∧ e = .malformedReply (.unwantedPayload payload) := by
  rw [readReply_eq_malformed (ofOpcode?_eq_nothing.mpr acts)]
  rw [← isGap_iff, ReplyForm.read]
  split
  · next blank => simp [blank]
  · next text => simp [text]

/-! ### All of them -/

/-- What is made of a payload where a list is expected, or nothing. -/
structure ReadsLists (payload : String) : Prop where
  /-- The payload has fields, and they are determined by it. -/
  fields : ∃! fields, AreFields fields payload
  data : ∀ p, readReply "data" payload = .ok p ↔
    ∃ fields, AreFields fields payload ∧ p = .strings fields
  children : ∀ p, readReply "children" payload = .ok p ↔
    ∃ fields, AreFields fields payload ∧ fields.length % 2 = 0 ∧ p = .strings fields
  children_otherwise : ∀ e, readReply "children" payload = .error e ↔
    ∃ fields, AreFields fields payload ∧ fields.length % 2 ≠ 0 ∧
      e = .malformedReply (.unpairedFields fields.length payload)
  /-- Taking the fields in pairs loses none of them exactly if they are accepted. -/
  in_pairs : ∀ fields, AreFields fields payload →
    (inTurn (pairs fields) = fields ↔ readReply "children" payload = .ok (.strings fields))
  /-- The payload has words, and they are determined by it. -/
  words : ∃! ws, AreWords ws payload
  threads : ∀ ws, AreWords ws payload → ∀ p, readReply "threads" payload = .ok p ↔
    ∃ ids, List.Forall₂ Console.IsNumeral ws ids ∧ p = .threads ids
  threads_accepts : ∀ ws, AreWords ws payload →
    ((∃ p, readReply "threads" payload = .ok p) ↔ ∀ w ∈ ws, ∃ n, Console.IsNumeral w n)
  threads_otherwise : ∀ ws, AreWords ws payload → ∀ e, readReply "threads" payload = .error e ↔
    ∃ before w after, ws = before ++ w :: after ∧ (∀ v ∈ before, ∃ n, Console.IsNumeral v n) ∧
      (∀ n, ¬Console.IsNumeral w n) ∧ e = .malformedReply (.notNumber w)
  /-- Numbers that are written with any blanks between them are read. -/
  threads_written : ∀ ids : List ThreadId,
    IsTyped (ids.map fun id => (toString id).toList) payload.toList →
    readReply "threads" payload = .ok (.threads ids)
  acknowledges : ∀ opcode ∈ ackOpcodes, ∀ p,
    readReply opcode payload = .ok p ↔ IsGap payload.toList ∧ p = .ack
  acknowledges_otherwise : ∀ opcode ∈ ackOpcodes, ∀ e, readReply opcode payload = .error e ↔
    ¬IsGap payload.toList ∧ e = .malformedReply (.unwantedPayload payload)

/-- **A list is read exactly as its payload has it.** -/
theorem readsLists (payload : String) : ReadsLists payload where
  fields := ⟨_, areFields_fieldsOf payload, fun _ are => (fieldsOf_eq_iff.mpr are).symm⟩
  data _ := readReply_data_eq_ok
  children _ := readReply_children_eq_ok
  children_otherwise _ := readReply_children_eq_error
  in_pairs fields are := by
    rw [inTurn_pairs_eq_self, readReply_children_eq_ok]
    constructor
    · intro heven
      exact ⟨fields, are, heven, rfl⟩
    · rintro ⟨_, -, heven, hfields⟩
      cases hfields
      exact heven
  words := ⟨_, wordsOf_eq_iff.mp rfl, fun _ are => (wordsOf_eq_iff.mpr are).symm⟩
  threads _ are _ := readReply_threads_eq_ok are
  threads_accepts _ are := exists_threads_iff are
  threads_otherwise _ are _ := readReply_threads_eq_error are
  threads_written ids typed := by
    refine (readReply_threads_eq_ok (areWords_numerals typed)).mpr ⟨ids, ?_, rfl⟩
    rw [List.forall₂_map_left_iff, List.forall₂_same]
    exact fun id _ => Console.isNumeral_toString id
  acknowledges _ acts _ := readReply_acknowledged_eq_ok acts
  acknowledges_otherwise _ acts _ := readReply_acknowledged_eq_error acts

/-- Empty fields count, in an empty payload there are none. -/
example : readReply "data" "|1||a b|" = .ok (.strings ["", "1", "", "a b", ""]) ∧
    readReply "data" "" = .ok (.strings []) := by
  decide +kernel

/-- Blanks of all kinds between the threads, and a thread that is there twice. -/
example : readReply "threads" "7 \u3000+07\t1 " = .ok (.threads [7, 7, 1]) := by
  decide +kernel

end Pushdown
