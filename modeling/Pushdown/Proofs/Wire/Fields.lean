/-
  Pushdown/Proofs/Wire/Fields.lean
  ================================
  **Reading a payload part by part.**  A list is written with a separator between each two
  of its parts, and nothing is escaped.  `AreParts` says of a text what its parts are without
  cutting it: every text has parts, and only one list of them (`exists_areParts`,
  `AreParts.unique`).

  The parts are then read one by one.  Reading a list succeeds if it succeeds for each part
  (`mapM_eq_ok`), and otherwise the first part that cannot be read says why
  (`mapM_eq_error`).  For a stack a part is a frame: `FrameData.IsRead` says how it is written,
  and `ReplyFault.IsFlawOf` what is wrong with a part that is none.  With these the reading of a
  stack is described in both directions (`readFrames_eq_ok`, `readFrames_eq_error`).
-/
import Mathlib.Data.List.Forall2
import Pushdown.Proofs.Console.Numerals
import Pushdown.Reply

namespace Pushdown

open Text

/-! ### Parts -/

/-- The text consists of these parts with a separator between each two, and the separator is
    in none of them. -/
structure AreParts (sep : Char) (parts : List String) (text : String) : Prop where
  ne_nil : parts ≠ []
  apart : ∀ part ∈ parts, sep ∉ part.toList
  joined : (String.singleton sep).intercalate parts = text

variable {sep : Char} {parts : List String} {text : String}

theorem cutAt_ne_nil (sep : Char) (cs : List Char) : cutAt sep cs ≠ [] :=
  List.splitOnP_ne_nil _ cs

theorem not_mem_of_mem_cutAt {cs part : List Char} (h : part ∈ cutAt sep cs) : sep ∉ part := by
  induction cs generalizing part with
  | nil => simp_all [cutAt]
  | cons c cs ih =>
    rw [cutAt, List.splitOnP_cons_eq_if_modifyHead] at h
    split at h
    · rcases List.mem_cons.mp h with rfl | h
      · exact List.not_mem_nil
      · exact ih h
    · next hc =>
      obtain ⟨first, rest, hcut⟩ := List.exists_cons_of_ne_nil (cutAt_ne_nil sep cs)
      change part ∈ (cutAt sep cs).modifyHead (List.cons c) at h
      rw [hcut] at h ih
      rcases List.mem_cons.mp h with rfl | h
      · refine List.not_mem_cons_of_ne_of_not_mem ?_ (ih List.mem_cons_self)
        rintro rfl
        exact hc BEq.rfl
      · exact ih (List.mem_cons_of_mem _ h)

theorem AreParts.cutAt_eq (h : AreParts sep parts text) :
    cutAt sep text.toList = parts.map String.toList := by
  rw [← h.joined, String.toList_intercalate, String.toList_singleton]
  exact cutAt_joinWith (by simpa using h.ne_nil) (List.forall_mem_map.mpr h.apart)

theorem AreParts.unique {others : List String} (h : AreParts sep parts text)
    (h' : AreParts sep others text) : parts = others := by
  rw [← map_ofList_toList parts, ← h.cutAt_eq, h'.cutAt_eq, map_ofList_toList]

/-- Every text has parts: those at which it is cut. -/
theorem exists_areParts (sep : Char) (text : String) : ∃ parts, AreParts sep parts text := by
  have hne := cutAt_ne_nil sep text.toList
  refine ⟨(cutAt sep text.toList).map String.ofList, by simpa using hne, ?_, ?_⟩
  · refine List.forall_mem_map.mpr fun part hpart => ?_
    rw [String.toList_ofList]
    exact not_mem_of_mem_cutAt hpart
  · rw [← String.toList_inj, String.toList_intercalate, String.toList_singleton,
      map_toList_ofList, cutAt, ← List.splitOn_eq_splitOnP]
    exact List.intercalate_splitOn sep

/-- What is in a part is in the text. -/
theorem AreParts.mem_of_mem (h : AreParts sep parts text) {part : String} (hpart : part ∈ parts)
    {c : Char} (hc : c ∈ part.toList) : c ∈ text.toList := by
  rw [← h.joined]
  clear h
  induction parts with
  | nil => cases hpart
  | cons first rest ih =>
    cases rest with
    | nil =>
      obtain rfl := List.mem_singleton.mp hpart
      simpa using hc
    | cons next rest =>
      rw [String.intercalate_cons_cons, String.toList_append, String.toList_append]
      rcases List.mem_cons.mp hpart with rfl | hpart
      · exact List.mem_append_left _ (List.mem_append_left _ hc)
      · exact List.mem_append_right _ (ih hpart)

/-! ### Reading part by part -/

section

variable {α β ε : Type} {f : α → Except ε β} {xs : List α}

theorem mapM_eq_ok {ys : List β} :
    xs.mapM f = .ok ys ↔ List.Forall₂ (fun x y => f x = .ok y) xs ys := by
  induction xs generalizing ys with
  | nil => cases ys <;> simp [pure, Except.pure]
  | cons x xs ih =>
    rw [List.mapM_cons]
    cases hx : f x with
    | error e => cases ys <;> simp [bind, Except.bind, hx]
    | ok y =>
      cases hxs : xs.mapM f with
      | error e => cases ys <;> simp [bind, Except.bind, ← ih, hxs, hx]
      | ok zs => cases ys <;> simp [bind, Except.bind, pure, Except.pure, ← ih, hxs, hx]

/-- What fails for a list fails for the first of its elements that fails. -/
theorem mapM_eq_error {e : ε} :
    xs.mapM f = .error e ↔ ∃ before x after, xs = before ++ x :: after ∧
      (∀ w ∈ before, ∃ y, f w = .ok y) ∧ f x = .error e := by
  induction xs with
  | nil =>
    constructor
    · intro h
      cases h
    · rintro ⟨before, x, after, hnil, -⟩
      simp at hnil
  | cons x xs ih =>
    rw [List.mapM_cons]
    constructor
    · intro h
      cases hx : f x with
      | error e' =>
        rw [hx] at h
        cases h
        exact ⟨[], x, xs, rfl, List.forall_mem_nil _, hx⟩
      | ok y =>
        rw [hx] at h
        cases hxs : xs.mapM f with
        | error e' =>
          rw [hxs] at h
          cases h
          obtain ⟨before, z, after, rfl, hbefore, hz⟩ := ih.mp hxs
          exact ⟨x :: before, z, after, rfl, List.forall_mem_cons.mpr ⟨⟨y, hx⟩, hbefore⟩, hz⟩
        | ok ys =>
          rw [hxs] at h
          cases h
    · rintro ⟨before, z, after, heq, hbefore, hz⟩
      cases before with
      | nil =>
        obtain ⟨rfl, -⟩ := List.cons.inj heq
        rw [hz]
        rfl
      | cons w before =>
        obtain ⟨rfl, rfl⟩ := List.cons.inj heq
        obtain ⟨⟨y, hy⟩, hbefore⟩ := List.forall_mem_cons.mp hbefore
        rw [hy, ih.mpr ⟨before, z, after, rfl, hbefore, hz⟩]
        rfl

theorem exists_mapM_eq_ok : (∃ ys, xs.mapM f = .ok ys) ↔ ∀ x ∈ xs, ∃ y, f x = .ok y := by
  constructor
  · rintro ⟨ys, h⟩
    have hall := mapM_eq_ok.mp h
    clear h
    induction hall with
    | nil => exact List.forall_mem_nil _
    | cons hxy _ ih => exact List.forall_mem_cons.mpr ⟨⟨_, hxy⟩, ih⟩
  · intro hall
    cases h : xs.mapM f with
    | ok ys => exact ⟨ys, rfl⟩
    | error e =>
      obtain ⟨before, x, after, rfl, -, hx⟩ := mapM_eq_error.mp h
      obtain ⟨y, hy⟩ := hall x (List.mem_append_right _ List.mem_cons_self)
      cases hx.symm.trans hy

end

/-! ### Numbers -/

theorem readNumber_eq_ok {field : String} {n : UInt64} :
    readNumber field.toList = .ok n ↔ Console.IsNumeral field n := by
  rw [← Console.readUInt64?_eq_some, readNumber]
  cases readUInt64? field.toList <;> simp

theorem readNumber_eq_error {field : String} {fault : ReplyFault} :
    readNumber field.toList = .error fault ↔
      (∀ n, ¬Console.IsNumeral field n) ∧ fault = .notNumber field := by
  simp only [← Console.readUInt64?_eq_some, readNumber]
  cases readUInt64? field.toList <;> simp [eq_comm]

/-! ### Frames -/

/-- The segment has the fields of the frame: file, line, function and the names of all its
    variables. -/
def FrameData.IsRead (f : FrameData) (segment : String) : Prop :=
  ∃ line, AreParts '|' (f.file :: line :: f.function :: f.variableNames) segment ∧
    Console.IsNumeral line f.line

/-- What keeps the segment from being a frame. -/
inductive ReplyFault.IsFlawOf : ReplyFault → String → Prop
  | short {segment : String} {fields : List String} (parts : AreParts '|' fields segment)
      (few : fields.length < 3) : IsFlawOf (.shortFrame segment) segment
  | line {segment file line function : String} {names : List String}
      (parts : AreParts '|' (file :: line :: function :: names) segment)
      (no_number : ∀ n, ¬Console.IsNumeral line n) : IsFlawOf (.notNumber line) segment

variable {segment file line function : String} {fields names : List String}

theorem eq_cons_of_length (h : ¬fields.length < 3) :
    ∃ file line function names, fields = file :: line :: function :: names := by
  rcases fields with _ | ⟨file, _ | ⟨line, _ | ⟨function, names⟩⟩⟩
  · exact (h (by decide)).elim
  · exact (h (by simp)).elim
  · exact (h (by simp)).elim
  · exact ⟨file, line, function, names, rfl⟩

theorem readFrame_of_short (parts : AreParts '|' fields segment) (few : fields.length < 3) :
    readFrame segment.toList = .error (.shortFrame segment) := by
  unfold readFrame
  split
  · next hcut =>
    have hlength := congrArg List.length (parts.cutAt_eq.symm.trans hcut)
    simp only [List.length_map, List.length_cons] at hlength
    omega
  · rw [String.ofList_toList]

theorem readFrame_of_fields (parts : AreParts '|' (file :: line :: function :: names) segment) :
    readFrame segment.toList =
      (readNumber line.toList).map fun n => ⟨file, n, function, names⟩ := by
  rw [readFrame, parts.cutAt_eq]
  simp only [List.map_cons, String.ofList_toList, map_ofList_toList]
  rfl

theorem readFrame_of_isRead {f : FrameData} (read : f.IsRead segment) :
    readFrame segment.toList = .ok f := by
  obtain ⟨line, parts, number⟩ := read
  rw [readFrame_of_fields parts, readNumber_eq_ok.mpr number]
  rfl

theorem readFrame_of_isFlawOf {fault : ReplyFault} (flaw : fault.IsFlawOf segment) :
    readFrame segment.toList = .error fault := by
  cases flaw with
  | short parts few => exact readFrame_of_short parts few
  | line parts no_number =>
    rw [readFrame_of_fields parts, readNumber_eq_error.mpr ⟨no_number, rfl⟩]
    rfl

/-- Every segment is a frame or has a flaw. -/
theorem isRead_or_isFlawOf (segment : String) :
    (∃ f : FrameData, f.IsRead segment) ∨ ∃ fault : ReplyFault, fault.IsFlawOf segment := by
  obtain ⟨fields, parts⟩ := exists_areParts '|' segment
  by_cases few : fields.length < 3
  · exact .inr ⟨_, .short parts few⟩
  · obtain ⟨file, line, function, names, rfl⟩ := eq_cons_of_length few
    by_cases number : ∃ n, Console.IsNumeral line n
    · obtain ⟨n, number⟩ := number
      exact .inl ⟨⟨file, n, function, names⟩, line, parts, number⟩
    · exact .inr ⟨_, .line parts (not_exists.mp number)⟩

theorem readFrame_eq_ok {f : FrameData} : readFrame segment.toList = .ok f ↔ f.IsRead segment := by
  constructor
  · intro h
    rcases isRead_or_isFlawOf segment with ⟨g, read⟩ | ⟨fault, flaw⟩
    · obtain rfl := Except.ok.inj ((readFrame_of_isRead read).symm.trans h)
      exact read
    · cases (readFrame_of_isFlawOf flaw).symm.trans h
  · exact readFrame_of_isRead

theorem readFrame_eq_error {fault : ReplyFault} :
    readFrame segment.toList = .error fault ↔ fault.IsFlawOf segment := by
  constructor
  · intro h
    rcases isRead_or_isFlawOf segment with ⟨f, read⟩ | ⟨fault, flaw⟩
    · cases (readFrame_of_isRead read).symm.trans h
    · obtain rfl := Except.error.inj ((readFrame_of_isFlawOf flaw).symm.trans h)
      exact flaw
  · exact readFrame_of_isFlawOf

/-! ### Stacks -/

variable {payload : String} {segments : List String}

/-- The frames of a stack are the segments that are not empty. -/
theorem readFrames_eq (parts : AreParts '#' segments payload) :
    readFrames payload.toList =
      (segments.filter (· ≠ "")).mapM fun segment => readFrame segment.toList := by
  have hempty : (fun s : List Char => !s.isEmpty) ∘ String.toList =
      fun segment => decide (segment ≠ "") := by
    funext segment
    rw [Bool.eq_iff_iff]
    simp
  rw [readFrames, parts.cutAt_eq, List.filter_map, List.mapM_map, hempty]
  rfl

theorem readFrames_eq_ok (parts : AreParts '#' segments payload) {stack : List FrameData} :
    readFrames payload.toList = .ok stack ↔
      List.Forall₂ (fun segment f => f.IsRead segment) (segments.filter (· ≠ "")) stack := by
  rw [readFrames_eq parts, mapM_eq_ok]
  simp only [readFrame_eq_ok]

theorem readFrames_eq_error (parts : AreParts '#' segments payload) {fault : ReplyFault} :
    readFrames payload.toList = .error fault ↔
      ∃ before segment after, segments = before ++ segment :: after ∧ segment ≠ "" ∧
        (∀ s ∈ before, s ≠ "" → ∃ f : FrameData, f.IsRead s) ∧ fault.IsFlawOf segment := by
  rw [readFrames_eq parts, mapM_eq_error]
  simp only [readFrame_eq_ok, readFrame_eq_error]
  constructor
  · rintro ⟨_, segment, _, hfilter, hbefore, flaw⟩
    obtain ⟨first, last, rfl, rfl, hlast⟩ := List.filter_eq_append_iff.mp hfilter
    obtain ⟨between, after, rfl, hbetween, hsegment, -⟩ := List.filter_eq_cons_iff.mp hlast
    refine ⟨first ++ between, segment, after, by simp, by simpa using hsegment, ?_, flaw⟩
    intro s hs hne
    rcases List.mem_append.mp hs with hs | hs
    · exact hbefore s (List.mem_filter.mpr ⟨hs, by simpa using hne⟩)
    · exact (hbetween s hs (by simpa using hne)).elim
  · rintro ⟨before, segment, after, rfl, hne, hbefore, flaw⟩
    refine ⟨before.filter (· ≠ ""), segment, after.filter (· ≠ ""), by simp [hne], ?_, flaw⟩
    intro s hs
    obtain ⟨hs, hempty⟩ := List.mem_filter.mp hs
    exact hbefore s hs (by simpa using hempty)

/-! ### Replies -/

section

variable {opcode : String} {form : ReplyForm}

theorem readReply_eq_ok (answered : ReplyForm.ofOpcode? opcode = some form) {p : Payload} :
    readReply opcode payload = .ok p ↔ form.read payload = .ok p := by
  simp only [readReply, answered]
  cases form.read payload <;> simp [Except.mapError]

theorem readReply_eq_malformed (answered : ReplyForm.ofOpcode? opcode = some form) {e : Error} :
    readReply opcode payload = .error e ↔
      ∃ fault, form.read payload = .error fault ∧ e = .malformedReply fault := by
  simp only [readReply, answered]
  cases form.read payload <;> simp [Except.mapError, eq_comm]

end

theorem map_eq_ok {α β ε : Type} {f : α → β} {x : Except ε α} {b : β} :
    f <$> x = .ok b ↔ ∃ a, x = .ok a ∧ b = f a := by
  cases x <;> simp [Functor.map, Except.map, eq_comm]

theorem map_eq_error {α β ε : Type} {f : α → β} {x : Except ε α} {e : ε} :
    f <$> x = .error e ↔ x = .error e := by
  cases x <;> simp [Functor.map, Except.map]

end Pushdown
