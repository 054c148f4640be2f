/-
  Pushdown/Proofs/Wire/Stacks.lean
  ================================
  **A stack is read as it is written, and nothing else is.**  The payload of a reply about a
  stack consists of segments with a hash sign between each two.  Empty segments do not count;
  every other one must be a frame, with at least three fields and a number in the second.

  Such a payload gives one frame for each segment that counts, and these frames can be written
  and read again (`FrameData.IsRead.isApart`).  Every other payload is malformed, and the first
  segment that counts and is no frame says why.  All this is `readsStack`.
-/
import Pushdown.Proofs.Wire.Payloads

namespace Pushdown

open Text

variable {payload : String} {stack : List FrameData}

/-- The texts of a frame that has been read from a stack do not hold the separators. -/
theorem FrameData.IsRead.isApart {f : FrameData} {segment : String} (read : f.IsRead segment)
    (no_hash : '#' ∉ segment.toList) : f.IsApart := by
  obtain ⟨line, parts, -⟩ := read
  intro text htext c hc
  have hpart : text ∈ f.file :: line :: f.function :: f.variableNames := by
    rcases List.mem_cons.mp htext with rfl | htext
    · exact List.mem_cons_self
    · exact List.mem_cons_of_mem _ (List.mem_cons_of_mem _ htext)
  rcases List.mem_cons.mp hc with rfl | hc
  · exact parts.apart text hpart
  · obtain rfl := List.mem_singleton.mp hc
    exact fun hhash => no_hash (parts.mem_of_mem hpart hhash)

theorem isApart_of_readFrames (h : readFrames payload.toList = .ok stack) :
    ∀ f ∈ stack, f.IsApart := by
  obtain ⟨segments, parts⟩ := exists_areParts '#' payload
  have hread := (readFrames_eq_ok parts).mp h
  intro f hf
  obtain ⟨i, hi, rfl⟩ := List.mem_iff_getElem.mp hf
  obtain ⟨hlength, hget⟩ := List.forall₂_iff_get.mp hread
  have hi' : i < (segments.filter (· ≠ "")).length := hlength ▸ hi
  refine (hget i hi' hi).isApart (parts.apart _ ?_)
  exact List.mem_of_mem_filter (List.get_mem _ _)

theorem readReply_stack_eq_ok {p : Payload} : readReply "stack" payload = .ok p ↔
    ∃ stack, readFrames payload.toList = .ok stack ∧ p = .frames stack := by
  rw [readReply_eq_ok (show ReplyForm.ofOpcode? "stack" = some .stack from rfl)]
  exact map_eq_ok

theorem readReply_stack_eq_error {e : Error} : readReply "stack" payload = .error e ↔
    ∃ fault, readFrames payload.toList = .error fault ∧ e = .malformedReply fault := by
  rw [readReply_eq_malformed (show ReplyForm.ofOpcode? "stack" = some .stack from rfl)]
  simp only [ReplyForm.read, map_eq_error]

/-- At least three fields, and the second is a number. -/
def HasFrameFields (segment : String) : Prop :=
  ∃ fields, AreParts '|' fields segment ∧ 3 ≤ fields.length ∧
    ∃ line ∈ fields[1]?, ∃ n, Console.IsNumeral line n

theorem hasFrameFields_iff {segment : String} :
    HasFrameFields segment ↔ ∃ f : FrameData, f.IsRead segment := by
  constructor
  · rintro ⟨fields, parts, hlength, line, hline, n, number⟩
    obtain ⟨file, line', function, names, rfl⟩ := eq_cons_of_length (Nat.not_lt.mpr hlength)
    obtain rfl := Option.some.inj hline
    exact ⟨⟨file, n, function, names⟩, line', parts, number⟩
  · rintro ⟨f, line, parts, number⟩
    exact ⟨_, parts, by simp, line, rfl, f.line, number⟩

/-- What is made of a payload. -/
structure ReadsStack (payload : String) : Prop where
  /-- The payload has segments, and they are determined by it. -/
  segments : ∃! segments, AreParts '#' segments payload
  accepts : ∀ segments, AreParts '#' segments payload →
    ((∃ p, readReply "stack" payload = .ok p) ↔
      ∀ segment ∈ segments, segment ≠ "" → HasFrameFields segment)
  /-- One frame for each segment that is not empty, in order. -/
  gives : ∀ segments, AreParts '#' segments payload → ∀ p,
    (readReply "stack" payload = .ok p ↔ ∃ stack, p = .frames stack ∧
      List.Forall₂ (fun segment f => f.IsRead segment) (segments.filter (· ≠ "")) stack)
  /-- What is written is read. -/
  written : ∀ stack, (∀ f ∈ stack, f.IsApart) → stackText stack = payload →
    readReply "stack" payload = .ok (.frames stack)
  /-- What has been read can be written and is read again. -/
  again : ∀ stack, readReply "stack" payload = .ok (.frames stack) →
    readReply "stack" (stackText stack) = .ok (.frames stack)
  /-- Any other payload is malformed: the first segment that is not empty and no frame is
      at fault. -/
  otherwise : ∀ segments, AreParts '#' segments payload → ∀ e,
    (readReply "stack" payload = .error e ↔ ∃ before segment after fault,
      segments = before ++ segment :: after ∧ segment ≠ "" ∧
      (∀ s ∈ before, s ≠ "" → HasFrameFields s) ∧ fault.IsFlawOf segment ∧
      e = .malformedReply fault)

/-- **A stack is read exactly as its payload has it.** -/
theorem readsStack (payload : String) : ReadsStack payload where
  segments := by
    obtain ⟨segments, parts⟩ := exists_areParts '#' payload
    exact ⟨segments, parts, fun _ parts' => parts'.unique parts⟩
  accepts segments parts := by
    have hframes : (∃ p, readReply "stack" payload = .ok p) ↔
        ∃ stack, readFrames payload.toList = .ok stack := by
      simp only [readReply_stack_eq_ok]
      constructor
      · rintro ⟨_, stack, h, -⟩
        exact ⟨stack, h⟩
      · rintro ⟨stack, h⟩
        exact ⟨_, stack, h, rfl⟩
    rw [hframes, readFrames_eq parts, exists_mapM_eq_ok]
    simp only [readFrame_eq_ok, ← hasFrameFields_iff, List.mem_filter, decide_eq_true_eq, and_imp]
  gives segments parts p := by
    rw [readReply_stack_eq_ok]
    simp only [readFrames_eq_ok parts, and_comm]
  written := by
    rintro stack apart rfl
    exact readReply_stack_eq_ok.mpr ⟨stack, readFrames_stackText apart, rfl⟩
  again stack h := by
    obtain ⟨stack', hread, hp⟩ := readReply_stack_eq_ok.mp h
    cases hp
    have apart := isApart_of_readFrames hread
    exact readReply_stack_eq_ok.mpr ⟨stack, readFrames_stackText apart, rfl⟩
  otherwise segments parts e := by
    rw [readReply_stack_eq_error]
    simp only [readFrames_eq_error parts, hasFrameFields_iff]
    constructor
    · rintro ⟨fault, ⟨before, segment, after, hsegments, hne, hbefore, flaw⟩, rfl⟩
      exact ⟨before, segment, after, fault, hsegments, hne, hbefore, flaw, rfl⟩
    · rintro ⟨before, segment, after, fault, hsegments, hne, hbefore, flaw, rfl⟩
      exact ⟨fault, ⟨before, segment, after, hsegments, hne, hbefore, flaw⟩, rfl⟩

/-- Empty segments, empty texts, and a number with a plus sign. -/
example : readReply "stack" "#|+0|##f|18446744073709551615|g||x" =
    .ok (.frames [⟨"", 0, "", []⟩, ⟨"f", 18446744073709551615, "g", ["", "x"]⟩]) := by
  decide +kernel

/-- A number that does not fit. -/
example : readReply "stack" "f|1|g#f|18446744073709551616|g" =
    .error (.malformedReply (.notNumber "18446744073709551616")) := by
  decide +kernel

end Pushdown
