/-
  Pushdown/Proofs/Model/Changes.lean
  ==================================
  **Changing a variable.**  A change names the variable by its path and goes to the VM as
  one line, `setvar` with the thread, the frame, the path and the new text.  The VM takes
  the first word after the frame for the path and the rest of the line for the text.  So
  the line is read as it is meant exactly if the path has no space in it
  (`Changes.understood`); otherwise another variable is changed, the one whose path is the
  first word (`Changes.mistaken`).

  A name that a caller asks for is checked to be one word, and what is found by it, or by
  changing it, can be changed (`Changes.named`).  The paths in the VM's own lists of
  variables are not checked.  The last theorem is a run with two such paths, and two
  changes of different variables that put the same command on the wire.
-/
import Pushdown.Proofs.Model.Shown
import Pushdown.Proofs.Session.Lines
import Pushdown.Proofs.Wire.CommandLines

namespace Pushdown

open Script Text

/-! ### Reading a change -/

/-- The command by which the variable is given this content. -/
def Variable.change (v : Variable) (content : String) : Command :=
  .setVar v.ref.thread v.ref.frame v.path content

namespace Command

variable {thread : ThreadId} {frame : Nat}

/-- After the first space in a name it does not show where the value begins. -/
theorem text_setVar (thread : ThreadId) (frame : Nat) (first more value : String) :
    (setVar thread frame (first ++ " " ++ more) value).text =
      (setVar thread frame first (more ++ " " ++ value)).text := by
  apply String.toList_inj.mp
  rw [toList_text, toList_text]
  simp [opcode, args]

theorem ofText?_setVar {name first more : String} (value : String)
    (split : name = first ++ " " ++ more) (word : ' ' ∉ first.toList) :
    ofText? (setVar thread frame name value).text.toList =
      some (setVar thread frame first (more ++ " " ++ value)) := by
  rw [split, text_setVar]
  exact ofText?_text word

theorem exists_split_of_space {name : String} (space : ' ' ∈ name.toList) :
    ∃ first more, name = first ++ " " ++ more ∧ ' ' ∉ first.toList := by
  obtain ⟨first, more, hname, hfirst⟩ := List.eq_append_cons_of_mem space
  refine ⟨String.ofList first, String.ofList more, ?_, by simpa using hfirst⟩
  apply String.toList_inj.mp
  simpa [String.toList_append] using hname

/-- The line of a `setvar` gives back the command exactly if the name is a word. -/
theorem ofText?_setVar_iff {name value : String} :
    ofText? (setVar thread frame name value).text.toList = some (setVar thread frame name value) ↔
      ' ' ∉ name.toList := by
  constructor
  · intro hread space
    obtain ⟨first, more, split, word⟩ := exists_split_of_space space
    rw [ofText?_setVar value split word] at hread
    -- the name that is read has no space, and the one that was written has
    obtain ⟨-, -, hname, -⟩ := Command.setVar.inj (Option.some.inj hread)
    exact word (hname ▸ space)
  · intro word
    exact ofText?_text word

end Command

namespace Request

/-- What the VM reads off a line that ends with a line feed. -/
def ofLine? (line : List UInt8) : Option Request := ofText? (Utf8.decodeLossy line.dropLast)

theorem ofLine?_bytes (token : Nat) (c : Command) :
    ofLine? (bytes ⟨token, c⟩) = (Command.ofText? c.text.toList).map (Request.mk token) := by
  have hline : (⟨token, c⟩ : Request).line = (⟨token, c⟩ : Request).text ++ "\n" := rfl
  have hfeed : Utf8.encode "\n".toList = [lineFeed] := by decide
  rw [ofLine?, bytes, hline, String.toList_append, Utf8.encode_append, hfeed,
    List.dropLast_concat, Utf8.decodeLossy_encode, toList_text]
  simp only [ofText?, cutWord_append (space_not_mem_digits _), readDigits?_digits]
  cases Command.ofText? c.text.toList <;> rfl

end Request

/-! ### Names -/

section

variable {P : RunStates → Command → Prop} {s : RunStates}

/-- Only a word passes the check. -/
theorem ensures_requireWord_isWord (role : NameRole) (name : String)
    {Q : RunStates → Unit → Prop} (goesOn : IsWord name.toList → Q s ()) :
    (requireWord role name).Ensures P Q s := by
  unfold requireWord
  split
  · trivial
  · next hword =>
    apply goesOn
    rw [isWord_iff]
    simpa [String.isEmpty_iff] using hword

theorem Query.ensures_isWord (f : StackFrame) (name : String) (s : RunStates) :
    (variableNamed f name).script.Ensures (fun _ _ => True)
      (fun _ v => IsWord v.path.toList) s := by
  change (requireWord _ _ >>= fun _ => f.ref.fetch name).Ensures _ _ s
  rw [ensures_bind]
  apply ensures_requireWord_isWord
  intro word
  apply FrameRef.ensures_fetch
  · intro _
    trivial
  · intro _ s' v _ _ hpath
    rw [hpath]
    exact word

end

namespace Session

namespace Setup

variable {α : Type} {s : Setup} {as : List (Action α)} {v w : Variable} {t : Ticket}

/-- The variables that calls of the run have found by a name, or by changing one of them. -/
inductive Named (s : Setup) (as : List (Action α)) : Variable → Prop
  | found {frame : StackFrame} {name : String} {f : Variable → α} {t : Ticket} {v : Variable}
      (before later : List (Action α))
      (starts : as = before ++ .start t (f <$> (Query.variableNamed frame name).script) :: later)
      (faithful : Function.Injective f) (ended : .ended ⟨t, .ok (f v)⟩ ∈ s.log as) : Named s as v
  | changed {content : String} {f : Variable → α} {t : Ticket} {v w : Variable}
      (before later : List (Action α)) (named : Named s as v)
      (starts : as = before ++ .start t (f <$> (Query.setValue v content).script) :: later)
      (faithful : Function.Injective f) (ended : .ended ⟨t, .ok (f w)⟩ ∈ s.log as) : Named s as w

theorem Named.isWord (named : s.Named as v) (own : OwnTickets as) : IsWord v.path.toList := by
  induction named with
  | @found frame name f t v before later starts faithful ended =>
    subst starts
    have hobeyed : Obeyed (fun _ _ => True) (fun _ a => ∃ x, a = f x ∧ IsWord x.path.toList) t
        (s.log (before ++ .start t (f <$> (Query.variableNamed frame name).script) :: later)) := by
      apply s.obeyed_start own
      rw [Script.ensures_map]
      apply (Query.ensures_isWord frame name _).mono
      intro states x word
      exact ⟨x, rfl, word⟩
    obtain ⟨earlier, rest, split⟩ := List.append_of_mem ended
    obtain ⟨x, hx, word⟩ := hobeyed _ _ _ split rfl
    rwa [faithful hx]
  | @changed content f t v w before later named starts faithful ended ih =>
    subst starts
    obtain ⟨earlier, rest, split⟩ := List.append_of_mem ended
    obtain ⟨e, x, mid, hx, stamped, -⟩ := answered_in_suspension own split
    have hpath : x.path = v.path := stamped.2
    rw [faithful hx, hpath]
    exact ih

/-- What the VM reads in a run about the variables that are changed. -/
structure Changes (s : Setup) (as : List (Action α)) : Prop where
  /-- The bytes that the VM has read and those in the pipe begin lines without further line
      breaks.  The lines are of commands that calls have asked for, in the same order, and
      those of a call that changes a variable are the change and the question about what
      has come of it. -/
  lines : ∃ lines : List Sending, OnWire (s.sent as) lines (s.after as).link ∧
    (lines.map Sending.asked).Sublist (s.log as).requests ∧
    ∀ p ∈ lines, p.request.command.IsOneLine ∧
      ∀ (v : Variable) (content : String) (f : Variable → α) (before later : List (Action α)),
        as = before ++ .start p.ticket (f <$> (Query.setValue v content).script) :: later →
        p.request.command = v.change content ∨
          p.request.command = .var v.ref.thread v.ref.frame v.path
  /-- The line of a change is read as this change exactly if there is no space in the path. -/
  understood : ∀ (token : Nat) (v : Variable) (content : String),
    Request.ofLine? (Request.bytes ⟨token, v.change content⟩) = some ⟨token, v.change content⟩ ↔
      ' ' ∉ v.path.toList
  /-- Otherwise it is read as a change of the variable with the first word for its path. -/
  mistaken : ∀ (token : Nat) (v : Variable) (content first more : String),
    v.path = first ++ " " ++ more → ' ' ∉ first.toList →
    Request.ofLine? (Request.bytes ⟨token, v.change content⟩) =
      some ⟨token, .setVar v.ref.thread v.ref.frame first (more ++ " " ++ content)⟩
  /-- Without spaces in the paths no two changes are written alike. -/
  distinct : ∀ (v w : Variable) (content content' : String),
    ' ' ∉ v.path.toList → ' ' ∉ w.path.toList →
    (v.change content).text = (w.change content').text →
    v.ref.thread = w.ref.thread ∧ v.ref.frame = w.ref.frame ∧ v.path = w.path ∧
      content = content'
  /-- The path of a variable that was found by its name is one word. -/
  named : ∀ v, s.Named as v → IsWord v.path.toList

/-- A line that is sent for a call that changes a variable. -/
theorem asked_of_change (own : OwnTickets as) {c : Command}
    (asked : (t, c) ∈ (s.log as).requests) {content : String} {f : Variable → α}
    {before later : List (Action α)}
    (starts : as = before ++ .start t (f <$> (Query.setValue v content).script) :: later) :
    c = v.change content ∨ c = .var v.ref.thread v.ref.frame v.path := by
  subst starts
  obtain ⟨earlier, rest, split⟩ := Happened.exists_of_mem_requests asked
  exact (s.asks_question (Query.setValue v content) f own split).1

/-- **The VM changes what the caller means if the path is one word, and only then.** -/
theorem changesRead (s : Setup) (as : List (Action α)) (own : OwnTickets as) : s.Changes as where
  lines := by
    obtain ⟨lines, sends⟩ := s.sends as
    have horder : (lines.map Sending.asked).Sublist (s.log as).requests :=
      (List.sublist_append_left _ _).trans sends.order
    refine ⟨lines, sends.onWire, horder, ?_⟩
    intro p hp
    have hasked : p.asked ∈ (s.log as).requests := horder.subset (List.mem_map_of_mem hp)
    refine ⟨sends.oneLine p hp, ?_⟩
    intro v content f before later starts
    exact asked_of_change own hasked starts
  understood := by
    intro token v content
    have hiff : Command.ofText? (v.change content).text.toList = some (v.change content) ↔
        ' ' ∉ v.path.toList := Command.ofText?_setVar_iff
    rw [Request.ofLine?_bytes, ← hiff]
    constructor
    · intro hread
      obtain ⟨c, hc, hrequest⟩ := Option.map_eq_some_iff.mp hread
      obtain ⟨-, rfl⟩ := Request.mk.inj hrequest
      exact hc
    · intro hread
      rw [hread]
      rfl
  mistaken := by
    intro token v content first more split word
    rw [Request.ofLine?_bytes, Variable.change, Command.ofText?_setVar content split word]
    rfl
  distinct := by
    intro v w content content' hv hw same
    have hread : Command.ofText? (v.change content).text.toList = some (v.change content) :=
      Command.ofText?_text hv
    rw [same, Command.ofText?_text (c := w.change content') hw] at hread
    obtain ⟨hthread, hframe, hpath, hcontent⟩ := Command.setVar.inj (Option.some.inj hread)
    exact ⟨hthread.symm, hframe.symm, hpath.symm, hcontent.symm⟩
  named v named := named.isWord own

/-- A variable is found by its name and changed; the text may hold spaces. -/
theorem changesRead_named :
    let s : Setup := ⟨64, true, Settings.default⟩
    let frame : StackFrame := ⟨⟨1, 0, 1⟩, ⟨"prog.pda", 1, "main", ["x"]⟩⟩
    let vm := fun line : String => Action.vm (Utf8.encode line.toList)
    let as : List (Action Variable) := [vm "started 1\n",
      .start 1 (id <$> (Query.variableNamed frame "x").script), vm "#1 ok 1\n",
      .start 2 (id <$> (Query.setValue ⟨frame.ref, "x", "1"⟩ "2 y").script), vm "#2 ok\n",
      vm "#3 ok 2 y\n"]
    OwnTickets as ∧ s.Named as ⟨frame.ref, "x", "2 y"⟩ ∧
      s.sent as = Utf8.encode "#1 var 1 0 x\n#2 setvar 1 0 x 2 y\n#3 var 1 0 x\n".toList ∧
      s.Changes as := by
  intro s frame vm as
  have own : OwnTickets as := by decide
  have hfound : s.Named as ⟨frame.ref, "x", "1"⟩ :=
    .found [_] _ rfl Function.injective_id (by decide +kernel)
  have hchanged : s.Named as ⟨frame.ref, "x", "2 y"⟩ :=
    .changed [_, _, _] _ hfound rfl Function.injective_id (by decide +kernel)
  exact ⟨own, hchanged, by decide +kernel, s.changesRead as own⟩

/-- The VM's list of variables has one with a space in its path.  Changing this one and
    changing another is the same command for the VM. -/
theorem changes_alike :
    let s : Setup := ⟨64, true, Settings.default⟩
    let frame : StackFrame := ⟨⟨1, 0, 1⟩, ⟨"prog.pda", 1, "main", ["x"]⟩⟩
    let x : Variable := ⟨frame.ref, "x", "1"⟩
    let xy : Variable := ⟨frame.ref, "x y", "2"⟩
    let vm := fun line : String => Action.vm (Utf8.encode line.toList)
    let as : List (Action (List Variable)) := [vm "started 1\n", .start 1 frame.allVariables,
      vm "#1 ok x|1|x y|2\n", .start 2 (List.singleton <$> x.setValue "y 3"),
      vm "#2 error 1 no\n", .start 3 (List.singleton <$> xy.setValue "3")]
    OwnTickets as ∧
      (s.log as).ended =
        [⟨1, .ok [x, xy]⟩, ⟨2, .error (.commandFailed "setvar" 1 "no")⟩] ∧
      s.sent as =
        Utf8.encode "#1 children 1 0\n#2 setvar 1 0 x y 3\n#3 setvar 1 0 x y 3\n".toList ∧
      (x.change "y 3").text = (xy.change "3").text ∧
      Request.ofLine? (Utf8.encode "#3 setvar 1 0 x y 3\n".toList) = some ⟨3, x.change "y 3"⟩ := by
  decide +kernel

end Setup

end Session

end Pushdown
