/-
  Pushdown/Proofs/Model/Shown.lean
  ================================
  **What the VM reports is what the model shows.**  The VM lists the frames of a stack from
  the outermost one, and the variables of a frame or of a value in pairs of a path and a
  value.  The nodes of the model carry these data unchanged: a frame also its place in the
  list, a variable its whole path.  From there on every command about the node says the
  same thread, frame and path (`Query.IsQuestion`).

  `Shows` lists the operations that ask one thing and what they come to; `shown` puts this
  together with the way of a reply, from its bytes to the call that waits for it.
-/
import Pushdown.Proofs.Model.Suspension
import Pushdown.Proofs.Session.Answered
import Pushdown.Proofs.Wire.Payloads

namespace Pushdown

open Script

variable {s s' : RunStates} {t : ThreadId} {e : Nat}

/-! ### Frames -/

namespace Thread

variable {stack : List FrameData}

theorem framesFrom_concat (t : ThreadId) (e : Nat) (stack : List FrameData) (data : FrameData) :
    framesFrom t e (stack ++ [data]) = ⟨⟨t, stack.length, e⟩, data⟩ :: framesFrom t e stack := by
  simp [framesFrom, List.mapIdx_append]

@[simp] theorem framesFrom_length (t : ThreadId) (e : Nat) (stack : List FrameData) :
    (framesFrom t e stack).length = stack.length := by
  simp [framesFrom]

/-- The top frame comes first; each has its data, and its place in the reply. -/
theorem getElem?_framesFrom (t : ThreadId) (e : Nat) {i : Nat} (h : i < stack.length) :
    (framesFrom t e stack)[i]? =
      some ⟨⟨t, stack.length - 1 - i, e⟩, stack[stack.length - 1 - i]⟩ := by
  have hi : i < (framesFrom t e stack).length := by simpa using h
  rw [List.getElem?_eq_getElem hi]
  simp [framesFrom]

end Thread

/-- The frame with this number in a stack that the VM reports, or the topmost one. -/
def frameAt? (t : ThreadId) (e : Nat) (stack : List FrameData) : Option UInt64 → Option StackFrame
  | some index => stack[index.toNat]?.map (fun data => ⟨⟨t, index.toNat, e⟩, data⟩)
  | none => stack.getLast?.map (fun data => ⟨⟨t, stack.length - 1, e⟩, data⟩)

theorem Thread.find?_framesFrom (t : ThreadId) (e : Nat) (stack : List FrameData) (i : Nat) :
    (framesFrom t e stack).find? (fun f => f.ref.frame = i) =
      stack[i]?.map (fun data => ⟨⟨t, i, e⟩, data⟩) := by
  induction stack using List.reverseRecOn with
  | nil => rfl
  | append_singleton stack data ih =>
    rw [framesFrom_concat]
    rcases Nat.lt_trichotomy i stack.length with below | rfl | above
    · simp [ih, below, Nat.ne_of_gt below, List.getElem?_append_left]
    · simp
    · have hnone : stack[i]? = none := List.getElem?_eq_none (Nat.le_of_lt above)
      have hmore : (stack ++ [data])[i]? = none :=
        List.getElem?_eq_none (by simpa using Nat.succ_le_of_lt above)
      simp [ih, hnone, hmore, Nat.ne_of_lt above]

theorem findFrame?_framesFrom (t : ThreadId) (e : Nat) (stack : List FrameData)
    (index : Option UInt64) :
    Console.findFrame? (Thread.framesFrom t e stack) index = frameAt? t e stack index := by
  cases index with
  | some index => exact Thread.find?_framesFrom t e stack index.toNat
  | none =>
    induction stack using List.reverseRecOn with
    | nil => rfl
    | append_singleton stack data =>
      rw [Thread.framesFrom_concat]
      simp [Console.findFrame?, frameAt?]

theorem isSome_frameAt? {stack : List FrameData} {index : UInt64} :
    (frameAt? t e stack (some index)).isSome = true ↔ index.toNat < stack.length := by
  simp [frameAt?]

/-! ### Names -/

/-- The name of a variable is its path after the last dot, or all of it. -/
theorem Variable.name_spec (v : Variable) :
    '.' ∉ v.name.toList ∧ (v.path = v.name ∨ ∃ front, v.path = front ++ "." ++ v.name) := by
  have hsplit := List.takeWhile_append_dropWhile (p := (· != '.')) (l := v.path.toList.reverse)
  generalize hlast : v.path.toList.reverse.takeWhile (· != '.') = last at hsplit
  have hname : v.name.toList = last.reverse := by
    rw [Variable.name, hlast, String.toList_ofList]
  have hpath : v.path.toList =
      (v.path.toList.reverse.dropWhile (· != '.')).reverse ++ v.name.toList := by
    rw [hname, ← List.reverse_append, hsplit, List.reverse_reverse]
  constructor
  · rw [hname, List.mem_reverse, ← hlast]
    intro hmem
    simpa using List.mem_takeWhile_imp hmem
  · cases hfront : v.path.toList.reverse.dropWhile (· != '.') with
    | nil =>
      rw [hfront, List.reverse_nil, List.nil_append] at hpath
      exact Or.inl (String.toList_inj.mp hpath)
    | cons c front =>
      have hdot : c = '.' := by
        have hhead := List.head?_dropWhile_not (· != '.') v.path.toList.reverse
        rw [hfront] at hhead
        simpa using hhead
      subst hdot
      refine Or.inr ⟨String.ofList front.reverse, String.toList_inj.mp ?_⟩
      rw [hpath, hfront]
      simp [String.toList_append]

/-! ### Operations that ask one thing -/

namespace FrameRef

variable {r : FrameRef}

theorem answer?_check_ok (suspended : s.IsSuspendedIn r.thread r.epoch) :
    r.check.answer? s = some (.ok ()) :=
  answer?_bind_ok _ (answer?_require_ok suspended)

theorem neverSends_check (r : FrameRef) : r.check.NeverSends :=
  (neverSends_require _ _).bind fun _ => trivial

/-- A reply about children in the suspension of the node becomes its variables. -/
theorem asks_children (r : FrameRef) (path : Option String) {ps : List (String × String)}
    (suspended : s.IsSuspendedIn r.thread r.epoch) (still : s'.IsSuspendedIn r.thread r.epoch) :
    (r.children path).Asks s (.children r.thread r.frame path) (.ok (.strings (inTurn ps))) s'
      (.ok (ps.map fun p => ⟨r, p.1, p.2⟩)) := by
  refine Asks.after (answer?_check_ok suspended) ?_
  refine Asks.bind (asks_request _) (fun _ => ?_) ?_
  · exact (neverSends_lift _).bind fun _ => (neverSends_check r).bind fun _ => trivial
  · change (r.check >>= fun _ => pure _).answer? s' = _
    rw [answer?_bind_ok _ (answer?_check_ok still), pairs_inTurn]
    rfl

end FrameRef

/-- A reply about the stack in the suspension in which it was asked for becomes its frames. -/
theorem Thread.asks_stackFrames (t : ThreadId) {stack : List FrameData}
    (suspended : s.IsSuspendedIn t e) (still : s'.IsSuspendedIn t e) :
    (stackFrames t).Asks s (.stack t) (.ok (.frames stack)) s' (.ok (framesFrom t e stack)) := by
  refine Asks.after (answer?_require_ok suspended.require_none) ?_
  refine Asks.bind (asks_request _) (fun _ => ?_) ?_
  · exact (neverSends_lift _).bind fun _ => (neverSends_require _ _).bind fun _ => trivial
  · change (require t (some e) >>= fun _ => pure (framesFrom t e stack)).answer? s' = _
    rw [answer?_bind_ok _ (answer?_require_ok still)]
    rfl

theorem Console.asks_frameOf (t : ThreadId) (index : Option UInt64) {stack : List FrameData}
    (suspended : s.IsSuspendedIn t e) (still : s'.IsSuspendedIn t e) :
    (frameOf t index).Asks s (.stack t) (.ok (.frames stack)) s'
      ((frameAt? t e stack index).elim (.error (.invalidArgument (.noSuchFrame t index))) .ok) := by
  refine Asks.bind (Thread.asks_stackFrames t suspended still) (fun frames => ?_) ?_
  · cases findFrame? frames index <;> trivial
  · rw [findFrame?_framesFrom]
    cases frameAt? t e stack index <;> rfl

/-- What an operation on a thread that stays suspended in epoch `e` asks for, and what it
    comes to if this is the payload of the reply. -/
inductive Shows (e : Nat) :
    {β : Type} → Script β → ThreadId → Command → String → Except Error β → Prop
  | stackFrames (t : ThreadId) {stack : List FrameData} (plain : ∀ f ∈ stack, f.IsPlain) :
      Shows e (Thread.stackFrames t) t (.stack t) (stackText stack)
        (.ok (Thread.framesFrom t e stack))
  | topFrame (t : ThreadId) {stack : List FrameData} (plain : ∀ f ∈ stack, f.IsPlain) :
      Shows e (Thread.topFrame t) t (.stack t) (stackText stack) (.ok (frameAt? t e stack none))
  | frameOf (t : ThreadId) (index : Option UInt64) {stack : List FrameData}
      (plain : ∀ f ∈ stack, f.IsPlain) :
      Shows e (Console.frameOf t index) t (.stack t) (stackText stack)
        ((frameAt? t e stack index).elim (.error (.invalidArgument (.noSuchFrame t index))) .ok)
  | allVariables (f : StackFrame) {ps : List (String × String)} (plain : ArePlain ps)
      (same : f.ref.epoch = e) :
      Shows e f.allVariables f.ref.thread (.children f.ref.thread f.ref.frame none)
        (childrenText ps) (.ok (ps.map fun p => ⟨f.ref, p.1, p.2⟩))
  | children (v : Value) {r : FrameRef} {path : String} (owned : v.owner = some (r, path))
      {ps : List (String × String)} (plain : ArePlain ps) (same : r.epoch = e) :
      Shows e v.children r.thread (.children r.thread r.frame (some path))
        (childrenText ps) (.ok (ps.map fun p => ⟨r, p.1, p.2⟩))
  | hasChildren (v : Value) {r : FrameRef} {path : String} (owned : v.owner = some (r, path))
      {ps : List (String × String)} (plain : ArePlain ps) (same : r.epoch = e) :
      Shows e v.hasChildren r.thread (.children r.thread r.frame (some path))
        (childrenText ps) (.ok (!ps.isEmpty))

namespace Shows

variable {β : Type} {script : Script β} {c : Command} {payload : String}
  {result : Except Error β}

theorem asks (shows : Shows e script t c payload result) (suspended : s.IsSuspendedIn t e)
    (still : s'.IsSuspendedIn t e) :
    script.Asks s c (readReply c.opcode payload) s' result := by
  cases shows with
  | stackFrames t plain =>
    rw [readReply_stackText t plain]
    exact Thread.asks_stackFrames t suspended still
  | topFrame t plain =>
    rw [readReply_stackText t plain, ← findFrame?_framesFrom]
    exact (Thread.asks_stackFrames t suspended still).map List.head?
  | frameOf t index plain =>
    rw [readReply_stackText t plain]
    exact Console.asks_frameOf t index suspended still
  | allVariables f plain same =>
    subst same
    rw [readReply_childrenText f.ref none plain]
    exact f.ref.asks_children none suspended still
  | @children v r path owned ps plain same =>
    subst same
    rw [readReply_childrenText r _ plain, Value.children, owned]
    exact r.asks_children (some path) suspended still
  | @hasChildren v r path owned ps plain same =>
    subst same
    rw [readReply_childrenText r _ plain, Query.hasChildren_eq owned]
    have hchildren : (r.children (some path)).Asks s (.children r.thread r.frame (some path))
        (.ok (.strings (inTurn ps))) s' _ := r.asks_children (some path) suspended still
    have hasks := hchildren.map fun vs => !vs.isEmpty
    rw [Except.map, List.isEmpty_map] at hasks
    exact hasks

theorem fitsEnd (shows : Shows e script t c payload result) : FitsEnd payload := by
  cases shows with
  | stackFrames _ plain | topFrame _ plain | frameOf _ _ plain => exact fitsEnd_stackText plain
  | allVariables _ plain | children _ _ plain | hasChildren _ _ plain =>
    exact fitsEnd_childrenText plain

end Shows

/-! ### What is asked about a node -/

namespace Query

variable {β : Type}

/-- The commands by which the query asks. -/
def IsQuestion : Query β → Command → Prop
  | stackFrames t, c | topFrame t, c => c = .stack t
  | allVariables f, c => c = .children f.ref.thread f.ref.frame none
  | variableNamed f name, c => c = .var f.ref.thread f.ref.frame name
  | children _ r path _, c | hasChildren _ r path _, c =>
    c = .children r.thread r.frame (some path)
  | setValue v content, c =>
    c = .setVar v.ref.thread v.ref.frame v.path content ∨
      c = .var v.ref.thread v.ref.frame v.path

theorem ensures_isQuestion (q : Query β) (s : RunStates) :
    q.script.Ensures (fun _ c => q.IsQuestion c) (fun _ _ => True) s := by
  cases q with
  | stackFrames t => exact Thread.ensures_stackFrames t (fun _ _ => rfl) fun _ _ _ _ _ _ => trivial
  | topFrame t =>
    change (List.head? <$> Thread.stackFrames t).Ensures _ _ s
    rw [ensures_map]
    exact Thread.ensures_stackFrames t (fun _ _ => rfl) fun _ _ _ _ _ _ => trivial
  | allVariables f =>
    exact f.ref.ensures_children none (fun _ => rfl) fun _ _ _ _ _ => trivial
  | variableNamed f name =>
    change (requireWord _ _ >>= fun _ => f.ref.fetch name).Ensures _ _ s
    rw [ensures_bind]
    apply ensures_requireWord
    exact f.ref.ensures_fetch name (fun _ => rfl) fun _ _ _ _ _ _ => trivial
  | children v r path owned =>
    have hscript : v.children = r.children (some path) := by
      rw [Value.children, owned]
    rw [script, hscript]
    exact r.ensures_children (some path) (fun _ => rfl) fun _ _ _ _ _ => trivial
  | hasChildren v r path owned =>
    rw [script, hasChildren_eq owned, ensures_map]
    exact r.ensures_children (some path) (fun _ => rfl) fun _ _ _ _ _ => trivial
  | setValue v content =>
    exact v.ensures_setValue content (fun _ => Or.inl rfl) (fun _ _ => Or.inr rfl)
      fun _ _ _ _ _ _ => trivial

end Query

namespace Session

namespace Setup

variable {α β : Type} {before mid later : List (Action α)} {t : Ticket}

/-- A query asks by its own commands, while its thread is suspended, and about a node in the
    suspension of the node. -/
theorem asks_question (s : Setup) (q : Query β) (f : β → α)
    (own : OwnTickets (before ++ .start t (f <$> q.script) :: later))
    {earlier rest : Happened α} {c : Command}
    (asks : s.log (before ++ .start t (f <$> q.script) :: later) =
      earlier ++ .request t c :: rest) :
    q.IsQuestion c ∧ ∃ e, q.IsFreshIn earlier.states e := by
  constructor
  · have hquestion : (f <$> q.script).Ensures (fun _ c => q.IsQuestion c) (fun _ _ => True)
        (s.after before).states := by
      rw [Script.ensures_map]
      exact q.ensures_isQuestion _
    exact s.obeyed_start own hquestion _ _ _ asks rfl
  · exact s.obeyed_query q f own _ _ _ asks rfl

/-- What the VM reports in a session, and what its model shows. -/
structure Shown (s : Setup) (α : Type) : Prop where
  /-- If the thread is suspended when the call begins, and the connection is there, the call
      asks for this command before anything else happens, and it never asks for another. -/
  asks : ∀ {β : Type} {e : Nat} {script : Script β} {thread : ThreadId} {c : Command}
      {payload : String} {result : Except Error β} {before : List (Action α)} {t : Ticket}
      (f : β → α), Shows e script thread c payload result →
    (s.after before).states.IsSuspendedIn thread e →
    (s.after before).link.closed = false →
    (∃ later, ((s.after before).step (.start t (f <$> script))).1.happened =
      .request t c :: later) ∧
    ∀ (mid : List (Action α)) (d : Command), OwnTickets (before ++ .start t (f <$> script) :: mid) →
      .request t d ∈ s.log (before ++ .start t (f <$> script) :: mid) → d = c
  /-- If the thread is suspended when the call begins, and is still in the same suspension
      when the reply has been taken in, the call is over with the reply, and comes to what
      is shown. -/
  returned : ∀ {β : Type} {e : Nat} {script : Script β} {thread : ThreadId} {payload : String}
      {result : Except Error β} {before mid : List (Action α)} {t : Ticket} {r : Request}
      {bytes : List UInt8} (f : β → α),
    Shows e script thread r.command payload result →
    s.Exchange before t (f <$> script) mid r payload bytes →
    (s.after before).states.IsSuspendedIn thread e →
    (s.received (before ++ .start t (f <$> script) :: mid) bytes).states.IsSuspendedIn thread e →
    ∃ later, ((s.after (before ++ .start t (f <$> script) :: mid)).step (.vm bytes)).1.happened =
      ((s.after (before ++ .start t (f <$> script) :: mid)).receive bytes).1 ++
        .ended ⟨t, result.map f⟩ :: later
  /-- The frames of a stack, top frame first: each with its data and its place in the
      reply. -/
  frames : ∀ (t : ThreadId) (e : Nat) (stack : List FrameData),
    (Thread.framesFrom t e stack).length = stack.length ∧
      ∀ i (h : i < stack.length), (Thread.framesFrom t e stack)[i]? =
        some ⟨⟨t, stack.length - 1 - i, e⟩, stack[stack.length - 1 - i]⟩
  /-- There is a frame for each number below their number. -/
  found : ∀ (t : ThreadId) (e : Nat) (stack : List FrameData) (index : UInt64),
    (frameAt? t e stack (some index)).isSome = true ↔ index.toNat < stack.length
  /-- A variable is named by the last part of its path. -/
  named : ∀ v : Variable,
    '.' ∉ v.name.toList ∧ (v.path = v.name ∨ ∃ front, v.path = front ++ "." ++ v.name)
  /-- The value of a variable has its text, and belongs to it: its children are those of the
      variable's path, where the variable was found. -/
  valued : ∀ v : Variable, v.value.text = v.content ∧ v.value.owner = some (v.ref, v.path)
  /-- Whatever is asked about a thread names the thread and is asked while it is suspended,
      and whatever is asked about a node names its thread, its frame and its path, and is
      asked in its suspension. -/
  asked : ∀ {β : Type} (q : Query β) (f : β → α) {before later : List (Action α)} {t : Ticket},
    OwnTickets (before ++ .start t (f <$> q.script) :: later) →
    ∀ (earlier : Happened α) (c : Command) (rest : Happened α),
      s.log (before ++ .start t (f <$> q.script) :: later) = earlier ++ .request t c :: rest →
      q.IsQuestion c ∧ ∃ e, q.IsFreshIn earlier.states e
  /-- All operations give up after a failure. -/
  operations : ∀ {β : Type} (op : Operation β) (f : β → α), (f <$> op.script).GivesUp

/-- **What the VM reports is what the model shows.** -/
theorem shown (s : Setup) : s.Shown α where
  asks := by
    intro β e script thread c payload result before t f shows suspended isOpen
    have asks := (shows.asks suspended suspended).map f
    constructor
    · obtain ⟨next, first, -⟩ := asks
      exact step_of_opening first isOpen
    · intro mid d own hmem
      obtain ⟨earlier, rest, split⟩ := List.append_of_mem hmem
      exact s.obeyed_start own asks.ensures _ _ _ split rfl
  returned f shows exchange suspended still :=
    answered exchange shows.fitsEnd ((shows.asks suspended still).map f)
  frames t e stack :=
    ⟨Thread.framesFrom_length t e stack, fun _ h => Thread.getElem?_framesFrom t e h⟩
  found t e stack index := isSome_frameAt?
  named v := v.name_spec
  valued _ := ⟨rfl, rfl⟩
  asked := by
    intro β q f before later t own earlier c rest asks
    exact s.asks_question q f own asks
  operations := by
    intro β op f
    exact op.givesUp.map f

/-- A stack is asked for, and the reply comes in two pieces. -/
theorem exchange_pieces :
    let s : Setup := ⟨64, true, Settings.default⟩
    let before : List (Action (List StackFrame)) := [.vm (Text.Utf8.encode "started 1\n".toList)]
    let piece : Action (List StackFrame) :=
      .vm (Text.Utf8.encode "#1 ok prog.pda|7|ma".toList)
    s.Exchange before 1 (id <$> Thread.stackFrames 1) [piece] ⟨1, .stack 1⟩
      "prog.pda|7|main#|0|f||12" (Text.Utf8.encode "in#|0|f||12\n".toList) := by
  intro s before piece
  have hline : "#1 ok prog.pda|7|main#|0|f||12" =
      "#" ++ (toString 1 ++ (" " ++ ("ok" ++ (" " ++ "prog.pda|7|main#|0|f||12")))) := by
    decide +kernel
  refine ⟨by decide, ?_, by decide +kernel, ?_⟩
  · intro t script hstart
    simp only [before, piece, List.mem_append, List.mem_cons, List.not_mem_nil, or_false,
      Action.start.injEq, reduceCtorEq, false_or] at hstart
    obtain ⟨-, rfl⟩ := hstart
    exact (Operation.query (.stackFrames 1)).givesUp.map id
  · refine ⟨by decide, [], "#1 ok prog.pda|7|main#|0|f||12", .feed, [], ?_, ?_, ?_⟩
    · decide +kernel
    · rw [hline]
      exact .reply (.ok (.spaced _))
    · intro line hmem
      cases hmem

/-- A stack with empty texts and one that looks like a number. -/
theorem shown_pieces :
    let s : Setup := ⟨64, true, Settings.default⟩
    let main : FrameData := ⟨"prog.pda", 7, "main", []⟩
    let callee : FrameData := ⟨"", 0, "f", ["", "12"]⟩
    let before : List (Action (List StackFrame)) := [.vm (Text.Utf8.encode "started 1\n".toList)]
    let piece : Action (List StackFrame) :=
      .vm (Text.Utf8.encode "#1 ok prog.pda|7|ma".toList)
    let bytes := Text.Utf8.encode "in#|0|f||12\n".toList
    stackText [main, callee] = "prog.pda|7|main#|0|f||12" ∧ s.Shown (List StackFrame) ∧
      (∃ later, ((s.after before).step (.start 1 (id <$> Thread.stackFrames 1))).1.happened =
        .request 1 (.stack 1) :: later) ∧
      ∃ later, ((s.after (before ++ .start 1 (id <$> Thread.stackFrames 1) :: [piece])).step
          (.vm bytes)).1.happened =
        ((s.after (before ++ .start 1 (id <$> Thread.stackFrames 1) :: [piece])).receive bytes).1 ++
          .ended ⟨1, .ok [⟨⟨1, 1, 1⟩, callee⟩, ⟨⟨1, 0, 1⟩, main⟩]⟩ :: later := by
  intro s main callee before piece bytes
  have hshown : s.Shown (List StackFrame) := shown s
  have htext : stackText [main, callee] = "prog.pda|7|main#|0|f||12" := by decide +kernel
  have plain : ∀ f ∈ [main, callee], f.IsPlain := by decide
  have suspended : (s.after before).states.IsSuspendedIn 1 1 := by
    decide +kernel
  have still : (s.received (before ++ .start 1 (id <$> Thread.stackFrames 1) :: [piece])
      bytes).states.IsSuspendedIn 1 1 := by
    decide +kernel
  have isOpen : (s.after before).link.closed = false := by decide +kernel
  have hframes : Thread.framesFrom 1 1 [main, callee] =
      [⟨⟨1, 1, 1⟩, callee⟩, ⟨⟨1, 0, 1⟩, main⟩] := rfl
  have shows : Shows 1 (Thread.stackFrames 1) 1 (.stack 1) (stackText [main, callee])
      (.ok (Thread.framesFrom 1 1 [main, callee])) := .stackFrames 1 plain
  rw [htext, hframes] at shows
  have hasks := (hshown.asks (t := 1) id shows suspended isOpen).1
  have exchange : s.Exchange before 1 (id <$> Thread.stackFrames 1) [piece] ⟨1, .stack 1⟩
      "prog.pda|7|main#|0|f||12" bytes := exchange_pieces
  have hreturned := hshown.returned id shows exchange suspended still
  exact ⟨htext, hshown, hasks, hreturned⟩

end Setup

end Session

end Pushdown
