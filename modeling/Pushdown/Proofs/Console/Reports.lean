/-
  Pushdown/Proofs/Console/Reports.lean
  ====================================
  **What a program reads of the console.**  With JSON switched on, every event, result and
  failure is printed as one line that is one JSON object and nothing else.  `Report` is the
  data that such a line is about, and `Report.ofJson?` reads it off the object by the names
  of the fields, whatever their order.

  `losesNothing` says that from the line of an event, with any text in it, the event is read
  again, and from the line of a result everything that is shown of it, in order.  So two lines
  are different where two events are.
-/
import Pushdown.Console.Output
import Pushdown.Proofs.Json.Fields
import Pushdown.Proofs.Json.Reader
import Pushdown.Text.Lines

namespace Pushdown.Console

open Text Json

/-! ### What is reported -/

/-- What is shown of a variable. -/
structure VariableReport where
  name : String
  path : String
  text : String
  kind : ValueKind
deriving DecidableEq, Repr

/-- What is shown of a frame: its place on the stack and what the VM said of it. -/
structure FrameReport where
  index : Nat
  data : FrameData
deriving DecidableEq, Repr

/-- What one line for programs is about. -/
inductive Report where
  | event (e : Event)
  | failure (message : String)
  | done
  | threads (states : List (ThreadId × Option ThreadState))
  | frames (frames : List FrameReport)
  | vars (vars : List VariableReport)
  | value (text : String) (kind : ValueKind)
  | strings (strings : List String)
  | state (session : SessionState) (vm : String)
  | help (text : String)
deriving DecidableEq, Repr

def reportOfFrame (f : StackFrame) : FrameReport := ⟨f.ref.frame, f.data⟩

def reportOfVariable (v : Variable) : VariableReport := ⟨v.name, v.path, v.content, v.value.kind⟩

def Output.report : Output → Report
  | .done => .done
  | .threads states => .threads states
  | .frames fs => .frames (fs.map reportOfFrame)
  | .vars vs => .vars (vs.map reportOfVariable)
  | .value v => .value v.text v.kind
  | .strings ss => .strings ss
  | .state session vm => .state session vm
  | .help => .help helpText

/-! ### Reading a report -/

def threadState? : Json → Option ThreadState :=
  named? threadStateName [.suspended, .running]

def sessionState? : Json → Option SessionState :=
  named? sessionStateName [.connecting, .open, .suspended, .running, .terminated]

def kind? : Json → Option ValueKind := named? ValueKind.name [.integer, .text]

def watch? (v : Json) : Option StopReason := do
  let access ← v.get? "access" text?
  let name ← v.get? "name" text?
  return .watch access name

/-- A text is the name of a reason without data, an object has a field for one with data. -/
def stopReason? (v : Json) : Option StopReason :=
  named? StopReason.text [.client, .step, .drop] v
  <|> (v.get? "breakpoint" word?).map .breakpoint
  <|> v.get? "watch" watch?
  <|> (v.get? "event" text?).map .event
  <|> (v.get? "other" text?).map .other

def resumeReason? (v : Json) : Option ResumeReason :=
  named? ResumeReason.text [.client, .step, .drop] v
  <|> (v.get? "other" text?).map .other

def event? (v : Json) : Option Event := do
  match ← v.get? "kind" text? with
  | "started" => return .started (← v.get? "thread" word?)
  | "exited" => return .exited (← v.get? "thread" word?)
  | "suspended" => return .suspended (← v.get? "thread" word?) (← v.get? "reason" stopReason?)
  | "resumed" => return .resumed (← v.get? "thread" word?) (← v.get? "reason" resumeReason?)
  | "terminated" => return .terminated
  | "output" => return .output (← v.get? "text" text?)
  | _ => none

def thread? (v : Json) : Option (ThreadId × Option ThreadState) := do
  return (← v.get? "id" word?, ← v.get? "state" (option? threadState?))

def frameReport? (v : Json) : Option FrameReport := do
  let file ← v.get? "file" text?
  let line ← v.get? "line" word?
  let function ← v.get? "function" text?
  let variableNames ← v.get? "variables" (list? text?)
  return ⟨← v.get? "index" nat?, ⟨file, line, function, variableNames⟩⟩

def variableReport? (v : Json) : Option VariableReport := do
  return ⟨← v.get? "name" text?, ← v.get? "path" text?, ← v.get? "value" text?,
    ← v.get? "type" kind?⟩

def done? (v : Json) : Option Report := do
  if (← v.get? "result" text?) = "ok" then return .done else none

def value? (v : Json) : Option Report := do
  return .value (← v.get? "value" text?) (← v.get? "type" kind?)

def state? (v : Json) : Option Report := do
  return .state (← v.get? "session" sessionState?) (← v.get? "vm" text?)

/-- The kinds of reports have different fields. -/
def Report.ofJson? (v : Json) : Option Report :=
  (v.get? "event" event?).map .event
  <|> (v.get? "error" text?).map .failure
  <|> done? v
  <|> (v.get? "threads" (list? thread?)).map .threads
  <|> (v.get? "frames" (list? frameReport?)).map .frames
  <|> (v.get? "variables" (list? variableReport?)).map .vars
  <|> value? v
  <|> (v.get? "data" (list? text?)).map .strings
  <|> state? v
  <|> (v.get? "help" text?).map .help

/-- The report of a line. -/
def Report.ofLine? (line : String) : Option Report := (read? line.toList).bind Report.ofJson?

/-! ### Parts read back -/

theorem threadState?_name (s : ThreadState) :
    threadState? (.text (threadStateName s)) = some s := by
  cases s <;> rfl

theorem sessionState?_name (s : SessionState) :
    sessionState? (.text (sessionStateName s)) = some s := by
  cases s <;> rfl

theorem kind?_name (k : ValueKind) : kind? (.text k.name) = some k := by
  cases k <;> rfl

theorem stopReason?_json (r : StopReason) : stopReason? (stopReasonJson r) = some r := by
  cases r with
  | client | step | drop => rfl
  | breakpoint | watch | event | other =>
    simp [stopReason?, watch?, stopReasonJson, List.lookup_cons]

theorem resumeReason?_json (r : ResumeReason) : resumeReason? (resumeReasonJson r) = some r := by
  cases r with
  | client | step | drop => rfl
  | other => simp [resumeReason?, resumeReasonJson]

theorem event?_json (e : Event) : event? (eventJson e) = some e := by
  cases e <;>
    simp [event?, eventJson, threadField, List.lookup_cons, stopReason?_json, resumeReason?_json]

theorem thread?_json (t : ThreadId × Option ThreadState) : thread? (threadJson t) = some t := by
  have hstate := option?_ofOption threadState?_name (fun _ => Json.noConfusion) t.2
  simp [thread?, threadJson, List.lookup_cons, hstate]

theorem frameReport?_json (f : StackFrame) :
    frameReport? (frameJson f) = some (reportOfFrame f) := by
  simp [frameReport?, frameJson, reportOfFrame, List.lookup_cons]

theorem variableReport?_json (v : Variable) :
    variableReport? (variableJson v) = some (reportOfVariable v) := by
  simp [variableReport?, variableJson, reportOfVariable, List.lookup_cons, kind?_name]

theorem ofJson?_event (e : Event) :
    Report.ofJson? (.record [("event", eventJson e)]) = some (.event e) := by
  simp [Report.ofJson?, List.lookup_cons, event?_json]

theorem ofJson?_output (o : Output) : Report.ofJson? o.json = some o.report := by
  have hthreads := list?_array (f := id) thread?_json
  have hframes := list?_array frameReport?_json
  have hvars := list?_array variableReport?_json
  cases o <;>
    simp [Report.ofJson?, Output.json, Output.report, List.lookup_cons, done?, value?, state?,
      kind?_name, sessionState?_name, hthreads, hframes, hvars]

theorem ofJson?_failure (message : String) :
    Report.ofJson? (.record [("error", .text message)]) = some (.failure message) := by
  simp [Report.ofJson?, List.lookup_cons]

/-! ### Names -/

theorem namesApart_stopReason (r : StopReason) : NamesApart (stopReasonJson r) := by
  cases r <;> simp [stopReasonJson]

theorem namesApart_resumeReason (r : ResumeReason) : NamesApart (resumeReasonJson r) := by
  cases r <;> simp [resumeReasonJson]

theorem namesApart_event (e : Event) : NamesApart (eventJson e) := by
  cases e <;> simp [eventJson, threadField, namesApart_stopReason, namesApart_resumeReason]

theorem namesApart_thread (t : ThreadId × Option ThreadState) : NamesApart (threadJson t) := by
  simp [threadJson, namesApart_ofOption]

theorem namesApart_frame (f : StackFrame) : NamesApart (frameJson f) := by
  simp [frameJson]

theorem namesApart_variable (v : Variable) : NamesApart (variableJson v) := by
  simp [variableJson]

theorem namesApart_output (o : Output) : NamesApart o.json := by
  cases o with
  | threads states => simp [Output.json, namesApart_map namesApart_thread]
  | frames fs => simp [Output.json, namesApart_map namesApart_frame]
  | vars vs => simp [Output.json, namesApart_map namesApart_variable]
  | done | value | strings | state | help => simp [Output.json]

/-! ### Lines -/

/-- Whoever reads what is printed gets the line as one line.  It is a JSON text of one object
    and of no other value, no name stands twice in an object, and it has this report. -/
structure Reports (line : String) (r : Report) : Prop where
  single : Text.lines line = [line]
  no_feed : '\n' ∉ line.toList
  no_return : '\r' ∉ line.toList
  object : ∃ fields, (∀ v, Padded IsText v line.toList ↔ v = .object fields) ∧
    NamesApart (.object fields)
  report : Report.ofLine? line = some r

theorem Reports.unique {line : String} {r r' : Report} (h : Reports line r)
    (h' : Reports line r') : r = r' :=
  Option.some.inj (h.report.symm.trans h'.report)

theorem lines_of_not_mem {line : String} (no_feed : '\n' ∉ line.toList)
    (no_return : '\r' ∉ line.toList) : Text.lines line = [line] := by
  have hcut : cutAt '\n' line.toList = [line.toList] := by
    have hjoin : joinWith '\n' [line.toList] = line.toList := by simp [joinWith]
    have hcut := cutAt_joinWith (List.cons_ne_nil line.toList [])
      (List.forall_mem_singleton.mpr no_feed)
    rwa [hjoin] at hcut
  have hdrop : dropReturn line.toList = line.toList :=
    if_neg fun hlast => no_return (List.mem_of_getLast? hlast)
  rw [Text.lines, hcut, List.map_singleton, hdrop, String.ofList_toList]

/-- An object that is printed reports what is read of it. -/
theorem reports_render {v : Json} {r : Report} (object : ∃ fields, v = .object fields)
    (apart : NamesApart v) (report : Report.ofJson? v = some r) : Reports v.render r := by
  have hline : v.render.toList = v.print := String.toList_ofList
  have document : Padded IsText v v.render.toList := hline ▸ padded_of (isText_print v)
  have visible : ∀ d ∈ v.render.toList, 0x20 ≤ d.toNat := hline ▸ visible_print v
  have no_feed : '\n' ∉ v.render.toList := by
    intro hmem
    exact absurd (visible _ hmem) (by decide)
  have no_return : '\r' ∉ v.render.toList := by
    intro hmem
    exact absurd (visible _ hmem) (by decide)
  refine ⟨lines_of_not_mem no_feed no_return, no_feed, no_return, ?_, ?_⟩
  · obtain ⟨fields, rfl⟩ := object
    refine ⟨fields, ?_, apart⟩
    intro w
    constructor
    · intro hw
      exact hw.unique document
    · rintro rfl
      exact document
  · rw [Report.ofLine?, read?_eq_some.mpr document]
    exact report

/-- **What is printed for programs is read line by line and without loss.**  The line of an
    event reports the event and that of a result what is shown of it, so different events have
    different lines, and so have results that show different things. -/
theorem losesNothing :
    (∀ e, Reports (renderEvent true e) (.event e)) ∧
    (∀ o : Output, Reports (o.render true) o.report) ∧
    (∀ message, Reports (renderError true message) (.failure message)) ∧
    (∀ e e', renderEvent true e = renderEvent true e' → e = e') ∧
    (∀ o o' : Output, o.render true = o'.render true → o.report = o'.report) := by
  have event (e : Event) : Reports (renderEvent true e) (.event e) :=
    reports_render ⟨_, rfl⟩ (by simp [namesApart_event]) (ofJson?_event e)
  have result (o : Output) : Reports (o.render true) o.report :=
    reports_render (by cases o <;> exact ⟨_, rfl⟩) (namesApart_output o) (ofJson?_output o)
  have failure (message : String) : Reports (renderError true message) (.failure message) :=
    reports_render ⟨_, rfl⟩ (by simp) (ofJson?_failure message)
  refine ⟨event, result, failure, ?_, ?_⟩
  · intro e e' heq
    have h := event e
    rw [heq] at h
    apply Report.event.inj
    exact h.unique (event e')
  · intro o o' heq
    have h := result o
    rw [heq] at h
    exact h.unique (result o')

/-- A reason that the VM calls by an unknown name is not the reason of that name. -/
example : renderEvent true (.suspended 1 (.other "client")) =
    "\x7b\"event\":\x7b\"kind\":\"suspended\",\"reason\":\x7b\"other\":\"client\"\x7d" ++
      ",\"thread\":1\x7d\x7d" := by
  decide +kernel

end Pushdown.Console
