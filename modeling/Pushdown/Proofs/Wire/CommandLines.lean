/-
  Pushdown/Proofs/Wire/CommandLines.lean
  ======================================
  **A command can be read off its line.**  `Request.ofLine?` reads a command line the way
  the VM does: the token and the opcode are the first two words, numbers and flags are
  words, and the last text of a command is the rest of the line.  The names of `watch` and
  `eventstop` stand before the last word, and the name of `setvar` is a word.

  A request that is accepted leaves one line in the buffer, and this line reads as the
  request (`ofLine?_line`).  So no two requests leave the same bytes, unless the name of a
  `setvar` has a space in it and the VM would take it for two arguments.
-/
import Pushdown.Proofs.Link.Writing
import Pushdown.Wire.Framing

namespace Pushdown

namespace Text

/-! ### Words of a line -/

/-- The text up to the first space, and what follows this space if there is one. -/
def cutWord : List Char → List Char × Option (List Char)
  | [] => ([], none)
  | c :: rest =>
    if c = ' ' then ([], some rest) else (c :: (cutWord rest).1, (cutWord rest).2)

/-- The text before the last space and the word after it, if there is a space. -/
def cutLastWord? (cs : List Char) : Option (List Char × List Char) :=
  let (word, front) := cutWord cs.reverse
  front.map (fun front => (front.reverse, word.reverse))

section

variable {w : List Char}

theorem cutWord_of_not_mem (hw : ' ' ∉ w) : cutWord w = (w, none) := by
  induction w with
  | nil => rfl
  | cons c w ih =>
    obtain ⟨hc, hw⟩ := List.ne_and_not_mem_of_not_mem_cons hw
    simp [cutWord, Ne.symm hc, ih hw]

theorem cutWord_append (hw : ' ' ∉ w) (rest : List Char) :
    cutWord (w ++ ' ' :: rest) = (w, some rest) := by
  induction w with
  | nil => simp [cutWord]
  | cons c w ih =>
    obtain ⟨hc, hw⟩ := List.ne_and_not_mem_of_not_mem_cons hw
    simp [cutWord, Ne.symm hc, ih hw]

theorem cutLastWord?_append (front : List Char) (hw : ' ' ∉ w) :
    cutLastWord? (front ++ ' ' :: w) = some (front, w) := by
  have hreverse : (front ++ ' ' :: w).reverse = w.reverse ++ ' ' :: front.reverse := by simp
  rw [cutLastWord?, hreverse, cutWord_append (by simpa using hw)]
  simp

end

@[simp] theorem space_not_mem_digits (n : Nat) : ' ' ∉ digits n := by
  intro hmem
  exact ne_of_mem_digits hmem (d := ' ') rfl rfl

@[simp] theorem readUInt64?_digits (n : UInt64) : readUInt64? (digits n.toNat) = some n := by
  rw [← toList_toString_uInt64]
  exact readUInt64?_toString n

end Text

open Text

/-! ### Reading a command -/

namespace Command

/-- A thread and a frame, and what follows them. -/
def readAddress? (cs : List Char) : Option (ThreadId × Nat × Option (List Char)) := do
  let (thread, some rest) := cutWord cs | none
  let (frame, rest) := cutWord rest
  return (← readUInt64? thread, ← readDigits? frame, rest)

def readFlag? : List Char → Option Bool
  | ['0'] => some false
  | ['1'] => some true
  | _ => none

/-- Reads and writes, from the digit that stands for them. -/
def readAccess? : List Char → Option (Bool × Bool)
  | ['0'] => some (false, false)
  | ['1'] => some (true, false)
  | ['2'] => some (false, true)
  | ['3'] => some (true, true)
  | _ => none

/-- The command with this opcode and these arguments. -/
def ofArguments? : String → Option (List Char) → Option Command
  | "threads", none => some threads
  | "state", none => some (state none)
  | "state", some cs => (readUInt64? cs).map (state ∘ some)
  | "stack", some cs => (readUInt64? cs).map stack
  | "stackdepth", some cs => (readUInt64? cs).map stackDepth
  | "data", some cs => (readUInt64? cs).map data
  | "var", some cs => do
    let (thread, frame, some name) ← readAddress? cs | none
    return var thread frame (String.ofList name)
  | "setvar", some cs => do
    let (thread, frame, some rest) ← readAddress? cs | none
    let (name, some value) := cutWord rest | none
    return setVar thread frame (String.ofList name) (String.ofList value)
  | "children", some cs => do
    let (thread, frame, path) ← readAddress? cs
    return children thread frame (path.map String.ofList)
  | "eval", some cs => do
    let (thread, some expression) := cutWord cs | none
    return eval (← readUInt64? thread) (String.ofList expression)
  | "resume", none => some (resume none)
  | "resume", some cs => (readUInt64? cs).map (resume ∘ some)
  | "suspend", none => some (suspend none)
  | "suspend", some cs => (readUInt64? cs).map (suspend ∘ some)
  | "step", some cs => (readUInt64? cs).map step
  | "stepreturn", some cs => (readUInt64? cs).map stepReturn
  | "drop", some cs => (readUInt64? cs).map drop
  | "set", some cs => do
    let (line, some stopVm) := cutWord cs | none
    return setBreakpoint (← readUInt64? line) (← readFlag? stopVm)
  | "clear", some cs => (readUInt64? cs).map clearBreakpoint
  | "watch", some cs => do
    let (name, access) ← cutLastWord? cs
    let (read, write) ← readAccess? access
    return watch (String.ofList name) read write
  | "eventstop", some cs => do
    let (event, enabled) ← cutLastWord? cs
    return eventStop (String.ofList event) (← readFlag? enabled)
  | "exit", none => some exit
  | _, _ => none

def ofText? (cs : List Char) : Option Command :=
  let (opcode, args) := cutWord cs
  ofArguments? (String.ofList opcode) args

/-- The name of a variable to be changed cannot be taken for two arguments. -/
def IsReadable : Command → Prop
  | setVar _ _ name _ => ' ' ∉ name.toList
  | _ => True

/-! ### What is read is what was written -/

theorem toList_text (c : Command) :
    c.text.toList = c.opcode.toList ++ c.args.flatMap (fun arg => ' ' :: arg.toList) := by
  rw [text, String.toList_intercalate]
  generalize c.opcode = first
  induction c.args generalizing first with
  | nil => simp
  | cons arg args ih =>
    have h := ih arg
    simp only [List.map_cons] at h ⊢
    rw [List.intercalate_cons_cons, h]
    simp

@[simp] theorem toList_numeral (n : Nat) : (numeral n).toList = digits n := String.toList_ofList

/-- An opcode is a word of letters. -/
theorem all_isAlpha_opcode (c : Command) : c.opcode.toList.all Char.isAlpha = true := by
  cases c <;> simp only [opcode] <;> decide

theorem ne_of_mem_opcode {c : Command} {x y : Char} (hx : x ∈ c.opcode.toList)
    (hy : y.isAlpha = false) : x ≠ y := by
  rintro rfl
  have halpha := List.all_eq_true.mp c.all_isAlpha_opcode x hx
  simp [hy] at halpha

theorem space_not_mem_opcode (c : Command) : ' ' ∉ c.opcode.toList := by
  intro hmem
  exact ne_of_mem_opcode hmem (y := ' ') rfl rfl

/-- The arguments as they are cut off the opcode. -/
def arguments? (c : Command) : Option (List Char) :=
  match c.args with
  | [] => none
  | arg :: args => some (arg.toList ++ args.flatMap (fun arg => ' ' :: arg.toList))

theorem ofText?_text_eq (c : Command) : ofText? c.text.toList = ofArguments? c.opcode c.arguments? := by
  have hspace := c.space_not_mem_opcode
  rw [ofText?, toList_text, arguments?]
  cases c.args with
  | nil => simp [cutWord_of_not_mem hspace]
  | cons arg args => simp [cutWord_append hspace]

@[simp] theorem readAddress?_numerals (thread : ThreadId) (frame : Nat) (rest : List Char) :
    readAddress? (digits thread.toNat ++ ' ' :: (digits frame ++ ' ' :: rest)) =
      some (thread, frame, some rest) := by
  simp [readAddress?, cutWord_append (space_not_mem_digits _), readUInt64?_digits,
    readDigits?_digits]

@[simp] theorem readAddress?_end (thread : ThreadId) (frame : Nat) :
    readAddress? (digits thread.toNat ++ ' ' :: digits frame) = some (thread, frame, none) := by
  simp [readAddress?, cutWord_append (space_not_mem_digits _),
    cutWord_of_not_mem (space_not_mem_digits _), readUInt64?_digits, readDigits?_digits]

@[simp] theorem readFlag?_flag (b : Bool) : readFlag? (flag b).toList = some b := by
  cases b <;> rfl

@[simp] theorem readAccess?_accessFlags (read write : Bool) :
    readAccess? (digits (accessFlags read write)) = some (read, write) := by
  cases read <;> cases write <;> rfl

@[simp] theorem space_not_mem_flag (b : Bool) : ' ' ∉ (flag b).toList := by
  cases b <;> decide

/-- **A command is read off its text.** -/
theorem ofText?_text {c : Command} (readable : c.IsReadable) : ofText? c.text.toList = some c := by
  rw [ofText?_text_eq]
  cases c with
  | threads | exit => rfl
  | state thread | resume thread | suspend thread =>
    cases thread with
    | none => rfl
    | some t => simp [arguments?, args, opcode, ofArguments?]
  | stack | stackDepth | data | step | stepReturn | drop | clearBreakpoint | var =>
    simp [arguments?, args, opcode, ofArguments?]
  | setVar thread frame name value =>
    simp [arguments?, args, opcode, ofArguments?, cutWord_append readable]
  | children thread frame path =>
    cases path <;> simp [arguments?, args, opcode, ofArguments?]
  | eval | setBreakpoint => simp [arguments?, args, opcode, ofArguments?, cutWord_append]
  | watch | eventStop => simp [arguments?, args, opcode, ofArguments?, cutLastWord?_append]

end Command

/-! ### Reading a request -/

theorem hasLineBreak_eq_false {s : String} :
    hasLineBreak s = false ↔ '\n' ∉ s.toList ∧ '\r' ∉ s.toList := by
  simp [hasLineBreak]

namespace Request

/-- What stands on the line before the line feed. -/
def text (r : Request) : String := "#" ++ toString r.token ++ " " ++ r.command.text

/-- The request on a line, without its line feed. -/
def ofText? (cs : List Char) : Option Request := do
  let '#' :: rest := cs | none
  let (token, some command) := cutWord rest | none
  return ⟨← readDigits? token, ← Command.ofText? command⟩

theorem toList_text (r : Request) :
    r.text.toList = '#' :: (digits r.token ++ ' ' :: r.command.text.toList) := by
  simp [text, String.toList_append, digits]

theorem ofText?_text {r : Request} (readable : r.command.IsReadable) :
    ofText? r.text.toList = some r := by
  rw [toList_text]
  simp [ofText?, cutWord_append, readDigits?_digits, Command.ofText?_text readable]

/-- A character that is neither a letter nor a digit, a hash sign or a space comes from an
    argument. -/
theorem mem_args_of_mem_text {r : Request} {x : Char} (hx : x ∈ r.text.toList)
    (halpha : x.isAlphanum = false) (hhash : x ≠ '#') (hspace : x ≠ ' ') :
    ∃ arg ∈ r.command.args, x ∈ arg.toList := by
  have hletter : x.isAlpha = false := by
    simp only [Char.isAlphanum, Bool.or_eq_false_iff] at halpha
    exact halpha.1
  have hdigit : x.isDigit = false := by
    simp only [Char.isAlphanum, Bool.or_eq_false_iff] at halpha
    exact halpha.2
  rw [toList_text, Command.toList_text] at hx
  simp only [List.mem_cons, List.mem_append, List.mem_flatMap, hhash, hspace, false_or] at hx
  rcases hx with htoken | hopcode | hargs
  · exact (ne_of_mem_digits htoken hdigit rfl).elim
  · exact (Command.ne_of_mem_opcode hopcode hletter rfl).elim
  · exact hargs

/-! ### What is left in the buffer -/

/-- Put the line of the request at the end of the buffer.  A request that is refused leaves
    the buffer alone. -/
def put (r : Request) (buffer : List UInt8) : Except Error Unit × List UInt8 :=
  match r.encode with
  | .ok line => (.ok (), buffer ++ Utf8.encode line.toList)
  | .error e => (.error e, buffer)

variable {r : Request}

theorem put_of_isOneLine (oneLine : r.command.IsOneLine) (buffer : List UInt8) :
    r.put buffer = (.ok (), buffer ++ (Utf8.encode r.text.toList ++ [lineFeed])) := by
  have hfeed : Utf8.encode "\n".toList = [lineFeed] := by decide
  have hline : r.line = r.text ++ "\n" := rfl
  rw [put, encode_of_isOneLine oneLine]
  simp only [hline, String.toList_append, Utf8.encode_append, hfeed]

theorem put_of_not_isOneLine (several : ¬r.command.IsOneLine) (buffer : List UInt8) :
    ∃ e, r.encode = .error e ∧ r.put buffer = (.error e, buffer) := by
  cases hencode : r.encode with
  | ok line => exact (several (encode_eq_ok hencode).2).elim
  | error e => exact ⟨e, rfl, by rw [put, hencode]⟩

theorem put_eq_ok_iff {buffer : List UInt8} :
    (r.put buffer).1 = .ok () ↔ r.command.IsOneLine := by
  constructor
  · intro accepted
    cases hencode : r.encode with
    | ok line => exact (encode_eq_ok hencode).2
    | error e => simp [put, hencode] at accepted
  · intro oneLine
    rw [put_of_isOneLine oneLine]

theorem not_isOneLine_of_put {buffer : List UInt8} {e : Error}
    (refused : (r.put buffer).1 = .error e) : ¬r.command.IsOneLine := by
  rw [← put_eq_ok_iff, refused]
  simp

theorem break_not_mem_text (oneLine : r.command.IsOneLine) {x : Char}
    (hx : x = '\n' ∨ x = '\r') : x ∉ r.text.toList := by
  intro hmem
  have hother : x.isAlphanum = false ∧ x ≠ '#' ∧ x ≠ ' ' := by
    rcases hx with rfl | rfl <;> decide
  obtain ⟨arg, harg, hin⟩ := mem_args_of_mem_text hmem hother.1 hother.2.1 hother.2.2
  obtain ⟨hfeed, hreturn⟩ := hasLineBreak_eq_false.mp (oneLine arg harg)
  rcases hx with rfl | rfl
  · exact hfeed hin
  · exact hreturn hin

theorem not_mem_encode_text (oneLine : r.command.IsOneLine) :
    lineFeed ∉ Utf8.encode r.text.toList ∧ carriageReturn ∉ Utf8.encode r.text.toList := by
  constructor
  · refine Utf8.not_mem_encode (by decide) fun c hc hcode => ?_
    exact break_not_mem_text oneLine (Or.inl (Char.toNat_inj.mp hcode)) hc
  · refine Utf8.not_mem_encode (by decide) fun c hc hcode => ?_
    exact break_not_mem_text oneLine (Or.inr (Char.toNat_inj.mp hcode)) hc

theorem putLine_eq_error (l : Link) {h : Holder} {e : Error} (refused : h.request.encode = .error e) :
    l.putLine h = (l, .error (.error e)) := by
  rw [Link.putLine, refused]

theorem putLine_of_isOneLine (l : Link) {h : Holder} (oneLine : h.request.command.IsOneLine) :
    l.putLine h = Link.writeLine { l with buffer := (h.request.put l.buffer).2 } h := by
  rw [Link.putLine, put, encode_of_isOneLine oneLine]

/-- What comes of putting a request into a buffer, and what the VM can make of it. -/
structure Unambiguous (r : Request) (buffer : List UInt8) : Prop where
  accepts : (r.put buffer).1 = .ok () ↔
    ∀ arg ∈ r.command.args, '\n' ∉ arg.toList ∧ '\r' ∉ arg.toList
  /-- Of a request that is refused nothing is put into the buffer. -/
  refuses : ∀ e, (r.put buffer).1 = .error e → (r.put buffer).2 = buffer
  /-- Of one that is accepted, its text and a line feed, and no other line break. -/
  adds : (r.put buffer).1 = .ok () → ∃ body, (r.put buffer).2 = buffer ++ (body ++ [lineFeed]) ∧
    body = Utf8.encode ("#" ++ toString r.token ++ " " ++ r.command.text).toList ∧
    lineFeed ∉ body ∧ carriageReturn ∉ body
  /-- A call that has the writer puts its request into the buffer of the link. -/
  used : ∀ (l : Link) (h : Holder), l.buffer = buffer → h.request = r →
    (∀ e, (r.put buffer).1 = .error e → l.putLine h = (l, .error (.error e))) ∧
    ((r.put buffer).1 = .ok () →
      l.putLine h = Link.writeLine { l with buffer := (r.put buffer).2 } h)
  /-- A line that is added is read as the request. -/
  reads_back : (r.put buffer).1 = .ok () → r.command.IsReadable →
    ofText? (Utf8.decodeLossy (((r.put buffer).2.drop buffer.length).dropLast)) = some r
  /-- Two requests that are accepted leave different bytes. -/
  differs : ∀ r' : Request, (r.put buffer).1 = .ok () → (r'.put buffer).1 = .ok () →
    r.command.IsReadable → r'.command.IsReadable →
    (r.put buffer).2 = (r'.put buffer).2 → r.token = r'.token ∧ r.command = r'.command

theorem ofText?_put {buffer : List UInt8} (accepted : (r.put buffer).1 = .ok ())
    (readable : r.command.IsReadable) :
    ofText? (Utf8.decodeLossy (((r.put buffer).2.drop buffer.length).dropLast)) = some r := by
  rw [put_of_isOneLine (put_eq_ok_iff.mp accepted), List.drop_left, List.dropLast_concat,
    Utf8.decodeLossy_encode]
  exact ofText?_text readable

/-- **A request that is accepted is one line, and no other request has this line.** -/
theorem unambiguous (r : Request) (buffer : List UInt8) : r.Unambiguous buffer where
  accepts := by
    rw [put_eq_ok_iff]
    simp only [Command.IsOneLine, hasLineBreak_eq_false]
  refuses e refused := by
    obtain ⟨e', -, heq⟩ := put_of_not_isOneLine (not_isOneLine_of_put refused) buffer
    rw [heq]
  adds accepted := by
    have oneLine := put_eq_ok_iff.mp accepted
    refine ⟨_, ?_, rfl, not_mem_encode_text oneLine⟩
    rw [put_of_isOneLine oneLine]
    rfl
  used := by
    rintro l h rfl rfl
    constructor
    · intro e refused
      have several := not_isOneLine_of_put refused
      obtain ⟨e', hencode, heq⟩ := put_of_not_isOneLine several l.buffer
      rw [heq, Except.error.injEq] at refused
      rw [putLine_eq_error l hencode, refused]
    · intro accepted
      exact putLine_of_isOneLine l (put_eq_ok_iff.mp accepted)
  reads_back := ofText?_put
  differs := by
    intro r' accepted accepted' readable readable' same
    have hread := ofText?_put accepted readable
    rw [same, ofText?_put accepted' readable'] at hread
    obtain rfl := Option.some.inj hread
    exact ⟨rfl, rfl⟩

/-- An empty name and a value that looks like a name and a value. -/
example : (put ⟨7, .setVar 1 0 "" "x 2"⟩ []).2 = Utf8.encode "#7 setvar 1 0  x 2\n".toList := by
  decide

end Request

end Pushdown
