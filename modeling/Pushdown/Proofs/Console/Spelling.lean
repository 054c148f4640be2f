/-
  Pushdown/Proofs/Console/Spelling.lean
  =====================================
  **What is typed is what is read.**  `Command.IsSpelled` is the grammar of the console,
  one constructor for each way to spell a command: the words it consists of, and for `set`
  and `eval` the free text behind them.  Whoever types chooses the blanks between them.

  Words are found by cutting the line at its blanks and free texts by a scan of their own
  that skips words from the left.  Both are compared with the parts of the line, so they
  agree on every line (`restAfter_eq`).

  A line is read as a command exactly if it is a spelling of it (`ofLine?_eq_some_iff`).
-/
import Pushdown.Console.Command
import Pushdown.Proofs.Console.Numerals
import Pushdown.Text.Spacing

namespace Pushdown.Console

open Text

theorem skipWord_append {w later : List Char} (hw : IsWord w) (apart : AtBreak later) :
    skipWord (w ++ later) = later.dropWhile isBlank := by
  have hfront : (w ++ later).dropWhile (fun c => !isBlank c) = later := by
    rw [List.dropWhile_append_of_pos (fun c hc => by simp [hw.unbroken c hc])]
    cases later with
    | nil => rfl
    | cons b later => simp [apart b rfl]
  rw [skipWord, hfront]

theorem repeat_succ {α : Type} (f : α → α) (n : Nat) (a : α) :
    (n + 1).repeat f a = n.repeat f (f a) := by
  induction n with
  | zero => rfl
  | succ n ih => exact congrArg f ih

/-- The scan that skips words comes as far as the words reach. -/
theorem repeat_skipWord {ws : List (List Char)} {line rest : List Char}
    (h : Leads ws line rest) (hws : ∀ w ∈ ws, IsWord w) :
    ws.length.repeat skipWord (line.dropWhile isBlank) = rest.dropWhile isBlank := by
  induction h with
  | nil => rfl
  | @cons gap w later rest ws blank apart _ ih =>
    obtain ⟨hw, hws⟩ := List.forall_mem_cons.mp hws
    have hself : (w ++ later).dropWhile isBlank = w ++ later := by
      cases w with
      | nil => exact (hw.ne_nil rfl).elim
      | cons c w => simp [hw.unbroken c (by simp)]
    rw [List.length_cons, repeat_succ, List.dropWhile_append_of_pos blank, hself,
      skipWord_append hw apart, ih hws]

theorem restAfter_eq {ws : List (List Char)} {line rest : List Char}
    (h : Leads ws line rest) (hws : ∀ w ∈ ws, IsWord w) :
    restAfter ws.length line = String.ofList (trim rest) := by
  rw [restAfter, repeat_skipWord h hws, trim]

/-! ### The grammar -/

/-- The word asks for these accesses, and for no others. -/
structure IsAccess (w : String) (read write : Bool) : Prop where
  ne_nil : w.toList ≠ []
  letters : ∀ c ∈ w.toList, c = 'r' ∨ c = 'w'
  reads : read = true ↔ 'r' ∈ w.toList
  writes : write = true ↔ 'w' ∈ w.toList

/-- The ways to spell a command: its words, and the free text behind them. -/
inductive Command.IsSpelled : Command → List String → Option String → Prop
  | threads : IsSpelled .threads ["threads"] none
  | frames {t : ThreadId} {a : String} (thread : IsNumeral a t) :
      IsSpelled (.frames t) ["frames", a] none
  | vars {t : ThreadId} {a : String} (thread : IsNumeral a t) :
      IsSpelled (.vars t none) ["vars", a] none
  | varsAt {t : ThreadId} {f : UInt64} {a b : String} (thread : IsNumeral a t)
      (frame : IsNumeral b f) : IsSpelled (.vars t (some f)) ["vars", a, b] none
  | print {t : ThreadId} {f : UInt64} {a b : String} (name : String) (thread : IsNumeral a t)
      (frame : IsNumeral b f) : IsSpelled (.print t f name) ["print", a, b, name] none
  | children {t : ThreadId} {f : UInt64} {a b : String} (path : String)
      (thread : IsNumeral a t) (frame : IsNumeral b f) :
      IsSpelled (.children t f path) ["children", a, b, path] none
  | set {t : ThreadId} {f : UInt64} {a b : String} (name value : String)
      (thread : IsNumeral a t) (frame : IsNumeral b f) :
      IsSpelled (.set t f name value) ["set", a, b, name] (some value)
  | eval {t : ThreadId} {a : String} (expression : String) (thread : IsNumeral a t) :
      IsSpelled (.eval t expression) ["eval", a] (some expression)
  | data {t : ThreadId} {a : String} (thread : IsNumeral a t) :
      IsSpelled (.data t) ["data", a] none
  | resumeAll : IsSpelled (.resume none) ["resume"] none
  | resume {t : ThreadId} {a : String} (thread : IsNumeral a t) :
      IsSpelled (.resume (some t)) ["resume", a] none
  | suspendAll : IsSpelled (.suspend none) ["suspend"] none
  | suspend {t : ThreadId} {a : String} (thread : IsNumeral a t) :
      IsSpelled (.suspend (some t)) ["suspend", a] none
  | step {t : ThreadId} {a : String} (thread : IsNumeral a t) :
      IsSpelled (.step t) ["step", a] none
  | stepReturn {t : ThreadId} {a : String} (thread : IsNumeral a t) :
      IsSpelled (.stepReturn t) ["stepreturn", a] none
  | drop {t : ThreadId} {a : String} (thread : IsNumeral a t) :
      IsSpelled (.drop t) ["drop", a] none
  | breakAt {n : UInt64} {a : String} (line : IsNumeral a n) :
      IsSpelled (.breakAt n false) ["break", a] none
  | breakVm {n : UInt64} {a : String} (line : IsNumeral a n) :
      IsSpelled (.breakAt n true) ["break", a, "vm"] none
  | clear {n : UInt64} {a : String} (line : IsNumeral a n) :
      IsSpelled (.clear n) ["clear", a] none
  | watch (name : String) : IsSpelled (.watch name true true) ["watch", name] none
  | watchFor {read write : Bool} {a : String} (name : String)
      (access : IsAccess a read write) :
      IsSpelled (.watch name read write) ["watch", name, a] none
  | eventOn (name : String) : IsSpelled (.eventStop name true) ["eventstop", name, "on"] none
  | eventOff (name : String) :
      IsSpelled (.eventStop name false) ["eventstop", name, "off"] none
  | state : IsSpelled .state ["state"] none
  | help : IsSpelled .help ["help"] none
  | exit : IsSpelled .exit ["exit"] none

/-- The names are words, the free text has no blank at its ends, and a watch asks for some
    access. -/
def Command.IsWellFormed : Command → Prop
  | print _ _ name | children _ _ name | eventStop name _ => IsWord name.toList
  | set _ _ name value => IsWord name.toList ∧ IsText value.toList
  | eval _ expression => IsText expression.toList
  | watch name read write => IsWord name.toList ∧ (read = true ∨ write = true)
  | _ => True

/-- The line is a spelling of the command, with blanks wherever the typist put them. -/
def Command.IsTypedAs (c : Command) (line : List Char) : Prop :=
  c.IsWellFormed ∧ ∃ fixed text, c.IsSpelled fixed text ∧
    IsTyped ((fixed ++ text.toList).map String.toList) line

variable {line : List Char} {a : String} {n : UInt64} {read write : Bool} {c : Command}
  {ws fixed : List String} {text : Option String}

/-! ### Words of a command -/

theorem number_eq_ok {role : NumberRole} : number role a = .ok n ↔ IsNumeral a n := by
  rw [← readUInt64?_eq_some, number]
  cases readUInt64? a.toList <;> simp

theorem readAccess_eq_ok : readAccess a = .ok (read, write) ↔ IsAccess a read write := by
  have hshape : (!a.toList.isEmpty && a.toList.all fun c => c == 'r' || c == 'w') = true ↔
      a.toList ≠ [] ∧ ∀ c ∈ a.toList, c = 'r' ∨ c = 'w' := by
    simp
  by_cases shape : a.toList ≠ [] ∧ ∀ c ∈ a.toList, c = 'r' ∨ c = 'w'
  · have hread : readAccess a = .ok (a.toList.contains 'r', a.toList.contains 'w') :=
      if_pos (hshape.mpr shape)
    rw [hread, Except.ok.injEq, Prod.mk.injEq]
    constructor
    · rintro ⟨rfl, rfl⟩
      exact ⟨shape.1, shape.2, List.contains_iff_mem, List.contains_iff_mem⟩
    · intro access
      constructor
      · exact Bool.eq_iff_iff.mpr (List.contains_iff_mem.trans access.reads.symm)
      · exact Bool.eq_iff_iff.mpr (List.contains_iff_mem.trans access.writes.symm)
  · have hread : readAccess a = .error (.badAccess a) := if_neg (fun h => shape (hshape.mp h))
    rw [hread]
    constructor
    · intro h
      cases h
    · intro access
      exact (shape ⟨access.ne_nil, access.letters⟩).elim

/-! ### Reading the words -/

/-- Which words of the line the spelling accounts for: all of them, or all before the free
    text. -/
def Fits (line : List Char) (ws fixed : List String) (text : Option String) : Prop :=
  (text = none ∧ ws = fixed) ∨
    ∃ w more, ws = fixed ++ w :: more ∧ text = some (restAfter fixed.length line)

/-- Two steps of reading succeed together. -/
theorem bind_eq_ok {α β : Type} {x : Except ParseError α} {k : α → Except ParseError β} {b : β} :
    (x >>= k) = .ok b ↔ ∃ a, x = .ok a ∧ k a = .ok b := by
  cases x with
  | error e => simp [bind, Except.bind]
  | ok a => simp [bind, Except.bind]

theorem ofWords?_of_isSpelled (spelled : c.IsSpelled fixed text) (fits : Fits line ws fixed text) :
    Command.ofWords? line ws = .ok (some c) := by
  rcases fits with ⟨rfl, rfl⟩ | ⟨w, more, rfl, htext⟩
  · cases spelled with
    | threads | resumeAll | suspendAll | watch | eventOn | eventOff | state | help | exit => rfl
    | frames h | vars h | data h | resume h | suspend h | step h | stepReturn h | drop h
    | breakAt h | breakVm h | clear h =>
      exact bind_eq_ok.mpr ⟨_, number_eq_ok.mpr h, rfl⟩
    | varsAt h k | print _ h k | children _ h k =>
      refine bind_eq_ok.mpr ⟨_, number_eq_ok.mpr h, ?_⟩
      exact bind_eq_ok.mpr ⟨_, number_eq_ok.mpr k, rfl⟩
    | watchFor _ h => exact bind_eq_ok.mpr ⟨_, readAccess_eq_ok.mpr h, rfl⟩
  · cases spelled with
    | set name value h k =>
      cases htext
      refine bind_eq_ok.mpr ⟨_, number_eq_ok.mpr h, ?_⟩
      exact bind_eq_ok.mpr ⟨_, number_eq_ok.mpr k, rfl⟩
    | eval expression h =>
      cases htext
      exact bind_eq_ok.mpr ⟨_, number_eq_ok.mpr h, rfl⟩
    | _ => cases htext

theorem isSpelled_of_ofWords? (h : Command.ofWords? line ws = .ok (some c)) :
    ∃ fixed text, c.IsSpelled fixed text ∧ Fits line ws fixed text := by
  have hall : ∀ {ws : List String}, Fits line ws ws none := .inl ⟨rfl, rfl⟩
  unfold Command.ofWords? at h
  -- The cases are the alternatives of the parser, in its order.
  split at h
  all_goals
    simp only [bind_eq_ok, number_eq_ok, readAccess_eq_ok, Prod.exists, pure, Except.pure,
      Except.ok.injEq, Option.some.injEq, reduceCtorEq] at h
  · cases h
    exact ⟨_, none, .threads, hall⟩
  · obtain ⟨t, thread, rfl⟩ := h
    exact ⟨_, none, .frames thread, hall⟩
  · obtain ⟨t, thread, rfl⟩ := h
    exact ⟨_, none, .vars thread, hall⟩
  · obtain ⟨t, thread, f, frame, rfl⟩ := h
    exact ⟨_, none, .varsAt thread frame, hall⟩
  · obtain ⟨t, thread, f, frame, rfl⟩ := h
    exact ⟨_, none, .print _ thread frame, hall⟩
  · obtain ⟨t, thread, f, frame, rfl⟩ := h
    exact ⟨_, none, .children _ thread frame, hall⟩
  · obtain ⟨t, thread, f, frame, rfl⟩ := h
    exact ⟨_, some _, .set _ _ thread frame, .inr ⟨_, _, rfl, rfl⟩⟩
  · obtain ⟨t, thread, rfl⟩ := h
    exact ⟨_, some _, .eval _ thread, .inr ⟨_, _, rfl, rfl⟩⟩
  · obtain ⟨t, thread, rfl⟩ := h
    exact ⟨_, none, .data thread, hall⟩
  · cases h
    exact ⟨_, none, .resumeAll, hall⟩
  · obtain ⟨t, thread, rfl⟩ := h
    exact ⟨_, none, .resume thread, hall⟩
  · cases h
    exact ⟨_, none, .suspendAll, hall⟩
  · obtain ⟨t, thread, rfl⟩ := h
    exact ⟨_, none, .suspend thread, hall⟩
  · obtain ⟨t, thread, rfl⟩ := h
    exact ⟨_, none, .step thread, hall⟩
  · obtain ⟨t, thread, rfl⟩ := h
    exact ⟨_, none, .stepReturn thread, hall⟩
  · obtain ⟨t, thread, rfl⟩ := h
    exact ⟨_, none, .drop thread, hall⟩
  · obtain ⟨n, number, rfl⟩ := h
    exact ⟨_, none, .breakAt number, hall⟩
  · obtain ⟨n, number, rfl⟩ := h
    exact ⟨_, none, .breakVm number, hall⟩
  · obtain ⟨n, number, rfl⟩ := h
    exact ⟨_, none, .clear number, hall⟩
  · cases h
    exact ⟨_, none, .watch _, hall⟩
  · obtain ⟨read, write, access, rfl⟩ := h
    exact ⟨_, none, .watchFor _ access, hall⟩
  · cases h
    exact ⟨_, none, .eventOn _, hall⟩
  · cases h
    exact ⟨_, none, .eventOff _, hall⟩
  · cases h
    exact ⟨_, none, .state, hall⟩
  · cases h
    exact ⟨_, none, .help, hall⟩
  · cases h
    exact ⟨_, none, .exit, hall⟩

/-! ### Reading a line -/

theorem isWord_of_isAccess (h : IsAccess a read write) : IsWord a.toList := by
  refine ⟨h.ne_nil, fun c hc => ?_⟩
  rcases h.letters c hc with rfl | rfl <;> rfl

/-- A watch that is asked for reads or for writes is well-formed. -/
theorem some_access (h : IsAccess a read write) : read = true ∨ write = true := by
  obtain ⟨c, hc⟩ := List.exists_mem_of_ne_nil _ h.ne_nil
  rcases h.letters c hc with rfl | rfl
  · exact .inl (h.reads.mpr hc)
  · exact .inr (h.writes.mpr hc)

/-- The parts of a spelling are words and a text exactly if the command is well-formed. -/
theorem Command.IsSpelled.wellFormed_iff (spelled : c.IsSpelled fixed text) :
    c.IsWellFormed ↔ (∀ w ∈ fixed, IsWord w.toList) ∧ ∀ v ∈ text, IsText v.toList := by
  cases spelled with
  | threads | resumeAll | suspendAll | state | help | exit =>
    simp +decide [Command.IsWellFormed]
  | frames h | vars h | data h | resume h | suspend h | step h | stepReturn h | drop h
  | breakAt h | breakVm h | clear h =>
    simp +decide [Command.IsWellFormed, isWord_of_isNumeral h]
  | varsAt h k => simp +decide [Command.IsWellFormed, isWord_of_isNumeral h, isWord_of_isNumeral k]
  | print _ h k | children _ h k | set _ _ h k =>
    simp +decide [Command.IsWellFormed, isWord_of_isNumeral h, isWord_of_isNumeral k]
  | eval _ h => simp +decide [Command.IsWellFormed, isWord_of_isNumeral h]
  | watch | eventOn | eventOff => simp +decide [Command.IsWellFormed]
  | watchFor _ h =>
    simp +decide [Command.IsWellFormed, isWord_of_isAccess h, some_access h]

theorem map_toList_eq {ws : List String} {line : List (List Char)} :
    line.map String.ofList = ws ↔ line = ws.map String.toList := by
  constructor
  · rintro rfl
    exact (map_toList_ofList line).symm
  · rintro rfl
    exact map_ofList_toList ws

theorem typed_of_fits (fits : Fits line ((words line).map String.ofList) fixed text) :
    (∀ w ∈ fixed, IsWord w.toList) ∧ (∀ v ∈ text, IsText v.toList) ∧
      IsTyped ((fixed ++ text.toList).map String.toList) line := by
  obtain ⟨hwords, rest, leads, blank⟩ := isTyped_words line
  rcases fits with ⟨rfl, hws⟩ | ⟨w, more, hws, rfl⟩
  · have hline := map_toList_eq.mp hws
    rw [hline] at hwords leads
    refine ⟨fun w hw => hwords _ (List.mem_map_of_mem hw), by simp, rest, ?_, blank⟩
    simpa using leads
  · have hline := map_toList_eq.mp hws
    rw [hline, List.map_append] at hwords leads
    obtain ⟨hfixed, hmore⟩ := List.forall_mem_append.mp hwords
    obtain ⟨mid, first, second⟩ := leads.split
    have hmid := second.words_eq hmore
    have htext : IsText (trim mid) := isText_trim (by simp [hmid])
    have hrest := restAfter_eq first hfixed
    rw [List.length_map] at hrest
    refine ⟨fun w hw => hfixed _ (List.mem_map_of_mem hw), ?_, ?_⟩
    · rw [hrest]
      rintro v ⟨⟩
      simpa using htext
    · obtain ⟨before, after, hbefore, hafter, hsplit⟩ := exists_trim mid
      have last : Leads [trim mid] mid after := by
        nth_rewrite 2 [hsplit]
        exact .cons hbefore hafter.atBreak (.nil after)
      refine ⟨after, ?_, hafter⟩
      simpa [hrest] using first.append last

theorem fits_of_typed (hfixed : ∀ w ∈ fixed, IsWord w.toList) (htext : ∀ v ∈ text, IsText v.toList)
    (typed : IsTyped ((fixed ++ text.toList).map String.toList) line) :
    Fits line ((words line).map String.ofList) fixed text := by
  have hwords : ∀ w ∈ fixed.map String.toList, IsWord w := by simpa using hfixed
  obtain ⟨rest, leads, blank⟩ := typed
  rw [List.map_append] at leads
  obtain ⟨mid, first, second⟩ := leads.split
  have hline := first.words_eq hwords
  cases text with
  | none =>
    cases second
    rw [words_of_isGap blank, List.append_nil] at hline
    exact .inl ⟨rfl, map_toList_eq.mpr hline⟩
  | some value =>
    have text : IsText value.toList := htext value rfl
    rcases second with _ | ⟨before, apart, last⟩
    cases last
    have hrest := restAfter_eq first hwords
    rw [trim_of_isText before text blank, List.length_map, String.ofList_toList] at hrest
    rw [words_gap_append before] at hline
    have hne := words_ne_nil_of_isText text rest
    cases hmore : words (value.toList ++ rest) with
    | nil => cases hne hmore
    | cons w more =>
      rw [hmore] at hline
      refine .inr ⟨String.ofList w, more.map String.ofList, map_toList_eq.mpr ?_, by rw [hrest]⟩
      simpa [Function.comp_def] using hline

/-- **A line is read as a command exactly if it is a spelling of it.** -/
theorem ofLine?_eq_some_iff {line : String} :
    Command.ofLine? line = .ok (some c) ↔ c.IsTypedAs line.toList := by
  constructor
  · intro h
    obtain ⟨fixed, text, spelled, fits⟩ := isSpelled_of_ofWords? h
    obtain ⟨hfixed, htext, typed⟩ := typed_of_fits fits
    exact ⟨spelled.wellFormed_iff.mpr ⟨hfixed, htext⟩, fixed, text, spelled, typed⟩
  · rintro ⟨wellFormed, fixed, text, spelled, typed⟩
    obtain ⟨hfixed, htext⟩ := spelled.wellFormed_iff.mp wellFormed
    exact ofWords?_of_isSpelled spelled (fits_of_typed hfixed htext typed)

theorem eq_nil_of_ofWords? (h : Command.ofWords? line ws = .ok none) : ws = [] := by
  unfold Command.ofWords? at h
  split at h
  · rfl
  all_goals
    simp only [bind_eq_ok, pure, Except.pure, Except.ok.injEq, reduceCtorEq, and_false,
      exists_false] at h

theorem ofLine?_eq_none_iff {line : String} :
    Command.ofLine? line = .ok none ↔ IsGap line.toList := by
  rw [← words_eq_nil_iff]
  constructor
  · intro h
    exact List.map_eq_nil_iff.mp (eq_nil_of_ofWords? h)
  · intro h
    rw [Command.ofLine?, h]
    rfl

/-! ### Printing a command -/

/-- The word that asks for these accesses. -/
def accessWord (read write : Bool) : String :=
  (if read then "r" else "") ++ (if write then "w" else "")

/-- How a command is written: its words, the free text last. -/
def Command.parts : Command → List String
  | threads => ["threads"]
  | frames t => ["frames", toString t]
  | vars t none => ["vars", toString t]
  | vars t (some f) => ["vars", toString t, toString f]
  | print t f name => ["print", toString t, toString f, name]
  | children t f path => ["children", toString t, toString f, path]
  | set t f name value => ["set", toString t, toString f, name, value]
  | eval t expression => ["eval", toString t, expression]
  | data t => ["data", toString t]
  | resume none => ["resume"]
  | resume (some t) => ["resume", toString t]
  | suspend none => ["suspend"]
  | suspend (some t) => ["suspend", toString t]
  | step t => ["step", toString t]
  | stepReturn t => ["stepreturn", toString t]
  | drop t => ["drop", toString t]
  | breakAt line stopVm => ["break", toString line] ++ if stopVm then ["vm"] else []
  | clear line => ["clear", toString line]
  | watch name read write => ["watch", name, accessWord read write]
  | eventStop name enabled => ["eventstop", name, if enabled then "on" else "off"]
  | state => ["state"]
  | help => ["help"]
  | exit => ["exit"]

theorem isAccess_accessWord (h : read = true ∨ write = true) :
    IsAccess (accessWord read write) read write := by
  cases read with
  | false =>
    cases write with
    | false => simp at h
    | true => constructor <;> simp [accessWord]
  | true => cases write <;> constructor <;> simp [accessWord]

/-- A well-formed command is spelled as it is written. -/
theorem Command.isSpelled_parts (wellFormed : c.IsWellFormed) :
    ∃ fixed text, c.IsSpelled fixed text ∧ c.parts = fixed ++ text.toList := by
  have number := isNumeral_toString
  cases c with
  | threads => exact ⟨_, none, .threads, rfl⟩
  | frames t => exact ⟨_, none, .frames (number t), rfl⟩
  | vars t frame =>
    cases frame with
    | none => exact ⟨_, none, .vars (number t), rfl⟩
    | some f => exact ⟨_, none, .varsAt (number t) (number f), rfl⟩
  | print t f name => exact ⟨_, none, .print name (number t) (number f), rfl⟩
  | children t f path => exact ⟨_, none, .children path (number t) (number f), rfl⟩
  | set t f name value => exact ⟨_, some value, .set name value (number t) (number f), rfl⟩
  | eval t expression => exact ⟨_, some expression, .eval expression (number t), rfl⟩
  | data t => exact ⟨_, none, .data (number t), rfl⟩
  | resume thread =>
    cases thread with
    | none => exact ⟨_, none, .resumeAll, rfl⟩
    | some t => exact ⟨_, none, .resume (number t), rfl⟩
  | suspend thread =>
    cases thread with
    | none => exact ⟨_, none, .suspendAll, rfl⟩
    | some t => exact ⟨_, none, .suspend (number t), rfl⟩
  | step t => exact ⟨_, none, .step (number t), rfl⟩
  | stepReturn t => exact ⟨_, none, .stepReturn (number t), rfl⟩
  | drop t => exact ⟨_, none, .drop (number t), rfl⟩
  | breakAt line stopVm =>
    cases stopVm with
    | false => exact ⟨_, none, .breakAt (number line), rfl⟩
    | true => exact ⟨_, none, .breakVm (number line), rfl⟩
  | clear line => exact ⟨_, none, .clear (number line), rfl⟩
  | watch name read write =>
    exact ⟨_, none, .watchFor name (isAccess_accessWord wellFormed.2), rfl⟩
  | eventStop name enabled =>
    cases enabled with
    | false => exact ⟨_, none, .eventOff name, rfl⟩
    | true => exact ⟨_, none, .eventOn name, rfl⟩
  | state => exact ⟨_, none, .state, rfl⟩
  | help => exact ⟨_, none, .help, rfl⟩
  | exit => exact ⟨_, none, .exit, rfl⟩

/-- The free text of a command, and how many words stand before it. -/
def Command.freeText? : Command → Option (Nat × String)
  | set _ _ _ value => some (4, value)
  | eval _ expression => some (2, expression)
  | _ => none

/-- The part of the line from the first character after its `n` words to the last that is
    not blank. -/
structure IsRestOf (text : String) (n : Nat) (line : List Char) : Prop where
  is_text : IsText text.toList
  lies : ∃ before after, line = before ++ (text.toList ++ after) ∧
    words before = (words line).take n ∧ (words before).length = n ∧ IsGap after

theorem isRestOf_of_isTypedAs {n : Nat} {value : String} (free : c.freeText? = some (n, value))
    (typed : c.IsTypedAs line) : IsRestOf value n line := by
  obtain ⟨wellFormed, fixed, text, spelled, rest, leads, blank⟩ := typed
  obtain ⟨hfixed, htext⟩ := spelled.wellFormed_iff.mp wellFormed
  have hlast : text = some value ∧ fixed.length = n := by
    cases spelled <;> simp_all [Command.freeText?]
  obtain ⟨rfl, hlength⟩ := hlast
  have hwords : ∀ w ∈ fixed.map String.toList, IsWord w := by simpa using hfixed
  rw [List.map_append] at leads
  obtain ⟨mid, first, second⟩ := leads.split
  obtain ⟨front, rfl, hfront⟩ := first.exists_front
  have hline := first.words_eq hwords
  have hlen : (fixed.map String.toList).length = n := by rwa [List.length_map]
  cases second with
  | @cons gap _ _ _ _ before apart last =>
    cases last
    have hbefore := (hfront gap before.atBreak).words_eq hwords
    rw [words_of_isGap before, List.append_nil] at hbefore
    refine ⟨htext value rfl, front ++ gap, rest, by simp, ?_, ?_, blank⟩
    · rw [hbefore, hline, ← hlen, List.take_left]
    · rw [hbefore, hlen]

/-- What the console makes of a line. -/
structure ReadsBack (line : String) : Prop where
  /-- A command that is written with any blanks between its parts is read back. -/
  printed : ∀ c : Command, c.IsWellFormed → IsTyped (c.parts.map String.toList) line.toList →
    Command.ofLine? line = .ok (some c)
  /-- Every command that is read has been typed, and is well-formed. -/
  typed : ∀ c, Command.ofLine? line = .ok (some c) ↔ c.IsTypedAs line.toList
  well_formed : ∀ c, Command.ofLine? line = .ok (some c) → c.IsWellFormed
  free_text : ∀ c n text, Command.ofLine? line = .ok (some c) → c.freeText? = some (n, text) →
    IsRestOf text n line.toList
  /-- Blank lines and only those are no command. -/
  blank : Command.ofLine? line = .ok none ↔ IsGap line.toList
  /-- Every other line is an error. -/
  otherwise : (∃ e, Command.ofLine? line = .error e) ↔
    ¬IsGap line.toList ∧ ∀ c : Command, ¬c.IsTypedAs line.toList

/-- **The console reads back what is printed, and nothing else.** -/
theorem readsBack (line : String) : ReadsBack line where
  printed c wellFormed typed := by
    obtain ⟨fixed, text, spelled, hparts⟩ := c.isSpelled_parts wellFormed
    rw [hparts] at typed
    exact ofLine?_eq_some_iff.mpr ⟨wellFormed, fixed, text, spelled, typed⟩
  typed c := ofLine?_eq_some_iff
  well_formed c h := (ofLine?_eq_some_iff.mp h).1
  free_text c n text h free := isRestOf_of_isTypedAs free (ofLine?_eq_some_iff.mp h)
  blank := ofLine?_eq_none_iff
  otherwise := by
    rw [← ofLine?_eq_none_iff]
    simp only [← ofLine?_eq_some_iff]
    cases Command.ofLine? line with
    | error e => simp
    | ok c => cases c <;> simp

example : Command.ofLine? " set\t1 +0  x\u3000a  b " = .ok (some (.set 1 0 "x" "a  b")) := by
  decide +kernel

end Pushdown.Console
