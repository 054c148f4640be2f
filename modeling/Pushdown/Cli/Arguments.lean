/-
  Pushdown/Cli/Arguments.lean
  ===========================
  **The command line.**  Options may stand anywhere before a `--`; every other
  argument, and everything after the `--`, belongs to the command that starts a
  VM.  A value follows its option as the next argument, or in the same argument,
  with or without an equals sign.  An argument that begins with a hyphen is never
  the value of the option before it, except for the hyphen alone; an option that
  is left without a value is passed over as long as it has one elsewhere.
-/
import Pushdown.Text.Blank

namespace Pushdown.Cli

/-- What the user asked for. -/
structure Options where
  /-- Where the VM listens, as typed. -/
  listenAt : Option String
  host : Option String
  settings : List String
  asJson : Bool
  vmCommand : List String
deriving DecidableEq, Repr

/-- What a command line amounts to. -/
inductive Invocation where
  | debug (options : Options)
  | help
  | version
  | misuse
deriving DecidableEq, Repr

/-- The options that take a value. -/
inductive Valued where
  | listenAt
  | host
  | setting
deriving DecidableEq, Repr

/-- How often an option stands on the command line, and the values it has. -/
structure Uses where
  count : Nat
  values : List String
deriving DecidableEq, Repr

namespace Uses

def never : Uses := ⟨0, []⟩

/-- One use more, with a value or without. -/
def add (u : Uses) (value : Option String) : Uses := ⟨u.count + 1, u.values ++ value.toList⟩

/-- Used, but nowhere with a value. -/
def lacksValue (u : Uses) : Bool := 0 < u.count && u.values.isEmpty

def isRepeated (u : Uses) : Bool := 1 < u.count

end Uses

/-- What has been read of a command line. -/
structure Given where
  listenAt : Uses
  host : Uses
  settings : Uses
  json : Nat
  free : List String
deriving DecidableEq, Repr

namespace Given

def nothing : Given := ⟨.never, .never, .never, 0, []⟩

/-- One use more of an option, with a value or without. -/
def addUse (g : Given) (v : Valued) (value : Option String) : Given :=
  match v with
  | .listenAt => { g with listenAt := g.listenAt.add value }
  | .host => { g with host := g.host.add value }
  | .setting => { g with settings := g.settings.add value }

def addFree (g : Given) (args : List String) : Given := { g with free := g.free ++ args }

def addJson (g : Given) : Given := { g with json := g.json + 1 }

/-- Whether an option has no value, or one that may be given once was given twice. -/
def isMisuse (g : Given) : Bool :=
  g.listenAt.lacksValue || g.host.lacksValue || g.settings.lacksValue
    || g.listenAt.isRepeated || g.host.isRepeated || 1 < g.json

def invocation (g : Given) : Invocation :=
  if g.isMisuse then .misuse
  else
    .debug ⟨g.listenAt.values.head?, g.host.values.head?, g.settings.values, 0 < g.json, g.free⟩

end Given

/-! ### One argument -/

def valuedLong? : String → Option Valued
  | "port" => some .listenAt
  | "host" => some .host
  | "config" => some .setting
  | _ => none

def valuedShort? : Char → Option Valued
  | 'p' => some .listenAt
  | 'h' => some .host
  | 'c' => some .setting
  | _ => none

/-- What one argument is. -/
inductive Argument where
  /-- An option with its value. -/
  | value (option : Valued) (value : String)
  /-- An option whose value is the next argument. -/
  | needsValue (option : Valued)
  | json
  | help
  | version
  /-- Everything after it belongs to the VM command. -/
  | endOfOptions
  | free (text : String)
  | unknown
deriving DecidableEq, Repr

/-- The text without equals signs at its front. -/
def withoutEquals (cs : List Char) : String := String.ofList (cs.dropWhile (· == '='))

def longArgument (cs : List Char) : Argument :=
  let name := String.ofList (cs.takeWhile (· != '='))
  let rest := cs.dropWhile (· != '=')
  match valuedLong? name, name with
  | some option, _ =>
    if rest.isEmpty then .needsValue option else .value option (withoutEquals rest)
  | none, "json" => .json
  | none, "help" => .help
  | none, "version" => .version
  | none, _ => .unknown

def shortArgument : List Char → Argument
  | [] => .unknown
  | 'V' :: _ => .version
  | c :: rest =>
    match valuedShort? c with
    | some option =>
      if rest.isEmpty then .needsValue option else .value option (withoutEquals rest)
    | none => .unknown

def Argument.ofText (text : String) : Argument :=
  match text.toList with
  | ['-', '-'] => .endOfOptions
  | '-' :: '-' :: cs => longArgument (cs.dropWhile (· == '-'))
  | '-' :: c :: cs => shortArgument (c :: cs)
  | _ => .free text

/-! ### All arguments -/

/-- Read the arguments in order.  The first that is unknown makes the whole line a
    misuse, and a request for help or the version is answered as soon as it is met;
    options without a value and repeated ones are found at the end. -/
def readArguments (g : Given) : List String → Invocation
  | [] => g.invocation
  | arg :: rest =>
    match Argument.ofText arg with
    | .value option value => readArguments (g.addUse option value) rest
    | .needsValue option =>
      match rest with
      | [] => (g.addUse option none).invocation
      | next :: later =>
        match Argument.ofText next with
        | .free value => readArguments (g.addUse option value) later
        | _ => readArguments (g.addUse option none) (next :: later)
    | .json => readArguments g.addJson rest
    | .help => .help
    | .version => .version
    | .endOfOptions => (g.addFree rest).invocation
    | .free text => readArguments (g.addFree [text]) rest
    | .unknown => .misuse

def Invocation.ofArguments (args : List String) : Invocation :=
  readArguments Given.nothing args

end Pushdown.Cli
