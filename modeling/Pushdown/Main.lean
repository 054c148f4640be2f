/-
  Pushdown/Main.lean
  ==================
  **The debugger at a terminal.**  This layer only moves bytes: one loop waits for
  what the user types, what the VM sends and the passing of time, feeds it to the
  console, prints what the console prints and sends what it sends.  It can reach a
  VM that is running; starting one is left to the user.
-/
import Std.Async.DNS
import Std.Async.Select
import Std.Async.TCP
import Std.Async.Timer
import Std.Sync.Channel
import Pushdown.Cli.Program
import Pushdown.Console.Loop

namespace Pushdown.Main

open Std.Async Std.Net

/-! ### Files -/

def pathExists (path : String) : IO Bool := do
  try
    let _ ← IO.FS.realPath path
    return true
  catch _ => return false

def isFile (path : String) : IO Bool := do
  try
    let resolved ← IO.FS.realPath path
    return (← resolved.metadata).type == .file
  catch _ => return false

/-- What has to be known to find a program: the name itself and the places where the
    search path would have it. -/
def filesFor (name : String) : IO Files := do
  let dirs := ((← IO.getEnv "PATH").map (·.splitOn ":")).getD []
  let candidates := name :: dirs.map (joinPath · name)
  let existing ← candidates.filterM fun p => pathExists p
  let regular ← candidates.filterM fun p => isFile p
  return ⟨existing.contains, regular.contains, dirs⟩

/-- The files that matter to the command line. -/
def filesOf (args : List String) : IO Files :=
  match Cli.Invocation.ofArguments args with
  | .debug options => filesFor (options.vmCommand.headD "")
  | _ => return ⟨fun _ => false, fun _ => false, []⟩

/-! ### The way to the VM -/

def localhost : IPv4Addr := .ofParts 127 0 0 1

/-- The words of the system and its number for the failure. -/
def systemText (code : UInt32) (details : String) : String :=
  details.capitalize ++ " (os error " ++ toString (min code (0 - code)) ++ ")"

def failure : IO.Error → Error
  | .noSuchThing _ code details | .otherError code details | .timeExpired code details =>
    .io (systemText code details)
  | e => .io (toString e)

/-- A number that nothing listens at. -/
def freeNumber : IO (Except Error Nat) := do
  try
    let server ← TCP.Socket.Server.mk
    server.bind (.v4 ⟨localhost, 0⟩)
    match ← server.getSockName with
    | .v4 a => return .ok a.port.toNat
    | .v6 a => return .ok a.port.toNat
  catch e => return .error (failure e)

def resolve (host : String) (number : Nat) : IO SocketAddress := do
  let at4 (a : IPv4Addr) : SocketAddress := .v4 ⟨a, number.toUInt16⟩
  match IPv4Addr.ofString host with
  | some a => return at4 a
  | none =>
    let addresses ← (DNS.getAddrInfo host (toString number)).block
    match addresses.toList.head? with
    | some (.v4 a) => return at4 a
    | some (.v6 a) => return .v6 ⟨a, number.toUInt16⟩
    | none => throw (IO.userError ("no address for " ++ host))

def connectOnce (start : Cli.Start) : IO TCP.Socket.Client := do
  let socket ← TCP.Socket.Client.mk
  (socket.connect (← resolve start.host start.listenAt)).block
  socket.noDelay
  return socket

/-- Try to reach the VM until the deadline has passed. -/
partial def connectBy (deadline : Nat) (start : Cli.Start) :
    IO (Except Error TCP.Socket.Client) := do
  try
    return .ok (← connectOnce start)
  catch e =>
    if deadline ≤ (← IO.monoMsNow) then return .error (failure e)
    IO.sleep start.settings.connectRetryInterval.toUInt32
    connectBy deadline start

/-! ### What happens outside -/

inductive Happening where
  | typed (bytes : ByteArray)
  | sent (bytes : Option ByteArray)
  | tick
deriving Inhabited

/-- What the user has typed; no bytes at the end of the input. -/
abbrev Typing := Std.Channel ByteArray

/-- Read what the user types next. -/
def askUser (typing : Typing) (input : IO.FS.Stream) : IO Unit := do
  let _ ← IO.asTask (do let _ ← typing.send (← input.read 4096)) .dedicated

/-- Wait for the next happening.  A VM that sends no more is not listened to. -/
def next (typing : Typing) (socket : TCP.Socket.Client) (hearsVm : Bool) : Async Happening := do
  let clock ← Selector.sleep 10
  let user := Selectable.case typing.recvSelector (fun bytes => return .typed bytes)
  let time := Selectable.case clock (fun _ => return .tick)
  let vm := Selectable.case (socket.recvSelector 65536) (fun bytes => return .sent bytes)
  Selectable.one (if hearsVm then #[user, time, vm] else #[user, time])

/-! ### The loop -/

/-- Print what the console prints, and send what it sends. -/
def bringOut (socket : TCP.Socket.Client) (output : IO.FS.Stream)
    (r : Console.LoopReport × Console.Loop) : IO Console.Loop := do
  for line in r.1.printed do
    output.putStrLn line
  output.flush
  if r.1.sent.isEmpty then return r.2
  try
    (socket.send r.1.sent.toByteArray).block
    return r.2
  catch _ => return (r.2.hear .dropReader).2

def consoleStep (h : Happening) (elapsed : Nat) (loop : Console.Loop) :
    Console.LoopReport × Console.Loop :=
  match h with
  | .typed bytes => if bytes.isEmpty then loop.endInput else loop.type bytes.toList
  | .sent (some bytes) => loop.hear (.vm bytes.toList)
  | .sent none => loop.hear .vmEnd
  | .tick => loop.hear (.advance elapsed)

/-- The outside of a running console. -/
structure Outside where
  typing : Typing
  socket : TCP.Socket.Client
  input : IO.FS.Stream
  output : IO.FS.Stream

/-- Feed the console until it is over.  The user is asked only when the console
    waits for a line, and not again before the answer has come. -/
partial def feed (o : Outside) (time : Nat) (asked : Bool) (loop : Console.Loop) :
    IO (Except Error Unit) := do
  match loop.result? with
  | some result => return result
  | none =>
    let asks := loop.isReady && !loop.inputEnded
    if asks && !asked then askUser o.typing o.input
    let happening ←
      try (next o.typing o.socket loop.session.isReading).block catch _ => pure (.sent none)
    let now ← IO.monoMsNow
    let loop ← bringOut o.socket o.output (consoleStep happening (now - time) loop)
    match happening with
    | .tick => feed o now (asked || asks) loop
    | .typed _ => feed o time false loop
    | .sent _ => feed o time (asked || asks) loop

def debug (start : Cli.Start) : IO (Except Error Unit) := do
  if start.launch.isSome then
    return .error (.io "starting a VM is not supported, attach to one that is running")
  let deadline := (← IO.monoMsNow) + start.settings.connectTimeout
  match ← connectBy deadline start with
  | .error e => return .error e
  | .ok socket =>
    let outside : Outside :=
      ⟨← Std.Channel.new, socket, ← IO.getStdin, ← IO.getStdout⟩
    let loop := Console.Loop.new (Pipe.new (1048576) true) start.settings start.asJson
    feed outside (← IO.monoMsNow) false loop

/-! ### The program -/

def usageText : String :=
  "usage: pda [-p PORT] [-h HOST] [-c NAME=VALUE]... [--json] [--] [VM COMMAND]..."

/-- Say how the program ends. -/
def conclude (e : Cli.Ending) : IO UInt32 := do
  match e with
  | .misuse => IO.eprintln usageText
  | .help => IO.println usageText
  | .version => IO.println Cli.versionLine
  | .finished | .failed _ =>
    if let some line := e.failureLine? then IO.eprintln line
  return e.exitCode.toUInt32

end Pushdown.Main

def main (args : List String) : IO UInt32 := do
  let files ← Pushdown.Main.filesOf args
  match Pushdown.Cli.begin? files (← Pushdown.Main.freeNumber) args with
  | .error e => Pushdown.Main.conclude e
  | .ok start => Pushdown.Main.conclude (.ofResult (← Pushdown.Main.debug start))
