/-
  Pushdown/Link/Basic.lean
  ========================
  **One command in flight.**  Calls that want to send a command queue for the
  writer and get it in the order they came.  The call that has the writer — the
  *holder* — draws the next token, is entered as the one whose reply is
  *expected*, writes its line, waits for the reply and lets go of the writer.

  The line goes through a buffer.  What an interrupted call leaves there is
  written before any later line, so lines are never torn.  A line is put in only
  while the buffer holds less than `bufferLimit` bytes: a call that finds more begins
  to empty it, and if it has to wait for the pipe it looks again each time there is
  room.

  The time limit counts from getting the writer and covers the write as well as
  the wait.  Closing ends every call, whatever it is doing.

  A shutdown closes the link and then queues for the writer like any other call, to
  shut the pipe.  It does not wait longer than `shutdownGrace`.

  `turn` lets things happen until a call is over, `settle` until nothing can happen
  without further input.

  Tokens are natural numbers here, where a counter of 64 bits would do.  Runs are
  supposed to stay below 2^64 tokens, one for each call that gets the writer; up to
  there the two are the same.
-/
import Pushdown.Link.Pipe
import Pushdown.Reply
import Pushdown.Text.Utf8
import Pushdown.Wire.Incoming
import Pushdown.Wire.Request

namespace Pushdown

/-- The number by which a caller knows its call. -/
abbrev Ticket := Nat

/-- How far the holder has come. -/
inductive Phase where
  /-- About to put its line into the buffer. -/
  | starting
  /-- The buffer was too full for its line, and so was the pipe. -/
  | stalled
  /-- Its line is in the buffer. -/
  | writing
  /-- Its line is in the pipe. -/
  | waiting
deriving DecidableEq, Repr

/-- The call that has the writer. -/
structure Holder where
  ticket : Ticket
  request : Request
  phase : Phase
  /-- When it got the writer. -/
  since : Nat
  /-- What its reply said, if it came before the line was written. -/
  handed : Option (Except Error Payload)

/-- What a call wants the writer for. -/
inductive Errand where
  | command (command : Command)
  /-- To shut the pipe.  At the given time it goes away without having done so. -/
  | shutdown (deadline : Nat)
deriving DecidableEq, Repr

/-- A call that waits for the writer. -/
structure Queued where
  ticket : Ticket
  errand : Errand
deriving DecidableEq, Repr

structure Link where
  pipe : Pipe
  /-- Bytes of lines that are not in the pipe yet. -/
  buffer : List UInt8
  /-- How long a call may keep the writer, in milliseconds. -/
  timeLimit : Option Nat
  /-- The time in milliseconds. -/
  clock : Nat
  closed : Bool
  nextToken : Nat
  /-- The request whose reply is awaited. -/
  expected : Option Request
  holder : Option Holder
  /-- The calls that wait for the writer, oldest first. -/
  queue : List Queued

/-- A call that is over. -/
inductive Finished where
  | command (ticket : Ticket) (result : Except Error Payload)
  | shutdown (ticket : Ticket)

def Finished.ticket : Finished → Ticket
  | command t _ | shutdown t => t

/-- A buffer of this size takes no further line. -/
def bufferLimit : Nat := 8192

/-- How long a shutdown waits for the writer, in milliseconds. -/
def shutdownGrace : Nat := 500

namespace Link

def new (pipe : Pipe) (timeLimit : Option Nat) : Link :=
  ⟨pipe, [], timeLimit, 0, false, 1, none, none, []⟩

/-! ### The writer -/

/-- Write `n` bytes of the buffer; no answer if the VM's end is gone. -/
def flush? (l : Link) (n : Nat) : Option Link :=
  if l.buffer.isEmpty then some l
  else if l.pipe.readerGone then none
  else
    let (pipe, rest) := l.pipe.accept n l.buffer
    some { l with pipe, buffer := rest }

/-- From here on nothing is sent and nothing is expected. -/
def close (l : Link) : Link := { l with closed := true, expected := none }

def isOverdue (l : Link) (h : Holder) : Bool :=
  l.timeLimit.any (fun limit => h.since + limit ≤ l.clock)

/-- Whether a stalled holder has reason to try again. -/
def wakesStalled (l : Link) (h : Holder) : Bool :=
  0 < l.pipe.room true 1 || l.pipe.readerGone || l.isOverdue h

/-- What became of the holder: it goes on, or it is over. -/
abbrev Progress := Except (Except Error Payload) Holder

/-- A failed write closes the link. -/
def broken (l : Link) : Link × Progress := (l.close, .error (.error .connectionClosed))

/-- Empty the buffer into the pipe; when nothing is left the line is written. -/
def writeLine (l : Link) (h : Holder) : Link × Progress :=
  match l.flush? (l.pipe.room (!l.isOverdue h) l.buffer.length) with
  | none => l.broken
  | some l' =>
    (l', .ok { h with phase := if l'.buffer.isEmpty then .waiting else .writing })

/-- Put the line of the holder into the buffer and write. -/
def putLine (l : Link) (h : Holder) : Link × Progress :=
  match h.request.encode with
  | .error e => (l, .error (.error e))
  | .ok line =>
    ({ l with buffer := l.buffer ++ Text.Utf8.encode line.toList }).writeLine h

/-- Make room in the buffer if need be, then put the line into it.  A writer that has
    to wait for the pipe looks at the buffer again before it writes more; one that
    does not have to wait goes on until the buffer is empty. -/
def startLine (l : Link) (h : Holder) : Link × Progress :=
  if l.buffer.length < bufferLimit then l.putLine h
  else
    let patient := !l.isOverdue h
    match l.flush? (l.pipe.roomDownTo patient bufferLimit l.buffer.length) with
    | none => l.broken
    | some l' =>
      if l'.buffer.isEmpty || l.pipe.flows patient then l'.putLine h
      else (l', .ok { h with phase := .stalled })

/-- Let the holder write as far as it can. -/
def write (l : Link) (h : Holder) : Link × Progress :=
  match h.phase with
  | .starting => l.startLine h
  | .stalled => if l.wakesStalled h then l.startLine h else (l, .ok h)
  | .writing => l.writeLine h
  | .waiting => (l, .ok h)

/-- A holder whose line is written ends with its reply; one that has to go on
    waiting ends if its time is over. -/
def awaitReply (l : Link) (h : Holder) : Progress :=
  match h.phase, h.handed with
  | .waiting, some result => .error result
  | _, _ => if l.isOverdue h then .error (.error (.timeout h.request.command.text)) else .ok h

/-- Let the holder come as far as it can. -/
def poll (l : Link) (h : Holder) : Link × Progress :=
  match l.write h with
  | (l', .ok h') => (l', l'.awaitReply h')
  | (l', .error result) => (l', .error result)

/-! ### Passing the writer on -/

/-- The request of a call that draws the next token. -/
def nextRequest (l : Link) (c : Command) : Request := ⟨l.nextToken, c⟩

/-- A call gets the writer: it draws a token, and its reply is expected. -/
def acquire (l : Link) (t : Ticket) (c : Command) : Link :=
  { l with
    nextToken := l.nextToken + 1
    expected := some (l.nextRequest c)
    holder := some ⟨t, l.nextRequest c, .starting, l.clock, none⟩ }

/-- If nobody has the writer, the oldest command in the queue gets it. -/
def grant (l : Link) : Link :=
  match l.holder, l.queue with
  | none, ⟨t, .command c⟩ :: rest =>
    if l.closed then l else { l with queue := rest }.acquire t c
  | _, _ => l

/-- A reply with this token is not expected any more. -/
def abandon (l : Link) (token : Nat) : Link :=
  { l with expected := l.expected.filter (fun r => r.token != token) }

/-- The holder with this token lets go of the writer, and abandons its reply. -/
def release (l : Link) (token : Nat) : Link := { l with holder := none }.abandon token

/-- The client shuts its end of the pipe; what is in the buffer stays there. -/
def shutPipe (l : Link) : Link := { l with pipe := { l.pipe with shut := true } }

/-- Whether the call is a shutdown that has waited long enough. -/
def isImpatient (l : Link) (q : Queued) : Bool :=
  match q.errand with
  | .command _ => false
  | .shutdown deadline => deadline ≤ l.clock

/-- A shutdown that has waited long enough goes away. -/
def giveUp (l : Link) : Option Finished × Link :=
  match l.queue.find? l.isImpatient with
  | some q => (some (.shutdown q.ticket), { l with queue := l.queue.erase q })
  | none => (none, l)

/-- The holder comes as far as it can; if it is over it lets go of the writer. -/
def drive (l : Link) (h : Holder) : Option Finished × Link :=
  match l.poll h with
  | (l, .ok h) => { l with holder := some h }.giveUp
  | (l, .error result) => (some (.command h.ticket result), l.release h.request.token)

/-- A command ends because the link is closed. -/
def refused (t : Ticket) : Finished := .command t (.error .connectionClosed)

/-- The oldest call in the queue is done with at once: a command because the link is
    closed, a shutdown by shutting the pipe. -/
def dismiss (l : Link) (q : Queued) : Finished × Link :=
  match q.errand with
  | .command _ => (refused q.ticket, l)
  | .shutdown _ => (.shutdown q.ticket, l.shutPipe)

/-- Let things happen up to the end of the first call.  The call that was the holder
    goes on before the next one gets the writer: what its caller does then, such as
    closing the link, comes first. -/
def turn (l : Link) : Option Finished × Link :=
  let l := l.grant
  match l.holder, l.queue with
  | some h, _ =>
    if l.closed then (some (refused h.ticket), l.release h.request.token) else l.drive h
  | none, q :: rest =>
    let (f, l) := { l with queue := rest }.dismiss q
    (some f, l)
  | none, [] => (none, l)

/-- How many calls have the writer or wait for it. -/
def callCount (l : Link) : Nat := l.holder.toList.length + l.queue.length

/-- Take up to `n` turns, as long as they end a call. -/
def turns : Nat → Link → List Finished × Link
  | 0, l => ([], l)
  | n + 1, l =>
    match l.turn with
    | (none, l) => ([], l)
    | (some f, l) =>
      let (later, l) := turns n l
      (f :: later, l)

/-- Let everything happen that can happen now; no turn ends more than one call. -/
def settle (l : Link) : List Finished × Link := turns (l.callCount + 1) l

/-! ### Input -/

/-- A call joins the queue. -/
def enqueue (l : Link) (q : Queued) : Link := { l with queue := l.queue ++ [q] }

/-- Whether nobody has the writer or waits for it. -/
def isIdle (l : Link) : Bool := l.holder.isNone && l.queue.isEmpty

/-- Why a call cannot even join the queue. -/
def refusal? (l : Link) : Turn → Option Error
  | .wait => if l.closed then some .connectionClosed else none
  | .atOnce =>
    if l.closed then some .connectionClosed else if l.isIdle then none else some .busy

/-- What a reply to the request means for its caller. -/
def outcomeOf (r : Request) : Outcome → Except Error Payload
  | .ok payload => readReply r.command.opcode payload
  | .error code message => .error (.commandFailed r.command.opcode code message)
  | .unreadable body => .error (.malformedReply (.noOutcome r.command.text body))

/-- Give the holder what the reply to its request says. -/
def handOver (r : Request) (result : Except Error Payload) (h : Holder) : Holder :=
  if h.request.token = r.token then { h with handed := some result } else h

/-- Hand a reply to the call that expects it.  A reply with any other token has no
    effect. -/
def resolve (l : Link) (reply : Reply) : Link :=
  match l.expected with
  | some r =>
    if r.token = reply.token then
      { l with
        expected := none
        holder := l.holder.map (handOver r (outcomeOf r reply.outcome)) }
    else l
  | none => l

/-- A call goes away: it leaves the queue or lets go of the writer. -/
def cancel (l : Link) (t : Ticket) : Link :=
  match l.holder with
  | some h =>
    if h.ticket = t then l.release h.request.token
    else { l with queue := l.queue.filter (fun q => q.ticket != t) }
  | none => { l with queue := l.queue.filter (fun q => q.ticket != t) }

def advance (l : Link) (ms : Nat) : Link := { l with clock := l.clock + ms }

def dropReader (l : Link) : Link := { l with pipe := { l.pipe with readerGone := true } }

end Link

end Pushdown
