/-
  Pushdown/RunStates.lean
  =======================
  **Which threads run and which stand still.**  Events are the only source of run
  states: a thread is known from its first start, stop or resumption until it
  exits, and the session as a whole is running as soon as one thread runs.

  Every start, stop and resumption draws a new *epoch*.  A start or stop stamps
  the thread with it, so what was fetched from a suspended thread carries the
  epoch of that suspension and is recognised as stale once the thread has run.

  Epochs are natural numbers here, where a counter of 64 bits would do.  Runs are
  supposed to stay below 2^64 epochs, one for each start, stop or resumption that the
  VM reports; up to there the two are the same.
-/
import Pushdown.Error
import Pushdown.Event

namespace Pushdown

/-- The life of a debug session. -/
inductive SessionState where
  | connecting
  | open
  | suspended
  | running
  | terminated
deriving DecidableEq, Repr

inductive ThreadState where
  | suspended
  | running
deriving DecidableEq, Repr

/-- What is known of one thread; the epoch is that of its last suspension. -/
structure ThreadRecord where
  state : ThreadState
  epoch : Nat
deriving DecidableEq, Repr

/-- The states of the session and its threads, threads in ascending order. -/
structure RunStates where
  session : SessionState
  threads : List (ThreadId × ThreadRecord)
  lastEpoch : Nat
deriving DecidableEq, Repr

/-! ### Records by thread -/

/-- Put the record of a thread in its place, in the stead of an older one. -/
def putRecord (t : ThreadId) (r : ThreadRecord) :
    List (ThreadId × ThreadRecord) → List (ThreadId × ThreadRecord)
  | [] => [(t, r)]
  | (u, s) :: rest =>
    if t < u then (t, r) :: (u, s) :: rest
    else if t = u then (t, r) :: rest
    else (u, s) :: putRecord t r rest

def eraseRecord (t : ThreadId) (threads : List (ThreadId × ThreadRecord)) :
    List (ThreadId × ThreadRecord) :=
  threads.filter (fun p => p.1 != t)

namespace RunStates

/-- Before the transport is up. -/
def new : RunStates := ⟨.connecting, [], 0⟩

def record? (s : RunStates) (t : ThreadId) : Option ThreadRecord :=
  s.threads.lookup t

/-- The state of a thread, `none` if it is unknown or has exited. -/
def threadState? (s : RunStates) (t : ThreadId) : Option ThreadState :=
  (s.record? t).map ThreadRecord.state

/-- The known threads in ascending order. -/
def threadIds (s : RunStates) : List ThreadId := s.threads.map Prod.fst

/-! ### Changes -/

/-- The transport is up. -/
def opened (s : RunStates) : RunStates :=
  if s.session = .connecting then { s with session := .open } else s

/-- The session is over, and with it every thread. -/
def terminated (s : RunStates) : RunStates :=
  { s with session := .terminated, threads := [] }

/-- The state of a session with these threads. -/
def sessionOf (threads : List (ThreadId × ThreadRecord)) : SessionState :=
  if threads.any (fun p => p.2.state = .running) then .running
  else if threads.isEmpty then .open
  else .suspended

/-- Other threads, and the session state that follows from them. -/
def withThreads (s : RunStates) (threads : List (ThreadId × ThreadRecord)) : RunStates :=
  { s with threads, session := sessionOf threads }

/-- A thread stands still from here on, in a new epoch. -/
def suspend (s : RunStates) (t : ThreadId) : RunStates :=
  let epoch := s.lastEpoch + 1
  { s with lastEpoch := epoch }.withThreads (putRecord t ⟨.suspended, epoch⟩ s.threads)

/-- A thread runs from here on; a known one keeps the epoch of its suspension. -/
def resume (s : RunStates) (t : ThreadId) : RunStates :=
  let epoch := s.lastEpoch + 1
  let kept := ((s.record? t).map ThreadRecord.epoch).getD epoch
  { s with lastEpoch := epoch }.withThreads (putRecord t ⟨.running, kept⟩ s.threads)

/-- Take in an event; after termination none has an effect. -/
def apply (s : RunStates) (e : Event) : RunStates :=
  if s.session = .terminated then s
  else match e with
    | .started t | .suspended t _ => s.suspend t
    | .resumed t _ => s.resume t
    | .exited t => s.withThreads (eraseRecord t s.threads)
    | .terminated => s.terminated
    | .output _ => s

/-! ### Queries -/

/-- The epoch of the thread's suspension.  With an epoch given, it must be that
    one: otherwise the caller holds something from before the thread last stopped. -/
def requireSuspended (s : RunStates) (t : ThreadId) (epoch : Option Nat) :
    Except StateFault Nat :=
  if s.session = .terminated then .error .terminated
  else match s.record? t with
    | none => .error (.unknownThread t)
    | some r =>
      if r.state = .running then .error (.notSuspended t)
      else if epoch.all (· = r.epoch) then .ok r.epoch
      else .error (.stale t)

end RunStates

end Pushdown
