/-
  Pushdown/Link/Pipe.lean
  =======================
  **The way to the VM.**  A pipe of limited capacity: what does not fit has to
  wait until the VM has read.  A VM that reads all the time makes room as fast as
  it is used up, but only a *patient* writer, one whose time is not over, is there
  to use it.  Once the VM has let go of its end every write fails, and once the
  client has shut its end the VM comes to the end of the stream after the bytes
  already written.
-/

namespace Pushdown

structure Pipe where
  /-- How many unread bytes the pipe holds. -/
  capacity : Nat
  /-- The bytes written and not read. -/
  content : List UInt8
  /-- The VM reads whatever comes, as it comes. -/
  reading : Bool
  /-- The VM has let go of its end. -/
  readerGone : Bool
  /-- The client has shut its end. -/
  shut : Bool
  /-- The VM has read to the end of the stream. -/
  ended : Bool
deriving DecidableEq, Repr

namespace Pipe

def new (capacity : Nat) (reading : Bool) : Pipe :=
  ⟨capacity, [], reading, false, false, false⟩

/-- How many bytes fit into the pipe as it is. -/
def free (p : Pipe) : Nat := p.capacity - p.content.length

/-- Whether the room that this writer uses up comes back. -/
def flows (p : Pipe) (patient : Bool) : Bool := patient && p.reading && 0 < p.capacity

/-- How many of `n` bytes can be written before time goes on. -/
def room (p : Pipe) (patient : Bool) (n : Nat) : Nat :=
  if p.flows patient then n else min n p.free

/-- How many of `n` bytes are written by a writer that stops when fewer than `limit`
    are left, as far as that can be before time goes on.  It looks whenever the pipe
    is full, so what it writes is the room there is and then whole pipefuls. -/
def roomDownTo (p : Pipe) (patient : Bool) (limit n : Nat) : Nat :=
  if p.flows patient then
    let pipefuls := (n + p.capacity - (p.free + limit)) / p.capacity
    min n (p.free + pipefuls * p.capacity)
  else min n p.free

/-- Write the first `n` bytes; the rest comes back. -/
def accept (p : Pipe) (n : Nat) (bytes : List UInt8) : Pipe × List UInt8 :=
  ({ p with content := p.content ++ bytes.take n }, bytes.drop n)

/-- The VM reads all there is, and the end of the stream if it has come. -/
def takeAll (p : Pipe) : List UInt8 × Pipe :=
  if p.readerGone then ([], p)
  else (p.content, { p with content := [], ended := p.shut })

/-- What a VM that reads all the time has read by the end of a step. -/
def drained (p : Pipe) : List UInt8 × Pipe :=
  if p.reading then p.takeAll else ([], p)

end Pipe

end Pushdown
