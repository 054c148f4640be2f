/-
  Pushdown/Listeners.lean
  =======================
  **Event fan-out.**  Listeners are registered under numbers that are never given
  twice, and hear events in the order of their registration.  An event goes to
  those who were registered when its delivery began, even if one of them adds or
  removes listeners while it is being notified.  After the first `terminated`
  nothing is delivered any more.

  The registry keeps an entry for every registration ever made; removing a
  listener only makes its entry inactive, and an entry's number is its place.
-/
import Pushdown.Event

namespace Pushdown

/-- The number of a registration, counted from 1. -/
abbrev ListenerId := Nat

structure ListenerEntry (β : Type) where
  listener : β
  active : Bool
deriving DecidableEq, Repr

/-- What a listener may do to the registry while it is notified. -/
inductive ListenerChange (β : Type) where
  | add (listener : β)
  | remove (id : ListenerId)
deriving DecidableEq, Repr

/-- All registrations, in order, and whether the last event has been delivered. -/
structure Listeners (β : Type) where
  entries : List (ListenerEntry β)
  terminated : Bool
deriving DecidableEq, Repr

namespace Listeners

variable {β : Type}

def empty : Listeners β := ⟨[], false⟩

/-! ### Registration -/

/-- Register a listener; its number is the next one. -/
def add (ls : Listeners β) (listener : β) : ListenerId × Listeners β :=
  (ls.entries.length + 1, { ls with entries := ls.entries ++ [⟨listener, true⟩] })

/-- The registrations with their numbers. -/
def numbered (ls : Listeners β) : List (ListenerId × ListenerEntry β) :=
  ls.entries.mapIdx (fun i e => (i + 1, e))

/-- The registered listeners with their numbers, in the order of registration. -/
def registered (ls : Listeners β) : List (ListenerId × β) :=
  (ls.numbered.filter (fun p => p.2.active)).map (fun p => (p.1, p.2.listener))

def isRegistered (ls : Listeners β) (id : ListenerId) : Bool :=
  ls.registered.any (fun p => p.1 = id)

/-- Remove a listener; the answer says whether it was registered. -/
def remove (ls : Listeners β) (id : ListenerId) : Bool × Listeners β :=
  (ls.isRegistered id,
    { ls with entries :=
        ls.numbered.map (fun p => if p.1 = id then { p.2 with active := false } else p.2) })

/-- How many listeners are registered. -/
def count (ls : Listeners β) : Nat := ls.registered.length

def change (ls : Listeners β) : ListenerChange β → Listeners β
  | .add listener => (ls.add listener).2
  | .remove id => (ls.remove id).2

/-! ### Delivery -/

/-- Notify the given listeners one after the other; each may change the registry
    by its reaction, which depends on the registry as it finds it. -/
def notify (react : Listeners β → ListenerId × β → List (ListenerChange β))
    (ls : Listeners β) (audience : List (ListenerId × β)) : Listeners β :=
  audience.foldl (fun ls l => (react ls l).foldl change ls) ls

/-- Deliver an event to the registered listeners.  The answer lists the numbers of
    those who heard it, in order. -/
def dispatch (react : Listeners β → ListenerId × β → List (ListenerChange β))
    (ls : Listeners β) (e : Event) : List ListenerId × Listeners β :=
  if ls.terminated then ([], ls)
  else
    let audience := ls.registered
    (audience.map Prod.fst,
      { ls with terminated := e = Event.terminated }.notify react audience)

end Listeners

/-! ### Mailboxes -/

/-- The receiving end of a subscription: events wait until they are taken, and are
    lost once nobody receives any more. -/
structure Mailbox where
  waiting : List Event
  isOpen : Bool
deriving DecidableEq, Repr

namespace Mailbox

def new : Mailbox := ⟨[], true⟩

def post (m : Mailbox) (e : Event) : Mailbox :=
  if m.isOpen then { m with waiting := m.waiting ++ [e] } else m

/-- The oldest waiting event, if any. -/
def take (m : Mailbox) : Option Event × Mailbox :=
  (m.waiting.head?, { m with waiting := m.waiting.tail })

/-- All waiting events, oldest first. -/
def drain (m : Mailbox) : List Event × Mailbox :=
  (m.waiting, { m with waiting := [] })

def close (_ : Mailbox) : Mailbox := ⟨[], false⟩

end Mailbox

end Pushdown
