import Groundwork.Queue.Basic

/-!
# Queues behind a lock

The operations on a queue as a thread carries them out that shares the queue with others. It looks
at the items once it has the lock; if it has to wait, it lets go of the lock, and looks again
whenever it has been woken, for whatever reason and whatever the others have done meanwhile.

* `Sight` is what a thread finds when it has the lock, `Departure` what it leaves behind when it is
  through, with the threads that it wakes.
* `wait` goes on to the next sight as long as a test holds and there is time.
* `offer`, `offerInTime`, `put`, `poll`, `pollInTime`, `take`, `drainUpTo` and `drain` are the
  operations, `perform` is any of them. There is no departure as long as the thread is not through.
-/

namespace Groundwork.Queue

/-- Whom a thread wakes: somebody who waits for an item, somebody who waits for room, or all who
wait for room. -/
inductive Signal where
  | item
  | room
  | roomForAll
deriving DecidableEq, Repr

/-- What a thread finds when it has the lock: the items, and how long ago it called. -/
structure Sight (α : Type) where
  items : List α
  elapsed : Nat
deriving DecidableEq, Repr

/-- What a thread leaves behind: the answer that it has got, the items, and whom it wakes. -/
structure Departure (α β : Type) where
  answer : β
  items : List α
  signals : List Signal
deriving DecidableEq, Repr

namespace Locked

variable {α : Type}

/-! ## Waiting -/

/-- Whether somebody who waits for some time has waited too long; who waits for ever never has. -/
def timeIsUp : Option Nat → Nat → Bool
  | none, _ => false
  | some limit, elapsed => limit < elapsed

/-- The items at the first sight at which the test fails or the time is up. -/
def wait (busy : List α → Bool) (limit : Option Nat) : List (Sight α) → Option (List α)
  | [] => none
  | sight :: more =>
    if busy sight.items then
      if timeIsUp limit sight.elapsed then some sight.items else wait busy limit more
    else some sight.items

/-! ## The operations -/

/-- Puts an item behind the others and wakes somebody who waits for it. -/
def push {β : Type} (answer : β) (item : α) (items : List α) : Departure α β :=
  ⟨answer, items ++ [item], [.item]⟩

/-- Takes out the first item, if there is one, and wakes somebody who waits for the room. -/
def pop : List α → Departure α (Option α)
  | [] => ⟨none, [], []⟩
  | item :: rest => ⟨some item, rest, [.room]⟩

section

variable (capacity : Nat)

/-- Whether there are as many items as there can be. -/
def isFull (items : List α) : Bool :=
  items.length = capacity

/-- Pushes the item, or hands it back where there is no room. -/
def pushOrRefuse (item : α) (items : List α) : Departure α (Offer α) :=
  if items.length = capacity then ⟨.refused item, items, []⟩ else push .accepted item items

def offer (item : α) (sights : List (Sight α)) : Option (Departure α (Offer α)) :=
  sights.head?.map fun sight => pushOrRefuse capacity item sight.items

/-- Waits for room as long as there is time. Then there may be room or not. -/
def offerInTime (item : α) (milliseconds : Nat) (sights : List (Sight α)) :
    Option (Departure α (Offer α)) :=
  (wait (isFull capacity) (some milliseconds) sights).map (pushOrRefuse capacity item)

/-- Waits for room and pushes the item without looking again. -/
def put (item : α) (sights : List (Sight α)) : Option (Departure α (Option Unit)) :=
  (wait (isFull capacity) none sights).map (push (some ()) item)

end

def poll (sights : List (Sight α)) : Option (Departure α (Option α)) :=
  sights.head?.map fun sight => pop sight.items

/-- Waits for an item as long as there is time. Then there may be one or not. -/
def pollInTime (milliseconds : Nat) (sights : List (Sight α)) :
    Option (Departure α (Option α)) :=
  (wait List.isEmpty (some milliseconds) sights).map pop

/-- Tries to take an item out at every sight until there is one. -/
def take : List (Sight α) → Option (Departure α (Option α))
  | [] => none
  | sight :: more =>
    let popped := pop sight.items
    if popped.answer.isSome then some popped else take more

/-- Moves items to the end of a sink, not more than a number, and wakes all who wait for the room.
-/
def drainUpTo (sink : List α) (limit : Nat) (sights : List (Sight α)) :
    Option (Departure α (Nat × List α)) :=
  sights.head?.map fun sight =>
    let count := min limit sight.items.length
    ⟨(count, sink ++ sight.items.take count), sight.items.drop count,
      if 0 < count then [.roomForAll] else []⟩

/-- Moves as many items as there is a number for. -/
def drain (largest : Nat) (sink : List α) (sights : List (Sight α)) :
    Option (Departure α (Nat × List α)) :=
  drainUpTo sink largest sights

/-- Looks at the items and leaves them as they are. -/
def look {β : Type} (view : List α → β) (sights : List (Sight α)) : Option (Departure α β) :=
  sights.head?.map fun sight => ⟨view sight.items, sight.items, []⟩

/-- Any of the operations on a queue of some capacity; numbers go up to the largest one. -/
def perform (largest capacity : Nat) : (op : QueueOp α) → List (Sight α) →
    Option (Departure α op.Answer)
  | .offer item => offer capacity item
  | .offerInTime item milliseconds => offerInTime capacity item milliseconds
  | .put item => put capacity item
  | .poll => poll
  | .pollInTime milliseconds => pollInTime milliseconds
  | .take => take
  | .remainingCapacity => look fun items => capacity - items.length
  | .drain sink => drain largest sink
  | .drainUpTo sink limit => drainUpTo sink limit
  | .length => look List.length
  | .isEmpty => look List.isEmpty

end Locked

end Groundwork.Queue
