import Groundwork.Interface

/-!
# Bounded queues

A queue holds at most as many items as its capacity and hands them out in the order in which it
took them in.

* `Queue.ofCapacity` makes an empty queue; the capacity is not zero.
* `offer`, `put` and `offerInTime` take an item in, `poll`, `take` and `pollInTime` hand one out,
  `drainUpTo` moves several to the end of a list. `put` on a full queue and `take` on an empty one
  have to wait, which shows as no answer and no change; the timed operations answer with what they
  find when their time is over.
* `queueInterface` is what a client can ask for, `Queue.array` the behaviour of a queue by itself.
-/

namespace Groundwork

/-- The reason why there is no queue. -/
inductive QueueError where
  | zeroCapacity
deriving DecidableEq, Repr

/-- The wording of the reason. -/
def QueueError.message : QueueError → String
  | .zeroCapacity => "queue capacity must be non-zero"

/-- A queue: its capacity and its items, the oldest first. -/
structure Queue (α : Type) where
  capacity : Nat
  items : List α
deriving DecidableEq, Repr

/-- What comes of offering an item: it is taken in or handed back. -/
inductive Offer (α : Type) where
  | accepted
  | refused (item : α)
deriving DecidableEq, Repr

namespace Queue

variable {α : Type}

/-- An empty queue. -/
def ofCapacity (capacity : Nat) : Except QueueError (Queue α) :=
  if capacity = 0 then .error .zeroCapacity else .ok ⟨capacity, []⟩

/-- Whether there is no room for another item. -/
def isFull (q : Queue α) : Bool :=
  q.items.length = q.capacity

/-- The number of items that there is room for. -/
def remainingCapacity (q : Queue α) : Nat :=
  q.capacity - q.items.length

/-- The queue with another item at its end. -/
def push (q : Queue α) (item : α) : Queue α :=
  { q with items := q.items ++ [item] }

/-- Takes an item in if there is room. -/
def offer (q : Queue α) (item : α) : Offer α × Queue α :=
  if q.isFull then (.refused item, q) else (.accepted, q.push item)

/-- Takes an item in, or has to wait for room. -/
def put (q : Queue α) (item : α) : Option Unit × Queue α :=
  if q.isFull then (none, q) else (some (), q.push item)

/-- Hands out the oldest item if there is one; there is none when the queue is empty, and then
`take` has to wait. -/
def poll (q : Queue α) : Option α × Queue α :=
  match q.items with
  | [] => (none, q)
  | item :: rest => (some item, { q with items := rest })

/-- Moves the oldest items, up to a number, to the end of `sink`; the number that was moved and the
sink afterwards. -/
def drainUpTo (q : Queue α) (sink : List α) (limit : Nat) : (Nat × List α) × Queue α :=
  let count := min limit q.items.length
  ((count, sink ++ q.items.take count), { q with items := q.items.drop count })

/-- Moves all items to the end of `sink`. -/
def drain (q : Queue α) (sink : List α) : (Nat × List α) × Queue α :=
  q.drainUpTo sink q.items.length

end Queue

/-! ## What a client can ask for -/

/-- The operations on a queue. -/
inductive QueueOp (α : Type) where
  | offer (item : α)
  | offerInTime (item : α) (milliseconds : Nat)
  | put (item : α)
  | poll
  | pollInTime (milliseconds : Nat)
  | take
  | remainingCapacity
  | drain (sink : List α)
  | drainUpTo (sink : List α) (limit : Nat)
  | length
  | isEmpty
deriving DecidableEq, Repr

/-- The answers to the operations on a queue; `put` and `take` have none as long as they wait. -/
abbrev QueueOp.Answer {α : Type} : QueueOp α → Type
  | .offer _ => Offer α
  | .offerInTime _ _ => Offer α
  | .put _ => Option Unit
  | .poll => Option α
  | .pollInTime _ => Option α
  | .take => Option α
  | .remainingCapacity => Nat
  | .drain _ => Nat × List α
  | .drainUpTo _ _ => Nat × List α
  | .length => Nat
  | .isEmpty => Bool

/-- The interface of a queue. -/
abbrev queueInterface (α : Type) : Interface := ⟨QueueOp α, QueueOp.Answer⟩

/-- A queue by itself. -/
def Queue.array {α : Type} : Behaviour (queueInterface α) (Queue α)
  | .offer item, q => q.offer item
  | .offerInTime item _, q => q.offer item
  | .put item, q => q.put item
  | .poll, q => q.poll
  | .pollInTime _, q => q.poll
  | .take, q => q.poll
  | .remainingCapacity, q => (q.remainingCapacity, q)
  | .drain sink, q => q.drain sink
  | .drainUpTo sink limit, q => q.drainUpTo sink limit
  | .length, q => (q.items.length, q)
  | .isEmpty, q => (q.items.isEmpty, q)

end Groundwork
