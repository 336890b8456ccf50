import Groundwork.Queue.Basic

/-!
# Decorators of queues

A decorator is around another queue, its delegate. It says what it does with each operation, and
whatever it does not say is what the delegate does.

* `Methods` are the operations on a queue one by one.
* `Forwarder` is what a decorator says, `Forwarder.methods` makes a queue of it.
* `decorator` is the decorator that answers some operations itself.
-/

namespace Groundwork.Queue

variable {α σ : Type}

/-- The operations on a queue one by one. A queue that does not tell whether it is empty is so when
its length is zero. -/
structure Methods (α σ : Type) where
  offer : α → σ → Offer α × σ
  offerInTime : α → Nat → σ → Offer α × σ
  put : α → σ → Option Unit × σ
  poll : σ → Option α × σ
  pollInTime : Nat → σ → Option α × σ
  take : σ → Option α × σ
  remainingCapacity : σ → Nat × σ
  drain : List α → σ → (Nat × List α) × σ
  drainUpTo : List α → Nat → σ → (Nat × List α) × σ
  length : σ → Nat × σ
  isEmpty : σ → Bool × σ := fun s => let here := length s; (here.1 = 0, here.2)

/-- The behaviour of a queue whose operations are given. -/
def Methods.behaviour (m : Methods α σ) : Behaviour (queueInterface α) σ
  | .offer item => m.offer item
  | .offerInTime item milliseconds => m.offerInTime item milliseconds
  | .put item => m.put item
  | .poll => m.poll
  | .pollInTime milliseconds => m.pollInTime milliseconds
  | .take => m.take
  | .remainingCapacity => m.remainingCapacity
  | .drain sink => m.drain sink
  | .drainUpTo sink limit => m.drainUpTo sink limit
  | .length => m.length
  | .isEmpty => m.isEmpty

/-- What a decorator around `delegate` does with each operation: what the delegate does, unless it
says otherwise. -/
structure Forwarder (delegate : Behaviour (queueInterface α) σ) where
  offer : α → σ → Offer α × σ := fun item => delegate (.offer item)
  offerInTime : α → Nat → σ → Offer α × σ :=
    fun item milliseconds => delegate (.offerInTime item milliseconds)
  put : α → σ → Option Unit × σ := fun item => delegate (.put item)
  poll : σ → Option α × σ := delegate .poll
  pollInTime : Nat → σ → Option α × σ := fun milliseconds => delegate (.pollInTime milliseconds)
  take : σ → Option α × σ := delegate .take
  remainingCapacity : σ → Nat × σ := delegate .remainingCapacity
  drain : List α → σ → (Nat × List α) × σ := fun sink => delegate (.drain sink)
  drainUpTo : List α → Nat → σ → (Nat × List α) × σ :=
    fun sink limit => delegate (.drainUpTo sink limit)
  length : σ → Nat × σ := delegate .length
  isEmpty : σ → Bool × σ := delegate .isEmpty

namespace Forwarder

variable {delegate : Behaviour (queueInterface α) σ}

/-- A decorator is a queue: every operation is what the decorator says. -/
def methods (f : Forwarder delegate) : Methods α σ where
  offer := f.offer
  offerInTime := f.offerInTime
  put := f.put
  poll := f.poll
  pollInTime := f.pollInTime
  take := f.take
  remainingCapacity := f.remainingCapacity
  drain := f.drain
  drainUpTo := f.drainUpTo
  length := f.length
  isEmpty := f.isEmpty

/-- What a decorator says that answers some operations itself. -/
def overriding (delegate : Behaviour (queueInterface α) σ) (own : Overrides (queueInterface α) σ) :
    Forwarder delegate :=
  let forwards : Forwarder delegate := {}
  { offer := fun item => (own (.offer item)).getD (forwards.offer item)
    offerInTime := fun item milliseconds =>
      (own (.offerInTime item milliseconds)).getD (forwards.offerInTime item milliseconds)
    put := fun item => (own (.put item)).getD (forwards.put item)
    poll := (own .poll).getD forwards.poll
    pollInTime := fun milliseconds =>
      (own (.pollInTime milliseconds)).getD (forwards.pollInTime milliseconds)
    take := (own .take).getD forwards.take
    remainingCapacity := (own .remainingCapacity).getD forwards.remainingCapacity
    drain := fun sink => (own (.drain sink)).getD (forwards.drain sink)
    drainUpTo := fun sink limit =>
      (own (.drainUpTo sink limit)).getD (forwards.drainUpTo sink limit)
    length := (own .length).getD forwards.length
    isEmpty := (own .isEmpty).getD forwards.isEmpty }

end Forwarder

/-- The decorator around `delegate` that answers some operations itself. -/
def decorator (delegate : Behaviour (queueInterface α) σ) (own : Overrides (queueInterface α) σ) :
    Behaviour (queueInterface α) σ :=
  (Forwarder.overriding delegate own).methods.behaviour

end Groundwork.Queue
