import Groundwork.Future.Basic

/-!
# Decorators of futures

A decorator is around another future, its delegate. It says what it does with each operation, and
whatever it does not say is what the delegate does.

* `Methods` are the operations on a future one by one.
* `Forwarder` is what a decorator says, `Forwarder.methods` makes a future of it.
* `decorator` is the decorator that answers some operations itself.
-/

namespace Groundwork.Future

variable {α σ : Type}

/-- The operations on a future one by one. -/
structure Methods (α σ : Type) where
  cancel : Bool → σ → Bool × σ
  isCancelled : σ → Bool × σ
  isDone : σ → Bool × σ
  get : σ → Option (Except FutureError α) × σ
  getInTime : Nat → σ → Except FutureError α × σ

/-- The behaviour of a future whose operations are given. -/
def Methods.behaviour (m : Methods α σ) : Behaviour (futureInterface α) σ
  | .cancel mayInterrupt => m.cancel mayInterrupt
  | .isCancelled => m.isCancelled
  | .isDone => m.isDone
  | .get => m.get
  | .getInTime milliseconds => m.getInTime milliseconds

/-- What a decorator around `delegate` does with each operation: what the delegate does, unless it
says otherwise. -/
structure Forwarder (delegate : Behaviour (futureInterface α) σ) where
  cancel : Bool → σ → Bool × σ := fun mayInterrupt => delegate (.cancel mayInterrupt)
  isCancelled : σ → Bool × σ := delegate .isCancelled
  isDone : σ → Bool × σ := delegate .isDone
  get : σ → Option (Except FutureError α) × σ := delegate .get
  getInTime : Nat → σ → Except FutureError α × σ :=
    fun milliseconds => delegate (.getInTime milliseconds)

namespace Forwarder

variable {delegate : Behaviour (futureInterface α) σ}

/-- A decorator is a future: every operation is what the decorator says. -/
def methods (f : Forwarder delegate) : Methods α σ where
  cancel := f.cancel
  isCancelled := f.isCancelled
  isDone := f.isDone
  get := f.get
  getInTime := f.getInTime

/-- What a decorator says that answers some operations itself. -/
def overriding (delegate : Behaviour (futureInterface α) σ)
    (own : Overrides (futureInterface α) σ) : Forwarder delegate :=
  let forwards : Forwarder delegate := {}
  { cancel := fun mayInterrupt => (own (.cancel mayInterrupt)).getD (forwards.cancel mayInterrupt)
    isCancelled := (own .isCancelled).getD forwards.isCancelled
    isDone := (own .isDone).getD forwards.isDone
    get := (own .get).getD forwards.get
    getInTime := fun milliseconds =>
      (own (.getInTime milliseconds)).getD (forwards.getInTime milliseconds) }

end Forwarder

/-- The decorator around `delegate` that answers some operations itself. -/
def decorator (delegate : Behaviour (futureInterface α) σ)
    (own : Overrides (futureInterface α) σ) : Behaviour (futureInterface α) σ :=
  (Forwarder.overriding delegate own).methods.behaviour

end Groundwork.Future
