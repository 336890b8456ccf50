import Groundwork.Service.Lifecycle
import Groundwork.Interface

/-!
# Decorators of services

A decorator is around another service, its delegate. It says what it does with each operation, and
whatever it does not say is what the delegate does.

* `ServiceOp` are the operations on a service, `serviceInterfaceOf` is what a client can ask for.
* `Methods` are the operations one by one.
* `Forwarder` is what a decorator says, `Forwarder.methods` makes a service of it.
* `decorator` is the decorator that answers some operations itself.
-/

namespace Groundwork.Service

/-- The operations on a service. -/
inductive ServiceOp where
  | start
  | state
  | stop
  | startAndWait
  | stopAndWait
  | isRunning
deriving DecidableEq, Repr

/-- The answers to the operations on a service that hands out futures `φ` and fails with errors `ε`;
whoever waits has no answer until the future is complete. -/
abbrev ServiceOp.Answer (φ ε : Type) : ServiceOp → Type
  | .start => φ
  | .state => Phase
  | .stop => φ
  | .startAndWait => Option (Except ε Phase)
  | .stopAndWait => Option (Except ε Phase)
  | .isRunning => Bool

/-- The interface of such a service. -/
abbrev serviceInterfaceOf (φ ε : Type) : Interface := ⟨ServiceOp, ServiceOp.Answer φ ε⟩

variable {φ ε σ : Type}

/-- The operations on a service one by one, for clients who wait for a future as `wait` says. A
service that does not say otherwise is started, or stopped, and waited for in this way, and runs
when it is in this phase. -/
structure Methods (wait : φ → σ → Option (Except ε Phase)) where
  start : σ → φ × σ
  state : σ → Phase × σ
  stop : σ → φ × σ
  startAndWait : σ → Option (Except ε Phase) × σ :=
    fun s => let here := start s; (wait here.1 here.2, here.2)
  stopAndWait : σ → Option (Except ε Phase) × σ :=
    fun s => let here := stop s; (wait here.1 here.2, here.2)
  isRunning : σ → Bool × σ := fun s => let here := state s; (here.1 = .running, here.2)

/-- The behaviour of a service whose operations are given. -/
def Methods.behaviour {wait : φ → σ → Option (Except ε Phase)} (m : Methods wait) :
    Behaviour (serviceInterfaceOf φ ε) σ
  | .start => m.start
  | .state => m.state
  | .stop => m.stop
  | .startAndWait => m.startAndWait
  | .stopAndWait => m.stopAndWait
  | .isRunning => m.isRunning

/-- What a decorator around `delegate` does with each operation: what the delegate does, unless it
says otherwise. -/
structure Forwarder (delegate : Behaviour (serviceInterfaceOf φ ε) σ) where
  start : σ → φ × σ := delegate .start
  state : σ → Phase × σ := delegate .state
  stop : σ → φ × σ := delegate .stop
  startAndWait : σ → Option (Except ε Phase) × σ := delegate .startAndWait
  stopAndWait : σ → Option (Except ε Phase) × σ := delegate .stopAndWait
  isRunning : σ → Bool × σ := delegate .isRunning

namespace Forwarder

variable {delegate : Behaviour (serviceInterfaceOf φ ε) σ}

/-- A decorator is a service, however clients wait: every operation is what the decorator says. -/
def methods (f : Forwarder delegate) (wait : φ → σ → Option (Except ε Phase)) : Methods wait where
  start := f.start
  state := f.state
  stop := f.stop
  startAndWait := f.startAndWait
  stopAndWait := f.stopAndWait
  isRunning := f.isRunning

/-- What a decorator says that answers some operations itself. -/
def overriding (delegate : Behaviour (serviceInterfaceOf φ ε) σ)
    (own : Overrides (serviceInterfaceOf φ ε) σ) : Forwarder delegate :=
  let forwards : Forwarder delegate := {}
  { start := (own .start).getD forwards.start
    state := (own .state).getD forwards.state
    stop := (own .stop).getD forwards.stop
    startAndWait := (own .startAndWait).getD forwards.startAndWait
    stopAndWait := (own .stopAndWait).getD forwards.stopAndWait
    isRunning := (own .isRunning).getD forwards.isRunning }

end Forwarder

/-- The decorator around `delegate` that answers some operations itself. -/
def decorator (wait : φ → σ → Option (Except ε Phase))
    (delegate : Behaviour (serviceInterfaceOf φ ε) σ)
    (own : Overrides (serviceInterfaceOf φ ε) σ) : Behaviour (serviceInterfaceOf φ ε) σ :=
  ((Forwarder.overriding delegate own).methods wait).behaviour

end Groundwork.Service
