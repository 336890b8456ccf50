import Groundwork.Service.Forwarding
import Groundwork.Threads.Factory

/-!
# A service among its surroundings

A `Deployment` is a service together with what decides how its workers fare: the factory that grants
or refuses threads, how the hooks end, and the gates at which they wait.

* `Deployment.progress?` is one move of a worker that the surroundings allow.
* `Deployment.settle` lets the workers move until none can.
* `serviceInterface` is what a client can ask for, `Deployment.idle` the behaviour of the service by
  itself, `Deployment.counted` a decorator that counts starts.
-/

namespace Groundwork.Service

open Groundwork.Threads

/-- How a hook ends. -/
inductive HookEnd where
  | succeeds
  | fails (message : String)
  | panics (p : Panic)
deriving DecidableEq, Repr

/-- The message of a hook that fails; a panic is a failure too. -/
def HookEnd.failure? : HookEnd → Option String
  | .succeeds => none
  | .fails message => some message
  | .panics p => some p.message

/-- A service, the names of its threads, the requests for threads that are refused, the ends of its
hooks, the gates that are closed, and how many starts a decorator has counted. -/
structure Deployment where
  service : Service
  nameFormat : Option NameFormat
  refuses : Nat → Bool
  startUp : HookEnd
  shutDown : HookEnd
  startGateClosed : Bool
  stopGateClosed : Bool
  starts : Nat

/-! ## How far work still has to go -/

-- sums mean the same whether or not algebra is imported beside this module
attribute [local instance (2000)] Zero.ofOfNat0

/-- A bound on the moves that a worker still has to make. -/
def Worker.distance : Worker → Nat
  | .asking .startUp => 5
  | .inside .startUp _ => 4
  | .leaving .startUp _ _ => 3
  | .asking .shutDown => 3
  | .inside .shutDown _ => 2
  | .leaving .shutDown _ _ => 1
  | .refused _ => 1

/-- A bound on the moves that the workers of a service still have to make. -/
def distance (s : Service) : Nat :=
  (s.workers.map Worker.distance).sum

namespace Deployment

/-- How a hook ends in these surroundings. -/
def endOf (d : Deployment) : Hook → HookEnd
  | .startUp => d.startUp
  | .shutDown => d.shutDown

/-- Whether a hook has to wait at its gate. -/
def gateClosed (d : Deployment) : Hook → Bool
  | .startUp => d.startGateClosed
  | .shutDown => d.stopGateClosed

/-- The move that the surroundings allow a worker. -/
def allowedMove? (d : Deployment) : Worker → Option WorkerMove
  | .asking _ =>
    if d.refuses d.service.requests then some (.refused Spawner.noThreadsLeft) else some .granted
  | .refused _ => some .reported
  | .inside hook _ => if d.gateClosed hook then none else some (.ended (d.endOf hook).failure?)
  | .leaving _ _ _ => some .reported

/-- The deployment after a move of the worker at `index`, if it can make one. -/
def progressAt? (d : Deployment) (index : Nat) : Option Deployment :=
  match d.service.workers[index]? with
  | none => none
  | some w => match d.allowedMove? w with
    | none => none
    | some move => (d.service.advance? index move).map fun s => { d with service := s }

/-- The deployment after a move of the first worker that can make one. -/
def progress? (d : Deployment) : Option Deployment :=
  (List.range d.service.workers.length).findSome? d.progressAt?

/-- The deployment after at most `moves` moves of workers. -/
def settleWithin : (moves : Nat) → Deployment → Deployment
  | 0, d => d
  | moves + 1, d => match d.progress? with
    | some next => settleWithin moves next
    | none => d

/-- The deployment after all moves that its workers can make. -/
def settle (d : Deployment) : Deployment :=
  d.settleWithin (distance d.service)

/-! ## Clients -/

/-- Asks the service to start, and lets the workers move. -/
def start (d : Deployment) : Deployment :=
  settle { d with service := d.service.start }

/-- Asks the service to stop, and lets the workers move. -/
def stop (d : Deployment) : Deployment :=
  settle { d with service := d.service.stop }

/-- Opens the gate of a hook for good, and lets the workers move. -/
def openGate (d : Deployment) : Hook → Deployment
  | .startUp => settle { d with startGateClosed := false }
  | .shutDown => settle { d with stopGateClosed := false }

/-- Cancels a future of the service, and tells whether that completed it. -/
def cancel (d : Deployment) (h : Handle) : Bool × Deployment :=
  let r := d.service.interfere h .cancelled
  (r.1, settle { d with service := r.2 })

/-- Whether a client who asks for a start and waits for it would wait at the gate. -/
def startWouldHang (d : Deployment) : Bool :=
  (d.service.phase = .new ∨ d.service.phase = .starting) ∧ d.startGateClosed

/-- Whether a client who asks for a stop and waits for it may wait at a gate. -/
def stopWouldHang (d : Deployment) : Bool :=
  d.service.phase = .starting ∨
    ((d.service.phase = .running ∨ d.service.phase = .stopping) ∧ d.stopGateClosed)

/-- Whether the service is on its way to another phase. -/
def inTransit (d : Deployment) : Bool :=
  d.service.phase = .starting ∨ d.service.phase = .stopping

/-- The name of the thread with a number, if threads have names. -/
def threadName (d : Deployment) (thread : Nat) : String :=
  match d.nameFormat with
  | some format => format.name thread
  | none => "?"

/-- The hooks that have begun, each with the name of its thread. -/
def notes (d : Deployment) : List String :=
  d.service.log.filterMap fun
    | .began hook thread => some (hook.name ++ "@" ++ d.threadName thread)
    | .ended _ _ _ => none

end Deployment

/-! ## What a client can ask for -/

/-- The interface of a deployed service. -/
abbrev serviceInterface : Interface := serviceInterfaceOf Handle FutureError

namespace Deployment

/-- What a client gets who waits for a future of the service. -/
def awaited? (h : Handle) (d : Deployment) : Option (Except FutureError Phase) :=
  (d.service.future h).awaited?

/-- The service by itself. -/
def idle : Behaviour serviceInterface Deployment :=
  let methods : Methods awaited? :=
    { start := fun d => (.start, d.start)
      state := fun d => (d.service.phase, d)
      stop := fun d => (.stop, d.stop) }
  methods.behaviour

/-- The decorator around `delegate` that counts starts and never claims to be running. -/
def counted (delegate : Behaviour serviceInterface Deployment) :
    Behaviour serviceInterface Deployment :=
  decorator awaited? delegate fun
    | .start => some fun d => delegate .start { d with starts := d.starts + 1 }
    | .isRunning => some fun d => (false, d)
    | _ => none

end Deployment

end Groundwork.Service
