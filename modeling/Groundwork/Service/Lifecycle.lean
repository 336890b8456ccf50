import Groundwork.Future.Basic

/-!
# The life cycle of an idle service

A service does its work in two hooks, one to start up and one to shut down, each on a thread of its
own. Clients ask it to start and to stop; two futures tell them when it runs and when it has ended.

The machine has one move for every section that runs undisturbed:

* `Service.start` and `Service.stop` are the moves of clients. They return at once; what they set
  off is left to a `Worker`.
* `Service.advance?` is a move of a worker: the factory has granted or refused a thread, the hook
  has ended, or the worker reports what came of it.
* `Service.interfere` is what a client can do to the two futures.

`Service.step?` is any one of these moves, `Service.steps?` a run of them.
-/

namespace Groundwork.Service

/-- The phases of a service. -/
inductive Phase where
  | new
  | starting
  | running
  | stopping
  | terminated
  | failed
deriving DecidableEq, Repr

/-- The name of a phase. -/
def Phase.name : Phase → String
  | .new => "New"
  | .starting => "Starting"
  | .running => "Running"
  | .stopping => "Stopping"
  | .terminated => "Terminated"
  | .failed => "Failed"

/-- The two pieces of blocking work of a service. -/
inductive Hook where
  | startUp
  | shutDown
deriving DecidableEq, Repr

/-- The name of a hook. -/
def Hook.name : Hook → String
  | .startUp => "start_up"
  | .shutDown => "shut_down"

/-- How far the work for a hook has got. Threads are known by the number of the request for them. -/
inductive Worker where
  /-- The factory is to be asked for a thread. -/
  | asking (hook : Hook)
  /-- The factory has refused. -/
  | refused (message : String)
  /-- The hook runs. -/
  | inside (hook : Hook) (thread : Nat)
  /-- The hook has ended, with a message if it failed. -/
  | leaving (hook : Hook) (thread : Nat) (failure : Option String)
deriving DecidableEq, Repr

/-- What lets a worker go on. -/
inductive WorkerMove where
  /-- The factory grants a thread, and the hook begins on it. -/
  | granted
  /-- The factory refuses with a message. -/
  | refused (message : String)
  /-- The hook ends, with a message if it fails. -/
  | ended (failure : Option String)
  /-- The worker reports how it went. -/
  | reported
deriving DecidableEq, Repr

/-- What is noted of a hook: that it began on a thread, and that it ended, with a message if it
failed. -/
inductive HookEvent where
  | began (hook : Hook) (thread : Nat)
  | ended (hook : Hook) (thread : Nat) (failure : Option String)
deriving DecidableEq, Repr

/-- The two futures of a service. -/
inductive Handle where
  | start
  | stop
deriving DecidableEq, Repr

/-- What can happen to a service: a client asks it to start or to stop or completes one of its
futures, or a worker makes a move. -/
inductive Action where
  | start
  | stop
  | interfere (h : Handle) (c : Completion Phase)
  | worker (index : Nat) (move : WorkerMove)
deriving DecidableEq, Repr

end Groundwork.Service

namespace Groundwork

open Groundwork.Service

/-- A service: its phase and the phases before it, whether a stop was asked for while it started,
its two futures, the workers on their way, the number of threads asked for, and what was noted of
its hooks, the oldest first. -/
structure Service where
  phase : Phase
  past : List Phase
  stopRequested : Bool
  started : Future Phase
  stopped : Future Phase
  workers : List Worker
  requests : Nat
  log : List HookEvent
deriving DecidableEq, Repr

namespace Service

/-- A service that nobody has asked for anything. -/
def initial : Service := ⟨.new, [], false, .pending, .pending, [], 0, []⟩

/-! ## Sections -/

/-- Goes on to another phase. -/
def enter (s : Service) (next : Phase) : Service :=
  { s with phase := next, past := s.past ++ [s.phase] }

/-- Completes the start future with a phase. -/
def completeStart (s : Service) (reached : Phase) : Service :=
  { s with started := (s.started.set reached).2 }

/-- Completes the stop future with a phase. -/
def completeStop (s : Service) (reached : Phase) : Service :=
  { s with stopped := (s.stopped.set reached).2 }

/-- Ends in failure and completes both futures with the message. -/
def failWith (s : Service) (message : String) : Service :=
  { s.enter .failed with
    started := (s.started.fail message).2
    stopped := (s.stopped.fail message).2 }

/-- Puts a worker on its way. -/
def engage (s : Service) (w : Worker) : Service :=
  { s with workers := s.workers ++ [w] }

/-- Notes something of a hook. -/
def note (s : Service) (event : HookEvent) : Service :=
  { s with log := s.log ++ [event] }

/-! ## Clients -/

/-- Asks the service to start: a new service does, any other goes on as it is. -/
def start (s : Service) : Service :=
  match s.phase with
  | .new => (s.enter .starting).engage (.asking .startUp)
  | _ => s

/-- Asks the service to stop: a new service ends at once, a starting one takes note of the request,
a running one shuts down, any other goes on as it is. -/
def stop (s : Service) : Service :=
  match s.phase with
  | .new => ((s.enter .terminated).completeStart .terminated).completeStop .terminated
  | .starting => { s with stopRequested := true }
  | .running => (s.enter .stopping).engage (.asking .shutDown)
  | .stopping | .terminated | .failed => s

/-- The future that a handle stands for. -/
def future (s : Service) : Handle → Future Phase
  | .start => s.started
  | .stop => s.stopped

/-- Completes a future from outside, as any client that holds it may. -/
def interfere (s : Service) (h : Handle) (c : Completion Phase) : Bool × Service :=
  match h with
  | .start => let r := s.started.complete c; (r.1, { s with started := r.2 })
  | .stop => let r := s.stopped.complete c; (r.1, { s with stopped := r.2 })

/-! ## Workers -/

/-- The message of a service whose factory refused a thread. -/
def refusal (message : String) : String := "could not spawn thread: " ++ message

/-- Puts a worker in the place of the one at `index`. -/
def putWorker (s : Service) (index : Nat) (w : Worker) : Service :=
  { s with workers := s.workers.set index w }

/-- Lets go of the worker at `index`. -/
def dismiss (s : Service) (index : Nat) : Service :=
  { s with workers := s.workers.eraseIdx index }

/-- Counts a request for a thread. -/
def request (s : Service) : Service :=
  { s with requests := s.requests + 1 }

/-- The end of the start-up hook: the service runs, and shuts down on the same thread if a stop was
asked for meanwhile. -/
def startUpDone (s : Service) (index thread : Nat) : Service :=
  let running := (s.enter .running).completeStart .running
  if s.stopRequested then
    ((running.enter .stopping).putWorker index (.inside .shutDown thread)).note
      (.began .shutDown thread)
  else running.dismiss index

/-- The end of the shut-down hook. -/
def shutDownDone (s : Service) (index : Nat) : Service :=
  ((s.enter .terminated).completeStop .terminated).dismiss index

/-- The service after a move of the worker at `index`, if that worker can make it. -/
def advance? (s : Service) (index : Nat) (move : WorkerMove) : Option Service :=
  match s.workers[index]?, move with
  | some (.asking hook), .granted =>
    some ((s.request.putWorker index (.inside hook s.requests)).note (.began hook s.requests))
  | some (.asking _), .refused message =>
    some (s.request.putWorker index (.refused (refusal message)))
  | some (.refused message), .reported => some ((s.failWith message).dismiss index)
  | some (.inside hook thread), .ended failure =>
    some ((s.putWorker index (.leaving hook thread failure)).note (.ended hook thread failure))
  | some (.leaving _ _ (some message)), .reported => some ((s.failWith message).dismiss index)
  | some (.leaving .startUp thread none), .reported => some (s.startUpDone index thread)
  | some (.leaving .shutDown _ none), .reported => some (s.shutDownDone index)
  | _, _ => none

/-! ## Runs -/

/-- The service after an action; only a worker may be unable to make its move. -/
def step? (s : Service) : Action → Option Service
  | .start => some s.start
  | .stop => some s.stop
  | .interfere h c => some (s.interfere h c).2
  | .worker index move => s.advance? index move

/-- The service after actions one after the other. -/
def steps? (s : Service) : List Action → Option Service
  | [] => some s
  | action :: more => (s.step? action).bind fun next => steps? next more

end Service

end Groundwork
