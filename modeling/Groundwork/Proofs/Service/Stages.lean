import Mathlib.Data.List.Chain
import Groundwork.Proofs.Service.Moves

/-!
# The stages of a service

Starting and stopping leave their work to workers that move at any later time, and what a worker
reports is written whatever the phase is by then. That no order of moves goes astray rests on one
invariant: phase, requested stop, workers, threads asked for and log always fit together in one of
eight ways.

* `StartUp` and `ShutDown`: how far the work for a hook has got.
* `Stage`: the eight ways. There is never more than one worker.
* `Stage.step?`: every move leads from a stage to a stage, `Stage.steps?` every run.
* `stage_of_steps?`: every service that is reached from `Service.initial` is at a stage.
-/

namespace Groundwork.Service

/-! ## Work under way -/

/-- How far starting up has got: the worker, the threads asked for and what was noted. -/
inductive StartUp : Worker → Nat → List HookEvent → Prop
  | asking : StartUp (.asking .startUp) 0 []
  | refused (message : String) : StartUp (.refused message) 1 []
  | inside : StartUp (.inside .startUp 0) 1 [.began .startUp 0]
  | leaving (failure : Option String) :
      StartUp (.leaving .startUp 0 failure) 1 [.began .startUp 0, .ended .startUp 0 failure]

/-- What is noted once starting up has succeeded. -/
def startedLog : List HookEvent :=
  [.began .startUp 0, .ended .startUp 0 none]

/-- The thread on which a service shuts down: that of the start-up if the stop was asked for early,
while the service started, and a second one otherwise. -/
def stopThread (early : Bool) : Nat :=
  if early then 0 else 1

/-- How far shutting down has got. A stop that was asked for early needs no thread of its own. -/
inductive ShutDown : Bool → Worker → Nat → List HookEvent → Prop
  | asking : ShutDown false (.asking .shutDown) 1 startedLog
  | refused (message : String) : ShutDown false (.refused message) 2 startedLog
  | inside (early : Bool) :
      ShutDown early (.inside .shutDown (stopThread early)) (stopThread early + 1)
        (startedLog ++ [.began .shutDown (stopThread early)])
  | leaving (early : Bool) (failure : Option String) :
      ShutDown early (.leaving .shutDown (stopThread early) failure) (stopThread early + 1)
        (startedLog ++ [.began .shutDown (stopThread early),
          .ended .shutDown (stopThread early) failure])

/-! ## Stages -/

/-- The stages of a service. The futures play no part: clients may complete them at any time. -/
inductive Stage : Service → Prop
  | fresh (started stopped : Future Phase) :
      Stage ⟨.new, [], false, started, stopped, [], 0, []⟩
  | unused (started stopped : Future Phase) :
      Stage ⟨.terminated, [.new], false, started, stopped, [], 0, []⟩
  | starting {early : Bool} {started stopped : Future Phase} {w : Worker} {n : Nat}
      {log : List HookEvent} (work : StartUp w n log) :
      Stage ⟨.starting, [.new], early, started, stopped, [w], n, log⟩
  | startFailed {early : Bool} {started stopped : Future Phase} {w : Worker} {n : Nat}
      {log : List HookEvent} {message : String} (work : StartUp w n log)
      (failure : w.failure? = some message) :
      Stage ⟨.failed, [.new, .starting], early, started, stopped, [], n, log⟩
  | running (started stopped : Future Phase) :
      Stage ⟨.running, [.new, .starting], false, started, stopped, [], 1, startedLog⟩
  | stopping {early : Bool} {started stopped : Future Phase} {w : Worker} {n : Nat}
      {log : List HookEvent} (work : ShutDown early w n log) :
      Stage ⟨.stopping, [.new, .starting, .running], early, started, stopped, [w], n, log⟩
  | stopFailed {early : Bool} {started stopped : Future Phase} {w : Worker} {n : Nat}
      {log : List HookEvent} {message : String} (work : ShutDown early w n log)
      (failure : w.failure? = some message) :
      Stage ⟨.failed, [.new, .starting, .running, .stopping], early, started, stopped, [], n, log⟩
  | terminated {early : Bool} {started stopped : Future Phase} {thread n : Nat}
      {log : List HookEvent} (work : ShutDown early (.leaving .shutDown thread none) n log) :
      Stage ⟨.terminated, [.new, .starting, .running, .stopping], early, started, stopped, [], n,
        log⟩

theorem stage_initial : Stage Service.initial :=
  .fresh _ _

/-! ## Moves of clients -/

theorem Stage.starts {s : Service} (h : Stage s) (new : s.phase = .new) :
    Stage ((s.enter .starting).engage (.asking .startUp)) := by
  cases h with
  | fresh started stopped => exact .starting .asking
  | unused | starting | startFailed | running | stopping | stopFailed | terminated => cases new

theorem Stage.ends {s : Service} (h : Stage s) (new : s.phase = .new) :
    Stage (((s.enter .terminated).completeStart .terminated).completeStop .terminated) := by
  cases h with
  | fresh started stopped => exact .unused _ _
  | unused | starting | startFailed | running | stopping | stopFailed | terminated => cases new

theorem Stage.requested {s : Service} (h : Stage s) (starting : s.phase = .starting) :
    Stage { s with stopRequested := true } := by
  cases h with
  | starting work => exact .starting work
  | fresh | unused | startFailed | running | stopping | stopFailed | terminated => cases starting

theorem Stage.stops {s : Service} (h : Stage s) (running : s.phase = .running) :
    Stage ((s.enter .stopping).engage (.asking .shutDown)) := by
  cases h with
  | running started stopped => exact .stopping .asking
  | fresh | unused | starting | startFailed | stopping | stopFailed | terminated => cases running

theorem Stage.interfere {s : Service} (h : Stage s) (handle : Handle) (c : Completion Phase) :
    Stage (s.interfere handle c).2 := by
  cases handle <;> cases h with
  | fresh started stopped => exact .fresh _ _
  | unused started stopped => exact .unused _ _
  | starting work => exact .starting work
  | startFailed work failure => exact .startFailed work failure
  | running started stopped => exact .running _ _
  | stopping work => exact .stopping work
  | stopFailed work failure => exact .stopFailed work failure
  | terminated work => exact .terminated work

/-! ## Moves of workers -/

/-- The worker of the start-up leads to a stage. -/
theorem StartUp.advance {early : Bool} {started stopped : Future Phase} {w : Worker} {n : Nat}
    {log : List HookEvent} (work : StartUp w n log) {index : Nat} {move : WorkerMove}
    {s' : Service} (h : Advance ⟨.starting, [.new], early, started, stopped, [w], n, log⟩ index
      move s') : Stage s' := by
  -- there is one worker, so that a move has to fit how far the work has got
  cases h with
  | granted found =>
    rcases eq_of_getElem?_singleton found with ⟨rfl, rfl⟩
    cases work with
    | asking => exact .starting .inside
  | refused message found =>
    rcases eq_of_getElem?_singleton found with ⟨rfl, rfl⟩
    cases work with
    | asking => exact .starting (.refused _)
  | ended failure found =>
    rcases eq_of_getElem?_singleton found with ⟨rfl, rfl⟩
    cases work with
    | inside => exact .starting (.leaving failure)
  | failed found failure =>
    rcases eq_of_getElem?_singleton found with ⟨rfl, rfl⟩
    exact .startFailed work failure
  | startedUp found =>
    rcases eq_of_getElem?_singleton found with ⟨rfl, rfl⟩
    cases work with
    | leaving =>
      -- a stop that was asked for meanwhile is served at once, on the same thread
      cases early with
      | true => exact .stopping (.inside true)
      | false => exact .running _ _
  | shutDown found =>
    rcases eq_of_getElem?_singleton found with ⟨rfl, rfl⟩
    cases work

/-- The worker of the shut-down leads to a stage. -/
theorem ShutDown.advance {early : Bool} {started stopped : Future Phase} {w : Worker} {n : Nat}
    {log : List HookEvent} (work : ShutDown early w n log) {index : Nat} {move : WorkerMove}
    {s' : Service} (h : Advance ⟨.stopping, [.new, .starting, .running], early, started, stopped,
      [w], n, log⟩ index move s') : Stage s' := by
  cases h with
  | granted found =>
    rcases eq_of_getElem?_singleton found with ⟨rfl, rfl⟩
    cases work with
    | asking => exact .stopping (.inside false)
  | refused message found =>
    rcases eq_of_getElem?_singleton found with ⟨rfl, rfl⟩
    cases work with
    | asking => exact .stopping (.refused _)
  | ended failure found =>
    rcases eq_of_getElem?_singleton found with ⟨rfl, rfl⟩
    cases work with
    | inside early => exact .stopping (.leaving early failure)
  | failed found failure =>
    rcases eq_of_getElem?_singleton found with ⟨rfl, rfl⟩
    exact .stopFailed work failure
  | startedUp found =>
    rcases eq_of_getElem?_singleton found with ⟨rfl, rfl⟩
    cases work
  | shutDown found =>
    rcases eq_of_getElem?_singleton found with ⟨rfl, rfl⟩
    exact .terminated work

/-- Every worker leads to a stage. -/
theorem Stage.advance {s s' : Service} {index : Nat} {move : WorkerMove} (h : Stage s)
    (step : Advance s index move s') : Stage s' := by
  cases h with
  | starting work => exact work.advance step
  | stopping work => exact work.advance step
  | fresh | unused | startFailed | running | stopFailed | terminated =>
    -- nobody is there to move
    exact absurd rfl step.workers_ne_nil

/-! ## Runs -/

/-- Every move leads from a stage to a stage. -/
theorem Stage.step? {s s' : Service} {a : Action} (h : Stage s) (step : s.step? a = some s') :
    Stage s' := by
  cases move_of_step? step with
  | starts new => exact h.starts new
  | started old => exact h
  | ends new => exact h.ends new
  | requested starting => exact h.requested starting
  | stops running => exact h.stops running
  | stopped late => exact h
  | interfered handle c => exact h.interfere handle c
  | worker advance => exact h.advance advance

theorem Stage.steps? {s s' : Service} {actions : List Action} (h : Stage s)
    (run : s.steps? actions = some s') : Stage s' := by
  refine steps?_induction (P := Stage) ?_ h run
  intro mid next a _ stage step
  exact stage.step? step

/-- Every service that is reached is at a stage. -/
theorem stage_of_steps? {s : Service} {actions : List Action}
    (run : Service.initial.steps? actions = some s) : Stage s :=
  stage_initial.steps? run

/-! ## What holds at every stage -/

/-- The phases that may come right after a phase. -/
def Phase.successors : Phase → List Phase
  | .new => [.starting, .terminated]
  | .starting => [.running, .failed]
  | .running => [.stopping]
  | .stopping => [.terminated, .failed]
  | .terminated | .failed => []

/-- The threads on which a hook has begun, the first one first. -/
def threadsOf (log : List HookEvent) (hook : Hook) : List Nat :=
  log.filterMap fun
    | .began h thread => if h = hook then some thread else none
    | .ended _ _ _ => none

/-- No phase was left out and none entered out of turn. -/
theorem Stage.isChain_trail {s : Service} (h : Stage s) :
    s.trail.IsChain fun p q => q ∈ p.successors := by
  cases h with
  | fresh | unused | starting | startFailed | running | stopping | stopFailed | terminated =>
    simp [trail, Phase.successors]

/-- There is never more than one worker. -/
theorem Stage.length_workers_le {s : Service} (h : Stage s) : s.workers.length ≤ 1 := by
  cases h with
  | fresh | unused | starting | startFailed | running | stopping | stopFailed | terminated =>
    simp

theorem StartUp.requests_le {w : Worker} {n : Nat} {log : List HookEvent}
    (work : StartUp w n log) : n ≤ 1 := by
  cases work <;> decide

theorem ShutDown.requests_le {early : Bool} {w : Worker} {n : Nat} {log : List HookEvent}
    (work : ShutDown early w n log) : n ≤ 2 := by
  cases work with
  | asking => decide
  | refused message => decide
  | inside => cases early <;> decide
  | leaving => cases early <;> decide

theorem Stage.requests_le {s : Service} (h : Stage s) : s.requests ≤ 2 := by
  cases h with
  | fresh | unused => exact Nat.zero_le _
  | starting work => exact Nat.le_succ_of_le work.requests_le
  | startFailed work => exact Nat.le_succ_of_le work.requests_le
  | running => exact Nat.le_succ 1
  | stopping work => exact work.requests_le
  | stopFailed work => exact work.requests_le
  | terminated work => exact work.requests_le

theorem threadsOf_append (first second : List HookEvent) (hook : Hook) :
    threadsOf (first ++ second) hook = threadsOf first hook ++ threadsOf second hook :=
  List.filterMap_append

/-- A hook has begun on a thread exactly if that was noted. -/
theorem mem_threadsOf_iff {log : List HookEvent} {hook : Hook} {thread : Nat} :
    thread ∈ threadsOf log hook ↔ .began hook thread ∈ log := by
  unfold threadsOf
  rw [List.mem_filterMap]
  constructor
  · rintro ⟨event, mem, hthread⟩
    cases event with
    | began h t =>
      have same : h = hook ∧ t = thread := by simpa using hthread
      rwa [← same.1, ← same.2]
    | ended h t failure => cases hthread
  · intro mem
    exact ⟨_, mem, by simp⟩

theorem StartUp.threadsOf_log {w : Worker} {n : Nat} {log : List HookEvent}
    (work : StartUp w n log) :
    (threadsOf log .startUp).length ≤ 1 ∧ threadsOf log .shutDown = [] := by
  cases work with
  | asking => exact ⟨Nat.zero_le 1, rfl⟩
  | refused message => exact ⟨Nat.zero_le 1, rfl⟩
  | inside => exact ⟨Nat.le_refl 1, rfl⟩
  | leaving failure => exact ⟨Nat.le_refl 1, rfl⟩

/-- What is noted of the shut-down hook. -/
theorem ShutDown.threadsOf_log {early : Bool} {w : Worker} {n : Nat} {log : List HookEvent}
    (work : ShutDown early w n log) :
    ∃ rest, log = startedLog ++ rest ∧ threadsOf rest .startUp = [] ∧
      (threadsOf rest .shutDown = [] ∨
        threadsOf rest .shutDown = [stopThread early] ∧ n = stopThread early + 1) := by
  cases work with
  | asking => exact ⟨[], rfl, rfl, Or.inl rfl⟩
  | refused message => exact ⟨[], rfl, rfl, Or.inl rfl⟩
  | inside => exact ⟨_, rfl, rfl, Or.inr ⟨rfl, rfl⟩⟩
  | leaving => exact ⟨_, rfl, rfl, Or.inr ⟨rfl, rfl⟩⟩

/-- Either the start-up hook has begun at most once and the shut-down hook not at all, or the
start-up hook has succeeded on the first thread, and after that the shut-down hook has begun at most
once, on the thread that the request for the stop decides. -/
theorem Stage.threadsOf_log {s : Service} (h : Stage s) :
    (threadsOf s.log .startUp).length ≤ 1 ∧ threadsOf s.log .shutDown = [] ∨
      ∃ rest, s.log = startedLog ++ rest ∧ threadsOf rest .startUp = [] ∧
        (threadsOf rest .shutDown = [] ∨
          threadsOf rest .shutDown = [stopThread s.stopRequested] ∧
            s.requests = stopThread s.stopRequested + 1) := by
  cases h with
  | fresh started stopped => exact Or.inl ⟨Nat.zero_le 1, rfl⟩
  | unused started stopped => exact Or.inl ⟨Nat.zero_le 1, rfl⟩
  | starting work => exact Or.inl work.threadsOf_log
  | startFailed work failure => exact Or.inl work.threadsOf_log
  | running started stopped => exact Or.inr ⟨[], rfl, rfl, Or.inl rfl⟩
  | stopping work => exact Or.inr work.threadsOf_log
  | stopFailed work failure => exact Or.inr work.threadsOf_log
  | terminated work => exact Or.inr work.threadsOf_log

end Groundwork.Service
