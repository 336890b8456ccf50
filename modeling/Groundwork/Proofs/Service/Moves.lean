import Groundwork.Service.Lifecycle

/-!
# Moves and runs of a service

What a single move can do, said once, and what a run inherits from its moves.

* `Advance`: the moves of a worker, each with the service after it.
* `Move`: the moves of anybody, each with what it finds and with the service after it;
  `move_of_step?` takes a move apart, `Move.step?_eq` makes it.
* `Service.trail`: all phases so far. No move takes a phase back (`trail_prefix_of_step?`).
* `steps?_induction`: what every move preserves, every run preserves.
-/

namespace Groundwork.Service

/-! ## Moves of workers -/

/-- The message of a worker that has a failure to report. -/
def Worker.failure? : Worker → Option String
  | .refused message => some message
  | .leaving _ _ failure => failure
  | .asking _ | .inside _ _ => none

/-- The moves of the worker at `index`, each with the service after it. -/
inductive Advance (s : Service) (index : Nat) : WorkerMove → Service → Prop
  | granted {hook : Hook} (found : s.workers[index]? = some (.asking hook)) :
      Advance s index .granted
        ((s.request.putWorker index (.inside hook s.requests)).note (.began hook s.requests))
  | refused {hook : Hook} (message : String) (found : s.workers[index]? = some (.asking hook)) :
      Advance s index (.refused message)
        (s.request.putWorker index (.refused (refusal message)))
  | ended {hook : Hook} {thread : Nat} (failure : Option String)
      (found : s.workers[index]? = some (.inside hook thread)) :
      Advance s index (.ended failure)
        ((s.putWorker index (.leaving hook thread failure)).note (.ended hook thread failure))
  | failed {w : Worker} {message : String} (found : s.workers[index]? = some w)
      (failure : w.failure? = some message) :
      Advance s index .reported ((s.failWith message).dismiss index)
  | startedUp {thread : Nat} (found : s.workers[index]? = some (.leaving .startUp thread none)) :
      Advance s index .reported (s.startUpDone index thread)
  | shutDown {thread : Nat} (found : s.workers[index]? = some (.leaving .shutDown thread none)) :
      Advance s index .reported (s.shutDownDone index)

/-- There are no other moves of workers. -/
theorem advance_of_advance? {s s' : Service} {index : Nat} {move : WorkerMove}
    (h : s.advance? index move = some s') : Advance s index move s' := by
  unfold Service.advance? at h
  split at h
  case h_1 hook found =>
    rw [← Option.some.inj h]
    exact .granted found
  case h_2 hook message found =>
    rw [← Option.some.inj h]
    exact .refused message found
  case h_3 message found =>
    rw [← Option.some.inj h]
    exact .failed found rfl
  case h_4 hook thread failure found =>
    rw [← Option.some.inj h]
    exact .ended failure found
  case h_5 hook thread message found =>
    rw [← Option.some.inj h]
    exact .failed found rfl
  case h_6 thread found =>
    rw [← Option.some.inj h]
    exact .startedUp found
  case h_7 thread found =>
    rw [← Option.some.inj h]
    exact .shutDown found
  case h_8 => cases h

/-- Somebody has to be there to move. -/
theorem Advance.exists_found {s s' : Service} {index : Nat} {move : WorkerMove}
    (h : Advance s index move s') : ∃ w, s.workers[index]? = some w := by
  cases h with
  | granted found => exact ⟨_, found⟩
  | refused message found => exact ⟨_, found⟩
  | ended failure found => exact ⟨_, found⟩
  | failed found failure => exact ⟨_, found⟩
  | startedUp found => exact ⟨_, found⟩
  | shutDown found => exact ⟨_, found⟩

theorem Advance.workers_ne_nil {s s' : Service} {index : Nat} {move : WorkerMove}
    (h : Advance s index move s') : s.workers ≠ [] := by
  intro nobody
  rcases h.exists_found with ⟨w, found⟩
  rw [nobody] at found
  cases found

/-- If there is one worker, it is the one that moves. -/
theorem eq_of_getElem?_singleton {w w' : Worker} {index : Nat}
    (h : [w][index]? = some w') : index = 0 ∧ w = w' := by
  cases index with
  | zero => exact ⟨rfl, Option.some.inj h⟩
  | succ index => cases h

/-! ## Moves -/

/-- The moves of clients and workers, each with the service after it. -/
inductive Move (s : Service) : Action → Service → Prop
  | starts (new : s.phase = .new) :
      Move s .start ((s.enter .starting).engage (.asking .startUp))
  | started (old : s.phase ≠ .new) : Move s .start s
  | ends (new : s.phase = .new) :
      Move s .stop (((s.enter .terminated).completeStart .terminated).completeStop .terminated)
  | requested (starting : s.phase = .starting) : Move s .stop { s with stopRequested := true }
  | stops (running : s.phase = .running) :
      Move s .stop ((s.enter .stopping).engage (.asking .shutDown))
  | stopped (late : s.phase = .stopping ∨ s.phase = .terminated ∨ s.phase = .failed) :
      Move s .stop s
  | interfered (handle : Handle) (c : Completion Phase) :
      Move s (.interfere handle c) (s.interfere handle c).2
  | worker {index : Nat} {move : WorkerMove} {s' : Service} (advance : Advance s index move s') :
      Move s (.worker index move) s'

theorem move_start (s : Service) : Move s .start s.start := by
  unfold Service.start
  split
  · rename_i new
    exact .starts new
  · rename_i old
    exact .started old

theorem move_stop (s : Service) : Move s .stop s.stop := by
  unfold Service.stop
  split
  · rename_i new
    exact .ends new
  · rename_i starting
    exact .requested starting
  · rename_i running
    exact .stops running
  · rename_i stopping
    exact .stopped (Or.inl stopping)
  · rename_i terminated
    exact .stopped (Or.inr (Or.inl terminated))
  · rename_i failed
    exact .stopped (Or.inr (Or.inr failed))

/-- There are no other moves. -/
theorem move_of_step? {s s' : Service} {a : Action} (step : s.step? a = some s') :
    Move s a s' := by
  cases a with
  | start =>
    rw [← Option.some.inj step]
    exact move_start s
  | stop =>
    rw [← Option.some.inj step]
    exact move_stop s
  | interfere handle c =>
    rw [← Option.some.inj step]
    exact .interfered handle c
  | worker index move => exact .worker (advance_of_advance? step)

/-- A worker can make each of its moves. -/
theorem Advance.advance?_eq {s s' : Service} {index : Nat} {move : WorkerMove}
    (h : Advance s index move s') : s.advance? index move = some s' := by
  cases h with
  | granted found => simp [Service.advance?, found]
  | refused message found => simp [Service.advance?, found]
  | ended failure found => simp [Service.advance?, found]
  | @failed w message found failure =>
    -- only two kinds of workers have a failure to report
    cases w with
    | asking hook => cases failure
    | inside hook thread => cases failure
    | refused message' =>
      cases failure
      simp [Service.advance?, found]
    | leaving hook thread failure' =>
      cases failure
      simp [Service.advance?, found]
  | startedUp found => simp [Service.advance?, found]
  | shutDown found => simp [Service.advance?, found]

/-- Each of the moves can be made. -/
theorem Move.step?_eq {s s' : Service} {a : Action} (h : Move s a s') : s.step? a = some s' := by
  cases h with
  | starts new => simp [Service.step?, Service.start, new]
  | started old => simp [Service.step?, Service.start]
  | ends new => simp [Service.step?, Service.stop, new]
  | requested starting => simp [Service.step?, Service.stop, starting]
  | stops running => simp [Service.step?, Service.stop, running]
  | stopped late => rcases late with late | late | late <;> simp [Service.step?, Service.stop, late]
  | interfered handle c => rfl
  | worker advance => exact advance.advance?_eq

/-! ## Phases -/

/-- The phases of a service so far, the present one last. -/
def trail (s : Service) : List Phase :=
  s.past ++ [s.phase]

theorem phase_eq_of_trail_eq {s s' : Service} (h : s'.trail = s.trail) : s'.phase = s.phase := by
  have last : s'.trail.getLast? = s.trail.getLast? := congrArg List.getLast? h
  simpa [Service.trail] using last

theorem trail_prefix_of_advance {s s' : Service} {index : Nat} {move : WorkerMove}
    (advance : Advance s index move s') : s.trail <+: s'.trail := by
  cases advance with
  | granted found => exact List.prefix_rfl
  | refused message found => exact List.prefix_rfl
  | ended failure found => exact List.prefix_rfl
  | failed found failure => exact ⟨[.failed], rfl⟩
  | startedUp found =>
    unfold Service.startUpDone
    split
    · -- with a stop on record, one move goes through two phases
      have first : s.trail <+: (s.enter .running).trail := ⟨[.running], rfl⟩
      exact first.trans ⟨[.stopping], rfl⟩
    · exact ⟨[.running], rfl⟩
  | shutDown found => exact ⟨[.terminated], rfl⟩

/-- No move takes a phase back. -/
theorem trail_prefix_of_step? {s s' : Service} {a : Action} (step : s.step? a = some s') :
    s.trail <+: s'.trail := by
  cases move_of_step? step with
  | starts new => exact ⟨[.starting], rfl⟩
  | started old => exact List.prefix_rfl
  | ends new => exact ⟨[.terminated], rfl⟩
  | requested starting => exact List.prefix_rfl
  | stops running => exact ⟨[.stopping], rfl⟩
  | stopped late => exact List.prefix_rfl
  | interfered handle c => cases handle <;> exact List.prefix_rfl
  | worker advance => exact trail_prefix_of_advance advance

/-! ## Runs -/

/-- What every move of a run preserves, the run preserves. -/
theorem steps?_induction {P : Service → Prop} {actions : List Action}
    (hstep : ∀ {s s' : Service} {a : Action}, a ∈ actions → P s → s.step? a = some s' → P s')
    {s s' : Service} (h : P s) (run : s.steps? actions = some s') : P s' := by
  induction actions generalizing s with
  | nil =>
    rw [← Option.some.inj run]
    exact h
  | cons a actions ih =>
    rcases Option.bind_eq_some_iff.mp run with ⟨next, step, run⟩
    have now : P next := hstep List.mem_cons_self h step
    have later : ∀ {t t' : Service} {b : Action},
        b ∈ actions → P t → t.step? b = some t' → P t' := by
      intro t t' b hb
      exact hstep (List.mem_cons_of_mem a hb)
    exact ih later now run

theorem steps?_append (s : Service) (actions more : List Action) :
    s.steps? (actions ++ more) = (s.steps? actions).bind fun next => next.steps? more := by
  induction actions generalizing s with
  | nil => rfl
  | cons a actions ih =>
    rw [List.cons_append, Service.steps?, Service.steps?, Option.bind_assoc]
    exact Option.bind_congr fun next _ => ih next

/-- A run that ends with an action is a run before it and one more step. -/
theorem steps?_concat_eq_some_iff {s s' : Service} {actions : List Action} {a : Action} :
    s.steps? (actions ++ [a]) = some s' ↔
      ∃ mid, s.steps? actions = some mid ∧ mid.step? a = some s' := by
  rw [steps?_append, Option.bind_eq_some_iff]
  simp only [Service.steps?, Option.bind_fun_some]

theorem trail_prefix_of_steps? {s s' : Service} {actions : List Action}
    (run : s.steps? actions = some s') : s.trail <+: s'.trail := by
  refine steps?_induction (P := fun later => s.trail <+: later.trail) ?_ List.prefix_rfl run
  intro mid next a _ grown step
  exact grown.trans (trail_prefix_of_step? step)

end Groundwork.Service
