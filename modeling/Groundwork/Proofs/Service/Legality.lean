import Groundwork.Proofs.Service.Stages

/-!
# The life cycle is legal

What no order of starts, stops, granted and refused threads and ends of hooks can break.

* `stopRequested_iff`: the request for a stop is on record exactly if a stop was asked for while
  the service started.
* `steps?_legal`: phases follow one another as they may and the last ones are never left, each hook
  begins at most once, the second one after the first has succeeded and never beside it, and two
  threads are enough.
-/

namespace Groundwork.Service

/-! ## The last phases -/

/-- After a phase without successors nothing is added to the trail. -/
theorem trail_eq_of_successors_nil {s s' : Service} (chain : s'.trail.IsChain
    fun p q => q ∈ p.successors) (grown : s.trail <+: s'.trail) (last : s.phase.successors = []) :
    s'.trail = s.trail := by
  rcases grown with ⟨more, hmore⟩
  cases more with
  | nil => rw [← hmore, List.append_nil]
  | cons next more =>
    -- a further phase would have to be a successor of the last one
    rw [← hmore, trail, List.append_assoc, List.singleton_append,
      List.isChain_append_cons_cons] at chain
    have out := chain.2.1
    rw [last] at out
    cases out

/-! ## The request for a stop -/

theorem stopRequested_of_advance {s s' : Service} {index : Nat} {move : WorkerMove}
    (advance : Advance s index move s') : s'.stopRequested = s.stopRequested := by
  cases advance with
  | granted found => rfl
  | refused message found => rfl
  | ended failure found => rfl
  | failed found failure => rfl
  | startedUp found =>
    unfold Service.startUpDone
    split
    · rfl
    · rfl
  | shutDown found => rfl

/-- A move changes the record of a request only by asking for a stop of a starting service. -/
theorem stopRequested_of_step? {s s' : Service} {a : Action} (step : s.step? a = some s') :
    s'.stopRequested = true ↔ s.stopRequested = true ∨ a = .stop ∧ s.phase = .starting := by
  cases move_of_step? step with
  | starts new => simp [Service.enter, Service.engage]
  | started old => simp
  | ends new => simp [new, Service.enter, Service.completeStart, Service.completeStop]
  | requested starting => simp [starting]
  | stops running => simp [running, Service.enter, Service.engage]
  | stopped late =>
    have notstarting : s.phase ≠ .starting := by
      intro starting
      simp [starting] at late
    simp [notstarting]
  | interfered handle c => cases handle <;> simp [Service.interfere]
  | worker advance => simp [stopRequested_of_advance advance]

/-- Somewhere in the run from a service, a stop is asked for while it starts. -/
def StopWhileStarting (s : Service) (actions : List Action) : Prop :=
  ∃ earlier later mid, actions = earlier ++ .stop :: later ∧ s.steps? earlier = some mid ∧
    mid.phase = .starting

theorem stopWhileStarting_cons_iff {s next : Service} {a : Action} {actions : List Action}
    (step : s.step? a = some next) : StopWhileStarting s (a :: actions) ↔
      a = .stop ∧ s.phase = .starting ∨ StopWhileStarting next actions := by
  constructor
  · rintro ⟨earlier, later, mid, hactions, hmid, phase⟩
    -- the stop is the first action, or it comes later in the run
    cases earlier with
    | nil =>
      rcases List.cons.inj hactions with ⟨rfl, -⟩
      obtain rfl := Option.some.inj hmid
      exact Or.inl ⟨rfl, phase⟩
    | cons b earlier =>
      rcases List.cons.inj hactions with ⟨rfl, rfl⟩
      rw [Service.steps?, step] at hmid
      exact Or.inr ⟨earlier, later, mid, rfl, hmid, phase⟩
  · rintro (⟨rfl, phase⟩ | ⟨earlier, later, mid, rfl, hmid, phase⟩)
    · exact ⟨[], actions, s, rfl, rfl, phase⟩
    · refine ⟨a :: earlier, later, mid, rfl, ?_, phase⟩
      rw [Service.steps?, step]
      exact hmid

/-- The request for a stop is on record exactly if a stop was asked for while the service
started. -/
theorem stopRequested_iff {s s' : Service} {actions : List Action}
    (run : s.steps? actions = some s') : s'.stopRequested = true ↔
      s.stopRequested = true ∨ StopWhileStarting s actions := by
  induction actions generalizing s with
  | nil =>
    obtain rfl := Option.some.inj run
    have never : ¬ StopWhileStarting s [] := by
      rintro ⟨earlier, later, mid, hactions, -⟩
      simp at hactions
    simp [never]
  | cons a actions ih =>
    rcases Option.bind_eq_some_iff.mp run with ⟨next, step, run⟩
    rw [ih run, stopRequested_of_step? step, stopWhileStarting_cons_iff step, or_assoc]

/-! ## The order of the hooks -/

/-- In a log that begins with a start-up that succeeded, this comes before the shut-down. -/
theorem mem_of_startedLog_append {rest before after : List HookEvent} {thread : Nat}
    (h : startedLog ++ rest = before ++ .began .shutDown thread :: after) :
    .ended .startUp 0 none ∈ before := by
  -- neither of the first two events is the beginning of a shut-down
  match before with
  | [] => simp [startedLog] at h
  | [x] => simp [startedLog] at h
  | x :: y :: more =>
    simp only [startedLog, List.cons_append, List.cons.injEq] at h
    rw [h.2.1]
    simp

/-! ## Legality -/

/-- What a legal life is, of a service that some actions have led to. -/
structure Legal (actions : List Action) (s : Service) : Prop where
  /-- Phases follow one another as they may. -/
  phases : s.trail.IsChain fun p q => q ∈ p.successors
  /-- Whatever happens next, the phases so far stay on record. -/
  phases_kept : ∀ more s', s.steps? more = some s' → s.trail <+: s'.trail
  /-- The two last phases are never left. -/
  last_kept : s.phase = .terminated ∨ s.phase = .failed →
    ∀ more s', s.steps? more = some s' → s'.phase = s.phase
  startUp_once : (threadsOf s.log .startUp).length ≤ 1
  shutDown_once : (threadsOf s.log .shutDown).length ≤ 1
  /-- The shut-down hook begins after the start-up hook has succeeded. -/
  shutDown_after : ∀ before after thread, s.log = before ++ .began .shutDown thread :: after →
    ∃ first, .ended .startUp first none ∈ before
  /-- No two workers are inside hooks. -/
  one_inside : ∀ (i j : Nat) (hook hook' : Hook) (thread thread' : Nat),
    s.workers[i]? = some (.inside hook thread) →
    s.workers[j]? = some (.inside hook' thread') → i = j
  two_threads : s.requests ≤ 2
  /-- A stop that was asked for while the service started is served on the start-up thread. -/
  same_thread : StopWhileStarting .initial actions →
    ∀ thread ∈ threadsOf s.log .shutDown, threadsOf s.log .startUp = [thread]
  /-- Every other stop is served on the second thread. -/
  second_thread : ¬ StopWhileStarting .initial actions →
    ∀ thread ∈ threadsOf s.log .shutDown,
      thread = 1 ∧ s.requests = 2 ∧ threadsOf s.log .startUp = [0]

theorem Stage.shutDown_after {s : Service} (h : Stage s) {before after : List HookEvent}
    {thread : Nat} (hlog : s.log = before ++ .began .shutDown thread :: after) :
    ∃ first, .ended .startUp first none ∈ before := by
  rcases h.threadsOf_log with ⟨-, none⟩ | ⟨rest, hrest, -⟩
  · have began : thread ∈ threadsOf s.log .shutDown := by
      rw [mem_threadsOf_iff, hlog]
      simp
    rw [none] at began
    cases began
  · rw [hrest] at hlog
    exact ⟨0, mem_of_startedLog_append hlog⟩

theorem Stage.one_inside {s : Service} (h : Stage s) {i j : Nat} {w w' : Worker}
    (hi : s.workers[i]? = some w) (hj : s.workers[j]? = some w') : i = j := by
  have few := h.length_workers_le
  rcases List.getElem?_eq_some_iff.mp hi with ⟨hi, -⟩
  rcases List.getElem?_eq_some_iff.mp hj with ⟨hj, -⟩
  omega

/-- If the shut-down hook has begun, it has on the thread that the request decides. -/
theorem Stage.eq_stopThread {s : Service} (h : Stage s) {thread : Nat}
    (began : thread ∈ threadsOf s.log .shutDown) :
    thread = stopThread s.stopRequested ∧ s.requests = stopThread s.stopRequested + 1 ∧
      threadsOf s.log .startUp = [0] := by
  rcases h.threadsOf_log with ⟨-, none⟩ | ⟨rest, hrest, hstart, hstop⟩
  · rw [none] at began
    cases began
  · rw [hrest, threadsOf_append] at began
    rcases hstop with hstop | ⟨hstop, count⟩
    · rw [hstop] at began
      cases began
    · rw [hstop] at began
      refine ⟨List.mem_singleton.mp began, count, ?_⟩
      rw [hrest, threadsOf_append, hstart]
      rfl

theorem Stage.length_threadsOf_le {s : Service} (h : Stage s) (hook : Hook) :
    (threadsOf s.log hook).length ≤ 1 := by
  rcases h.threadsOf_log with ⟨hstart, hstop⟩ | ⟨rest, hrest, hstart, hstop⟩
  · cases hook with
    | startUp => exact hstart
    | shutDown => simp [hstop]
  · rw [hrest, threadsOf_append]
    cases hook with
    | startUp =>
      rw [hstart]
      exact Nat.le_refl 1
    | shutDown =>
      rcases hstop with hstop | ⟨hstop, -⟩
      · rw [hstop]
        exact Nat.zero_le 1
      · rw [hstop]
        exact Nat.le_refl 1

/-- Whatever clients, the factory and the hooks do and in whatever order they do it, the life of a
service is legal. -/
theorem steps?_legal {actions : List Action} {s : Service}
    (run : Service.initial.steps? actions = some s) : Legal actions s := by
  have stage := stage_of_steps? run
  -- the record of the request tells the two kinds of stops apart
  have request : s.stopRequested = true ↔ StopWhileStarting .initial actions := by
    rw [stopRequested_iff run]
    exact or_iff_right (by decide)
  constructor
  · exact stage.isChain_trail
  · intro more s' further
    exact trail_prefix_of_steps? further
  · intro last more s' further
    apply phase_eq_of_trail_eq
    apply trail_eq_of_successors_nil (stage.steps? further).isChain_trail
      (trail_prefix_of_steps? further)
    rcases last with last | last
    · rw [last]
      rfl
    · rw [last]
      rfl
  · exact stage.length_threadsOf_le .startUp
  · exact stage.length_threadsOf_le .shutDown
  · intro before after thread hlog
    exact stage.shutDown_after hlog
  · intro i j hook hook' thread thread' hi hj
    exact stage.one_inside hi hj
  · exact stage.requests_le
  · intro early thread began
    rcases stage.eq_stopThread began with ⟨hthread, -, hstart⟩
    rw [request.mpr early] at hthread
    rw [hstart, hthread]
    rfl
  · intro late thread began
    rcases stage.eq_stopThread began with ⟨hthread, count, hstart⟩
    have norequest : s.stopRequested = false := by
      rw [← request] at late
      simpa using late
    rw [norequest] at hthread count
    exact ⟨hthread, count, hstart⟩

/-- The factory grants the first thread and refuses the second. -/
theorem legal_of_refused_stop :
    Legal
      [.start, .start, .worker 0 .granted, .worker 0 (.ended none), .worker 0 .reported, .stop,
        .worker 0 (.refused "no more"), .stop, .worker 0 .reported]
      ⟨.failed, [.new, .starting, .running, .stopping], false, .completed (.value .running),
        .completed (.failed "could not spawn thread: no more"), [], 2, startedLog⟩ :=
  steps?_legal (by decide)

end Groundwork.Service
