import Groundwork.Service.Settling
import Groundwork.Proofs.Service.Legality

/-!
# A stop is never lost

A stop that is asked for while the service starts only leaves a note that another thread has to
read, and between a client's move and the thread that serves it anything may happen. Still every
stop is served.

* `Heeded`: the service cannot go on as if nobody had asked for a stop. A stop makes it so
  (`heeded_of_stop`) and no move undoes it (`Heeded.step?`).
* `Untroubled`: nothing has failed, as long as no thread is refused and no hook fails.
* `starting_mem_trail_iff`: the service has started exactly if a start came before the first stop.
* `steps?_stopServed`: the service ends after every stop, unless a worker is still on its way to
  the end.
-/

namespace Groundwork.Service

/-! ## Stops are heeded -/

/-- The service is not where it might stay, or go to, without regard to a stop. -/
def Heeded (s : Service) : Prop :=
  s.phase ≠ .new ∧ s.phase ≠ .running ∧ (s.phase = .starting → s.stopRequested = true)

/-- Every stop is heeded. -/
theorem heeded_of_stop {s s' : Service} (move : Move s .stop s') : Heeded s' := by
  cases move with
  | ends new => exact ⟨nofun, nofun, nofun⟩
  | requested starting => exact ⟨by simp [starting], by simp [starting], fun _ => rfl⟩
  | stops running => exact ⟨nofun, nofun, nofun⟩
  | stopped late =>
    rcases late with stopping | terminated | failed
    · exact ⟨by simp [stopping], by simp [stopping], by simp [stopping]⟩
    · exact ⟨by simp [terminated], by simp [terminated], by simp [terminated]⟩
    · exact ⟨by simp [failed], by simp [failed], by simp [failed]⟩

/-- Who has started up successfully has done so for a starting service. -/
theorem Stage.phase_eq_starting {s : Service} (h : Stage s) {index thread : Nat}
    {failure : Option String}
    (found : s.workers[index]? = some (.leaving .startUp thread failure)) :
    s.phase = .starting := by
  cases h with
  | starting work => rfl
  | stopping work =>
    rcases eq_of_getElem?_singleton found with ⟨-, rfl⟩
    cases work
  | fresh | unused | startFailed | running | stopFailed | terminated => cases found

/-- No move of a worker undoes that a stop is heeded. -/
theorem Heeded.advance {s s' : Service} {index : Nat} {move : WorkerMove} (h : Heeded s)
    (stage : Stage s) (advance : Advance s index move s') : Heeded s' := by
  rcases h with ⟨notnew, notrunning, noted⟩
  cases advance with
  | granted found => exact ⟨notnew, notrunning, noted⟩
  | refused message found => exact ⟨notnew, notrunning, noted⟩
  | ended failure found => exact ⟨notnew, notrunning, noted⟩
  | failed found failure => exact ⟨nofun, nofun, nofun⟩
  | startedUp found =>
    -- here the note of the stop is read
    have request : s.stopRequested = true := noted (stage.phase_eq_starting found)
    rw [Service.startUpDone, if_pos request]
    exact ⟨nofun, nofun, nofun⟩
  | shutDown found => exact ⟨nofun, nofun, nofun⟩

/-- No move undoes that a stop is heeded. -/
theorem Heeded.step? {s s' : Service} {a : Action} (h : Heeded s) (stage : Stage s)
    (step : s.step? a = some s') : Heeded s' := by
  have move : Move s a s' := move_of_step? step
  cases move with
  | starts new => exact absurd new h.1
  | started old => exact h
  | ends new => exact absurd new h.1
  | requested starting => exact heeded_of_stop (.requested starting)
  | stops running => exact absurd running h.2.1
  | stopped late => exact h
  | interfered handle c => cases handle <;> exact h
  | worker advance => exact h.advance stage advance

/-- After a run with a stop in it, the stop is heeded. -/
theorem heeded_of_mem {s s' : Service} {actions : List Action} (stage : Stage s)
    (run : s.steps? actions = some s') (asked : .stop ∈ actions) : Heeded s' := by
  induction actions generalizing s with
  | nil => cases asked
  | cons a actions ih =>
    rcases Option.bind_eq_some_iff.mp run with ⟨next, step, further⟩
    rcases List.mem_cons.mp asked with rfl | asked
    · have first : Stage next ∧ Heeded next :=
        ⟨stage.step? step, heeded_of_stop (move_of_step? step)⟩
      -- from here on the stop stays heeded, and that needs the stage to be carried along
      have last : Stage s' ∧ Heeded s' := by
        refine steps?_induction (P := fun t => Stage t ∧ Heeded t) ?_ first further
        intro t t' b _ ht step
        exact ⟨ht.1.step? step, ht.2.step? ht.1 step⟩
      exact last.2
    · exact ih (stage.step? step) further asked

/-! ## The stop future -/

theorem complete_ne_pending {α : Type} (f : Future α) (c : Completion α) :
    (f.complete c).2 ≠ .pending := by
  intro pending
  cases f <;> cases pending

/-- At its end, the service has completed the stop future. -/
def Announced (s : Service) : Prop :=
  s.phase = .terminated ∨ s.phase = .failed → s.stopped ≠ .pending

theorem Announced.advance {s s' : Service} {index : Nat} {move : WorkerMove} (h : Announced s)
    (advance : Advance s index move s') : Announced s' := by
  cases advance with
  | granted found => exact h
  | refused message found => exact h
  | ended failure found => exact h
  | failed found failure => exact fun _ => complete_ne_pending _ _
  | startedUp found =>
    unfold Service.startUpDone
    split
    · rintro (last | last) <;> cases last
    · rintro (last | last) <;> cases last
  | shutDown found => exact fun _ => complete_ne_pending _ _

theorem Announced.step? {s s' : Service} {a : Action} (h : Announced s)
    (step : s.step? a = some s') : Announced s' := by
  cases move_of_step? step with
  | starts new => rintro (last | last) <;> cases last
  | started old => exact h
  | ends new => exact fun _ => complete_ne_pending _ _
  | requested starting => exact h
  | stops running => rintro (last | last) <;> cases last
  | stopped late => exact h
  | interfered handle c =>
    cases handle with
    | start => exact h
    | stop => exact fun _ => complete_ne_pending _ _
  | worker advance => exact h.advance advance

theorem announced_of_steps? {s : Service} {actions : List Action}
    (run : Service.initial.steps? actions = some s) : Announced s := by
  have first : Announced .initial := by
    rintro (last | last) <;> cases last
  refine steps?_induction (P := Announced) ?_ first run
  intro mid next a _ h step
  exact h.step? step

/-! ## Nothing fails by itself -/

/-- Whether an action is the failure of a request for a thread or of a hook. -/
def Action.isFailure : Action → Bool
  | .worker _ (.refused _) | .worker _ (.ended (some _)) => true
  | _ => false

/-- Nothing has failed, and no failure is yet to be reported. -/
def Untroubled (s : Service) : Prop :=
  s.phase ≠ .failed ∧ ∀ w ∈ s.workers, w.failure? = none

theorem Untroubled.engage {s : Service} (h : Untroubled s) (hook : Hook) :
    ∀ w ∈ s.workers ++ [.asking hook], w.failure? = none := by
  intro w hw
  rcases List.mem_append.mp hw with hw | hw
  · exact h.2 w hw
  · rw [List.mem_singleton.mp hw]
    rfl

theorem Untroubled.set {s : Service} (h : Untroubled s) (index : Nat) {new : Worker}
    (hnew : new.failure? = none) : ∀ w ∈ s.workers.set index new, w.failure? = none := by
  intro w hw
  rcases List.mem_or_eq_of_mem_set hw with hw | rfl
  · exact h.2 w hw
  · exact hnew

theorem Untroubled.eraseIdx {s : Service} (h : Untroubled s) (index : Nat) :
    ∀ w ∈ s.workers.eraseIdx index, w.failure? = none := by
  intro w hw
  exact h.2 w (List.mem_of_mem_eraseIdx hw)

theorem Untroubled.advance {s s' : Service} {index : Nat} {move : WorkerMove} (h : Untroubled s)
    (harmless : (Action.worker index move).isFailure = false)
    (advance : Advance s index move s') : Untroubled s' := by
  cases advance with
  | granted found => exact ⟨h.1, h.set index rfl⟩
  | refused message found => cases harmless
  | ended failure found =>
    cases failure with
    | none => exact ⟨h.1, h.set index rfl⟩
    | some message => cases harmless
  | @failed w message found failure =>
    -- there was no failure to report
    have nofailure : w.failure? = none := h.2 w (List.mem_of_getElem? found)
    rw [failure] at nofailure
    cases nofailure
  | startedUp found =>
    unfold Service.startUpDone
    split
    · exact ⟨nofun, h.set index rfl⟩
    · exact ⟨nofun, h.eraseIdx index⟩
  | shutDown found => exact ⟨nofun, h.eraseIdx index⟩

theorem Untroubled.step? {s s' : Service} {a : Action} (h : Untroubled s)
    (harmless : a.isFailure = false) (step : s.step? a = some s') : Untroubled s' := by
  cases move_of_step? step with
  | starts new => exact ⟨nofun, h.engage .startUp⟩
  | started old => exact h
  | ends new => exact ⟨nofun, h.2⟩
  | requested starting => exact h
  | stops running => exact ⟨nofun, h.engage .shutDown⟩
  | stopped late => exact h
  | interfered handle c => cases handle <;> exact h
  | worker advance => exact h.advance harmless advance

theorem untroubled_of_steps? {s s' : Service} {actions : List Action} (h : Untroubled s)
    (harmless : ∀ a ∈ actions, a.isFailure = false) (run : s.steps? actions = some s') :
    Untroubled s' := by
  refine steps?_induction (P := Untroubled) ?_ h run
  intro mid next a ha hmid step
  exact hmid.step? (harmless a ha) step

/-! ## Starts before stops -/

theorem Stage.trail_eq_of_new {s : Service} (h : Stage s) (new : s.phase = .new) :
    s.trail = [.new] ∧ s.workers = [] := by
  cases h with
  | fresh started stopped => exact ⟨rfl, rfl⟩
  | unused | starting | startFailed | running | stopping | stopFailed | terminated => cases new

/-- A service that is still new has started in the end exactly if a start came before the first
stop. -/
theorem starting_mem_trail_iff {s s' : Service} {actions : List Action} (stage : Stage s)
    (new : s.phase = .new) (run : s.steps? actions = some s') :
    .starting ∈ s'.trail ↔ .start ∈ actions.takeWhile (· ≠ .stop) := by
  rcases stage.trail_eq_of_new new with ⟨trail, nobody⟩
  induction actions generalizing s with
  | nil =>
    rw [← Option.some.inj run, trail]
    simp
  | cons a actions ih =>
    rcases Option.bind_eq_some_iff.mp run with ⟨next, step, run⟩
    have later : Stage next := stage.step? step
    have kept : next.trail <+: s'.trail := trail_prefix_of_steps? run
    cases move_of_step? step with
    | starts new =>
      -- no later move takes this back
      have started : .starting ∈ s'.trail := by
        apply kept.subset
        simp [Service.trail, Service.enter, Service.engage]
      simp [started]
    | started old => exact absurd new old
    | ends new =>
      -- the last phase is reached, nothing comes after it
      have last : s'.trail = s.trail ++ [.terminated] :=
        trail_eq_of_successors_nil (later.steps? run).isChain_trail kept rfl
      rw [last, trail]
      simp
    | requested starting => cases new.symm.trans starting
    | stops running => cases new.symm.trans running
    | stopped late => simp [new] at late
    | interfered handle c =>
      have still : (s.interfere handle c).2.phase = .new := by
        cases handle <;> exact new
      rcases later.trail_eq_of_new still with ⟨trail, nobody⟩
      rw [ih later still run trail nobody]
      simp
    | worker advance => exact absurd nobody advance.workers_ne_nil

/-! ## Every stop is served -/

/-- The service has ended, or exactly one worker is on its way to the end: inside the work of
shutting down, or inside that of starting up with a note of the stop. -/
def Ending (s : Service) : Prop :=
  s.phase = .terminated ∨ s.phase = .failed ∨
    (s.phase = .stopping ∧
      ∃ w, s.workers = [w] ∧ ShutDown s.stopRequested w s.requests s.log) ∨
    (s.phase = .starting ∧ s.stopRequested = true ∧
      ∃ w, s.workers = [w] ∧ StartUp w s.requests s.log)

/-- A service that cannot go on as if nobody had asked for a stop goes on to its end. -/
theorem Stage.ending {s : Service} (h : Stage s) (heeded : Heeded s) : Ending s := by
  rcases heeded with ⟨notnew, notrunning, noted⟩
  cases h with
  | fresh started stopped => exact absurd rfl notnew
  | unused started stopped => exact Or.inl rfl
  | starting work => exact Or.inr (Or.inr (Or.inr ⟨rfl, noted rfl, _, rfl, work⟩))
  | startFailed work failure => exact Or.inr (Or.inl rfl)
  | running started stopped => exact absurd rfl notrunning
  | stopping work => exact Or.inr (Or.inr (Or.inl ⟨rfl, _, rfl, work⟩))
  | stopFailed work failure => exact Or.inr (Or.inl rfl)
  | terminated work => exact Or.inl rfl

/-- Without a worker, a service that is on its way to the end is there. -/
theorem Ending.ended {s : Service} (h : Ending s) (nobody : s.workers = []) :
    s.phase = .terminated ∨ s.phase = .failed := by
  rcases h with last | last | ⟨-, w, someone, -⟩ | ⟨-, -, w, someone, -⟩
  · exact Or.inl last
  · exact Or.inr last
  · rw [nobody] at someone
    cases someone
  · rw [nobody] at someone
    cases someone

/-- Every worker can go on, whatever the others do. -/
theorem exists_advance? {s : Service} {index : Nat} {w : Worker}
    (found : s.workers[index]? = some w) : ∃ move, (s.advance? index move).isSome = true := by
  cases w with
  | asking hook => exact ⟨.granted, by simp [Service.advance?, found]⟩
  | refused message => exact ⟨.reported, by simp [Service.advance?, found]⟩
  | inside hook thread => exact ⟨.ended none, by simp [Service.advance?, found]⟩
  | leaving hook thread failure =>
    refine ⟨.reported, ?_⟩
    cases failure with
    | some message => simp [Service.advance?, found]
    | none => cases hook <;> simp [Service.advance?, found]

/-- Workers that are left to themselves make no more moves than the distance to the end of their
work. -/
theorem length_le_distance {s s' : Service} {moves : List (Nat × WorkerMove)}
    (run : s.steps? (moves.map fun m => .worker m.1 m.2) = some s') :
    moves.length ≤ distance s := by
  induction moves generalizing s with
  | nil => exact Nat.zero_le _
  | cons m moves ih =>
    rcases Option.bind_eq_some_iff.mp run with ⟨next, step, run⟩
    have nearer : distance next < distance s := distance_lt_of_advance? step
    have rest : moves.length ≤ distance next := ih run
    rw [List.length_cons]
    omega

/-- The log of a service whose two hooks have run, each of them once and with success. -/
def completeLog (thread : Nat) : List HookEvent :=
  startedLog ++ [.began .shutDown thread, .ended .shutDown thread none]

/-- That no stop is lost and nothing gets stuck, said of a service that some actions have led
to. -/
structure StopServed (actions : List Action) (s : Service) : Prop where
  /-- After a stop, the service has ended or goes on to its end. -/
  ending : .stop ∈ actions → Ending s
  /-- Every worker can go on. -/
  goes_on : ∀ (index : Nat) (w : Worker), s.workers[index]? = some w →
    ∃ move, (s.advance? index move).isSome = true
  /-- No worker goes on for ever. -/
  comes_to_rest : ∀ (moves : List (Nat × WorkerMove)) (s' : Service),
    s.steps? (moves.map fun m => .worker m.1 m.2) = some s' → moves.length ≤ distance s
  /-- Without a worker, the service waits for its clients or has ended. -/
  idle : s.workers = [] → s.phase ∈ [.new, .running, .terminated, .failed]
  /-- Without a worker and after a stop, the service has ended and says so. -/
  ended : s.workers = [] → .stop ∈ actions →
    (s.phase = .terminated ∨ s.phase = .failed) ∧ s.stopped ≠ .pending
  /-- If moreover nothing failed, the service has terminated, and each hook has run once if a start
  came before the first stop and neither has if not. -/
  unfailing : s.workers = [] → .stop ∈ actions → (∀ a ∈ actions, a.isFailure = false) →
    s.phase = .terminated ∧
      (.start ∈ actions.takeWhile (· ≠ .stop) → ∃ thread, s.log = completeLog thread) ∧
      (.start ∉ actions.takeWhile (· ≠ .stop) → s.log = [])

/-- A service without a worker is neither starting nor stopping. -/
theorem Stage.idle {s : Service} (h : Stage s) (nobody : s.workers = []) :
    s.phase ∈ [.new, .running, .terminated, .failed] := by
  cases h with
  | starting work => cases nobody
  | stopping work => cases nobody
  | fresh | unused | startFailed | running | stopFailed | terminated => simp

/-- A service that has terminated has run both hooks if it ever started, and none if not. -/
theorem Stage.log_of_terminated {s : Service} (h : Stage s) (last : s.phase = .terminated) :
    (.starting ∈ s.trail → ∃ thread, s.log = completeLog thread) ∧
      (.starting ∉ s.trail → s.log = []) := by
  cases h with
  | unused started stopped =>
    refine ⟨?_, fun _ => rfl⟩
    intro started
    simp [trail] at started
  | terminated work =>
    cases work with
    | leaving early =>
      refine ⟨fun _ => ⟨_, rfl⟩, ?_⟩
      intro unstarted
      simp [trail] at unstarted
  | fresh | starting | startFailed | running | stopping | stopFailed => cases last

/-- Whatever happens in whatever order, no stop is lost and no service gets stuck. -/
theorem steps?_stopServed {actions : List Action} {s : Service}
    (run : Service.initial.steps? actions = some s) : StopServed actions s := by
  have stage := stage_of_steps? run
  have ending : .stop ∈ actions → Ending s := by
    intro asked
    exact stage.ending (heeded_of_mem stage_initial run asked)
  constructor
  · exact ending
  · intro index w found
    exact exists_advance? found
  · intro moves s' further
    exact length_le_distance further
  · exact stage.idle
  · intro nobody asked
    have last := (ending asked).ended nobody
    exact ⟨last, announced_of_steps? run last⟩
  · intro nobody asked harmless
    have untroubled := untroubled_of_steps? (s := .initial) ⟨nofun, nofun⟩ harmless run
    have last : s.phase = .terminated :=
      ((ending asked).ended nobody).resolve_right untroubled.1
    -- whether it ever started is a matter of which call came first
    rw [← starting_mem_trail_iff stage_initial rfl run]
    exact ⟨last, stage.log_of_terminated last⟩

/-- The stop comes while the start-up hook runs; both hooks run on the first thread. -/
theorem stopServed_of_early_stop :
    StopServed
      [.start, .worker 0 .granted, .stop, .worker 0 (.ended none), .worker 0 .reported,
        .worker 0 (.ended none), .worker 0 .reported]
      ⟨.terminated, [.new, .starting, .running, .stopping], true, .completed (.value .running),
        .completed (.value .terminated), [], 1, completeLog 0⟩ :=
  steps?_stopServed rfl

end Groundwork.Service
