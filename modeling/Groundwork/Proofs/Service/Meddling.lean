import Groundwork.Proofs.Service.Futures

/-!
# Clients who complete the futures

The futures of a service are shared with its clients, and a client may complete them first. The
service tells them all the same and goes on as if it had been the first. No section looks at a
future, and none tells a future twice, so that a client who comes in the middle of a section might
as well come before it.

* `Service.withFutures`: a service with other futures. `Move.exists_told` says what a section tells
  the futures, whatever they hold.
* `ClientFirst`, `ServiceFirst`: who is the first to complete a future in a run.
* `exists_undisturbed`, `exists_disturbed`: a run and the same run without the clients' completions.
* `Unsteered` and `exists_unsteered`: two runs that differ in nothing but the clients' completions.
-/

namespace Groundwork

/-! ## Telling a future -/

namespace Future

variable {α : Type}

/-- The future after it was told of a completion, or of none. -/
def told (f : Future α) : Option (Completion α) → Future α
  | some c => (f.complete c).2
  | none => f

theorem told_completed (first : Completion α) (news : Option (Completion α)) :
    (Future.completed first).told news = .completed first := by
  cases news <;> rfl

end Future

namespace Service

/-! ## One section -/

/-- The service with other futures. -/
def withFutures (s : Service) (f : Handle → Future Phase) : Service :=
  { s with started := f .start, stopped := f .stop }

@[simp] theorem future_withFutures (s : Service) (f : Handle → Future Phase) (handle : Handle) :
    (s.withFutures f).future handle = f handle := by
  cases handle <;> rfl

@[simp] theorem withFutures_future (s : Service) : s.withFutures s.future = s :=
  rfl

@[simp] theorem withFutures_withFutures (s : Service) (f g : Handle → Future Phase) :
    (s.withFutures f).withFutures g = s.withFutures g :=
  rfl

/-- What holds of the one handle and of the other holds of all. -/
theorem forall_handle {p : Handle → Prop} (start : p .start) (stop : p .stop) (handle : Handle) :
    p handle := by
  cases handle with
  | start => exact start
  | stop => exact stop

/-- News for one future only. -/
def newsFor (handle : Handle) (c : Completion Phase) (other : Handle) :
    Option (Completion Phase) :=
  if other = handle then some c else none

/-- What a section of a worker tells the futures, whatever they hold. -/
theorem Advance.exists_told {s s' : Service} {index : Nat} {move : WorkerMove}
    (advance : Advance s index move s') : ∃ news : Handle → Option (Completion Phase),
      (∀ handle, s'.future handle = (s.future handle).told (news handle)) ∧
        ∀ f, Advance (s.withFutures f) index move
          (s'.withFutures fun handle => (f handle).told (news handle)) := by
  cases advance with
  | granted found => exact ⟨fun _ => none, forall_handle rfl rfl, fun f => .granted found⟩
  | refused message found =>
    exact ⟨fun _ => none, forall_handle rfl rfl, fun f => .refused message found⟩
  | ended failure found =>
    exact ⟨fun _ => none, forall_handle rfl rfl, fun f => .ended failure found⟩
  | @failed w message found failure =>
    exact ⟨fun _ => some (.failed message), forall_handle rfl rfl, fun f => .failed found failure⟩
  | @startedUp thread found =>
    refine ⟨newsFor .start (.value .running), ?_, ?_⟩
    · intro handle
      unfold Service.startUpDone
      split <;> cases handle <;> rfl
    · intro f
      have same : (s.startUpDone index thread).withFutures
          (fun handle => (f handle).told (newsFor .start (.value .running) handle)) =
            (s.withFutures f).startUpDone index thread := by
        unfold Service.startUpDone withFutures
        split <;> rfl
      rw [same]
      exact .startedUp found
  | shutDown found =>
    exact ⟨newsFor .stop (.value .terminated), forall_handle rfl rfl, fun f => .shutDown found⟩

/-- What a section tells the futures, whatever they hold; for the rest it goes on as it would
otherwise. -/
theorem Move.exists_told {s s' : Service} {a : Action} (own : a.interferes = false)
    (move : Move s a s') : ∃ news : Handle → Option (Completion Phase),
      (∀ handle, s'.future handle = (s.future handle).told (news handle)) ∧
        ∀ f, Move (s.withFutures f) a
          (s'.withFutures fun handle => (f handle).told (news handle)) := by
  cases move with
  | starts new =>
    exact ⟨fun _ => none, forall_handle rfl rfl, fun f => .starts new⟩
  | started old => exact ⟨fun _ => none, fun _ => rfl, fun f => .started old⟩
  | ends new =>
    exact ⟨fun _ => some (.value .terminated), forall_handle rfl rfl, fun f => .ends new⟩
  | requested starting =>
    exact ⟨fun _ => none, forall_handle rfl rfl, fun f => .requested starting⟩
  | stops running =>
    exact ⟨fun _ => none, forall_handle rfl rfl, fun f => .stops running⟩
  | stopped late => exact ⟨fun _ => none, fun _ => rfl, fun f => .stopped late⟩
  | interfered handle c => cases own
  | worker advance =>
    rcases advance.exists_told with ⟨news, told, others⟩
    exact ⟨news, told, fun f => .worker (others f)⟩

/-! ## One completion from outside -/

/-- A client who completes a future changes nothing else. -/
theorem interfere_withFutures (s : Service) (handle : Handle) (c : Completion Phase)
    (f : Handle → Future Phase) :
    (s.interfere handle c).2.withFutures f = s.withFutures f := by
  cases handle <;> rfl

theorem future_interfere (s : Service) (handle handle' : Handle) (c : Completion Phase) :
    (s.interfere handle c).2.future handle' =
      if handle' = handle then ((s.future handle).complete c).2 else s.future handle' := by
  cases handle <;> cases handle' <;> rfl

/-- A future that is complete stays as it is. -/
theorem future_kept_of_step? {s s' : Service} {a : Action} {handle : Handle}
    {c : Completion Phase} (step : s.step? a = some s') (done : s.future handle = .completed c) :
    s'.future handle = .completed c := by
  cases a with
  | interfere handle' c' =>
    rw [← Option.some.inj step, future_interfere]
    split
    · rename_i same
      rw [← same, done]
      rfl
    · exact done
  | start | stop | worker =>
    rcases (move_of_step? step).exists_told rfl with ⟨news, told, -⟩
    rw [told handle, done, Future.told_completed]

theorem future_kept {s s' : Service} {actions : List Action} {handle : Handle}
    {c : Completion Phase} (run : s.steps? actions = some s')
    (done : s.future handle = .completed c) : s'.future handle = .completed c := by
  refine steps?_induction (P := fun t => t.future handle = .completed c) ?_ done run
  intro mid next a _ done step
  exact future_kept_of_step? step done

/-! ## Who is first -/

/-- In a run of a new service, a client is the first to complete a future, and does so with `c`. -/
def ClientFirst (actions : List Action) (handle : Handle) (c : Completion Phase) : Prop :=
  ∃ earlier later mid, actions = earlier ++ .interfere handle c :: later ∧
    Service.initial.steps? earlier = some mid ∧ mid.future handle = .pending

/-- In a run of a new service, the service is the first to complete a future, and does so with
`c`. -/
def ServiceFirst (actions : List Action) (handle : Handle) (c : Completion Phase) : Prop :=
  ∃ earlier a later mid next, actions = earlier ++ a :: later ∧ a.interferes = false ∧
    Service.initial.steps? earlier = some mid ∧ mid.future handle = .pending ∧
    mid.step? a = some next ∧ next.future handle = .completed c

theorem ClientFirst.append {actions : List Action} {handle : Handle} {c : Completion Phase}
    (h : ClientFirst actions handle c) (more : List Action) :
    ClientFirst (actions ++ more) handle c := by
  rcases h with ⟨earlier, later, mid, rfl, run, pending⟩
  exact ⟨earlier, later ++ more, mid, by simp, run, pending⟩

/-- In the middle of a run stands a step. -/
theorem exists_step?_of_append {s mid s' : Service} {earlier later : List Action} {a : Action}
    (front : s.steps? earlier = some mid) (run : s.steps? (earlier ++ a :: later) = some s') :
    ∃ next, mid.step? a = some next ∧ next.steps? later = some s' := by
  rw [steps?_append, front] at run
  exact Option.bind_eq_some_iff.mp run

section

variable {actions : List Action} {s : Service} {handle : Handle} {c : Completion Phase}

/-- What a client was the first to say stays. -/
theorem future_of_clientFirst (run : Service.initial.steps? actions = some s)
    (first : ClientFirst actions handle c) : s.future handle = .completed c := by
  rcases first with ⟨earlier, later, mid, rfl, front, pending⟩
  rcases exists_step?_of_append front run with ⟨next, step, back⟩
  refine future_kept back ?_
  rw [← Option.some.inj step, future_interfere, if_pos rfl, pending]
  rfl

/-- What the service was the first to say stays. -/
theorem future_of_serviceFirst (run : Service.initial.steps? actions = some s)
    (first : ServiceFirst actions handle c) : s.future handle = .completed c := by
  rcases first with ⟨earlier, a, later, mid, next, rfl, -, front, -, step, done⟩
  rcases exists_step?_of_append front run with ⟨next', step', back⟩
  obtain rfl : next = next' := Option.some.inj (step.symm.trans step')
  exact future_kept back done

end

/-! ## The run without the clients' completions -/

/-- The actions but for the clients' completions. -/
def undisturbed (actions : List Action) : List Action :=
  actions.filter fun a => !a.interferes

theorem undisturbed_concat_of_interferes {actions : List Action} {a : Action}
    (h : a.interferes = true) : undisturbed (actions ++ [a]) = undisturbed actions := by
  simp [undisturbed, h]

theorem undisturbed_concat_of_own {actions : List Action} {a : Action}
    (h : a.interferes = false) : undisturbed (actions ++ [a]) = undisturbed actions ++ [a] := by
  simp [undisturbed, h]

/-- Without the clients' completions the service goes the same way, and a future differs only if a
client was the first to complete it. -/
theorem exists_undisturbed {actions : List Action} {s : Service}
    (run : Service.initial.steps? actions = some s) :
    ∃ f, Service.initial.steps? (undisturbed actions) = some (s.withFutures f) ∧
      ∀ handle, f handle = s.future handle ∨ ∃ c, ClientFirst actions handle c := by
  induction actions using List.reverseRecOn generalizing s with
  | nil =>
    obtain rfl := Option.some.inj run
    exact ⟨Service.initial.future, rfl, fun _ => .inl rfl⟩
  | append_singleton actions a ih =>
    rcases steps?_concat_eq_some_iff.mp run with ⟨mid, front, step⟩
    rcases ih front with ⟨f, calm, agree⟩
    cases own : a.interferes with
    | true =>
      -- the other run stands still, and a future may go apart from its like now
      rw [undisturbed_concat_of_interferes own]
      cases a with
      | start | stop | worker => cases own
      | interfere handle c =>
        obtain rfl := Option.some.inj step
        refine ⟨f, by rw [interfere_withFutures, calm], ?_⟩
        intro handle'
        rcases agree handle' with same | ⟨c', first⟩
        · rw [future_interfere]
          split
          · rename_i here
            subst here
            cases held : mid.future handle' with
            | pending => exact .inr ⟨c, actions, [], mid, rfl, front, held⟩
            | completed first => exact .inl (by rw [same, held]; rfl)
          · exact .inl same
        · exact .inr ⟨c', first.append _⟩
    | false =>
      -- both runs go on, and futures that hold the same are told the same
      rcases (move_of_step? step).exists_told own with ⟨news, told, others⟩
      rw [undisturbed_concat_of_own own]
      refine ⟨fun handle => (f handle).told (news handle), ?_, ?_⟩
      · exact steps?_concat_eq_some_iff.mpr ⟨_, calm, (others f).step?_eq⟩
      · intro handle
        rcases agree handle with same | ⟨c, first⟩
        · rw [told, ← same]
          exact .inl rfl
        · exact .inr ⟨c, first.append _⟩

/-- No client can stand in the way of a run. -/
theorem exists_disturbed {actions : List Action} {u : Service}
    (calm : Service.initial.steps? (undisturbed actions) = some u) :
    ∃ s, Service.initial.steps? actions = some s ∧ ∃ f, s.withFutures f = u := by
  induction actions using List.reverseRecOn generalizing u with
  | nil =>
    obtain rfl := Option.some.inj calm
    exact ⟨.initial, rfl, Service.initial.future, rfl⟩
  | append_singleton actions a ih =>
    cases own : a.interferes with
    | true =>
      rw [undisturbed_concat_of_interferes own] at calm
      rcases ih calm with ⟨mid, front, f, rfl⟩
      cases a with
      | start | stop | worker => cases own
      | interfere handle c =>
        exact ⟨(mid.interfere handle c).2, steps?_concat_eq_some_iff.mpr ⟨mid, front, rfl⟩, f,
          interfere_withFutures mid handle c f⟩
    | false =>
      rw [undisturbed_concat_of_own own] at calm
      rcases steps?_concat_eq_some_iff.mp calm with ⟨_, front', step⟩
      rcases ih front' with ⟨mid, front, f, rfl⟩
      rcases (move_of_step? step).exists_told own with ⟨news, told, others⟩
      -- the step is the same with the futures that the clients have left
      have back := others mid.future
      rw [withFutures_withFutures, withFutures_future] at back
      exact ⟨_, steps?_concat_eq_some_iff.mpr ⟨mid, front, back.step?_eq⟩, u.future, rfl⟩

/-- Without the clients' completions the service is the first all the more. -/
theorem ServiceFirst.undisturbed {actions : List Action} {handle : Handle} {c : Completion Phase}
    (h : ServiceFirst actions handle c) : ServiceFirst (undisturbed actions) handle c := by
  rcases h with ⟨earlier, a, later, mid, next, rfl, own, front, pending, step, done⟩
  rcases exists_undisturbed front with ⟨f, calm, agree⟩
  rcases (move_of_step? step).exists_told own with ⟨news, told, others⟩
  have same : f handle = .pending := by
    rcases agree handle with same | ⟨c', first⟩
    · rw [same, pending]
    · rw [future_of_clientFirst front first] at pending
      cases pending
  refine ⟨Service.undisturbed earlier, a, Service.undisturbed later, _, _, ?_, own, calm, ?_,
    (others f).step?_eq, ?_⟩
  · simp [Service.undisturbed, own]
  · rw [future_withFutures, same]
  · rw [future_withFutures, same, ← pending, ← told, done]

/-! ## Two runs -/

/-- That clients do not steer a service by completing its futures, said of two services that runs
with the same actions but for the clients' completions have led to. -/
structure Unsteered (actions actions' : List Action) (s s' : Service) : Prop where
  phases_eq : s.trail = s'.trail
  stopRequested_eq : s.stopRequested = s'.stopRequested
  hooks_eq : s.log = s'.log
  threads_eq : s.requests = s'.requests
  workers_eq : s.workers = s'.workers
  /-- A future differs only if in one of the runs a client was the first to complete it. -/
  differs : ∀ handle, s.future handle ≠ s'.future handle →
    ∃ c, ClientFirst actions handle c ∨ ClientFirst actions' handle c
  /-- What a client was the first to say is read, and nothing else has come of it. -/
  client_first : ∀ handle c, ClientFirst actions handle c → s.future handle = .completed c
  /-- What the service was the first to say is read, and in the other run too, unless a client is
  the first there. -/
  service_first : ∀ handle c, ServiceFirst actions handle c → s.future handle = .completed c ∧
    (s'.future handle = .completed c ∨ ∃ c', ClientFirst actions' handle c')

/-- Whatever clients set, fail or cancel at whatever points, a service goes the same way. -/
theorem exists_unsteered {actions actions' : List Action}
    (same : undisturbed actions = undisturbed actions') {s : Service}
    (run : Service.initial.steps? actions = some s) :
    ∃ s', Service.initial.steps? actions' = some s' ∧ Unsteered actions actions' s s' := by
  -- both runs are compared with the one that has no completions by clients
  rcases exists_undisturbed run with ⟨f, calm, agree⟩
  rw [same] at calm
  rcases exists_disturbed calm with ⟨s', run', -⟩
  rcases exists_undisturbed run' with ⟨f', calm', agree'⟩
  have alike : s.withFutures f = s'.withFutures f' := Option.some.inj (calm.symm.trans calm')
  have futures : ∀ handle, f handle = f' handle := by
    intro handle
    have held := congrArg (fun t => t.future handle) alike
    simpa using held
  refine ⟨s', run', ?_⟩
  constructor
  case phases_eq => exact (congrArg trail alike :)
  case stopRequested_eq => exact (congrArg Service.stopRequested alike :)
  case hooks_eq => exact (congrArg Service.log alike :)
  case threads_eq => exact (congrArg Service.requests alike :)
  case workers_eq => exact (congrArg Service.workers alike :)
  case differs =>
    intro handle other
    rcases agree handle with here | ⟨c, first⟩
    · rcases agree' handle with there | ⟨c, first⟩
      · rw [← here, futures, there] at other
        exact absurd rfl other
      · exact ⟨c, .inr first⟩
    · exact ⟨c, .inl first⟩
  case client_first =>
    intro handle c first
    exact future_of_clientFirst run first
  case service_first =>
    intro handle c first
    refine ⟨future_of_serviceFirst run first, ?_⟩
    rcases agree' handle with there | other
    · left
      have calmFirst := first.undisturbed
      rw [same] at calmFirst
      rw [← there, ← future_withFutures s' f' handle]
      exact future_of_serviceFirst calm' calmFirst
    · exact .inr other

/-- A client cancels the start before the service has started up, and another comes too late. -/
theorem unsteered_of_cancelled_start :
    undisturbed [.start, .interfere .start .cancelled, .worker 0 .granted, .worker 0 (.ended none),
        .worker 0 .reported] =
      undisturbed [.start, .worker 0 .granted, .worker 0 (.ended none), .worker 0 .reported,
        .interfere .start (.failed "too late")] ∧
    ∃ s', Service.initial.steps? [.start, .worker 0 .granted, .worker 0 (.ended none),
        .worker 0 .reported, .interfere .start (.failed "too late")] = some s' ∧
      Unsteered
        [.start, .interfere .start .cancelled, .worker 0 .granted, .worker 0 (.ended none),
          .worker 0 .reported]
        [.start, .worker 0 .granted, .worker 0 (.ended none), .worker 0 .reported,
          .interfere .start (.failed "too late")]
        ⟨.running, [.new, .starting], false, .completed .cancelled, .pending, [], 1, startedLog⟩
        s' :=
  ⟨rfl, exists_unsteered (by rfl) (by rfl)⟩

end Service

end Groundwork
