import Mathlib.Data.List.Induction
import Groundwork.Proofs.Threads.Isolation
import Groundwork.Threads.Floor

/-!
# Panics on threads

Which panics are noted, and where the others go, is settled when a factory hands a task on: the
handler is around the task then, whoever starts the thread and whatever name it gets. Each thread
runs its work once, so that the notes are told by the threads that have ended, in whatever order
they end.

* `Launch.entry?`: what the handler of a launch has to note, and `notes_work`, `panic_work`: what
  comes of the work.
* `Workshop.Launching` and `launching_perform`: what comes of an order. `Workshop.perform_withNotes`
  says that orders do not look at the notes.
* `Floor.exists_workshop_after`: a floor has the workshop of its orders, but for the notes.
* `Floor.getElem?_threads_happens`, `Floor.notes_perm_happens`: what an event does to a thread, and
  the entry that it adds.
* `Floor.exists_joined_at_once`: runs that join each thread at once.
* `PanicsNoted` and `panics_noted`: the notes and what joining tells, throughout every run.
-/

namespace Groundwork.Threads

/-! ## Work -/

/-- The panic that a task ends with. -/
def Task.panic? : Task → Option Panic
  | .finishes => none
  | .panics p => some p

/-- A text is reported as it is, whichever kind of text the payload is. -/
theorem Payload.message_panic (p : Payload) : p.panic.message = p.message := by
  cases p <;> rfl

namespace Launch

/-- The entry that the handler of a launch has to make once the work is done on a thread. -/
def entry? (l : Launch) (thread : Option String) : Option Note :=
  match l.handler, l.task with
  | some tag, .panics p => some ⟨tag, thread.getD "<unnamed>", p.message⟩
  | _, _ => none

variable (l : Launch)

theorem notes_work (thread : Option String) : (l.work thread).notes = (l.entry? thread).toList := by
  rcases l with ⟨spawner, blueprint, _ | tag, _ | p⟩ <;> rfl

theorem panic_work (thread : Option String) :
    (l.work thread).panic = if l.handler.isSome then none else l.task.panic? := by
  rcases l with ⟨spawner, blueprint, _ | tag, _ | p⟩ <;> rfl

/-- A thread that is joined at once tells what comes of its work. -/
theorem ofTask_eq (thread : Option String) : Joined.ofTask l.handler thread l.task =
    ⟨thread, (l.work thread).panic, (l.work thread).notes⟩ := by
  rcases l with ⟨spawner, blueprint, _ | tag, _ | p⟩ <;> rfl

end Launch

/-- The entry that a thread has left: none before it has ended. -/
def Thread.entry? (t : Thread) : Option Note :=
  if t.ended then t.launch.entry? t.name else none

theorem Thread.joined?_eq (t : Thread) : t.joined? =
    if t.ended then some (if t.launch.handler.isSome then none else t.launch.task.panic?)
    else none := by
  rw [joined?, ending, Launch.panic_work]

/-! ## Workshops -/

/-- The thread that was joined, if the order gave one. -/
def Delivery.joined? : Delivery → Option Joined
  | .joined thread => some thread
  | _ => none

/-- What is known of a thread once it has been joined. -/
def Thread.told (t : Thread) : Joined :=
  ⟨t.name, t.ending.panic, t.ending.notes⟩

namespace Workshop

variable (w : Workshop)

/-- The notes of a thread that is joined are those of its work. -/
theorem notes_joining (l : Launch) (answer : Except String (Option String)) :
    (w.joining l answer).2.notes =
      w.notes ++ (answer.toOption.map fun name => (l.work name).notes).getD [] := by
  cases answer with
  | ok name =>
    show w.notes ++ (Joined.ofTask l.handler name l.task).notes = _
    rw [l.ofTask_eq]
    rfl
  | error message => exact (List.append_nil _).symm

theorem joined?_joining (l : Launch) (answer : Except String (Option String)) :
    (w.joining l answer).1.joined? =
      answer.toOption.map fun name => ⟨name, (l.work name).panic, (l.work name).notes⟩ := by
  cases answer with
  | ok name => exact congrArg some (l.ofTask_eq name)
  | error message => rfl

/-- What comes of an order: the launch that it makes, if it makes one, and the thread, if that is
granted. -/
structure Launching (order : Order) (result : Delivery × Workshop) : Prop where
  joined?_eq : result.1.joined? = (w.thread? order).map Thread.told
  launches_eq : result.2.launches = w.launches ++ ((w.launch? order).map Prod.fst).toList
  calls_eq : result.2.calls =
    ((w.launch? order).map fun asked => (asked.1.start w.calls asked.2).2).getD w.calls
  notes_eq : result.2.notes = w.notes ++ ((w.thread? order).map fun t => t.ending.notes).getD []

section Launching

variable {w} {order : Order}

theorem launching_of_none {result : Delivery × Workshop} (asks : w.launch? order = none)
    (joined : result.1.joined? = none) (launches : result.2.launches = w.launches)
    (calls : result.2.calls = w.calls) (notes : result.2.notes = w.notes) :
    w.Launching order result := by
  have nothing : w.thread? order = none := by
    rw [thread?, asks, Option.bind_none]
  constructor
  case joined?_eq => rw [nothing, joined, Option.map_none]
  case launches_eq =>
    rw [asks, launches]
    exact (List.append_nil _).symm
  case calls_eq =>
    rw [asks, calls]
    rfl
  case notes_eq =>
    rw [nothing, notes]
    exact (List.append_nil _).symm

theorem launching_setting (asks : w.launch? order = none) (r : Except SetupError Settings) :
    w.Launching order (w.setting r) := by
  cases r <;> exact launching_of_none asks rfl rfl rfl rfl

theorem launching_launched {l : Launch} {systemRefusal : Option String}
    (asks : w.launch? order = some (l, systemRefusal)) (factories : List Factory) :
    w.Launching order ({ w with factories := factories }.launched l systemRefusal) := by
  have started : w.thread? order =
      (l.start w.calls systemRefusal).1.toOption.map fun name => ⟨l, name, false⟩ := by
    rw [thread?, asks, Option.bind_some]
  constructor
  case joined?_eq =>
    rw [started, launched, joined?_joining, Option.map_map]
    rfl
  case launches_eq =>
    rw [asks, launches_launched]
    rfl
  case calls_eq =>
    rw [asks, calls_launched]
    rfl
  case notes_eq =>
    rw [started, launched, notes_joining, Option.map_map]
    rfl

end Launching

theorem launching_perform (order : Order) : w.Launching order (w.perform order) := by
  cases order with
  | nameFormat format => exact launching_setting rfl (w.builder.withNameFormat format)
  | stackSize size => exact launching_setting rfl (w.builder.withStackSize size)
  | panicHandler tag => exact launching_of_none rfl rfl rfl rfl rfl
  | spawner s => exact launching_of_none rfl rfl rfl rfl rfl
  | build => exact launching_of_none rfl rfl rfl rfl rfl
  | spawn index task systemRefusal =>
    cases found : w.factories[index]? with
    | none =>
      rw [perform_spawn_of_none found]
      refine launching_of_none ?_ rfl rfl rfl rfl
      rw [launch?, found, Option.map_none]
    | some f =>
      rw [perform_spawn_of_some found]
      apply launching_launched
      rw [launch?, found, Option.map_some]
  | defaultSpawn task systemRefusal => exact launching_launched rfl w.factories

/-- Orders do not look at the notes. -/
theorem perform_withNotes (notes kept : List Note) (order : Order) :
    { ({ w with notes := notes }.perform order).2 with notes := kept } =
      { (w.perform order).2 with notes := kept } := by
  have performed := performed_perform w order
  have performed' := performed_perform { w with notes := notes } order
  have same : { w with notes := notes }.launch? order = w.launch? order := by
    cases order <;> rfl
  have launching := w.launching_perform order
  have launching' := { w with notes := notes }.launching_perform order
  show Workshop.mk _ _ _ _ kept = Workshop.mk _ _ _ _ kept
  rw [performed.builder_eq, performed.factories_eq, launching.launches_eq, launching.calls_eq,
    performed'.builder_eq, performed'.factories_eq, launching'.launches_eq, launching'.calls_eq,
    same]

/-- A thread that is started has not ended. -/
theorem ended_of_thread? {order : Order} {t : Thread} (h : w.thread? order = some t) :
    t.ended = false := by
  obtain ⟨asked, -, started⟩ := Option.bind_eq_some_iff.mp h
  obtain ⟨name, -, rfl⟩ := Option.map_eq_some_iff.mp started
  rfl

end Workshop

/-! ## Floors -/

/-- The orders among some events. -/
def ordersAmong (events : List Event) : List Order :=
  events.filterMap Event.order?

/-- Whether an event is the end of the thread at `index`. -/
def Event.isEndOf (index : Nat) : Event → Bool
  | .order _ => false
  | .ends thread => thread == index

namespace Floor

/-- A thread ends if it is there and runs, and then it is the only one that changes. -/
theorem happens_ends (f : Floor) (index : Nat) :
    (∀ t, f.threads[index]? = some t → t.ended = true) ∧ f.happens (.ends index) = f ∨
    ∃ older t newer, f.threads = older ++ t :: newer ∧ older.length = index ∧ t.ended = false ∧
      f.happens (.ends index) =
        ⟨{ f.workshop with notes := f.workshop.notes ++ t.ending.notes },
          older ++ { t with ended := true } :: newer⟩ := by
  simp only [happens]
  cases there : f.threads[index]? with
  | none => exact .inl ⟨nofun, rfl⟩
  | some t =>
    by_cases ended : t.ended = true
    · left
      refine ⟨?_, if_pos ended⟩
      rintro _ ⟨⟩
      exact ended
    · obtain ⟨inside, rfl⟩ := List.getElem?_eq_some_iff.mp there
      obtain ⟨older, newer, threads, length, changed⟩ :=
        @List.exists_of_set _ index { f.threads[index] with ended := true } _ inside
      refine .inr ⟨older, f.threads[index], newer, threads, length, eq_false_of_ne_true ended, ?_⟩
      show (if f.threads[index].ended then f else _) = _
      rw [if_neg ended, changed]

theorem after_concat (f : Floor) (events : List Event) (event : Event) :
    f.after (events ++ [event]) = (f.after events).happens event :=
  List.foldl_append

/-- A floor has the workshop of its orders, but for the notes: those are taken when threads end. -/
theorem exists_workshop_after (events : List Event) : ∃ notes, (initial.after events).workshop =
    { Workshop.initial.after (ordersAmong events) with notes := notes } := by
  induction events using List.reverseRecOn with
  | nil => exact ⟨[], rfl⟩
  | append_singleton events event ih =>
    obtain ⟨notes, same⟩ := ih
    rw [after_concat, ordersAmong, List.filterMap_append, ← ordersAmong, Workshop.after_append]
    cases event with
    | order o =>
      refine ⟨(initial.after events).workshop.notes, ?_⟩
      show { ((initial.after events).workshop.perform o).2 with
        notes := (initial.after events).workshop.notes } = _
      rw [same, Workshop.perform_withNotes]
      rfl
    | ends index =>
      rcases happens_ends (initial.after events) index with
        ⟨-, nothing⟩ | ⟨older, t, newer, -, -, -, ends⟩
      · rw [nothing]
        exact ⟨notes, same⟩
      · rw [ends, same]
        exact ⟨_, rfl⟩

/-- A factory stands where it was built, with the settings from then. -/
theorem getElem?_factories_after (before later : List Event) :
    (initial.after (before ++ .order .build :: later)).workshop.factories[
      builds (ordersAmong before)]? = some (.asked (settingsAfter (ordersAmong before))
        (requests (builds (ordersAmong before)) (ordersAmong later))) := by
  obtain ⟨notes, same⟩ := exists_workshop_after (before ++ .order .build :: later)
  rw [same, ordersAmong, List.filterMap_append]
  exact Workshop.getElem?_factories_after_build (ordersAmong before) (ordersAmong later)

/-! ## One event -/

variable {f : Floor}

/-- An order leaves all threads as they are, and the end of a thread all others. -/
theorem getElem?_threads_happens {index : Nat} {t : Thread} (h : f.threads[index]? = some t)
    (event : Event) : (f.happens event).threads[index]? =
      some { t with ended := t.ended || event.isEndOf index } := by
  cases event with
  | order o =>
    show (f.threads ++ _)[index]? = some { t with ended := t.ended || false }
    rw [List.getElem?_append_left (List.getElem?_eq_some_iff.mp h).1, Bool.or_false]
    exact h
  | ends other =>
    show _ = some { t with ended := t.ended || other == index }
    rcases f.happens_ends other with
      ⟨already, nothing⟩ | ⟨older, u, newer, threads, length, running, ends⟩
    · rw [nothing, h]
      by_cases same : other = index
      · have ended : t.ended = true := already t (same ▸ h)
        rw [ended, Bool.true_or, ← ended]
      · rw [beq_eq_false_iff_ne.mpr same, Bool.or_false]
    · rw [threads] at h
      rw [ends, ← length]
      rcases Nat.lt_trichotomy index older.length with early | same | late
      · rw [List.getElem?_append_left early] at h ⊢
        rw [beq_eq_false_iff_ne.mpr (Nat.ne_of_gt early), Bool.or_false]
        exact h
      · rw [List.getElem?_append_right (Nat.le_of_eq same.symm), same, Nat.sub_self] at h ⊢
        obtain rfl : u = t := Option.some.inj h
        rw [beq_self_eq_true, Bool.or_true]
        rfl
      · obtain ⟨k, rfl⟩ := Nat.exists_eq_add_of_lt late
        rw [beq_eq_false_iff_ne.mpr (Nat.ne_of_lt late), Bool.or_false]
        rw [List.getElem?_append_right (Nat.le_of_lt late), Nat.add_assoc,
          Nat.add_sub_cancel_left] at h ⊢
        exact h

/-- What a request makes of the threads, by the answer of whoever starts the thread: one more that
runs, or none. -/
inductive Starts (l : Launch) (threads : List Thread) :
    (answer : Except String (Option String)) → List Thread → Prop where
  | refused (message : String) : Starts l threads (.error message) threads
  | started (name : Option String) : Starts l threads (.ok name) (threads ++ [⟨l, name, false⟩])

/-- A request to a factory that was asked for `k` threads starts one if it is granted. -/
theorem starts_happens_spawn {index k : Nat} {s : Settings}
    (h : f.workshop.factories[index]? = some (.asked s k)) (task : Task)
    (systemRefusal : Option String) :
    Starts (s.launch k task) f.threads
      ((s.launch k task).start f.workshop.calls systemRefusal).1
      (f.happens (.order (.spawn index task systemRefusal))).threads := by
  simp only [happens, Workshop.thread?, Workshop.launch?, h, Option.map_some, Option.bind_some,
    Factory.launch_asked]
  cases ((s.launch k task).start f.workshop.calls systemRefusal).1 with
  | ok name => exact .started name
  | error message =>
    show Starts _ _ _ (f.threads ++ [])
    rw [List.append_nil]
    exact .refused message

theorem threads_happens_of_quiet {o : Order} (h : o.asksForThread = false) :
    (f.happens (.order o)).threads = f.threads := by
  cases o with
  | spawn index task systemRefusal => nomatch h
  | defaultSpawn task systemRefusal => nomatch h
  | _ => exact List.append_nil _

/-- The notes hold one entry for each thread that has one to leave. The thread that ends adds its
own and no other. -/
theorem notes_perm_happens (h : f.workshop.notes.Perm (f.threads.filterMap Thread.entry?))
    (event : Event) :
    (f.happens event).workshop.notes.Perm ((f.happens event).threads.filterMap Thread.entry?) := by
  cases event with
  | order o =>
    have running : (f.workshop.thread? o).toList.filterMap Thread.entry? = [] := by
      rw [List.filterMap_eq_nil_iff]
      intro t started
      rw [Thread.entry?, f.workshop.ended_of_thread? (Option.mem_toList.mp started)]
      rfl
    show f.workshop.notes.Perm ((f.threads ++ _).filterMap _)
    rw [List.filterMap_append, running, List.append_nil]
    exact h
  | ends index =>
    rcases f.happens_ends index with
      ⟨-, nothing⟩ | ⟨older, t, newer, threads, -, running, ends⟩
    · rw [nothing]
      exact h
    · have quiet : t.entry? = none := if_neg (Bool.eq_false_iff.mp running)
      have entry : ([{ t with ended := true }] : List Thread).filterMap Thread.entry? =
          t.ending.notes := by
        rw [Thread.ending, Launch.notes_work]
        cases entered : t.launch.entry? t.name with
        | none => exact List.filterMap_cons_none entered
        | some note => exact List.filterMap_cons_some entered
      rw [threads, List.filterMap_append, List.filterMap_cons_none quiet] at h
      rw [ends]
      -- the entry comes last in the notes, and among the threads where the thread stands
      show (f.workshop.notes ++ t.ending.notes).Perm ((older ++ ([_] ++ newer)).filterMap _)
      rw [List.filterMap_append, List.filterMap_append, entry]
      have own : (older.filterMap Thread.entry? ++ newer.filterMap Thread.entry? ++
          t.ending.notes).Perm (older.filterMap Thread.entry? ++
            (t.ending.notes ++ newer.filterMap Thread.entry?)) := by
        rw [List.append_assoc]
        exact List.perm_append_comm.append_left _
      exact (h.append_right t.ending.notes).trans own

theorem notes_perm_after (events : List Event) : (initial.after events).workshop.notes.Perm
    ((initial.after events).threads.filterMap Thread.entry?) := by
  induction events using List.reverseRecOn with
  | nil => exact .nil
  | append_singleton events event ih =>
    rw [after_concat]
    exact notes_perm_happens ih event

/-! ## Threads that are joined at once -/

theorem happens_order_of_none {f : Floor} {o : Order} (h : f.workshop.thread? o = none) :
    f.happens (.order o) = ⟨(f.workshop.perform o).2, f.threads⟩ := by
  have notes : (f.workshop.perform o).2.notes = f.workshop.notes := by
    rw [(Workshop.launching_perform _ o).notes_eq, h]
    exact List.append_nil _
  simp only [happens, h, ← notes]
  exact congrArg (mk _) (List.append_nil _)

/-- The workshop cannot tell a thread that ends at once from one that was joined. -/
theorem happens_order_ends {f : Floor} {o : Order} {t : Thread}
    (h : f.workshop.thread? o = some t) :
    (f.happens (.order o)).happens (.ends f.threads.length) =
      ⟨(f.workshop.perform o).2, f.threads ++ [{ t with ended := true }]⟩ := by
  have notes : (f.workshop.perform o).2.notes = f.workshop.notes ++ t.ending.notes := by
    rw [(Workshop.launching_perform _ o).notes_eq, h]
    rfl
  have running : ¬t.ended = true := Bool.eq_false_iff.mp (f.workshop.ended_of_thread? h)
  have last : (f.threads ++ [t])[f.threads.length]? = some t := List.getElem?_concat_length
  simp only [happens, h, Option.toList_some, last, if_neg running, ← notes]
  rw [List.set_append_right _ _ (Nat.le_refl _), Nat.sub_self]
  rfl

/-- A run that joins each thread at once is one of those in which threads end in any order. -/
theorem exists_joined_at_once (orders : List Order) : ∃ events, ordersAmong events = orders ∧
    (initial.after events).workshop = Workshop.initial.after orders ∧
    (∀ t ∈ (initial.after events).threads, t.ended = true) ∧
    (initial.after events).threads.map Thread.told =
      (Workshop.initial.run orders).filterMap fun step => step.1.joined? := by
  induction orders using List.reverseRecOn with
  | nil => exact ⟨[], rfl, rfl, nofun, rfl⟩
  | append_singleton orders o ih =>
    obtain ⟨events, among, workshop, ended, told⟩ := ih
    have delivered : (Workshop.initial.run (orders ++ [o])).filterMap (fun step => step.1.joined?) =
        (initial.after events).threads.map Thread.told ++
          (((initial.after events).workshop.thread? o).map Thread.told).toList := by
      rw [Workshop.run_append, List.filterMap_append, told, ← workshop,
        ← (Workshop.launching_perform _ o).joined?_eq]
      cases joined : ((initial.after events).workshop.perform o).1.joined? with
      | none => exact congrArg _ (List.filterMap_cons_none joined)
      | some thread => exact congrArg _ (List.filterMap_cons_some joined)
    rw [delivered, Workshop.after_append, ← workshop]
    cases started : (initial.after events).workshop.thread? o with
    | none =>
      refine ⟨events ++ [.order o], ?_, ?_⟩
      · rw [ordersAmong, List.filterMap_append, ← ordersAmong, among]
        rfl
      · rw [after_concat, happens_order_of_none started]
        exact ⟨rfl, ended, (List.append_nil _).symm⟩
    | some t =>
      refine ⟨events ++ [.order o] ++ [.ends (initial.after events).threads.length], ?_, ?_⟩
      · rw [ordersAmong, List.filterMap_append, List.filterMap_append, ← ordersAmong, among]
        exact List.append_nil _
      · rw [after_concat, after_concat, happens_order_ends started]
        refine ⟨rfl, ?_, List.map_append⟩
        intro u inside
        rcases List.mem_append.mp inside with older | new
        · exact ended u older
        · rw [List.mem_singleton.mp new]

end Floor

/-! ## Panics -/

/-- What is known of the notes and of the threads on a floor after some events. -/
structure PanicsNoted (events : List Event) (f : Floor) : Prop where
  /-- The notes hold one entry for each thread that has one to leave, and no others. -/
  notes_perm : f.workshop.notes.Perm (f.threads.filterMap Thread.entry?)
  /-- A thread that has ended has one to leave if there was a handler around its work and the work
  panicked. The entry has the name that the thread runs under. -/
  entry_eq : ∀ t ∈ f.threads, ∀ payload, t.launch.task = .ofPayload payload → t.entry? =
    match t.ended, t.launch.handler, payload with
    | true, some tag, some p => some ⟨tag, t.name.getD "<unnamed>", p.message⟩
    | _, _, _ => none
  /-- A thread can be joined once it has ended. With a handler it tells of no panic. -/
  joined_eq : ∀ t ∈ f.threads, ∀ payload, t.launch.task = .ofPayload payload → t.joined? =
    match t.ended, t.launch.handler with
    | false, _ => none
    | true, some _ => some none
    | true, none => some (payload.map Payload.panic)
  /-- A request to a factory starts one thread, with the handler that the factory was built with and
  under the name that the spawner chose, or the spawner refuses and there is none. Without a spawner
  the thread has the name that was asked for, unless the system refuses. -/
  starts : ∀ before later, events = before ++ .order .build :: later →
    ∀ payload systemRefusal,
      let index := builds (ordersAmong before)
      let settings := settingsAfter (ordersAmong before)
      let launch := settings.launch (requests index (ordersAmong later)) (.ofPayload payload)
      let after := f.happens (.order (.spawn index (.ofPayload payload) systemRefusal))
      (∀ spawner, settings.spawner = some spawner → Floor.Starts launch f.threads
        (spawner f.workshop.calls.length launch.blueprint) after.threads) ∧
      (settings.spawner = none → systemRefusal = none →
        Floor.Starts launch f.threads (.ok launch.blueprint.name) after.threads) ∧
      (settings.spawner = none → ∀ message, systemRefusal = some message →
        Floor.Starts launch f.threads (.error message) after.threads)
  /-- Only requests start threads. -/
  quiet : ∀ order, order.asksForThread = false →
    (f.happens (.order order)).threads = f.threads
  /-- A thread stays what it is, and it ends when it is said to and not before. -/
  kept : ∀ (index : Nat) t, f.threads[index]? = some t → ∀ event,
    (f.happens event).threads[index]? =
    some { t with ended := t.ended || event.isEndOf index }

/-- Panics are noted once each and by the handlers they belong to, throughout every run, whatever
the threads are named and in whatever order they end. The runs that join each thread at once are
among them. -/
theorem panics_noted :
    (∀ events, PanicsNoted events (Floor.initial.after events)) ∧
    ∀ orders, ∃ events, ordersAmong events = orders ∧
      (Floor.initial.after events).workshop = Workshop.initial.after orders ∧
      (∀ t ∈ (Floor.initial.after events).threads, t.ended = true) ∧
      (Floor.initial.after events).threads.map Thread.told =
        (Workshop.initial.run orders).filterMap fun step => step.1.joined? := by
  refine ⟨fun events => ?_, Floor.exists_joined_at_once⟩
  constructor
  case notes_perm => exact Floor.notes_perm_after events
  case entry_eq =>
    rintro ⟨⟨spawner, blueprint, handler, task⟩, name, ended⟩ - payload rfl
    rcases ended with _ | _ <;> rcases handler with _ | tag <;> rcases payload with _ | p
    case true.some.some =>
      show some (Note.mk tag (name.getD "<unnamed>") p.panic.message) = _
      rw [p.message_panic]
    all_goals rfl
  case joined_eq =>
    rintro ⟨⟨spawner, blueprint, handler, task⟩, name, ended⟩ - payload rfl
    rw [Thread.joined?_eq]
    rcases ended with _ | _ <;> rcases handler with _ | tag <;> rcases payload with _ | p <;> rfl
  case starts =>
    rintro before later rfl payload systemRefusal
    have starts := Floor.starts_happens_spawn (Floor.getElem?_factories_after before later)
      (.ofPayload payload) systemRefusal
    refine ⟨?_, ?_, ?_⟩
    · intro spawner set
      rwa [Settings.start_launch_of_some _ _ _ set] at starts
    · rintro unset rfl
      rwa [(Settings.start_launch_of_none _ _ _ unset).1] at starts
    · rintro unset message rfl
      rwa [(Settings.start_launch_of_none _ _ _ unset).2] at starts
  case quiet =>
    intro order quiet
    exact Floor.threads_happens_of_quiet quiet
  case kept =>
    intro index t there event
    exact Floor.getElem?_threads_happens there event

-- A factory keeps the handler that it was built with, and the entries come as the threads end.
example : (Floor.initial.after [.order (.panicHandler "first"), .order .build,
    .order (.panicHandler "second"), .order (.spawner (.renamedTo 7)), .order .build,
    .order (.spawn 0 (.panics .other)), .order (.spawn 1 (.panics (.text "bad input"))),
    .order (.spawn 0 .finishes), .ends 1, .ends 2, .ends 0, .ends 1]).workshop.notes =
      [⟨"second", "renamed-7", "bad input"⟩,
        ⟨"first", "<unnamed>", "<non-string panic payload>"⟩] := by
  decide

end Groundwork.Threads
