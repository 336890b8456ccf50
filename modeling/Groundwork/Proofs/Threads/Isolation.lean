import Groundwork.Threads.Factory

/-!
# Factories from one builder

What a factory hands on is told by the orders alone: by the settings that were in force when it was
built, and by how many threads it has been asked for since. Nothing else that was ordered matters,
whether of the builder or of the other factories.

* `settingsAfter`: the settings in force after some orders.
* `builds` and `requests`: how many factories they build and how often they ask one for a thread.
* `Settings.launch`: what a factory with some settings hands on for its request number `k`.
* `Tells` and `Delivers`: what joining a thread tells of its task, and what is delivered for a
  request, by the answer of whoever starts the thread.
* `Performed` and `performed_perform`: what one order does to the builder and to the factories.
* `Factory.asked` and `getElem?_onFactories`: the state of a factory after `k` requests, and which
  orders move it on.
* `builder_after` and `getElem?_factories_after`: the builder and a factory throughout a run.
* `Isolated` and `factories_isolated`: what is ordered of one factory and what comes of it.
-/

namespace Groundwork.Threads

/-! ## What is told by the orders -/

namespace Order

/-- The name format that an order sets. One that is refused sets none. -/
def nameFormat? : Order → Option NameFormat
  | nameFormat format => (NameFormat.ofString format).toOption
  | _ => none

/-- The stack size that an order sets. One that is refused sets none. -/
def stackSize? : Order → Option Nat
  | stackSize size => if size = 0 then none else some size
  | _ => none

/-- The panic handler that an order sets. -/
def panicHandler? : Order → Option String
  | panicHandler tag => some tag
  | _ => none

/-- The spawner that an order sets. -/
def spawner? : Order → Option Spawner
  | spawner s => some s
  | _ => none

/-- Whether an order builds a factory. -/
def isBuild : Order → Bool
  | build => true
  | _ => false

/-- Whether an order asks the factory at `index` for a thread. -/
def asks (index : Nat) : Order → Bool
  | spawn factory _ _ => factory == index
  | _ => false

/-- Whether an order asks for a thread. -/
def asksForThread : Order → Bool
  | spawn _ _ _ => true
  | defaultSpawn _ _ => true
  | _ => false

end Order

/-- The settings in force after some orders: of each kind the last that was not refused. -/
def settingsAfter (orders : List Order) : Settings where
  nameFormat := (orders.filterMap Order.nameFormat?).getLast?
  stackSize := (orders.filterMap Order.stackSize?).getLast?
  panicHandler := (orders.filterMap Order.panicHandler?).getLast?
  spawner := (orders.filterMap Order.spawner?).getLast?

/-- How many factories some orders build. -/
def builds (orders : List Order) : Nat :=
  orders.countP Order.isBuild

/-- How often some orders ask the factory at `index` for a thread, whatever comes of it. -/
def requests (index : Nat) (orders : List Order) : Nat :=
  orders.countP (Order.asks index)

theorem builds_cons (order : Order) (more : List Order) :
    builds (order :: more) = (if order.isBuild then 1 else 0) + builds more := by
  rw [builds, List.countP_cons, Nat.add_comm]
  rfl

theorem requests_cons (index : Nat) (order : Order) (more : List Order) :
    requests index (order :: more) =
      (if order.asks index then 1 else 0) + requests index more := by
  rw [requests, List.countP_cons, Nat.add_comm]
  rfl

/-- What the thread is to be like that a factory with the settings `s` is asked for by its request
number `k`. -/
def Settings.blueprint (s : Settings) (k : Nat) : Blueprint where
  name := s.nameFormat.map fun format => format.name (k % UInt64.size)
  stackSize := s.stackSize

/-- What a factory with the settings `s` hands on for its request number `k`. -/
def Settings.launch (s : Settings) (k : Nat) (task : Task) : Launch where
  spawner := s.spawner
  blueprint := s.blueprint k
  handler := s.panicHandler
  task := task

section Starting

variable {s : Settings} (k : Nat) (task : Task) (calls : List SpawnerCall)

/-- With a spawner it is called once, and it has the answer. -/
theorem Settings.start_launch_of_some {spawner : Spawner} (set : s.spawner = some spawner)
    (systemRefusal : Option String) : (s.launch k task).start calls systemRefusal =
      (spawner calls.length (s.blueprint k),
        calls ++ [⟨spawner, s.blueprint k, spawner calls.length (s.blueprint k)⟩]) := by
  simp only [Launch.start, launch, set]
  rfl

/-- Without a spawner none is called, and the system has the answer. -/
theorem Settings.start_launch_of_none (unset : s.spawner = none) :
    (s.launch k task).start calls none = (.ok (s.blueprint k).name, calls) ∧
      ∀ message, (s.launch k task).start calls (some message) = (.error message, calls) := by
  simp only [Launch.start, launch, unset, implies_true, and_self]

end Starting

/-! ## What is delivered -/

/-- What joining a thread of some name tells of a task that it ran. A handler notes a panic and
keeps it from whoever joins the thread. -/
inductive Tells : (handler name : Option String) → Task → Joined → Prop where
  | finished (handler name : Option String) : Tells handler name .finishes ⟨name, none, []⟩
  | noted (tag : String) (name : Option String) (text : String) :
      Tells (some tag) name (.panics (.text text))
        ⟨name, none, [⟨tag, name.getD "<unnamed>", text⟩]⟩
  | notedOther (tag : String) (name : Option String) :
      Tells (some tag) name (.panics .other)
        ⟨name, none, [⟨tag, name.getD "<unnamed>", "<non-string panic payload>"⟩]⟩
  | unhandled (name : Option String) (p : Panic) :
      Tells none name (.panics p) ⟨name, some p, []⟩

/-- What is delivered for a request, by the answer of whoever starts the thread: the message of a
refusal, or what joining the thread tells that was started. -/
inductive Delivers (handler : Option String) (task : Task) :
    (answer : Except String (Option String)) → Delivery → Prop where
  | refused (message : String) : Delivers handler task (.error message) (.refused message)
  | joined {name : Option String} {thread : Joined} (tells : Tells handler name task thread) :
      Delivers handler task (.ok name) (.joined thread)

theorem Delivers.eq_refused {handler : Option String} {task : Task} {message : String}
    {delivery : Delivery} (h : Delivers handler task (.error message) delivery) :
    delivery = .refused message := by
  cases h
  rfl

theorem tells_ofTask (handler name : Option String) (task : Task) :
    Tells handler name task (.ofTask handler name task) := by
  cases task with
  | finishes => exact .finished handler name
  | panics p =>
    cases handler with
    | none => exact .unhandled name p
    | some tag =>
      cases p with
      | text text => exact .noted tag name text
      | other => exact .notedOther tag name

/-! ## One order -/

/-- The settings in force after one more order. -/
def Settings.updated (s : Settings) (order : Order) : Settings where
  nameFormat := order.nameFormat?.or s.nameFormat
  stackSize := order.stackSize?.or s.stackSize
  panicHandler := order.panicHandler?.or s.panicHandler
  spawner := order.spawner?.or s.spawner

/-- What an order does to the factories while the settings `s` are in force. -/
def Order.onFactories (s : Settings) (factories : List Factory) : Order → List Factory
  | build => factories ++ [.ofSettings s]
  | spawn index _ _ => factories.modify index fun f => f.takeName.2
  | _ => factories

theorem getLast?_filterMap_concat {α β : Type} (f : α → Option β) (xs : List α) (x : α) :
    ((xs ++ [x]).filterMap f).getLast? = (f x).or (xs.filterMap f).getLast? := by
  rw [List.filterMap_append, List.getLast?_append]
  cases h : f x with
  | none => rw [List.filterMap_cons_none h, List.filterMap_nil, List.getLast?_nil]
  | some y => rw [List.filterMap_cons_some h, List.filterMap_nil, List.getLast?_singleton]

theorem settingsAfter_concat (orders : List Order) (order : Order) :
    settingsAfter (orders ++ [order]) = (settingsAfter orders).updated order := by
  simp only [settingsAfter, Settings.updated, getLast?_filterMap_concat]

/-- Building a factory sets nothing. -/
theorem settingsAfter_build (before later : List Order) :
    settingsAfter (before ++ .build :: later) = settingsAfter (before ++ later) := by
  simp only [settingsAfter, List.filterMap_append]
  rfl

/-- A name format is set if it is one, and otherwise all settings stay. -/
theorem Settings.updated_nameFormat (s : Settings) (format : String) :
    s.updated (.nameFormat format) = (s.withNameFormat format).toOption.getD s := by
  simp only [updated, withNameFormat, Order.nameFormat?]
  cases NameFormat.ofString format <;> rfl

/-- A stack size is set unless it is zero, and otherwise all settings stay. -/
theorem Settings.updated_stackSize (s : Settings) (size : Nat) :
    s.updated (.stackSize size) = (s.withStackSize size).toOption.getD s := by
  simp only [updated, withStackSize, Order.stackSize?]
  by_cases zero : size = 0
  · rw [if_pos zero, if_pos zero]
    rfl
  · rw [if_neg zero, if_neg zero]
    rfl

namespace Workshop

/-- What an order does to a workshop, whatever is delivered. -/
structure Performed (w : Workshop) (order : Order) (result : Delivery × Workshop) : Prop where
  builder_eq : result.2.builder = w.builder.updated order
  factories_eq : result.2.factories = order.onFactories w.builder w.factories
  /-- Only requests for threads make launches. -/
  launches_eq : order.asksForThread = false → result.2.launches = w.launches
  /-- An order that is rejected changes nothing. -/
  of_rejected : ∀ e, result.1 = .rejected e → result.2 = w

variable {w : Workshop} {order : Order}

theorem performed_setting {r : Except SetupError Settings}
    (sets : w.builder.updated order = r.toOption.getD w.builder)
    (keeps : order.onFactories w.builder w.factories = w.factories) :
    Performed w order (w.setting r) := by
  cases r with
  | ok s => exact ⟨sets.symm, keeps.symm, fun _ => rfl, nofun⟩
  | error e => exact ⟨sets.symm, keeps.symm, fun _ => rfl, fun _ _ => rfl⟩

/-- A launch may be refused, but it is not rejected: it has been made. -/
theorem performed_launched {factories : List Factory} {l : Launch} {systemRefusal : Option String}
    (asks : order.asksForThread = true) (keeps : w.builder.updated order = w.builder)
    (leaves : order.onFactories w.builder w.factories = factories) :
    Performed w order ({ w with factories := factories }.launched l systemRefusal) := by
  have loud : order.asksForThread ≠ false := by
    rw [asks]
    nofun
  show Performed w order (joining _ l (l.start w.calls systemRefusal).1)
  cases (l.start w.calls systemRefusal).1 with
  | ok name => exact ⟨keeps.symm, leaves.symm, fun quiet => absurd quiet loud, nofun⟩
  | error message => exact ⟨keeps.symm, leaves.symm, fun quiet => absurd quiet loud, nofun⟩

/-- A request to a factory that is not there does nothing. -/
theorem perform_spawn_of_none {index : Nat} (missing : w.factories[index]? = none) (task : Task)
    (systemRefusal : Option String) :
    w.perform (.spawn index task systemRefusal) = (.noSuchFactory, w) := by
  simp only [perform, missing]

/-- A request takes the next name of the factory that is asked, then it does the launch. -/
theorem perform_spawn_of_some {index : Nat} {f : Factory} (found : w.factories[index]? = some f)
    (task : Task) (systemRefusal : Option String) :
    w.perform (.spawn index task systemRefusal) =
      { w with factories := w.factories.set index (f.launch task).2 }.launched
        (f.launch task).1 systemRefusal := by
  simp only [perform, found]

variable (w)

theorem performed_perform (order : Order) : Performed w order (w.perform order) := by
  cases order with
  | nameFormat format =>
    apply performed_setting
    · exact Settings.updated_nameFormat w.builder format
    · rfl
  | stackSize size =>
    apply performed_setting
    · exact Settings.updated_stackSize w.builder size
    · rfl
  | panicHandler tag =>
    show Performed w _ (w.setting (.ok _))
    exact performed_setting rfl rfl
  | spawner s =>
    show Performed w _ (w.setting (.ok _))
    exact performed_setting rfl rfl
  | build => exact ⟨rfl, rfl, fun _ => rfl, nofun⟩
  | spawn index task systemRefusal =>
    cases found : w.factories[index]? with
    | none =>
      have nothing : w.factories.modify index (fun f => f.takeName.2) = w.factories :=
        List.modify_eq_self (List.getElem?_eq_none_iff.mp found)
      rw [perform_spawn_of_none found]
      exact ⟨rfl, nothing.symm, nofun, nofun⟩
    | some f =>
      -- a request changes the factory that is asked and leaves it where it is
      have : Inhabited Factory := ⟨f⟩
      have asked : w.factories.modify index (fun f => f.takeName.2) =
          w.factories.set index (f.launch task).2 := by
        rw [List.modify_eq_set, found]
        rfl
      rw [perform_spawn_of_some found]
      exact performed_launched rfl rfl asked
  | defaultSpawn task systemRefusal => exact performed_launched rfl rfl rfl

/-! ## Launches -/

/-- Joining a thread adds to the notes and to nothing else. -/
theorem exists_joining_eq (l : Launch) (answer : Except String (Option String)) :
    ∃ notes, (w.joining l answer).2 = { w with notes := notes } := by
  cases answer with
  | ok name => exact ⟨_, rfl⟩
  | error message => exact ⟨w.notes, rfl⟩

theorem launches_launched (l : Launch) (systemRefusal : Option String) :
    (w.launched l systemRefusal).2.launches = w.launches ++ [l] := by
  rcases exists_joining_eq _ l (l.start w.calls systemRefusal).1 with ⟨notes, same⟩
  exact congrArg launches same

theorem calls_launched (l : Launch) (systemRefusal : Option String) :
    (w.launched l systemRefusal).2.calls = (l.start w.calls systemRefusal).2 := by
  rcases exists_joining_eq _ l (l.start w.calls systemRefusal).1 with ⟨notes, same⟩
  exact congrArg calls same

theorem delivers_launched (l : Launch) (systemRefusal : Option String) :
    Delivers l.handler l.task (l.start w.calls systemRefusal).1
      (w.launched l systemRefusal).1 := by
  show Delivers _ _ _ (joining _ l (l.start w.calls systemRefusal).1).1
  cases (l.start w.calls systemRefusal).1 with
  | ok name => exact .joined (tells_ofTask l.handler name l.task)
  | error message => exact .refused message

/-- Only requests to factories call spawners. -/
theorem calls_perform {order : Order} (h : ∀ index, order.asks index = false) :
    (w.perform order).2.calls = w.calls := by
  have setting : ∀ r, (w.setting r).2.calls = w.calls := by
    intro r
    cases r <;> rfl
  cases order with
  | nameFormat format => exact setting _
  | stackSize size => exact setting _
  | panicHandler tag => rfl
  | spawner s => rfl
  | build => rfl
  | spawn index task systemRefusal =>
    have asked : Order.asks index (.spawn index task systemRefusal) = true := beq_self_eq_true index
    rw [h index] at asked
    cases asked
  | defaultSpawn task systemRefusal =>
    refine (calls_launched w _ systemRefusal).trans ?_
    cases systemRefusal <;> rfl

end Workshop

/-! ## The number of a factory -/

/-- A factory with the settings `s` that was asked for `k` threads. -/
def Factory.asked (s : Settings) (k : Nat) : Factory where
  settings := s
  next := if s.nameFormat.isSome then .ofNat k else 0

theorem Factory.ofSettings_eq (s : Settings) : ofSettings s = asked s 0 := by
  unfold ofSettings asked
  split <;> rfl

/-- A factory that was asked for `k` threads hands on its request number `k`. -/
theorem Factory.launch_asked (s : Settings) (k : Nat) (task : Task) :
    (asked s k).launch task = (s.launch k task, asked s (k + 1)) := by
  rcases s with ⟨_ | format, stackSize, panicHandler, spawner⟩
  · -- without a format nothing is counted
    rfl
  · have next : UInt64.ofNat (k + 1) = UInt64.ofNat k + 1 := UInt64.ofNat_add k 1
    simp only [launch, takeName, asked, Option.isSome_some, if_true, next]
    rfl

theorem Factory.takeName_asked (s : Settings) (k : Nat) :
    (asked s k).takeName.2 = asked s (k + 1) :=
  congrArg Prod.snd (launch_asked s k .finishes)

/-- Of all orders only a request to the factory itself moves its number on. -/
theorem getElem?_onFactories {factories : List Factory} {index k : Nat} {s : Settings}
    (h : factories[index]? = some (.asked s k)) (inForce : Settings) (order : Order) :
    (order.onFactories inForce factories)[index]? =
      some (.asked s (k + if order.asks index then 1 else 0)) := by
  cases order with
  | nameFormat format => exact h
  | stackSize size => exact h
  | panicHandler tag => exact h
  | spawner spawner => exact h
  | defaultSpawn task systemRefusal => exact h
  | build =>
    -- the new factory comes behind those that are there
    show (factories ++ _)[index]? = _
    rw [List.getElem?_append_left (List.getElem?_eq_some_iff.mp h).1]
    exact h
  | spawn other task systemRefusal =>
    -- the only case in which a number moves on, and it is the number of the factory that is asked
    show (factories.modify other _)[index]? = _
    rw [List.getElem?_modify, h]
    by_cases same : other = index
    · simp [same, Order.asks, Factory.takeName_asked]
    · simp [same, Order.asks]

theorem length_onFactories (inForce : Settings) (factories : List Factory) (order : Order) :
    (order.onFactories inForce factories).length =
      factories.length + if order.isBuild then 1 else 0 := by
  cases order with
  | build => exact List.length_append
  | spawn index task systemRefusal => exact List.length_modify _ _ _
  | _ => rfl

/-! ## Runs -/

namespace Workshop

/-- Where a run of orders ends. -/
def after (w : Workshop) (orders : List Order) : Workshop :=
  ((w.run orders).map Prod.snd).getLastD w

theorem after_cons (w : Workshop) (order : Order) (more : List Order) :
    w.after (order :: more) = (w.perform order).2.after more :=
  List.getLastD_cons

theorem after_append (w : Workshop) (orders more : List Order) :
    w.after (orders ++ more) = (w.after orders).after more := by
  induction orders generalizing w with
  | nil => rfl
  | cons order orders ih =>
    rw [List.cons_append, after_cons, after_cons]
    exact ih _

theorem run_append (w : Workshop) (orders more : List Order) :
    w.run (orders ++ more) = w.run orders ++ (w.after orders).run more := by
  induction orders generalizing w with
  | nil => rfl
  | cons order orders ih =>
    rw [after_cons]
    exact congrArg (_ :: ·) (ih _)

/-- The builder holds the settings in force throughout a run. -/
theorem builder_after {w : Workshop} {earlier : List Order}
    (h : w.builder = settingsAfter earlier) (orders : List Order) :
    (w.after orders).builder = settingsAfter (earlier ++ orders) := by
  induction orders generalizing w earlier with
  | nil =>
    rw [List.append_nil]
    exact h
  | cons order orders ih =>
    -- the order goes over from those to come to those that came before
    have next : (w.perform order).2.builder = settingsAfter (earlier ++ [order]) := by
      rw [(performed_perform w order).builder_eq, h, settingsAfter_concat]
    rw [after_cons, ih next, List.append_assoc]
    rfl

/-- There is a factory for each order that builds one. -/
theorem length_factories_after (w : Workshop) (orders : List Order) :
    (w.after orders).factories.length = w.factories.length + builds orders := by
  induction orders generalizing w with
  | nil => rfl
  | cons order orders ih =>
    rw [after_cons, ih, (performed_perform w order).factories_eq, length_onFactories, builds_cons,
      Nat.add_assoc]

/-- A factory keeps its settings throughout a run, and its number counts the requests to it. -/
theorem getElem?_factories_after {w : Workshop} {index k : Nat} {s : Settings}
    (h : w.factories[index]? = some (.asked s k)) (orders : List Order) :
    (w.after orders).factories[index]? = some (.asked s (k + requests index orders)) := by
  induction orders generalizing w k with
  | nil => exact h
  | cons order orders ih =>
    have next := getElem?_onFactories h w.builder order
    rw [← (performed_perform w order).factories_eq] at next
    rw [after_cons, ih next, requests_cons, Nat.add_assoc]

/-- The settings in force after orders that nothing came before. -/
theorem builder_after_initial (orders : List Order) :
    (initial.after orders).builder = settingsAfter orders :=
  builder_after (show initial.builder = settingsAfter [] from rfl) orders

theorem length_factories_after_initial (orders : List Order) :
    (initial.after orders).factories.length = builds orders := by
  rw [length_factories_after]
  exact Nat.zero_add _

/-- A factory is numbered by the factories built before it, and it starts with the settings that
were in force when it was built. -/
theorem getElem?_factories_after_build (before later : List Order) :
    (initial.after (before ++ .build :: later)).factories[builds before]? =
      some (.asked (settingsAfter before) (requests (builds before) later)) := by
  have here : ((initial.after before).perform .build).2.factories[builds before]? =
      some (.asked (settingsAfter before) 0) := by
    rw [(performed_perform _ _).factories_eq, builder_after_initial, ← Factory.ofSettings_eq,
      ← length_factories_after_initial]
    exact List.getElem?_concat_length
  rw [after_append, after_cons, getElem?_factories_after here later, Nat.zero_add]

/-! ## Requests -/

section Requests

variable {w : Workshop} {index k : Nat} {s : Settings}

/-- A request to a factory that was asked for `k` threads makes one launch. -/
theorem launches_spawn (h : w.factories[index]? = some (.asked s k)) (task : Task)
    (systemRefusal : Option String) :
    (w.perform (.spawn index task systemRefusal)).2.launches = w.launches ++ [s.launch k task] := by
  rw [perform_spawn_of_some h, launches_launched, Factory.launch_asked]

/-- Such a request asks for its thread once, and what is delivered goes by the answer. -/
theorem delivers_spawn (h : w.factories[index]? = some (.asked s k)) (task : Task)
    (systemRefusal : Option String) {answer : Except String (Option String)}
    {calls : List SpawnerCall} (start : (s.launch k task).start w.calls systemRefusal =
      (answer, calls)) :
    (w.perform (.spawn index task systemRefusal)).2.calls = calls ∧
      Delivers s.panicHandler task answer (w.perform (.spawn index task systemRefusal)).1 := by
  rw [perform_spawn_of_some h, Factory.launch_asked]
  -- the factory has gone on to its next number before anybody is asked for the thread
  have delivers := delivers_launched
    { w with factories := w.factories.set index (.asked s (k + 1)) } (s.launch k task) systemRefusal
  rw [calls_launched]
  show ((s.launch k task).start w.calls systemRefusal).2 = calls ∧ _
  rw [start] at delivers ⊢
  exact ⟨rfl, delivers⟩

theorem spawnerCalls_spawn (h : w.factories[index]? = some (.asked s k)) (task : Task)
    (systemRefusal : Option String) :
    (w.perform (.spawn index task systemRefusal)).2.spawnerCalls =
      w.spawnerCalls + if s.spawner.isSome then 1 else 0 := by
  cases set : s.spawner with
  | some spawner =>
    rw [spawnerCalls,
      (delivers_spawn h task systemRefusal (s.start_launch_of_some k task _ set _)).1]
    exact List.length_append
  | none =>
    have none := s.start_launch_of_none k task w.calls set
    cases systemRefusal with
    | none => rw [spawnerCalls, (delivers_spawn h task _ none.1).1]; rfl
    | some message => rw [spawnerCalls, (delivers_spawn h task _ (none.2 message)).1]; rfl

end Requests

end Workshop

/-! ## Isolation -/

/-- One factory throughout a run that ends in the workshop `w`: what is ordered before the factory
is built, and what is ordered later. -/
structure Isolated (before later : List Order) (w : Workshop) : Prop where
  built : ((Workshop.initial.after before).perform .build).1 = .built (builds before)
  /-- What the run delivers for one more order is what `w` delivers. -/
  run_eq : ∀ order, Workshop.initial.run (before ++ .build :: later ++ [order]) =
    Workshop.initial.run (before ++ .build :: later) ++ [w.perform order]
  /-- The factory is there, with the settings from when it was built, and it counts the requests to
  itself and no others. -/
  factory_eq : w.factories[builds before]? =
    some (.asked (settingsAfter before) (requests (builds before) later))
  /-- One more request makes one launch, whatever comes of it. -/
  launches_eq : ∀ task systemRefusal,
    (w.perform (.spawn (builds before) task systemRefusal)).2.launches =
      w.launches ++ [(settingsAfter before).launch (requests (builds before) later) task]
  /-- The spawner is called once if there is one, and its answer decides what is delivered. -/
  of_spawner : ∀ spawner, (settingsAfter before).spawner = some spawner → ∀ task systemRefusal,
    let result := w.perform (.spawn (builds before) task systemRefusal)
    let blueprint := (settingsAfter before).blueprint (requests (builds before) later)
    let answer := spawner w.calls.length blueprint
    result.2.calls = w.calls ++ [⟨spawner, blueprint, answer⟩] ∧
      Delivers (settingsAfter before).panicHandler task answer result.1
  /-- Without a spawner none is called, and the thread has the name that was asked for. -/
  of_system : (settingsAfter before).spawner = none → ∀ task,
    let result := w.perform (.spawn (builds before) task none)
    let blueprint := (settingsAfter before).blueprint (requests (builds before) later)
    result.2.calls = w.calls ∧
      Delivers (settingsAfter before).panicHandler task (.ok blueprint.name) result.1
  of_refusal : (settingsAfter before).spawner = none → ∀ task message,
    let result := w.perform (.spawn (builds before) task (some message))
    result.2.calls = w.calls ∧ result.1 = .refused message
  spawnerCalls_eq : ∀ task systemRefusal,
    (w.perform (.spawn (builds before) task systemRefusal)).2.spawnerCalls =
      w.spawnerCalls + if (settingsAfter before).spawner.isSome then 1 else 0
  /-- Nothing but a request to a factory calls a spawner. -/
  calls_eq : ∀ order, (∀ index, order.asks index = false) → (w.perform order).2.calls = w.calls
  /-- Who asks a factory that has not been built asks in vain. -/
  missing : ∀ index task systemRefusal, builds (before ++ .build :: later) ≤ index →
    w.perform (.spawn index task systemRefusal) = (.noSuchFactory, w)
  /-- With a format, request number `k` gives name number `k`. -/
  name_eq : ∀ format, (settingsAfter before).nameFormat = some format → ∀ k < UInt64.size,
    ∀ task, ((settingsAfter before).launch k task).blueprint.name = some (format.name k)
  /-- Without a format there is no name. -/
  name_eq_none : (settingsAfter before).nameFormat = none → ∀ k task,
    ((settingsAfter before).launch k task).blueprint.name = none
  /-- The builder goes on with what was set last and not refused, as if no factory had been built.
  -/
  builder_eq : w.builder = settingsAfter (before ++ later)
  rejected : ∀ order e, (w.perform order).1 = .rejected e → (w.perform order).2 = w
  /-- Only requests for threads make launches. -/
  quiet : ∀ order, order.asksForThread = false → (w.perform order).2.launches = w.launches

/-- Every factory is isolated from the builder and from the other factories, throughout every run.
-/
theorem factories_isolated (before later : List Order) :
    Isolated before later (Workshop.initial.after (before ++ .build :: later)) := by
  have there := Workshop.getElem?_factories_after_build before later
  constructor
  case built =>
    show Delivery.built _ = _
    rw [Workshop.length_factories_after_initial]
  case run_eq =>
    intro order
    exact Workshop.run_append _ _ _
  case factory_eq => exact there
  case launches_eq => exact Workshop.launches_spawn there
  case of_spawner =>
    intro spawner set task systemRefusal
    exact Workshop.delivers_spawn there task _ (Settings.start_launch_of_some _ _ _ set _)
  case of_system =>
    intro unset task
    exact Workshop.delivers_spawn there task _ (Settings.start_launch_of_none _ _ _ unset).1
  case of_refusal =>
    intro unset task message
    have start := (Settings.start_launch_of_none (requests (builds before) later) task
      (Workshop.initial.after (before ++ .build :: later)).calls unset).2 message
    rcases Workshop.delivers_spawn there task (some message) start with ⟨calls, delivers⟩
    exact ⟨calls, delivers.eq_refused⟩
  case spawnerCalls_eq => exact Workshop.spawnerCalls_spawn there
  case calls_eq =>
    intro order
    exact Workshop.calls_perform _
  case missing =>
    intro index task systemRefusal beyond
    apply Workshop.perform_spawn_of_none
    rw [List.getElem?_eq_none_iff, Workshop.length_factories_after_initial]
    exact beyond
  case name_eq =>
    intro format isFormat k small task
    rw [Settings.launch, Settings.blueprint, isFormat, Nat.mod_eq_of_lt small]
    rfl
  case name_eq_none =>
    intro noFormat k task
    rw [Settings.launch, Settings.blueprint, noFormat]
    rfl
  case builder_eq =>
    rw [Workshop.builder_after_initial]
    exact settingsAfter_build before later
  case rejected =>
    intro order
    exact (Workshop.performed_perform _ order).of_rejected
  case quiet =>
    intro order
    exact (Workshop.performed_perform _ order).launches_eq

/-- A factory is set up whose spawner refuses the second thread that it is called for. -/
def setUp : List Order :=
  [.nameFormat "w\x7b\x7d", .panicHandler "log", .spawner (.refusing fun earlier => earlier == 1)]

/-- Other settings follow, one of them rejected, and another factory; both are asked for threads. -/
def settingsChanged : List Order :=
  [.nameFormat "v", .nameFormat "\x7b", .spawner (.renamedTo 7), .build,
    .spawn 0 (.panics (.text "bad input")), .spawn 0 .finishes, .spawn 1 (.panics .other)]

/-- The first factory goes on as it was built, and counts the thread that was refused. -/
theorem isolated_of_settingsChanged :
    Isolated setUp settingsChanged
      (Workshop.initial.after (setUp ++ .build :: settingsChanged)) ∧
    (Workshop.initial.run
      (setUp ++ .build :: settingsChanged ++ [.spawn 0 (.panics .other)])).map Prod.fst =
      [.set, .set, .set, .built 0, .set, .rejected (.invalidNameFormat "\x7b"), .set, .built 1,
        .joined ⟨some "w0", none, [⟨"log", "w0", "bad input"⟩]⟩, .refused "no threads left",
        .joined ⟨some "renamed-7", none, [⟨"log", "renamed-7", "<non-string panic payload>"⟩]⟩,
        .joined ⟨some "w2", none, [⟨"log", "w2", "<non-string panic payload>"⟩]⟩] ∧
    (Workshop.initial.after (setUp ++ .build :: settingsChanged)).calls.map
      (fun call => (call.blueprint, call.answer.toOption)) =
      [(⟨some "w0", none⟩, some (some "w0")), (⟨some "w1", none⟩, none),
        (⟨some "v", none⟩, some (some "renamed-7"))] :=
  ⟨factories_isolated setUp settingsChanged, by decide, by decide⟩

end Groundwork.Threads
