import Groundwork.Threads.NameFormat
import Groundwork.Threads.Panic

/-!
# Thread factories

A builder collects settings, and every factory keeps the settings that the builder had when the
factory was built. A factory numbers the threads it is asked for, hands the task to its spawner, and
lets its panic handler note a panic.

* `Settings` is what a builder holds, `Factory` what it builds.
* `Blueprint` is what a thread is to be like. A `Spawner` decides on each whether there is a thread,
  and under which name.
* `SpawnerCall` is a call of a spawner. Every call is made by `Spawner.call`, which records it.
* `Launch` is what a factory hands on for each thread that it is asked for (`Factory.launch`), and
  `Launch.start` asks for the thread.
* `Workshop` holds one builder, its factories and what they share; `Workshop.perform` does one
  `Order` on it.
-/

namespace Groundwork.Threads

/-! ## Settings -/

/-- What a thread is to be like. -/
structure Blueprint where
  name : Option String
  stackSize : Option Nat
deriving DecidableEq, Repr

/-- What starts threads: given how many calls of any spawner came before and what the thread is to
be like, it refuses with a message or starts the thread under a name of its choice. -/
abbrev Spawner := (earlierCalls : Nat) → Blueprint → Except String (Option String)

/-- A call of a spawner: which one it was, what the thread was to be like, and the answer. -/
structure SpawnerCall where
  spawner : Spawner
  blueprint : Blueprint
  answer : Except String (Option String)

namespace Spawner

/-- Calls the spawner after some calls of spawners. Its answer comes with the calls up to this one.
-/
def call (s : Spawner) (calls : List SpawnerCall) (blueprint : Blueprint) :
    Except String (Option String) × List SpawnerCall :=
  let answer := s calls.length blueprint
  (answer, calls ++ [⟨s, blueprint, answer⟩])

/-- Starts every thread under the name asked for. -/
def plain : Spawner := fun _ blueprint => .ok blueprint.name

/-- Starts every thread under the name that carries the number `n`. -/
def renamedTo (n : Nat) : Spawner := fun _ _ => .ok (some ("renamed-" ++ toString n))

/-- The message of a spawner that cannot start a thread. -/
def noThreadsLeft : String := "no threads left"

/-- Refuses the calls for which the test holds and starts every other thread. -/
def refusing (refused : Nat → Bool) : Spawner := fun earlierCalls blueprint =>
  if refused earlierCalls then .error noThreadsLeft else .ok blueprint.name

end Spawner

/-- What a builder holds. A panic handler is known by its tag. -/
structure Settings where
  nameFormat : Option NameFormat
  stackSize : Option Nat
  panicHandler : Option String
  spawner : Option Spawner

namespace Settings

/-- Nothing is set. -/
def initial : Settings := ⟨none, none, none, none⟩

/-- Settings with another name format. -/
def withNameFormat (s : Settings) (format : String) : Except SetupError Settings :=
  (NameFormat.ofString format).map fun f => { s with nameFormat := some f }

/-- Settings with another stack size. -/
def withStackSize (s : Settings) (size : Nat) : Except SetupError Settings :=
  if size = 0 then .error .zeroStackSize else .ok { s with stackSize := some size }

end Settings

/-! ## Factories -/

/-- The note that a panic handler takes. -/
structure Note where
  handler : String
  thread : String
  message : String
deriving DecidableEq, Repr

/-- What is known of a thread once it has been joined. -/
structure Joined where
  name : Option String
  panic : Option Panic
  notes : List Note
deriving DecidableEq, Repr

/-- What joining a thread tells: a panic goes to the handler if there is one, else to whoever joins
the thread. -/
def Joined.ofTask (handler : Option String) (name : Option String) : Task → Joined
  | .finishes => ⟨name, none, []⟩
  | .panics p =>
    match handler with
    | some tag => ⟨name, none, [⟨tag, name.getD "<unnamed>", p.message⟩]⟩
    | none => ⟨name, some p, []⟩

/-- What a factory hands on when it is asked for a thread, and to whom: to a spawner, or else to the
system. The handler is around the task. -/
structure Launch where
  spawner : Option Spawner
  blueprint : Blueprint
  handler : Option String
  task : Task

/-- Asks for the thread of a launch, after some calls of spawners: it has the name of the thread, or
the message of whoever refused, and the calls up to then. Without a spawner it is the system that
may refuse. -/
def Launch.start (l : Launch) (calls : List SpawnerCall) (systemRefusal : Option String) :
    Except String (Option String) × List SpawnerCall :=
  match l.spawner, systemRefusal with
  | some spawner, _ => Spawner.call spawner calls l.blueprint
  | none, some message => (.error message, calls)
  | none, none => (.ok l.blueprint.name, calls)

/-- A thread factory: the settings it was built with, and the number of the next thread. Numbers are
taken by threads with a name, and after the largest one they begin again. -/
structure Factory where
  settings : Settings
  next : UInt64

namespace Factory

/-- A factory that has not been asked for a thread. -/
def ofSettings (s : Settings) : Factory := ⟨s, 0⟩

/-- The name of the next thread, and the factory once this name is taken. -/
def takeName (f : Factory) : Option String × Factory :=
  match f.settings.nameFormat with
  | some format => (some (format.name f.next.toNat), { f with next := f.next + 1 })
  | none => (none, f)

/-- What the factory hands on for another thread, and the factory afterwards. -/
def launch (f : Factory) (task : Task) : Launch × Factory :=
  let named := f.takeName
  (⟨f.settings.spawner, ⟨named.1, f.settings.stackSize⟩, f.settings.panicHandler, task⟩, named.2)

end Factory

/-! ## A builder and its factories -/

/-- One builder, the factories built from it, and all launches, calls of spawners and notes so
far. -/
structure Workshop where
  builder : Settings
  factories : List Factory
  launches : List Launch
  calls : List SpawnerCall
  notes : List Note

/-- What can be asked of a workshop. A thread may be asked for when the system cannot give one. -/
inductive Order where
  | nameFormat (format : String)
  | stackSize (size : Nat)
  | panicHandler (tag : String)
  | spawner (spawner : Spawner)
  | build
  | spawn (factory : Nat) (task : Task) (systemRefusal : Option String := none)
  | defaultSpawn (task : Task) (systemRefusal : Option String := none)

/-- What comes of an order. -/
inductive Delivery where
  | set
  | rejected (error : SetupError)
  | built (index : Nat)
  | noSuchFactory
  | refused (message : String)
  | joined (thread : Joined)
deriving DecidableEq, Repr

namespace Workshop

/-- A workshop with nothing set and nothing built. -/
def initial : Workshop := ⟨.initial, [], [], [], []⟩

/-- How many calls of spawners there were. -/
def spawnerCalls (w : Workshop) : Nat :=
  w.calls.length

/-- The builder after a setting that may be rejected; a rejected one changes nothing. -/
def setting (w : Workshop) : Except SetupError Settings → Delivery × Workshop
  | .ok s => (.set, { w with builder := s })
  | .error e => (.rejected e, w)

/-- Joins the thread of a launch under the name that it got, if there is one. -/
def joining (w : Workshop) (l : Launch) : Except String (Option String) → Delivery × Workshop
  | .ok name =>
    let thread := Joined.ofTask l.handler name l.task
    (.joined thread, { w with notes := w.notes ++ thread.notes })
  | .error message => (.refused message, w)

/-- Does a launch, and joins the thread if there is one. -/
def launched (w : Workshop) (l : Launch) (systemRefusal : Option String) : Delivery × Workshop :=
  let started := l.start w.calls systemRefusal
  { w with launches := w.launches ++ [l], calls := started.2 }.joining l started.1

/-- Does one order. A factory counts a request whatever comes of it. -/
def perform (w : Workshop) : Order → Delivery × Workshop
  | .nameFormat format => w.setting (w.builder.withNameFormat format)
  | .stackSize size => w.setting (w.builder.withStackSize size)
  | .panicHandler tag => w.setting (.ok { w.builder with panicHandler := some tag })
  | .spawner spawner => w.setting (.ok { w.builder with spawner := some spawner })
  | .build =>
    (.built w.factories.length, { w with factories := w.factories ++ [.ofSettings w.builder] })
  | .spawn index task systemRefusal =>
    match w.factories[index]? with
    | none => (.noSuchFactory, w)
    | some f =>
      let asked := f.launch task
      { w with factories := w.factories.set index asked.2 }.launched asked.1 systemRefusal
  | .defaultSpawn task systemRefusal =>
    w.launched ⟨none, ⟨none, none⟩, none, task⟩ systemRefusal

/-- Does orders one after the other; the deliveries come with the workshop after each. -/
def run (w : Workshop) : List Order → List (Delivery × Workshop)
  | [] => []
  | order :: more =>
    let step := w.perform order
    step :: run step.2 more

end Workshop

end Groundwork.Threads
