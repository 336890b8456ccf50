/-!
# Suppliers

A supplier gives a value, or panics, whenever it is asked. It may keep a state of its own, and it
may read and move what suppliers share: the clock, and the count of calls of the functions at their
base.

* `Supplier.ofInstance` and `Supplier.ofFunction` are the base: one value, or a function that is
  called.
* `Supplier.compose` applies a function to what another supplier gives; `Supplier.synchronized`
  lets one call end before the next begins.
* `Supplier.gets` asks several times.
-/

namespace Groundwork

/-- What suppliers share: the reading of the clock in nanoseconds, and how often functions at the
base of suppliers were called. -/
structure Environment where
  now : Nat
  calls : Nat
deriving DecidableEq, Repr

/-- How a call ends: with a value, or with the text of a panic. -/
inductive Outcome (α : Type) where
  | value (a : α)
  | panic (text : String)
deriving DecidableEq, Repr

/-- A state, how it begins, and how a call ends in a state and an environment. -/
structure Supplier (α : Type) where
  State : Type
  initial : State
  get : State → Environment → Outcome α × State × Environment

/-- The environment in which no time has passed and nothing was called. -/
def Environment.initial : Environment := ⟨0, 0⟩

/-- The environment after some time. -/
def Environment.advance (e : Environment) (nanoseconds : Nat) : Environment :=
  { e with now := e.now + nanoseconds }

/-- The environment after the call of a function. -/
def Environment.countCall (e : Environment) : Environment :=
  { e with calls := e.calls + 1 }

namespace Outcome

variable {α β : Type}

/-- The outcome of going on with the value, if there is one. -/
def andThen (o : Outcome α) (f : α → Outcome β) : Outcome β :=
  match o with
  | .value a => f a
  | .panic text => .panic text

/-- The values among outcomes. -/
def values (os : List (Outcome α)) : List α :=
  os.filterMap fun
    | .value a => some a
    | .panic _ => none

/-- The texts of the panics among outcomes. -/
def panics (os : List (Outcome α)) : List String :=
  os.filterMap fun
    | .value _ => none
    | .panic text => some text

end Outcome

namespace Supplier

variable {α β : Type}

/-- Gives the same value every time. -/
def ofInstance (a : α) : Supplier α where
  State := Unit
  initial := ()
  get := fun _ e => (.value a, (), e)

/-- Calls a function with a state of its own every time, and counts the call. -/
def ofFunction {σ : Type} (initial : σ) (f : σ → Environment → Outcome α × σ × Environment) :
    Supplier α where
  State := σ
  initial := initial
  get := fun s e => f s e.countCall

/-- Applies a function to every value that a supplier gives. -/
def compose (f : α → Outcome β) (s : Supplier α) : Supplier β where
  State := s.State
  initial := s.initial
  get := fun state e =>
    let got := s.get state e
    (got.1.andThen f, got.2)

/-- Lets one call end before the next begins. Calls that come one after the other are not changed by
it, and calls that come together are answered as if they came one after the other. -/
def synchronized (s : Supplier α) : Supplier α where
  State := s.State
  initial := s.initial
  get := s.get

/-- Asks a number of times; the outcomes in order, and what is left behind. -/
def gets (s : Supplier α) : (count : Nat) → s.State → Environment →
    List (Outcome α) × s.State × Environment
  | 0, state, e => ([], state, e)
  | count + 1, state, e =>
    let here := s.get state e
    let later := gets s count here.2.1 here.2.2
    (here.1 :: later.1, later.2)

end Supplier

/-! ## Runs -/

/-- What can happen in a run: a call, time that passes, or calls that come together. -/
inductive Moment where
  | get
  | advance (nanoseconds : Nat)
  | together (count : Nat)
deriving DecidableEq, Repr

/-- What comes of a moment. -/
inductive Outcomes (α : Type) where
  | one (outcome : Outcome α)
  | nothing
  | several (outcomes : List (Outcome α))
deriving DecidableEq, Repr

namespace Supplier

variable {α : Type}

/-- What comes of one moment, and what it leaves behind. -/
def step (s : Supplier α) (state : s.State) (e : Environment) :
    Moment → Outcomes α × s.State × Environment
  | .get => let got := s.get state e; (.one got.1, got.2)
  | .advance nanoseconds => (.nothing, state, e.advance nanoseconds)
  | .together count => let got := s.gets count state e; (.several got.1, got.2)

/-- What comes of moments one after the other, each with the environment afterwards. -/
def run (s : Supplier α) (state : s.State) (e : Environment) :
    List Moment → List (Outcomes α × Environment)
  | [] => []
  | moment :: more =>
    let here := s.step state e moment
    (here.1, here.2.2) :: run s here.2.1 here.2.2 more

/-- What comes of moments from the beginning. -/
def trace (s : Supplier α) (moments : List Moment) : List (Outcomes α × Environment) :=
  s.run s.initial .initial moments

end Supplier

end Groundwork
