import Groundwork.Supplier.Basic

/-!
# What can be told of a run

* `Supplier.recorded` keeps a record of the calls of a supplier and changes nothing else.
* `Supplier.reached` is what a run leaves behind.
* `Supplier.answers` are the outcomes of the gets in a run, and `getsIn` is how many gets there are.
* `Supplier.NeverBack`: no run of the supplier moves a clock back.
-/

namespace Groundwork

/-- The outcomes that came of a moment, in the order of the gets. -/
def Outcomes.toList {α : Type} : Outcomes α → List (Outcome α)
  | .one outcome => [outcome]
  | .nothing => []
  | .several outcomes => outcomes

/-- A call that was made: how it ended, and the environment at its end. -/
structure Call (α : Type) where
  outcome : Outcome α
  after : Environment
deriving DecidableEq, Repr

namespace Supplier

variable {α : Type}

/-- Asks another supplier every time, and writes down every call of it, the latest one last. -/
def recorded (s : Supplier α) : Supplier α where
  State := s.State × List (Call α)
  initial := (s.initial, [])
  get := fun (state, calls) e =>
    let got := s.get state e
    (got.1, (got.2.1, calls ++ [⟨got.1, got.2.2⟩]), got.2.2)

/-- The state and the environment that moments one after the other leave behind. -/
def reached (s : Supplier α) (state : s.State) (e : Environment) :
    List Moment → s.State × Environment
  | [] => (state, e)
  | moment :: more =>
    let here := s.step state e moment
    reached s here.2.1 here.2.2 more

/-- How the gets in a run end, one after the other. -/
def answers (s : Supplier α) (state : s.State) (e : Environment) (moments : List Moment) :
    List (Outcome α) :=
  (s.run state e moments).flatMap fun come => come.1.toList

/-- How many gets moments are. -/
def getsIn : List Moment → Nat
  | [] => 0
  | .get :: more => 1 + getsIn more
  | .advance _ :: more => getsIn more
  | .together count :: more => count + getsIn more

/-- Whatever happens to a supplier from `start` on, the clock that is read does not go back. -/
def NeverBack (clock : Environment → Nat) (s : Supplier α) (start : Environment) : Prop :=
  ∀ moments moment, clock (s.reached s.initial start moments).2 ≤
    clock (s.reached s.initial start (moments ++ [moment])).2

end Supplier

end Groundwork
