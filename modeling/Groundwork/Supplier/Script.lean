import Groundwork.Supplier.Basic

/-!
# Scripted suppliers

Functions at the base of a supplier whose calls are known in advance.

* `Supplier.script` ends its calls as a list of items says, and moves the clock as they say.
* `Supplier.sequence` ends its calls as a sequence of outcomes says.
* `Supplier.counting` gives a value that depends on how many calls there were.
-/

namespace Groundwork.Supplier

variable {α : Type}

/-- What a scripted call does: it moves the clock, and ends. -/
structure ScriptItem (α : Type) where
  nanoseconds : Nat
  outcome : Outcome α
deriving DecidableEq, Repr

/-- The item after `item` and the items after that; the last item stands for all that follow. -/
def ScriptItem.next (item : ScriptItem α) : List (ScriptItem α) →
    ScriptItem α × List (ScriptItem α)
  | [] => (item, [])
  | following :: more => (following, more)

/-- Does what a script says, one item for each call; the last item is for all calls that remain. -/
def script (first : ScriptItem α) (more : List (ScriptItem α)) : Supplier α :=
  .ofFunction (first, more) fun (item, later) e =>
    (item.outcome, item.next later, e.advance item.nanoseconds)

/-- Ends its calls as a sequence of outcomes says, one for each call. -/
def sequence (outcomes : Nat → Outcome α) : Supplier α :=
  .ofFunction 0 fun called e => (outcomes called, called + 1, e)

/-- Gives what `f` makes of the number of calls, the present one included. -/
def counting (f : Nat → α) : Supplier α :=
  .ofFunction () fun _ e => (.value (f e.calls), (), e)

end Groundwork.Supplier
