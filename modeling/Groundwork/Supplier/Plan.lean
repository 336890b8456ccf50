import Groundwork.Supplier.Layers
import Groundwork.Supplier.Script

/-!
# Plans of suppliers

A plan describes a supplier: what is at its base, and what is built around it.

* `Plan.build` builds the supplier from the base outwards; only a duration of zero is refused.
* `Plan.trace` is a run of that supplier.
-/

namespace Groundwork.Supplier

/-- How a supplier is built. -/
inductive Plan (α : Type) where
  | constant (a : α)
  | counting (f : Nat → α)
  | script (first : ScriptItem α) (more : List (ScriptItem α))
  | compose (f : α → Outcome α) (inner : Plan α)
  | synchronized (inner : Plan α)
  | memoize (inner : Plan α)
  | expiring (clock : Environment → Nat) (duration : Nat) (inner : Plan α)

namespace Plan

variable {α : Type}

/-- The supplier that a plan describes. -/
def build : Plan α → Except ExpiryError (Supplier α)
  | constant a => .ok (.ofInstance a)
  | counting f => .ok (.counting f)
  | script first more => .ok (.script first more)
  | compose f inner => inner.build.map (.compose f)
  | synchronized inner => inner.build.map .guarded
  | memoize inner => inner.build.map .memoize
  | expiring clock duration inner => inner.build.bind (Supplier.expiring clock duration)

/-- What comes of moments one after the other, if the supplier can be built. -/
def trace (p : Plan α) (moments : List Moment) :
    Except ExpiryError (List (Outcomes α × Environment)) :=
  match p.build with
  | .ok s => .ok (s.trace moments)
  | .error e => .error e

end Plan

end Groundwork.Supplier
