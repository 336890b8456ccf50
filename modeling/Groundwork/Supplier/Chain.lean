import Groundwork.Supplier.Layers

/-!
# Chains of suppliers

A chain is built around one supplier at its base, one layer around the other: a layer applies a
function, lets calls wait for one another at a lock, or remembers values for a time. All times are
measured on one clock. The function of a layer does not move the clock, but it may panic, at every
call or at some calls only.

* `Chain.build` builds the supplier from the base outwards; only a duration of zero is refused.
* `Chain.apply` is what the functions together make of a value of the base, `Chain.durations` are
  the times for which values are remembered.
-/

namespace Groundwork.Supplier

variable {α β γ : Type}

/-- Asks another supplier, and whenever `panics` says so it panics instead of giving the value. -/
def faltering {σ : Type} (initial : σ) (panics : σ → α → Option String × σ) (s : Supplier α) :
    Supplier α where
  State := σ × s.State
  initial := (initial, s.initial)
  get := fun (own, state) e =>
    match s.get state e with
    | (.value a, after, e) =>
      match panics own a with
      | (some text, own) => (.panic text, (own, after), e)
      | (none, own) => (.value a, (own, after), e)
    | (.panic text, after, e) => (.panic text, (own, after), e)

/-- How a supplier of `β` is built around a supplier of `α`. A function that panics at some calls
and not at others is a layer `compose` around a layer `faltering`. -/
inductive Chain (α : Type) : Type → Type 1 where
  | base : Chain α α
  | compose {β γ : Type} (f : β → Outcome γ) (inner : Chain α β) : Chain α γ
  | faltering {β σ : Type} (initial : σ) (panics : σ → β → Option String × σ)
      (inner : Chain α β) : Chain α β
  | synchronized {β : Type} (inner : Chain α β) : Chain α β
  | expiring {β : Type} (duration : Nat) (inner : Chain α β) : Chain α β

namespace Chain

/-- The supplier that a chain describes, around a supplier at its base. -/
def build (clock : Environment → Nat) (leaf : Supplier α) {β : Type} :
    Chain α β → Except ExpiryError (Supplier β)
  | base => .ok leaf
  | compose f inner => (inner.build clock leaf).map (.compose f)
  | faltering initial panics inner => (inner.build clock leaf).map (.faltering initial panics)
  | synchronized inner => (inner.build clock leaf).map .guarded
  | expiring duration inner => (inner.build clock leaf).bind (Supplier.expiring clock duration)

/-- What the functions of a chain make of a value. -/
def apply {β : Type} : Chain α β → α → Outcome β
  | base => .value
  | compose f inner => fun a => (inner.apply a).andThen f
  | faltering _ _ inner => inner.apply
  | synchronized inner => inner.apply
  | expiring _ inner => inner.apply

/-- The times for which a chain remembers values, from the outside inwards. -/
def durations {β : Type} : Chain α β → List Nat
  | base => []
  | compose _ inner => inner.durations
  | faltering _ _ inner => inner.durations
  | synchronized inner => inner.durations
  | expiring duration inner => duration :: inner.durations

end Chain

end Groundwork.Supplier
