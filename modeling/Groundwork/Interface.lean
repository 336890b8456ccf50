/-!
# Interfaces and decorators

An interface lists operations and the type of the answer to each; a behaviour answers the
operations of an interface on a state.

* `Behaviour.decorated` answers some operations itself and forwards all others to a delegate.
* `Behaviour.forwarded` forwards all, `Behaviour.layered` does so any number of times.
* `Behaviour.run` asks for operations one after the other.
-/

namespace Groundwork

/-- Operations and the type of the answer to each. -/
structure Interface where
  Op : Type
  Answer : Op → Type

/-- An answer, and the state afterwards, to every operation of an interface in every state. -/
abbrev Behaviour (I : Interface) (σ : Type) : Type :=
  (op : I.Op) → σ → I.Answer op × σ

/-- The operations that a decorator answers itself, and how. -/
abbrev Overrides (I : Interface) (σ : Type) : Type :=
  (op : I.Op) → Option (σ → I.Answer op × σ)

namespace Behaviour

variable {I : Interface} {σ : Type}

/-- The behaviour that answers the overridden operations itself and forwards every other one. -/
def decorated (delegate : Behaviour I σ) (overrides : Overrides I σ) : Behaviour I σ :=
  fun op => match overrides op with
    | some own => own
    | none => delegate op

/-- The decorator that overrides nothing. -/
def forwarded (delegate : Behaviour I σ) : Behaviour I σ :=
  delegate.decorated fun _ => none

/-- As many decorators that override nothing, one around the other. -/
def layered (delegate : Behaviour I σ) : Nat → Behaviour I σ
  | 0 => delegate
  | depth + 1 => (layered delegate depth).forwarded

/-- Asks for operations one after the other; the answers, and the state at the end. -/
def run (b : Behaviour I σ) : List I.Op → σ → List ((op : I.Op) × I.Answer op) × σ
  | [], s => ([], s)
  | op :: more, s =>
    let here := b op s
    let later := run b more here.2
    (⟨op, here.1⟩ :: later.1, later.2)

end Behaviour

end Groundwork
