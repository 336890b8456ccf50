import Groundwork.Interface

/-!
# Towers of decorators

Decorators can be around decorators, and each of them may keep a state of its own.

* `Behaviour.beside` is a behaviour whose state is kept beside another one.
* `Wrapping` is a way to make decorators, `Tower` is any number of them around a delegate.
* `Tower.behaviour` is what a tower does, `Tower.core` the state of the delegate inside it.
* `Tower.Leaves` tells the operations that no decorator of a tower answers itself.
-/

namespace Groundwork

variable {I : Interface} {σ τ : Type}

/-- The behaviour on a state that is kept beside another one, which stays as it is. -/
def Behaviour.beside (b : Behaviour I σ) (ω : Type) : Behaviour I (ω × σ) :=
  fun op s => let here := b op s.2; (here.1, (s.1, here.2))

/-- A way to make a decorator around a delegate that answers some operations itself. -/
abbrev Wrapping (I : Interface) : Type 1 :=
  (σ : Type) → Behaviour I σ → Overrides I σ → Behaviour I σ

/-- Decorators one around the other, and what is at hand when they answer an operation themselves:
the state of each beside what it is around, and what it is around. -/
inductive Tower (I : Interface) (σ : Type) : Type → Type 1
  | bare : Tower I σ σ
  | wrapped {τ : Type} (ω : Type) (own : Behaviour I τ → Overrides I (ω × τ))
      (inner : Tower I σ τ) : Tower I σ (ω × τ)

namespace Tower

/-- What a tower does around `delegate`. -/
def behaviour (wrap : Wrapping I) (delegate : Behaviour I σ) {τ : Type} :
    Tower I σ τ → Behaviour I τ
  | bare => delegate
  | wrapped ω own inner =>
    let below := inner.behaviour wrap delegate
    wrap _ (below.beside ω) (own below)

/-- The state of the delegate inside. -/
def core {τ : Type} : Tower I σ τ → τ → σ
  | bare => fun s => s
  | wrapped _ _ inner => fun s => inner.core s.2

/-- The same states of all decorators, with another state of the delegate inside. -/
def withCore {τ : Type} : Tower I σ τ → τ → σ → τ
  | bare => fun _ s => s
  | wrapped _ _ inner => fun s x => (s.1, inner.withCore s.2 x)

/-- No decorator answers this operation itself. -/
def Leaves (op : I.Op) {τ : Type} : Tower I σ τ → Prop
  | bare => True
  | wrapped _ own inner => (∀ below, own below op = none) ∧ inner.Leaves op

end Tower

end Groundwork
