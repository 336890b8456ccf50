import Groundwork.Supplier.Memo

/-!
# Layers around a supplier

What can be put around a supplier without changing the kind of its values, any number of times.

* `Supplier.guarded` lets one call end before the next begins, with a lock of its own.
* `Layer` is one layer, and `stack` puts several around a supplier.
* `base` is the state of the supplier at the bottom of a stack.
-/

namespace Groundwork.Supplier

variable {α : Type}

/-- The lock once the call inside has ended, which leaves nothing there. -/
def released (lock : Lock Unit) : Outcome α → Lock Unit
  | .value _ => lock
  | .panic _ => lock.poison

/-- Asks another supplier behind a lock. A panic of that supplier poisons the lock, which is entered
all the same. -/
def guarded (s : Supplier α) : Supplier α where
  State := Lock Unit × s.State
  initial := (.around (), s.initial)
  get := fun (lock, state) e =>
    match Lock.regardless lock.enter with
    | () =>
      let got := s.get state e
      (got.1, (released lock got.1, got.2.1), got.2.2)

theorem guarded_get {s : Supplier α} {lock : Lock Unit} {state after : s.State}
    {e later : Environment} {outcome : Outcome α}
    (called : s.get state e = (outcome, after, later)) :
    s.guarded.get (lock, state) e = (outcome, (released lock outcome, after), later) := by
  simp only [guarded]
  rw [called]

/-- What can be put around a supplier. -/
inductive Layer where
  | synchronized
  | guarded
  | memoize
  | expiring (duration : Nat) (positive : 0 < duration)
deriving DecidableEq, Repr

namespace Layer

/-- The supplier with the layer around it. -/
def wrap (clock : Environment → Nat) (s : Supplier α) : Layer → Supplier α
  | synchronized => s.synchronized
  | guarded => s.guarded
  | memoize => s.memoize
  | expiring duration _ => s.remembering clock duration

/-- The state of the supplier inside the layer. -/
def inside (clock : Environment → Nat) (s : Supplier α) :
    (layer : Layer) → (layer.wrap clock s).State → s.State
  | synchronized, state => state
  | guarded, state => state.2
  | memoize, state => state.2
  | expiring _ _, state => state.2

/-- A duration that a layer can have is accepted. -/
theorem expiring_eq (clock : Environment → Nat) (s : Supplier α) {duration : Nat}
    (positive : 0 < duration) :
    s.expiring clock duration = .ok ((expiring duration positive).wrap clock s) := by
  have notZero : ¬ duration = 0 := Nat.ne_of_gt positive
  rw [Supplier.expiring, if_neg notZero]
  rfl

end Layer

/-- The supplier with layers around it, the outermost one first. -/
def stack (clock : Environment → Nat) (s : Supplier α) : List Layer → Supplier α
  | [] => s
  | layer :: layers => layer.wrap clock (stack clock s layers)

/-- The state of the supplier at the bottom of a stack. -/
def base (clock : Environment → Nat) (s : Supplier α) :
    (layers : List Layer) → (stack clock s layers).State → s.State
  | [], state => state
  | layer :: layers, state => base clock s layers (layer.inside clock _ state)

end Groundwork.Supplier
