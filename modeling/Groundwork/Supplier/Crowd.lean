import Groundwork.Supplier.Memo

/-!
# Threads that share a supplier

Several threads share a supplier that remembers its first value. A thread that asks waits for the
lock. Once it is handed the lock it looks inside, and if nothing is there, it calls the supplier
below and keeps the lock until that call has ended.

* `Crowd` are the threads and what they share, `Deed` is what can happen next.
* `Crowd.act?` is one deed, `Crowd.acts?` a run of them.
-/

namespace Groundwork.Supplier

variable {α : Type} {s : Supplier α}

/-- The lock, the thread that has it while the supplier below is called, the threads that wait for
it, the supplier below with the environment, and the gets that have ended, the latest one last. -/
structure Crowd (s : Supplier α) where
  lock : Lock (Option α)
  inside : Option Nat
  waiting : List Nat
  below : s.State
  env : Environment
  answered : List (Nat × Outcome α)

/-- What can happen: a thread asks, a thread that waits is handed the lock, the call of the thread
that has the lock ends, or time passes. -/
inductive Deed where
  | ask (thread : Nat)
  | enter (thread : Nat)
  | finish
  | advance (nanoseconds : Nat)
deriving DecidableEq, Repr

/-- The thread that asks anew. -/
def Deed.asking : Deed → List Nat
  | .ask thread => [thread]
  | .enter _ | .finish | .advance _ => []

namespace Crowd

/-- Nobody has asked yet. -/
def gathered (s : Supplier α) (start : Environment) : Crowd s :=
  ⟨.around none, none, [], s.initial, start, []⟩

/-- A get has ended. -/
def answer (c : Crowd s) (thread : Nat) (outcome : Outcome α) : Crowd s :=
  { c with answered := c.answered ++ [(thread, outcome)] }

/-- What comes of a deed. A thread asks for one thing at a time, and the lock is handed out when
nobody has it. -/
def act? (c : Crowd s) : Deed → Option (Crowd s)
  | .ask thread =>
    if thread ∈ c.inside.toList ++ c.waiting then none
    else some { c with waiting := c.waiting ++ [thread] }
  | .enter thread =>
    if c.inside = none ∧ thread ∈ c.waiting then
      let others := { c with waiting := c.waiting.erase thread }
      match Lock.regardless c.lock.enter with
      | some a => some (others.answer thread (.value a))
      | none => some { others with inside := some thread }
    else none
  | .finish =>
    c.inside.map fun thread =>
      let got := s.get c.below c.env
      let outside : Crowd s :=
        { c with lock := settle c.lock got.1, inside := none, below := got.2.1, env := got.2.2 }
      outside.answer thread got.1
  | .advance nanoseconds => some { c with env := c.env.advance nanoseconds }

/-- What comes of deeds one after the other. -/
def acts? (c : Crowd s) : List Deed → Option (Crowd s)
  | [] => some c
  | deed :: more => (c.act? deed).bind (acts? · more)

end Crowd

end Groundwork.Supplier
