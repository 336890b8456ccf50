import Groundwork.Queue.Forwarding

/-!
# Decorated queues of integers

`evenOnly` refuses odd items where they are offered, `skewed` claims to be longer than it is.
-/

namespace Groundwork.Queue

/-- The decorator around `delegate` that refuses to be offered an odd item. -/
def evenOnly {σ : Type} (delegate : Behaviour (queueInterface Int) σ) :
    Behaviour (queueInterface Int) σ :=
  decorator delegate fun
    | .offer item => some fun s =>
      if item % 2 = 0 then delegate (.offer item) s else (.refused item, s)
    | _ => none

/-- The decorator around `delegate` that adds ten to the length. -/
def skewed {σ : Type} (delegate : Behaviour (queueInterface Int) σ) :
    Behaviour (queueInterface Int) σ :=
  decorator delegate fun
    | .length => some fun s => let here := delegate .length s; (here.1 + 10, here.2)
    | _ => none

end Groundwork.Queue
