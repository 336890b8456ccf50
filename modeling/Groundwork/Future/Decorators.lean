import Groundwork.Future.Forwarding

/-!
# Decorated futures of text

`uncancellable` is a decorator that cannot be cancelled and numbers the results that were read
through it.
-/

namespace Groundwork.Future

/-- A future of text and how often its result was asked for. -/
structure Tallied where
  future : Future String
  reads : Nat
deriving DecidableEq, Repr

/-- A tallied future that nobody has completed or read. -/
def Tallied.initial : Tallied := ⟨.pending, 0⟩

/-- The behaviour of the future alone; the tally plays no part. -/
def Tallied.settable : Behaviour (futureInterface String) Tallied := fun op s =>
  let here := Future.settable op s.future
  (here.1, { s with future := here.2 })

/-- The decorator around `delegate` that refuses to cancel, and counts the reads and appends their
number to the value that is read. -/
def uncancellable (delegate : Behaviour (futureInterface String) Tallied) :
    Behaviour (futureInterface String) Tallied :=
  decorator delegate fun
    | .cancel _ => some fun s => (false, s)
    | .get => some fun s =>
      let here := delegate .get { s with reads := s.reads + 1 }
      let number := "#" ++ toString (s.reads + 1)
      (here.1.map fun outcome => outcome.map (· ++ number), here.2)
    | _ => none

end Groundwork.Future
