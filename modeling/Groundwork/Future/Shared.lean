import Groundwork.Future.Basic
import Groundwork.Waiting

/-!
# Shared futures

Any number of handles share a future. Whoever has a handle may complete the future as well as ask
it, and a call means the same through every handle.

* `sharedFutureInterface` is what can be done through a handle, `Future.shared` what comes of it.
* `Future.patience` tells who waits: readers of a pending future do, for some time or for as long as
  it takes.
-/

namespace Groundwork

/-- The operations through a handle on a future. -/
inductive SharedFutureOp (α : Type) where
  | set (a : α)
  | fail (message : String)
  | ask (op : FutureOp)
deriving DecidableEq, Repr

/-- The answers: whoever completes the future is told whether it was completed by this call. -/
abbrev SharedFutureOp.Answer (α : Type) : SharedFutureOp α → Type
  | .set _ => Bool
  | .fail _ => Bool
  | .ask op => op.Answer α

/-- The interface of a handle on a future. -/
abbrev sharedFutureInterface (α : Type) : Interface :=
  ⟨SharedFutureOp α, SharedFutureOp.Answer α⟩

namespace Future

variable {α : Type}

/-- What comes of a call through a handle. -/
def shared : Behaviour (sharedFutureInterface α) (Future α)
  | .set a, f => f.set a
  | .fail message, f => f.fail message
  | .ask op, f => settable op f

/-- A reader waits as long as it takes, or for some time; all other calls are over at once. -/
def patience : Patience (sharedFutureInterface α)
  | .ask .get, none => .waits
  | .ask (.getInTime _), .error .timedOut => .waitsInTime
  | _, _ => .over

end Future

end Groundwork
