import Groundwork.Interface

/-!
# Futures

A future is completed once, with a value, with a failure or by being cancelled; what completes it
first stays.

* `Future.complete` completes a pending future and tells whether it was the first to do so; `set`,
  `fail` and `cancel` are its three uses.
* `Future.outcome?` is what a completed future holds. Reading a pending future has no outcome yet:
  whoever reads it has to wait (`Future.awaited?`), or gives up after a time
  (`Future.outcomeInTime`).
* `futureInterface` is what a client of a future can ask for, `settable` the behaviour of a future
  by itself.
-/

namespace Groundwork

/-- The reasons why a future gives no value. -/
inductive FutureError where
  | cancelled
  | failed (message : String)
  | timedOut
deriving DecidableEq, Repr

/-- The wording of a reason. -/
def FutureError.message : FutureError → String
  | .cancelled => "future was cancelled"
  | .failed message => "computation failed: " ++ message
  | .timedOut => "timed out waiting for the result"

/-- What completes a future. -/
inductive Completion (α : Type) where
  | value (a : α)
  | failed (message : String)
  | cancelled
deriving DecidableEq, Repr

/-- A result that arrives once. -/
inductive Future (α : Type) where
  | pending
  | completed (c : Completion α)
deriving DecidableEq, Repr

/-- What a reader gets from a completion. -/
def Completion.outcome {α : Type} : Completion α → Except FutureError α
  | .value a => .ok a
  | .failed message => .error (.failed message)
  | .cancelled => .error .cancelled

namespace Future

variable {α : Type}

/-- Whether the future is complete. -/
def isDone : Future α → Bool
  | .pending => false
  | .completed _ => true

/-- Whether the future was cancelled. -/
def isCancelled : Future α → Bool
  | .completed .cancelled => true
  | _ => false

/-- What a reader gets from the future once it is complete. -/
def outcome? : Future α → Option (Except FutureError α)
  | .pending => none
  | .completed c => some c.outcome

/-- What a reader gets who waits until the future is complete, and nothing before. Should a complete
future have no outcome, the reader would be told that it was cancelled. -/
def awaited? (f : Future α) : Option (Except FutureError α) :=
  if f.isDone then some (f.outcome?.getD (.error .cancelled)) else none

/-- What a reader gets who does not wait any longer. -/
def outcomeInTime (f : Future α) : Except FutureError α :=
  f.outcome?.getD (.error .timedOut)

/-- Completes the future unless it is complete, and tells whether it was completed now. -/
def complete (f : Future α) (c : Completion α) : Bool × Future α :=
  match f with
  | .pending => (true, .completed c)
  | .completed first => (false, .completed first)

/-- Completes the future with a value. -/
def set (f : Future α) (a : α) : Bool × Future α := f.complete (.value a)

/-- Completes the future with a failure. -/
def fail (f : Future α) (message : String) : Bool × Future α := f.complete (.failed message)

/-- Completes the future by cancelling it. -/
def cancel (f : Future α) : Bool × Future α := f.complete .cancelled

/-- There is always an outcome once the future is complete. -/
@[simp] theorem awaited?_eq_outcome? (f : Future α) : f.awaited? = f.outcome? := by
  cases f <;> rfl

/-- Completing a pending future completes it. -/
@[simp] theorem complete_pending (c : Completion α) :
    (Future.pending : Future α).complete c = (true, .completed c) := rfl

/-- A completed future stays as it is. -/
@[simp] theorem complete_completed (first c : Completion α) :
    (Future.completed first).complete c = (false, .completed first) := rfl

end Future

/-! ## What a client can ask for -/

/-- The operations on a future: whether a running computation may be interrupted plays no part in
cancelling, nor does the length of the time a reader waits in the answer once it is over. -/
inductive FutureOp where
  | cancel (mayInterrupt : Bool)
  | isCancelled
  | isDone
  | get
  | getInTime (milliseconds : Nat)
deriving DecidableEq, Repr

/-- The answers to the operations on a future; `get` has none as long as the reader has to wait. -/
abbrev FutureOp.Answer (α : Type) : FutureOp → Type
  | .cancel _ => Bool
  | .isCancelled => Bool
  | .isDone => Bool
  | .get => Option (Except FutureError α)
  | .getInTime _ => Except FutureError α

/-- The interface of a future. -/
abbrev futureInterface (α : Type) : Interface := ⟨FutureOp, FutureOp.Answer α⟩

/-- A future by itself. -/
def Future.settable {α : Type} : Behaviour (futureInterface α) (Future α)
  | .cancel _, f => f.cancel
  | .isCancelled, f => (f.isCancelled, f)
  | .isDone, f => (f.isDone, f)
  | .get, f => (f.awaited?, f)
  | .getInTime _, f => (f.outcomeInTime, f)

end Groundwork
