import Groundwork.Supplier.Basic

/-!
# Suppliers that remember

* `Lock` guards a content. Whoever panics inside leaves the lock poisoned, and it is entered all the
  same.
* `Supplier.memoize` remembers the first value for good, behind a lock.
* `Supplier.expiring` remembers a value for a time on a clock and then asks for another one. The
  time counts from the end of the call that gave the value. If it ends beyond the range of the
  clock, the value stays for good.

A call that panics leaves behind what was remembered before it.
-/

namespace Groundwork

/-- The reason why there is no expiring supplier. -/
inductive ExpiryError where
  | nonPositiveDuration
deriving DecidableEq, Repr

/-- The wording of the reason. -/
def ExpiryError.message : ExpiryError → String
  | .nonPositiveDuration => "expiration duration must be positive"

/-- A lock and what it guards. It is poisoned once somebody has panicked inside. -/
structure Lock (α : Type) where
  content : α
  poisoned : Bool
deriving DecidableEq, Repr

namespace Lock

variable {α : Type}

/-- A lock that nobody has entered yet. -/
def around (content : α) : Lock α := ⟨content, false⟩

/-- What whoever enters is handed: the content, and if the lock is poisoned, as a refusal. -/
def enter (l : Lock α) : Except α α :=
  if l.poisoned then .error l.content else .ok l.content

/-- The content, handed out either way. -/
def regardless : Except α α → α
  | .ok content => content
  | .error content => content

/-- The lock after somebody has left with another content inside. -/
def leave (l : Lock α) (content : α) : Lock α := { l with content := content }

/-- The lock after a panic inside. -/
def poison (l : Lock α) : Lock α := { l with poisoned := true }

/-- Poison keeps nobody out. -/
@[simp] theorem regardless_enter (l : Lock α) : regardless l.enter = l.content := by
  unfold enter
  split <;> rfl

end Lock

namespace Supplier

-- powers mean the same whether or not algebra is imported beside this module
attribute [local instance (2000)] instPowNat

variable {α : Type}

/-- The lock once a call inside has ended: a value is put there, and a panic poisons the lock. -/
def settle (lock : Lock (Option α)) : Outcome α → Lock (Option α)
  | .value a => lock.leave (some a)
  | .panic _ => lock.poison

/-- Remembers the first value that another supplier gives. -/
def memoize (s : Supplier α) : Supplier α where
  State := Lock (Option α) × s.State
  initial := (.around none, s.initial)
  get := fun (lock, state) e =>
    match Lock.regardless lock.enter with
    | some a => (.value a, (lock, state), e)
    | none =>
      let got := s.get state e
      (got.1, (settle lock got.1, got.2.1), got.2.2)

/-! ## Values with a deadline -/

/-- The first reading, in nanoseconds, that a clock cannot show. -/
def clockRange : Nat := 2 ^ (63 : Nat) * 1000000000

/-- The reading a duration after `now`, if a clock can show it. -/
def deadline? (now duration : Nat) : Option Nat :=
  if now + duration < clockRange then some (now + duration) else none

/-- A value and the reading of the clock from which on it is stale, if there is one. -/
structure Cached (α : Type) where
  value : α
  expiresAt : Option Nat
deriving DecidableEq, Repr

/-- Whether a value can still be given at a reading of the clock. -/
def Cached.isFresh (c : Cached α) (now : Nat) : Bool :=
  match c.expiresAt with
  | some deadline => now < deadline
  | none => true

/-- The value that can still be given, if there is one. -/
def fresh? (slot : Option (Cached α)) (now : Nat) : Option α :=
  match slot with
  | some c => if c.isFresh now then some c.value else none
  | none => none

/-- Remembers a value for `duration` nanoseconds on the clock that `clock` reads. -/
def remembering (clock : Environment → Nat) (duration : Nat) (s : Supplier α) : Supplier α where
  State := Option (Cached α) × s.State
  initial := (none, s.initial)
  get := fun (slot, state) e =>
    match fresh? slot (clock e) with
    | some a => (.value a, (slot, state), e)
    | none =>
      match s.get state e with
      | (.value a, after, e) =>
        (.value a, (some ⟨a, deadline? (clock e) duration⟩, after), e)
      | (.panic text, after, e) => (.panic text, (slot, after), e)

/-- Remembers a value for a duration, which is not zero, on the clock that `clock` reads. -/
def expiring (clock : Environment → Nat) (duration : Nat) (s : Supplier α) :
    Except ExpiryError (Supplier α) :=
  if duration = 0 then .error .nonPositiveDuration else .ok (s.remembering clock duration)

/-- The clock that shows the time of the environment. -/
def sharedClock (e : Environment) : Nat := e.now

/-- A clock that stands still: it measures durations much longer than a run. -/
def stillClock (_ : Environment) : Nat := 0

end Supplier

end Groundwork
