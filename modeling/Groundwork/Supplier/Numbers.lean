import Groundwork.Supplier.Basic

/-!
# Functions on 64-bit numbers

Functions to compose with suppliers of 64-bit numbers; arithmetic wraps around at 64 bits. `sorted`
shows the outcomes of calls that came together, whatever order they came in.
-/

namespace Groundwork.Supplier

/-- Adds `k`. -/
def plus (k n : Int64) : Outcome Int64 := .value (n + k)

/-- Multiplies by `k`. -/
def times (k n : Int64) : Outcome Int64 := .value (n * k)

/-- The decimal text. -/
def decimalText (n : Int64) : Outcome String := .value (toString n.toInt)

/-- The length of a text in bytes. -/
def textLength (s : String) : Outcome Int64 := .value (Int64.ofNat s.utf8ByteSize)

/-- The length of the decimal text, the sign included. -/
def decimalLength (n : Int64) : Outcome Int64 := (decimalText n).andThen textLength

/-- Panics at an odd number. -/
def rejectOdd (n : Int64) : Outcome Int64 :=
  if n.toInt % 2 = 0 then .value n else .panic ("odd " ++ toString n.toInt)

/-- Values and panics of calls that came together, each in ascending order. -/
def sorted (outcomes : List (Outcome Int64)) : List Int64 × List String :=
  ((Outcome.values outcomes).mergeSort fun a b => a ≤ b,
    (Outcome.panics outcomes).mergeSort fun a b => a ≤ b)

end Groundwork.Supplier
