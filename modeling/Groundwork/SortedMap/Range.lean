import Groundwork.SortedMap.Basic

/-!
# Ranges of keys

A range is cut out of the entries of a sorted map by a bound at either end. The bounds have to be in
order: there is no answer to a range that begins behind its end, nor to one that begins and ends at
the same key without holding it.

* `Bound` is where a range begins or ends, `Bound.inOrder` the test of two of them.
* `SortedMap.range?` are the entries in a range, from the first one that it holds up to the last.
* `headRange?`, `tailRange?` and `subRange?` are the views of a map as ranges.
-/

namespace Groundwork

/-- Where a range of keys begins or ends. -/
inductive Bound (κ : Type) where
  | unbounded
  | included (key : κ)
  | excluded (key : κ)
deriving DecidableEq, Repr

namespace Bound

variable {κ : Type} [Ord κ]

/-- Whether a range that begins here has begun at a key. -/
def hasBegun : Bound κ → κ → Bool
  | unbounded, _ => true
  | included start, key => (compare key start).isGE
  | excluded start, key => (compare key start).isGT

/-- Whether a range that ends here still goes on at a key. -/
def goesOn : Bound κ → κ → Bool
  | unbounded, _ => true
  | included limit, key => (compare key limit).isLE
  | excluded limit, key => (compare key limit).isLT

/-- Whether a range can begin at the first bound and end at the second one. -/
def inOrder : Bound κ → Bound κ → Bool
  | unbounded, _ | _, unbounded => true
  | excluded start, excluded limit => (compare start limit).isLT
  | included start, included limit | included start, excluded limit
  | excluded start, included limit => (compare start limit).isLE

end Bound

namespace SortedMap

variable {κ ν : Type} [Ord κ]

/-- The entries in a range, if its bounds are in order: those before it are passed over, and the
first one behind it ends it. -/
def range? (m : SortedMap κ ν) (lower upper : Bound κ) : Option (List (κ × ν)) :=
  if lower.inOrder upper then
    some ((m.toList.dropWhile fun entry => !lower.hasBegun entry.1).takeWhile fun entry =>
      upper.goesOn entry.1)
  else none

/-- The range of the keys below `limit`. -/
def headRange? (m : SortedMap κ ν) (limit : κ) : Option (List (κ × ν)) :=
  m.range? .unbounded (.excluded limit)

/-- The range of the keys that are not below `start`. -/
def tailRange? (m : SortedMap κ ν) (start : κ) : Option (List (κ × ν)) :=
  m.range? (.included start) .unbounded

/-- The range of the keys from `start` on that are below `limit`, unless the bounds are refused. -/
def subRange? (m : SortedMap κ ν) (start limit : κ) :
    Option (Except RangeError (List (κ × ν))) :=
  if (compare start limit).isGT then some (.error .invertedRange)
  else (m.range? (.included start) (.excluded limit)).map .ok

end SortedMap

end Groundwork
