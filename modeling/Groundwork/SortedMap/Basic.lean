import Groundwork.Interface
import Std.Data.TreeMap

/-!
# Sorted maps

A sorted map holds one value for each of its keys and lists them in ascending order of the keys.

* `SortedMap` is the ordered tree map; `head`, `tail` and `sub` are its views of the keys below a
  bound, from a bound on, and between two bounds, the lower bound included and the upper not.
* `mapInterface` is what a client can ask for, `SortedMap.ordered` the behaviour of a map by itself.
-/

namespace Groundwork

/-- The reason why there is no view. -/
inductive RangeError where
  | invertedRange
deriving DecidableEq, Repr

/-- The wording of the reason. -/
def RangeError.message : RangeError → String
  | .invertedRange => "range start is greater than range end"

/-- A map from keys to values in ascending order of the keys. -/
abbrev SortedMap (κ ν : Type) [Ord κ] : Type := Std.TreeMap κ ν compare

namespace SortedMap

variable {κ ν : Type} [Ord κ]

/-- Puts a value in and tells which one the key had before. -/
def put (m : SortedMap κ ν) (k : κ) (v : ν) : Option ν × SortedMap κ ν :=
  (m.get? k, m.insert k v)

/-- Takes a key out and tells which value it had. -/
def takeOut (m : SortedMap κ ν) (k : κ) : Option ν × SortedMap κ ν :=
  (m.get? k, m.erase k)

/-- The entries whose keys are below `limit`. -/
def head (m : SortedMap κ ν) (limit : κ) : List (κ × ν) :=
  m.toList.filter fun entry => (compare entry.1 limit).isLT

/-- The entries whose keys are not below `start`. -/
def tail (m : SortedMap κ ν) (start : κ) : List (κ × ν) :=
  m.toList.filter fun entry => (compare entry.1 start).isGE

/-- The entries whose keys are below `limit` but not below `start`; the bounds are in order. -/
def sub (m : SortedMap κ ν) (start limit : κ) : Except RangeError (List (κ × ν)) :=
  if (compare start limit).isGT then .error .invertedRange
  else .ok (m.toList.filter fun entry =>
    (compare entry.1 start).isGE && (compare entry.1 limit).isLT)

end SortedMap

/-! ## What a client can ask for -/

/-- The operations on a sorted map. -/
inductive MapOp (κ ν : Type) where
  | insert (key : κ) (value : ν)
  | remove (key : κ)
  | get (key : κ)
  | contains (key : κ)
  | size
  | isEmpty
  | firstKey
  | lastKey
  | head (limit : κ)
  | tail (start : κ)
  | sub (start limit : κ)
deriving DecidableEq, Repr

/-- The answers to the operations on a sorted map. -/
abbrev MapOp.Answer {κ ν : Type} : MapOp κ ν → Type
  | .insert _ _ => Option ν
  | .remove _ => Option ν
  | .get _ => Option ν
  | .contains _ => Bool
  | .size => Nat
  | .isEmpty => Bool
  | .firstKey => Option κ
  | .lastKey => Option κ
  | .head _ => List (κ × ν)
  | .tail _ => List (κ × ν)
  | .sub _ _ => Except RangeError (List (κ × ν))

/-- The interface of a sorted map. -/
abbrev mapInterface (κ ν : Type) : Interface := ⟨MapOp κ ν, MapOp.Answer⟩

/-- A sorted map by itself. -/
def SortedMap.ordered {κ ν : Type} [Ord κ] : Behaviour (mapInterface κ ν) (SortedMap κ ν)
  | .insert k v, m => m.put k v
  | .remove k, m => m.takeOut k
  | .get k, m => (m.get? k, m)
  | .contains k, m => (m.contains k, m)
  | .size, m => (m.size, m)
  | .isEmpty, m => (m.isEmpty, m)
  | .firstKey, m => (m.minKey?, m)
  | .lastKey, m => (m.maxKey?, m)
  | .head limit, m => (m.head limit, m)
  | .tail start, m => (m.tail start, m)
  | .sub start limit, m => (m.sub start limit, m)

end Groundwork
