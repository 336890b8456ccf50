import Groundwork.SortedMap.Basic

/-!
# Decorators of sorted maps

A decorator is around another sorted map, its delegate. It says what it does with each operation,
and whatever it does not say is what the delegate does.

* `Methods` are the operations on a sorted map one by one.
* `Forwarder` is what a decorator says, `Forwarder.methods` makes a sorted map of it.
* `decorator` is the decorator that answers some operations itself.
-/

namespace Groundwork.SortedMap

variable {κ ν σ : Type}

/-- The operations on a sorted map one by one. A map that does not tell whether it is empty is so
when its size is zero. -/
structure Methods (κ ν σ : Type) where
  size : σ → Nat × σ
  isEmpty : σ → Bool × σ := fun s => let here := size s; (here.1 = 0, here.2)
  get : κ → σ → Option ν × σ
  contains : κ → σ → Bool × σ
  insert : κ → ν → σ → Option ν × σ
  remove : κ → σ → Option ν × σ
  firstKey : σ → Option κ × σ
  lastKey : σ → Option κ × σ
  head : κ → σ → List (κ × ν) × σ
  tail : κ → σ → List (κ × ν) × σ
  sub : κ → κ → σ → Except RangeError (List (κ × ν)) × σ

/-- The behaviour of a map whose operations are given. -/
def Methods.behaviour (m : Methods κ ν σ) : Behaviour (mapInterface κ ν) σ
  | .insert key value => m.insert key value
  | .remove key => m.remove key
  | .get key => m.get key
  | .contains key => m.contains key
  | .size => m.size
  | .isEmpty => m.isEmpty
  | .firstKey => m.firstKey
  | .lastKey => m.lastKey
  | .head limit => m.head limit
  | .tail start => m.tail start
  | .sub start limit => m.sub start limit

/-- What a decorator around `delegate` does with each operation: what the delegate does, unless it
says otherwise. -/
structure Forwarder (delegate : Behaviour (mapInterface κ ν) σ) where
  size : σ → Nat × σ := delegate .size
  isEmpty : σ → Bool × σ := delegate .isEmpty
  get : κ → σ → Option ν × σ := fun key => delegate (.get key)
  contains : κ → σ → Bool × σ := fun key => delegate (.contains key)
  insert : κ → ν → σ → Option ν × σ := fun key value => delegate (.insert key value)
  remove : κ → σ → Option ν × σ := fun key => delegate (.remove key)
  firstKey : σ → Option κ × σ := delegate .firstKey
  lastKey : σ → Option κ × σ := delegate .lastKey
  head : κ → σ → List (κ × ν) × σ := fun limit => delegate (.head limit)
  tail : κ → σ → List (κ × ν) × σ := fun start => delegate (.tail start)
  sub : κ → κ → σ → Except RangeError (List (κ × ν)) × σ :=
    fun start limit => delegate (.sub start limit)

namespace Forwarder

variable {delegate : Behaviour (mapInterface κ ν) σ}

/-- A decorator is a sorted map: every operation is what the decorator says. -/
def methods (f : Forwarder delegate) : Methods κ ν σ where
  size := f.size
  isEmpty := f.isEmpty
  get := f.get
  contains := f.contains
  insert := f.insert
  remove := f.remove
  firstKey := f.firstKey
  lastKey := f.lastKey
  head := f.head
  tail := f.tail
  sub := f.sub

/-- What a decorator says that answers some operations itself. -/
def overriding (delegate : Behaviour (mapInterface κ ν) σ) (own : Overrides (mapInterface κ ν) σ) :
    Forwarder delegate :=
  let forwards : Forwarder delegate := {}
  { size := (own .size).getD forwards.size
    isEmpty := (own .isEmpty).getD forwards.isEmpty
    get := fun key => (own (.get key)).getD (forwards.get key)
    contains := fun key => (own (.contains key)).getD (forwards.contains key)
    insert := fun key value => (own (.insert key value)).getD (forwards.insert key value)
    remove := fun key => (own (.remove key)).getD (forwards.remove key)
    firstKey := (own .firstKey).getD forwards.firstKey
    lastKey := (own .lastKey).getD forwards.lastKey
    head := fun limit => (own (.head limit)).getD (forwards.head limit)
    tail := fun start => (own (.tail start)).getD (forwards.tail start)
    sub := fun start limit => (own (.sub start limit)).getD (forwards.sub start limit) }

end Forwarder

/-- The decorator around `delegate` that answers some operations itself. -/
def decorator (delegate : Behaviour (mapInterface κ ν) σ) (own : Overrides (mapInterface κ ν) σ) :
    Behaviour (mapInterface κ ν) σ :=
  (Forwarder.overriding delegate own).methods.behaviour

end Groundwork.SortedMap
