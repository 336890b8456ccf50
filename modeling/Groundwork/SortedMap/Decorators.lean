import Groundwork.SortedMap.Forwarding

/-!
# Decorated sorted maps

`audited` does not take in negative values; `skewed` claims to be larger than it is and has an
empty view where the bounds are the wrong way round.
-/

namespace Groundwork.SortedMap

variable {κ σ : Type}

/-- The decorator around `delegate` that leaves out negative values. -/
def audited (delegate : Behaviour (mapInterface κ Int) σ) : Behaviour (mapInterface κ Int) σ :=
  decorator delegate fun
    | .insert key value => some fun s =>
      if value < 0 then (none, s) else delegate (.insert key value) s
    | _ => none

/-- The decorator around `delegate` that adds a hundred to the size and shows nothing between bounds
that are the wrong way round. -/
def skewed [Ord κ] (delegate : Behaviour (mapInterface κ Int) σ) :
    Behaviour (mapInterface κ Int) σ :=
  decorator delegate fun
    | .size => some fun s => let here := delegate .size s; (here.1 + 100, here.2)
    | .sub start limit => some fun s =>
      if (compare start limit).isGT then (.ok [], s) else delegate (.sub start limit) s
    | _ => none

/-- All entries, as the view from the first key on. -/
def entries {ν : Type} (b : Behaviour (mapInterface κ ν) σ) (s : σ) : List (κ × ν) × σ :=
  let first := b .firstKey s
  match first.1 with
  | some key => b (.tail key) first.2
  | none => ([], first.2)

end Groundwork.SortedMap
