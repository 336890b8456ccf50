import Groundwork.Interface

/-!
# Callers who wait

Several callers share one behaviour. Whoever calls looks at the state, and the answer either ends
the call or makes the caller wait; who waits looks again at any later time, and who waits for some
time only makes do with what is found when the time is over. Looks do not overlap.

* `Patience` tells which answers end a call.
* `WaitingRoom` is the state together with the calls that wait, `Visit` what callers do.
* `WaitingRoom.visit?` is one visit, `WaitingRoom.visits?` a run of them, with the calls that were
  answered.
-/

namespace Groundwork

/-- What an answer means to the caller who has found it: the call is over, or the caller waits, or
waits for some time and goes away with this answer when the time is over. -/
inductive Verdict where
  | over
  | waits
  | waitsInTime
deriving DecidableEq, Repr

/-- What every answer means to the caller. -/
abbrev Patience (I : Interface) : Type := (op : I.Op) → I.Answer op → Verdict

/-- An operation with the answer to it. -/
abbrev Answered (I : Interface) : Type := (op : I.Op) × I.Answer op

/-- A state and the operations whose callers wait. -/
structure WaitingRoom (I : Interface) (σ : Type) where
  state : σ
  waiting : List I.Op

/-- What callers do: one comes and calls, one who waits looks again, or the time of one who waits is
over. -/
inductive Visit (I : Interface) where
  | call (op : I.Op)
  | look (index : Nat)
  | giveUp (index : Nat)

/-- The operation that a visit asks for anew. -/
def Visit.called {I : Interface} : Visit I → List I.Op
  | .call op => [op]
  | .look _ | .giveUp _ => []

namespace WaitingRoom

variable {I : Interface} {σ : Type}

/-- What comes of a visit: the operation if it was answered, and the room afterwards. Only somebody
who waits can look again, and only somebody who waits for some time can give up. -/
def visit? (b : Behaviour I σ) (patience : Patience I) (room : WaitingRoom I σ) :
    Visit I → Option (List (Answered I) × WaitingRoom I σ)
  | .call op =>
    let here := b op room.state
    match patience op here.1 with
    | .over => some ([⟨op, here.1⟩], ⟨here.2, room.waiting⟩)
    | .waits | .waitsInTime => some ([], ⟨here.2, room.waiting ++ [op]⟩)
  | .look index =>
    match room.waiting[index]? with
    | none => none
    | some op =>
      let here := b op room.state
      match patience op here.1 with
      | .over => some ([⟨op, here.1⟩], ⟨here.2, room.waiting.eraseIdx index⟩)
      | .waits | .waitsInTime => some ([], ⟨here.2, room.waiting⟩)
  | .giveUp index =>
    match room.waiting[index]? with
    | none => none
    | some op =>
      let here := b op room.state
      match patience op here.1 with
      | .over | .waitsInTime => some ([⟨op, here.1⟩], ⟨here.2, room.waiting.eraseIdx index⟩)
      | .waits => none

/-- What comes of visits one after the other: the operations that were answered, in the order of the
answers, and the room afterwards. -/
def visits? (b : Behaviour I σ) (patience : Patience I) (room : WaitingRoom I σ) :
    List (Visit I) → Option (List (Answered I) × WaitingRoom I σ)
  | [] => some ([], room)
  | visit :: more =>
    (room.visit? b patience visit).bind fun here =>
      (visits? b patience here.2 more).map fun later => (here.1 ++ later.1, later.2)

end WaitingRoom

end Groundwork
