import Groundwork.Queue.Basic

/-!
# Two threads that meet at a queue

One thread waits at a full queue for room, or at an empty one for an item, until another thread
brings it. The functions take the queue to be full, or empty, to begin with. Whoever waits looks at
the queue once more after the other has been there, and then gets through.
-/

namespace Groundwork.Queue

variable {α σ : Type}

/-- A thread waits to put an item in; another takes one. What the other got. -/
def putWhileTaken (b : Behaviour (queueInterface α) σ) (item : α) (s : σ) : Option α × σ :=
  let waiting := b (.put item) s
  let taken := b .take waiting.2
  (taken.1, (b (.put item) taken.2).2)

/-- A thread waits for room for its offer; another polls. What the other got, and the answer to the
offer. -/
def offerWhilePolled (b : Behaviour (queueInterface α) σ) (item : α) (s : σ) :
    (Option α × Offer α) × σ :=
  let polled := b .poll s
  let offered := b (.offerInTime item 0) polled.2
  ((polled.1, offered.1), offered.2)

/-- A thread waits to take an item; another puts one in. What the first got. -/
def takeWhilePut (b : Behaviour (queueInterface α) σ) (item : α) (s : σ) : Option α × σ :=
  let waiting := b .take s
  b .take (b (.put item) waiting.2).2

/-- A thread polls with time to spare; another puts an item in. What the first got. -/
def pollWhilePut (b : Behaviour (queueInterface α) σ) (item : α) (s : σ) : Option α × σ :=
  b (.pollInTime 0) (b (.put item) s).2

/-- The queue after `count` threads have put the same item in. -/
def putRepeatedly (b : Behaviour (queueInterface α) σ) (item : α) : (count : Nat) → σ → σ
  | 0, s => s
  | count + 1, s => putRepeatedly b item count (b (.put item) s).2

/-- Several threads wait to put the same item in; another drains the queue. The number that it
moved, and its sink afterwards. -/
def putWhileDrained (b : Behaviour (queueInterface α) σ) (item : α) (count : Nat)
    (sink : List α) (limit : Nat) (s : σ) : (Nat × List α) × σ :=
  let drained := b (.drainUpTo sink limit) s
  (drained.1, putRepeatedly b item count drained.2)

/-- Takes up to a number of items, the first one taken first. -/
def takeSeveral (b : Behaviour (queueInterface α) σ) : (count : Nat) → σ → List α × σ
  | 0, s => ([], s)
  | count + 1, s =>
    let here := b .take s
    let later := takeSeveral b count here.2
    (here.1.toList ++ later.1, later.2)

/-- A thread puts items in, one after the other, while another takes one for each of them; the other
takes when the first one has to wait, and at the end the `owed` ones that it has not taken yet. -/
def transferOwing (b : Behaviour (queueInterface α) σ) (owed : Nat) : List α → σ → List α × σ
  | [], s => takeSeveral b owed s
  | item :: more, s =>
    match b (.put item) s with
    | (some (), after) => transferOwing b (owed + 1) more after
    | (none, after) =>
      let taken := b .take after
      let later := transferOwing b owed more (b (.put item) taken.2).2
      (taken.1.toList ++ later.1, later.2)

/-- A thread puts items in, one after the other, while another takes as many. What the other
took. -/
def transfer (b : Behaviour (queueInterface α) σ) (items : List α) (s : σ) : List α × σ :=
  transferOwing b 0 items s

end Groundwork.Queue
