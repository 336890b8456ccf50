import Groundwork.Queue.Meeting
import Groundwork.Proofs.Queue.Fifo

/-!
# Meetings at a queue

Two threads that meet at a queue make a run in which one of them waits until the other has been
there. Whoever waits gets through, and the items come out as they went in.

* `visits?_meeting`: one caller waits for another one, whatever they share.
* `putWhileTaken_of_full`, `offerWhilePolled_of_full`: who waits for room gets the place that the
  other makes, behind all that is there.
* `takeWhilePut_of_empty`, `pollWhilePut_of_empty`: who waits for an item gets the one that the
  other brings.
* `putWhileDrained_of_full`: of those who wait for room as many get through as there are places.
* `transfer_of_empty`: whatever the capacity, the items that one thread puts in come out at the
  other, all of them and in the same order.
-/

namespace Groundwork

/-- A caller has to wait, another one is served at once, and the first one, who looks again then, is
served too. -/
theorem WaitingRoom.visits?_meeting {I : Interface} {σ : Type} {b : Behaviour I σ}
    {patience : Patience I} {op other : I.Op} {s between after : σ} {found : I.Answer op}
    {served : I.Answer other} {got : I.Answer op} (first : b op s = (found, s))
    (waits : patience op found ≠ .over) (second : b other s = (served, between))
    (ends : patience other served = .over) (third : b op between = (got, after))
    (through : patience op got = .over) :
    visits? b patience ⟨s, []⟩ [.call op, .call other, .look 0] =
      some ([⟨other, served⟩, ⟨op, got⟩], ⟨after, []⟩) := by
  have called : visit? b patience ⟨s, []⟩ (.call op) = some ([], ⟨s, [op]⟩) := by
    simp only [visit?, first]
    rcases verdict : patience op found with _ | _ | _
    · exact absurd verdict waits
    · rfl
    · rfl
  have met : visit? b patience ⟨s, [op]⟩ (.call other) =
      some ([⟨other, served⟩], ⟨between, [op]⟩) := by
    simp only [visit?, second, ends]
  have looked : visit? b patience ⟨between, [op]⟩ (.look 0) = some ([⟨op, got⟩], ⟨after, []⟩) := by
    simp only [visit?, List.getElem?_cons_zero, third, through]
    rfl
  simp only [visits?, called, met, looked, Option.bind_some, Option.map_some]
  rfl

namespace Queue

open WaitingRoom

variable {α : Type}

/-! ## Waiting for room -/

section Full

variable (first : α) (rest : List α) (item : α)

/-- Once the oldest item of a full queue has been handed out, there is room for one at the end. -/
theorem put_behind : (⟨rest.length + 1, rest⟩ : Queue α).put item =
    (some (), ⟨rest.length + 1, rest ++ [item]⟩) :=
  put_of_not_full (Nat.ne_of_lt (Nat.lt_succ_self _)) item

theorem putWhileTaken_of_full :
    putWhileTaken array item ⟨rest.length + 1, first :: rest⟩ =
      (some first, ⟨rest.length + 1, rest ++ [item]⟩) ∧
    visits? array patience ⟨⟨rest.length + 1, first :: rest⟩, []⟩
      [.call (.put item), .call .take, .look 0] =
      some ([⟨.take, some first⟩, ⟨.put item, some ()⟩],
        ⟨⟨rest.length + 1, rest ++ [item]⟩, []⟩) := by
  have waits : array (.put item) ⟨rest.length + 1, first :: rest⟩ = (none, _) :=
    put_of_full rfl item
  have taken : array .take ⟨rest.length + 1, first :: rest⟩ =
      (some first, ⟨rest.length + 1, rest⟩) := rfl
  have through : array (.put item) ⟨rest.length + 1, rest⟩ = (some (), _) := put_behind rest item
  constructor
  · simp only [putWhileTaken, waits, taken, through]
  · exact visits?_meeting waits nofun taken rfl through rfl

theorem offerWhilePolled_of_full (milliseconds : Nat) :
    offerWhilePolled array item ⟨rest.length + 1, first :: rest⟩ =
      ((some first, .accepted), ⟨rest.length + 1, rest ++ [item]⟩) ∧
    visits? array patience ⟨⟨rest.length + 1, first :: rest⟩, []⟩
      [.call (.offerInTime item milliseconds), .call .poll, .look 0] =
      some ([⟨.poll, some first⟩, ⟨.offerInTime item milliseconds, .accepted⟩],
        ⟨⟨rest.length + 1, rest ++ [item]⟩, []⟩) := by
  have waits : array (.offerInTime item milliseconds) ⟨rest.length + 1, first :: rest⟩ =
      (.refused item, _) := offer_of_full rfl item
  have polled : array .poll ⟨rest.length + 1, first :: rest⟩ =
      (some first, ⟨rest.length + 1, rest⟩) := rfl
  have through : ∀ time, array (.offerInTime item time) ⟨rest.length + 1, rest⟩ =
      (.accepted, ⟨rest.length + 1, rest ++ [item]⟩) :=
    fun _ => offer_of_not_full (Nat.ne_of_lt (Nat.lt_succ_self _)) item
  constructor
  · simp only [offerWhilePolled, polled, through]
  · exact visits?_meeting waits nofun polled rfl (through milliseconds) rfl

end Full

/-- Threads that put the same item in fill the queue up; those for which there is no room wait. -/
theorem putRepeatedly_eq (item : α) (count : Nat) {q : Queue α}
    (fits : q.items.length ≤ q.capacity) : putRepeatedly array item count q =
      { q with items := q.items ++ List.replicate (min count q.remainingCapacity) item } := by
  induction count generalizing q with
  | zero =>
    rw [Nat.zero_min, List.replicate_zero, List.append_nil]
    rfl
  | succ count ih =>
    show putRepeatedly array item count (q.put item).2 = _
    by_cases full : q.items.length = q.capacity
    · -- nobody gets through any more
      have none : q.remainingCapacity = 0 := by
        rw [remainingCapacity, full, Nat.sub_self]
      rw [put_of_full full, ih fits, none, Nat.min_zero, Nat.min_zero]
    · have fits' : (q.push item).items.length ≤ (q.push item).capacity := by
        show (q.items ++ [item]).length ≤ q.capacity
        rw [List.length_append, List.length_singleton]
        omega
      have less : q.remainingCapacity = (q.push item).remainingCapacity + 1 := by
        show q.capacity - q.items.length = q.capacity - (q.items ++ [item]).length + 1
        rw [List.length_append, List.length_singleton]
        omega
      rw [put_of_not_full full, ih fits', less, Nat.add_min_add_right, List.replicate_succ]
      show Queue.mk q.capacity ((q.items ++ [item]) ++ _) = _
      rw [List.append_assoc]
      rfl

/-- A drain makes room for those who wait to put the same item in. -/
theorem putWhileDrained_of_full (item : α) (count limit : Nat) (sink items : List α) :
    let moved := min limit items.length
    putWhileDrained array item count sink limit ⟨items.length, items⟩ =
      ((moved, sink ++ items.take moved),
        ⟨items.length, items.drop moved ++ List.replicate (min count moved) item⟩) := by
  intro moved
  let left : Queue α := ⟨items.length, items.drop moved⟩
  have most : moved ≤ items.length := Nat.min_le_right _ _
  have fits : left.items.length ≤ left.capacity := by
    show (items.drop moved).length ≤ items.length
    rw [List.length_drop]
    exact Nat.sub_le _ _
  have places : left.remainingCapacity = moved := by
    show items.length - (items.drop moved).length = moved
    rw [List.length_drop, Nat.sub_sub_self most]
  show (_, putRepeatedly array item count left) = _
  rw [putRepeatedly_eq item count fits, places]
  rfl

/-! ## Waiting for an item -/

section Empty

variable (room : Nat) (item : α)

/-- An empty queue has room for an item. -/
theorem put_empty : (⟨room + 1, []⟩ : Queue α).put item = (some (), ⟨room + 1, [item]⟩) := by
  have empty : ([] : List α).length ≠ room + 1 := (Nat.succ_ne_zero room).symm
  exact put_of_not_full empty item

theorem takeWhilePut_of_empty :
    takeWhilePut array item ⟨room + 1, []⟩ = (some item, ⟨room + 1, []⟩) ∧
    visits? array patience ⟨⟨room + 1, []⟩, []⟩ [.call .take, .call (.put item), .look 0] =
      some ([⟨.put item, some ()⟩, ⟨.take, some item⟩], ⟨⟨room + 1, []⟩, []⟩) := by
  have waits : array (.take : QueueOp α) ⟨room + 1, []⟩ = (none, ⟨room + 1, []⟩) := rfl
  have brought : array (.put item) ⟨room + 1, []⟩ = (some (), ⟨room + 1, [item]⟩) :=
    put_empty room item
  have through : array .take ⟨room + 1, [item]⟩ = (some item, ⟨room + 1, []⟩) := rfl
  constructor
  · simp only [takeWhilePut, waits, brought, through]
  · exact visits?_meeting waits nofun brought rfl through rfl

theorem pollWhilePut_of_empty (milliseconds : Nat) :
    pollWhilePut array item ⟨room + 1, []⟩ = (some item, ⟨room + 1, []⟩) ∧
    visits? array patience ⟨⟨room + 1, []⟩, []⟩
      [.call (.pollInTime milliseconds), .call (.put item), .look 0] =
      some ([⟨.put item, some ()⟩, ⟨.pollInTime milliseconds, some item⟩],
        ⟨⟨room + 1, []⟩, []⟩) := by
  have waits : array (.pollInTime milliseconds : QueueOp α) ⟨room + 1, []⟩ =
      (none, ⟨room + 1, []⟩) := rfl
  have brought : array (.put item) ⟨room + 1, []⟩ = (some (), ⟨room + 1, [item]⟩) :=
    put_empty room item
  have through : ∀ time, array (.pollInTime time) ⟨room + 1, [item]⟩ =
      (some item, ⟨room + 1, []⟩) := fun _ => rfl
  constructor
  · simp only [pollWhilePut, brought, through]
  · exact visits?_meeting waits nofun brought rfl (through milliseconds) rfl

end Empty

/-! ## From one thread to the other -/

theorem takeSeveral_eq (q : Queue α) :
    takeSeveral array q.items.length q = (q.items, { q with items := [] }) := by
  rcases q with ⟨capacity, items⟩
  induction items with
  | nil => rfl
  | cons first rest ih =>
    have taken : array .take ⟨capacity, first :: rest⟩ = (some first, ⟨capacity, rest⟩) := rfl
    dsimp only at ih ⊢
    rw [List.length_cons, takeSeveral, taken, ih]
    rfl

/-- With as many takes owed as there are items in the queue, all that is in it and all that comes is
taken. -/
theorem transferOwing_eq {capacity : Nat} (positive : 0 < capacity) (items : List α)
    {held : List α} (fits : held.length ≤ capacity) :
    transferOwing array held.length items ⟨capacity, held⟩ = (held ++ items, ⟨capacity, []⟩) := by
  induction items generalizing held with
  | nil =>
    rw [List.append_nil]
    exact takeSeveral_eq ⟨capacity, held⟩
  | cons item more ih =>
    by_cases full : held.length = capacity
    · -- the other one takes the oldest item, and the one that had to wait comes to the end
      cases held with
      | nil => exact absurd full (Nat.ne_of_lt positive)
      | cons first rest =>
        have waits : array (.put item) ⟨capacity, first :: rest⟩ =
            (none, ⟨capacity, first :: rest⟩) := put_of_full full item
        have taken : array .take ⟨capacity, first :: rest⟩ = (some first, ⟨capacity, rest⟩) := rfl
        have room : rest.length ≠ capacity := by
          rw [List.length_cons] at full
          omega
        have put : array (.put item) ⟨capacity, rest⟩ = (some (), ⟨capacity, rest ++ [item]⟩) :=
          put_of_not_full room item
        have same : (rest ++ [item]).length = (first :: rest).length := List.length_append
        have later := ih (Nat.le_trans (Nat.le_of_eq same) fits)
        rw [same, List.append_assoc] at later
        simp only [transferOwing, waits, taken, put, later]
        rfl
    · have put : array (.put item) ⟨capacity, held⟩ = (some (), ⟨capacity, held ++ [item]⟩) :=
        put_of_not_full full item
      have fits' : (held ++ [item]).length ≤ capacity := by
        rw [List.length_append, List.length_singleton]
        omega
      have later := ih fits'
      rw [List.length_append, List.length_singleton, List.append_assoc] at later
      simp only [transferOwing, put]
      exact later

/-- The items that one thread puts in come out at the other. -/
theorem transfer_of_empty {capacity : Nat} (positive : 0 < capacity) (items : List α) :
    transfer array items ⟨capacity, []⟩ = (items, ⟨capacity, []⟩) := by
  have nothing : ([] : List α).length ≤ capacity := Nat.zero_le capacity
  exact transferOwing_eq positive items nothing

end Queue

end Groundwork
