import Groundwork.Queue.Locked
import Groundwork.Proofs.Queue.Fifo

/-!
# The operations on a queue agree

Putting, offering and offering with time to spare are different ways to bring an item, as are
taking, polling and polling with time to spare to get one. Each looks at the queue in its own way
and waits in its own way. They leave the same behind where they are not made to wait, and a drain
leaves what as many polls would leave.

* `wait_append`: sights at which a thread goes on waiting do not matter.
* `array_of_perform`: a thread is through at a sight at which the queue by itself would answer.
* `Agreement` and `exists_ofCapacity_agreement`: what the operations have in common on every queue
  that there can be.
-/

namespace Groundwork.Queue

variable {α : Type}

namespace Locked

/-! ## Waiting -/

section

variable {busy : List α → Bool} {limit : Option Nat}

/-- A thread goes on waiting at a sight where the test holds and there is time. -/
theorem wait_append {waited : List (Sight α)}
    (still : ∀ sight ∈ waited, busy sight.items = true ∧ timeIsUp limit sight.elapsed = false)
    (sights : List (Sight α)) : wait busy limit (waited ++ sights) = wait busy limit sights := by
  induction waited with
  | nil => rfl
  | cons sight waited ih =>
    rcases List.forall_mem_cons.mp still with ⟨⟨holds, time⟩, later⟩
    rw [List.cons_append, wait, if_pos holds, if_neg (Bool.eq_false_iff.mp time), ih later]

theorem timeIsUp_of_lt {limit elapsed : Nat} (h : limit < elapsed) :
    timeIsUp (some limit) elapsed = true :=
  decide_eq_true h

theorem wait_of_free {sight : Sight α} (free : busy sight.items = false) (later : List (Sight α)) :
    wait busy limit (sight :: later) = some sight.items := by
  rw [wait, if_neg (Bool.eq_false_iff.mp free)]

theorem wait_of_timeIsUp {sight : Sight α} (up : timeIsUp limit sight.elapsed = true)
    (later : List (Sight α)) : wait busy limit (sight :: later) = some sight.items := by
  rw [wait, if_pos up, ite_self]

/-- Whoever is through has seen the items, and no longer has to wait or has no more time. -/
theorem exists_sight_of_wait {sights : List (Sight α)} {items : List α}
    (h : wait busy limit sights = some items) :
    ∃ sight ∈ sights, sight.items = items ∧
      (busy items = true → timeIsUp limit sight.elapsed = true) := by
  induction sights with
  | nil => cases h
  | cons sight more ih =>
    rw [wait] at h
    split at h
    · split at h
      · rename_i up
        obtain rfl := Option.some.inj h
        exact ⟨sight, List.mem_cons_self, rfl, fun _ => up⟩
      · rcases ih h with ⟨later, found, seen⟩
        exact ⟨later, List.mem_cons_of_mem sight found, seen⟩
    · rename_i free
      obtain rfl := Option.some.inj h
      exact ⟨sight, List.mem_cons_self, rfl, fun holds => absurd holds free⟩

end

/-- All sights of a thread that waits for room and has time: the queue is full at each. -/
def StillFull (capacity : Nat) (limit : Option Nat) (waited : List (Sight α)) : Prop :=
  ∀ sight ∈ waited, sight.items.length = capacity ∧ timeIsUp limit sight.elapsed = false

/-- All sights of a thread that waits for an item and has time: the queue is empty at each. -/
def StillEmpty (limit : Option Nat) (waited : List (Sight α)) : Prop :=
  ∀ sight ∈ waited, sight.items = [] ∧ timeIsUp limit sight.elapsed = false

section

variable {capacity : Nat} {limit : Option Nat} {waited : List (Sight α)}

theorem StillFull.wait_append (h : StillFull capacity limit waited) (sights : List (Sight α)) :
    wait (isFull capacity) limit (waited ++ sights) = wait (isFull capacity) limit sights := by
  apply Locked.wait_append
  intro sight seen
  rcases h sight seen with ⟨full, time⟩
  exact ⟨decide_eq_true full, time⟩

theorem StillEmpty.wait_append (h : StillEmpty limit waited) (sights : List (Sight α)) :
    wait List.isEmpty limit (waited ++ sights) = wait List.isEmpty limit sights := by
  apply Locked.wait_append
  intro sight seen
  rcases h sight seen with ⟨empty, time⟩
  rw [empty]
  exact ⟨rfl, time⟩

/-- Whoever takes without testing first goes on in the same way. -/
theorem StillEmpty.take_append (h : StillEmpty none waited) (sights : List (Sight α)) :
    take (waited ++ sights) = take sights := by
  induction waited with
  | nil => rfl
  | cons sight waited ih =>
    rcases List.forall_mem_cons.mp h with ⟨⟨empty, -⟩, later⟩
    rw [List.cons_append, take, empty]
    exact ih later

theorem isFull_eq_false {items : List α} (room : items.length ≠ capacity) :
    isFull capacity items = false :=
  decide_eq_false room

end

/-! ## One look at the queue -/

/-- Whoever pushes an item or hands it back does what the queue by itself does. -/
theorem offer_eq (capacity : Nat) (item : α) (items : List α) :
    Queue.offer ⟨capacity, items⟩ item =
      ((pushOrRefuse capacity item items).answer,
        ⟨capacity, (pushOrRefuse capacity item items).items⟩) := by
  by_cases full : items.length = capacity
  · rw [offer_of_full full, pushOrRefuse, if_pos full]
  · rw [offer_of_not_full full, pushOrRefuse, if_neg full]
    rfl

/-- So does whoever pops one. -/
theorem poll_eq (capacity : Nat) (items : List α) :
    Queue.poll ⟨capacity, items⟩ = ((pop items).answer, ⟨capacity, (pop items).items⟩) := by
  cases items with
  | nil => rfl
  | cons item rest => rfl

theorem exists_sight_of_take {sights : List (Sight α)} {left : Departure α (Option α)}
    (h : take sights = some left) : ∃ sight ∈ sights, left = pop sight.items ∧
      left.answer.isSome = true := by
  induction sights with
  | nil => cases h
  | cons sight more ih =>
    rw [take] at h
    split at h
    · rename_i found
      obtain rfl := Option.some.inj h
      exact ⟨sight, List.mem_cons_self, rfl, found⟩
    · rcases ih h with ⟨later, seen, popped⟩
      exact ⟨later, List.mem_cons_of_mem sight seen, popped⟩

/-- Whoever does not wait is through at the first sight. -/
theorem exists_sight_of_head {β : Type} {sights : List (Sight α)} {act : Sight α → Departure α β}
    {left : Departure α β} (h : sights.head?.map act = some left) :
    ∃ sight ∈ sights, left = act sight := by
  rcases Option.map_eq_some_iff.mp h with ⟨sight, first, acted⟩
  exact ⟨sight, List.mem_of_mem_head? first, acted.symm⟩

/-- A thread is through at a sight at which the queue by itself would answer it, and leaves with
this answer and this queue. -/
theorem array_of_perform {largest capacity : Nat} {op : QueueOp α} {sights : List (Sight α)}
    {left : Departure α op.Answer} (short : ∀ sight ∈ sights, sight.items.length ≤ largest)
    (h : perform largest capacity op sights = some left) :
    ∃ sight ∈ sights, array op ⟨capacity, sight.items⟩ = (left.answer, ⟨capacity, left.items⟩) ∧
      patience op left.answer ≠ .waits := by
  cases op with
  | offer item =>
    rcases exists_sight_of_head h with ⟨sight, seen, rfl⟩
    exact ⟨sight, seen, offer_eq capacity item sight.items, nofun⟩
  | offerInTime item milliseconds =>
    rcases Option.map_eq_some_iff.mp h with ⟨items, waited, rfl⟩
    rcases exists_sight_of_wait waited with ⟨sight, seen, rfl, -⟩
    refine ⟨sight, seen, offer_eq capacity item sight.items, ?_⟩
    cases (pushOrRefuse capacity item sight.items).answer <;> nofun
  | put item =>
    rcases Option.map_eq_some_iff.mp h with ⟨items, waited, rfl⟩
    rcases exists_sight_of_wait waited with ⟨sight, seen, rfl, free⟩
    -- there is time for ever, so that there is room now
    have room : sight.items.length ≠ capacity := by
      intro full
      exact Bool.false_ne_true (free (decide_eq_true full))
    exact ⟨sight, seen, put_of_not_full room item, nofun⟩
  | poll =>
    rcases exists_sight_of_head h with ⟨sight, seen, rfl⟩
    exact ⟨sight, seen, poll_eq capacity sight.items, nofun⟩
  | pollInTime milliseconds =>
    rcases Option.map_eq_some_iff.mp h with ⟨items, waited, rfl⟩
    rcases exists_sight_of_wait waited with ⟨sight, seen, rfl, -⟩
    refine ⟨sight, seen, poll_eq capacity sight.items, ?_⟩
    cases (pop sight.items).answer <;> nofun
  | take =>
    rcases exists_sight_of_take h with ⟨sight, seen, rfl, found⟩
    refine ⟨sight, seen, poll_eq capacity sight.items, ?_⟩
    rcases Option.isSome_iff_exists.mp found with ⟨item, some⟩
    rw [some]
    nofun
  | drain sink =>
    rcases exists_sight_of_head h with ⟨sight, seen, rfl⟩
    have all : min largest sight.items.length = min sight.items.length sight.items.length := by
      rw [Nat.min_self, Nat.min_eq_right (short sight seen)]
    refine ⟨sight, seen, ?_, nofun⟩
    show Queue.drainUpTo _ sink _ = _
    rw [Queue.drainUpTo, all]
  | drainUpTo sink limit =>
    rcases exists_sight_of_head h with ⟨sight, seen, rfl⟩
    exact ⟨sight, seen, rfl, nofun⟩
  | remainingCapacity | length | isEmpty =>
    rcases exists_sight_of_head h with ⟨sight, seen, rfl⟩
    exact ⟨sight, seen, rfl, nofun⟩

/-! ## Draining -/

/-- As many polls as there are items hand out these items, in order. -/
theorem run_polls (q : Queue α) {count : Nat} (enough : count ≤ q.items.length) :
    Behaviour.run array (List.replicate count .poll) q =
      ((q.items.take count).map fun item => ⟨.poll, some item⟩,
        { q with items := q.items.drop count }) := by
  induction count generalizing q with
  | zero => rfl
  | succ count ih =>
    cases front : q.items with
    | nil =>
      rw [front] at enough
      exact absurd enough (Nat.not_succ_le_zero count)
    | cons item rest =>
      rw [front] at enough
      have polled : array .poll q = (some item, { q with items := rest }) := poll_of_cons front
      rw [List.replicate_succ, Behaviour.run, polled, ih _ (Nat.le_of_succ_le_succ enough)]
      rfl

/-- Moving up to `n` items and up to `m` of the others is moving up to `n + m`. -/
theorem min_add_min (n m length : Nat) :
    min n length + min m (length - min n length) = min (n + m) length := by
  omega

/-- A drain and another one to the same sink leave what a single one leaves. -/
theorem drainUpTo_add (sink : List α) (n m : Nat) (items : List α) :
    let here := min n items.length
    let later := min m (items.drop here).length
    min (n + m) items.length = here + later ∧
      sink ++ items.take (min (n + m) items.length) =
        sink ++ items.take here ++ (items.drop here).take later ∧
      items.drop (min (n + m) items.length) = (items.drop here).drop later := by
  intro here later
  have count : min (n + m) items.length = here + later := by
    show _ = min n items.length + min m (items.drop (min n items.length)).length
    rw [List.length_drop, min_add_min]
  refine ⟨count, ?_, ?_⟩
  · rw [count, List.take_add, List.append_assoc]
  · rw [count, List.drop_drop]

end Locked

/-! ## Agreement -/

open Locked (perform StillFull StillEmpty)

/-- What the operations on a queue have in common, said of threads that find this queue after any
time of waiting; numbers go up to the largest one. -/
structure Agreement (largest : Nat) (q : Queue α) : Prop where
  /-- Where there is room, whoever brings an item leaves it behind the others and wakes the same. -/
  offer_accepts : q.items.length ≠ q.capacity → ∀ item elapsed later,
    perform largest q.capacity (.offer item) (⟨q.items, elapsed⟩ :: later) =
      some ⟨.accepted, q.items ++ [item], [.item]⟩
  offerInTime_accepts : q.items.length ≠ q.capacity → ∀ item milliseconds waited elapsed later,
    StillFull q.capacity (some milliseconds) waited →
      perform largest q.capacity (.offerInTime item milliseconds)
          (waited ++ ⟨q.items, elapsed⟩ :: later) =
        some ⟨.accepted, q.items ++ [item], [.item]⟩
  put_accepts : q.items.length ≠ q.capacity → ∀ item waited elapsed later,
    StillFull q.capacity none waited →
      perform largest q.capacity (.put item) (waited ++ ⟨q.items, elapsed⟩ :: later) =
        some ⟨some (), q.items ++ [item], [.item]⟩
  /-- Where there is none, an offer is handed back and nothing changes, at once or when its time is
  over; whoever puts goes on waiting. -/
  offer_refuses : q.items.length = q.capacity → ∀ item elapsed later,
    perform largest q.capacity (.offer item) (⟨q.items, elapsed⟩ :: later) =
      some ⟨.refused item, q.items, []⟩
  offerInTime_refuses : q.items.length = q.capacity → ∀ item milliseconds waited elapsed later,
    StillFull q.capacity (some milliseconds) waited → milliseconds < elapsed →
      perform largest q.capacity (.offerInTime item milliseconds)
          (waited ++ ⟨q.items, elapsed⟩ :: later) =
        some ⟨.refused item, q.items, []⟩
  put_waits : q.items.length = q.capacity → ∀ item waited elapsed,
    StillFull q.capacity none waited →
      perform largest q.capacity (.put item) (waited ++ [⟨q.items, elapsed⟩]) = none
  /-- Where there is an item, whoever asks for one gets the first and wakes the same. -/
  poll_gets : ∀ item rest, q.items = item :: rest → ∀ elapsed later,
    perform largest q.capacity .poll (⟨q.items, elapsed⟩ :: later) =
      some ⟨some item, rest, [.room]⟩
  pollInTime_gets : ∀ item rest, q.items = item :: rest → ∀ milliseconds waited elapsed later,
    StillEmpty (some milliseconds) waited →
      perform largest q.capacity (.pollInTime milliseconds)
          (waited ++ ⟨q.items, elapsed⟩ :: later) =
        some ⟨some item, rest, [.room]⟩
  take_gets : ∀ item rest, q.items = item :: rest → ∀ waited elapsed later,
    StillEmpty none waited →
      perform largest q.capacity .take (waited ++ ⟨q.items, elapsed⟩ :: later) =
        some ⟨some item, rest, [.room]⟩
  /-- Where there is none, a poll gets nothing and nothing changes, at once or when its time is
  over; whoever takes goes on waiting. -/
  poll_gets_nothing : q.items = [] → ∀ elapsed later,
    perform largest q.capacity .poll (⟨q.items, elapsed⟩ :: later) = some ⟨none, q.items, []⟩
  pollInTime_gets_nothing : q.items = [] → ∀ milliseconds waited elapsed later,
    StillEmpty (some milliseconds) waited → milliseconds < elapsed →
      perform largest q.capacity (.pollInTime milliseconds)
          (waited ++ ⟨q.items, elapsed⟩ :: later) =
        some ⟨none, q.items, []⟩
  take_waits : q.items = [] → ∀ waited elapsed, StillEmpty none waited →
    perform largest q.capacity .take (waited ++ [⟨q.items, elapsed⟩]) = none
  /-- A drain moves what so many polls in a row would get, in this order, behind whatever the sink
  holds, and leaves the queue that they would leave. -/
  drainUpTo_polls : ∀ sink limit elapsed later, ∃ moved rest signals,
    Behaviour.run array (List.replicate (min limit q.items.length) .poll) q =
        (moved.map fun item => ⟨.poll, some item⟩, ⟨q.capacity, rest⟩) ∧
      perform largest q.capacity (.drainUpTo sink limit) (⟨q.items, elapsed⟩ :: later) =
        some ⟨(min limit q.items.length, sink ++ moved), rest, signals⟩
  drain_eq : ∀ sink limit elapsed later, q.items.length ≤ limit →
    perform largest q.capacity (.drain sink) (⟨q.items, elapsed⟩ :: later) =
      perform largest q.capacity (.drainUpTo sink limit) (⟨q.items, elapsed⟩ :: later)
  drainUpTo_add : ∀ sink n m elapsed later elapsed' later', ∃ first second whole,
    perform largest q.capacity (.drainUpTo sink n) (⟨q.items, elapsed⟩ :: later) = some first ∧
      perform largest q.capacity (.drainUpTo first.answer.2 m)
        (⟨first.items, elapsed'⟩ :: later') = some second ∧
      perform largest q.capacity (.drainUpTo sink (n + m)) (⟨q.items, elapsed⟩ :: later) =
        some whole ∧
      whole.answer = (first.answer.1 + second.answer.1, second.answer.2) ∧
      whole.items = second.items
  /-- Whoever is through at once is answered as by the queue itself, and leaves the same queue. -/
  as_array : ∀ op elapsed left, perform largest q.capacity op [⟨q.items, elapsed⟩] = some left →
    array op q = (left.answer, ⟨q.capacity, left.items⟩)

/-- A queue with at most as many items as there is a number for: its operations agree. -/
theorem agreement_of_le {largest : Nat} {q : Queue α} (fits : q.items.length ≤ largest) :
    Agreement largest q := by
  constructor
  case offer_accepts =>
    intro room item elapsed later
    exact congrArg some (if_neg room)
  case offerInTime_accepts =>
    intro room item milliseconds waited elapsed later still
    show (Locked.wait _ _ _).map _ = _
    rw [still.wait_append, Locked.wait_of_free (Locked.isFull_eq_false room)]
    exact congrArg some (if_neg room)
  case put_accepts =>
    intro room item waited elapsed later still
    show (Locked.wait _ _ _).map _ = _
    rw [still.wait_append, Locked.wait_of_free (Locked.isFull_eq_false room)]
    rfl
  case offer_refuses =>
    intro full item elapsed later
    exact congrArg some (if_pos full)
  case offerInTime_refuses =>
    intro full item milliseconds waited elapsed later still up
    show (Locked.wait _ _ _).map _ = _
    rw [still.wait_append, Locked.wait_of_timeIsUp (Locked.timeIsUp_of_lt up)]
    exact congrArg some (if_pos full)
  case put_waits =>
    intro full item waited elapsed still
    -- the last look finds what all those before it found
    have here : StillFull q.capacity none [⟨q.items, elapsed⟩] := by
      intro sight seen
      rw [List.mem_singleton.mp seen]
      exact ⟨full, rfl⟩
    show (Locked.wait _ _ _).map _ = _
    rw [still.wait_append, ← List.append_nil [Sight.mk q.items elapsed], here.wait_append]
    rfl
  case poll_gets =>
    intro item rest front elapsed later
    rw [front]
    rfl
  case pollInTime_gets =>
    intro item rest front milliseconds waited elapsed later still
    show (Locked.wait _ _ _).map _ = _
    rw [still.wait_append, front, Locked.wait_of_free rfl]
    rfl
  case take_gets =>
    intro item rest front waited elapsed later still
    show Locked.take _ = _
    rw [still.take_append, front]
    rfl
  case poll_gets_nothing =>
    intro empty elapsed later
    rw [empty]
    rfl
  case pollInTime_gets_nothing =>
    intro empty milliseconds waited elapsed later still up
    show (Locked.wait _ _ _).map _ = _
    rw [still.wait_append, Locked.wait_of_timeIsUp (Locked.timeIsUp_of_lt up), empty]
    rfl
  case take_waits =>
    intro empty waited elapsed still
    show Locked.take _ = _
    rw [still.take_append, empty]
    rfl
  case drainUpTo_polls =>
    intro sink limit elapsed later
    exact ⟨_, _, _, Locked.run_polls q (Nat.min_le_right limit q.items.length), rfl⟩
  case drain_eq =>
    intro sink limit elapsed later enough
    -- either way as many as there are
    have all : min largest q.items.length = min limit q.items.length := by
      rw [Nat.min_eq_right fits, Nat.min_eq_right enough]
    show Locked.drainUpTo sink largest (⟨q.items, elapsed⟩ :: later) =
      Locked.drainUpTo sink limit (⟨q.items, elapsed⟩ :: later)
    simp only [Locked.drainUpTo, List.head?_cons, Option.map_some, all]
  case drainUpTo_add =>
    intro sink n m elapsed later elapsed' later'
    rcases Locked.drainUpTo_add sink n m q.items with ⟨count, moved, left⟩
    exact ⟨_, _, _, rfl, rfl, rfl, Prod.ext count moved, left⟩
  case as_array =>
    intro op elapsed left through
    have short : ∀ sight ∈ [Sight.mk q.items elapsed], sight.items.length ≤ largest := by
      intro sight seen
      rw [List.mem_singleton.mp seen]
      exact fits
    rcases Locked.array_of_perform short through with ⟨sight, seen, answered, -⟩
    rw [List.mem_singleton.mp seen] at answered
    exact answered

/-- The operations on a queue of any capacity but zero agree, whatever operations were called on it
before and in whatever order those who waited looked again. -/
theorem exists_ofCapacity_agreement {capacity largest : Nat} (positive : 0 < capacity)
    (fits : capacity ≤ largest) :
    ∃ q : Queue α, ofCapacity capacity = .ok q ∧ ∀ visits events room,
      WaitingRoom.visits? array patience ⟨q, []⟩ visits = some (events, room) →
        Agreement largest room.state := by
  refine ⟨⟨capacity, []⟩, if_neg (Nat.ne_of_gt positive), ?_⟩
  intro visits events room run
  have balanced : Balanced capacity events room.state :=
    balanced_of_visits? (balanced_empty capacity) run
  exact agreement_of_le (Nat.le_trans balanced.bounded fits)

/-- A full queue that a timed offer looks at three times, the last time too late. -/
theorem agreement_of_full_queue :
    0 < 2 ∧ 2 ≤ 255 ∧ Agreement 255 (⟨2, [4, 5]⟩ : Queue Nat) ∧
      perform 255 2 (.offerInTime 6 10) [⟨[4, 5], 0⟩, ⟨[4, 5], 8⟩, ⟨[4, 5], 11⟩] =
        some ⟨.refused 6, [4, 5], []⟩ ∧
      perform 255 2 (.offerInTime 6 10) [⟨[4, 5], 0⟩, ⟨[5], 8⟩] =
        some ⟨.accepted, [5, 6], [.item]⟩ ∧
      perform 255 2 (.drainUpTo [3] 255) [⟨[4, 5], 0⟩] =
        some ⟨(2, [3, 4, 5]), [], [.roomForAll]⟩ := by
  have positive : 0 < 2 := by decide
  have fits : 2 ≤ 255 := by decide
  rcases exists_ofCapacity_agreement (α := Nat) positive fits with ⟨q, made, agreement⟩
  cases made
  exact ⟨positive, fits, agreement [.call (.put 4), .call (.put 5)] _ _ rfl, rfl, rfl, rfl⟩

end Groundwork.Queue
