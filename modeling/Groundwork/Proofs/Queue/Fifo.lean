import Groundwork.Queue.Basic
import Groundwork.Proofs.Waiting

/-!
# Bounded queues are first in, first out

Every operation finds out for itself whether the queue is full or empty, and whoever waits gets
through later than they called. Still the items come out as they went in.

* `acceptedBy` and `handedOutBy`: the items that an answer accepts and hands out.
* `Look`: what a look at the queue can do, whatever the operation (`look_array`).
* `Balanced`: the account of the items so far. Every look keeps it.
* `exists_ofCapacity_boundedFifo`: in every run nothing is lost and nothing doubled, and there is
  never an item too many.
-/

namespace Groundwork.Queue

variable {α : Type}

/-! ## What callers see -/

/-- Who puts or takes waits as long as it takes; who offers or polls with time to spare waits for
that time. -/
def patience : Patience (queueInterface α)
  | .put _, none => .waits
  | .take, none => .waits
  | .offerInTime _ _, .refused _ => .waitsInTime
  | .pollInTime _, none => .waitsInTime
  | _, _ => .over

/-- The items that an answer accepts. -/
def acceptedBy : Answered (queueInterface α) → List α
  | ⟨.offer item, .accepted⟩ => [item]
  | ⟨.offerInTime item _, .accepted⟩ => [item]
  | ⟨.put item, some ()⟩ => [item]
  | _ => []

/-- The items that an answer hands out, the oldest first; a drain hands out what its sink has
gained. -/
def handedOutBy : Answered (queueInterface α) → List α
  | ⟨.poll, some item⟩ => [item]
  | ⟨.pollInTime _, some item⟩ => [item]
  | ⟨.take, some item⟩ => [item]
  | ⟨.drain sink, (_, after)⟩ => after.drop sink.length
  | ⟨.drainUpTo sink _, (_, after)⟩ => after.drop sink.length
  | _ => []

/-! ## A single look -/

theorem offer_of_full {q : Queue α} (full : q.items.length = q.capacity) (item : α) :
    q.offer item = (.refused item, q) := by
  simp [offer, isFull, full]

theorem offer_of_not_full {q : Queue α} (room : q.items.length ≠ q.capacity) (item : α) :
    q.offer item = (.accepted, q.push item) := by
  simp [offer, isFull, room]

theorem put_of_full {q : Queue α} (full : q.items.length = q.capacity) (item : α) :
    q.put item = (none, q) := by
  simp [put, isFull, full]

theorem put_of_not_full {q : Queue α} (room : q.items.length ≠ q.capacity) (item : α) :
    q.put item = (some (), q.push item) := by
  simp [put, isFull, room]

theorem poll_of_nil {q : Queue α} (empty : q.items = []) : q.poll = (none, q) := by
  simp [poll, empty]

theorem poll_of_cons {q : Queue α} {item : α} {rest : List α} (front : q.items = item :: rest) :
    q.poll = (some item, { q with items := rest }) := by
  simp [poll, front]

/-- What a look at a queue can do: accept an item at the end if there is room, or hand out items
from the front, which may be none. -/
inductive Look (q : Queue α) : Answered (queueInterface α) → Queue α → Prop
  | accepts {event : Answered (queueInterface α)} {item : α}
      (room : q.items.length ≠ q.capacity) (accepted : acceptedBy event = [item])
      (kept : handedOutBy event = []) : Look q event (q.push item)
  | handsOut {event : Answered (queueInterface α)} {rest : List α}
      (front : q.items = handedOutBy event ++ rest) (refused : acceptedBy event = []) :
      Look q event { q with items := rest }

theorem Look.mem_items {q after : Queue α} {event : Answered (queueInterface α)} {item : α}
    (look : Look q event after) (held : item ∈ after.items) :
    item ∈ q.items ∨ item ∈ acceptedBy event := by
  cases look with
  | accepts room accepted kept =>
    rcases List.mem_append.mp held with before | last
    · exact .inl before
    · rw [accepted]
      exact .inr last
  | handsOut front refused =>
    rw [front]
    exact .inl (List.mem_append_right _ held)

/-- Whoever offers looks at the queue in this way, with time to spare or without. -/
theorem look_offer (q : Queue α) {item : α} (event : Offer α → Answered (queueInterface α))
    (accepted : acceptedBy (event .accepted) = [item])
    (refused : acceptedBy (event (.refused item)) = [])
    (kept : ∀ answer, handedOutBy (event answer) = []) :
    Look q (event (q.offer item).1) (q.offer item).2 := by
  by_cases full : q.items.length = q.capacity
  · rw [offer_of_full full]
    exact .handsOut (by rw [kept]; rfl) refused
  · rw [offer_of_not_full full]
    exact .accepts full accepted (kept _)

/-- Whoever takes looks at the queue in this way, with time to spare or without. -/
theorem look_poll (q : Queue α) (event : Option α → Answered (queueInterface α))
    (refused : ∀ answer, acceptedBy (event answer) = [])
    (handed : ∀ answer, handedOutBy (event answer) = answer.toList) :
    Look q (event q.poll.1) q.poll.2 := by
  cases front : q.items with
  | nil =>
    rw [poll_of_nil front]
    exact .handsOut (by rw [handed]; rfl) (refused _)
  | cons item rest =>
    rw [poll_of_cons front]
    refine .handsOut ?_ (refused _)
    rw [handed, front]
    rfl

/-- Whoever drains looks at the queue in this way, with a limit or without. -/
theorem look_drainUpTo (q : Queue α) {sink : List α} (limit : Nat)
    (event : Nat × List α → Answered (queueInterface α))
    (refused : ∀ answer, acceptedBy (event answer) = [])
    (handed : ∀ answer, handedOutBy (event answer) = answer.2.drop sink.length) :
    Look q (event (q.drainUpTo sink limit).1) (q.drainUpTo sink limit).2 := by
  refine .handsOut ?_ (refused _)
  rw [handed]
  show q.items = (sink ++ q.items.take (min limit q.items.length)).drop sink.length ++
    q.items.drop (min limit q.items.length)
  rw [List.drop_left, List.take_append_drop]

/-- Whatever the operation, a look can do nothing else. -/
theorem look_array (op : QueueOp α) (q : Queue α) :
    Look q ⟨op, (array op q).1⟩ (array op q).2 := by
  cases op with
  | offer item =>
    refine look_offer q (fun answer => ⟨.offer item, answer⟩) rfl rfl ?_
    intro answer
    cases answer <;> rfl
  | offerInTime item milliseconds =>
    refine look_offer q (fun answer => ⟨.offerInTime item milliseconds, answer⟩) rfl rfl ?_
    intro answer
    cases answer <;> rfl
  | put item =>
    show Look q ⟨.put item, (q.put item).1⟩ (q.put item).2
    by_cases full : q.items.length = q.capacity
    · rw [put_of_full full]
      exact .handsOut rfl rfl
    · rw [put_of_not_full full]
      exact .accepts full rfl rfl
  | poll =>
    refine look_poll q (fun answer => ⟨.poll, answer⟩) ?_ ?_
    · intro answer
      rfl
    · intro answer
      cases answer <;> rfl
  | pollInTime milliseconds =>
    refine look_poll q (fun answer => ⟨.pollInTime milliseconds, answer⟩) ?_ ?_
    · intro answer
      rfl
    · intro answer
      cases answer <;> rfl
  | take =>
    refine look_poll q (fun answer => ⟨.take, answer⟩) ?_ ?_
    · intro answer
      rfl
    · intro answer
      cases answer <;> rfl
  | drain sink =>
    refine look_drainUpTo q q.items.length (fun answer => ⟨.drain sink, answer⟩) ?_ ?_
    · intro answer
      rfl
    · intro answer
      rfl
  | drainUpTo sink limit =>
    refine look_drainUpTo q limit (fun answer => ⟨.drainUpTo sink limit, answer⟩) ?_ ?_
    · intro answer
      rfl
    · intro answer
      rfl
  | remainingCapacity => exact .handsOut rfl rfl
  | length => exact .handsOut rfl rfl
  | isEmpty => exact .handsOut rfl rfl

/-- Who is not served has changed nothing. -/
theorem array_of_patience {op : QueueOp α} {q : Queue α}
    (unserved : patience op (array op q).1 ≠ .over) : (array op q).2 = q := by
  cases op with
  | offerInTime item milliseconds =>
    by_cases full : q.items.length = q.capacity
    · show (q.offer item).2 = q
      rw [offer_of_full full]
    · simp [array, offer_of_not_full full, patience] at unserved
  | put item =>
    by_cases full : q.items.length = q.capacity
    · show (q.put item).2 = q
      rw [put_of_full full]
    · simp [array, put_of_not_full full, patience] at unserved
  | pollInTime milliseconds =>
    cases front : q.items with
    | nil =>
      show q.poll.2 = q
      rw [poll_of_nil front]
    | cons item rest => simp [array, poll_of_cons front, patience] at unserved
  | take =>
    cases front : q.items with
    | nil =>
      show q.poll.2 = q
      rw [poll_of_nil front]
    | cons item rest => simp [array, poll_of_cons front, patience] at unserved
  | offer | poll | drain | drainUpTo | remainingCapacity | length | isEmpty =>
    exact absurd rfl unserved

/-! ## The account of the items -/

/-- The items that were handed out and those that are there are the ones that were accepted, in this
order, and there are not too many. -/
structure Balanced (capacity : Nat) (events : List (Answered (queueInterface α))) (q : Queue α) :
    Prop where
  capacity_eq : q.capacity = capacity
  conserved : events.flatMap handedOutBy ++ q.items = events.flatMap acceptedBy
  bounded : q.items.length ≤ capacity

theorem balanced_empty (capacity : Nat) : Balanced capacity [] (⟨capacity, []⟩ : Queue α) :=
  ⟨rfl, rfl, Nat.zero_le capacity⟩

/-- Every look keeps the account. -/
theorem Balanced.look {capacity : Nat} {events : List (Answered (queueInterface α))}
    {q q' : Queue α} {event : Answered (queueInterface α)} (h : Balanced capacity events q)
    (look : Look q event q') : Balanced capacity (events ++ [event]) q' := by
  cases look with
  | @accepts item room accepted kept =>
    refine ⟨h.capacity_eq, ?_, ?_⟩
    · have handed : (events ++ [event]).flatMap handedOutBy = events.flatMap handedOutBy := by
        simp [kept]
      have taken : (events ++ [event]).flatMap acceptedBy =
          events.flatMap acceptedBy ++ [item] := by
        simp [accepted]
      rw [handed, taken, ← h.conserved, List.append_assoc]
      rfl
    · have below : q.items.length < capacity := by
        have bounded := h.bounded
        have capacity_eq := h.capacity_eq
        omega
      show (q.items ++ [item]).length ≤ capacity
      rw [List.length_append]
      exact below
  | @handsOut rest front refused =>
    refine ⟨h.capacity_eq, ?_, ?_⟩
    · have handed : (events ++ [event]).flatMap handedOutBy ++ rest =
          events.flatMap handedOutBy ++ q.items := by
        simp [front]
      have taken : (events ++ [event]).flatMap acceptedBy = events.flatMap acceptedBy := by
        simp [refused]
      show (events ++ [event]).flatMap handedOutBy ++ rest = _
      rw [handed, taken, h.conserved]
    · have fewer : rest.length ≤ q.items.length := by
        rw [front, List.length_append]
        exact Nat.le_add_left _ _
      exact Nat.le_trans fewer h.bounded

/-- The account is kept in every run. -/
theorem balanced_of_visits? {capacity : Nat} {q : Queue α} {waiting : List (QueueOp α)}
    {visits : List (Visit (queueInterface α))} {before events : List (Answered (queueInterface α))}
    {room : WaitingRoom (queueInterface α) (Queue α)} (h : Balanced capacity before q)
    (run : WaitingRoom.visits? array patience ⟨q, waiting⟩ visits = some (events, room)) :
    Balanced capacity (before ++ events) room.state := by
  refine WaitingRoom.visits?_induction (P := Balanced capacity) ?_ ?_ h run
  · intro events q op h served
    exact h.look (look_array op q)
  · intro events q op h unserved
    rw [array_of_patience unserved]
    exact h

/-! ## First in, first out -/

/-- That a queue of some capacity is first in, first out, said of a room in which some calls were
made and some answered. -/
structure BoundedFifo (capacity : Nat) (calls : List (QueueOp α))
    (events : List (Answered (queueInterface α)))
    (room : WaitingRoom (queueInterface α) (Queue α)) : Prop where
  /-- Every call was answered once or still waits. -/
  answered_once : calls.Perm (events.map Sigma.fst ++ room.waiting)
  /-- What was handed out, followed by what is there, is what was accepted. -/
  in_order : events.flatMap handedOutBy ++ room.state.items = events.flatMap acceptedBy
  length_le : (array .length room.state).1 ≤ capacity
  room_left : (array .length room.state).1 + (array .remainingCapacity room.state).1 = capacity
  /-- A refused offer gives the item back and leaves the queue as it was. -/
  offer_refused : ∀ item other, (array (.offer item) room.state).1 = .refused other →
    other = item ∧ (array (.offer item) room.state).2 = room.state
  offer_refused_iff : ∀ item, (∃ other, (array (.offer item) room.state).1 = .refused other) ↔
    (array .length room.state).1 = capacity
  /-- So does one that is refused when its time is over. -/
  offerInTime_refused : ∀ item milliseconds other,
    (array (.offerInTime item milliseconds) room.state).1 = .refused other →
      other = item ∧ (array (.offerInTime item milliseconds) room.state).2 = room.state
  /-- Who waited to put an item in gets through once there is room. -/
  put_gets_through : ∀ index item, room.waiting[index]? = some (.put item) →
    (array .length room.state).1 < capacity →
      ∃ after, room.visit? array patience (.look index) = some ([⟨.put item, some ()⟩], after)
  /-- So does who waited for some time. -/
  offerInTime_gets_through : ∀ index item milliseconds,
    room.waiting[index]? = some (.offerInTime item milliseconds) →
    (array .length room.state).1 < capacity →
      ∃ after, room.visit? array patience (.look index) =
        some ([⟨.offerInTime item milliseconds, .accepted⟩], after)

theorem refused_of_offer {q : Queue α} {item other : α} (h : (q.offer item).1 = .refused other) :
    q.items.length = q.capacity ∧ other = item ∧ (q.offer item).2 = q := by
  by_cases full : q.items.length = q.capacity
  · rw [offer_of_full full] at h ⊢
    exact ⟨full, (Offer.refused.inj h).symm, rfl⟩
  · rw [offer_of_not_full full] at h
    cases h

/-- A queue with any capacity but zero is first in, first out, whatever operations are called on it
and in whatever order those who wait look again. -/
theorem exists_ofCapacity_boundedFifo {capacity : Nat} (positive : 0 < capacity) :
    ∃ q : Queue α, ofCapacity capacity = .ok q ∧ ∀ visits events room,
      WaitingRoom.visits? array patience ⟨q, []⟩ visits = some (events, room) →
        BoundedFifo capacity (visits.flatMap Visit.called) events room := by
  refine ⟨⟨capacity, []⟩, if_neg (by omega), ?_⟩
  intro visits events room run
  have balanced : Balanced capacity events room.state :=
    balanced_of_visits? (balanced_empty capacity) run
  have full_iff : room.state.items.length = room.state.capacity ↔
      room.state.items.length = capacity := by
    rw [balanced.capacity_eq]
  constructor
  · have perm := WaitingRoom.perm_of_visits? run
    rwa [List.nil_append] at perm
  · exact balanced.conserved
  · exact balanced.bounded
  · show room.state.items.length + (room.state.capacity - room.state.items.length) = capacity
    rw [balanced.capacity_eq]
    exact Nat.add_sub_of_le balanced.bounded
  · intro item other refused
    exact (refused_of_offer refused).2
  · intro item
    constructor
    · rintro ⟨other, refused⟩
      exact full_iff.mp (refused_of_offer refused).1
    · intro full
      refine ⟨item, ?_⟩
      show (room.state.offer item).1 = _
      rw [offer_of_full (full_iff.mpr full)]
  · intro item milliseconds other refused
    exact (refused_of_offer refused).2
  · intro index item found below
    have notfull : room.state.items.length ≠ room.state.capacity := by
      rw [balanced.capacity_eq]
      exact Nat.ne_of_lt below
    simp [WaitingRoom.visit?, found, array, put_of_not_full notfull, patience]
  · intro index item milliseconds found below
    have notfull : room.state.items.length ≠ room.state.capacity := by
      rw [balanced.capacity_eq]
      exact Nat.ne_of_lt below
    simp [WaitingRoom.visit?, found, array, offer_of_not_full notfull, patience]

/-- One caller has to wait until another has made room. -/
theorem boundedFifo_of_blocked_put :
    0 < 1 ∧ BoundedFifo 1 [.put 4, .put 5, .offer 6, .take, .drain [3]]
      [⟨.put 4, some ()⟩, ⟨.offer 6, .refused 6⟩, ⟨.take, some 4⟩, ⟨.put 5, some ()⟩,
        ⟨.drain [3], (1, [3, 5])⟩]
      (⟨⟨1, []⟩, []⟩ : WaitingRoom (queueInterface Nat) (Queue Nat)) := by
  rcases exists_ofCapacity_boundedFifo (α := Nat) (show 0 < 1 by decide) with ⟨q, made, law⟩
  cases made
  exact ⟨by decide, law [.call (.put 4), .call (.put 5), .call (.offer 6), .call .take, .look 0,
    .call (.drain [3])] _ _ rfl⟩

end Groundwork.Queue
