import Groundwork.Future.Shared
import Groundwork.Proofs.Waiting

/-!
# A shared future is completed once

Whoever completes a future first decides what it holds, and everybody who asks from then on learns
of this one completion, whenever they began to wait.

* `first?`: the completion that was attempted first.
* `Learns`: what a completion means to those who read.
* `Fair`: the answer to a call that the first completion so far calls for. No look at the future is
  answered otherwise (`fair_shared`), in any run (`kept_of_visits?`).
* `visits?_completedOnce`: what callers can rely on.
-/

namespace Groundwork.Future

variable {α : Type}

/-! ## Attempts -/

/-- The completion that a call attempts, and whether the caller is told that it came first. -/
def attempt? : Answered (sharedFutureInterface α) → Option (Completion α × Bool)
  | ⟨.set a, won⟩ => some (.value a, won)
  | ⟨.fail message, won⟩ => some (.failed message, won)
  | ⟨.ask (.cancel _), won⟩ => some (.cancelled, won)
  | _ => none

/-- The completion that was attempted first. -/
def first? (events : List (Answered (sharedFutureInterface α))) : Option (Completion α) :=
  (events.findSome? attempt?).map Prod.fst

/-- A future whose first completion is given, if there was any. -/
def ofFirst : Option (Completion α) → Future α
  | none => .pending
  | some c => .completed c

theorem first?_append_singleton (events : List (Answered (sharedFutureInterface α)))
    (event : Answered (sharedFutureInterface α)) :
    first? (events ++ [event]) = (first? events).or ((attempt? event).map Prod.fst) := by
  unfold first?
  rw [List.findSome?_append, List.findSome?_singleton]
  cases events.findSome? attempt? <;> rfl

/-- What the readers of a future learn from its completion. -/
inductive Learns : Completion α → Except FutureError α → Prop where
  | value (a : α) : Learns (.value a) (.ok a)
  | failed (message : String) : Learns (.failed message) (.error (.failed message))
  | cancelled : Learns .cancelled (.error .cancelled)

theorem learns_outcome (c : Completion α) : Learns c c.outcome := by
  cases c with
  | value a => exact .value a
  | failed message => exact .failed message
  | cancelled => exact .cancelled

/-- No completion looks like a time that is over. -/
theorem Learns.ne_timedOut {c : Completion α} {said : Except FutureError α} (h : Learns c said) :
    said ≠ .error .timedOut := by
  intro late
  cases h <;> cases late

theorem Learns.eq_cancelled {c : Completion α} (h : Learns c (.error .cancelled)) :
    c = .cancelled := by
  cases h
  rfl

/-- The answer that the first completion so far calls for: whoever completes is told whether there
was none, and readers learn what it is. -/
def Fair (first : Option (Completion α)) : Answered (sharedFutureInterface α) → Prop
  | ⟨.set _, won⟩ => won = first.isNone
  | ⟨.fail _, won⟩ => won = first.isNone
  | ⟨.ask (.cancel _), won⟩ => won = first.isNone
  | ⟨.ask .isDone, done⟩ => done = first.isSome
  | ⟨.ask .isCancelled, cancelled⟩ => cancelled = true ↔ first = some .cancelled
  | ⟨.ask .get, answer⟩ => ∃ c said, first = some c ∧ Learns c said ∧ answer = some said
  | ⟨.ask (.getInTime _), answer⟩ =>
    (first = none ∧ answer = .error .timedOut) ∨ ∃ c, first = some c ∧ Learns c answer

/-- Every look at the future is answered in this way, and leaves it with its first completion. -/
theorem fair_shared (first : Option (Completion α)) (op : SharedFutureOp α)
    (served : patience op (shared op (ofFirst first)).1 ≠ .waits) :
    Fair first ⟨op, (shared op (ofFirst first)).1⟩ ∧
      (shared op (ofFirst first)).2 =
        ofFirst (first.or ((attempt? ⟨op, (shared op (ofFirst first)).1⟩).map Prod.fst)) := by
  cases op with
  | set a => cases first <;> exact ⟨rfl, rfl⟩
  | fail message => cases first <;> exact ⟨rfl, rfl⟩
  | ask op =>
    cases op with
    | cancel mayInterrupt => cases first <;> exact ⟨rfl, rfl⟩
    | isDone => cases first <;> exact ⟨rfl, rfl⟩
    | isCancelled =>
      refine ⟨?_, by cases first <;> rfl⟩
      rcases first with _ | a | message | _
      · exact ⟨nofun, nofun⟩
      · exact ⟨nofun, nofun⟩
      · exact ⟨nofun, nofun⟩
      · exact ⟨fun _ => rfl, fun _ => rfl⟩
    | get =>
      -- a pending future has no answer for a reader, who waits
      cases first with
      | none => exact absurd rfl served
      | some c => exact ⟨⟨c, c.outcome, rfl, learns_outcome c, rfl⟩, rfl⟩
    | getInTime milliseconds =>
      cases first with
      | none => exact ⟨.inl ⟨rfl, rfl⟩, rfl⟩
      | some c => exact ⟨.inr ⟨c, rfl, learns_outcome c⟩, rfl⟩

/-- Only readers are not answered at once, and they leave the future as it is. -/
theorem reads_of_patience {op : SharedFutureOp α} {f : Future α}
    (unserved : patience op (shared op f).1 ≠ .over) :
    (op = .ask .get ∨ ∃ milliseconds, op = .ask (.getInTime milliseconds)) ∧
      (shared op f).2 = f := by
  cases op with
  | set a => exact absurd rfl unserved
  | fail message => exact absurd rfl unserved
  | ask op =>
    cases op with
    | cancel mayInterrupt => exact absurd rfl unserved
    | isDone => exact absurd rfl unserved
    | isCancelled => exact absurd rfl unserved
    | get => exact ⟨.inl rfl, rfl⟩
    | getInTime milliseconds => exact ⟨.inr ⟨milliseconds, rfl⟩, rfl⟩

/-! ## Histories -/

/-- Every answer is the one that the answers before it call for. -/
def Fairly (events : List (Answered (sharedFutureInterface α))) : Prop :=
  ∀ before event later, events = before ++ event :: later → Fair (first? before) event

theorem fairly_nil : Fairly ([] : List (Answered (sharedFutureInterface α))) := by
  intro before event later split
  cases before <;> cases split

theorem Fairly.append_singleton {events : List (Answered (sharedFutureInterface α))}
    {event : Answered (sharedFutureInterface α)} (h : Fairly events)
    (fair : Fair (first? events) event) : Fairly (events ++ [event]) := by
  intro before here later split
  -- the split is at the new answer, or within the answers before it
  rcases List.eq_nil_or_concat later with rfl | ⟨later, last, rfl⟩
  · rcases List.append_inj' split rfl with ⟨rfl, same⟩
    cases same
    exact fair
  · rw [List.concat_eq_append, ← List.cons_append, ← List.append_assoc] at split
    rcases List.append_inj' split rfl with ⟨rfl, same⟩
    exact h before here later rfl

/-- The future has its first completion, and every answer so far was fair. -/
def Kept (events : List (Answered (sharedFutureInterface α))) (f : Future α) : Prop :=
  f = ofFirst (first? events) ∧ Fairly events

theorem kept_of_visits? {waiting : List (SharedFutureOp α)}
    {visits : List (Visit (sharedFutureInterface α))}
    {events : List (Answered (sharedFutureInterface α))}
    {room : WaitingRoom (sharedFutureInterface α) (Future α)}
    (run : WaitingRoom.visits? shared patience ⟨.pending, waiting⟩ visits = some (events, room)) :
    Kept events room.state := by
  have start : Kept ([] : List (Answered (sharedFutureInterface α))) .pending := ⟨rfl, fairly_nil⟩
  rw [← List.nil_append events]
  refine WaitingRoom.visits?_induction (P := Kept) ?_ ?_ start run
  · rintro events f op ⟨rfl, fairly⟩ served
    rcases fair_shared (first? events) op served with ⟨fair, left⟩
    refine ⟨?_, fairly.append_singleton fair⟩
    rw [first?_append_singleton]
    exact left
  · rintro events f op ⟨held, fairly⟩ unserved
    rw [(reads_of_patience unserved).2]
    exact ⟨held, fairly⟩

/-! ## What callers can rely on -/

/-- That a shared future is completed once, and that everybody learns of this one completion; said
of the answers so far, in their order, and of those who still wait. -/
structure CompletedOnce (calls : List (SharedFutureOp α))
    (events : List (Answered (sharedFutureInterface α)))
    (room : WaitingRoom (sharedFutureInterface α) (Future α)) : Prop where
  /-- Every call was answered once or still waits, and only readers wait. -/
  answered_once : calls.Perm (events.map Sigma.fst ++ room.waiting)
  reader_waits : ∀ op ∈ room.waiting,
    op = .ask .get ∨ ∃ milliseconds, op = .ask (.getInTime milliseconds)
  /-- Whoever completes the future is told so exactly if nobody attempted it before. -/
  first_wins : ∀ before event later c won, events = before ++ event :: later →
    attempt? event = some (c, won) → (won = true ↔ first? before = none)
  /-- Once it is complete no call changes the future, and no attempt comes first. -/
  settled : first? events ≠ none → ∀ op, (shared op room.state).2 = room.state ∧
    ∀ c won, attempt? ⟨op, (shared op room.state).1⟩ = some (c, won) → won = false
  isDone_iff : ∀ before later done, events = before ++ ⟨.ask .isDone, done⟩ :: later →
    (done = true ↔ first? before ≠ none)
  isCancelled_iff : ∀ before later cancelled,
    events = before ++ ⟨.ask .isCancelled, cancelled⟩ :: later →
      (cancelled = true ↔ first? before = some .cancelled)
  /-- A reader is answered once the future is complete, and learns what completed it. -/
  get_eq : ∀ before later answer, events = before ++ ⟨.ask .get, answer⟩ :: later →
    ∃ c said, first? before = some c ∧ Learns c said ∧ answer = some said
  /-- So does a reader who waits for some time only. -/
  getInTime_eq : ∀ before later milliseconds answer c,
    events = before ++ ⟨.ask (.getInTime milliseconds), answer⟩ :: later →
      first? before = some c → Learns c answer
  /-- The time of a reader is over only while the future is pending. -/
  timedOut_iff : ∀ before later milliseconds answer,
    events = before ++ ⟨.ask (.getInTime milliseconds), answer⟩ :: later →
      (answer = .error .timedOut ↔ first? before = none)
  /-- A reader is told of a cancellation only if there was one: a complete future always has an
  outcome of its own. -/
  get_cancelled : ∀ before later,
    events = before ++ ⟨.ask .get, some (.error .cancelled)⟩ :: later →
      first? before = some .cancelled
  has_outcome : room.state.isDone = true → room.state.outcome? ≠ none
  /-- Who still waits for the completion gets through with the next look. -/
  get_gets_through : ∀ index c, room.waiting[index]? = some (.ask .get) → first? events = some c →
    ∃ said after, Learns c said ∧ room.visit? shared patience (.look index) =
      some ([⟨.ask .get, some said⟩], after)
  /-- So does who waits for some time, even if this is over. -/
  getInTime_gets_through : ∀ index milliseconds c,
    room.waiting[index]? = some (.ask (.getInTime milliseconds)) → first? events = some c →
      ∀ visit, visit = .look index ∨ visit = .giveUp index → ∃ said after, Learns c said ∧
        room.visit? shared patience visit =
          some ([⟨.ask (.getInTime milliseconds), said⟩], after)

/-- Nobody waits for a future that is complete. -/
theorem over_of_completed (c : Completion α) (op : SharedFutureOp α) :
    patience op (shared op (.completed c)).1 ≠ .waits := by
  cases op with
  | set a => nofun
  | fail message => nofun
  | ask op => cases op <;> cases c <;> nofun

theorem fair_attempt {first : Option (Completion α)} {event : Answered (sharedFutureInterface α)}
    {c : Completion α} {won : Bool} (fair : Fair first event)
    (attempted : attempt? event = some (c, won)) : won = first.isNone := by
  rcases event with ⟨op, answer⟩
  cases op with
  | set a =>
    cases attempted
    exact fair
  | fail message =>
    cases attempted
    exact fair
  | ask op =>
    cases op with
    | cancel mayInterrupt =>
      cases attempted
      exact fair
    | isDone | isCancelled | get | getInTime => cases attempted

theorem ofFirst_eq_completed {first : Option (Completion α)} {f : Future α} {c : Completion α}
    (held : f = ofFirst first) (some : first = some c) : f = .completed c := by
  rw [held, some]
  rfl

/-- A shared future is completed once, whatever is called on it and in whatever order those who wait
look again, and everybody learns of this one completion. -/
theorem visits?_completedOnce {visits : List (Visit (sharedFutureInterface α))}
    {events : List (Answered (sharedFutureInterface α))}
    {room : WaitingRoom (sharedFutureInterface α) (Future α)}
    (run : WaitingRoom.visits? shared patience ⟨.pending, []⟩ visits = some (events, room)) :
    CompletedOnce (visits.flatMap Visit.called) events room := by
  rcases kept_of_visits? run with ⟨held, fairly⟩
  constructor
  case answered_once =>
    have perm := WaitingRoom.perm_of_visits? run
    rwa [List.nil_append] at perm
  case reader_waits =>
    exact WaitingRoom.waiting_of_visits? (fun _ unserved => (reads_of_patience unserved).1)
      (List.forall_mem_nil _) run
  case first_wins =>
    intro before event later c won split attempted
    rw [fair_attempt (fairly before event later split) attempted]
    exact Option.isNone_iff_eq_none
  case settled =>
    intro complete op
    rcases Option.ne_none_iff_exists'.mp complete with ⟨first, some⟩
    rw [held, some]
    rcases fair_shared (.some first) op (over_of_completed first op) with ⟨fair, left⟩
    refine ⟨left, ?_⟩
    intro c won attempted
    exact fair_attempt fair attempted
  case isDone_iff =>
    intro before later done split
    have fair : done = (first? before).isSome := fairly before _ later split
    rw [fair]
    exact Option.isSome_iff_ne_none
  case isCancelled_iff =>
    intro before later cancelled split
    exact fairly before _ later split
  case get_eq =>
    intro before later answer split
    exact fairly before _ later split
  case getInTime_eq =>
    intro before later milliseconds answer c split some
    rcases fairly before _ later split with ⟨none, -⟩ | ⟨first, first_eq, learnt⟩
    · rw [none] at some
      cases some
    · rw [first_eq] at some
      cases some
      exact learnt
  case timedOut_iff =>
    intro before later milliseconds answer split
    rcases fairly before _ later split with ⟨none, ended⟩ | ⟨first, first_eq, learnt⟩
    · exact ⟨fun _ => none, fun _ => ended⟩
    · rw [first_eq]
      refine ⟨?_, ?_⟩
      · intro ended
        exact absurd ended learnt.ne_timedOut
      · intro none
        cases none
  case get_cancelled =>
    intro before later split
    rcases fairly before _ later split with ⟨c, said, some, learnt, answered⟩
    cases answered
    rw [some, learnt.eq_cancelled]
  case has_outcome =>
    intro complete
    rcases done : room.state with _ | c
    · rw [done] at complete
      cases complete
    · nofun
  case get_gets_through =>
    intro index c found some
    have complete := ofFirst_eq_completed held some
    refine ⟨c.outcome, ⟨room.state, room.waiting.eraseIdx index⟩, learns_outcome c, ?_⟩
    simp [WaitingRoom.visit?, found, complete, shared, settable, outcome?, patience]
  case getInTime_gets_through =>
    intro index milliseconds c found some visit which
    have complete := ofFirst_eq_completed held some
    have ended : patience (.ask (.getInTime milliseconds)) c.outcome = .over := by
      cases c <;> rfl
    refine ⟨c.outcome, ⟨room.state, room.waiting.eraseIdx index⟩, learns_outcome c, ?_⟩
    rcases which with rfl | rfl
    · simp [WaitingRoom.visit?, found, complete, shared, settable, outcomeInTime, outcome?, ended]
    · simp [WaitingRoom.visit?, found, complete, shared, settable, outcomeInTime, outcome?, ended]

/-- Readers who began to wait at different times, one of them not for long, and a cancellation that
comes too late. -/
def lateCancel : List (Visit (sharedFutureInterface Nat)) :=
  [.call (.ask .get), .call (.ask (.getInTime 5)), .giveUp 1, .call (.fail "disk full"),
    .call (.ask (.cancel true)), .call (.ask (.getInTime 5)), .look 0, .call (.ask .isCancelled)]

/-- The answers: one message for all who are there in the end. -/
def lateCancelAnswers : List (Answered (sharedFutureInterface Nat)) :=
  [⟨.ask (.getInTime 5), .error .timedOut⟩, ⟨.fail "disk full", true⟩,
    ⟨.ask (.cancel true), false⟩, ⟨.ask (.getInTime 5), .error (.failed "disk full")⟩,
    ⟨.ask .get, some (.error (.failed "disk full"))⟩, ⟨.ask .isCancelled, false⟩]

/-- A value for a reader who waits and for one who comes later, and a failure that comes too
late. -/
def lateFailure : List (Visit (sharedFutureInterface Nat)) :=
  [.call (.ask .get), .call (.set 7), .call (.fail "disk full"), .look 0,
    .call (.ask (.getInTime 5)), .call (.ask .isDone)]

/-- The answers: the value for both of them. -/
def lateFailureAnswers : List (Answered (sharedFutureInterface Nat)) :=
  [⟨.set 7, true⟩, ⟨.fail "disk full", false⟩, ⟨.ask .get, some (.ok 7)⟩,
    ⟨.ask (.getInTime 5), .ok 7⟩, ⟨.ask .isDone, true⟩]

/-- A cancellation while two readers wait, and a value that comes too late. -/
def lateValue : List (Visit (sharedFutureInterface Nat)) :=
  [.call (.ask .get), .call (.ask (.getInTime 5)), .call (.ask (.cancel false)), .call (.set 7),
    .giveUp 1, .look 0, .call (.ask .isCancelled)]

/-- The answers: both readers learn that it was cancelled, the one whose time is over too. -/
def lateValueAnswers : List (Answered (sharedFutureInterface Nat)) :=
  [⟨.ask (.cancel false), true⟩, ⟨.set 7, false⟩, ⟨.ask (.getInTime 5), .error .cancelled⟩,
    ⟨.ask .get, some (.error .cancelled)⟩, ⟨.ask .isCancelled, true⟩]

/-- Runs of each kind: a future that fails, one that has a value and one that is cancelled. -/
theorem completedOnce_of_late_cancel :
    (WaitingRoom.visits? shared patience ⟨.pending, []⟩ lateCancel =
        some (lateCancelAnswers, ⟨.completed (.failed "disk full"), []⟩) ∧
      CompletedOnce (lateCancel.flatMap Visit.called) lateCancelAnswers
        ⟨.completed (.failed "disk full"), []⟩) ∧
    (WaitingRoom.visits? shared patience ⟨.pending, []⟩ lateFailure =
        some (lateFailureAnswers, ⟨.completed (.value 7), []⟩) ∧
      CompletedOnce (lateFailure.flatMap Visit.called) lateFailureAnswers
        ⟨.completed (.value 7), []⟩) ∧
    WaitingRoom.visits? shared patience ⟨.pending, []⟩ lateValue =
        some (lateValueAnswers, ⟨.completed .cancelled, []⟩) ∧
      CompletedOnce (lateValue.flatMap Visit.called) lateValueAnswers
        ⟨.completed .cancelled, []⟩ :=
  ⟨⟨rfl, visits?_completedOnce rfl⟩, ⟨rfl, visits?_completedOnce rfl⟩,
    rfl, visits?_completedOnce rfl⟩

end Groundwork.Future
