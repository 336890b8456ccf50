import Groundwork.Supplier.Memo
import Groundwork.Supplier.Script
import Groundwork.Proofs.Supplier.Runs

/-!
# Expiring suppliers

What an expiring supplier should do is told from the calls of the supplier below it, of which a
record is kept: a get has to call if no call has succeeded yet, or if the clock has come to the end
of the time that began when the last success did.

* `Simulation.remembering`: remembering suppliers cannot be told apart if those below cannot.
* `lastSuccess?` and `MustCall`: the record, and when it leaves no choice.
* `slot_eq_kept`: what is remembered is the last success, in every run.
* `ExpiringRun.induction`: the only things that happen in a run are calls that must be made and the
  passing of time.
* `ExpiringRun.expires`: the value is computed anew exactly when it must be, and a stale value never
  comes back, however many computations panic.
-/

namespace Groundwork.Supplier

variable {α : Type}

/-! ## The record of calls -/

/-- The values that calls gave, each with the reading of the clock at the end of its call. -/
def successes (clock : Environment → Nat) (calls : List (Call α)) : List (α × Nat) :=
  calls.filterMap fun call =>
    match call.outcome with
    | .value a => some (a, clock call.after)
    | .panic _ => none

/-- The last of them, if there is one. -/
def lastSuccess? (clock : Environment → Nat) (calls : List (Call α)) : Option (α × Nat) :=
  (successes clock calls).getLast?

/-- After these calls a get has to call again: no call has succeeded, or the clock has come to the
end of the duration that began at the end of the last success. An end that no clock shows never
comes. -/
def MustCall (clock : Environment → Nat) (duration : Nat) (calls : List (Call α))
    (e : Environment) : Prop :=
  match lastSuccess? clock calls with
  | none => True
  | some (_, reading) => reading + duration < clockRange ∧ reading + duration ≤ clock e

/-- The last success as it is remembered. -/
def kept (clock : Environment → Nat) (duration : Nat) (calls : List (Call α)) :
    Option (Cached α) :=
  (lastSuccess? clock calls).map fun success => ⟨success.1, deadline? success.2 duration⟩

section

variable {clock : Environment → Nat} {duration : Nat} {calls : List (Call α)} {e : Environment}

/-- Of two records one after the other the later one counts, if it has a success. -/
theorem lastSuccess?_append (calls more : List (Call α)) :
    lastSuccess? clock (calls ++ more) =
      (lastSuccess? clock more).or (lastSuccess? clock calls) := by
  unfold lastSuccess? successes
  rw [List.filterMap_append, List.getLast?_append]

theorem lastSuccess?_value {call : Call α} {a : α} (h : call.outcome = .value a) :
    lastSuccess? clock (calls ++ [call]) = some (a, clock call.after) := by
  rw [lastSuccess?_append]
  simp [lastSuccess?, successes, h]

theorem lastSuccess?_panic {call : Call α} {text : String} (h : call.outcome = .panic text) :
    lastSuccess? clock (calls ++ [call]) = lastSuccess? clock calls := by
  rw [lastSuccess?_append]
  simp [lastSuccess?, successes, h]

/-- A success is the last one unless there is another one after it. -/
theorem lastSuccess?_append_cons {old new : List (Call α)} {call : Call α} {a : α}
    (h : call.outcome = .value a) : lastSuccess? clock (old ++ call :: new) =
      (lastSuccess? clock new).or (some (a, clock call.after)) := by
  have split : old ++ call :: new = (old ++ [call]) ++ new := by
    rw [List.append_assoc]
    rfl
  rw [split, lastSuccess?_append, lastSuccess?_value h]

theorem mustCall_of_none (h : lastSuccess? clock calls = none) :
    MustCall clock duration calls e := by
  simp [MustCall, h]

theorem mustCall_iff_of_some {a : α} {reading : Nat}
    (h : lastSuccess? clock calls = some (a, reading)) :
    MustCall clock duration calls e ↔
      reading + duration < clockRange ∧ reading + duration ≤ clock e := by
  simp [MustCall, h]

/-- A value whose end no clock shows is good for ever. -/
theorem not_mustCall_of_le {a : α} {reading : Nat}
    (last : lastSuccess? clock calls = some (a, reading))
    (unseen : clockRange ≤ reading + duration) : ¬ MustCall clock duration calls e := by
  rw [mustCall_iff_of_some last]
  rintro ⟨shown, -⟩
  exact Nat.not_le_of_lt shown unseen

/-- Nothing but the last success counts. -/
theorem mustCall_congr {calls' : List (Call α)}
    (h : lastSuccess? clock calls = lastSuccess? clock calls') :
    MustCall clock duration calls e ↔ MustCall clock duration calls' e := by
  unfold MustCall
  rw [h]

/-- What must be called stays so while the clock goes on. -/
theorem MustCall.mono {later : Environment} (h : MustCall clock duration calls e)
    (le : clock e ≤ clock later) : MustCall clock duration calls later := by
  cases last : lastSuccess? clock calls with
  | none => exact mustCall_of_none last
  | some success =>
    rw [mustCall_iff_of_some last] at h ⊢
    exact ⟨h.1, Nat.le_trans h.2 le⟩

/-- Then there is a last success, and it is still good. -/
theorem exists_of_not_mustCall (h : ¬ MustCall clock duration calls e) :
    ∃ a reading, lastSuccess? clock calls = some (a, reading) ∧
      (reading + duration < clockRange → clock e < reading + duration) := by
  cases last : lastSuccess? clock calls with
  | none => exact absurd (mustCall_of_none last) h
  | some success =>
    rw [mustCall_iff_of_some last] at h
    refine ⟨success.1, success.2, rfl, ?_⟩
    intro shown
    rcases Nat.lt_or_ge (clock e) (success.2 + duration) with early | past
    · exact early
    · exact absurd ⟨shown, past⟩ h

theorem fresh?_kept_of_mustCall (h : MustCall clock duration calls e) :
    fresh? (kept clock duration calls) (clock e) = none := by
  cases last : lastSuccess? clock calls with
  | none => simp [kept, last, fresh?]
  | some success =>
    rcases (mustCall_iff_of_some last).mp h with ⟨shown, past⟩
    have late : ¬ clock e < success.2 + duration := Nat.not_lt_of_le past
    simp [kept, last, fresh?, deadline?, shown, Cached.isFresh, late]

theorem fresh?_kept_of_not_mustCall (h : ¬ MustCall clock duration calls e) {a : α} {reading : Nat}
    (last : lastSuccess? clock calls = some (a, reading)) :
    fresh? (kept clock duration calls) (clock e) = some a := by
  rcases exists_of_not_mustCall h with ⟨_, _, same, good⟩
  cases last.symm.trans same
  by_cases shown : reading + duration < clockRange
  · simp [kept, last, fresh?, deadline?, shown, Cached.isFresh, good shown]
  · simp [kept, last, fresh?, deadline?, shown, Cached.isFresh]

theorem kept_value (calls : List (Call α)) (a : α) (after : Environment) :
    kept clock duration (calls ++ [⟨.value a, after⟩]) =
      some ⟨a, deadline? (clock after) duration⟩ := by
  unfold kept
  rw [lastSuccess?_value rfl]
  rfl

theorem kept_panic (calls : List (Call α)) (text : String) (after : Environment) :
    kept clock duration (calls ++ [⟨.panic text, after⟩]) = kept clock duration calls := by
  unfold kept
  rw [lastSuccess?_panic rfl]

/-! ## A single get -/

variable {s : Supplier α} {state after : s.State} {later : Environment}

theorem get_of_fresh {slot : Option (Cached α)} {a : α} (fresh : fresh? slot (clock e) = some a) :
    (s.remembering clock duration).get (slot, state) e = (.value a, (slot, state), e) := by
  simp only [remembering]
  rw [fresh]

theorem get_of_value {slot : Option (Cached α)} {a : α} (stale : fresh? slot (clock e) = none)
    (called : s.get state e = (.value a, after, later)) :
    (s.remembering clock duration).get (slot, state) e =
      (.value a, (some ⟨a, deadline? (clock later) duration⟩, after), later) := by
  simp only [remembering]
  rw [stale, called]

theorem get_of_panic {slot : Option (Cached α)} {text : String}
    (stale : fresh? slot (clock e) = none) (called : s.get state e = (.panic text, after, later)) :
    (s.remembering clock duration).get (slot, state) e = (.panic text, (slot, after), later) := by
  simp only [remembering]
  rw [stale, called]

/-- A get that must call calls once, ends as the call ends, and remembers the value if any. -/
theorem get_of_mustCall {outcome : Outcome α} (h : MustCall clock duration calls e)
    (called : s.get state e = (outcome, after, later)) :
    (s.recorded.remembering clock duration).get (kept clock duration calls, state, calls) e =
      (outcome, (kept clock duration (calls ++ [⟨outcome, later⟩]), after,
        calls ++ [⟨outcome, later⟩]), later) := by
  have stale := fresh?_kept_of_mustCall h
  cases outcome with
  | value a =>
    rw [kept_value]
    exact get_of_value stale (recorded_get called)
  | panic text =>
    rw [kept_panic]
    exact get_of_panic stale (recorded_get called)

/-- Any other get gives the last value and changes nothing. -/
theorem get_of_not_mustCall (s : Supplier α) (state : s.State)
    (h : ¬ MustCall clock duration calls e) {a : α} {reading : Nat}
    (last : lastSuccess? clock calls = some (a, reading)) :
    (s.recorded.remembering clock duration).get (kept clock duration calls, state, calls) e =
      (.value a, (kept clock duration calls, state, calls), e) :=
  get_of_fresh (fresh?_kept_of_not_mustCall h last)

end

/-- The same is remembered, and what is below is related. -/
def SameSlot {s t : Supplier α} (R : s.State → t.State → Environment → Prop)
    (state : Option (Cached α) × s.State) (state' : Option (Cached α) × t.State)
    (e : Environment) : Prop :=
  state'.1 = state.1 ∧ R state.2 state'.2 e

/-- Remembering suppliers cannot be told apart if the suppliers below them cannot. -/
theorem Simulation.remembering {s t : Supplier α} {R : s.State → t.State → Environment → Prop}
    (sim : Simulation s t R) (clock : Environment → Nat) (duration : Nat) :
    Simulation (s.remembering clock duration) (t.remembering clock duration) (SameSlot R) where
  get := by
    rintro ⟨_, state⟩ ⟨slot, state'⟩ e ⟨rfl, related⟩
    rcases sim.exists_get related with ⟨outcome, after, after', later, called, called', related'⟩
    cases fresh : fresh? slot (clock e) with
    | some a => exact alike (get_of_fresh fresh) (get_of_fresh fresh) ⟨rfl, related⟩
    | none =>
      cases outcome with
      | value a =>
        exact alike (get_of_value fresh called) (get_of_value fresh called') ⟨rfl, related'⟩
      | panic text =>
        exact alike (get_of_panic fresh called) (get_of_panic fresh called') ⟨rfl, related'⟩
  advance := by
    rintro state state' e nanoseconds ⟨same, related⟩
    exact ⟨same, sim.advance nanoseconds related⟩

/-! ## Runs on record -/

/-- An expiring supplier about to run: the clock it reads, how long it remembers, whom it asks, and
the environment in which it begins. -/
structure ExpiringRun (α : Type) where
  clock : Environment → Nat
  duration : Nat
  delegate : Supplier α
  start : Environment

namespace ExpiringRun

/-- The supplier, with a record of the calls below it. -/
def watched (r : ExpiringRun α) : Supplier α :=
  r.delegate.recorded.remembering r.clock r.duration

/-- What some moments leave behind. -/
def left (r : ExpiringRun α) (moments : List Moment) : r.watched.State × Environment :=
  r.watched.reached r.watched.initial r.start moments

/-- What is remembered. -/
def slot (r : ExpiringRun α) (moments : List Moment) : Option (Cached α) :=
  (r.left moments).1.1

/-- The state of the supplier below. -/
def below (r : ExpiringRun α) (moments : List Moment) : r.delegate.State :=
  (r.left moments).1.2.1

/-- The calls so far, the latest one last. -/
def calls (r : ExpiringRun α) (moments : List Moment) : List (Call α) :=
  (r.left moments).1.2.2

/-- The environment. -/
def env (r : ExpiringRun α) (moments : List Moment) : Environment :=
  (r.left moments).2

/-- How a get ends after some moments. -/
def answer (r : ExpiringRun α) (moments : List Moment) : Outcome α :=
  (r.watched.get (r.left moments).1 (r.left moments).2).1

/-- Whether a get has to call after some moments. -/
def MustCall (r : ExpiringRun α) (moments : List Moment) : Prop :=
  Supplier.MustCall r.clock r.duration (r.calls moments) (r.env moments)

/-- The last value of a call, and when it ended. -/
def last? (r : ExpiringRun α) (moments : List Moment) : Option (α × Nat) :=
  lastSuccess? r.clock (r.calls moments)

variable {r : ExpiringRun α}

/-! ### What a run does -/

/-- What every call that must be made preserves and the passing of time preserves, a run preserves;
and what is remembered is always the last success. -/
theorem reached_kept {P : r.delegate.State → List (Call α) → Environment → Prop}
    (call : ∀ {state calls e outcome after later}, P state calls e →
      Supplier.MustCall r.clock r.duration calls e →
      r.delegate.get state e = (outcome, after, later) →
      P after (calls ++ [⟨outcome, later⟩]) later)
    (advance : ∀ {state calls e} nanoseconds, P state calls e →
      P state calls (e.advance nanoseconds))
    {state : r.watched.State} {e : Environment}
    (stored : state.1 = kept r.clock r.duration state.2.2) (h : P state.2.1 state.2.2 e)
    (moments : List Moment) :
    (r.watched.reached state e moments).1.1 =
        kept r.clock r.duration (r.watched.reached state e moments).1.2.2 ∧
      P (r.watched.reached state e moments).1.2.1 (r.watched.reached state e moments).1.2.2
        (r.watched.reached state e moments).2 := by
  refine reached_induction (s := r.watched)
    (P := fun state e => state.1 = kept r.clock r.duration state.2.2 ∧ P state.2.1 state.2.2 e)
    ?_ ?_ ⟨stored, h⟩ moments
  · intro state e h
    rcases state with ⟨slot, state, calls⟩
    rcases h with ⟨stored, h⟩
    have stored : slot = kept r.clock r.duration calls := stored
    subst stored
    by_cases must : Supplier.MustCall r.clock r.duration calls e
    · rcases called : r.delegate.get state e with ⟨outcome, after, later⟩
      have got := get_of_mustCall must called
      unfold watched
      rw [got]
      exact ⟨rfl, call h must called⟩
    · rcases exists_of_not_mustCall must with ⟨a, reading, last, good⟩
      have got := get_of_not_mustCall r.delegate state must last
      unfold watched
      rw [got]
      exact ⟨rfl, h⟩
  · rintro state e nanoseconds ⟨stored, h⟩
    exact ⟨stored, advance nanoseconds h⟩

/-- What is remembered is the last success. -/
theorem slot_eq_kept (r : ExpiringRun α) (moments : List Moment) :
    r.slot moments = kept r.clock r.duration (r.calls moments) :=
  (reached_kept (P := fun _ _ _ => True) (fun _ _ _ => trivial) (fun _ _ => trivial) rfl trivial
    moments).1

theorem left_append (r : ExpiringRun α) (moments more : List Moment) :
    r.left (moments ++ more) =
      r.watched.reached (r.left moments).1 (r.left moments).2 more :=
  reached_append _ _ _ _ _

/-- Only two things happen in a run: a call that must be made, and the passing of time. -/
theorem induction {P : r.delegate.State → List (Call α) → Environment → Prop}
    (call : ∀ {state calls e outcome after later}, P state calls e →
      Supplier.MustCall r.clock r.duration calls e →
      r.delegate.get state e = (outcome, after, later) →
      P after (calls ++ [⟨outcome, later⟩]) later)
    (advance : ∀ {state calls e} nanoseconds, P state calls e →
      P state calls (e.advance nanoseconds))
    (earlier : List Moment) (h : P (r.below earlier) (r.calls earlier) (r.env earlier))
    (more : List Moment) :
    P (r.below (earlier ++ more)) (r.calls (earlier ++ more)) (r.env (earlier ++ more)) := by
  unfold below calls env
  rw [left_append]
  exact (reached_kept call advance (r.slot_eq_kept earlier) h more).2

/-- No call is ever taken off the record. -/
theorem exists_calls_append (r : ExpiringRun α) (earlier more : List Moment) :
    ∃ later, r.calls (earlier ++ more) = r.calls earlier ++ later := by
  refine induction (P := fun _ calls _ => ∃ later, calls = r.calls earlier ++ later) ?_ ?_
    earlier ⟨[], (List.append_nil _).symm⟩ more
  · rintro state calls e outcome after env ⟨later, rfl⟩ must called
    exact ⟨later ++ [⟨outcome, env⟩], List.append_assoc _ _ _⟩
  · intro state calls e nanoseconds h
    exact h

/-- The supplier below is left as one of its own runs leaves it. -/
theorem exists_reached (r : ExpiringRun α) (moments : List Moment) :
    ∃ own, r.delegate.reached r.delegate.initial r.start own =
      (r.below moments, r.env moments) := by
  refine induction (P := fun state _ e =>
    ∃ own, r.delegate.reached r.delegate.initial r.start own = (state, e)) ?_ ?_
    [] ⟨[], rfl⟩ moments
  · rintro state calls e outcome after later ⟨own, reached⟩ must called
    exact ⟨own ++ [.get], reached_get reached called⟩
  · rintro state calls e nanoseconds ⟨own, reached⟩
    exact ⟨own ++ [.advance nanoseconds], reached_advance reached nanoseconds⟩

/-- The clock does not go back in the run if it does not in any run of the supplier below. -/
theorem clock_le (neverBack : NeverBack r.clock r.delegate r.start) (earlier more : List Moment) :
    r.clock (r.env earlier) ≤ r.clock (r.env (earlier ++ more)) := by
  refine (induction (P := fun state _ e =>
    (∃ own, r.delegate.reached r.delegate.initial r.start own = (state, e)) ∧
      r.clock (r.env earlier) ≤ r.clock e) ?_ ?_ earlier
    ⟨r.exists_reached earlier, Nat.le_refl _⟩ more).2
  · rintro state calls e outcome after later ⟨⟨own, reached⟩, le⟩ must called
    have next := reached_get reached called
    have onward := neverBack own .get
    rw [next, reached] at onward
    exact ⟨⟨_, next⟩, Nat.le_trans le onward⟩
  · rintro state calls e nanoseconds ⟨⟨own, reached⟩, le⟩
    have next := reached_advance reached nanoseconds
    have onward := neverBack own (.advance nanoseconds)
    rw [next, reached] at onward
    exact ⟨⟨_, next⟩, Nat.le_trans le onward⟩

/-! ### A get in a run -/

theorem left_eq (r : ExpiringRun α) (moments : List Moment) :
    r.left moments =
      ((kept r.clock r.duration (r.calls moments), r.below moments, r.calls moments),
        r.env moments) :=
  Prod.ext (Prod.ext (r.slot_eq_kept moments) rfl) rfl

/-- A get that must call makes one call and ends as it ends. -/
theorem get_called {moments : List Moment} (must : r.MustCall moments) :
    r.delegate.get (r.below moments) (r.env moments) =
        (r.answer moments, r.below (moments ++ [.get]), r.env (moments ++ [.get])) ∧
      r.calls (moments ++ [.get]) =
        r.calls moments ++ [⟨r.answer moments, r.env (moments ++ [.get])⟩] := by
  rcases called : r.delegate.get (r.below moments) (r.env moments) with ⟨outcome, after, later⟩
  have got := get_of_mustCall must called
  have answered : r.answer moments = outcome := by
    unfold answer
    rw [left_eq]
    exact congrArg Prod.fst got
  have behind : r.left (moments ++ [.get]) =
      ((kept r.clock r.duration (r.calls moments ++ [⟨outcome, later⟩]), after,
        r.calls moments ++ [⟨outcome, later⟩]), later) := by
    rw [left_append, left_eq]
    exact congrArg Prod.snd got
  have below : r.below (moments ++ [.get]) = after := congrArg (fun left => left.1.2.1) behind
  have calls : r.calls (moments ++ [.get]) = r.calls moments ++ [⟨outcome, later⟩] :=
    congrArg (fun left => left.1.2.2) behind
  have env : r.env (moments ++ [.get]) = later := congrArg (fun left => left.2) behind
  rw [answered, below, calls, env]
  exact ⟨rfl, rfl⟩

/-- Any other get gives the last value and leaves everything as it is. -/
theorem get_remembered {moments : List Moment} (must : ¬ r.MustCall moments) :
    ∃ a reading, r.last? moments = some (a, reading) ∧ r.answer moments = .value a ∧
      r.left (moments ++ [.get]) = r.left moments := by
  rcases exists_of_not_mustCall must with ⟨a, reading, last, good⟩
  have got := get_of_not_mustCall r.delegate (r.below moments) must last
  refine ⟨a, reading, last, ?_, ?_⟩
  · unfold answer
    rw [left_eq]
    exact congrArg Prod.fst got
  · rw [left_append, left_eq]
    exact congrArg Prod.snd got

/-- Only a get that must call can panic. -/
theorem mustCall_of_panic {moments : List Moment} {text : String}
    (panics : r.answer moments = .panic text) : r.MustCall moments := by
  by_cases must : r.MustCall moments
  · exact must
  · rcases get_remembered must with ⟨a, reading, last, answered, same⟩
    rw [answered] at panics
    cases panics

/-- A panic is on the record and nothing more. -/
theorem calls_of_panic {moments : List Moment} {text : String}
    (panics : r.answer moments = .panic text) :
    r.calls (moments ++ [.get]) =
      r.calls moments ++ [⟨.panic text, r.env (moments ++ [.get])⟩] := by
  rw [(get_called (mustCall_of_panic panics)).2, panics]

/-- What is stale now stays so as long as there is no other success. -/
theorem mustCall_append (neverBack : NeverBack r.clock r.delegate r.start)
    {earlier : List Moment} (more : List Moment) (must : r.MustCall earlier)
    (same : r.last? (earlier ++ more) = r.last? earlier) : r.MustCall (earlier ++ more) := by
  unfold MustCall
  rw [mustCall_congr same]
  exact must.mono (clock_le neverBack earlier more)

/-- A value whose end no clock shows is the last one that is computed. -/
theorem calls_append_of_le {earlier : List Moment} {a : α} {reading : Nat}
    (last : r.last? earlier = some (a, reading)) (unseen : clockRange ≤ reading + r.duration)
    (more : List Moment) : r.calls (earlier ++ more) = r.calls earlier := by
  refine induction (P := fun _ calls _ => calls = r.calls earlier) ?_ ?_ earlier rfl more
  · intro state calls e outcome after later same must called
    rw [same] at must
    exact absurd must (not_mustCall_of_le last unseen)
  · intro state calls e nanoseconds same
    exact same

/-! ### The law -/

/-- That a supplier computes its value anew exactly when it must, and never gives a stale one, said
of all its runs. -/
structure Expires (r : ExpiringRun α) : Prop where
  /-- There is such a supplier. Whether the calls below it are recorded cannot be seen. -/
  built : ∃ s, r.delegate.expiring r.clock r.duration = .ok s ∧
    ∀ moments, s.run s.initial r.start moments = r.watched.run r.watched.initial r.start moments
  /-- A get ends in this way in a run, and leaves this environment behind. -/
  shown : ∀ moments, r.watched.run r.watched.initial r.start (moments ++ [.get]) =
    r.watched.run r.watched.initial r.start moments ++
      [(.one (r.answer moments), r.env (moments ++ [.get]))]
  /-- What is remembered is the value of the last call that succeeded, and when its time is over. -/
  stored : ∀ moments, r.slot moments =
    (r.last? moments).map fun success => ⟨success.1, deadline? success.2 r.duration⟩
  /-- Time that passes changes nothing but the environment. -/
  advance : ∀ moments nanoseconds, r.left (moments ++ [.advance nanoseconds]) =
    ((r.left moments).1, (r.env moments).advance nanoseconds)
  /-- A get that must call makes one call, at once, and ends as the call ends. -/
  get_calls : ∀ moments, r.MustCall moments →
    r.delegate.get (r.below moments) (r.env moments) =
        (r.answer moments, r.below (moments ++ [.get]), r.env (moments ++ [.get])) ∧
      r.calls (moments ++ [.get]) =
        r.calls moments ++ [⟨r.answer moments, r.env (moments ++ [.get])⟩]
  /-- Any other get makes no call and gives the value of the last call that succeeded. -/
  get_remembers : ∀ moments, ¬ r.MustCall moments →
    ∃ a reading, r.last? moments = some (a, reading) ∧ r.answer moments = .value a ∧
      r.left (moments ++ [.get]) = r.left moments
  /-- A panic changes nothing that is remembered. -/
  panic_keeps : ∀ moments text, r.answer moments = .panic text →
    r.MustCall moments ∧ r.slot (moments ++ [.get]) = r.slot moments
  /-- Until there is another call, every get after it has to call. -/
  panic_retries : ∀ moments text more, r.answer moments = .panic text →
    r.calls (moments ++ .get :: more) = r.calls (moments ++ [.get]) →
      r.MustCall (moments ++ .get :: more)
  /-- Once the clock has come to the end of the time of a value, whoever is not answered by a call
  is answered with a value that came after it. -/
  never_stale : ∀ earlier old call a new, r.calls earlier = old ++ call :: new →
    call.outcome = .value a → r.clock call.after + r.duration < clockRange →
    r.clock call.after + r.duration ≤ r.clock (r.env earlier) →
    ∀ more, ¬ r.MustCall (earlier ++ more) →
      ∃ later b reading, r.calls (earlier ++ more) = old ++ call :: (new ++ later) ∧
        lastSuccess? r.clock (new ++ later) = some (b, reading) ∧
        r.answer (earlier ++ more) = .value b
  /-- If no clock shows the end of the time of the last value, there is no call any more. -/
  never_again : ∀ earlier a reading, r.last? earlier = some (a, reading) →
    clockRange ≤ reading + r.duration →
    ∀ more, r.calls (earlier ++ more) = r.calls earlier ∧ r.answer (earlier ++ more) = .value a

/-- A state, and the same state with a record. -/
def SameButRecord (s : Supplier α) (state : Option (Cached α) × s.State)
    (state' : Option (Cached α) × s.State × List (Call α)) (_ : Environment) : Prop :=
  state'.1 = state.1 ∧ state'.2.1 = state.2

/-- Whether calls are recorded cannot be seen. -/
theorem simulation_recorded (clock : Environment → Nat) (duration : Nat) (s : Supplier α) :
    Simulation (s.remembering clock duration) (s.recorded.remembering clock duration)
      (SameButRecord s) :=
  (Simulation.recorded s).remembering clock duration

/-- An expiring supplier computes anew exactly when it must, and never gives a stale value. -/
theorem expires (r : ExpiringRun α) (positive : 0 < r.duration)
    (neverBack : NeverBack r.clock r.delegate r.start) : r.Expires := by
  constructor
  · refine ⟨r.delegate.remembering r.clock r.duration, if_neg (Nat.ne_of_gt positive), ?_⟩
    exact (simulation_recorded r.clock r.duration r.delegate).run_eq ⟨rfl, rfl⟩
  · intro moments
    unfold env
    rw [run_append, left_append]
    rfl
  · exact r.slot_eq_kept
  · intro moments nanoseconds
    rw [left_append]
    rfl
  · intro moments must
    exact get_called must
  · intro moments must
    exact get_remembered must
  · intro moments text panics
    refine ⟨mustCall_of_panic panics, ?_⟩
    rw [slot_eq_kept, slot_eq_kept, calls_of_panic panics, kept_panic]
  · intro moments text more panics quiet
    refine mustCall_append neverBack (.get :: more) (mustCall_of_panic panics) ?_
    unfold last?
    rw [quiet, calls_of_panic panics]
    exact lastSuccess?_panic rfl
  · intro earlier old call a new record succeeded shown past more must
    rcases r.exists_calls_append earlier more with ⟨later, grown⟩
    rw [record, List.append_assoc, List.cons_append] at grown
    rcases get_remembered must with ⟨b, reading, last, answered, same⟩
    refine ⟨later, b, reading, grown, ?_, answered⟩
    have latest : r.last? (earlier ++ more) =
        (lastSuccess? r.clock (new ++ later)).or (some (a, r.clock call.after)) := by
      unfold last?
      rw [grown, lastSuccess?_append_cons succeeded]
    cases newer : lastSuccess? r.clock (new ++ later) with
    | some success =>
      rw [newer, last] at latest
      exact latest.symm
    | none =>
      -- then the call would be the last success still, and its time has come to an end
      rw [newer] at latest
      have stale : r.MustCall (earlier ++ more) :=
        (mustCall_iff_of_some latest).mpr
          ⟨shown, Nat.le_trans past (clock_le neverBack earlier more)⟩
      exact absurd stale must
  · intro earlier a reading last unseen more
    have quiet := calls_append_of_le last unseen more
    have still : r.last? (earlier ++ more) = some (a, reading) := by
      unfold last?
      rw [quiet]
      exact last
    rcases get_remembered (not_mustCall_of_le still unseen) with ⟨b, _, last', answered, same⟩
    cases still.symm.trans last'
    exact ⟨quiet, answered⟩

end ExpiringRun

/-- Whatever a script says, it does not move the clock back. -/
theorem neverBack_script (first : ScriptItem α) (more : List (ScriptItem α)) (start : Environment) :
    NeverBack sharedClock (script first more) start :=
  neverBack_of_le start (fun _ _ => Nat.le_add_right _ _) (fun _ _ => Nat.le_add_right _ _)

/-- A value, a panic when it is stale, and another value. -/
def panicBetween : ExpiringRun Nat :=
  ⟨sharedClock, 10, script ⟨2, .value 7⟩ [⟨3, .panic "out"⟩, ⟨0, .value 8⟩], .initial⟩

/-- The panic leaves the stale value behind, and the next get does not give it. -/
theorem expires_of_panic_between :
    0 < panicBetween.duration ∧
      NeverBack panicBetween.clock panicBetween.delegate panicBetween.start ∧
      panicBetween.Expires ∧
      panicBetween.answer [.get, .advance 9] = .value 7 ∧
      panicBetween.answer [.get, .advance 10] = .panic "out" ∧
      panicBetween.slot [.get, .advance 10, .get] = some ⟨7, some 12⟩ ∧
      panicBetween.answer [.get, .advance 10, .get] = .value 8 :=
  ⟨by decide, neverBack_script _ _ _,
    panicBetween.expires (by decide) (neverBack_script _ _ _), by decide, by decide, by decide,
    by decide⟩

end Groundwork.Supplier
