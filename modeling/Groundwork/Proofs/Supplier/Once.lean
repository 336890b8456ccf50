import Groundwork.Supplier.Script
import Groundwork.Proofs.Supplier.Crowd

/-!
# Suppliers that compute once

A supplier that remembers its first value is told from the calls of the supplier below it, of which
a record is kept: every get is a call until a call succeeds, and no get is a call any more.

* `Simulation.memoize`: such suppliers cannot be told apart if those below cannot.
* `Once`: the lock, the calls and the answers of a run. A get is a call (`Once.call`) or is given
  what is remembered (`Once.give`).
* `MemoRun.once`: so it is in every run.
* `MemoRun.ComputesOnce`: what this says of single gets, of panics, and of threads.
* `SequenceLaw`: how many calls there are when the outcomes of calls are known in advance.
* `memoize_computesOnce`: both hold, of every supplier and of every sequence.
-/

namespace Groundwork.Supplier

variable {α : Type}

/-- Suppliers that remember cannot be told apart if the suppliers below them cannot. -/
theorem Simulation.memoize {s t : Supplier α} {R : s.State → t.State → Environment → Prop}
    (sim : Simulation s t R) : Simulation s.memoize t.memoize (SameOwn R) where
  get := by
    rintro ⟨_, state⟩ ⟨lock, state'⟩ e ⟨rfl, related⟩
    rcases sim.exists_get related with ⟨outcome, after, after', later, called, called', related'⟩
    cases content : lock.content with
    | some a =>
      exact alike (memoize_get_of_held content _ _) (memoize_get_of_held content _ _)
        ⟨rfl, related⟩
    | none =>
      exact alike (memoize_get_of_empty content called) (memoize_get_of_empty content called')
        ⟨rfl, related'⟩
  advance := by
    rintro state state' e nanoseconds ⟨same, related⟩
    exact ⟨same, sim.advance nanoseconds related⟩

/-! ## The invariant -/

theorem values_append (os os' : List (Outcome α)) :
    Outcome.values (os ++ os') = Outcome.values os ++ Outcome.values os' :=
  List.filterMap_append

/-- There is no value if and only if there are panics only. -/
theorem values_eq_nil_iff {os : List (Outcome α)} :
    Outcome.values os = [] ↔ ∀ o ∈ os, ∃ text, o = .panic text := by
  unfold Outcome.values
  rw [List.filterMap_eq_nil_iff]
  refine forall₂_congr ?_
  intro o here
  cases o with
  | value a => simp
  | panic text => simp

/-- The lock after the calls below it have ended in this way and the gets in that way. Either all of
them were panics, or one call has succeeded, which was the last one. -/
inductive Once : Lock (Option α) → List (Outcome α) → List (Outcome α) → Prop
  | failing {panics : List (Outcome α)} (failed : Outcome.values panics = []) :
      Once ⟨none, !panics.isEmpty⟩ panics panics
  | done {panics : List (Outcome α)} (failed : Outcome.values panics = []) (a : α) (again : Nat) :
      Once ⟨some a, !panics.isEmpty⟩ (panics ++ [.value a])
        (panics ++ List.replicate (again + 1) (.value a))

namespace Once

variable {lock : Lock (Option α)} {outcomes answers : List (Outcome α)}

/-- What is remembered is the first value that a call gave. -/
theorem content_eq (h : Once lock outcomes answers) :
    lock.content = (Outcome.values outcomes).head? := by
  cases h with
  | failing failed =>
    rw [failed]
    rfl
  | done failed a again =>
    rw [values_append, failed]
    rfl

/-- As long as nothing is remembered, the next call is another one of its kind. -/
theorem call (h : Once lock outcomes answers) (empty : lock.content = none)
    (outcome : Outcome α) :
    Once (settle lock outcome) (outcomes ++ [outcome]) (answers ++ [outcome]) := by
  cases h with
  | failing failed =>
    cases outcome with
    | value a => exact .done failed a 0
    | panic text =>
      have failed' : Outcome.values (outcomes ++ [.panic text]) = [] := by
        rw [values_append, failed]
        rfl
      have poisoned : (!(outcomes ++ [Outcome.panic text]).isEmpty) = true := by simp
      have more := Once.failing failed'
      rw [poisoned] at more
      exact more
  | done failed a again => cases empty

/-- Once something is remembered, the next get is given it. -/
theorem give (h : Once lock outcomes answers) {a : α} (held : lock.content = some a) :
    Once lock outcomes (answers ++ [.value a]) := by
  cases h with
  | failing failed => cases held
  | done failed b again =>
    cases held
    rw [List.append_assoc, ← List.replicate_succ']
    exact .done failed a (again + 1)

end Once

/-! ## Runs on record -/

/-- A supplier that remembers, about to run: whom it asks, and the environment in which it
begins. -/
structure MemoRun (α : Type) where
  delegate : Supplier α
  start : Environment

namespace MemoRun

/-- The supplier, with a record of the calls below it. -/
def watched (r : MemoRun α) : Supplier α := r.delegate.recorded.memoize

/-- What some moments leave behind. -/
def left (r : MemoRun α) (moments : List Moment) : r.watched.State × Environment :=
  r.watched.reached r.watched.initial r.start moments

/-- The lock, with what is remembered inside. -/
def lock (r : MemoRun α) (moments : List Moment) : Lock (Option α) := (r.left moments).1.1

/-- The state of the supplier below. -/
def below (r : MemoRun α) (moments : List Moment) : r.delegate.State := (r.left moments).1.2.1

/-- The calls so far, the latest one last. -/
def calls (r : MemoRun α) (moments : List Moment) : List (Call α) := (r.left moments).1.2.2

/-- The environment. -/
def env (r : MemoRun α) (moments : List Moment) : Environment := (r.left moments).2

/-- How the calls ended. -/
def outcomes (r : MemoRun α) (moments : List Moment) : List (Outcome α) :=
  (r.calls moments).map Call.outcome

/-- How the gets ended. -/
def answers (r : MemoRun α) (moments : List Moment) : List (Outcome α) :=
  r.watched.answers r.watched.initial r.start moments

/-- How another get would end. -/
def answer (r : MemoRun α) (moments : List Moment) : Outcome α :=
  (r.watched.get (r.left moments).1 (r.left moments).2).1

/-- The first value that a call gave. -/
def first? (r : MemoRun α) (moments : List Moment) : Option α :=
  (Outcome.values (r.outcomes moments)).head?

variable {r : MemoRun α} {moments : List Moment}

/-- In every run all calls but the last one have panicked, and the last one is the last because it
has succeeded. -/
theorem once (r : MemoRun α) (moments : List Moment) :
    Once (r.lock moments) (r.outcomes moments) (r.answers moments) := by
  have first : Once (.around (none : Option α)) [] [] := @Once.failing α [] rfl
  refine answers_induction (s := r.watched)
    (P := fun answers state _ => Once state.1 (state.2.2.map Call.outcome) answers) ?_ ?_ []
    first moments
  · rintro answers ⟨lock, state, calls⟩ e h
    cases content : lock.content with
    | some a =>
      have got : r.watched.get (lock, state, calls) e = _ := memoize_get_of_held content _ _
      rw [got]
      exact h.give content
    | none =>
      rcases called : r.delegate.get state e with ⟨outcome, after, later⟩
      have got : r.watched.get (lock, state, calls) e = _ :=
        memoize_get_of_empty content (recorded_get called)
      rw [got]
      show Once _ ((calls ++ [Call.mk outcome later]).map Call.outcome) _
      rw [List.map_append]
      exact h.call content outcome
  · intro answers state e nanoseconds h
    exact h

theorem content_eq (r : MemoRun α) (moments : List Moment) :
    (r.lock moments).content = r.first? moments :=
  (r.once moments).content_eq

theorem left_append (r : MemoRun α) (moments more : List Moment) :
    r.left (moments ++ more) = r.watched.reached (r.left moments).1 (r.left moments).2 more :=
  reached_append _ _ _ _ _

/-- As long as no call has succeeded, a get is a call, and what is left of the lock is what the call
makes of it. -/
theorem get_called (nothing : r.first? moments = none) :
    r.delegate.get (r.below moments) (r.env moments) =
        (r.answer moments, r.below (moments ++ [.get]), r.env (moments ++ [.get])) ∧
      r.calls (moments ++ [.get]) =
        r.calls moments ++ [⟨r.answer moments, r.env (moments ++ [.get])⟩] ∧
      r.lock (moments ++ [.get]) = settle (r.lock moments) (r.answer moments) := by
  have empty := (r.content_eq moments).trans nothing
  rcases called : r.delegate.get (r.below moments) (r.env moments) with ⟨outcome, after, later⟩
  have got : r.watched.get (r.left moments).1 (r.left moments).2 = _ :=
    memoize_get_of_empty empty (recorded_get called)
  have answered : r.answer moments = outcome := congrArg Prod.fst got
  have behind : r.left (moments ++ [.get]) = _ := reached_get rfl got
  unfold below calls lock env
  rw [answered, behind]
  exact ⟨rfl, rfl, rfl⟩

/-- Once a call has succeeded, nothing changes below or inside the lock any more. -/
theorem left_fst_append {earlier : List Moment} {a : α} (first : r.first? earlier = some a)
    (more : List Moment) : (r.left (earlier ++ more)).1 = (r.left earlier).1 := by
  have held : (r.left earlier).1.1.content = some a := (r.content_eq earlier).trans first
  rw [left_append]
  refine reached_induction (s := r.watched) (P := fun state _ => state = (r.left earlier).1) ?_ ?_
    rfl more
  · rintro state e rfl
    have got : r.watched.get (r.left earlier).1 e = _ := memoize_get_of_held held _ _
    rw [got]
    rfl
  · intro state e nanoseconds same
    exact same

/-- A get then gives the first value. -/
theorem answer_of_first {a : α} (first : r.first? moments = some a) :
    r.answer moments = .value a := by
  have held : (r.left moments).1.1.content = some a := (r.content_eq moments).trans first
  have got : r.watched.get (r.left moments).1 (r.left moments).2 = _ :=
    memoize_get_of_held held _ _
  exact congrArg Prod.fst got

/-! ### The law -/

/-- That a supplier computes its value successfully at most once, said of all its runs. -/
structure ComputesOnce (r : MemoRun α) : Prop where
  /-- Whether the calls below it are recorded cannot be seen. -/
  unseen : ∀ moments, r.delegate.memoize.run r.delegate.memoize.initial r.start moments =
    r.watched.run r.watched.initial r.start moments
  /-- A get ends in this way in a run, and leaves this environment behind. -/
  shown : ∀ moments, r.watched.run r.watched.initial r.start (moments ++ [.get]) =
    r.watched.run r.watched.initial r.start moments ++
      [(.one (r.answer moments), r.env (moments ++ [.get]))]
  /-- Every get is answered. All calls have panicked and are the answers, or they have panicked up
  to one that was the last, and its value is the answer ever since. -/
  once : ∀ moments, (r.answers moments).length = getsIn moments ∧
    Once (r.lock moments) (r.outcomes moments) (r.answers moments)
  /-- As long as no call has succeeded, a get makes one call, at once, and ends as the call ends. -/
  get_calls : ∀ moments, r.first? moments = none →
    r.delegate.get (r.below moments) (r.env moments) =
        (r.answer moments, r.below (moments ++ [.get]), r.env (moments ++ [.get])) ∧
      r.calls (moments ++ [.get]) =
        r.calls moments ++ [⟨r.answer moments, r.env (moments ++ [.get])⟩]
  /-- A panic leaves nothing inside the lock. It is poisoned, and the next get is a call all the
  same. -/
  panic_retries : ∀ moments text, r.answer moments = .panic text →
    r.lock (moments ++ [.get]) = ⟨none, true⟩ ∧ r.first? (moments ++ [.get]) = none
  /-- From the first success on every get gives its value, and there is no call any more. -/
  never_again : ∀ earlier a, r.first? earlier = some a →
    ∀ more, r.calls (earlier ++ more) = r.calls earlier ∧
      r.below (earlier ++ more) = r.below earlier ∧ r.answer (earlier ++ more) = .value a
  /-- Threads that share the supplier ask one after the other, in the order in which their gets end.
  Every get of theirs ends once, unless its thread has the lock or waits for it. -/
  threads : ∀ deeds c, (Crowd.gathered r.delegate.recorded r.start).acts? deeds = some c →
    c.Accounted (deeds.flatMap Deed.asking) ∧
      ∃ moments, r.left moments = ((c.lock, c.below), c.env) ∧
        r.answers moments = c.answered.map Prod.snd
  /-- Nobody waits in vain: a free lock can be handed out, poisoned or not, and whoever has it hands
  it back when the call ends. -/
  lively : ∀ c : Crowd r.delegate.recorded,
    (c.inside = none → ∀ thread ∈ c.waiting, ∃ next, c.act? (.enter thread) = some next) ∧
      ∀ thread, c.inside = some thread → ∃ next, c.act? .finish = some next ∧ next.inside = none

/-- A supplier that remembers computes its value successfully at most once. -/
theorem computesOnce (r : MemoRun α) : r.ComputesOnce := by
  constructor
  · intro moments
    exact (Simulation.recorded r.delegate).memoize.run_eq ⟨rfl, rfl⟩ moments
  · intro moments
    unfold env
    rw [run_append, left_append]
    rfl
  · intro moments
    exact ⟨length_answers _ _ _ _, r.once moments⟩
  · intro moments nothing
    rcases get_called nothing with ⟨called, recorded, -⟩
    exact ⟨called, recorded⟩
  · intro moments text panics
    have nothing : r.first? moments = none := by
      cases first : r.first? moments with
      | none => rfl
      | some a =>
        have answered := answer_of_first first
        rw [panics] at answered
        cases answered
    rcases get_called nothing with ⟨-, -, left⟩
    have empty := (r.content_eq moments).trans nothing
    have poisoned : r.lock (moments ++ [.get]) = ⟨none, true⟩ := by
      rw [left, panics, ← empty]
      rfl
    refine ⟨poisoned, ?_⟩
    rw [← content_eq, poisoned]
  · intro earlier a first more
    have same := left_fst_append first more
    have calls : r.calls (earlier ++ more) = r.calls earlier := congrArg (·.2.2) same
    refine ⟨calls, congrArg (·.2.1) same, answer_of_first ?_⟩
    unfold first? outcomes
    rw [calls]
    exact first
  · intro deeds c ran
    rcases Crowd.exists_serial ran with ⟨moments, serial⟩
    exact ⟨Crowd.accounted_of_acts? ran, moments, serial.reached, serial.answers⟩
  · intro c
    exact ⟨fun free thread waits => Crowd.exists_enter free waits,
      fun thread inside => Crowd.exists_finish inside⟩

end MemoRun

/-! ## Sequences of outcomes -/

/-- The first value of a sequence of outcomes is at this place. -/
def FirstValueAt (ends : Nat → Outcome α) (j : Nat) : Prop :=
  (∃ a, ends j = .value a) ∧ ∀ i < j, ∃ text, ends i = .panic text

/-- There is only one first value. -/
theorem FirstValueAt.eq {ends : Nat → Outcome α} {j k : Nat} (hj : FirstValueAt ends j)
    (hk : FirstValueAt ends k) : j = k := by
  rcases hj with ⟨⟨a, value⟩, panics⟩
  rcases hk with ⟨⟨b, value'⟩, panics'⟩
  rcases Nat.lt_trichotomy j k with lt | eq | lt
  · rcases panics' j lt with ⟨text, panic⟩
    cases value.symm.trans panic
  · exact eq
  · rcases panics k lt with ⟨text, panic⟩
    cases value'.symm.trans panic

theorem values_range_eq_nil_iff {ends : Nat → Outcome α} {count : Nat} :
    Outcome.values ((List.range count).map ends) = [] ↔
      ∀ i < count, ∃ text, ends i = .panic text := by
  rw [values_eq_nil_iff]
  simp

/-- The last of the first outcomes of a sequence, and the others. -/
theorem eq_of_concat_eq_range {ends : Nat → Outcome α} {count : Nat} {front : List (Outcome α)}
    {last : Outcome α} (h : front ++ [last] = (List.range count).map ends) :
    count = front.length + 1 ∧ front = (List.range front.length).map ends ∧
      last = ends front.length := by
  have length : front.length + 1 = count := by
    have same := congrArg List.length h
    simpa using same
  rw [← length, List.range_succ, List.map_append] at h
  rcases List.append_inj' h rfl with ⟨before, tail⟩
  exact ⟨length.symm, before, List.head_eq_of_cons_eq tail⟩

/-- If the calls end as the beginning of a sequence, then with their number the answers are known:
the sequence up to its first value, and this value again and again. -/
theorem Once.of_firstValueAt {ends : Nat → Outcome α} {lock : Lock (Option α)} {count j : Nat}
    {outcomes answers : List (Outcome α)} (once : Once lock outcomes answers)
    (inTurn : outcomes = (List.range count).map ends) (first : FirstValueAt ends j) :
    count = min answers.length (j + 1) ∧
      answers = (List.range answers.length).map fun i => ends (min i j) := by
  cases once with
  | failing failed =>
    subst inTurn
    have panics := values_range_eq_nil_iff.mp failed
    have le : count ≤ j := by
      rcases first.1 with ⟨a, value⟩
      refine Nat.le_of_not_lt ?_
      intro lt
      rcases panics j lt with ⟨text, panic⟩
      cases value.symm.trans panic
    rw [List.length_map, List.length_range]
    refine ⟨by omega, ?_⟩
    refine List.map_congr_left ?_
    intro i below
    rw [Nat.min_eq_left (Nat.le_trans (Nat.le_of_lt (List.mem_range.mp below)) le)]
  | @done panics failed a again =>
    -- the last call is the first one that has succeeded
    rcases eq_of_concat_eq_range inTurn with ⟨number, before, value⟩
    rw [before] at failed
    have same : panics.length = j :=
      FirstValueAt.eq ⟨⟨a, value.symm⟩, values_range_eq_nil_iff.mp failed⟩ first
    rw [List.length_append, List.length_replicate, number, value, same]
    refine ⟨by omega, ?_⟩
    rw [List.range_add, List.map_append, List.map_map, before, same]
    congr 1
    · refine List.map_congr_left ?_
      intro i below
      rw [Nat.min_eq_left (Nat.le_of_lt (List.mem_range.mp below))]
    · refine (List.eq_replicate_iff.mpr ⟨by simp, ?_⟩).symm
      intro answer here
      rcases List.mem_map.mp here with ⟨i, -, rfl⟩
      exact congrArg ends (Nat.min_eq_right (Nat.le_add_right j i))

/-- Without a value among so many of them, all answers are panics. -/
theorem Once.of_panics {ends : Nat → Outcome α} {lock : Lock (Option α)} {count : Nat}
    {outcomes answers : List (Outcome α)} (once : Once lock outcomes answers)
    (inTurn : outcomes = (List.range count).map ends)
    (panics : ∀ i < answers.length, ∃ text, ends i = .panic text) :
    count = answers.length ∧ answers = (List.range answers.length).map ends := by
  cases once with
  | failing failed =>
    subst inTurn
    rw [List.length_map, List.length_range]
    exact ⟨rfl, rfl⟩
  | @done before failed a again =>
    -- the last call would have panicked
    rcases eq_of_concat_eq_range inTurn with ⟨-, -, value⟩
    rcases panics before.length (by simp) with ⟨text, panic⟩
    cases value.trans panic

/-- The supplier that remembers the first value of a sequence, about to run. -/
def MemoRun.ofSequence (ends : Nat → Outcome α) (start : Environment) : MemoRun α :=
  ⟨sequence ends, start⟩

/-- So many calls were made, and they ended as the beginning of the sequence does. -/
def InTurn (ends : Nat → Outcome α) (called : Nat) (calls : List (Call α)) : Prop :=
  called = calls.length ∧ calls.map Call.outcome = (List.range called).map ends

theorem InTurn.call {ends : Nat → Outcome α} {called : Nat} {calls : List (Call α)}
    (h : InTurn ends called calls) (later : Environment) :
    InTurn ends (called + 1) (calls ++ [⟨ends called, later⟩]) := by
  rcases h with ⟨number, outcomes⟩
  constructor
  · rw [List.length_append, number]
    rfl
  · rw [List.map_append, outcomes, List.range_succ, List.map_append]
    rfl

theorem MemoRun.inTurn (ends : Nat → Outcome α) (start : Environment) (moments : List Moment) :
    InTurn ends ((ofSequence ends start).below moments)
      ((ofSequence ends start).calls moments) := by
  refine reached_induction (s := (ofSequence ends start).watched)
    (P := fun state _ => InTurn ends state.2.1 state.2.2) ?_ ?_ ⟨rfl, rfl⟩ moments
  · rintro ⟨lock, called, calls⟩ e h
    cases content : lock.content with
    | some a =>
      have got : (ofSequence ends start).watched.get (lock, called, calls) e = _ :=
        memoize_get_of_held content _ _
      rw [got]
      exact h
    | none =>
      have got : (ofSequence ends start).watched.get (lock, called, calls) e = _ :=
        memoize_get_of_empty content (recorded_get rfl)
      rw [got]
      exact h.call _
  · intro state e nanoseconds h
    exact h

/-- The calls end as the beginning of the sequence does. -/
theorem MemoRun.outcomes_ofSequence (ends : Nat → Outcome α) (start : Environment)
    (moments : List Moment) :
    (ofSequence ends start).outcomes moments =
      (List.range ((ofSequence ends start).calls moments).length).map ends := by
  rcases inTurn ends start moments with ⟨number, outcomes⟩
  rw [← number]
  exact outcomes

/-- How often the supplier below is called if its calls end as a sequence of outcomes, and what the
gets give: the sequence up to its first value, and then this value. -/
structure SequenceLaw (ends : Nat → Outcome α) (start : Environment) : Prop where
  count : ∀ j, FirstValueAt ends j → ∀ moments,
    ((MemoRun.ofSequence ends start).calls moments).length = min (getsIn moments) (j + 1) ∧
      (MemoRun.ofSequence ends start).answers moments =
        (List.range (getsIn moments)).map fun i => ends (min i j)
  /-- As long as the sequence has no value, all its outcomes are given. -/
  panics : ∀ moments, (∀ i < getsIn moments, ∃ text, ends i = .panic text) →
    ((MemoRun.ofSequence ends start).calls moments).length = getsIn moments ∧
      (MemoRun.ofSequence ends start).answers moments = (List.range (getsIn moments)).map ends
  /-- Threads are answered like this as well, in the order in which their gets end. -/
  threads : ∀ j, FirstValueAt ends j → ∀ deeds c,
    (Crowd.gathered (sequence ends).recorded start).acts? deeds = some c →
      c.below.2.length = min c.answered.length (j + 1) ∧
        c.answered.map Prod.snd =
          (List.range c.answered.length).map fun i => ends (min i j)

theorem sequenceLaw (ends : Nat → Outcome α) (start : Environment) : SequenceLaw ends start := by
  have inTurn := MemoRun.outcomes_ofSequence ends start
  have once := MemoRun.once (.ofSequence ends start)
  have count : ∀ j, FirstValueAt ends j → ∀ moments, _ := fun j first moments =>
    (once moments).of_firstValueAt (inTurn moments) first
  constructor
  · intro j first moments
    rw [← length_answers _ _ start moments]
    exact count j first moments
  · intro moments panics
    rw [← length_answers _ _ start moments] at panics ⊢
    exact (once moments).of_panics (inTurn moments) panics
  · intro j first deeds c ran
    rcases Crowd.exists_serial ran with ⟨moments, serial⟩
    have calls : (MemoRun.ofSequence ends start).calls moments = c.below.2 :=
      congrArg (·.1.2.2) serial.reached
    have answers : (MemoRun.ofSequence ends start).answers moments = c.answered.map Prod.snd :=
      serial.answers
    have law := count j first moments
    rw [calls, answers, List.length_map] at law
    exact law

/-- Every supplier that remembers computes successfully at most once; and what the calls of the
supplier below it would be tells how many of them there are. -/
theorem memoize_computesOnce (α : Type) :
    (∀ r : MemoRun α, r.ComputesOnce) ∧
      ∀ (ends : Nat → Outcome α) (start : Environment), SequenceLaw ends start := by
  constructor
  · intro r
    exact r.computesOnce
  · intro ends start
    exact sequenceLaw ends start

/-- Two panics, and a value from then on: three calls for any number of gets more. -/
example : ((MemoRun.ofSequence (fun i => if i < 2 then .panic "out" else .value i) .initial).answers
    [.get, .together 3, .advance 5, .get]) =
      [.panic "out", .panic "out", .value 2, .value 2, .value 2] := by
  decide

end Groundwork.Supplier
