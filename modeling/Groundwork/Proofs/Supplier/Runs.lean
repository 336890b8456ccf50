import Groundwork.Supplier.Record

/-!
# Runs of suppliers

* `gets_eq`: calls that come together are calls one after the other.
* `length_answers`: every get in a run is answered.
* `answers_induction`: what every get brings from some answers to the next one, a run does.
* `reached_induction`: what every call preserves and the passing of time preserves, a run preserves.
* `neverBack_of_le`: no run moves a clock back that no single call moves back.
* `Simulation.run_eq` and `Simulation.reached`: suppliers whose states can be related so that calls
  end in the same way cannot be told apart, and their states stay related.
* `Simulation.compose` and `Simulation.recorded`: functions around such suppliers make such
  suppliers again, and whether the calls of one are recorded cannot be told.
-/

namespace Groundwork.Supplier

variable {α : Type}

/-! ## Moments one after the other -/

theorem reached_append (s : Supplier α) (state : s.State) (e : Environment)
    (moments more : List Moment) :
    s.reached state e (moments ++ more) =
      s.reached (s.reached state e moments).1 (s.reached state e moments).2 more := by
  induction moments generalizing state e with
  | nil => rfl
  | cons moment moments ih => exact ih _ _

theorem run_append (s : Supplier α) (state : s.State) (e : Environment)
    (moments more : List Moment) :
    s.run state e (moments ++ more) = s.run state e moments ++
      s.run (s.reached state e moments).1 (s.reached state e moments).2 more := by
  induction moments generalizing state e with
  | nil => rfl
  | cons moment moments ih =>
    show _ :: s.run _ _ (moments ++ more) = _ :: (s.run _ _ moments ++ _)
    rw [ih]
    rfl

/-- A run goes on with a call. -/
theorem reached_get {s : Supplier α} {first state after : s.State} {start e later : Environment}
    {outcome : Outcome α} {moments : List Moment} (h : s.reached first start moments = (state, e))
    (called : s.get state e = (outcome, after, later)) :
    s.reached first start (moments ++ [.get]) = (after, later) := by
  rw [reached_append, h]
  show (s.get state e).2 = _
  rw [called]

/-- A run goes on with time that passes. -/
theorem reached_advance {s : Supplier α} {first state : s.State} {start e : Environment}
    {moments : List Moment} (h : s.reached first start moments = (state, e)) (nanoseconds : Nat) :
    s.reached first start (moments ++ [.advance nanoseconds]) = (state, e.advance nanoseconds) := by
  rw [reached_append, h]
  rfl

/-- Calls that come together leave behind what calls one after the other leave behind, and end as
these do. -/
theorem gets_eq (s : Supplier α) (count : Nat) (state : s.State) (e : Environment) :
    (s.gets count state e).2 = s.reached state e (List.replicate count .get) ∧
      (s.gets count state e).1.map .one =
        (s.run state e (List.replicate count .get)).map Prod.fst := by
  induction count generalizing state e with
  | zero => exact ⟨rfl, rfl⟩
  | succ count ih =>
    rcases ih (s.get state e).2.1 (s.get state e).2.2 with ⟨behind, ends⟩
    constructor
    · exact behind
    · show _ :: List.map _ _ = _ :: List.map _ _
      rw [ends]
      rfl

/-- A call that is recorded ends as it would end otherwise. -/
theorem recorded_get {s : Supplier α} {state after : s.State} {e later : Environment}
    {outcome : Outcome α} {calls : List (Call α)}
    (called : s.get state e = (outcome, after, later)) :
    s.recorded.get (state, calls) e = (outcome, (after, calls ++ [⟨outcome, later⟩]), later) := by
  simp only [recorded]
  rw [called]

/-! ## Answers -/

theorem answers_cons (s : Supplier α) (state : s.State) (e : Environment) (moment : Moment)
    (moments : List Moment) :
    s.answers state e (moment :: moments) = (s.step state e moment).1.toList ++
      s.answers (s.step state e moment).2.1 (s.step state e moment).2.2 moments :=
  List.flatMap_cons

theorem answers_append (s : Supplier α) (state : s.State) (e : Environment)
    (moments more : List Moment) :
    s.answers state e (moments ++ more) = s.answers state e moments ++
      s.answers (s.reached state e moments).1 (s.reached state e moments).2 more := by
  unfold answers
  rw [run_append, List.flatMap_append]

theorem length_gets (s : Supplier α) (count : Nat) (state : s.State) (e : Environment) :
    (s.gets count state e).1.length = count := by
  induction count generalizing state e with
  | zero => rfl
  | succ count ih =>
    show (_ :: (s.gets count _ _).1).length = _
    rw [List.length_cons, ih]

/-- Every get is answered. -/
theorem length_answers (s : Supplier α) (state : s.State) (e : Environment)
    (moments : List Moment) : (s.answers state e moments).length = getsIn moments := by
  induction moments generalizing state e with
  | nil => rfl
  | cons moment moments ih =>
    rw [answers_cons, List.length_append, ih]
    cases moment with
    | get => rfl
    | advance nanoseconds => exact Nat.zero_add _
    | together count => exact congrArg (· + getsIn moments) (length_gets _ _ _ _)

/-! ## Invariants -/

/-- What every get brings from some answers to the next one, and the passing of time preserves, a
number of gets brings from some answers to theirs. -/
theorem gets_induction {s : Supplier α} {P : List (Outcome α) → s.State → Environment → Prop}
    (get : ∀ {answers state e}, P answers state e →
      P (answers ++ [(s.get state e).1]) (s.get state e).2.1 (s.get state e).2.2)
    (count : Nat) {answers : List (Outcome α)} {state : s.State} {e : Environment}
    (h : P answers state e) :
    P (answers ++ (s.gets count state e).1) (s.gets count state e).2.1
      (s.gets count state e).2.2 := by
  induction count generalizing answers state e with
  | zero =>
    show P (answers ++ []) state e
    rw [List.append_nil]
    exact h
  | succ count ih =>
    have later := ih (get h)
    rw [List.append_assoc] at later
    exact later

/-- What every get brings from some answers to the next one, and the passing of time preserves, a
run brings from some answers to those of its gets. -/
theorem answers_induction {s : Supplier α} {P : List (Outcome α) → s.State → Environment → Prop}
    (get : ∀ {answers state e}, P answers state e →
      P (answers ++ [(s.get state e).1]) (s.get state e).2.1 (s.get state e).2.2)
    (advance : ∀ {answers state e} nanoseconds, P answers state e →
      P answers state (e.advance nanoseconds))
    (answers : List (Outcome α)) {state : s.State} {e : Environment} (h : P answers state e)
    (moments : List Moment) :
    P (answers ++ s.answers state e moments) (s.reached state e moments).1
      (s.reached state e moments).2 := by
  induction moments generalizing answers state e with
  | nil =>
    show P (answers ++ []) state e
    rw [List.append_nil]
    exact h
  | cons moment moments ih =>
    rw [answers_cons, ← List.append_assoc]
    refine ih _ ?_
    cases moment with
    | get => exact get h
    | advance nanoseconds =>
      show P (answers ++ []) state (e.advance nanoseconds)
      rw [List.append_nil]
      exact advance nanoseconds h
    | together count => exact gets_induction get count h

/-- What every call preserves and the passing of time preserves, a run preserves. -/
theorem reached_induction {s : Supplier α} {P : s.State → Environment → Prop}
    (get : ∀ {state e}, P state e → P (s.get state e).2.1 (s.get state e).2.2)
    (advance : ∀ {state e} nanoseconds, P state e → P state (e.advance nanoseconds))
    {state : s.State} {e : Environment} (h : P state e) (moments : List Moment) :
    P (s.reached state e moments).1 (s.reached state e moments).2 :=
  answers_induction (P := fun _ => P) get advance [] h moments

/-- A clock that no call and no passing of time moves back is not moved back by a run. -/
theorem neverBack_of_le {clock : Environment → Nat} {s : Supplier α} (start : Environment)
    (get : ∀ state e, clock e ≤ clock (s.get state e).2.2)
    (advance : ∀ e nanoseconds, clock e ≤ clock (e.advance nanoseconds)) :
    NeverBack clock s start := by
  intro moments moment
  rw [reached_append]
  exact reached_induction (P := fun _ e => clock (s.reached s.initial start moments).2 ≤ clock e)
    (fun h => Nat.le_trans h (get _ _))
    (fun nanoseconds h => Nat.le_trans h (advance _ nanoseconds)) (Nat.le_refl _) [moment]

/-! ## Suppliers that cannot be told apart -/

/-- Calls in related states end in the same way and in related states. The relation may depend on
the environment, as what is stale does. -/
structure Simulation (s t : Supplier α) (R : s.State → t.State → Environment → Prop) : Prop where
  get : ∀ {state state' e}, R state state' e →
    (s.get state e).1 = (t.get state' e).1 ∧ (s.get state e).2.2 = (t.get state' e).2.2 ∧
      R (s.get state e).2.1 (t.get state' e).2.1 (s.get state e).2.2
  advance : ∀ {state state' e} nanoseconds, R state state' e →
    R state state' (e.advance nanoseconds)

/-- A layer has the same state of its own, and what is below it is related. -/
def SameOwn {σ : Type} {s t : Supplier α} (R : s.State → t.State → Environment → Prop)
    (state : σ × s.State) (state' : σ × t.State) (e : Environment) : Prop :=
  state'.1 = state.1 ∧ R state.2 state'.2 e

namespace Simulation

variable {s t : Supplier α} {R : s.State → t.State → Environment → Prop}

/-- Two calls that end in the same way and in related states. -/
theorem alike {got : Outcome α × s.State × Environment} {got' : Outcome α × t.State × Environment}
    {outcome : Outcome α} {state : s.State} {state' : t.State} {e : Environment}
    (h : got = (outcome, state, e)) (h' : got' = (outcome, state', e))
    (related : R state state' e) :
    got.1 = got'.1 ∧ got.2.2 = got'.2.2 ∧ R got.2.1 got'.2.1 got.2.2 := by
  rw [h, h']
  exact ⟨rfl, rfl, related⟩

/-- Calls in related states, by what comes of them. -/
theorem exists_get (sim : Simulation s t R) {state : s.State} {state' : t.State} {e : Environment}
    (h : R state state' e) : ∃ outcome after after' later, s.get state e = (outcome, after, later) ∧
      t.get state' e = (outcome, after', later) ∧ R after after' later := by
  rcases called : s.get state e with ⟨outcome, after, later⟩
  rcases called' : t.get state' e with ⟨outcome', after', later'⟩
  rcases sim.get h with ⟨ends, env, related⟩
  rw [called, called'] at ends env related
  cases ends
  cases env
  exact ⟨outcome, after, after', later, rfl, rfl, related⟩

theorem gets (sim : Simulation s t R) (count : Nat) {state : s.State} {state' : t.State}
    {e : Environment} (h : R state state' e) :
    (s.gets count state e).1 = (t.gets count state' e).1 ∧
      (s.gets count state e).2.2 = (t.gets count state' e).2.2 ∧
      R (s.gets count state e).2.1 (t.gets count state' e).2.1 (s.gets count state e).2.2 := by
  induction count generalizing state state' e with
  | zero => exact ⟨rfl, rfl, h⟩
  | succ count ih =>
    rcases sim.get h with ⟨ends, env, related⟩
    rcases ih related with ⟨more, behind, related'⟩
    simp only [Supplier.gets]
    rw [← env, ends, more]
    exact ⟨rfl, behind, related'⟩

theorem step (sim : Simulation s t R) (moment : Moment) {state : s.State} {state' : t.State}
    {e : Environment} (h : R state state' e) :
    (s.step state e moment).1 = (t.step state' e moment).1 ∧
      (s.step state e moment).2.2 = (t.step state' e moment).2.2 ∧
      R (s.step state e moment).2.1 (t.step state' e moment).2.1 (s.step state e moment).2.2 := by
  cases moment with
  | get =>
    rcases sim.get h with ⟨ends, env, related⟩
    exact ⟨congrArg Outcomes.one ends, env, related⟩
  | advance nanoseconds => exact ⟨rfl, rfl, sim.advance nanoseconds h⟩
  | together count =>
    rcases sim.gets count h with ⟨ends, env, related⟩
    exact ⟨congrArg Outcomes.several ends, env, related⟩

/-- From related states on, all runs are the same. -/
theorem run_eq (sim : Simulation s t R) {state : s.State} {state' : t.State} {e : Environment}
    (h : R state state' e) (moments : List Moment) :
    s.run state e moments = t.run state' e moments := by
  induction moments generalizing state state' e with
  | nil => rfl
  | cons moment moments ih =>
    rcases sim.step moment h with ⟨ends, env, related⟩
    show (_, _) :: s.run _ _ moments = (_, _) :: t.run _ _ moments
    rw [ih related, ends, env]

/-- From related states on, runs lead to related states and the same environment. -/
theorem reached (sim : Simulation s t R) {state : s.State} {state' : t.State} {e : Environment}
    (h : R state state' e) (moments : List Moment) :
    (s.reached state e moments).2 = (t.reached state' e moments).2 ∧
      R (s.reached state e moments).1 (t.reached state' e moments).1
        (s.reached state e moments).2 := by
  induction moments generalizing state state' e with
  | nil => exact ⟨rfl, h⟩
  | cons moment moments ih =>
    rcases sim.step moment h with ⟨-, env, related⟩
    have later := ih related
    simp only [Supplier.reached]
    rw [← env]
    exact later

theorem compose (sim : Simulation s t R) {β : Type} (f : α → Outcome β) :
    Simulation (s.compose f) (t.compose f) R where
  get := by
    intro state state' e h
    rcases sim.get h with ⟨ends, env, related⟩
    exact ⟨congrArg (Outcome.andThen · f) ends, env, related⟩
  advance := sim.advance

/-- Whether calls are recorded cannot be seen. -/
theorem recorded (s : Supplier α) :
    Simulation s s.recorded fun state state' _ => state'.1 = state where
  get := by
    rintro state ⟨_, calls⟩ e rfl
    exact ⟨rfl, rfl, rfl⟩
  advance := by
    intro state state' e nanoseconds related
    exact related

end Simulation

end Groundwork.Supplier
