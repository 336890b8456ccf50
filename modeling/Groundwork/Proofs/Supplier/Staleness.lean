import Groundwork.Supplier.Chain
import Groundwork.Proofs.Supplier.Expiry

/-!
# Staleness in chains of suppliers

Every layer that remembers may be handed a value that is already old in the layers below it, so ages
add up: a value can be almost as old as all durations of the chain together, and never older.

* `Chain.supplier` is the supplier of a chain whose durations are positive (`Chain.build_eq`).
* `Chain.Gets`: what a get of a chain can do, layer by layer (`Chain.gets_of_get`).
* `Chain.Aged`: how old a remembered value can be at its deadline. Every get keeps it, and gives
  nothing older (`Chain.Gets.aged`).
* `ChainRun.Sound`: the invariant of a run, with the calls of the base on record.
* `ChainRun.ages_add_up`: in every run a value is younger than all durations together.
-/

namespace Groundwork.Supplier

-- sums mean the same whether or not algebra is imported beside this module
attribute [local instance (2000)] Zero.ofOfNat0

variable {α β γ : Type}

/-- Faltering suppliers cannot be told apart if the suppliers below them cannot. -/
theorem Simulation.faltering {s t : Supplier α} {R : s.State → t.State → Environment → Prop}
    (sim : Simulation s t R) {σ : Type} (initial : σ) (panics : σ → α → Option String × σ) :
    Simulation (s.faltering initial panics) (t.faltering initial panics) (SameOwn R) where
  get := by
    rintro ⟨_, state⟩ ⟨own, state'⟩ e ⟨rfl, related⟩
    rcases sim.exists_get related with ⟨outcome, after, after', later, called, called', related'⟩
    simp only [Supplier.faltering, called, called']
    cases outcome with
    | panic text => exact ⟨rfl, rfl, rfl, related'⟩
    | value a =>
      dsimp only
      split
      · exact ⟨rfl, rfl, rfl, related'⟩
      · exact ⟨rfl, rfl, rfl, related'⟩
  advance := by
    rintro state state' e nanoseconds ⟨same, related⟩
    exact ⟨same, sim.advance nanoseconds related⟩

/-- Neither can suppliers behind locks. -/
theorem Simulation.guarded {s t : Supplier α} {R : s.State → t.State → Environment → Prop}
    (sim : Simulation s t R) : Simulation s.guarded t.guarded (SameOwn R) where
  get := by
    rintro ⟨_, state⟩ ⟨lock, state'⟩ e ⟨rfl, related⟩
    rcases sim.exists_get related with ⟨outcome, after, after', later, called, called', related'⟩
    exact alike (guarded_get called) (guarded_get called') ⟨rfl, related'⟩
  advance := by
    rintro state state' e nanoseconds ⟨same, related⟩
    exact ⟨same, sim.advance nanoseconds related⟩

namespace Chain

variable {clock : Environment → Nat} {leaf : Supplier α}

/-- The supplier that a chain describes, whether or not a duration is zero. -/
def supplier (clock : Environment → Nat) (leaf : Supplier α) {β : Type} : Chain α β → Supplier β
  | base => leaf
  | compose f inner => (inner.supplier clock leaf).compose f
  | faltering initial panics inner => (inner.supplier clock leaf).faltering initial panics
  | synchronized inner => (inner.supplier clock leaf).guarded
  | expiring duration inner => (inner.supplier clock leaf).remembering clock duration

/-- A chain of positive durations can be built. -/
theorem build_eq (c : Chain α β) (positive : ∀ d ∈ c.durations, 0 < d) :
    c.build clock leaf = .ok (c.supplier clock leaf) := by
  induction c with
  | base => rfl
  | compose f inner ih =>
    rw [build, ih positive]
    rfl
  | faltering initial panics inner ih =>
    rw [build, ih positive]
    rfl
  | synchronized inner ih =>
    rw [build, ih positive]
    rfl
  | expiring duration inner ih =>
    rcases List.forall_mem_cons.mp positive with ⟨first, others⟩
    rw [build, ih others]
    exact if_neg (Nat.ne_of_gt first)

/-- Chains cannot be told apart if the suppliers at their bases cannot. -/
theorem exists_simulation (c : Chain α β) {leaf' : Supplier α}
    {R : leaf.State → leaf'.State → Environment → Prop} (sim : Simulation leaf leaf' R)
    {e : Environment} (start : R leaf.initial leaf'.initial e) :
    ∃ R', Simulation (c.supplier clock leaf) (c.supplier clock leaf') R' ∧
      R' (c.supplier clock leaf).initial (c.supplier clock leaf').initial e := by
  induction c with
  | base => exact ⟨R, sim, start⟩
  | compose f inner ih =>
    rcases ih with ⟨R', sim', start'⟩
    exact ⟨R', sim'.compose f, start'⟩
  | faltering initial panics inner ih =>
    rcases ih with ⟨R', sim', start'⟩
    exact ⟨SameOwn R', sim'.faltering initial panics, rfl, start'⟩
  | synchronized inner ih =>
    rcases ih with ⟨R', sim', start'⟩
    exact ⟨SameOwn R', sim'.guarded, rfl, start'⟩
  | expiring duration inner ih =>
    rcases ih with ⟨R', sim', start'⟩
    exact ⟨SameSlot R', sim'.remembering clock duration, rfl, start'⟩

/-! ## What a get of a chain can do -/

/-- What a get of a chain can do: how it ends, and the state and the environment afterwards. -/
inductive Gets (clock : Environment → Nat) (leaf : Supplier α) :
    {β : Type} → (c : Chain α β) → (c.supplier clock leaf).State → Environment →
      Outcome β → (c.supplier clock leaf).State → Environment → Prop
  | base {state after : leaf.State} {e later : Environment} {outcome : Outcome α}
      (called : leaf.get state e = (outcome, after, later)) :
      Gets clock leaf base state e outcome after later
  | compose {β γ : Type} {f : β → Outcome γ} {inner : Chain α β}
      {state after : (inner.supplier clock leaf).State} {e later : Environment}
      {outcome : Outcome β} (got : Gets clock leaf inner state e outcome after later) :
      Gets clock leaf (compose f inner) state e (outcome.andThen f) after later
  /-- The layer lets a value pass. -/
  | passes {β σ : Type} {initial own own' : σ} {panics : σ → β → Option String × σ}
      {inner : Chain α β} {state after : (inner.supplier clock leaf).State}
      {e later : Environment} {a : β}
      (got : Gets clock leaf inner state e (.value a) after later) :
      Gets clock leaf (faltering initial panics inner) (own, state) e (.value a) (own', after) later
  /-- The layer panics, by itself or because the layers below it did. -/
  | falters {β σ : Type} {initial own own' : σ} {panics : σ → β → Option String × σ}
      {inner : Chain α β} {state after : (inner.supplier clock leaf).State}
      {e later : Environment} {outcome : Outcome β} {text : String}
      (got : Gets clock leaf inner state e outcome after later) :
      Gets clock leaf (faltering initial panics inner) (own, state) e (.panic text) (own', after)
        later
  /-- The layer goes through its lock, poisoned or not, and a panic leaves it poisoned. -/
  | synchronized {β : Type} {inner : Chain α β} {lock : Lock Unit}
      {state after : (inner.supplier clock leaf).State} {e later : Environment}
      {outcome : Outcome β} (got : Gets clock leaf inner state e outcome after later) :
      Gets clock leaf (synchronized inner) (lock, state) e outcome (released lock outcome, after)
        later
  /-- The layer gives what it remembers. -/
  | remembers {β : Type} {duration : Nat} {inner : Chain α β} {slot : Option (Cached β)}
      {state : (inner.supplier clock leaf).State} {e : Environment} {a : β}
      (fresh : fresh? slot (clock e) = some a) :
      Gets clock leaf (expiring duration inner) (slot, state) e (.value a) (slot, state) e
  /-- The layer asks for a value and remembers it. -/
  | renews {β : Type} {duration : Nat} {inner : Chain α β} {slot : Option (Cached β)}
      {state after : (inner.supplier clock leaf).State} {e later : Environment} {a : β}
      (stale : fresh? slot (clock e) = none)
      (got : Gets clock leaf inner state e (.value a) after later) :
      Gets clock leaf (expiring duration inner) (slot, state) e (.value a)
        (some ⟨a, deadline? (clock later) duration⟩, after) later
  /-- The layer asks in vain and keeps what it remembered. -/
  | fails {β : Type} {duration : Nat} {inner : Chain α β} {slot : Option (Cached β)}
      {state after : (inner.supplier clock leaf).State} {e later : Environment} {text : String}
      (stale : fresh? slot (clock e) = none)
      (got : Gets clock leaf inner state e (.panic text) after later) :
      Gets clock leaf (expiring duration inner) (slot, state) e (.panic text) (slot, after) later

/-- A get of a chain can do nothing else. -/
theorem gets_of_get {c : Chain α β} {state after : (c.supplier clock leaf).State}
    {e later : Environment} {outcome : Outcome β}
    (got : (c.supplier clock leaf).get state e = (outcome, after, later)) :
    Gets clock leaf c state e outcome after later := by
  induction c with
  | base => exact .base got
  | compose f inner ih =>
    rcases below : (inner.supplier clock leaf).get state e with ⟨o, after', later'⟩
    have got' : (Outcome.andThen o f, after', later') = (outcome, after, later) := by
      rw [← got]
      show _ = (((inner.supplier clock leaf).get state e).1.andThen f,
        ((inner.supplier clock leaf).get state e).2)
      rw [below]
    cases got'
    exact .compose (ih below)
  | faltering initial panics inner ih =>
    rcases state with ⟨own, state⟩
    rcases below : (inner.supplier clock leaf).get state e with ⟨o, after', later'⟩
    simp only [supplier, Supplier.faltering, below] at got
    cases o with
    | panic text =>
      cases got
      exact .falters (ih below)
    | value a =>
      dsimp only at got
      split at got
      · cases got
        exact .falters (ih below)
      · cases got
        exact .passes (ih below)
  | synchronized inner ih =>
    -- a poisoned lock is entered as any other, so that nothing depends on it
    rcases state with ⟨lock, state⟩
    rcases below : (inner.supplier clock leaf).get state e with ⟨o, after', later'⟩
    cases (guarded_get below).symm.trans got
    exact .synchronized (ih below)
  | expiring duration inner ih =>
    -- a fresh value is given at once; otherwise the layer below decides
    rcases state with ⟨slot, state⟩
    cases fresh : fresh? slot (clock e) with
    | some a =>
      cases (get_of_fresh fresh).symm.trans got
      exact .remembers fresh
    | none =>
      rcases below : (inner.supplier clock leaf).get state e with ⟨o, after', later'⟩
      cases o with
      | value a =>
        cases (get_of_value fresh below).symm.trans got
        exact .renews fresh (ih below)
      | panic text =>
        cases (get_of_panic fresh below).symm.trans got
        exact .fails fresh (ih below)

/-! ## Calls of the base -/

/-- The state of the supplier at the base. -/
def bottom (clock : Environment → Nat) (leaf : Supplier α) {β : Type} :
    (c : Chain α β) → (c.supplier clock leaf).State → leaf.State
  | base => fun state => state
  | compose _ inner => fun state => inner.bottom clock leaf state
  | faltering _ _ inner => fun state => inner.bottom clock leaf state.2
  | synchronized inner => fun state => inner.bottom clock leaf state.2
  | expiring _ inner => fun state => inner.bottom clock leaf state.2

theorem bottom_initial (c : Chain α β) :
    c.bottom clock leaf (c.supplier clock leaf).initial = leaf.initial := by
  induction c with
  | base => rfl
  | compose f inner ih => exact ih
  | faltering initial panics inner ih => exact ih
  | synchronized inner ih => exact ih
  | expiring duration inner ih => exact ih

/-- A get calls the base once, or leaves it and the environment as they are. -/
theorem Gets.bottom {c : Chain α β} {state after : (c.supplier clock leaf).State}
    {e later : Environment} {outcome : Outcome β}
    (got : Gets clock leaf c state e outcome after later) :
    (c.bottom clock leaf after = c.bottom clock leaf state ∧ later = e) ∨
      ∃ ending, leaf.get (c.bottom clock leaf state) e =
        (ending, c.bottom clock leaf after, later) := by
  induction got with
  | base called => exact .inr ⟨_, called⟩
  | compose got ih => exact ih
  | passes got ih => exact ih
  | falters got ih => exact ih
  | synchronized got ih => exact ih
  | remembers fresh => exact .inl ⟨rfl, rfl⟩
  | renews stale got ih => exact ih
  | fails stale got ih => exact ih

/-! ## Deadlines -/

/-- Whatever is remembered has a deadline that the clock can show. A value without one is never
given up, so if every deadline can be shown in the end, every one that was ever computed could. -/
def Shown (clock : Environment → Nat) (leaf : Supplier α) {β : Type} :
    (c : Chain α β) → (c.supplier clock leaf).State → Prop
  | base => fun _ => True
  | compose _ inner => fun state => inner.Shown clock leaf state
  | faltering _ _ inner => fun state => inner.Shown clock leaf state.2
  | synchronized inner => fun state => inner.Shown clock leaf state.2
  | expiring _ inner => fun state =>
    (∀ cached, state.1 = some cached → cached.expiresAt ≠ none) ∧ inner.Shown clock leaf state.2

theorem expiresAt_ne_none_of_stale {slot : Option (Cached β)} {now : Nat}
    (stale : fresh? slot now = none) {cached : Cached β} (h : slot = some cached) :
    cached.expiresAt ≠ none := by
  intro unseen
  simp [fresh?, h, Cached.isFresh, unseen] at stale

theorem exists_of_fresh {slot : Option (Cached β)} {now : Nat} {b : β}
    (fresh : fresh? slot now = some b) : ∃ cached, slot = some cached ∧ cached.value = b ∧
      ∀ deadline, cached.expiresAt = some deadline → now < deadline := by
  cases slot with
  | none => simp [fresh?] at fresh
  | some cached =>
    simp only [fresh?, Option.ite_none_right_eq_some, Option.some.injEq] at fresh
    refine ⟨cached, rfl, fresh.2, ?_⟩
    intro deadline ends
    simpa [Cached.isFresh, ends] using fresh.1

theorem eq_of_deadline? {now duration deadline : Nat} (h : deadline? now duration = some deadline) :
    deadline = now + duration := by
  simp only [deadline?, Option.ite_none_right_eq_some, Option.some.injEq] at h
  exact h.2.symm

/-- What can be shown after a get could be shown before. -/
theorem Gets.shown {c : Chain α β} {state after : (c.supplier clock leaf).State}
    {e later : Environment} {outcome : Outcome β}
    (got : Gets clock leaf c state e outcome after later) (shown : c.Shown clock leaf after) :
    c.Shown clock leaf state := by
  induction got with
  | base called => exact trivial
  | compose got ih => exact ih shown
  | passes got ih => exact ih shown
  | falters got ih => exact ih shown
  | synchronized got ih => exact ih shown
  | remembers fresh => exact shown
  | renews stale got ih => exact ⟨fun _ => expiresAt_ne_none_of_stale stale, ih shown.2⟩
  | fails stale got ih => exact ⟨fun _ => expiresAt_ne_none_of_stale stale, ih shown.2⟩

/-! ## Ages -/

/-- A call of the base gave a value from which the functions of the chain make `b`. -/
def Source (c : Chain α β) (calls : List (Call α)) (b : β) (call : Call α) : Prop :=
  call ∈ calls ∧ ∃ a, call.outcome = .value a ∧ c.apply a = .value b

/-- Whatever is remembered comes from a call that ended before the deadline, at most for the time
of this layer and all below it. -/
def Aged (clock : Environment → Nat) (leaf : Supplier α) (calls : List (Call α)) {β : Type} :
    (c : Chain α β) → (c.supplier clock leaf).State → Prop
  | base => fun _ => True
  | compose _ inner => fun state => inner.Aged clock leaf calls state
  | faltering _ _ inner => fun state => inner.Aged clock leaf calls state.2
  | synchronized inner => fun state => inner.Aged clock leaf calls state.2
  | expiring duration inner => fun state =>
    (∀ cached deadline, state.1 = some cached → cached.expiresAt = some deadline →
      ∃ call, inner.Source calls cached.value call ∧
        deadline ≤ clock call.after + (duration + inner.durations.sum)) ∧
      inner.Aged clock leaf calls state.2

/-- At first nothing is remembered. -/
theorem aged_initial (c : Chain α β) (calls : List (Call α)) :
    c.Aged clock leaf calls (c.supplier clock leaf).initial := by
  induction c with
  | base => exact trivial
  | compose f inner ih => exact ih
  | faltering initial panics inner ih => exact ih
  | synchronized inner ih => exact ih
  | expiring duration inner ih => exact ⟨nofun, ih⟩

theorem Source.mono {c : Chain α β} {calls more : List (Call α)} {b : β} {call : Call α}
    (h : c.Source calls b call) (sub : calls ⊆ more) : c.Source more b call :=
  ⟨sub h.1, h.2⟩

theorem Aged.mono {calls more : List (Call α)} (sub : calls ⊆ more) {c : Chain α β}
    {state : (c.supplier clock leaf).State} (h : c.Aged clock leaf calls state) :
    c.Aged clock leaf more state := by
  induction c with
  | base => exact trivial
  | compose f inner ih => exact ih h
  | faltering initial panics inner ih => exact ih h
  | synchronized inner ih => exact ih h
  | expiring duration inner ih =>
    refine ⟨?_, ih h.2⟩
    intro cached deadline stored ends
    rcases h.1 cached deadline stored ends with ⟨call, source, le⟩
    exact ⟨call, source.mono sub, le⟩

/-- The calls of the base so far, the latest one last. -/
def calls (c : Chain α β) (state : (c.supplier clock leaf.recorded).State) : List (Call α) :=
  (c.bottom clock leaf.recorded state).2

theorem recorded_of_get {before after : leaf.recorded.State} {e later : Environment}
    {outcome : Outcome α} (called : leaf.recorded.get before e = (outcome, after, later)) :
    leaf.get before.1 e = (outcome, after.1, later) ∧ after.2 = before.2 ++ [⟨outcome, later⟩] := by
  rcases below : leaf.get before.1 e with ⟨ending, after', later'⟩
  cases (recorded_get below).symm.trans called
  exact ⟨rfl, rfl⟩

/-- No get takes a call off the record. -/
theorem Gets.calls_subset {c : Chain α β} {state after : (c.supplier clock leaf.recorded).State}
    {e later : Environment} {outcome : Outcome β}
    (got : Gets clock leaf.recorded c state e outcome after later) :
    c.calls state ⊆ c.calls after := by
  unfold calls
  rcases got.bottom with ⟨same, rfl⟩ | ⟨ending, called⟩
  · rw [same]
    exact fun _ h => h
  · rw [(recorded_of_get called).2]
    exact List.subset_append_left _ _

/-- The value `b` that is given at `reading` comes from a call that ended at most for all durations
of the chain before, and for less if there is a duration. -/
def Recent (clock : Environment → Nat) (c : Chain α β) (calls : List (Call α)) (reading : Nat)
    (b : β) : Prop :=
  ∃ call, c.Source calls b call ∧ reading ≤ clock call.after + c.durations.sum ∧
    (c.durations ≠ [] → reading < clock call.after + c.durations.sum)

/-- A get keeps the bounds on the ages at the deadlines, and gives no value that is older. -/
theorem Gets.aged {c : Chain α β} {state after : (c.supplier clock leaf.recorded).State}
    {e later : Environment} {outcome : Outcome β}
    (got : Gets clock leaf.recorded c state e outcome after later)
    (positive : ∀ d ∈ c.durations, 0 < d) (shown : c.Shown clock leaf.recorded after)
    (aged : c.Aged clock leaf.recorded (c.calls state) state) :
    c.Aged clock leaf.recorded (c.calls after) after ∧
      ∀ b, outcome = .value b → c.Recent clock (c.calls after) (clock later) b := by
  induction got with
  | @base state after e later outcome called =>
    refine ⟨trivial, ?_⟩
    rintro b rfl
    have last : (⟨.value b, later⟩ : Call α) ∈ after.2 := by
      rw [(recorded_of_get called).2]
      exact List.mem_append_right _ (List.mem_singleton.mpr rfl)
    exact ⟨_, ⟨last, b, rfl, rfl⟩, Nat.le_refl _, fun some => absurd rfl some⟩
  | @compose _ _ f inner _ _ _ _ outcome got ih =>
    rcases ih positive shown aged with ⟨aged', recent⟩
    refine ⟨aged', ?_⟩
    intro b given
    cases outcome with
    | panic text => cases given
    | value m =>
      rcases recent m rfl with ⟨call, ⟨found, a, gave, applied⟩, young⟩
      have made : (Chain.compose f inner).apply a = .value b := by
        show (inner.apply a).andThen f = .value b
        rw [applied]
        exact given
      exact ⟨call, ⟨found, a, gave, made⟩, young⟩
  | passes got ih => exact ih positive shown aged
  | falters got ih => exact ⟨(ih positive shown aged).1, nofun⟩
  | synchronized got ih => exact ih positive shown aged
  | @remembers _ duration inner slot state e a fresh =>
    -- a fresh value is given before its deadline, so it is younger than the deadline allows
    refine ⟨aged, ?_⟩
    rintro b ⟨⟩
    rcases exists_of_fresh fresh with ⟨cached, stored, rfl, early⟩
    cases ends : cached.expiresAt with
    | none => exact absurd ends (shown.1 cached stored)
    | some deadline =>
      rcases aged.1 cached deadline stored ends with ⟨call, source, le⟩
      have young : clock e < clock call.after + (duration + inner.durations.sum) :=
        Nat.lt_of_lt_of_le (early deadline ends) le
      exact ⟨call, source, Nat.le_of_lt young, fun _ => young⟩
  | @renews _ duration inner slot state after e later a stale got ih =>
    -- the value may be as old as the layers below allow, and the deadline is set from now on
    rcases List.forall_mem_cons.mp positive with ⟨first, others⟩
    rcases ih others shown.2 aged.2 with ⟨aged', recent⟩
    rcases recent a rfl with ⟨call, source, young, -⟩
    refine ⟨⟨?_, aged'⟩, ?_⟩
    · rintro cached deadline ⟨⟩ ends
      refine ⟨call, source, ?_⟩
      rw [eq_of_deadline? ends]
      omega
    · rintro b ⟨⟩
      have young' : clock later < clock call.after + (duration + inner.durations.sum) := by
        omega
      exact ⟨call, source, Nat.le_of_lt young', fun _ => young'⟩
  | fails stale got ih =>
    -- the slot keeps its value, and no call is taken off the record
    rcases List.forall_mem_cons.mp positive with ⟨first, others⟩
    refine ⟨⟨?_, (ih others shown.2 aged.2).1⟩, nofun⟩
    intro cached deadline stored ends
    rcases aged.1 cached deadline stored ends with ⟨call, source, le⟩
    exact ⟨call, source.mono got.calls_subset, le⟩

end Chain

/-! ## Runs on record -/

/-- A chain about to run: the clock it reads, what is built around what, and the environment in
which it begins. -/
structure ChainRun (α β : Type) where
  clock : Environment → Nat
  chain : Chain α β
  leaf : Supplier α
  start : Environment

namespace ChainRun

/-- The supplier of the chain, with a record of the calls of its base. -/
def watched (r : ChainRun α β) : Supplier β :=
  r.chain.supplier r.clock r.leaf.recorded

/-- What some moments leave behind. -/
def left (r : ChainRun α β) (moments : List Moment) : r.watched.State × Environment :=
  r.watched.reached r.watched.initial r.start moments

/-- The calls of the base so far, the latest one last. -/
def calls (r : ChainRun α β) (moments : List Moment) : List (Call α) :=
  r.chain.calls (r.left moments).1

/-- The environment. -/
def env (r : ChainRun α β) (moments : List Moment) : Environment :=
  (r.left moments).2

/-- How a get ends after some moments. -/
def answer (r : ChainRun α β) (moments : List Moment) : Outcome β :=
  (r.watched.get (r.left moments).1 (r.left moments).2).1

/-- Every deadline that was computed can be shown by the clock. -/
def Shown (r : ChainRun α β) (moments : List Moment) : Prop :=
  r.chain.Shown r.clock r.leaf.recorded (r.left moments).1

variable {r : ChainRun α β}

/-- What holds of a chain in a run: its base is as a run of its own leaves it, no call on the record
ended later than now, and what is remembered is no older than it may be. -/
structure Sound (r : ChainRun α β) (state : r.watched.State) (e : Environment) : Prop where
  own_run : ∃ own, r.leaf.reached r.leaf.initial r.start own =
    ((r.chain.bottom r.clock r.leaf.recorded state).1, e)
  ended : ∀ call ∈ r.chain.calls state, r.clock call.after ≤ r.clock e
  aged : r.chain.Shown r.clock r.leaf.recorded state →
    r.chain.Aged r.clock r.leaf.recorded (r.chain.calls state) state

theorem sound_initial (r : ChainRun α β) : Sound r r.watched.initial r.start := by
  have bottom : r.chain.bottom r.clock r.leaf.recorded r.watched.initial =
      r.leaf.recorded.initial := Chain.bottom_initial r.chain
  constructor
  · exact ⟨[], by rw [bottom]; rfl⟩
  · intro call found
    unfold Chain.calls at found
    rw [bottom] at found
    cases found
  · intro shown
    exact Chain.aged_initial r.chain _

/-- Every get keeps all this. -/
theorem Sound.get (neverBack : NeverBack r.clock r.leaf r.start)
    (positive : ∀ d ∈ r.chain.durations, 0 < d) {state after : r.watched.State}
    {e later : Environment} {outcome : Outcome β} (h : Sound r state e)
    (got : r.watched.get state e = (outcome, after, later)) : Sound r after later := by
  have gets : Chain.Gets r.clock r.leaf.recorded r.chain state e outcome after later :=
    Chain.gets_of_get got
  have aged : r.chain.Shown r.clock r.leaf.recorded after →
      r.chain.Aged r.clock r.leaf.recorded (r.chain.calls after) after := by
    intro shown
    exact (gets.aged positive shown (h.aged (gets.shown shown))).1
  rcases gets.bottom with ⟨same, rfl⟩ | ⟨ending, called⟩
  · refine ⟨?_, ?_, aged⟩
    · rw [same]
      exact h.own_run
    · unfold Chain.calls
      rw [same]
      exact h.ended
  · -- the base was called: its own run goes on by a get, which moves the clock forward only
    rcases Chain.recorded_of_get called with ⟨below, grown⟩
    rcases h.own_run with ⟨own, reached⟩
    have next := reached_get reached below
    have onward := neverBack own .get
    rw [next, reached] at onward
    refine ⟨⟨own ++ [.get], next⟩, ?_, aged⟩
    intro call found
    unfold Chain.calls at found
    rw [grown] at found
    rcases List.mem_append.mp found with old | new
    · exact Nat.le_trans (h.ended call old) onward
    · rcases List.mem_singleton.mp new with rfl
      exact Nat.le_refl _

/-- So does the passing of time. -/
theorem Sound.advance (neverBack : NeverBack r.clock r.leaf r.start) {state : r.watched.State}
    {e : Environment} (h : Sound r state e) (nanoseconds : Nat) :
    Sound r state (e.advance nanoseconds) := by
  rcases h.own_run with ⟨own, reached⟩
  have next := reached_advance reached nanoseconds
  have onward := neverBack own (.advance nanoseconds)
  rw [next, reached] at onward
  exact ⟨⟨_, next⟩, fun call found => Nat.le_trans (h.ended call found) onward, h.aged⟩

theorem sound_left (neverBack : NeverBack r.clock r.leaf r.start)
    (positive : ∀ d ∈ r.chain.durations, 0 < d) (moments : List Moment) :
    Sound r (r.left moments).1 (r.left moments).2 :=
  reached_induction (s := r.watched) (P := Sound r) (fun h => h.get neverBack positive rfl)
    (fun nanoseconds h => h.advance neverBack nanoseconds) (sound_initial r) moments

/-- That ages add up in a chain, said of all its runs. -/
structure AgesAddUp (r : ChainRun α β) : Prop where
  /-- There is such a supplier. Whether the calls of its base are recorded cannot be seen. -/
  built : ∃ s, r.chain.build r.clock r.leaf = .ok s ∧
    ∀ moments, s.run s.initial r.start moments = r.watched.run r.watched.initial r.start moments
  /-- A get ends in this way in a run, and leaves this environment behind. -/
  run_get : ∀ moments, r.watched.run r.watched.initial r.start (moments ++ [.get]) =
    r.watched.run r.watched.initial r.start moments ++
      [(.one (r.answer moments), r.env (moments ++ [.get]))]
  /-- The value of a get is what the functions make of a value of the base, and from the end of the
  call that gave this to the end of the get less time has passed than all durations together. -/
  young : ∀ moments b, r.Shown (moments ++ [.get]) → r.answer moments = .value b →
    ∃ call a, call ∈ r.calls (moments ++ [.get]) ∧ call.outcome = .value a ∧
      r.chain.apply a = .value b ∧ r.clock call.after ≤ r.clock (r.env (moments ++ [.get])) ∧
      r.clock (r.env (moments ++ [.get])) - r.clock call.after < r.chain.durations.sum

/-- Ages add up in every chain that remembers anything: whatever panics, and whatever moves the
clock at the base, a value is younger than all durations together. -/
theorem ages_add_up (r : ChainRun α β) (positive : ∀ d ∈ r.chain.durations, 0 < d)
    (remembers : r.chain.durations ≠ []) (neverBack : NeverBack r.clock r.leaf r.start) :
    r.AgesAddUp := by
  constructor
  case built =>
    refine ⟨r.chain.supplier r.clock r.leaf, r.chain.build_eq positive, ?_⟩
    have same : ∃ R, Simulation (r.chain.supplier r.clock r.leaf)
        (r.chain.supplier r.clock r.leaf.recorded) R ∧ R _ _ r.start :=
      r.chain.exists_simulation (Simulation.recorded r.leaf) rfl
    rcases same with ⟨R, sim, start⟩
    exact sim.run_eq start
  case run_get =>
    intro moments
    unfold env left
    rw [run_append, reached_append]
    rfl
  case young =>
    intro moments b shown given
    have sound := sound_left neverBack positive moments
    rcases got : r.watched.get (r.left moments).1 (r.left moments).2 with ⟨outcome, after, later⟩
    have behind : r.left (moments ++ [.get]) = (after, later) := reached_get rfl got
    have answered : r.answer moments = outcome := congrArg Prod.fst got
    have gets : Chain.Gets r.clock r.leaf.recorded r.chain _ _ outcome after later :=
      Chain.gets_of_get got
    unfold Shown at shown
    rw [answered] at given
    unfold calls env
    rw [behind] at shown ⊢
    have aged := sound.aged (gets.shown shown)
    rcases (gets.aged positive shown aged).2 b given with
      ⟨call, ⟨found, a, gave, applied⟩, -, young⟩
    have ended := (sound.get neverBack positive got).ended call found
    have less := young remembers
    exact ⟨call, a, found, gave, applied, ended, by dsimp only; omega⟩

end ChainRun

/-- Two layers that remember, for five nanoseconds outside and for ten inside, and between them a
lock around a function that panics at its second call, which leaves the lock poisoned. -/
def twoLayers : ChainRun Nat Nat :=
  ⟨sharedClock,
    .expiring 5 (.synchronized (.compose (fun n => .value (n + 1))
      (.faltering 0 (fun n _ => (if n = 1 then some "not now" else none, n + 1))
        (.expiring 10 .base)))),
    script ⟨2, .value 7⟩ [⟨0, .panic "out"⟩], .initial⟩

/-- A value can grow older than either layer lets it. -/
theorem ages_add_up_of_two_layers :
    (∀ d ∈ twoLayers.chain.durations, 0 < d) ∧ twoLayers.chain.durations ≠ [] ∧
      NeverBack twoLayers.clock twoLayers.leaf twoLayers.start ∧ twoLayers.AgesAddUp ∧
      twoLayers.answer [.get, .advance 8] = .panic "not now" ∧
      twoLayers.answer [.get, .advance 8, .get, .advance 1, .get, .advance 4] = .value 8 ∧
      twoLayers.Shown [.get, .advance 8, .get, .advance 1, .get, .advance 4, .get] ∧
      twoLayers.calls [.get, .advance 8, .get, .advance 1, .get, .advance 4, .get] =
        [⟨.value 7, ⟨2, 1⟩⟩] ∧
      twoLayers.env [.get, .advance 8, .get, .advance 1, .get, .advance 4, .get] = ⟨15, 1⟩ := by
  have positive : ∀ d ∈ twoLayers.chain.durations, 0 < d := by decide
  have remembers : twoLayers.chain.durations ≠ [] := by decide
  have neverBack : NeverBack twoLayers.clock twoLayers.leaf twoLayers.start :=
    neverBack_script _ _ _
  refine ⟨positive, remembers, neverBack, twoLayers.ages_add_up positive remembers neverBack,
    by decide, by decide, ⟨?_, ?_, trivial⟩, by decide, by decide⟩
  · rintro cached ⟨⟩
    nofun
  · rintro cached ⟨⟩
    nofun

end Groundwork.Supplier
