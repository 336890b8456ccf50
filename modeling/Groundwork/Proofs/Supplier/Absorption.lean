import Groundwork.Supplier.Layers
import Groundwork.Proofs.Supplier.Expiry
import Groundwork.Proofs.Supplier.Once

/-!
# Remembering absorbs other layers

A supplier that remembers its first value for good is not changed by layers that remember or lock,
neither outside nor inside. It cannot be told from the stack by anything that a run shows, and the
supplier at the bottom is called as often.

* `UntilValue`: layers inside. As long as they have not given a value they are not to be seen, and
  later nobody asks them.
* `Absorbed`: layers around. What they remember is what is remembered inside.
* `exists_untilValue`, `absorbed_stack`: both for any number of layers, from one lemma for each.
* `LikeMemoized` is what this means for runs, and `memoize_absorbs` is all of it.
-/

namespace Groundwork.Supplier

variable {α : Type} {s t : Supplier α} {clock : Environment → Nat} {duration : Nat}

/-! ## Single gets -/

/-- A lock around every call is not to be seen when calls come one after the other. -/
theorem Simulation.guarded_synchronized (s : Supplier α) :
    Simulation s.guarded s.synchronized fun state state' _ => state.2 = state' where
  get := by
    rintro ⟨lock, state⟩ _ e rfl
    exact ⟨rfl, rfl, rfl⟩
  advance := by
    intro state state' e nanoseconds same
    exact same

/-- After a get that gave a value, this value is remembered. -/
theorem content_of_value {state after : s.memoize.State} {e later : Environment} {a : α}
    (got : s.memoize.get state e = (.value a, after, later)) : after.1.content = some a := by
  rcases state with ⟨lock, state⟩
  cases content : lock.content with
  | some b =>
    rw [memoize_get_of_held content] at got
    cases got
    exact content
  | none =>
    rcases called : s.get state e with ⟨outcome, below, env⟩
    rw [memoize_get_of_empty content called] at got
    cases got
    rfl

/-- Before a get that panicked, nothing was remembered. -/
theorem content_of_panic {state after : s.memoize.State} {e later : Environment} {text : String}
    (got : s.memoize.get state e = (.panic text, after, later)) : state.1.content = none := by
  rcases state with ⟨lock, state⟩
  cases content : lock.content with
  | some b =>
    rw [memoize_get_of_held content] at got
    cases got
  | none => rfl

theorem map_value_of_fresh? {slot : Option (Cached α)} {now : Nat} {a : α}
    (fresh : fresh? slot now = some a) : slot.map Cached.value = some a := by
  cases slot with
  | none => cases fresh
  | some c =>
    simp only [fresh?] at fresh
    split at fresh
    · exact fresh
    · cases fresh

/-! ## Layers inside -/

/-- As long as a supplier is `Empty` its calls end as those of the supplier below it, and only a
value ends this. -/
structure UntilValue (s t : Supplier α) (below : t.State → s.State) (Empty : t.State → Prop) :
    Prop where
  empty : Empty t.initial
  initial : below t.initial = s.initial
  get : ∀ {state e outcome after later}, Empty state → t.get state e = (outcome, after, later) →
    s.get (below state) e = (outcome, below after, later) ∧
      ∀ text, outcome = .panic text → Empty after

namespace UntilValue

variable {below : t.State → s.State} {Empty : t.State → Prop}

theorem self (s : Supplier α) : UntilValue s s id fun _ => True where
  empty := trivial
  initial := rfl
  get := fun _ called => ⟨called, fun _ _ => trivial⟩

theorem synchronized (h : UntilValue s t below Empty) :
    UntilValue s t.synchronized below Empty :=
  ⟨h.empty, h.initial, h.get⟩

theorem guarded (h : UntilValue s t below Empty) :
    UntilValue s t.guarded (fun state => below state.2) (fun state => Empty state.2) where
  empty := h.empty
  initial := h.initial
  get := by
    rintro ⟨lock, state⟩ e outcome after later empty got
    rcases called : t.get state e with ⟨ends, inside, env⟩
    rw [guarded_get called] at got
    cases got
    exact h.get empty called

theorem memoize (h : UntilValue s t below Empty) :
    UntilValue s t.memoize (fun state => below state.2)
      (fun state => state.1.content = none ∧ Empty state.2) where
  empty := ⟨rfl, h.empty⟩
  initial := h.initial
  get := by
    rintro ⟨lock, state⟩ e outcome after later ⟨nothing, empty⟩ got
    rcases called : t.get state e with ⟨ends, inside, env⟩
    rw [memoize_get_of_empty nothing called] at got
    cases got
    rcases h.get empty called with ⟨same, stays⟩
    refine ⟨same, ?_⟩
    rintro text rfl
    exact ⟨nothing, stays text rfl⟩

theorem remembering (h : UntilValue s t below Empty) :
    UntilValue s (t.remembering clock duration) (fun state => below state.2)
      (fun state => state.1 = none ∧ Empty state.2) where
  empty := ⟨rfl, h.empty⟩
  initial := h.initial
  get := by
    rintro ⟨slot, state⟩ e outcome after later ⟨nothing, empty⟩ got
    rcases called : t.get state e with ⟨ends, inside, env⟩
    rcases h.get empty called with ⟨same, stays⟩
    dsimp only at nothing
    have stale : fresh? slot (clock e) = none := by
      rw [nothing]
      rfl
    cases ends with
    | value a =>
      rw [get_of_value stale called] at got
      cases got
      refine ⟨same, ?_⟩
      intro text panics
      cases panics
    | panic text =>
      rw [get_of_panic stale called] at got
      cases got
      exact ⟨same, fun _ _ => ⟨nothing, stays text rfl⟩⟩

end UntilValue

/-! ## Layers around -/

/-- A supplier cannot be told from the one that remembers the first value of `s`, and what is at the
bottom of it is what is below the latter. -/
def Absorbed (s t : Supplier α) (below : t.State → s.State) : Prop :=
  ∃ R, Simulation t s.memoize R ∧ (∀ e, R t.initial s.memoize.initial e) ∧
    ∀ {state state' e}, R state state' e → below state = state'.2

/-- Whatever a layer remembers is remembered inside as well. -/
def Behind {σ : Type} (remembered : σ → Option α)
    (R : t.State → s.memoize.State → Environment → Prop) (state : σ × t.State)
    (state' : s.memoize.State) (e : Environment) : Prop :=
  R state.2 state' e ∧ ∀ a, remembered state.1 = some a → state'.1.content = some a

namespace Behind

variable {σ : Type} {remembered : σ → Option α} {R : t.State → s.memoize.State → Environment → Prop}
  {own : σ} {state : t.State} {state' : s.memoize.State} {e : Environment}

theorem of_nothing (related : R state state' e) (nothing : remembered own = none) :
    Behind remembered R (own, state) state' e := by
  refine ⟨related, ?_⟩
  intro a here
  cases nothing.symm.trans here

theorem of_value (related : R state state' e) {a : α} (outside : remembered own = some a)
    (inside : state'.1.content = some a) : Behind remembered R (own, state) state' e := by
  refine ⟨related, ?_⟩
  intro b here
  rw [← outside.symm.trans here]
  exact inside

end Behind

/-- The same is remembered above the layers as without them, and they are empty as long as it is
nothing. -/
def Beneath (below : t.State → s.State) (Empty : t.State → Prop) (state : t.memoize.State)
    (state' : s.memoize.State) (_ : Environment) : Prop :=
  state.1 = state'.1 ∧ below state.2 = state'.2 ∧ (state.1.content = none → Empty state.2)

/-- Layers inside are absorbed. -/
theorem UntilValue.absorbed {below : t.State → s.State} {Empty : t.State → Prop}
    (h : UntilValue s t below Empty) : Absorbed s t.memoize fun state => below state.2 := by
  refine ⟨Beneath below Empty, ⟨?_, ?_⟩, ?_, ?_⟩
  · rintro ⟨lock, state⟩ ⟨lock', inside⟩ e ⟨same, here, empty⟩
    dsimp only at same here empty
    subst same here
    cases content : lock.content with
    | some a =>
      -- nobody asks the layers any more, so it does not matter what they would do
      exact Simulation.alike (memoize_get_of_held content _ _) (memoize_get_of_held content _ _)
        ⟨rfl, rfl, empty⟩
    | none =>
      rcases called : t.get state e with ⟨outcome, after, later⟩
      rcases h.get (empty content) called with ⟨same, stays⟩
      refine Simulation.alike (memoize_get_of_empty content called)
        (memoize_get_of_empty content same) ⟨rfl, rfl, ?_⟩
      intro nothing
      cases outcome with
      | value a => cases nothing
      | panic text => exact stays text rfl
  · intro state state' e nanoseconds related
    exact related
  · intro e
    exact ⟨rfl, h.initial, fun _ => h.empty⟩
  · rintro state state' e ⟨-, same, -⟩
    exact same

namespace Absorbed

variable {below : t.State → s.State}

theorem synchronized (h : Absorbed s t below) : Absorbed s t.synchronized below := by
  rcases h with ⟨R, sim, initial, same⟩
  exact ⟨R, ⟨sim.get, sim.advance⟩, initial, same⟩

theorem guarded (h : Absorbed s t below) : Absorbed s t.guarded fun state => below state.2 := by
  rcases h with ⟨R, sim, initial, same⟩
  refine ⟨fun state state' e => R state.2 state' e, ⟨?_, ?_⟩, initial, same⟩
  · rintro ⟨lock, state⟩ state' e related
    exact sim.get related
  · intro state state' e nanoseconds related
    exact sim.advance nanoseconds related

theorem memoize (h : Absorbed s t below) : Absorbed s t.memoize fun state => below state.2 := by
  rcases h with ⟨R, sim, initial, same⟩
  refine ⟨Behind Lock.content R, ⟨?_, ?_⟩, fun e => .of_nothing (initial e) rfl, ?_⟩
  · rintro ⟨lock, state⟩ state' e ⟨related, behind⟩
    cases content : lock.content with
    | some a =>
      exact Simulation.alike (memoize_get_of_held content _ _)
        (memoize_get_of_held (behind a content) _ _) ⟨related, behind⟩
    | none =>
      rcases sim.exists_get related with ⟨outcome, after, after', later, called, got, related'⟩
      refine Simulation.alike (memoize_get_of_empty content called) got ?_
      cases outcome with
      | value a => exact .of_value related' rfl (content_of_value got)
      | panic text => exact .of_nothing related' content
  · rintro state state' e nanoseconds ⟨related, behind⟩
    exact ⟨sim.advance nanoseconds related, behind⟩
  · rintro state state' e ⟨related, -⟩
    exact same related

/-- A value that is stale outside is computed anew from what is remembered inside, which gives the
same one. -/
theorem remembering (h : Absorbed s t below) :
    Absorbed s (t.remembering clock duration) fun state => below state.2 := by
  rcases h with ⟨R, sim, initial, same⟩
  refine ⟨Behind (Option.map Cached.value) R, ⟨?_, ?_⟩, fun e => .of_nothing (initial e) rfl, ?_⟩
  · rintro ⟨slot, state⟩ state' e ⟨related, behind⟩
    cases fresh : fresh? slot (clock e) with
    | some a =>
      exact Simulation.alike (get_of_fresh fresh)
        (memoize_get_of_held (behind a (map_value_of_fresh? fresh)) _ _) ⟨related, behind⟩
    | none =>
      rcases sim.exists_get related with ⟨outcome, after, after', later, called, got, related'⟩
      cases outcome with
      | value a =>
        exact Simulation.alike (get_of_value fresh called) got
          (.of_value related' rfl (content_of_value got))
      | panic text =>
        -- a panic outside is one inside, so that there was nothing inside, and nothing outside
        refine Simulation.alike (get_of_panic fresh called) got ⟨related', ?_⟩
        intro a remembered
        cases (content_of_panic got).symm.trans (behind a remembered)
  · rintro state state' e nanoseconds ⟨related, behind⟩
    exact ⟨sim.advance nanoseconds related, behind⟩
  · rintro state state' e ⟨related, -⟩
    exact same related

end Absorbed

/-! ## Stacks -/

/-- No layers can be seen before there is a value. -/
theorem exists_untilValue (clock : Environment → Nat) (s : Supplier α) (layers : List Layer) :
    ∃ Empty, UntilValue s (stack clock s layers) (base clock s layers) Empty := by
  induction layers with
  | nil => exact ⟨_, .self s⟩
  | cons layer layers ih =>
    rcases ih with ⟨Empty, h⟩
    cases layer with
    | synchronized => exact ⟨_, h.synchronized⟩
    | guarded => exact ⟨_, h.guarded⟩
    | memoize => exact ⟨_, h.memoize⟩
    | expiring duration positive => exact ⟨_, h.remembering⟩

/-- A stack with a layer that remembers for good is like this layer alone. -/
theorem absorbed_stack (clock : Environment → Nat) (s : Supplier α) {layers : List Layer}
    (memoized : .memoize ∈ layers) :
    Absorbed s (stack clock s layers) (base clock s layers) := by
  induction layers with
  | nil => cases memoized
  | cons layer layers ih =>
    rcases List.mem_cons.mp memoized with rfl | later
    · -- the layers below this one are inside; of several such layers the outermost is enough
      rcases exists_untilValue clock s layers with ⟨Empty, h⟩
      exact h.absorbed
    · have h := ih later
      cases layer with
      | synchronized => exact h.synchronized
      | guarded => exact h.guarded
      | memoize => exact h.memoize
      | expiring duration positive => exact h.remembering

/-! ## Runs -/

/-- What is put around a supplier cannot be told, whatever happens, from remembering its first
value. -/
structure LikeMemoized (wrap : Supplier α → Supplier α)
    (bottom : (s : Supplier α) → (wrap s).State → s.State) (s : Supplier α) (start : Environment) :
    Prop where
  /-- Every get ends in the same way, and leaves the same environment behind. -/
  same_run : ∀ moments, (wrap s).run (wrap s).initial start moments =
    s.memoize.run s.memoize.initial start moments
  /-- The calls at the bottom are the same at every time, and so is their number. -/
  same_calls : ∀ moments, (bottom s.recorded
    ((wrap s.recorded).reached (wrap s.recorded).initial start moments).1).2 =
      (MemoRun.mk s start).calls moments
  /-- Whether they are recorded cannot be seen. -/
  unseen : ∀ moments, (wrap s.recorded).run (wrap s.recorded).initial start moments =
    (wrap s).run (wrap s).initial start moments

theorem likeMemoized {wrap : Supplier α → Supplier α}
    {bottom : (s : Supplier α) → (wrap s).State → s.State}
    (absorbed : ∀ s, Absorbed s (wrap s) (bottom s)) (s : Supplier α) (start : Environment) :
    LikeMemoized wrap bottom s start := by
  have same_run : ∀ (s : Supplier α) moments, (wrap s).run (wrap s).initial start moments =
      s.memoize.run s.memoize.initial start moments := by
    intro s moments
    rcases absorbed s with ⟨R, sim, initial, -⟩
    exact sim.run_eq (initial start) moments
  constructor
  · exact same_run s
  · intro moments
    rcases absorbed s.recorded with ⟨R, sim, initial, same⟩
    exact congrArg Prod.snd (same (sim.reached (initial start) moments).2)
  · intro moments
    rw [same_run, same_run]
    exact ((MemoRun.mk s start).computesOnce.unseen moments).symm

/-- What remembering the first value of a supplier for good absorbs. -/
structure Absorbs (clock : Environment → Nat) (duration : Nat) (s : Supplier α)
    (start : Environment) : Prop where
  /-- The duration is one that a supplier which remembers for a time can have. -/
  accepted : ∀ t : Supplier α, t.expiring clock duration = .ok (t.remembering clock duration)
  memoize_memoize : LikeMemoized (fun t => t.memoize.memoize) (fun _ state => state.2.2) s start
  memoize_synchronized :
    LikeMemoized (fun t => t.synchronized.memoize) (fun _ state => state.2) s start
  synchronized_memoize :
    LikeMemoized (fun t => t.memoize.synchronized) (fun _ state => state.2) s start
  memoize_expiring : LikeMemoized (fun t => (t.remembering clock duration).memoize)
    (fun _ state => state.2.2) s start
  expiring_memoize : LikeMemoized (fun t => t.memoize.remembering clock duration)
    (fun _ state => state.2.2) s start
  /-- The lock that a synchronized supplier has is not to be seen, and is absorbed as well. -/
  guarded_unseen : ∀ moments, s.guarded.run s.guarded.initial start moments =
    s.synchronized.run s.synchronized.initial start moments
  memoize_guarded : LikeMemoized (fun t => t.guarded.memoize) (fun _ state => state.2.2) s start
  guarded_memoize : LikeMemoized (fun t => t.memoize.guarded) (fun _ state => state.2.2) s start
  /-- Layers of all kinds, in any number and order, with one that remembers for good anywhere. -/
  every_stack : ∀ layers : List Layer, .memoize ∈ layers →
    LikeMemoized (fun t => stack clock t layers) (fun t => base clock t layers) s start

/-- Remembering for good absorbs every layer that remembers or locks, outside and inside, for every
supplier and every clock. -/
theorem memoize_absorbs (clock : Environment → Nat) {duration : Nat} (positive : 0 < duration)
    (s : Supplier α) (start : Environment) : Absorbs clock duration s start := by
  have every : ∀ layers : List Layer, .memoize ∈ layers →
      LikeMemoized (fun t => stack clock t layers) (fun t => base clock t layers) s start := by
    intro layers memoized
    exact likeMemoized (fun t => absorbed_stack clock t memoized) s start
  constructor
  case accepted =>
    intro t
    exact Layer.expiring_eq clock t positive
  case memoize_memoize => exact every [.memoize, .memoize] (by decide)
  case memoize_synchronized => exact every [.memoize, .synchronized] (by decide)
  case synchronized_memoize => exact every [.synchronized, .memoize] (by decide)
  case memoize_expiring => exact every [.memoize, .expiring duration positive] (by simp)
  case expiring_memoize => exact every [.expiring duration positive, .memoize] (by simp)
  case guarded_unseen => exact fun moments => (Simulation.guarded_synchronized s).run_eq rfl moments
  case memoize_guarded => exact every [.memoize, .guarded] (by decide)
  case guarded_memoize => exact every [.guarded, .memoize] (by decide)
  case every_stack => exact every

/-- A call that panics, one that succeeds, and one that would panic but is never made: the value
that was remembered for a time is stale by then, and the one inside is not. -/
theorem absorbs_of_stale :
    0 < 5 ∧ Absorbs sharedClock 5 (script ⟨3, .panic "early"⟩ [⟨4, .value 1⟩, ⟨0, .panic "late"⟩])
      .initial ∧
    (script ⟨3, .panic "early"⟩ [⟨4, .value 1⟩, ⟨0, .panic "late"⟩] |>.memoize.remembering
      sharedClock 5).trace [.get, .get, .advance 9, .get] =
        [(.one (.panic "early"), ⟨3, 1⟩), (.one (.value 1), ⟨7, 2⟩), (.nothing, ⟨16, 2⟩),
          (.one (.value 1), ⟨16, 2⟩)] := by
  have positive : 0 < 5 := by decide
  have absorbs := memoize_absorbs sharedClock positive
    (script ⟨3, .panic "early"⟩ [⟨4, .value 1⟩, ⟨0, .panic "late"⟩]) .initial
  refine ⟨positive, absorbs, ?_⟩
  exact (absorbs.expiring_memoize.same_run [.get, .get, .advance 9, .get]).trans rfl

end Groundwork.Supplier
