import Groundwork.Supplier.Crowd
import Groundwork.Proofs.Supplier.Runs

/-!
# Threads that share a supplier ask one after the other

The lock is kept while the supplier below is called, so whatever the threads do, their gets end as
gets one after the other would, in the order in which they end.

* `memoize_get_of_empty` and `memoize_get_of_held`: a get of a supplier that remembers.
* `Crowd.acts_of_act?`: everything that a deed can do.
* `Crowd.exists_serial`: in every run of threads they ask one after the other.
* `Crowd.accounted_of_acts?`: every get is answered once, or has the lock, or waits.
* `Crowd.exists_enter` and `Crowd.exists_finish`: the threads are never stuck.
-/

namespace Groundwork.Supplier

variable {α : Type} {s : Supplier α}

/-! ## A single get -/

/-- As long as nothing is remembered, a get is a call. -/
theorem memoize_get_of_empty {lock : Lock (Option α)} (empty : lock.content = none)
    {state after : s.State} {e later : Environment} {outcome : Outcome α}
    (called : s.get state e = (outcome, after, later)) :
    s.memoize.get (lock, state) e = (outcome, (settle lock outcome, after), later) := by
  simp only [memoize, Lock.regardless_enter]
  rw [empty, called]

/-- What is remembered is given, and nothing else happens. -/
theorem memoize_get_of_held {lock : Lock (Option α)} {a : α} (held : lock.content = some a)
    (state : s.State) (e : Environment) :
    s.memoize.get (lock, state) e = (.value a, (lock, state), e) := by
  simp only [memoize, Lock.regardless_enter]
  rw [held]

namespace Crowd

/-! ## A single deed -/

/-- What a deed can do, and when. -/
inductive Acts (c : Crowd s) : Deed → Crowd s → Prop
  | asks {thread : Nat} (idle : thread ∉ c.inside.toList ++ c.waiting) :
      Acts c (.ask thread) { c with waiting := c.waiting ++ [thread] }
  /-- The thread finds a value inside and leaves at once. -/
  | leaves {thread : Nat} {a : α} (free : c.inside = none) (waits : thread ∈ c.waiting)
      (held : c.lock.content = some a) :
      Acts c (.enter thread)
        (answer { c with waiting := c.waiting.erase thread } thread (.value a))
  /-- The thread finds nothing, and keeps the lock. -/
  | stays {thread : Nat} (free : c.inside = none) (waits : thread ∈ c.waiting)
      (empty : c.lock.content = none) :
      Acts c (.enter thread)
        { c with waiting := c.waiting.erase thread, inside := some thread }
  | finishes {thread : Nat} {outcome : Outcome α} {after : s.State} {later : Environment}
      (inside : c.inside = some thread) (called : s.get c.below c.env = (outcome, after, later)) :
      Acts c .finish
        (answer { c with
          lock := settle c.lock outcome, inside := none, below := after, env := later }
          thread outcome)
  | advances (nanoseconds : Nat) :
      Acts c (.advance nanoseconds) { c with env := c.env.advance nanoseconds }

/-- A deed can do nothing else. -/
theorem acts_of_act? {c next : Crowd s} {deed : Deed} (h : c.act? deed = some next) :
    c.Acts deed next := by
  cases deed with
  | ask thread =>
    by_cases busy : thread ∈ c.inside.toList ++ c.waiting
    · rw [act?, if_pos busy] at h
      cases h
    · rw [act?, if_neg busy] at h
      cases h
      exact .asks busy
  | enter thread =>
    by_cases turn : c.inside = none ∧ thread ∈ c.waiting
    · rw [act?, if_pos turn, Lock.regardless_enter] at h
      rcases turn with ⟨free, waits⟩
      cases content : c.lock.content with
      | some a =>
        rw [content] at h
        cases h
        exact .leaves free waits content
      | none =>
        rw [content] at h
        cases h
        exact .stays free waits content
    · rw [act?, if_neg turn] at h
      cases h
  | finish =>
    rw [act?] at h
    rcases Option.map_eq_some_iff.mp h with ⟨thread, inside, rfl⟩
    exact .finishes inside rfl
  | advance nanoseconds =>
    cases h
    exact .advances nanoseconds

/-- A thread that waits can be handed the lock whenever nobody has it, poisoned or not. -/
theorem exists_enter {c : Crowd s} (free : c.inside = none) {thread : Nat}
    (waits : thread ∈ c.waiting) : ∃ next, c.act? (.enter thread) = some next := by
  rw [act?, if_pos ⟨free, waits⟩, Lock.regardless_enter]
  cases c.lock.content with
  | some a => exact ⟨_, rfl⟩
  | none => exact ⟨_, rfl⟩

/-- Whoever has the lock hands it back when its call ends. -/
theorem exists_finish {c : Crowd s} {thread : Nat} (inside : c.inside = some thread) :
    ∃ next, c.act? .finish = some next ∧ next.inside = none := by
  rw [act?, inside]
  exact ⟨_, rfl, rfl⟩

/-! ## Runs -/

/-- What every deed preserves, a run of them preserves. -/
theorem acts?_induction {P : List Deed → Crowd s → Prop}
    (act : ∀ {deeds c deed next}, P deeds c → c.act? deed = some next → P (deeds ++ [deed]) next)
    (before : List Deed) {deeds : List Deed} {c last : Crowd s} (h : P before c)
    (ran : c.acts? deeds = some last) : P (before ++ deeds) last := by
  induction deeds generalizing before c with
  | nil =>
    cases ran
    rw [List.append_nil]
    exact h
  | cons deed more ih =>
    rcases Option.bind_eq_some_iff.mp ran with ⟨next, acted, ran'⟩
    have later := ih _ (act h acted) ran'
    rw [List.append_assoc] at later
    exact later

/-- The threads have done together what moments do one after the other: it left the same behind, and
the gets ended in the same way. While a thread has the lock there is nothing inside. -/
structure Serial (start : Environment) (c : Crowd s) (moments : List Moment) : Prop where
  reached : s.memoize.reached s.memoize.initial start moments = ((c.lock, c.below), c.env)
  answers : s.memoize.answers s.memoize.initial start moments = c.answered.map Prod.snd
  empty : c.inside ≠ none → c.lock.content = none

variable {start : Environment} {c next : Crowd s} {moments : List Moment} {deeds : List Deed}

/-- A get more, if that is what the threads have done. -/
theorem Serial.get (serial : c.Serial start moments) {thread : Nat} {outcome : Outcome α}
    (got : s.memoize.get (c.lock, c.below) c.env = (outcome, (next.lock, next.below), next.env))
    (answered : next.answered = c.answered ++ [(thread, outcome)]) (free : next.inside = none) :
    next.Serial start (moments ++ [.get]) := by
  constructor
  · exact reached_get serial.reached got
  · rw [answers_append, serial.reached, serial.answers, answered, List.map_append]
    show _ ++ [(s.memoize.get (c.lock, c.below) c.env).1] = _
    rw [got]
    rfl
  · intro inside
    exact absurd free inside

theorem Serial.act (serial : c.Serial start moments) {deed : Deed} (acts : c.Acts deed next) :
    ∃ more, next.Serial start (moments ++ more) := by
  cases acts with
  | asks idle =>
    refine ⟨[], ?_⟩
    rw [List.append_nil]
    exact ⟨serial.reached, serial.answers, serial.empty⟩
  | leaves free waits held => exact ⟨[.get], serial.get (memoize_get_of_held held _ _) rfl free⟩
  | stays free waits empty =>
    -- the get has begun; it counts when it ends
    refine ⟨[], ?_⟩
    rw [List.append_nil]
    exact ⟨serial.reached, serial.answers, fun _ => empty⟩
  | finishes inside called =>
    -- nobody else was inside since the thread looked
    have empty : c.lock.content = none := by
      refine serial.empty ?_
      rw [inside]
      exact Option.some_ne_none _
    exact ⟨[.get], serial.get (memoize_get_of_empty empty called) rfl rfl⟩
  | advances nanoseconds =>
    refine ⟨[.advance nanoseconds], reached_advance serial.reached nanoseconds, ?_, serial.empty⟩
    rw [answers_append, serial.answers]
    exact List.append_nil _

/-- Whatever threads do together, they could do one after the other. -/
theorem exists_serial (ran : (gathered s start).acts? deeds = some c) :
    ∃ moments, c.Serial start moments := by
  refine acts?_induction (P := fun _ c => ∃ moments, c.Serial start moments) ?_ []
    ⟨[], rfl, rfl, fun inside => absurd rfl inside⟩ ran
  rintro deeds c deed next ⟨moments, serial⟩ acted
  rcases serial.act (acts_of_act? acted) with ⟨more, serial'⟩
  exact ⟨moments ++ more, serial'⟩

/-- Every thread that has asked is answered, or has the lock, or waits, and nobody else. -/
def Accounted (asked : List Nat) (c : Crowd s) : Prop :=
  asked.Perm (c.answered.map Prod.fst ++ (c.inside.toList ++ c.waiting))

theorem Accounted.act {asked : List Nat} {deed : Deed} (h : c.Accounted asked)
    (acts : c.Acts deed next) : next.Accounted (asked ++ deed.asking) := by
  unfold Accounted at h ⊢
  cases acts with
  | @asks thread idle =>
    have more := h.append_right [thread]
    rw [List.append_assoc, List.append_assoc] at more
    exact more
  | @leaves thread a free waits held =>
    rw [free] at h ⊢
    have first : c.waiting.Perm ([thread] ++ c.waiting.erase thread) := List.perm_cons_erase waits
    have moved := h.trans (first.append_left _)
    rw [← List.append_assoc] at moved
    simpa [Deed.asking, answer] using moved
  | @stays thread free waits empty =>
    rw [free] at h
    simpa [Deed.asking] using h.trans ((List.perm_cons_erase waits).append_left _)
  | finishes inside called =>
    rw [inside] at h
    simpa [Deed.asking, answer] using h
  | advances nanoseconds =>
    rw [Deed.asking, List.append_nil]
    exact h

/-- In every run of threads each get is answered once, or is still to be answered. -/
theorem accounted_of_acts? (ran : (gathered s start).acts? deeds = some c) :
    c.Accounted (deeds.flatMap Deed.asking) := by
  have nobody : (gathered s start).Accounted [] := .refl []
  refine acts?_induction (P := fun deeds c => c.Accounted (deeds.flatMap Deed.asking)) ?_
    [] nobody ran
  intro deeds c deed next h acted
  rw [List.flatMap_append, List.flatMap_singleton]
  exact h.act (acts_of_act? acted)

end Crowd

end Groundwork.Supplier
