import Groundwork.Tower
import Groundwork.SortedMap.Forwarding
import Groundwork.Queue.Decorators
import Groundwork.Future.Forwarding
import Groundwork.Service.Forwarding

/-!
# Decorators are transparent

An operation that no decorator of a tower answers itself is answered by the delegate alone, whatever
the decorators do with other operations and however the delegate's own operations fit together.

* `decorator_eq`, for maps, queues, futures and services: every operation that a decorator does not
  answer itself reaches the operation of the same name of the delegate.
* `Tower.behaviour_of_leaves`: one operation of a tower. `Tower.run_of_leaves`: any number of them.
* `Transparent`: what is promised of decorators; `transparent_of_eq` tells when it holds.
* `decorators_transparent`: it holds of the decorators of maps, futures, queues and services.
-/

namespace Groundwork

variable {I : Interface} {σ τ : Type}

/-! ## Decorators -/

namespace Behaviour

/-- A decorator answers with the delegate's operation unless it has one itself. -/
theorem decorated_apply (delegate : Behaviour I σ) (own : Overrides I σ) (op : I.Op) :
    delegate.decorated own op = (own op).getD (delegate op) := by
  unfold decorated
  cases own op with
  | none => rfl
  | some answer => rfl

theorem decorated_of_none {delegate : Behaviour I σ} {own : Overrides I σ} {op : I.Op}
    (h : own op = none) : delegate.decorated own op = delegate op := by
  rw [decorated_apply, h]
  rfl

theorem decorated_of_some {delegate : Behaviour I σ} {own : Overrides I σ} {op : I.Op}
    {answer : σ → I.Answer op × σ} (h : own op = some answer) :
    delegate.decorated own op = answer := by
  rw [decorated_apply, h]
  rfl

/-- Operations after operations are answered in the state that those leave behind. -/
theorem run_append (b : Behaviour I σ) (ops more : List I.Op) (s : σ) :
    b.run (ops ++ more) s =
      ((b.run ops s).1 ++ (b.run more (b.run ops s).2).1, (b.run more (b.run ops s).2).2) := by
  induction ops generalizing s with
  | nil => rfl
  | cons op ops ih =>
    rw [List.cons_append, run, ih]
    rfl

end Behaviour

-- in each of the four the operations are told apart, because every one is forwarded by itself

theorem SortedMap.decorator_eq {κ ν : Type} (delegate : Behaviour (mapInterface κ ν) σ)
    (own : Overrides (mapInterface κ ν) σ) :
    SortedMap.decorator delegate own = delegate.decorated own := by
  funext op
  rw [Behaviour.decorated_apply]
  cases op <;> rfl

theorem Queue.decorator_eq {α : Type} (delegate : Behaviour (queueInterface α) σ)
    (own : Overrides (queueInterface α) σ) :
    Queue.decorator delegate own = delegate.decorated own := by
  funext op
  rw [Behaviour.decorated_apply]
  cases op <;> rfl

theorem Future.decorator_eq {α : Type} (delegate : Behaviour (futureInterface α) σ)
    (own : Overrides (futureInterface α) σ) :
    Future.decorator delegate own = delegate.decorated own := by
  funext op
  rw [Behaviour.decorated_apply]
  cases op <;> rfl

/-- However clients wait: a decorator does not wait itself for what it has been given. -/
theorem Service.decorator_eq {φ ε : Type} (wait : φ → σ → Option (Except ε Phase))
    (delegate : Behaviour (serviceInterfaceOf φ ε) σ)
    (own : Overrides (serviceInterfaceOf φ ε) σ) :
    Service.decorator wait delegate own = delegate.decorated own := by
  funext op
  rw [Behaviour.decorated_apply]
  cases op <;> rfl

/-! ## Towers -/

namespace Tower

/-! ### The delegate inside -/

@[simp] theorem core_withCore (t : Tower I σ τ) (s : τ) (x : σ) : t.core (t.withCore s x) = x := by
  induction t with
  | bare => rfl
  | wrapped ω own inner ih => exact ih s.2

@[simp] theorem withCore_withCore (t : Tower I σ τ) (s : τ) (x y : σ) :
    t.withCore (t.withCore s x) y = t.withCore s y := by
  induction t with
  | bare => rfl
  | wrapped ω own inner ih => exact congrArg (Prod.mk s.1) (ih s.2)

@[simp] theorem withCore_core (t : Tower I σ τ) (s : τ) : t.withCore s (t.core s) = s := by
  induction t with
  | bare => rfl
  | wrapped ω own inner ih => exact congrArg (Prod.mk s.1) (ih s.2)

variable {wrap : Wrapping I} {t : Tower I σ τ}

/-- An operation that every decorator leaves to what it is around is an operation of the delegate
inside, and nothing else. -/
theorem behaviour_of_leaves
    (forwards : ∀ σ (b : Behaviour I σ) own, wrap σ b own = b.decorated own)
    (delegate : Behaviour I σ) {op : I.Op} (leaves : t.Leaves op) (s : τ) :
    t.behaviour wrap delegate op s =
      ((delegate op (t.core s)).1, t.withCore s (delegate op (t.core s)).2) := by
  induction t with
  | bare => rfl
  | wrapped ω own inner ih =>
    rcases leaves with ⟨left, leaves⟩
    unfold behaviour
    rw [forwards, Behaviour.decorated_of_none (left _)]
    unfold Behaviour.beside
    rw [ih leaves]
    rfl

/-- A run of such operations is a run of the delegate inside, and nothing else. -/
theorem run_of_leaves (forwards : ∀ σ (b : Behaviour I σ) own, wrap σ b own = b.decorated own)
    (delegate : Behaviour I σ) {ops : List I.Op} (leaves : ∀ op ∈ ops, t.Leaves op) (s : τ) :
    (t.behaviour wrap delegate).run ops s =
      ((delegate.run ops (t.core s)).1, t.withCore s (delegate.run ops (t.core s)).2) := by
  induction ops generalizing s with
  | nil =>
    show ([], s) = ([], t.withCore s (t.core s))
    rw [withCore_core]
  | cons op more ih =>
    rcases List.forall_mem_cons.mp leaves with ⟨here, later⟩
    simp only [Behaviour.run]
    rw [behaviour_of_leaves forwards delegate here, ih later, core_withCore, withCore_withCore]

end Tower

/-! ## What is promised -/

/-- What a way to make decorators promises, of every delegate and of all decorators around it. -/
structure Transparent (wrap : Wrapping I) : Prop where
  /-- Operations that no decorator answers itself are answered as by the delegate alone. It is left
  as they leave it alone, and the states of the decorators stay as they are. -/
  run_left : ∀ {σ τ : Type} (delegate : Behaviour I σ) (t : Tower I σ τ) (ops : List I.Op),
    (∀ op ∈ ops, t.Leaves op) → ∀ s,
      let ran := (t.behaviour wrap delegate).run ops s
      ran.1 = (delegate.run ops (t.core s)).1 ∧ t.core ran.2 = (delegate.run ops (t.core s)).2 ∧
        ∀ x, t.withCore ran.2 x = t.withCore s x
  /-- If the decorators answer nothing themselves, all operations are such, at every depth. -/
  run_plain : ∀ {σ τ : Type} (delegate : Behaviour I σ) (t : Tower I σ τ),
    (∀ op, t.Leaves op) → ∀ ops s,
      let ran := (t.behaviour wrap delegate).run ops s
      ran.1 = (delegate.run ops (t.core s)).1 ∧ t.core ran.2 = (delegate.run ops (t.core s)).2
  /-- After operations of any kind, one that no decorator answers itself is answered by the delegate
  in the state in which it is then. -/
  left_after : ∀ {σ τ : Type} (delegate : Behaviour I σ) (t : Tower I σ τ) (earlier : List I.Op)
    (op : I.Op), t.Leaves op → ∀ s,
      let ran := (t.behaviour wrap delegate).run earlier s
      let own := delegate op (t.core ran.2)
      (t.behaviour wrap delegate).run (earlier ++ [op]) s =
        (ran.1 ++ [⟨op, own.1⟩], t.withCore ran.2 own.2)
  /-- An operation that the outermost decorator answers itself is answered in this way. -/
  answers : ∀ {σ τ : Type} (delegate : Behaviour I σ) (t : Tower I σ τ) (ω : Type)
    (own : Behaviour I τ → Overrides I (ω × τ)) (op : I.Op) answer,
      own (t.behaviour wrap delegate) op = some answer →
        (Tower.wrapped ω own t).behaviour wrap delegate op = answer
  /-- Decorators that keep no state and answer nothing themselves are the delegate, at every
  depth. -/
  layered : ∀ {σ : Type} (delegate : Behaviour I σ),
    wrap σ delegate (fun _ => none) = delegate.forwarded ∧
      ∀ depth, delegate.layered depth = delegate

theorem Behaviour.layered_eq (delegate : Behaviour I σ) (depth : Nat) :
    delegate.layered depth = delegate := by
  induction depth with
  | zero => rfl
  | succ depth ih =>
    unfold layered forwarded
    rw [ih]
    funext op
    exact decorated_of_none rfl

/-- It is kept if decorators answer with the delegate's operation whenever they have none
themselves. -/
theorem transparent_of_eq {wrap : Wrapping I}
    (forwards : ∀ σ (b : Behaviour I σ) own, wrap σ b own = b.decorated own) :
    Transparent wrap := by
  constructor
  · intro σ τ delegate t ops leaves s ran
    have same : ran = _ := Tower.run_of_leaves forwards delegate leaves s
    rw [same]
    refine ⟨rfl, Tower.core_withCore _ _ _, ?_⟩
    intro x
    exact Tower.withCore_withCore _ _ _ _
  · intro σ τ delegate t leaves ops s ran
    have same : ran = _ := Tower.run_of_leaves forwards delegate (fun op _ => leaves op) s
    rw [same]
    exact ⟨rfl, Tower.core_withCore _ _ _⟩
  · intro σ τ delegate t earlier op leaves s ran own
    rw [Behaviour.run_append]
    have last := Tower.behaviour_of_leaves forwards delegate leaves ran.2
    simp only [Behaviour.run]
    rw [last]
  · intro σ τ delegate t ω own op answer answered
    unfold Tower.behaviour
    rw [forwards]
    exact Behaviour.decorated_of_some answered
  · intro σ delegate
    exact ⟨forwards σ delegate _, delegate.layered_eq⟩

/-- The decorators of sorted maps, futures, queues and services are transparent, whatever is in the
map or the queue, whatever the futures of the service are and however clients wait for them. -/
theorem decorators_transparent :
    (∀ κ ν, Transparent (I := mapInterface κ ν) fun _ => SortedMap.decorator) ∧
      (∀ α, Transparent (I := futureInterface α) fun _ => Future.decorator) ∧
      (∀ α, Transparent (I := queueInterface α) fun _ => Queue.decorator) ∧
      ∀ (φ ε : Type) (wait : (σ : Type) → φ → σ → Option (Except ε Service.Phase)),
        Transparent (I := Service.serviceInterfaceOf φ ε) fun σ => Service.decorator (wait σ) := by
  refine ⟨?_, ?_, ?_, ?_⟩
  · intro κ ν
    exact transparent_of_eq fun _ => SortedMap.decorator_eq
  · intro α
    exact transparent_of_eq fun _ => Future.decorator_eq
  · intro α
    exact transparent_of_eq fun _ => Queue.decorator_eq
  · intro φ ε wait
    exact transparent_of_eq fun σ => Service.decorator_eq (wait σ)

/-- An empty queue stays empty, however long its decorators claim that it is. -/
example : (Queue.skewed (Queue.skewed Queue.array) .isEmpty ⟨1, []⟩).1 = true ∧
    (Queue.skewed (Queue.skewed Queue.array) .length ⟨1, []⟩).1 = 20 := by
  decide

end Groundwork
