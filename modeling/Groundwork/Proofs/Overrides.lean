import Groundwork.Future.Decorators
import Groundwork.Service.Deployment
import Groundwork.Proofs.Decorators
import Groundwork.Proofs.Queue.Fifo
import Groundwork.Proofs.SortedMap.History

/-!
# Decorators with answers of their own

What comes of a decorator that answers some operations itself is told by the delegate. It changes
answers, it turns operations away, or it keeps a tally beside the delegate.

* `Behaviour.run_of_rewrites`: a decorator that only changes answers. The delegate goes the same way
  as without it. The two decorators called `skewed` are such.
* `Behaviour.run_of_refuses`: a decorator that turns operations away. The delegate goes the way of a
  run in which nobody asked for them. `audited` and `evenOnly` are such.
* `SortedMap.nonneg_of_audited`: no run of an audited map takes in a negative value.
* `Queue.origin_of_odd`: an odd item in a queue behind `evenOnly` was put there or offered in time.
* `Future.run_uncancellable`: no run touches an uncancellable future, and all reads are counted.
* `Service.Deployment.run_counted`: a service whose starts are counted goes the way of the service
  alone.
-/

namespace Groundwork

variable {I : Interface} {σ : Type}

namespace Behaviour

variable {b delegate : Behaviour I σ}

/-- A behaviour that makes its answers from those of the delegate leaves the same states behind. -/
theorem run_of_rewrites {rewrite : (op : I.Op) → I.Answer op → I.Answer op}
    (rewrites : ∀ op s, b op s = (rewrite op (delegate op s).1, (delegate op s).2))
    (ops : List I.Op) (s : σ) :
    b.run ops s = ((delegate.run ops s).1.map fun answered =>
      ⟨answered.1, rewrite answered.1 answered.2⟩, (delegate.run ops s).2) := by
  induction ops generalizing s with
  | nil => rfl
  | cons op ops ih =>
    simp only [run]
    rw [rewrites, ih]
    rfl

/-- A behaviour that turns operations away, and is the delegate in all others, answers the others
as if nobody had asked for those that it turns away. -/
theorem run_of_refuses {refuses : I.Op → Bool}
    (away : ∀ op s, refuses op = true → (b op s).2 = s)
    (kept : ∀ op, refuses op = false → b op = delegate op) (ops : List I.Op) (s : σ) :
    let reaching := ops.filter fun op => !refuses op
    ((b.run ops s).1.filter fun answered => !refuses answered.1) = (delegate.run reaching s).1 ∧
      (b.run ops s).2 = (delegate.run reaching s).2 := by
  induction ops generalizing s with
  | nil => exact ⟨rfl, rfl⟩
  | cons op ops ih =>
    simp only [run]
    cases refused : refuses op with
    | true =>
      -- the operation changes nothing, and its answer is not among those that are looked at
      rw [List.filter_cons_of_neg (by simp [refused]), List.filter_cons_of_neg (by simp [refused]),
        away op s refused]
      exact ih s
    | false =>
      rw [List.filter_cons_of_pos (by simp [refused]), List.filter_cons_of_pos (by simp [refused]),
        kept op refused]
      rcases ih (delegate op s).2 with ⟨answers, behind⟩
      exact ⟨congrArg (List.cons _) answers, behind⟩

end Behaviour

/-! ## Sorted maps -/

namespace SortedMap

variable {κ : Type}

/-- What an audited map turns away. -/
def isNegativeInsert : MapOp κ Int → Bool
  | .insert _ value => value < 0
  | _ => false

/-- An audited map is its delegate, which nobody asks to take in a negative value. -/
theorem run_audited (delegate : Behaviour (mapInterface κ Int) σ) (ops : List (MapOp κ Int))
    (s : σ) :
    let reaching := ops.filter fun op => !isNegativeInsert op
    (((audited delegate).run ops s).1.filter fun answered => !isNegativeInsert answered.1) =
        (delegate.run reaching s).1 ∧
      ((audited delegate).run ops s).2 = (delegate.run reaching s).2 := by
  apply Behaviour.run_of_refuses
  · intro op s refused
    cases op with
    | insert key value => exact congrArg Prod.snd (if_pos (of_decide_eq_true refused))
    | _ => cases refused
  · intro op admitted
    cases op with
    | insert key value =>
      funext s
      exact if_neg (of_decide_eq_false admitted)
    | _ => rfl

/-- A map without negative values has none after any operations, if it is audited. -/
theorem nonneg_of_audited [Ord κ] [Std.TransOrd κ] [Std.LawfulEqOrd κ] {m : SortedMap κ Int}
    (nonneg : ∀ (key : κ) (value : Int), m[key]? = some value → 0 ≤ value)
    (ops : List (MapOp κ Int)) {key : κ} {value : Int}
    (held : ((audited ordered).run ops m).2[key]? = some value) : 0 ≤ value := by
  classical
  rw [(run_audited ordered ops m).2, getElem?_run] at held
  cases last : ((ops.filter fun op => !isNegativeInsert op).filterMap (leaves? key)).getLast? with
  | none =>
    rw [last] at held
    exact nonneg key value held
  | some left =>
    -- the last operation on the key that reached the delegate put the value in
    rw [last] at held
    obtain rfl : left = some value := held
    rcases List.mem_filterMap.mp (List.mem_of_getLast? last) with ⟨op, asked, wrote⟩
    have admitted := (List.mem_filter.mp asked).2
    cases op with
    | insert key' value' =>
      simp only [leaves?, Option.ite_none_right_eq_some, Option.some.injEq] at wrote
      rcases wrote with ⟨-, rfl⟩
      simpa [isNegativeInsert] using admitted
    | remove key' => simp [leaves?] at wrote
    | _ => cases wrote

/-- What a skewed map makes of the answers of its delegate. -/
def skew [Ord κ] : (op : MapOp κ Int) → op.Answer → op.Answer
  | .size, size => size + 100
  | .sub start limit, view => if (compare start limit).isGT then .ok [] else view
  | .insert .., answer | .remove _, answer | .get _, answer | .contains _, answer
  | .isEmpty, answer | .firstKey, answer | .lastKey, answer | .head _, answer
  | .tail _, answer => answer

/-- Whatever a skewed map claims, it goes the way of the map inside. -/
theorem run_skewed [Ord κ] (ops : List (MapOp κ Int)) (m : SortedMap κ Int) :
    (skewed ordered).run ops m = ((ordered.run ops m).1.map fun answered =>
      ⟨answered.1, skew answered.1 answered.2⟩, (ordered.run ops m).2) := by
  apply Behaviour.run_of_rewrites
  intro op m
  cases op with
  | sub start limit =>
    show (if (compare start limit).isGT then (.ok [], m) else (m.sub start limit, m)) =
      (if (compare start limit).isGT then .ok [] else m.sub start limit, m)
    split <;> rfl
  | _ => rfl

end SortedMap

/-! ## Queues -/

namespace Queue

/-- What a queue behind `evenOnly` turns away. -/
def isOddOffer : QueueOp Int → Bool
  | .offer item => item % 2 ≠ 0
  | _ => false

/-- A queue behind `evenOnly` is its delegate, to which nobody offers an odd item. -/
theorem run_evenOnly (delegate : Behaviour (queueInterface Int) σ) (ops : List (QueueOp Int))
    (s : σ) :
    let reaching := ops.filter fun op => !isOddOffer op
    (((evenOnly delegate).run ops s).1.filter fun answered => !isOddOffer answered.1) =
        (delegate.run reaching s).1 ∧
      ((evenOnly delegate).run ops s).2 = (delegate.run reaching s).2 := by
  apply Behaviour.run_of_refuses
  · intro op s refused
    cases op with
    | offer item => exact congrArg Prod.snd (if_neg (of_decide_eq_true refused))
    | _ => cases refused
  · intro op admitted
    cases op with
    | offer item =>
      funext s
      exact if_pos (Decidable.not_not.mp (of_decide_eq_false admitted))
    | _ => rfl

/-- Whatever is in the queue was in it before or has been accepted. -/
theorem mem_items_run {α : Type} {ops : List (QueueOp α)} {q : Queue α} {item : α}
    (held : item ∈ (array.run ops q).2.items) :
    item ∈ q.items ∨ ∃ event ∈ (array.run ops q).1, item ∈ acceptedBy event := by
  induction ops generalizing q with
  | nil => exact .inl held
  | cons op ops ih =>
    rcases ih held with before | ⟨event, later, accepted⟩
    · rcases (look_array op q).mem_items before with first | accepted
      · exact .inl first
      · exact .inr ⟨_, List.mem_cons_self, accepted⟩
    · exact .inr ⟨event, List.mem_cons_of_mem _ later, accepted⟩

theorem eq_of_mem_acceptedBy {α : Type} {event : Answered (queueInterface α)} {item : α}
    (accepted : item ∈ acceptedBy event) :
    event = ⟨.offer item, .accepted⟩ ∨ event = ⟨.put item, some ()⟩ ∨
      ∃ milliseconds, event = ⟨.offerInTime item milliseconds, .accepted⟩ := by
  unfold acceptedBy at accepted
  split at accepted
  · exact .inl (by rw [List.mem_singleton.mp accepted])
  · exact .inr (.inr ⟨_, by rw [List.mem_singleton.mp accepted]⟩)
  · exact .inr (.inl (by rw [List.mem_singleton.mp accepted]))
  · cases accepted

/-- Offering is the only way into the queue that `evenOnly` watches: an odd item was there at first,
has been put there or has been offered in time. -/
theorem origin_of_odd {ops : List (QueueOp Int)} {q : Queue Int} {item : Int}
    (held : item ∈ ((evenOnly array).run ops q).2.items) (odd : item % 2 ≠ 0) :
    item ∈ q.items ∨ ⟨.put item, some ()⟩ ∈ ((evenOnly array).run ops q).1 ∨
      ∃ milliseconds, ⟨.offerInTime item milliseconds, .accepted⟩ ∈
        ((evenOnly array).run ops q).1 := by
  rcases run_evenOnly array ops q with ⟨answers, behind⟩
  rw [behind] at held
  rcases mem_items_run held with first | ⟨event, asked, accepted⟩
  · exact .inl first
  · -- whatever the delegate has accepted was asked of the decorator, which let it through
    rw [← answers] at asked
    rcases List.mem_filter.mp asked with ⟨among, admitted⟩
    rcases eq_of_mem_acceptedBy accepted with rfl | rfl | ⟨milliseconds, rfl⟩
    · simp [isOddOffer, odd] at admitted
    · exact .inr (.inl among)
    · exact .inr (.inr ⟨milliseconds, among⟩)

/-- What a skewed queue makes of the answers of its delegate. -/
def skew {α : Type} : (op : QueueOp α) → op.Answer → op.Answer
  | .length, length => length + 10
  | .offer _, answer | .offerInTime .., answer | .put _, answer | .poll, answer
  | .pollInTime _, answer | .take, answer | .remainingCapacity, answer | .drain _, answer
  | .drainUpTo .., answer | .isEmpty, answer => answer

/-- Whatever length a skewed queue claims, it goes the way of its delegate. -/
theorem run_skewed (delegate : Behaviour (queueInterface Int) σ) (ops : List (QueueOp Int))
    (s : σ) :
    (skewed delegate).run ops s = ((delegate.run ops s).1.map fun answered =>
      ⟨answered.1, skew answered.1 answered.2⟩, (delegate.run ops s).2) := by
  apply Behaviour.run_of_rewrites
  intro op s
  cases op <;> rfl

end Queue

/-! ## Futures -/

namespace Future

/-- Whatever clients ask for, the future behind `uncancellable` stays as it is, and every time its
result is asked for counts. -/
theorem run_uncancellable (ops : List FutureOp) (s : Tallied) :
    ((uncancellable Tallied.settable).run ops s).2 =
      { s with reads := s.reads + ops.count .get } := by
  induction ops generalizing s with
  | nil => rfl
  | cons op ops ih =>
    show ((uncancellable Tallied.settable).run ops (uncancellable Tallied.settable op s).2).2 = _
    rw [ih]
    cases op with
    | get =>
      -- the one operation that leaves a trace, and only in the tally
      show Tallied.mk s.future (s.reads + 1 + ops.count .get) = _
      rw [List.count_cons_self, Nat.add_assoc, Nat.add_comm 1]
    | _ =>
      rw [List.count_cons_of_ne (by intro same; cases same)]
      rfl

/-- The result carries the number of times that it has been asked for. -/
theorem get_uncancellable (ops : List FutureOp) (a : String) (reads : Nat) :
    ((uncancellable Tallied.settable) .get
      ((uncancellable Tallied.settable).run ops ⟨.completed (.value a), reads⟩).2).1 =
        some (.ok (a ++ ("#" ++ toString (reads + ops.count .get + 1)))) := by
  rw [run_uncancellable]
  rfl

end Future

/-! ## Services -/

namespace Service

namespace Deployment

/-- The deployment with another tally of starts. -/
def withStarts (d : Deployment) (n : Nat) : Deployment := { d with starts := n }

theorem progressAt?_withStarts (d : Deployment) (n index : Nat) :
    (d.withStarts n).progressAt? index = (d.progressAt? index).map (withStarts · n) := by
  have workers : (d.withStarts n).service.workers = d.service.workers := rfl
  unfold progressAt?
  rw [workers]
  cases d.service.workers[index]? with
  | none => rfl
  | some w =>
    have allowed : (d.withStarts n).allowedMove? w = d.allowedMove? w := by cases w <;> rfl
    dsimp only
    rw [allowed]
    cases d.allowedMove? w with
    | none => rfl
    | some move =>
      dsimp only
      rw [Option.map_map]
      rfl

theorem progress?_withStarts (d : Deployment) (n : Nat) :
    (d.withStarts n).progress? = d.progress?.map (withStarts · n) := by
  unfold progress?
  rw [List.map_findSome?]
  congr 1
  funext index
  exact progressAt?_withStarts d n index

theorem settleWithin_withStarts (moves : Nat) (d : Deployment) (n : Nat) :
    (d.withStarts n).settleWithin moves = (d.settleWithin moves).withStarts n := by
  induction moves generalizing d with
  | zero => rfl
  | succ moves ih =>
    rw [settleWithin, settleWithin, progress?_withStarts]
    cases d.progress? with
    | none => rfl
    | some next => exact ih next

theorem settle_withStarts (d : Deployment) (n : Nat) :
    (d.withStarts n).settle = d.settle.withStarts n :=
  settleWithin_withStarts (distance d.service) d n

/-- The tally of starts plays no part in what the service does. -/
theorem idle_withStarts (op : ServiceOp) (d : Deployment) (n : Nat) :
    idle op (d.withStarts n) = ((idle op d).1, (idle op d).2.withStarts n) := by
  have start : (d.withStarts n).start = d.start.withStarts n :=
    settle_withStarts { d with service := d.service.start } n
  have stop : (d.withStarts n).stop = d.stop.withStarts n :=
    settle_withStarts { d with service := d.service.stop } n
  cases op with
  | start => exact congrArg (Prod.mk _) start
  | stop => exact congrArg (Prod.mk _) stop
  | startAndWait =>
    show (awaited? .start (d.withStarts n).start, (d.withStarts n).start) = _
    rw [start]
    rfl
  | stopAndWait =>
    show (awaited? .stop (d.withStarts n).stop, (d.withStarts n).stop) = _
    rw [stop]
    rfl
  | state => rfl
  | isRunning => rfl

/-- The decorator counts a start, and passes it on as everything else. -/
theorem counted_withStarts (op : ServiceOp) (d : Deployment) (n : Nat) :
    (counted idle op (d.withStarts n)).2 =
      (idle op d).2.withStarts (n + if op = .start then 1 else 0) := by
  cases op with
  | start => exact congrArg Prod.snd (idle_withStarts .start d (n + 1))
  | isRunning => rfl
  | state => rfl
  | stop => exact congrArg Prod.snd (idle_withStarts .stop d n)
  | startAndWait => exact congrArg Prod.snd (idle_withStarts .startAndWait d n)
  | stopAndWait => exact congrArg Prod.snd (idle_withStarts .stopAndWait d n)

/-- Whatever is asked of it, the service is left as without the decorator, and every start that is
asked for by itself counts. -/
theorem run_counted (ops : List ServiceOp) (d : Deployment) (n : Nat) :
    ((counted idle).run ops (d.withStarts n)).2 =
      (idle.run ops d).2.withStarts (n + ops.count .start) := by
  induction ops generalizing d n with
  | nil => rfl
  | cons op ops ih =>
    show ((counted idle).run ops (counted idle op (d.withStarts n)).2).2 = _
    rw [counted_withStarts, ih, List.count_cons, Nat.add_assoc, Nat.add_comm (ops.count _)]
    simp only [beq_iff_eq]
    rfl

end Deployment

end Service

end Groundwork
