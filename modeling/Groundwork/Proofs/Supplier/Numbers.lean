import Groundwork.Supplier.Numbers
import Groundwork.Proofs.Supplier.Runs

/-!
# Functions one after the other

Functions that are applied one after the other to what a supplier gives are one function, and in no
run can the two be told apart.

* `run_compose_compose`: this for any functions. `run_plus_times`, `run_digits` and
  `run_times_two_rejectOdd` are what it means for functions on 64-bit numbers.
* `sorted_eq_of_perm`: calls that come together are shown in one way, whatever order they came in.
-/

namespace Groundwork.Supplier

variable {α β γ : Type}

/-- Functions one after the other are one function that does what they do together. -/
theorem run_compose_compose {f : α → Outcome β} {g : β → Outcome γ} {h : α → Outcome γ}
    (together : ∀ a, (f a).andThen g = h a) (s : Supplier α) (start : Environment)
    (moments : List Moment) :
    ((s.compose f).compose g).run s.initial start moments =
      (s.compose h).run s.initial start moments := by
  have sim : Simulation ((s.compose f).compose g) (s.compose h)
      fun state state' _ => state = state' := by
    constructor
    · rintro state _ e rfl
      refine ⟨?_, rfl, rfl⟩
      show ((s.get state e).1.andThen f).andThen g = (s.get state e).1.andThen h
      cases (s.get state e).1 with
      | value a => exact together a
      | panic text => rfl
    · intro state state' e nanoseconds same
      exact same
  exact sim.run_eq rfl moments

/-! ## Numbers -/

/-- A number that is added first counts as often as the sum is taken. -/
theorem run_plus_times (k l : Int64) (s : Supplier Int64) (start : Environment)
    (moments : List Moment) :
    ((s.compose (plus k)).compose (times l)).run s.initial start moments =
      ((s.compose (times l)).compose (plus (k * l))).run s.initial start moments := by
  have distributes : ∀ n, (plus k n).andThen (times l) = (times l n).andThen (plus (k * l)) :=
    fun _ => congrArg Outcome.value Int64.add_mul
  exact (run_compose_compose distributes s start moments).trans
    (run_compose_compose (fun _ => rfl) s start moments).symm

/-- The number of digits comes of two functions, over a supplier of text. -/
theorem run_digits (s : Supplier Int64) (start : Environment) (moments : List Moment) :
    ((s.compose decimalText).compose textLength).run s.initial start moments =
      (s.compose decimalLength).run s.initial start moments :=
  run_compose_compose (fun _ => rfl) s start moments

/-- Wrapping around does not make an odd number of a doubled one. -/
theorem toInt_mul_two_emod (n : Int64) : (n * 2).toInt % 2 = 0 := by
  have two : (2 : Int64).toInt = 2 := rfl
  rw [Int64.toInt_mul, two, Int.bmod_def]
  split <;> omega

/-- Nothing that was doubled is rejected for being odd. -/
theorem run_times_two_rejectOdd (s : Supplier Int64) (start : Environment)
    (moments : List Moment) :
    ((s.compose (times 2)).compose rejectOdd).run s.initial start moments =
      (s.compose (times 2)).run s.initial start moments := by
  have passes : ∀ n, (times 2 n).andThen rejectOdd = times 2 n :=
    fun n => if_pos (toInt_mul_two_emod n)
  exact run_compose_compose passes s start moments

/-! ## Calls that come together -/

theorem mergeSort_eq_of_perm [LE α] [DecidableLE α] [Std.IsLinearOrder α] {l others : List α}
    (h : l.Perm others) : (l.mergeSort fun a b => a ≤ b) = others.mergeSort fun a b => a ≤ b := by
  have trans : ∀ a b c : α, decide (a ≤ b) = true → decide (b ≤ c) = true → decide (a ≤ c) = true :=
    fun a b c first second =>
      decide_eq_true (Std.le_trans (of_decide_eq_true first) (of_decide_eq_true second))
  have total : ∀ a b : α, (decide (a ≤ b) || decide (b ≤ a)) = true := by
    intro a b
    simpa using Std.le_total (a := a) (b := b)
  have ascending : ∀ l : List α, (l.mergeSort fun a b => a ≤ b).Pairwise fun a b => a ≤ b := by
    intro l
    simpa only [decide_eq_true_eq] using List.pairwise_mergeSort trans total l
  exact List.Perm.eq_of_pairwise (fun _ _ _ _ => Std.le_antisymm) (ascending l) (ascending others)
    ((List.mergeSort_perm l _).trans (h.trans (List.mergeSort_perm others _).symm))

/-- What is shown of calls that came together does not depend on the order in which they came. -/
theorem sorted_eq_of_perm {outcomes others : List (Outcome Int64)} (h : outcomes.Perm others) :
    sorted outcomes = sorted others := by
  have values : (Outcome.values outcomes).Perm (Outcome.values others) := h.filterMap _
  have panics : (Outcome.panics outcomes).Perm (Outcome.panics others) := h.filterMap _
  rw [sorted, mergeSort_eq_of_perm values, mergeSort_eq_of_perm panics]
  rfl

end Groundwork.Supplier
