import Mathlib.Data.List.Induction
import Groundwork.Address.Canonical

/-!
# The longest run of zero groups

One pass over the groups finds the longest run of zeros, and among equally long ones the first.

* `ZeroRun`, `FirstLongest`: runs of zero groups, and the one that is looked for.
* `Scanned`: the invariant of the pass. It knows the first longest run of the groups so far, and the
  run at their end that the next group may make longer.
* `Scanned.next`: the invariant holds after one more group, whether it is zero or not.
* `firstLongest_longestZeroRun`, `FirstLongest.unique`: the pass finds the first longest run, and
  there is only one.
* `FirstLongest.short_iff`: the run has less than two groups exactly if no two zero groups are
  neighbours.
-/

namespace Groundwork.Address

/-! ## Runs of zeros -/

/-- From `start` on there are `len` groups, and they are zeros. -/
def ZeroRun (gs : List UInt16) (start len : Nat) : Prop :=
  ∀ i < len, gs[start + i]? = some 0

/-- The longest run of zeros, by its start and its length, and the first of equally long ones. -/
structure FirstLongest (gs : List UInt16) (run : Nat × Nat) : Prop where
  zeros : ZeroRun gs run.1 run.2
  longest : ∀ start len, ZeroRun gs start len → len ≤ run.2
  first : ∀ start, ZeroRun gs start run.2 → run.1 ≤ start

/-- The run of zeros at the end of the groups. It may be empty, and its start is then of no
account. -/
structure LastRun (gs : List UInt16) (run : Nat × Nat) : Prop where
  zeros : ZeroRun gs run.1 run.2
  ends : run.2 ≠ 0 → run.1 + run.2 = gs.length
  longest : ∀ start len, ZeroRun gs start len → start + len = gs.length → len ≤ run.2

theorem zeroRun_zero (gs : List UInt16) (start : Nat) : ZeroRun gs start 0 := by
  intro i hi
  omega

/-- A run that is not empty ends within the groups. -/
theorem ZeroRun.add_le {gs : List UInt16} {start len : Nat} (h : ZeroRun gs start len)
    (pos : 0 < len) : start + len ≤ gs.length := by
  have last := h (len - 1) (by omega)
  have inside : start + (len - 1) < gs.length := (List.getElem?_eq_some_iff.mp last).1
  omega

/-- The groups of a run are zeros. -/
theorem ZeroRun.take_drop {gs : List UInt16} {start len : Nat} (h : ZeroRun gs start len) :
    (gs.drop start).take len = List.replicate len 0 := by
  apply List.ext_getElem?
  intro i
  rw [List.getElem?_take, List.getElem?_drop, List.getElem?_replicate]
  split
  · rename_i hi
    exact h i hi
  · rfl

/-- With one more group, the runs are those from before and those that end in this group, if it is
zero. -/
theorem zeroRun_snoc_iff {gs : List UInt16} {g : UInt16} {start len : Nat} :
    ZeroRun (gs ++ [g]) start len ↔ ZeroRun gs start len ∨
      g = 0 ∧ ∃ before, len = before + 1 ∧ start + before = gs.length ∧
        ZeroRun gs start before := by
  constructor
  · intro h
    by_cases within : start + len ≤ gs.length
    · left
      intro i hi
      rw [← h i hi, List.getElem?_append_left (by omega)]
    · by_cases empty : len = 0
      · left
        rw [empty]
        exact zeroRun_zero gs start
      · right
        have ends := h.add_le (by omega)
        rw [List.length_append, List.length_singleton] at ends
        have last := h (len - 1) (by omega)
        have place : start + (len - 1) = gs.length := by omega
        rw [place, List.getElem?_append_right (Nat.le_refl _), Nat.sub_self] at last
        refine ⟨by simpa using last, len - 1, by omega, place, ?_⟩
        intro i hi
        rw [← h i (by omega), List.getElem?_append_left (by omega)]
  · rintro (h | ⟨rfl, before, rfl, place, h⟩)
    · intro i hi
      have inside := h.add_le (by omega)
      rw [List.getElem?_append_left (by omega)]
      exact h i hi
    · intro i hi
      by_cases last : i = before
      · rw [last, place]
        simp
      · rw [List.getElem?_append_left (by omega)]
        exact h i (by omega)

/-! ## The first longest run -/

theorem FirstLongest.unique {gs : List UInt16} {run other : Nat × Nat} (h : FirstLongest gs run)
    (ho : FirstLongest gs other) : run = other := by
  have length : run.2 = other.2 :=
    Nat.le_antisymm (ho.longest _ _ h.zeros) (h.longest _ _ ho.zeros)
  have zeros := h.zeros
  have others := ho.zeros
  rw [length] at zeros
  rw [← length] at others
  exact Prod.ext (Nat.le_antisymm (h.first _ others) (ho.first _ zeros)) length

/-- The longest run has less than two groups exactly if no two zero groups are neighbours. -/
theorem FirstLongest.short_iff {gs : List UInt16} {run : Nat × Nat} (h : FirstLongest gs run) :
    run.2 < 2 ↔ ∀ i : Nat, ¬ (gs[i]? = some 0 ∧ gs[i + 1]? = some 0) := by
  constructor
  · rintro short i ⟨here, next⟩
    have two : ZeroRun gs i 2 := by
      intro j hj
      obtain rfl | rfl : j = 0 ∨ j = 1 := by omega
      · exact here
      · exact next
    have := h.longest i 2 two
    omega
  · intro apart
    by_contra long
    exact apart run.1 ⟨h.zeros 0 (by omega), h.zeros 1 (by omega)⟩

/-! ## The pass -/

/-- What a pass over groups knows of them. -/
structure Scanned (gs : List UInt16) (scan : ZeroScan) : Prop where
  best : FirstLongest gs scan.best
  current : LastRun gs scan.current

theorem scanned_nil : Scanned [] ⟨(0, 0), (0, 0)⟩ := by
  have empty : ∀ start len, ZeroRun [] start len → len ≤ 0 := by
    intro start len h
    by_contra pos
    have := h 0 (by omega)
    simp at this
  exact ⟨⟨zeroRun_zero _ _, empty, fun start _ => Nat.zero_le start⟩,
    ⟨zeroRun_zero _ _, fun h => absurd rfl h, fun start len h _ => empty start len h⟩⟩

/-- A zero group makes the run at the end longer by one. -/
theorem LastRun.snoc_zero {gs : List UInt16} {run : Nat × Nat} (h : LastRun gs run) :
    LastRun (gs ++ [0]) (if run.2 = 0 then gs.length else run.1, run.2 + 1) := by
  have place : (if run.2 = 0 then gs.length else run.1) + run.2 = gs.length := by
    split
    · omega
    · rename_i some
      exact h.ends some
  have zeros : ZeroRun gs (if run.2 = 0 then gs.length else run.1) run.2 := by
    split
    · rename_i none
      rw [none]
      exact zeroRun_zero _ _
    · exact h.zeros
  generalize (if run.2 = 0 then gs.length else run.1) = start at place zeros
  refine ⟨zeroRun_snoc_iff.mpr (.inr ⟨rfl, run.2, rfl, place, zeros⟩), ?_, ?_⟩
  · intro _
    rw [List.length_append, List.length_singleton, ← place, Nat.add_assoc]
  · intro start len longer ends
    rw [List.length_append, List.length_singleton] at ends
    rcases zeroRun_snoc_iff.mp longer with old | ⟨-, before, rfl, hbefore, old⟩
    · by_contra long
      have := old.add_le (by omega)
      omega
    · have := h.longest start before old hbefore
      show before + 1 ≤ run.2 + 1
      omega

/-- After a group other than zero the run at the end is empty. -/
theorem lastRun_snoc_of_ne {gs : List UInt16} {g : UInt16} (hg : g ≠ 0) (start : Nat) :
    LastRun (gs ++ [g]) (start, 0) := by
  refine ⟨zeroRun_zero _ _, fun some => absurd rfl some, ?_⟩
  intro start len run ends
  rw [List.length_append, List.length_singleton] at ends
  rcases zeroRun_snoc_iff.mp run with old | ⟨zero, -⟩
  · -- a run from before that is not empty ends before the last group
    by_contra pos
    have := old.add_le (by omega)
    omega
  · exact absurd zero hg

/-- With one more group, a run is one from before, or it ends in this group and is no longer than
the run at the end. -/
theorem LastRun.cases_of_zeroRun {gs : List UInt16} {g : UInt16} {current : Nat × Nat}
    (last : LastRun (gs ++ [g]) current) {start len : Nat} (run : ZeroRun (gs ++ [g]) start len) :
    ZeroRun gs start len ∨ 0 < len ∧ start + len = gs.length + 1 ∧ len ≤ current.2 := by
  rcases zeroRun_snoc_iff.mp run with old | ⟨-, before, rfl, place, -⟩
  · exact .inl old
  · have ends : start + (before + 1) = gs.length + 1 := by omega
    refine .inr ⟨Nat.succ_pos before, ends, last.longest start (before + 1) run ?_⟩
    rw [ends, List.length_append, List.length_singleton]

/-- With one more group, the first longest run is the one from before, or the run at the end if that
is longer. -/
theorem FirstLongest.snoc {gs : List UInt16} {g : UInt16} {best current : Nat × Nat}
    (h : FirstLongest gs best) (last : LastRun (gs ++ [g]) current) :
    FirstLongest (gs ++ [g]) (if best.2 < current.2 then current else best) := by
  split
  · rename_i longer
    have place := last.ends (by omega)
    rw [List.length_append, List.length_singleton] at place
    refine ⟨last.zeros, ?_, ?_⟩
    · intro start len run
      rcases last.cases_of_zeroRun run with old | ⟨-, -, short⟩
      · have := h.longest start len old
        omega
      · exact short
    · intro start run
      rcases last.cases_of_zeroRun run with old | ⟨-, ends, -⟩
      · -- no run from before is as long
        have := h.longest start current.2 old
        omega
      · omega
  · refine ⟨zeroRun_snoc_iff.mpr (.inl h.zeros), ?_, ?_⟩
    · intro start len run
      rcases last.cases_of_zeroRun run with old | ⟨-, -, short⟩
      · exact h.longest start len old
      · omega
    · intro start run
      rcases last.cases_of_zeroRun run with old | ⟨pos, ends, -⟩
      · exact h.first start old
      · -- a run that is equally long and ends later starts later
        have := h.zeros.add_le pos
        omega

/-- The pass knows the groups so far after one more group. -/
theorem Scanned.next {gs : List UInt16} {scan : ZeroScan} (h : Scanned gs scan) (g : UInt16) :
    Scanned (gs ++ [g]) (scan.next g gs.length) := by
  by_cases hg : g = 0
  · have last := h.current.snoc_zero
    rw [hg, ZeroScan.next, if_pos rfl]
    exact ⟨h.best.snoc last, last⟩
  · have last : LastRun (gs ++ [g]) (scan.current.1, 0) := lastRun_snoc_of_ne hg _
    have best := h.best.snoc last
    rw [if_neg (Nat.not_lt_zero _)] at best
    rw [ZeroScan.next, if_neg hg]
    exact ⟨best, last⟩

theorem scanZeros_snoc (gs : List UInt16) (g : UInt16) :
    scanZeros (gs ++ [g]) = (scanZeros gs).next g gs.length := by
  simp [scanZeros, List.zipIdx_append]

theorem scanned_scanZeros (gs : List UInt16) : Scanned gs (scanZeros gs) := by
  -- the pass goes from the left, so that the last group is taken off
  induction gs using List.reverseRecOn with
  | nil => exact scanned_nil
  | append_singleton gs g ih =>
    rw [scanZeros_snoc]
    exact ih.next g

/-- The pass finds the first longest run of zeros. -/
theorem firstLongest_longestZeroRun (gs : List UInt16) : FirstLongest gs (longestZeroRun gs) :=
  (scanned_scanZeros gs).best

/-- Of two runs of two zeros the first is found. -/
example : longestZeroRun [0x2001, 0xdb8, 0, 0, 1, 0, 0, 1] = (2, 2) := by decide

/-- What `::` leaves out are zero groups. -/
theorem zeros_longestZeroRun (gs : List UInt16) :
    gs.take (longestZeroRun gs).1 ++ List.replicate (longestZeroRun gs).2 0 ++
      gs.drop ((longestZeroRun gs).1 + (longestZeroRun gs).2) = gs := by
  have zeros := (firstLongest_longestZeroRun gs).zeros.take_drop
  rw [← zeros, List.append_assoc, ← List.drop_drop, List.take_append_drop, List.take_append_drop]

end Groundwork.Address
