import Groundwork.SortedMap.Range
import Groundwork.Proofs.SortedMap.History

/-!
# The views of a sorted map fit together

The entries are in ascending order of their keys, so that a key cuts them in two: those below it
come first, those from it on come last.

* `takeWhile_eq_filter` and `dropWhile_eq_filter_not`: a test that only fails from some entry on
  picks out the entries up to there.
* `range?_eq_some`: a range holds the entries between its bounds and no others.
* `headRange?_eq`, `tailRange?_eq`, `subRange?_eq`: the views are ranges, and the bounds of these
  are always in order.
* `head_append_tail` and `sub_append_sub`: views that meet at a key make up the view of both.
* `RangeViews` and `ordered_rangeViews`: what the views show after any operations.
-/

namespace Groundwork

/-! ## Cutting a list -/

section

variable {α : Type} {p : α → Bool} {l : List α}

/-- Where the test only fails from some element on, the elements up to there are those that pass. -/
theorem takeWhile_eq_filter (closed : l.Pairwise fun a b => p b = true → p a = true) :
    l.takeWhile p = l.filter p := by
  induction l with
  | nil => rfl
  | cons a l ih =>
    rcases List.pairwise_cons.mp closed with ⟨first, rest⟩
    by_cases passes : p a = true
    · rw [List.takeWhile_cons_of_pos passes, List.filter_cons_of_pos passes, ih rest]
    · -- nothing behind an element that fails can pass
      have none_pass : l.filter p = [] := by
        apply List.filter_eq_nil_iff.mpr
        intro b behind pass
        exact passes (first b behind pass)
      rw [List.takeWhile_cons_of_neg passes, List.filter_cons_of_neg passes, none_pass]

/-- The elements from there on are those that fail. -/
theorem dropWhile_eq_filter_not (closed : l.Pairwise fun a b => p b = true → p a = true) :
    l.dropWhile p = l.filter fun a => !p a := by
  induction l with
  | nil => rfl
  | cons a l ih =>
    rcases List.pairwise_cons.mp closed with ⟨first, rest⟩
    by_cases passes : p a = true
    · rw [List.dropWhile_cons_of_pos passes, List.filter_cons_of_neg (by simp [passes]), ih rest]
    · have all_fail : ∀ b ∈ a :: l, (!p b) = true := by
        intro b here
        rw [Bool.not_eq_true', Bool.eq_false_iff]
        intro pass
        rcases List.mem_cons.mp here with rfl | behind
        · exact passes pass
        · exact passes (first b behind pass)
      rw [List.dropWhile_cons_of_neg passes, List.filter_eq_self.mpr all_fail]

/-- Those that pass and those that fail are the whole list, in its order. -/
theorem filter_append_filter_not (closed : l.Pairwise fun a b => p b = true → p a = true) :
    l.filter p ++ (l.filter fun a => !p a) = l := by
  rw [← takeWhile_eq_filter closed, ← dropWhile_eq_filter_not closed,
    List.takeWhile_append_dropWhile]

end

theorem isGE_eq_not_isLT (o : Ordering) : o.isGE = !o.isLT := by
  cases o <;> rfl

theorem isLE_of_isGT_eq_false {o : Ordering} (h : ¬ o.isGT = true) : o.isLE = true := by
  cases o with
  | lt => rfl
  | eq => rfl
  | gt => exact absurd rfl h

variable {κ ν : Type} [Ord κ]

/-! ## What is left of a view -/

namespace SortedMap

/-- The view between two keys is what is left of the view below the second one. -/
theorem sub_eq_filter_head (m : SortedMap κ ν) {start limit : κ}
    (ordered : ¬ (compare start limit).isGT = true) :
    m.sub start limit = .ok ((m.head limit).filter fun entry => (compare entry.1 start).isGE) := by
  rw [sub, if_neg ordered, head, List.filter_filter]

/-- It is what is left of the view from the first one on, too. -/
theorem sub_eq_filter_tail (m : SortedMap κ ν) {start limit : κ}
    (ordered : ¬ (compare start limit).isGT = true) :
    m.sub start limit = .ok ((m.tail start).filter fun entry => (compare entry.1 limit).isLT) := by
  rw [sub, if_neg ordered, tail, List.filter_filter]
  simp only [Bool.and_comm]

end SortedMap

variable [Std.TransOrd κ]

/-! ## Bounds -/

namespace Bound

/-- A range that has begun at a key has begun at every key behind it. -/
theorem hasBegun_of_lt (lower : Bound κ) {a b : κ} (lt : compare a b = .lt)
    (begun : lower.hasBegun a = true) : lower.hasBegun b = true := by
  have behind : compare b a = .gt := Std.OrientedCmp.gt_iff_lt.mpr lt
  cases lower with
  | unbounded => rfl
  | included start =>
    have gt : compare b start = .gt := Std.TransCmp.gt_of_gt_of_isGE behind begun
    simp only [hasBegun, gt, Ordering.isGE_gt]
  | excluded start =>
    have gt : compare b start = .gt :=
      Std.TransCmp.gt_trans behind (Ordering.isGT_iff_eq_gt.mp begun)
    simp only [hasBegun, gt, Ordering.isGT_gt]

/-- A range that goes on at a key goes on at every key before it. -/
theorem goesOn_of_lt (upper : Bound κ) {a b : κ} (lt : compare a b = .lt)
    (within : upper.goesOn b = true) : upper.goesOn a = true := by
  cases upper with
  | unbounded => rfl
  | included limit =>
    have below : compare a limit = .lt := Std.TransCmp.lt_of_lt_of_isLE lt within
    simp only [goesOn, below, Ordering.isLE_lt]
  | excluded limit =>
    have below : compare a limit = .lt :=
      Std.TransCmp.lt_trans lt (Ordering.isLT_iff_eq_lt.mp within)
    simp only [goesOn, below, Ordering.isLT_lt]

end Bound

namespace SortedMap

/-! ## Ranges -/

/-- Entries in ascending order of their keys, each key once. -/
def Ascending (entries : List (κ × ν)) : Prop :=
  entries.Pairwise fun a b => compare a.1 b.1 = .lt

theorem ascending_toList (m : SortedMap κ ν) : Ascending m.toList :=
  Std.TreeMap.ordered_keys_toList

/-- The entries at which a range has not begun come first. -/
theorem Ascending.before_range {entries : List (κ × ν)} (h : Ascending entries) (lower : Bound κ) :
    entries.Pairwise fun a b => (!lower.hasBegun b.1) = true → (!lower.hasBegun a.1) = true := by
  apply List.Pairwise.imp _ h
  intro a b lt
  rw [Bool.not_eq_true', Bool.not_eq_true', Bool.eq_false_iff, Bool.eq_false_iff]
  intro after begun
  exact after (lower.hasBegun_of_lt lt begun)

/-- So do the entries at which it still goes on. -/
theorem Ascending.up_to_range {entries : List (κ × ν)} (h : Ascending entries) (upper : Bound κ) :
    entries.Pairwise fun a b => upper.goesOn b.1 = true → upper.goesOn a.1 = true := by
  apply List.Pairwise.imp _ h
  intro a b lt within
  exact upper.goesOn_of_lt lt within

/-- A range whose bounds are in order holds the entries between them and no others. -/
theorem range?_eq_some (m : SortedMap κ ν) {lower upper : Bound κ}
    (ordered : lower.inOrder upper = true) :
    m.range? lower upper = some (m.toList.filter fun entry =>
      lower.hasBegun entry.1 && upper.goesOn entry.1) := by
  have ascending := ascending_toList m
  have begun : (m.toList.dropWhile fun entry => !lower.hasBegun entry.1) =
      m.toList.filter fun entry => lower.hasBegun entry.1 := by
    rw [dropWhile_eq_filter_not (ascending.before_range lower)]
    simp only [Bool.not_not]
  have rest : Ascending (m.toList.filter fun entry => lower.hasBegun entry.1) :=
    List.Pairwise.filter _ ascending
  rw [range?, if_pos ordered, begun, takeWhile_eq_filter (rest.up_to_range upper),
    List.filter_filter]
  simp only [Bool.and_comm]

/-- The entries below a key are a range. -/
theorem headRange?_eq (m : SortedMap κ ν) (limit : κ) :
    m.headRange? limit = some (m.head limit) := by
  rw [headRange?, range?_eq_some m rfl]
  rfl

/-- So are those from a key on. -/
theorem tailRange?_eq (m : SortedMap κ ν) (start : κ) :
    m.tailRange? start = some (m.tail start) := by
  rw [tailRange?, range?_eq_some m rfl]
  simp only [Bound.goesOn, Bool.and_true]
  rfl

/-- So are those between two keys, and bounds that are not refused are in order. -/
theorem subRange?_eq (m : SortedMap κ ν) (start limit : κ) :
    m.subRange? start limit = some (m.sub start limit) := by
  rw [subRange?, sub]
  by_cases inverted : (compare start limit).isGT = true
  · rw [if_pos inverted, if_pos inverted]
  · have ordered : (Bound.included start).inOrder (.excluded limit) = true :=
      isLE_of_isGT_eq_false inverted
    rw [if_neg inverted, if_neg inverted, range?_eq_some m ordered]
    rfl

/-! ## Views that meet -/

/-- The entries below a key and those from it on are all entries, in order. -/
theorem head_append_tail (m : SortedMap κ ν) (key : κ) : m.head key ++ m.tail key = m.toList := by
  have below := (ascending_toList m).up_to_range (.excluded key)
  rw [head, tail]
  simp only [isGE_eq_not_isLT]
  exact filter_append_filter_not below

/-- There is nothing between a key and itself. -/
theorem sub_self (m : SortedMap κ ν) (key : κ) : m.sub key key = .ok [] := by
  have same : compare key key = .eq := Std.ReflCmp.compare_self
  have ordered : ¬ (compare key key).isGT = true := by
    rw [same]
    exact Bool.false_ne_true
  have nothing : (m.toList.filter fun entry =>
      (compare entry.1 key).isGE && (compare entry.1 key).isLT) = [] := by
    apply List.filter_eq_nil_iff.mpr
    intro entry _ both
    rw [isGE_eq_not_isLT, Bool.not_and_self] at both
    exact Bool.false_ne_true both
  rw [sub, if_neg ordered, nothing]

/-- Of the keys between two others, those below one in the middle. -/
theorem below_between {b c : κ} (b_le_c : (compare b c).isLE = true) (key a : κ) :
    ((compare key b).isLT && ((compare key a).isGE && (compare key c).isLT)) =
      ((compare key a).isGE && (compare key b).isLT) := by
  by_cases below : compare key b = .lt
  · have below' : compare key c = .lt := Std.TransCmp.lt_of_lt_of_isLE below b_le_c
    rw [below, below', Ordering.isLT_lt, Bool.true_and]
  · have fails : (compare key b).isLT = false := by
      rw [Bool.eq_false_iff]
      intro lt
      exact below (Ordering.isLT_iff_eq_lt.mp lt)
    rw [fails, Bool.and_false, Bool.false_and]

/-- Of the keys between two others, those that are not below one in the middle. -/
theorem behind_between {a b : κ} (a_le_b : (compare a b).isLE = true) (key c : κ) :
    (!(compare key b).isLT && ((compare key a).isGE && (compare key c).isLT)) =
      ((compare key b).isGE && (compare key c).isLT) := by
  rw [← isGE_eq_not_isLT]
  by_cases reached : (compare key b).isGE = true
  · have b_ge_a : (compare b a).isGE = true := by
      rw [Std.OrientedCmp.isGE_eq_isLE]
      exact a_le_b
    have reached' : (compare key a).isGE = true := Std.TransCmp.isGE_trans reached b_ge_a
    rw [reached, reached', Bool.true_and, Bool.true_and]
  · rw [Bool.eq_false_iff.mpr reached, Bool.false_and, Bool.false_and]

/-- Two views that meet at a key between make up the view of both. -/
theorem sub_append_sub (m : SortedMap κ ν) {a b c : κ} (ab : ¬ (compare a b).isGT = true)
    (bc : ¬ (compare b c).isGT = true) : ∃ first second,
      m.sub a b = .ok first ∧ m.sub b c = .ok second ∧ m.sub a c = .ok (first ++ second) := by
  have a_le_b := isLE_of_isGT_eq_false ab
  have b_le_c := isLE_of_isGT_eq_false bc
  have ac : ¬ (compare a c).isGT = true := by
    have a_le_c : (compare a c).isLE = true := Std.TransCmp.isLE_trans a_le_b b_le_c
    intro inverted
    rw [Ordering.isGT_iff_eq_gt.mp inverted] at a_le_c
    exact Bool.false_ne_true a_le_c
  rw [sub, if_neg ab, sub, if_neg bc, sub, if_neg ac]
  refine ⟨_, _, rfl, rfl, congrArg Except.ok ?_⟩
  -- the key in the middle cuts the view of both in two
  have between : Ascending (m.toList.filter fun entry =>
      (compare entry.1 a).isGE && (compare entry.1 c).isLT) :=
    List.Pairwise.filter _ (ascending_toList m)
  rw [← filter_append_filter_not (between.up_to_range (.excluded b)), List.filter_filter,
    List.filter_filter]
  congr 1
  · apply List.filter_congr
    intro entry _
    exact below_between b_le_c entry.1 a
  · apply List.filter_congr
    intro entry _
    exact behind_between a_le_b entry.1 c

variable [Std.LawfulEqOrd κ]

/-! ## What the views show -/

/-- That the views of a sorted map show its entries, each of them where it belongs. -/
structure RangeViews (m : SortedMap κ ν) : Prop where
  /-- The listing has every key that the map holds, once and in order. -/
  ascending : Ascending m.toList
  mem_toList_iff : ∀ key v, (key, v) ∈ m.toList ↔ (ordered (.get key) m).1 = some v
  /-- The views below a key and from a key on: what they hold, in the order of the listing. -/
  head_ascending : ∀ limit, Ascending (ordered (.head limit) m).1
  mem_head_iff : ∀ limit key v, (key, v) ∈ (ordered (.head limit) m).1 ↔
    (ordered (.get key) m).1 = some v ∧ compare key limit = .lt
  tail_ascending : ∀ start, Ascending (ordered (.tail start) m).1
  mem_tail_iff : ∀ start key v, (key, v) ∈ (ordered (.tail start) m).1 ↔
    (ordered (.get key) m).1 = some v ∧ compare key start ≠ .lt
  head_append_tail : ∀ key, (ordered (.head key) m).1 ++ (ordered (.tail key) m).1 = m.toList
  /-- The view between two keys is refused exactly if the second one is below the first one. -/
  sub_refused_iff : ∀ start limit,
    (ordered (.sub start limit) m).1 = .error .invertedRange ↔ compare start limit = .gt
  sub_eq_head : ∀ start limit, compare start limit ≠ .gt →
    (ordered (.sub start limit) m).1 =
      .ok ((ordered (.head limit) m).1.filter fun entry => !(compare entry.1 start).isLT)
  sub_eq_tail : ∀ start limit, compare start limit ≠ .gt →
    (ordered (.sub start limit) m).1 =
      .ok ((ordered (.tail start) m).1.filter fun entry => (compare entry.1 limit).isLT)
  sub_self : ∀ key, (ordered (.sub key key) m).1 = .ok []
  /-- Every view is a range, and the bounds of none of them are out of order. -/
  head_in_range : ∀ limit, m.headRange? limit = some (ordered (.head limit) m).1
  tail_in_range : ∀ start, m.tailRange? start = some (ordered (.tail start) m).1
  sub_in_range : ∀ start limit, m.subRange? start limit = some (ordered (.sub start limit) m).1
  sub_append_sub : ∀ a b c, compare a b ≠ .gt → compare b c ≠ .gt → ∃ first second,
    (ordered (.sub a b) m).1 = .ok first ∧ (ordered (.sub b c) m).1 = .ok second ∧
      (ordered (.sub a c) m).1 = .ok (first ++ second)
  /-- Looking at the map does not change it. -/
  kept : ∀ op : MapOp κ ν, (∀ key v, op ≠ .insert key v) → (∀ key, op ≠ .remove key) →
    (ordered op m).2 = m

/-- After any operations on an empty map, its views show the entries, each of them where it
belongs. -/
theorem ordered_rangeViews (ops : List (MapOp κ ν)) :
    RangeViews (ordered.run ops (∅ : SortedMap κ ν)).2 := by
  generalize (ordered.run ops (∅ : SortedMap κ ν)).2 = m
  have listed : ∀ key v, (key, v) ∈ m.toList ↔ m[key]? = some v := by
    intro key v
    exact Std.TreeMap.mem_toList_iff_getElem?_eq_some
  have in_order : ∀ {a b : κ}, compare a b ≠ .gt → ¬ (compare a b).isGT = true := by
    intro a b ne inverted
    exact ne (Ordering.isGT_iff_eq_gt.mp inverted)
  constructor
  case ascending => exact ascending_toList m
  case mem_toList_iff => exact listed
  case head_ascending =>
    intro limit
    exact List.Pairwise.filter _ (ascending_toList m)
  case mem_head_iff =>
    intro limit key v
    show (key, v) ∈ m.head limit ↔ m[key]? = some v ∧ _
    rw [head, List.mem_filter, listed, Ordering.isLT_iff_eq_lt]
  case tail_ascending =>
    intro start
    exact List.Pairwise.filter _ (ascending_toList m)
  case mem_tail_iff =>
    intro start key v
    show (key, v) ∈ m.tail start ↔ m[key]? = some v ∧ _
    rw [tail, List.mem_filter, listed, Ordering.isGE_iff_ne_lt]
  case head_append_tail => exact m.head_append_tail
  case sub_refused_iff =>
    intro start limit
    show m.sub start limit = _ ↔ _
    rw [sub, ← Ordering.isGT_iff_eq_gt]
    by_cases inverted : (compare start limit).isGT = true
    · rw [if_pos inverted]
      exact ⟨fun _ => inverted, fun _ => rfl⟩
    · rw [if_neg inverted]
      constructor
      · intro refused
        cases refused
      · intro greater
        exact absurd greater inverted
  case sub_eq_head =>
    intro start limit ne
    simp only [← isGE_eq_not_isLT]
    exact m.sub_eq_filter_head (in_order ne)
  case sub_eq_tail =>
    intro start limit ne
    exact m.sub_eq_filter_tail (in_order ne)
  case sub_self => exact m.sub_self
  case head_in_range => exact m.headRange?_eq
  case tail_in_range => exact m.tailRange?_eq
  case sub_in_range => exact m.subRange?_eq
  case sub_append_sub =>
    intro a b c ab bc
    exact m.sub_append_sub (in_order ab) (in_order bc)
  case kept =>
    intro op no_insert no_remove
    cases op with
    | insert key v => exact absurd rfl (no_insert key v)
    | remove key => exact absurd rfl (no_remove key)
    | get | contains | size | isEmpty | firstKey | lastKey | head | tail | sub => rfl

/-- Keys with gaps between them, one of them taken out again. -/
def scatteredKeys : List (MapOp Nat Nat) :=
  [.insert 5 50, .insert 1 10, .insert 7 70, .insert 4 40, .insert 3 30, .remove 4]

/-- Bounds that are keys, and one that was a key. -/
theorem rangeViews_of_scatteredKeys :
    RangeViews (ordered.run scatteredKeys ∅).2 ∧
      (ordered (.head 5) (ordered.run scatteredKeys ∅).2).1 = [(1, 10), (3, 30)] ∧
      (ordered (.tail 5) (ordered.run scatteredKeys ∅).2).1 = [(5, 50), (7, 70)] ∧
      (ordered (.sub 3 4) (ordered.run scatteredKeys ∅).2).1 = .ok [(3, 30)] ∧
      (ordered (.sub 4 7) (ordered.run scatteredKeys ∅).2).1 = .ok [(5, 50)] ∧
      (ordered (.sub 7 4) (ordered.run scatteredKeys ∅).2).1 = .error .invertedRange :=
  ⟨ordered_rangeViews scatteredKeys, rfl, rfl, rfl, rfl, rfl⟩

end SortedMap

end Groundwork
