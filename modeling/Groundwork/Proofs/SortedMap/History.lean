import Groundwork.SortedMap.Decorators

/-!
# Sorted maps and their history

All that a sorted map answers is told by the operations before: the last one that wrote a key left
its value.

* `lastWritten`: what the last operation on a key left of it.
* `getElem?_ordered` and `getElem?_run`: one operation writes its own key and no other; hence the
  map holds what was written last.
* `entries_ordered`: what is listed from the first key on is all that the map holds.
* `ordered_congr`: maps with the same values cannot be told apart.
* `LastWriter` and `ordered_lastWriter`: what a sorted map answers after any operations.
-/

namespace Groundwork

variable {κ ν : Type}

/-- The key that an operation is on, if it is on a single one. -/
def MapOp.key? : MapOp κ ν → Option κ
  | .insert key _ | .remove key | .get key | .contains key => some key
  | .size | .isEmpty | .firstKey | .lastKey | .head _ | .tail _ | .sub _ _ => none

namespace SortedMap

/-! ## What was written -/

section

variable [DecidableEq κ]

/-- What an operation leaves of a key if it writes it: the value that it puts in, or nothing where
it takes the key out. -/
def leaves? (key : κ) : MapOp κ ν → Option (Option ν)
  | .insert k v => if k = key then some (some v) else none
  | .remove k => if k = key then some none else none
  | _ => none

/-- What the last of several operations that wrote the key left of it; a key that was never written
has no value. -/
def lastWritten (ops : List (MapOp κ ν)) (key : κ) : Option ν :=
  (ops.filterMap (leaves? key)).getLast?.join

/-- An operation on one key does not write another one. -/
theorem leaves?_of_ne {op : MapOp κ ν} {k key : κ} (on : op.key? = some k) (other : k ≠ key) :
    leaves? key op = none := by
  cases op with
  | insert k' v =>
    obtain rfl : k' = k := Option.some.inj on
    exact if_neg other
  | remove k' =>
    obtain rfl : k' = k := Option.some.inj on
    exact if_neg other
  | _ => rfl

end

variable [Ord κ] [Std.TransOrd κ]

/-! ## Maps that cannot be told apart -/

/-- Maps with the same values answer every operation in the same way, and have the same values
afterwards. -/
theorem ordered_congr {m m' : SortedMap κ ν} (h : m.Equiv m') (op : MapOp κ ν) :
    (ordered op m).1 = (ordered op m').1 ∧ (ordered op m).2.Equiv (ordered op m').2 := by
  cases op with
  | insert key v => exact ⟨h.getElem?_eq, h.insert key v⟩
  | remove key => exact ⟨h.getElem?_eq, h.erase key⟩
  | get key => exact ⟨h.getElem?_eq, h⟩
  | contains key => exact ⟨h.contains_eq, h⟩
  | size => exact ⟨h.size_eq, h⟩
  | isEmpty => exact ⟨h.isEmpty_eq, h⟩
  | firstKey => exact ⟨h.minKey?_eq, h⟩
  | lastKey => exact ⟨h.maxKey?_eq, h⟩
  | head limit => exact ⟨congrArg (List.filter _) h.toList_eq, h⟩
  | tail start => exact ⟨congrArg (List.filter _) h.toList_eq, h⟩
  | sub start limit =>
    refine ⟨?_, h⟩
    show m.sub start limit = m'.sub start limit
    rw [sub, sub, h.toList_eq]

/-- Nor do they in any run. -/
theorem run_congr {m m' : SortedMap κ ν} (h : m.Equiv m') (ops : List (MapOp κ ν)) :
    (ordered.run ops m).1 = (ordered.run ops m').1 ∧
      (ordered.run ops m).2.Equiv (ordered.run ops m').2 := by
  induction ops generalizing m m' with
  | nil => exact ⟨rfl, h⟩
  | cons op ops ih =>
    rcases ordered_congr h op with ⟨answered, after⟩
    rcases ih after with ⟨more, later⟩
    refine ⟨?_, later⟩
    show (⟨op, (ordered op m).1⟩ : (op : MapOp κ ν) × op.Answer) :: _ = ⟨op, _⟩ :: _
    rw [answered, more]

/-- The answer to an operation on a key depends on the value of that key only. -/
theorem answer_congr {op : MapOp κ ν} {key : κ} (on : op.key? = some key) {m m' : SortedMap κ ν}
    (same : m[key]? = m'[key]?) : (ordered op m).1 = (ordered op m').1 := by
  cases op with
  | insert k v =>
    obtain rfl : k = key := Option.some.inj on
    exact same
  | remove k =>
    obtain rfl : k = key := Option.some.inj on
    exact same
  | get k =>
    obtain rfl : k = key := Option.some.inj on
    exact same
  | contains k =>
    obtain rfl : k = key := Option.some.inj on
    show m.contains k = m'.contains k
    rw [Std.TreeMap.contains_eq_isSome_getElem?, Std.TreeMap.contains_eq_isSome_getElem?, same]
  | _ => cases on

variable [Std.LawfulEqOrd κ]

/-! ## What the map holds -/

/-- An operation writes its own key and no other. -/
theorem getElem?_ordered [DecidableEq κ] (op : MapOp κ ν) (m : SortedMap κ ν) (key : κ) :
    (ordered op m).2[key]? = (leaves? key op).getD m[key]? := by
  cases op with
  | insert k v =>
    show (m.insert k v)[key]? = _
    rw [Std.TreeMap.getElem?_insert, leaves?]
    by_cases same : k = key <;> simp [same]
  | remove k =>
    show (m.erase k)[key]? = _
    rw [Std.TreeMap.getElem?_erase, leaves?]
    by_cases same : k = key <;> simp [same]
  | _ => rfl

/-- After operations the map holds what the last one on a key left, and otherwise what it held. -/
theorem getElem?_run [DecidableEq κ] (ops : List (MapOp κ ν)) (m : SortedMap κ ν) (key : κ) :
    (ordered.run ops m).2[key]? = (ops.filterMap (leaves? key)).getLast?.getD m[key]? := by
  induction ops generalizing m with
  | nil => rfl
  | cons op ops ih =>
    show (ordered.run ops (ordered op m).2).2[key]? = _
    rw [ih, getElem?_ordered, List.filterMap_cons]
    cases leaves? key op with
    | none => rfl
    | some left =>
      rw [List.getLast?_cons]
      cases (ops.filterMap (leaves? key)).getLast? <;> rfl

theorem getElem?_run_empty [DecidableEq κ] (ops : List (MapOp κ ν)) (key : κ) :
    (ordered.run ops (∅ : SortedMap κ ν)).2[key]? = lastWritten ops key := by
  rw [getElem?_run, Std.TreeMap.getElem?_emptyc, lastWritten]
  cases (ops.filterMap (leaves? key)).getLast? <;> rfl

/-! ## The listing -/

/-- No key is below the first one, so that nothing is left out of the listing from there on. -/
theorem tail_firstKey {m : SortedMap κ ν} {first : κ} (h : m.minKey? = some first) :
    m.tail first = m.toList := by
  have least := (Std.TreeMap.minKey?_eq_some_iff_mem_and_forall.mp h).2
  apply List.filter_eq_self.mpr
  rintro ⟨key, v⟩ listed
  have held : m[key]? = some v := Std.TreeMap.mem_toList_iff_getElem?_eq_some.mp listed
  have inside : key ∈ m := by
    rw [Std.TreeMap.mem_iff_isSome_getElem?, held]
    rfl
  have le := least key inside
  rw [Std.OrientedCmp.isGE_eq_isLE]
  exact le

/-- What is listed from the first key on is all that the map holds, in order. -/
theorem entries_ordered (m : SortedMap κ ν) : entries ordered m = (m.toList, m) := by
  have answered : ordered .firstKey m = (m.minKey?, m) := rfl
  rw [entries, answered]
  cases first : m.minKey? with
  | some key =>
    show (m.tail key, m) = _
    rw [tail_firstKey first]
  | none =>
    have empty : m.toList = [] := by
      rw [← List.isEmpty_iff, Std.TreeMap.isEmpty_toList]
      exact Std.TreeMap.minKey?_eq_none_iff.mp first
    rw [empty]

/-! ## Swapping -/

/-- Operations on different keys leave the same values in either order. -/
theorem equiv_of_swap {a b : MapOp κ ν} {k l : κ} (first : a.key? = some k)
    (second : b.key? = some l) (other : k ≠ l) (m : SortedMap κ ν) :
    (ordered b (ordered a m).2).2.Equiv (ordered a (ordered b m).2).2 := by
  classical
  apply Std.TreeMap.Equiv.of_forall_constGet?_eq
  intro key
  show (ordered b (ordered a m).2).2[key]? = (ordered a (ordered b m).2).2[key]?
  simp only [getElem?_ordered]
  -- at most one of the two operations writes the key
  by_cases same : k = key
  · have silent : leaves? key b = none := leaves?_of_ne second (by rw [← same]; exact other.symm)
    rw [silent]
    rfl
  · have silent : leaves? key a = none := leaves?_of_ne first same
    rw [silent]
    rfl

/-! ## The last writer -/

/-- What a sorted map answers after operations on it. -/
structure LastWriter [DecidableEq κ] (ops : List (MapOp κ ν)) (m : SortedMap κ ν) : Prop where
  get : ∀ key, ordered (.get key) m = (lastWritten ops key, m)
  /-- Whoever writes a key is told which value it had. -/
  insert : ∀ key v, (ordered (.insert key v) m).1 = (ordered (.get key) m).1
  remove : ∀ key, (ordered (.remove key) m).1 = (ordered (.get key) m).1
  contains_iff : ∀ key, (ordered (.contains key) m).1 = true ↔
    ∃ v, (ordered (.get key) m).1 = some v
  /-- The listing from the first key on has all keys with their values, each once and in order. -/
  ascending : (entries ordered m).1.Pairwise fun a b => compare a.1 b.1 = .lt
  mem_entries_iff : ∀ key v, (key, v) ∈ (entries ordered m).1 ↔
    (ordered (.get key) m).1 = some v
  size : (ordered .size m).1 = (entries ordered m).1.length
  isEmpty_iff : (ordered .isEmpty m).1 = true ↔ (entries ordered m).1 = []
  firstKey : (ordered .firstKey m).1 = (entries ordered m).1.head?.map Prod.fst
  lastKey : (ordered .lastKey m).1 = (entries ordered m).1.getLast?.map Prod.fst
  firstKey_least : ∀ first, (ordered .firstKey m).1 = some first ↔
    (ordered (.contains first) m).1 = true ∧
      ∀ key, (ordered (.contains key) m).1 = true → (compare first key).isLE = true
  lastKey_greatest : ∀ last, (ordered .lastKey m).1 = some last ↔
    (ordered (.contains last) m).1 = true ∧
      ∀ key, (ordered (.contains key) m).1 = true → (compare key last).isLE = true
  /-- An operation on one key leaves the values of all others as they are. -/
  others_kept : ∀ op k key, op.key? = some k → k ≠ key →
    (ordered (.get key) (ordered op m).2).1 = (ordered (.get key) m).1
  /-- Two operations on different keys are answered in the same way in either order, and so is
  whatever comes after them. -/
  swap : ∀ a b k l, a.key? = some k → b.key? = some l → k ≠ l → ∀ more, ∃ later,
    (ordered.run (a :: b :: more) m).1 = ⟨a, (ordered a m).1⟩ :: ⟨b, (ordered b m).1⟩ :: later ∧
    (ordered.run (b :: a :: more) m).1 = ⟨b, (ordered b m).1⟩ :: ⟨a, (ordered a m).1⟩ :: later ∧
    (ordered.run (a :: b :: more) m).2.Equiv (ordered.run (b :: a :: more) m).2

/-- The value of another key is what it was. -/
theorem getElem?_ordered_of_ne {op : MapOp κ ν} {k key : κ} (on : op.key? = some k)
    (other : k ≠ key) (m : SortedMap κ ν) : (ordered op m).2[key]? = m[key]? := by
  classical
  rw [getElem?_ordered, leaves?_of_ne on other]
  rfl

/-- Two operations on different keys can be swapped. -/
theorem run_swap {a b : MapOp κ ν} {k l : κ} (first : a.key? = some k) (second : b.key? = some l)
    (other : k ≠ l) (m : SortedMap κ ν) (more : List (MapOp κ ν)) : ∃ later,
    (ordered.run (a :: b :: more) m).1 = ⟨a, (ordered a m).1⟩ :: ⟨b, (ordered b m).1⟩ :: later ∧
    (ordered.run (b :: a :: more) m).1 = ⟨b, (ordered b m).1⟩ :: ⟨a, (ordered a m).1⟩ :: later ∧
    (ordered.run (a :: b :: more) m).2.Equiv (ordered.run (b :: a :: more) m).2 := by
  have answer_a : (ordered a (ordered b m).2).1 = (ordered a m).1 :=
    answer_congr first (getElem?_ordered_of_ne second other.symm m)
  have answer_b : (ordered b (ordered a m).2).1 = (ordered b m).1 :=
    answer_congr second (getElem?_ordered_of_ne first other m)
  rcases run_congr (equiv_of_swap first second other m) more with ⟨later, after⟩
  refine ⟨(ordered.run more (ordered b (ordered a m).2).2).1, ?_, ?_, after⟩
  · rw [← answer_b]
    rfl
  · rw [← answer_a, later]
    rfl

/-- After any operations on an empty map, it answers as the last of them that wrote a key say. -/
theorem ordered_lastWriter [DecidableEq κ] (ops : List (MapOp κ ν)) :
    LastWriter ops (ordered.run ops (∅ : SortedMap κ ν)).2 := by
  have held := getElem?_run_empty (κ := κ) (ν := ν) ops
  generalize (ordered.run ops (∅ : SortedMap κ ν)).2 = m at held
  have listed : (entries ordered m).1 = m.toList := by rw [entries_ordered]
  have keys : m.toList.map Prod.fst = m.keys := Std.TreeMap.map_fst_toList_eq_keys
  constructor
  · intro key
    rw [← held]
    rfl
  · intro key v
    rfl
  · intro key
    rfl
  · intro key
    show m.contains key = true ↔ ∃ v, m[key]? = some v
    rw [Std.TreeMap.contains_eq_isSome_getElem?, Option.isSome_iff_exists]
  · rw [listed]
    exact Std.TreeMap.ordered_keys_toList
  · intro key v
    rw [listed]
    exact Std.TreeMap.mem_toList_iff_getElem?_eq_some
  · rw [listed]
    exact Std.TreeMap.length_toList.symm
  · rw [listed, ← List.isEmpty_iff, Std.TreeMap.isEmpty_toList]
    rfl
  · rw [listed, ← List.head?_map, keys]
    exact Std.TreeMap.minKey?_eq_head?_keys
  · rw [listed, ← List.getLast?_map, keys]
    exact Std.TreeMap.maxKey?_eq_getLast?_keys
  · intro first
    exact Std.TreeMap.minKey?_eq_some_iff_mem_and_forall
  · intro last
    exact Std.TreeMap.maxKey?_eq_some_iff_mem_and_forall
  · intro op k key on other
    exact getElem?_ordered_of_ne on other m
  · intro a b k l first second other more
    exact run_swap first second other m more

/-- Keys that are written twice, written after they were removed, and removed without having been
there. -/
def rewrittenKeys : List (MapOp Nat Nat) :=
  [.insert 2 20, .insert 1 10, .remove 2, .remove 5, .insert 2 21, .insert 1 11, .remove 1,
    .insert 3 30]

theorem lastWriter_of_rewrittenKeys :
    LastWriter rewrittenKeys (ordered.run rewrittenKeys ∅).2 ∧
      lastWritten rewrittenKeys 2 = some 21 ∧ lastWritten rewrittenKeys 1 = none ∧
      (ordered (.get 2) (ordered.run rewrittenKeys ∅).2).1 = some 21 ∧
      (ordered .size (ordered.run rewrittenKeys ∅).2).1 = 2 :=
  ⟨ordered_lastWriter rewrittenKeys, by decide, by decide, by decide, by decide⟩

end SortedMap

end Groundwork
