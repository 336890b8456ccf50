import Groundwork.Proofs.Bytes.Cursor

/-!
# Where a text goes wrong

A text that cannot be read is refused with the place of one of its bytes. This says which one it is,
in terms of groups and surrogates and without the two passes of the decoder.

* `BadGroup` is a group that is not complete, with the first place where it goes wrong;
  `FirstUnpaired` is the first surrogate without a partner. `Rejected` has both kinds of refusal.
* `codeUnits_eq_error_iff` and `characters_eq_error_iff` are the two passes, `decode_eq_error_iff`
  is both together.
* `rejected_length_iff`: a refusal behind the last byte means that the last group is cut off.
* `collectOr_pairUp`: where a surrogate without a partner is looked up, it is found.
* `Cursor.text_refuses`: a text is refused exactly at these places, told in the whole array.
-/

namespace Groundwork.Bytes

namespace ModifiedUtf8

/-! ## Bad groups -/

/-- How many continuation bytes a group with this first byte has, by its upper four bits. A byte
whose upper four bits are 8 to 11, or 15, begins no group. -/
def continuations? (lead : UInt8) : Option Nat :=
  if lead.toNat / 16 < 8 then some 0
  else if lead.toNat / 16 = 12 ∨ lead.toNat / 16 = 13 then some 1
  else if lead.toNat / 16 = 14 then some 2
  else none

/-- There is a byte at the index, and it is a continuation byte. -/
def ContinuesAt (bytes : List UInt8) (i : Nat) : Prop :=
  ∃ b, bytes[i]? = some b ∧ IsContinuation b

/-- Bytes that begin with no complete group, and the first place where it goes wrong: the first
byte, or the first place for a continuation byte that has none. -/
inductive BadGroup : List UInt8 → Nat → Prop
  | lead {a : UInt8} {rest : List UInt8} (unfit : continuations? a = none) : BadGroup (a :: rest) 0
  | continuation {a : UInt8} {rest : List UInt8} {n j : Nat} (calls : continuations? a = some n)
      (pos : 0 < j) (expected : j ≤ n) (good : ∀ i, 0 < i → i < j → ContinuesAt (a :: rest) i)
      (bad : ¬ ContinuesAt (a :: rest) j) : BadGroup (a :: rest) j

theorem continuations?_eq_some_iff {a : UInt8} {n : Nat} : continuations? a = some n ↔
    n = 0 ∧ a.toNat < 0x80 ∨ n = 1 ∧ a.toNat / 32 = 6 ∨ n = 2 ∧ a.toNat / 16 = 14 := by
  unfold continuations?
  split
  · rw [Option.some.injEq]
    omega
  · split
    · rw [Option.some.injEq]
      omega
    · split
      · rw [Option.some.injEq]
        omega
      · refine iff_of_false (Option.some_ne_none n).symm ?_
        omega

theorem continuations?_eq_none_iff {a : UInt8} : continuations? a = none ↔
    ¬ a.toNat < 0x80 ∧ ¬ a.toNat / 32 = 6 ∧ ¬ a.toNat / 16 = 14 := by
  rw [Option.eq_none_iff_forall_ne_some]
  simp only [Ne, continuations?_eq_some_iff]
  constructor
  · intro h
    exact ⟨fun one => h 0 (.inl ⟨rfl, one⟩), fun two => h 1 (.inr (.inl ⟨rfl, two⟩)),
      fun three => h 2 (.inr (.inr ⟨rfl, three⟩))⟩
  · rintro ⟨one, two, three⟩ n (⟨-, h⟩ | ⟨-, h⟩ | ⟨-, h⟩)
    · exact one h
    · exact two h
    · exact three h

theorem continuation?_eq_none_iff {b : UInt8} : continuation? b = none ↔ ¬ IsContinuation b := by
  rw [Option.eq_none_iff_forall_ne_some]
  simp only [Ne, continuation?_eq_some_iff]
  constructor
  · intro h here
    exact h _ ⟨here, rfl⟩
  · rintro h n ⟨here, -⟩
    exact h here

/-- A place inside a group that is one byte shorter. -/
theorem continuesAt_cons_succ_iff {a : UInt8} {rest : List UInt8} {i : Nat} :
    ContinuesAt (a :: rest) (i + 1) ↔ ContinuesAt rest i := by
  unfold ContinuesAt
  rw [List.getElem?_cons_succ]

theorem continuesAt_cons_zero_iff {b : UInt8} {rest : List UInt8} :
    ContinuesAt (b :: rest) 0 ↔ IsContinuation b := by
  simp [ContinuesAt]

theorem not_continuesAt_nil (i : Nat) : ¬ ContinuesAt [] i := by
  simp [ContinuesAt]

theorem not_continuesAt_cons_iff {b : UInt8} (rest : List UInt8) :
    ¬ ContinuesAt (b :: rest) 0 ↔ continuation? b = none := by
  rw [continuation?_eq_none_iff, continuesAt_cons_zero_iff]

theorem badGroup_second {a : UInt8} {rest : List UInt8} {n : Nat}
    (calls : continuations? a = some n) (expected : 1 ≤ n) (bad : ¬ ContinuesAt rest 0) :
    BadGroup (a :: rest) 1 := by
  refine .continuation calls Nat.one_pos expected ?_ ?_
  · intro i pos below
    omega
  · rwa [continuesAt_cons_succ_iff]

theorem badGroup_third {a b : UInt8} {rest : List UInt8} (calls : continuations? a = some 2)
    (second : IsContinuation b) (bad : ¬ ContinuesAt rest 0) : BadGroup (a :: b :: rest) 2 := by
  refine .continuation calls Nat.two_pos (Nat.le_refl 2) ?_ ?_
  · intro i pos below
    have first : i = 1 := by omega
    rw [first, continuesAt_cons_succ_iff]
    exact continuesAt_cons_zero_iff.mpr second
  · rwa [continuesAt_cons_succ_iff, continuesAt_cons_succ_iff]

/-- The reader refuses a bad group at the place where it goes wrong. -/
theorem BadGroup.codeUnits_eq {bytes : List UInt8} {j : Nat} (h : BadGroup bytes j) (offset : Nat) :
    codeUnits offset bytes = .error (offset + j) := by
  cases h with
  | @lead a rest unfit =>
    rcases continuations?_eq_none_iff.mp unfit with ⟨one, two, three⟩
    rw [codeUnits.eq_def]
    dsimp only
    rw [if_neg one, if_neg two, if_neg three]
    rfl
  | @continuation a rest n j calls pos expected good bad =>
    rcases continuations?_eq_some_iff.mp calls with ⟨rfl, -⟩ | ⟨rfl, two⟩ | ⟨rfl, three⟩
    · omega
    · -- a group of two bytes, which can go wrong at the second one only
      have second : j = 1 := by omega
      rw [second, continuesAt_cons_succ_iff] at bad
      rw [second, codeUnits.eq_def]
      dsimp only
      rw [if_neg (by omega), if_pos two]
      cases rest with
      | nil => rfl
      | cons b rest => simp only [(not_continuesAt_cons_iff rest).mp bad]
    · -- a group of three bytes, which can go wrong at the second one or at the third
      rw [codeUnits.eq_def]
      dsimp only
      rw [if_neg (by omega), if_neg (by omega), if_pos three]
      have place : j = 1 ∨ j = 2 := by omega
      rcases place with rfl | rfl
      · rw [continuesAt_cons_succ_iff] at bad
        cases rest with
        | nil => rfl
        | cons b rest => simp only [(not_continuesAt_cons_iff rest).mp bad]
      · have second := good 1 Nat.one_pos Nat.one_lt_two
        rw [continuesAt_cons_succ_iff] at second bad
        cases rest with
        | nil => exact absurd second (not_continuesAt_nil 0)
        | cons b rest =>
          rw [continuesAt_cons_zero_iff] at second
          rw [continuesAt_cons_succ_iff] at bad
          have middle : continuation? b = some (b.toNat - 0x80) :=
            continuation?_eq_some_iff.mpr ⟨second, rfl⟩
          simp only [middle]
          cases rest with
          | nil => rfl
          | cons c rest => simp only [(not_continuesAt_cons_iff rest).mp bad]

/-- Groups, and a bad group behind them that goes wrong at a place. -/
def StopsAt (bytes : List UInt8) (bad : Nat) : Prop :=
  ∃ front rest us j, bytes = front ++ rest ∧ Groups front us ∧ BadGroup rest j ∧
    bad = front.length + j

theorem BadGroup.stopsAt {bytes : List UInt8} {j : Nat} (h : BadGroup bytes j) : StopsAt bytes j :=
  ⟨[], bytes, [], j, rfl, .nil, h, (Nat.zero_add j).symm⟩

/-- Another group in front puts the place further on. -/
theorem StopsAt.cons {group bytes : List UInt8} {u : UInt16} {bad : Nat} (first : Group group u)
    (h : StopsAt bytes bad) : StopsAt (group ++ bytes) (group.length + bad) := by
  rcases h with ⟨front, rest, us, j, rfl, groups, wrong, rfl⟩
  refine ⟨group ++ front, rest, u :: us, j, (List.append_assoc _ _ _).symm, .cons first groups,
    wrong, ?_⟩
  rw [List.length_append, Nat.add_assoc]

/-- Whatever the reader refuses is groups with a bad group behind them. -/
theorem exists_stopsAt {offset place : Nat} {bytes : List UInt8}
    (h : codeUnits offset bytes = .error place) :
    ∃ bad, place = offset + bad ∧ StopsAt bytes bad := by
  -- a group in front of bytes that stop somewhere
  have onward {group rest : List UInt8} {u : UInt16} {offset : Nat} (first : Group group u)
      (ih : ∃ bad, place = offset + group.length + bad ∧ StopsAt rest bad) :
      ∃ bad, place = offset + bad ∧ StopsAt (group ++ rest) bad := by
    rcases ih with ⟨bad, rfl, stops⟩
    exact ⟨group.length + bad, Nat.add_assoc _ _ _, stops.cons first⟩
  fun_induction codeUnits offset bytes with
  | case1 => cases h
  | case2 offset lead rest one ih => exact onward (group_one one) (ih (map_eq_error_iff.mp h))
  | case3 offset lead one two =>
    have calls := continuations?_eq_some_iff.mpr (.inr (.inl ⟨rfl, two⟩))
    have wrong := badGroup_second calls (Nat.le_refl 1) (not_continuesAt_nil 0)
    exact ⟨1, (Except.error.inj h).symm, wrong.stopsAt⟩
  | case4 offset lead one two second rest missing =>
    have calls := continuations?_eq_some_iff.mpr (.inr (.inl ⟨rfl, two⟩))
    have wrong := badGroup_second calls (Nat.le_refl 1)
      ((not_continuesAt_cons_iff rest).mpr missing)
    exact ⟨1, (Except.error.inj h).symm, wrong.stopsAt⟩
  | case5 offset lead one two second rest low hlow ih =>
    exact onward (group_two two hlow) (ih (map_eq_error_iff.mp h))
  | case6 offset lead one two three =>
    have calls := continuations?_eq_some_iff.mpr (.inr (.inr ⟨rfl, three⟩))
    have wrong := badGroup_second calls (Nat.le_succ 1) (not_continuesAt_nil 0)
    exact ⟨1, (Except.error.inj h).symm, wrong.stopsAt⟩
  | case7 offset lead one two three second rest missing =>
    have calls := continuations?_eq_some_iff.mpr (.inr (.inr ⟨rfl, three⟩))
    have wrong := badGroup_second calls (Nat.le_succ 1)
      ((not_continuesAt_cons_iff rest).mpr missing)
    exact ⟨1, (Except.error.inj h).symm, wrong.stopsAt⟩
  | case8 offset lead one two three second middle hmiddle =>
    have calls := continuations?_eq_some_iff.mpr (.inr (.inr ⟨rfl, three⟩))
    have wrong := badGroup_third calls (continuation?_eq_some_iff.mp hmiddle).1
      (not_continuesAt_nil 0)
    exact ⟨2, (Except.error.inj h).symm, wrong.stopsAt⟩
  | case9 offset lead one two three second middle hmiddle third rest missing =>
    have calls := continuations?_eq_some_iff.mpr (.inr (.inr ⟨rfl, three⟩))
    have wrong := badGroup_third calls (continuation?_eq_some_iff.mp hmiddle).1
      ((not_continuesAt_cons_iff rest).mpr missing)
    exact ⟨2, (Except.error.inj h).symm, wrong.stopsAt⟩
  | case10 offset lead one two three second middle hmiddle third rest low hlow ih =>
    exact onward (group_three three hmiddle hlow) (ih (map_eq_error_iff.mp h))
  | case11 offset lead rest one two three =>
    have unfit := continuations?_eq_none_iff.mpr ⟨one, two, three⟩
    have wrong : BadGroup (lead :: rest) 0 := .lead unfit
    exact ⟨0, (Except.error.inj h).symm, wrong.stopsAt⟩

/-- The first pass of the decoder refuses groups with a bad group behind them, and nothing else. -/
theorem codeUnits_eq_error_iff {offset bad : Nat} {bytes : List UInt8} :
    codeUnits offset bytes = .error (offset + bad) ↔ StopsAt bytes bad := by
  constructor
  · intro h
    rcases exists_stopsAt h with ⟨place, same, stops⟩
    rwa [Nat.add_left_cancel same]
  · rintro ⟨front, rest, us, j, rfl, groups, wrong, rfl⟩
    rcases groups.exists_units offset with ⟨units, -, taken⟩
    rw [taken, wrong.codeUnits_eq, Nat.add_assoc]
    rfl

/-! ## Surrogates without a partner -/

/-- At an index there is the first of a pair of surrogates without the second one behind it, or the
second one without the first one before it. -/
def Unpaired (us : List UInt16) (k : Nat) : Prop :=
  us[k]?.any isHighSurrogate = true ∧ ¬ us[k + 1]?.any isLowSurrogate = true ∨
    us[k]?.any isLowSurrogate = true ∧ ∀ j, j + 1 = k → ¬ us[j]?.any isHighSurrogate = true

/-- The first index where a surrogate has no partner. -/
def FirstUnpaired (us : List UInt16) (k : Nat) : Prop :=
  Unpaired us k ∧ ∀ j, j < k → ¬ Unpaired us j

theorem FirstUnpaired.unique {us : List UInt16} {j k : Nat} (hj : FirstUnpaired us j)
    (hk : FirstUnpaired us k) : j = k := by
  rcases Nat.lt_trichotomy j k with lt | eq | lt
  · exact absurd hj.1 (hk.2 j lt)
  · exact eq
  · exact absurd hk.1 (hj.2 k lt)

theorem not_low_of_high {u : UInt16} (high : isHighSurrogate u = true) :
    ¬ isLowSurrogate u = true := by
  rw [isHighSurrogate_iff] at high
  rw [isLowSurrogate_iff]
  omega

theorem unpaired_zero_iff {u : UInt16} {us : List UInt16} : Unpaired (u :: us) 0 ↔
    isHighSurrogate u = true ∧ ¬ us.head?.any isLowSurrogate = true ∨ isLowSurrogate u = true := by
  simp [Unpaired, List.head?_eq_getElem?]

/-- A unit in front of others puts their indices up by one. It is the partner of none of them,
unless it is the first of a pair and stands right before. -/
theorem unpaired_cons_iff {u : UInt16} {us : List UInt16} {k : Nat}
    (apart : k = 0 → ¬ isHighSurrogate u = true) :
    Unpaired (u :: us) (k + 1) ↔ Unpaired us k := by
  have before : (∀ j, j + 1 = k + 1 → ¬ (u :: us)[j]?.any isHighSurrogate = true) ↔
      ∀ j, j + 1 = k → ¬ us[j]?.any isHighSurrogate = true := by
    constructor
    · rintro h j rfl
      exact h (j + 1) rfl
    · intro h j same
      cases j with
      | zero => exact apart (Nat.succ.inj same).symm
      | succ j => exact h j (Nat.succ.inj same)
  unfold Unpaired
  rw [before]
  simp only [List.getElem?_cons_succ]

/-- The surrogates without a partner among some units are those among the units behind the first `n`
of them. -/
def PairedUpTo (n : Nat) (units rest : List UInt16) : Prop :=
  ∀ k, Unpaired units k ↔ ∃ j, k = j + n ∧ Unpaired rest j

theorem pairedUpTo_pair {u v : UInt16} (high : isHighSurrogate u = true)
    (low : isLowSurrogate v = true) (us : List UInt16) : PairedUpTo 2 (u :: v :: us) us := by
  have second : ¬ isHighSurrogate v = true := fun h => not_low_of_high h low
  rintro (_ | _ | k)
  · refine iff_of_false ?_ (by rintro ⟨j, h, -⟩; omega)
    rw [unpaired_zero_iff]
    rintro (⟨-, alone⟩ | lowFirst)
    · exact alone low
    · exact not_low_of_high high lowFirst
  · refine iff_of_false ?_ (by rintro ⟨j, h, -⟩; omega)
    rintro (⟨highSecond, -⟩ | ⟨-, alone⟩)
    · exact second highSecond
    · exact alone 0 rfl high
  · rw [unpaired_cons_iff (fun h => absurd h (Nat.succ_ne_zero k)),
      unpaired_cons_iff fun _ => second]
    simp

theorem pairedUpTo_char {u : UInt16} (high : ¬ isHighSurrogate u = true)
    (low : ¬ isLowSurrogate u = true) (us : List UInt16) : PairedUpTo 1 (u :: us) us := by
  rintro (_ | k)
  · refine iff_of_false ?_ (by rintro ⟨j, h, -⟩; omega)
    rw [unpaired_zero_iff]
    rintro (⟨highFirst, -⟩ | lowFirst)
    · exact high highFirst
    · exact low lowFirst
  · rw [unpaired_cons_iff fun _ => high]
    simp

theorem PairedUpTo.firstUnpaired {n k : Nat} {units rest : List UInt16}
    (h : PairedUpTo n units rest) (first : FirstUnpaired rest k) : FirstUnpaired units (k + n) := by
  refine ⟨(h _).mpr ⟨k, rfl, first.1⟩, ?_⟩
  intro j below alone
  rcases (h j).mp alone with ⟨i, rfl, alone'⟩
  exact first.2 i (Nat.lt_of_add_lt_add_right below) alone'

theorem firstUnpaired_zero {us : List UInt16} (h : Unpaired us 0) : FirstUnpaired us 0 :=
  ⟨h, fun j below => absurd below (Nat.not_lt_zero j)⟩

/-- In a text every surrogate has its partner. -/
theorem not_unpaired_of_characters {units : List CodeUnit} {s : List Char}
    (h : characters units = .ok s) (k : Nat) : ¬ Unpaired (units.map CodeUnit.value) k := by
  fun_induction characters units generalizing s k with
  | case1 => simp [Unpaired]
  | case2 | case4 | case5 => cases h
  | case3 u high v rest low ih =>
    rcases map_eq_ok_iff.mp h with ⟨more, hmore, -⟩
    rw [List.map_cons, List.map_cons, pairedUpTo_pair high low]
    rintro ⟨j, -, alone⟩
    exact ih hmore j alone
  | case6 u rest high low ih =>
    rcases map_eq_ok_iff.mp h with ⟨more, hmore, -⟩
    rw [List.map_cons, pairedUpTo_char high low]
    rintro ⟨j, -, alone⟩
    exact ih hmore j alone

/-- Units that are no text are refused at the first surrogate without a partner. -/
theorem exists_firstUnpaired_of_characters {units : List CodeUnit} {bad : Nat}
    (h : characters units = .error bad) : ∃ k u, units[k]? = some u ∧
      FirstUnpaired (units.map CodeUnit.value) k ∧ u.offset = bad := by
  fun_induction characters units with
  | case1 => cases h
  | case2 u high =>
    refine ⟨0, u, rfl, firstUnpaired_zero ?_, Except.error.inj h⟩
    exact unpaired_zero_iff.mpr (.inl ⟨high, Bool.false_ne_true⟩)
  | case3 u high v rest low ih =>
    -- a pair puts the index up by two, any other character by one
    rcases ih (map_eq_error_iff.mp h) with ⟨k, w, here, first, place⟩
    exact ⟨k + 2, w, here, (pairedUpTo_pair high low _).firstUnpaired first, place⟩
  | case4 u high v rest low =>
    refine ⟨0, u, rfl, firstUnpaired_zero ?_, Except.error.inj h⟩
    exact unpaired_zero_iff.mpr (.inl ⟨high, low⟩)
  | case5 u rest high low =>
    exact ⟨0, u, rfl, firstUnpaired_zero (unpaired_zero_iff.mpr (.inr low)), Except.error.inj h⟩
  | case6 u rest high low ih =>
    rcases ih (map_eq_error_iff.mp h) with ⟨k, w, here, first, place⟩
    exact ⟨k + 1, w, here, (pairedUpTo_char high low _).firstUnpaired first, place⟩

/-- The second pass of the decoder refuses units at the first surrogate without a partner, and
nowhere else. -/
theorem characters_eq_error_iff {units : List CodeUnit} {bad : Nat} :
    characters units = .error bad ↔ ∃ k u, units[k]? = some u ∧
      FirstUnpaired (units.map CodeUnit.value) k ∧ u.offset = bad := by
  constructor
  · exact exists_firstUnpaired_of_characters
  · rintro ⟨k, u, here, first, rfl⟩
    cases h : characters units with
    | ok s => exact absurd first.1 (not_unpaired_of_characters h k)
    | error bad =>
      rcases exists_firstUnpaired_of_characters h with ⟨j, v, there, first', rfl⟩
      rw [first.unique first'] at here
      rw [Option.some.inj (here.symm.trans there)]

/-! ## Both passes -/

/-- Groups can be split behind any number of them. -/
theorem Groups.exists_split {bytes : List UInt8} {us : List UInt16} (h : Groups bytes us)
    (k : Nat) :
    ∃ front rest, bytes = front ++ rest ∧ Groups front (us.take k) ∧ Groups rest (us.drop k) := by
  induction h generalizing k with
  | nil => exact ⟨[], [], rfl, by rw [List.take_nil]; exact .nil, by rw [List.drop_nil]; exact .nil⟩
  | @cons group rest u us first more ih =>
    cases k with
    | zero => exact ⟨[], group ++ rest, rfl, .nil, .cons first more⟩
    | succ k =>
      rcases ih k with ⟨front, behind, rfl, before, after⟩
      exact ⟨group ++ front, behind, (List.append_assoc _ _ _).symm, .cons first before, after⟩

/-- The unit of a group is told with the place of its first byte. -/
theorem exists_unit_of_split {front rest : List UInt8} {us : List UInt16} {k : Nat} {u : UInt16}
    (before : Groups front (us.take k)) (behind : Groups rest (us.drop k)) (here : us[k]? = some u)
    (offset : Nat) : ∃ units, codeUnits offset (front ++ rest) = .ok units ∧
      units.map CodeUnit.value = us ∧ units[k]? = some ⟨u, offset + front.length⟩ := by
  rcases List.getElem?_eq_some_iff.mp here with ⟨inside, value⟩
  have next : us.drop k = u :: us.drop (k + 1) := by rw [List.drop_eq_getElem_cons inside, value]
  rcases before.exists_units offset with ⟨units, values, taken⟩
  have count : units.length = k := by
    have length := congrArg List.length values
    rw [List.length_map, List.length_take] at length
    omega
  rw [next] at behind
  cases behind with
  | @cons group tail _ _ first more =>
    rcases more.exists_codeUnits (offset + front.length + group.length) with ⟨others, read, values'⟩
    refine ⟨units ++ ⟨u, offset + front.length⟩ :: others, ?_, ?_, ?_⟩
    · rw [taken, codeUnits_append first, read]
      rfl
    · rw [List.map_append, List.map_cons, values, values', ← next, List.take_append_drop]
    · rw [← count, List.getElem?_append_right (Nat.le_refl _), Nat.sub_self]
      rfl

/-- Why and where bytes are refused as a text: at the first bad group, or, if there is none, at the
group of the first surrogate without a partner. -/
inductive Rejected (body : List UInt8) (bad : Nat) : Prop
  | structural (stops : StopsAt body bad)
  | surrogate {front rest : List UInt8} {us : List UInt16} {k : Nat} (split : body = front ++ rest)
      (before : Groups front (us.take k)) (behind : Groups rest (us.drop k))
      (first : FirstUnpaired us k) (place : bad = front.length)

theorem Unpaired.exists_unit {us : List UInt16} {k : Nat} (h : Unpaired us k) :
    ∃ u, us[k]? = some u := by
  cases here : us[k]? with
  | some u => exact ⟨u, rfl⟩
  | none => simp [Unpaired, here] at h

/-- The decoder refuses bytes at these places, and nowhere else. -/
theorem decode_eq_error_iff {body : List UInt8} {bad : Nat} :
    decode body = .error bad ↔ Rejected body bad := by
  unfold decode
  constructor
  · intro h
    split at h
    · rename_i units read
      rcases characters_eq_error_iff.mp h with ⟨k, u, here, first, rfl⟩
      rcases (groups_of_codeUnits read).exists_split k with ⟨front, rest, rfl, before, behind⟩
      have value : (units.map CodeUnit.value)[k]? = some u.value := by
        rw [List.getElem?_map, here, Option.map_some]
      rcases exists_unit_of_split before behind value 0 with ⟨units', read', -, there⟩
      rw [Except.ok.inj (read'.symm.trans read), here, Nat.zero_add] at there
      exact .surrogate rfl before behind first (congrArg CodeUnit.offset (Option.some.inj there))
    · rename_i place stopped
      rcases exists_stopsAt stopped with ⟨bad', rfl, stops⟩
      rw [← Except.error.inj h, Nat.zero_add]
      exact .structural stops
  · rintro (stops | @⟨front, rest, us, k, rfl, before, behind, first, rfl⟩)
    · have stopped : codeUnits 0 body = .error (0 + bad) := codeUnits_eq_error_iff.mpr stops
      rw [stopped, Nat.zero_add]
    · rcases first.1.exists_unit with ⟨u, here⟩
      rcases exists_unit_of_split before behind here 0 with ⟨units, read, rfl, there⟩
      rw [read, Nat.zero_add] at *
      exact characters_eq_error_iff.mpr ⟨k, _, there, first, rfl⟩

/-- Behind a pair of surrogates, the first of two first halves is the bad one. -/
example : decode [0x41, 0xed, 0xa0, 0xbd, 0xed, 0xb8, 0x80, 0xed, 0xa0, 0x80, 0xed, 0xa0, 0x80] =
    .error 7 := rfl

/-! ## The end of the body -/

/-- The bytes end within their last group, and are good as far as they go. -/
def CutOff (body : List UInt8) : Prop :=
  ∃ front a rest us n, body = front ++ a :: rest ∧ Groups front us ∧ continuations? a = some n ∧
    rest.length < n ∧ ∀ b ∈ rest, IsContinuation b

theorem continuesAt_of_forall {rest : List UInt8} (good : ∀ b ∈ rest, IsContinuation b) {i : Nat}
    (inside : i < rest.length) : ContinuesAt rest i :=
  ⟨rest[i], List.getElem?_eq_getElem inside, good _ (List.getElem_mem inside)⟩

theorem forall_of_continuesAt {rest : List UInt8} (good : ∀ i, i < rest.length → ContinuesAt rest i)
    {b : UInt8} (here : b ∈ rest) : IsContinuation b := by
  rcases List.getElem_of_mem here with ⟨i, inside, rfl⟩
  rcases good i inside with ⟨b, found, continues⟩
  rw [List.getElem?_eq_getElem inside] at found
  rwa [Option.some.inj found]

/-- A refusal is behind the last byte exactly if the last group is cut off there. -/
theorem rejected_length_iff {body : List UInt8} : Rejected body body.length ↔ CutOff body := by
  constructor
  · rintro (⟨front, rest, us, j, rfl, groups, wrong, place⟩ |
      @⟨front, rest, us, k, rfl, before, behind, first, place⟩)
    · rw [List.length_append] at place
      have last := Nat.add_left_cancel place
      cases wrong with
      | lead unfit => cases last
      | @continuation a rest n j calls pos expected good bad =>
        rw [List.length_cons] at last
        subst last
        refine ⟨front, a, rest, us, n, rfl, groups, calls, expected, ?_⟩
        intro b here
        refine forall_of_continuesAt ?_ here
        intro i inside
        exact continuesAt_cons_succ_iff.mp
          (good (i + 1) (Nat.succ_pos i) (Nat.succ_lt_succ inside))
    · -- a surrogate is refused at the first byte of its group
      have nothing : rest = [] := by
        rw [List.length_append] at place
        exact List.length_eq_zero_iff.mp (by omega)
      rcases first.1.exists_unit with ⟨u, here⟩
      rcases List.getElem?_eq_some_iff.mp here with ⟨inside, -⟩
      rw [nothing, List.drop_eq_getElem_cons inside] at behind
      generalize hbytes : ([] : List UInt8) = bytes at behind
      cases behind with
      | cons group more =>
        cases group with
        | one | two | three => cases hbytes
  · rintro ⟨front, a, rest, us, n, rfl, groups, calls, short, good⟩
    refine .structural ⟨front, a :: rest, us, rest.length + 1, rfl, groups, ?_, ?_⟩
    · refine .continuation calls (Nat.succ_pos _) short ?_ ?_
      · rintro (_ | i) pos below
        · cases pos
        · exact continuesAt_cons_succ_iff.mpr
            (continuesAt_of_forall good (Nat.lt_of_succ_lt_succ below))
      · rw [continuesAt_cons_succ_iff]
        rintro ⟨b, found, -⟩
        rw [List.getElem?_eq_none (Nat.le_refl _)] at found
        cases found
    · rw [List.length_append, List.length_cons]

/-! ## Where a surrogate is looked up -/

theorem ok_cons_eq {c : Char} {tail others : List (Except UInt16 Char)} {s : List Char} {u : UInt16}
    (h : .ok c :: tail = s.map Except.ok ++ .error u :: others) :
    ∃ more, s = c :: more ∧ tail = more.map Except.ok ++ .error u :: others := by
  cases s with
  | nil => cases List.head_eq_of_cons_eq h
  | cons d more =>
    rcases List.cons.inj h with ⟨first, rest⟩
    exact ⟨more, by rw [Except.ok.inj first], rest⟩

theorem error_cons_eq {v u : UInt16} {tail others : List (Except UInt16 Char)} {s : List Char}
    (h : .error v :: tail = s.map Except.ok ++ .error u :: others) : s = [] ∧ v = u := by
  cases s with
  | nil => exact ⟨rfl, Except.error.inj (List.head_eq_of_cons_eq h)⟩
  | cons d more => cases List.head_eq_of_cons_eq h

/-- The units before a surrogate without a partner are those of the characters before it. -/
theorem exists_of_pairUp {us : List UInt16} {s : List Char} {u : UInt16}
    {others : List (Except UInt16 Char)} (h : pairUp us = s.map Except.ok ++ .error u :: others) :
    ∃ rest, us = s.flatMap unitsOfChar ++ u :: rest := by
  fun_induction pairUp us generalizing s with
  | case1 => simp at h
  | case2 v =>
    split at h
    · rcases error_cons_eq h with ⟨rfl, rfl⟩
      exact ⟨[], rfl⟩
    · rcases ok_cons_eq h with ⟨more, -, later⟩
      simp at later
  | case3 v w rest high low ih =>
    rcases ok_cons_eq h with ⟨more, rfl, later⟩
    rcases ih later with ⟨behind, rfl⟩
    refine ⟨behind, ?_⟩
    rw [List.flatMap_cons, unitsOfChar_pairedChar high low]
    rfl
  | case4 v w rest high low ih =>
    -- the first error ends the characters, so what is paired up behind it does not matter
    rcases error_cons_eq h with ⟨rfl, rfl⟩
    exact ⟨w :: rest, rfl⟩
  | case5 v w rest high low ih =>
    rcases error_cons_eq h with ⟨rfl, rfl⟩
    exact ⟨w :: rest, rfl⟩
  | case6 v w rest high low ih =>
    rcases ok_cons_eq h with ⟨more, rfl, later⟩
    rcases ih later with ⟨behind, units⟩
    refine ⟨behind, ?_⟩
    rw [List.flatMap_cons, unitsOfChar_ofNat high low, units]
    rfl

/-- Collects characters as `collect` does, with `fallback` as the answer where the surrogate that is
looked up is not there. -/
def collectOr (fallback limit : Nat) (units : List CodeUnit) (consumed : Nat) :
    List (Except UInt16 Char) → Option (Except Nat (List Char))
  | [] => some (.ok [])
  | .error _ :: _ => some (.error ((units[consumed]?.map CodeUnit.offset).getD fallback))
  | .ok c :: rest =>
    inWord limit (consumed + (unitsOfChar c).length) <|
      (collectOr fallback limit units (consumed + (unitsOfChar c).length) rest).map
        (Except.map (c :: ·))

theorem collectOr_zero (limit : Nat) (units : List CodeUnit) (consumed : Nat)
    (found : List (Except UInt16 Char)) :
    collectOr 0 limit units consumed found = collect limit units consumed found := by
  induction found generalizing consumed with
  | nil => rfl
  | cons first rest ih =>
    cases first with
    | error u => rfl
    | ok c => rw [collectOr, collect, ih]

/-- If there is a unit where the first surrogate without a partner is looked up, it does not matter
what the answer would be otherwise. -/
theorem collectOr_eq {limit : Nat} {units : List CodeUnit} {consumed : Nat}
    {found : List (Except UInt16 Char)}
    (there : ∀ (s : List Char) u others, found = s.map Except.ok ++ .error u :: others →
      ∃ unit, units[consumed + (s.flatMap unitsOfChar).length]? = some unit)
    (fallback fallback' : Nat) : collectOr fallback limit units consumed found =
      collectOr fallback' limit units consumed found := by
  induction found generalizing consumed with
  | nil => rfl
  | cons first rest ih =>
    cases first with
    | error u =>
      rcases there [] u rest rfl with ⟨unit, here⟩
      rw [List.flatMap_nil, List.length_nil, Nat.add_zero] at here
      rw [collectOr, collectOr, here]
      rfl
    | ok c =>
      rw [collectOr, collectOr, ih]
      intro s u others split
      rcases there (c :: s) u others (congrArg (.ok c :: ·) split) with ⟨unit, here⟩
      rw [List.flatMap_cons, List.length_append, ← Nat.add_assoc] at here
      exact ⟨unit, here⟩

/-- The first surrogate without a partner is among the units where it is looked up. -/
theorem exists_unit_of_pairUp {units : List CodeUnit} {s : List Char} {u : UInt16}
    {others : List (Except UInt16 Char)}
    (h : pairUp (units.map CodeUnit.value) = s.map Except.ok ++ .error u :: others) :
    ∃ unit, units[(s.flatMap unitsOfChar).length]? = some unit ∧ unit.value = u := by
  rcases exists_of_pairUp h with ⟨rest, values⟩
  have found : (units.map CodeUnit.value)[(s.flatMap unitsOfChar).length]? = some u := by
    rw [values, List.getElem?_append_right (Nat.le_refl _), Nat.sub_self]
    rfl
  rw [List.getElem?_map] at found
  exact Option.map_eq_some_iff.mp found

/-- So its place is never made up. -/
theorem collectOr_pairUp (fallback limit : Nat) (units : List CodeUnit) :
    collectOr fallback limit units 0 (pairUp (units.map CodeUnit.value)) =
      collect limit units 0 (pairUp (units.map CodeUnit.value)) := by
  rw [← collectOr_zero]
  refine collectOr_eq ?_ fallback 0
  intro s u others paired
  rcases exists_unit_of_pairUp paired with ⟨unit, here, -⟩
  rw [Nat.zero_add]
  exact ⟨unit, here⟩

end ModifiedUtf8

/-! ## Texts -/

namespace Cursor

open ModifiedUtf8

/-- How the cursor refuses a text whose body is there in full and begins at `start`. The places are
told in the whole array. -/
structure RefusesText (limit : Nat) (c : Cursor) (start : Nat) (body : List UInt8) : Prop where
  answered : ∃ answer after, c.text limit = some (answer, after)
  /-- A text is refused at the places of the rule, for no other reason, and the cursor stays. -/
  refused : ∀ e after, c.text limit = some (.error e, after) ↔
    after = c ∧ ∃ bad, Rejected body bad ∧ e = .malformedText (start + bad)
  one_place : ∀ bad bad', Rejected body bad → Rejected body bad' → bad = bad'
  /-- A bad group is reported whatever the groups before it carry. -/
  structural_first : ∀ front rest us j, body = front ++ rest → Groups front us → BadGroup rest j →
    c.text limit = some (.error (.malformedText (start + (front.length + j))), c)
  /-- Without a bad group the first surrogate without a partner is reported, where its group
  begins. -/
  surrogate : ∀ us k, Groups body us → FirstUnpaired us k → ∃ front rest, body = front ++ rest ∧
    Groups front (us.take k) ∧ Groups rest (us.drop k) ∧
      c.text limit = some (.error (.malformedText (start + front.length)), c)
  /-- The place is behind the body exactly if the body ends within a group that is good so far. -/
  within : ∀ bad, Rejected body bad →
    bad ≤ body.length ∧ (bad = body.length ↔ CutOff body)
  /-- The answer of the decoder where no surrogate is found in its place is never given. -/
  fallback_unused : ∀ fallback units, scan limit body 0 = some (.ok units) →
    collectOr fallback limit units 0 (pairUp (units.map CodeUnit.value)) = decodeAt limit body

/-- A text whose body is there in full is what the decoder makes of the body. -/
theorem text_of_body {limit : Nat} {c : Cursor} (inside : c.InRange)
    (fits : c.bytes.length < limit) {n : Nat}
    (length : bigEndianValue ((c.bytes.drop c.position).take 2) = n)
    (enough : c.position + 2 + n ≤ c.bytes.length) : c.text limit =
      some (match decode ((c.bytes.drop (c.position + 2)).take n) with
        | .ok s => (.ok (String.ofList s), c.moveTo (c.position + (2 + n)))
        | .error bad => (.error (.malformedText (c.position + 2 + bad)), c)) := by
  have remaining : 2 + n ≤ c.reader.remaining := by
    rw [remaining_reader, left]
    omega
  have body : c.reader.rest.drop 2 = c.bytes.drop (c.position + 2) := List.drop_drop
  rw [text_eq inside fits, Reader.text_eq length remaining, body]
  cases decode ((c.bytes.drop (c.position + 2)).take n) with
  | ok s => rfl
  | error bad => rfl

/-- A text whose body is there in full is refused by the rule, at the places of the rule in the
whole array, whatever is around the body. -/
theorem text_refuses {limit : Nat} {c : Cursor} (inside : c.InRange)
    (fits : c.bytes.length < limit) {n : Nat}
    (length : bigEndianValue ((c.bytes.drop c.position).take 2) = n)
    (enough : c.position + 2 + n ≤ c.bytes.length) :
    RefusesText limit c (c.position + 2) ((c.bytes.drop (c.position + 2)).take n) := by
  have read := text_of_body inside fits length enough
  generalize (c.bytes.drop (c.position + 2)).take n = body at read
  have told {bad : Nat} (rejected : Rejected body bad) :
      c.text limit = some (.error (.malformedText (c.position + 2 + bad)), c) := by
    rw [read, decode_eq_error_iff.mpr rejected]
  constructor
  case answered => exact ⟨_, _, read⟩
  case refused =>
    intro e after
    constructor
    · intro h
      rw [read] at h
      cases decoded : decode body with
      | ok s =>
        rw [decoded] at h
        cases h
      | error bad =>
        rw [decoded] at h
        cases h
        exact ⟨rfl, bad, decode_eq_error_iff.mp decoded, rfl⟩
    · rintro ⟨rfl, bad, rejected, rfl⟩
      exact told rejected
  case one_place =>
    intro bad bad' h h'
    have same := (decode_eq_error_iff.mpr h).symm.trans (decode_eq_error_iff.mpr h')
    exact Except.error.inj same
  case structural_first =>
    intro front rest us j split groups wrong
    exact told (.structural ⟨front, rest, us, j, split, groups, wrong, rfl⟩)
  case surrogate =>
    intro us k groups first
    rcases groups.exists_split k with ⟨front, rest, split, before, behind⟩
    exact ⟨front, rest, split, before, behind, told (.surrogate split before behind first rfl)⟩
  case within =>
    intro bad rejected
    refine ⟨decode_error_le (decode_eq_error_iff.mpr rejected), ?_⟩
    rw [← rejected_length_iff]
    constructor
    · rintro rfl
      exact rejected
    · intro last
      have same := (decode_eq_error_iff.mpr rejected).symm.trans (decode_eq_error_iff.mpr last)
      exact Except.error.inj same
  case fallback_unused =>
    intro fallback units scanned
    rw [collectOr_pairUp, decodeAt, scanned]
    rfl

/-- A surrogate without a partner, and a group behind it that the end of the body cuts off. The
array goes on with a continuation byte. -/
theorem refusesText_of_cut_group :
    RefusesText 12 ⟨[7, 0, 6, 0x41, 0xed, 0xa0, 0x80, 0xe2, 0x82, 0xac, 0x42], 1⟩ 3
      [0x41, 0xed, 0xa0, 0x80, 0xe2, 0x82] ∧
    (Cursor.mk [7, 0, 6, 0x41, 0xed, 0xa0, 0x80, 0xe2, 0x82, 0xac, 0x42] 1).text 12 =
      some (.error (.malformedText 9),
        ⟨[7, 0, 6, 0x41, 0xed, 0xa0, 0x80, 0xe2, 0x82, 0xac, 0x42], 1⟩) := by
  have inside : (Cursor.mk [7, 0, 6, 0x41, 0xed, 0xa0, 0x80, 0xe2, 0x82, 0xac, 0x42] 1).InRange :=
    Nat.le_add_right 1 10
  have length : bigEndianValue
      (([7, 0, 6, 0x41, 0xed, 0xa0, 0x80, 0xe2, 0x82, 0xac, 0x42].drop 1).take 2) = 6 := by decide
  have refuses : RefusesText 12 ⟨[7, 0, 6, 0x41, 0xed, 0xa0, 0x80, 0xe2, 0x82, 0xac, 0x42], 1⟩ 3
      [0x41, 0xed, 0xa0, 0x80, 0xe2, 0x82] := text_refuses inside (by decide) length (by decide)
  refine ⟨refuses, refuses.structural_first [0x41, 0xed, 0xa0, 0x80] [0xe2, 0x82] [0x41, 0xd800] 2
    rfl ?_ ?_⟩
  · rw [← codeUnits_values_iff 0]
    exact ⟨[⟨0x41, 0⟩, ⟨0xd800, 1⟩], rfl, rfl⟩
  · refine badGroup_third (by decide) ?_ (not_continuesAt_nil 0)
    exact ⟨by decide, by decide⟩

end Cursor

end Groundwork.Bytes
