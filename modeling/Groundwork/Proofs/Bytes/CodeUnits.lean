import Groundwork.Bytes.ModifiedUtf8

/-!
# Groups of bytes

Modified UTF-8 writes every UTF-16 code unit as a group of one to three bytes. This is the grammar
of groups, without regard to offsets, and the proof that the reader follows it.

* `Group` and `Groups`: the groups, and sequences of them, with the code units that they carry.
  Overlong groups and a plain zero byte are among them.
* `codeUnits_append`: the reader takes the group at the front off, and `Groups.exists_units`
  several.
* `codeUnits_values_iff`: the reader succeeds exactly on sequences of groups, and gives the code
  units that they carry.
-/

namespace Groundwork.Bytes.ModifiedUtf8

/-! ## The grammar -/

/-- The bytes `10xxxxxx`. -/
def IsContinuation (b : UInt8) : Prop :=
  0x80 ≤ b.toNat ∧ b.toNat < 0xc0

/-- A group of bytes and the code unit whose bits it carries. -/
inductive Group : List UInt8 → UInt16 → Prop
  /-- `0xxxxxxx` -/
  | one {a : UInt8} {u : UInt16} (lead : a.toNat < 0x80) (bits : u.toNat = a.toNat) : Group [a] u
  /-- `110xxxxx 10xxxxxx` -/
  | two {a b : UInt8} {u : UInt16} (lead : 0xc0 ≤ a.toNat ∧ a.toNat < 0xe0)
      (second : IsContinuation b)
      (bits : u.toNat = (a.toNat - 0xc0) * 64 + (b.toNat - 0x80)) : Group [a, b] u
  /-- `1110xxxx 10xxxxxx 10xxxxxx` -/
  | three {a b c : UInt8} {u : UInt16} (lead : 0xe0 ≤ a.toNat ∧ a.toNat < 0xf0)
      (second : IsContinuation b) (third : IsContinuation c)
      (bits : u.toNat = (a.toNat - 0xe0) * 4096 + (b.toNat - 0x80) * 64 + (c.toNat - 0x80)) :
      Group [a, b, c] u

/-- A sequence of groups and their code units, from left to right. -/
inductive Groups : List UInt8 → List UInt16 → Prop
  | nil : Groups [] []
  | cons {group rest : List UInt8} {u : UInt16} {us : List UInt16} (first : Group group u)
      (more : Groups rest us) : Groups (group ++ rest) (u :: us)

/-! ## The reader -/

theorem map_eq_ok_iff {ε α β : Type} {f : α → β} {x : Except ε α} {b : β} :
    x.map f = .ok b ↔ ∃ a, x = .ok a ∧ f a = b := by
  cases x with
  | error e =>
    constructor
    · intro h
      cases h
    · rintro ⟨a, h, -⟩
      cases h
  | ok a =>
    constructor
    · intro h
      exact ⟨a, rfl, Except.ok.inj h⟩
    · rintro ⟨a', h, rfl⟩
      rw [Except.ok.inj h]
      rfl

theorem map_eq_error_iff {ε α β : Type} {f : α → β} {x : Except ε α} {e : ε} :
    x.map f = .error e ↔ x = .error e := by
  cases x with
  | error e' =>
    constructor
    · intro h
      exact congrArg Except.error (Except.error.inj h)
    · intro h
      exact congrArg Except.error (Except.error.inj h)
  | ok a =>
    constructor
    · intro h
      cases h
    · intro h
      cases h

theorem continuation?_eq_some_iff {b : UInt8} {n : Nat} :
    continuation? b = some n ↔ IsContinuation b ∧ b.toNat - 0x80 = n := by
  unfold continuation? IsContinuation
  split
  · rw [Option.some.injEq]
    omega
  · constructor
    · intro h
      cases h
    · intro h
      omega

/-- The reader takes the group at the front off. -/
theorem codeUnits_append {group : List UInt8} {u : UInt16} (h : Group group u) (offset : Nat)
    (rest : List UInt8) : codeUnits offset (group ++ rest) =
      (codeUnits (offset + group.length) rest).map (⟨u, offset⟩ :: ·) := by
  cases h with
  | @one a u lead bits =>
    have value : UInt16.ofNat a.toNat = u := by
      apply UInt16.toNat_inj.mp
      rw [UInt16.toNat_ofNat']
      omega
    show codeUnits offset (a :: rest) = _
    rw [codeUnits.eq_def]
    dsimp only
    rw [if_pos lead, value]
    rfl
  | @two a b u lead second bits =>
    have low : continuation? b = some (b.toNat - 0x80) :=
      continuation?_eq_some_iff.mpr ⟨second, rfl⟩
    have value : UInt16.ofNat (a.toNat % 32 * 64 + (b.toNat - 0x80)) = u := by
      apply UInt16.toNat_inj.mp
      rw [UInt16.toNat_ofNat']
      unfold IsContinuation at second
      omega
    show codeUnits offset (a :: b :: rest) = _
    rw [codeUnits.eq_def]
    dsimp only
    rw [if_neg (by omega), if_pos (by omega)]
    simp only [low, value]
    rfl
  | @three a b c u lead second third bits =>
    have middle : continuation? b = some (b.toNat - 0x80) :=
      continuation?_eq_some_iff.mpr ⟨second, rfl⟩
    have low : continuation? c = some (c.toNat - 0x80) :=
      continuation?_eq_some_iff.mpr ⟨third, rfl⟩
    have value : UInt16.ofNat (a.toNat % 16 * 4096 + (b.toNat - 0x80) * 64 + (c.toNat - 0x80)) =
        u := by
      apply UInt16.toNat_inj.mp
      rw [UInt16.toNat_ofNat']
      unfold IsContinuation at second third
      omega
    show codeUnits offset (a :: b :: c :: rest) = _
    rw [codeUnits.eq_def]
    dsimp only
    rw [if_neg (by omega), if_neg (by omega), if_pos (by omega)]
    simp only [middle, low, value]
    rfl

theorem group_one {a : UInt8} (lead : a.toNat < 0x80) : Group [a] (UInt16.ofNat a.toNat) := by
  refine .one lead ?_
  rw [UInt16.toNat_ofNat']
  omega

theorem group_two {a b : UInt8} {low : Nat} (lead : a.toNat / 32 = 6)
    (second : continuation? b = some low) :
    Group [a, b] (UInt16.ofNat (a.toNat % 32 * 64 + low)) := by
  rcases continuation?_eq_some_iff.mp second with ⟨hsecond, rfl⟩
  refine .two (by omega) hsecond ?_
  unfold IsContinuation at hsecond
  rw [UInt16.toNat_ofNat']
  omega

theorem group_three {a b c : UInt8} {middle low : Nat} (lead : a.toNat / 16 = 14)
    (second : continuation? b = some middle) (third : continuation? c = some low) :
    Group [a, b, c] (UInt16.ofNat (a.toNat % 16 * 4096 + middle * 64 + low)) := by
  rcases continuation?_eq_some_iff.mp second with ⟨hsecond, rfl⟩
  rcases continuation?_eq_some_iff.mp third with ⟨hthird, rfl⟩
  refine .three (by omega) hsecond hthird ?_
  unfold IsContinuation at hsecond hthird
  rw [UInt16.toNat_ofNat']
  omega

/-- What the reader accepts is a sequence of groups. -/
theorem groups_of_codeUnits {offset : Nat} {bytes : List UInt8} {units : List CodeUnit}
    (h : codeUnits offset bytes = .ok units) : Groups bytes (units.map CodeUnit.value) := by
  fun_induction codeUnits offset bytes generalizing units with
  | case1 offset =>
    rw [← Except.ok.inj h]
    exact .nil
  | case2 offset lead rest one ih =>
    rcases map_eq_ok_iff.mp h with ⟨more, hmore, rfl⟩
    exact .cons (group_one one) (ih hmore)
  | case3 | case4 => cases h
  | case5 offset lead one two second rest low hlow ih =>
    rcases map_eq_ok_iff.mp h with ⟨more, hmore, rfl⟩
    exact .cons (group_two two hlow) (ih hmore)
  | case6 | case7 | case8 | case9 => cases h
  | case10 offset lead one two three second middle hmiddle third rest low hlow ih =>
    rcases map_eq_ok_iff.mp h with ⟨more, hmore, rfl⟩
    exact .cons (group_three three hmiddle hlow) (ih hmore)
  | case11 => cases h

/-- The reader takes the groups at the front off, whatever follows them. -/
theorem Groups.exists_units {front : List UInt8} {us : List UInt16} (h : Groups front us)
    (offset : Nat) : ∃ units : List CodeUnit, units.map CodeUnit.value = us ∧
      ∀ rest, codeUnits offset (front ++ rest) =
        (codeUnits (offset + front.length) rest).map (units ++ ·) := by
  induction h generalizing offset with
  | nil =>
    refine ⟨[], rfl, ?_⟩
    intro rest
    show codeUnits offset rest = (codeUnits offset rest).map id
    cases codeUnits offset rest with
    | ok units => rfl
    | error bad => rfl
  | @cons group more u us first _ ih =>
    rcases ih (offset + group.length) with ⟨units, values, taken⟩
    refine ⟨⟨u, offset⟩ :: units, congrArg (u :: ·) values, ?_⟩
    intro rest
    rw [List.append_assoc, codeUnits_append first, taken, List.length_append, ← Nat.add_assoc]
    cases codeUnits (offset + group.length + more.length) rest with
    | ok units => rfl
    | error bad => rfl

/-- The reader accepts every sequence of groups. -/
theorem Groups.exists_codeUnits {bytes : List UInt8} {us : List UInt16} (h : Groups bytes us)
    (offset : Nat) : ∃ units, codeUnits offset bytes = .ok units ∧
      units.map CodeUnit.value = us := by
  rcases h.exists_units offset with ⟨units, values, taken⟩
  have all := taken []
  rw [List.append_nil, codeUnits] at all
  refine ⟨units, ?_, values⟩
  rw [all]
  exact congrArg Except.ok (List.append_nil units)

/-- The reader succeeds exactly on sequences of groups, and gives the code units that they carry. -/
theorem codeUnits_values_iff (offset : Nat) {bytes : List UInt8} {us : List UInt16} :
    (∃ units, codeUnits offset bytes = .ok units ∧ units.map CodeUnit.value = us) ↔
      Groups bytes us := by
  constructor
  · rintro ⟨units, hunits, rfl⟩
    exact groups_of_codeUnits hunits
  · intro h
    exact h.exists_codeUnits offset

/-! ## The writer -/

/-- The writer writes groups. -/
theorem group_groupOfUnit (u : UInt16) : Group (groupOfUnit u) u := by
  have bound := u.toNat_lt
  unfold groupOfUnit
  split
  · rename_i one
    refine .one ?_ ?_
    · rw [UInt8.toNat_ofNat']
      omega
    · rw [UInt8.toNat_ofNat']
      omega
  · split
    · refine .two ?_ ?_ ?_
      · rw [UInt8.toNat_ofNat']
        omega
      · unfold IsContinuation
        rw [UInt8.toNat_ofNat']
        omega
      · rw [UInt8.toNat_ofNat', UInt8.toNat_ofNat']
        omega
    · refine .three ?_ ?_ ?_ ?_
      · rw [UInt8.toNat_ofNat']
        omega
      · unfold IsContinuation
        rw [UInt8.toNat_ofNat']
        omega
      · unfold IsContinuation
        rw [UInt8.toNat_ofNat']
        omega
      · rw [UInt8.toNat_ofNat', UInt8.toNat_ofNat', UInt8.toNat_ofNat']
        omega

theorem groups_flatMap_groupOfUnit (us : List UInt16) : Groups (us.flatMap groupOfUnit) us := by
  induction us with
  | nil => exact .nil
  | cons u us ih =>
    rw [List.flatMap_cons]
    exact .cons (group_groupOfUnit u) ih

end Groundwork.Bytes.ModifiedUtf8
