import Groundwork.Bytes.Cursor
import Groundwork.Proofs.Bytes.Text

/-!
# Decoding by index

The decoder that scans an array by index gives what the decoder on lists gives, and none of its
numbers leaves the array.

* `decode_error_le`: the place where bytes go wrong is within them or at their end.
* `scan_eq`: the scan gives the code units of the bytes from its index on.
* `collect_eq`: counting the units of the characters before a bad surrogate finds its group.
* `decodeAt_eq`: both passes together.
-/

namespace Groundwork.Bytes

/-- What is at the front behind an index is at that index. -/
theorem getElem_of_drop_eq_cons {α : Type} {l : List α} {i : Nat} {a : α} {rest : List α}
    (h : l.drop i = a :: rest) :
    ∃ inside : i < l.length, l[i] = a ∧ l.drop (i + 1) = rest := by
  have inside : i < l.length := by
    have length := congrArg List.length h
    simp only [List.length_drop, List.length_cons] at length
    omega
  rw [List.drop_eq_getElem_cons inside] at h
  exact ⟨inside, List.head_eq_of_cons_eq h, List.tail_eq_of_cons_eq h⟩

namespace ModifiedUtf8

/-! ## Places of code units -/

/-- There are no more code units than bytes, and each starts at one of the bytes. -/
theorem codeUnits_bounds {offset : Nat} {bytes : List UInt8} {units : List CodeUnit}
    (h : codeUnits offset bytes = .ok units) :
    units.length ≤ bytes.length ∧ ∀ u ∈ units, u.offset < offset + bytes.length := by
  fun_induction codeUnits offset bytes generalizing units with
  | case1 =>
    rw [← Except.ok.inj h]
    exact ⟨Nat.le_refl _, fun u hu => absurd hu List.not_mem_nil⟩
  | case3 | case4 | case6 | case7 | case8 | case9 | case11 => cases h
  | case2 | case5 | case10 =>
    -- a group of one to three bytes gives one unit, which starts where the group does
    rename_i ih
    rcases map_eq_ok_iff.mp h with ⟨more, hmore, rfl⟩
    rcases ih hmore with ⟨count, places⟩
    simp only [List.length_cons, List.forall_mem_cons]
    refine ⟨by omega, by omega, ?_⟩
    intro u hu
    have place := places u hu
    omega

/-- Bytes that are no groups go wrong at one of them or at their end. -/
theorem codeUnits_error_le {offset bad : Nat} {bytes : List UInt8}
    (h : codeUnits offset bytes = .error bad) : bad ≤ offset + bytes.length := by
  fun_induction codeUnits offset bytes with
  | case1 => cases h
  | case2 | case5 | case10 =>
    rename_i ih
    have place := ih (map_eq_error_iff.mp h)
    simp only [List.length_cons]
    omega
  | case3 | case4 | case6 | case7 | case8 | case9 | case11 =>
    have place := Except.error.inj h
    simp only [List.length_cons]
    omega

/-- A surrogate without a partner is reported at the place of its group. -/
theorem exists_mem_of_characters_error {units : List CodeUnit} {bad : Nat}
    (h : characters units = .error bad) : ∃ u ∈ units, u.offset = bad := by
  fun_induction characters units with
  | case1 => cases h
  | case2 | case4 | case5 => exact ⟨_, List.mem_cons_self, Except.error.inj h⟩
  | case3 u high v rest low ih =>
    rcases ih (map_eq_error_iff.mp h) with ⟨w, hw, place⟩
    exact ⟨w, List.mem_cons_of_mem _ (List.mem_cons_of_mem _ hw), place⟩
  | case6 u rest high low ih =>
    rcases ih (map_eq_error_iff.mp h) with ⟨w, hw, place⟩
    exact ⟨w, List.mem_cons_of_mem _ hw, place⟩

/-- The place where bytes go wrong is within them or at their end. -/
theorem decode_error_le {bytes : List UInt8} {bad : Nat} (h : decode bytes = .error bad) :
    bad ≤ bytes.length := by
  unfold decode at h
  split at h
  · rename_i units hunits
    rcases exists_mem_of_characters_error h with ⟨u, hu, rfl⟩
    have place := (codeUnits_bounds hunits).2 u hu
    omega
  · rename_i offset hoffset
    have place := codeUnits_error_le hoffset
    rw [Except.error.inj h] at place
    omega

/-! ## The scan -/

theorem continuationAt_eq (body : List UInt8) (i : Nat) : continuationAt body i =
    match (body.drop i).head?.bind continuation? with
    | some bits => .ok bits
    | none => .error i := by
  rw [List.head?_drop]
  rfl

/-- The scan gives the code units of the bytes from its index on. -/
theorem scan_eq {limit : Nat} {body : List UInt8} (fits : body.length < limit) (i : Nat) :
    scan limit body i = some (codeUnits i (body.drop i)) := by
  -- the cases are those of the list function; every sum is at most the length of the body
  generalize hrest : body.drop i = rest
  fun_induction codeUnits i rest with
  | case1 i =>
    have past : ¬ i < body.length := by
      rw [List.drop_eq_nil_iff] at hrest
      omega
    rw [scan, dif_neg past]
  | case2 i lead rest one ih =>
    rcases getElem_of_drop_eq_cons hrest with ⟨inside, hlead, hnext⟩
    rw [scan, dif_pos inside]
    simp only [hlead, if_pos one]
    rw [inWord_of_lt (by omega), ih hnext]
    rfl
  | case3 i lead one two =>
    -- the group ends with the bytes: its missing byte would be at their end
    rcases getElem_of_drop_eq_cons hrest with ⟨inside, hlead, hnext⟩
    rw [scan, dif_pos inside]
    simp only [hlead, if_neg one, if_pos two, continuationAt_eq, hnext]
    exact inWord_of_lt (by omega) _
  | case4 i lead one two second rest hsecond =>
    rcases getElem_of_drop_eq_cons hrest with ⟨inside, hlead, hnext⟩
    rw [scan, dif_pos inside]
    simp only [hlead, if_neg one, if_pos two, continuationAt_eq, hnext, List.head?_cons,
      Option.bind_some, hsecond]
    exact inWord_of_lt (by omega) _
  | case5 i lead one two second rest low hlow ih =>
    rcases getElem_of_drop_eq_cons hrest with ⟨inside, hlead, hnext⟩
    rcases getElem_of_drop_eq_cons hnext with ⟨insideSecond, -, hthird⟩
    rw [scan, dif_pos inside]
    simp only [hlead, if_neg one, if_pos two, continuationAt_eq, hnext, List.head?_cons,
      Option.bind_some, hlow]
    rw [inWord_of_lt (by omega), inWord_of_lt (by omega), ih hthird]
    rfl
  | case6 i lead one two three =>
    -- the same for a group of three bytes, at the second byte or at the third
    rcases getElem_of_drop_eq_cons hrest with ⟨inside, hlead, hnext⟩
    rw [scan, dif_pos inside]
    simp only [hlead, if_neg one, if_neg two, if_pos three, continuationAt_eq, hnext]
    exact inWord_of_lt (by omega) _
  | case7 i lead one two three second rest hsecond =>
    rcases getElem_of_drop_eq_cons hrest with ⟨inside, hlead, hnext⟩
    rw [scan, dif_pos inside]
    simp only [hlead, if_neg one, if_neg two, if_pos three, continuationAt_eq, hnext,
      List.head?_cons, Option.bind_some, hsecond]
    exact inWord_of_lt (by omega) _
  | case8 i lead one two three second middle hmiddle =>
    rcases getElem_of_drop_eq_cons hrest with ⟨inside, hlead, hnext⟩
    rcases getElem_of_drop_eq_cons hnext with ⟨insideSecond, -, hthird⟩
    rw [scan, dif_pos inside]
    simp only [hlead, if_neg one, if_neg two, if_pos three, continuationAt_eq, hnext, hthird,
      List.head?_cons, Option.bind_some, hmiddle]
    rw [inWord_of_lt (by omega)]
    exact inWord_of_lt (by omega) _
  | case9 i lead one two three second middle hmiddle third rest hthirdBits =>
    rcases getElem_of_drop_eq_cons hrest with ⟨inside, hlead, hnext⟩
    rcases getElem_of_drop_eq_cons hnext with ⟨insideSecond, -, hthird⟩
    rw [scan, dif_pos inside]
    simp only [hlead, if_neg one, if_neg two, if_pos three, continuationAt_eq, hnext, hthird,
      List.head?_cons, Option.bind_some, hmiddle, hthirdBits]
    rw [inWord_of_lt (by omega)]
    exact inWord_of_lt (by omega) _
  | case10 i lead one two three second middle hmiddle third rest low hlow ih =>
    rcases getElem_of_drop_eq_cons hrest with ⟨inside, hlead, hnext⟩
    rcases getElem_of_drop_eq_cons hnext with ⟨insideSecond, -, hthird⟩
    rcases getElem_of_drop_eq_cons hthird with ⟨insideThird, -, hafter⟩
    rw [scan, dif_pos inside]
    simp only [hlead, if_neg one, if_neg two, if_pos three, continuationAt_eq, hnext, hthird,
      List.head?_cons, Option.bind_some, hmiddle, hlow]
    rw [inWord_of_lt (by omega), inWord_of_lt (by omega), inWord_of_lt (by omega), ih hafter]
    rfl
  | case11 i lead rest one two three =>
    rcases getElem_of_drop_eq_cons hrest with ⟨inside, hlead, -⟩
    rw [scan, dif_pos inside]
    simp only [hlead, if_neg one, if_neg two, if_neg three]

/-! ## The characters -/

theorem pairUp_pair {u v : UInt16} (high : isHighSurrogate u = true)
    (low : isLowSurrogate v = true) (rest : List UInt16) :
    pairUp (u :: v :: rest) = .ok (pairedChar u v) :: pairUp rest := by
  rw [pairUp, if_pos high, if_pos low]

theorem pairUp_char {u : UInt16} (high : ¬ isHighSurrogate u = true)
    (low : ¬ isLowSurrogate u = true) (rest : List UInt16) :
    pairUp (u :: rest) = .ok (Char.ofNat u.toNat) :: pairUp rest := by
  cases rest with
  | nil =>
    have single : ¬ (isHighSurrogate u = true ∨ isLowSurrogate u = true) := not_or.mpr ⟨high, low⟩
    show pairUp [u] = [.ok (Char.ofNat u.toNat)]
    rw [pairUp, if_neg single]
  | cons v rest => rw [pairUp, if_neg high, if_neg low]

/-- A surrogate that no partner follows stands in the place of a character. -/
theorem pairUp_lone {u : UInt16} {rest : List UInt16}
    (surrogate : isHighSurrogate u = true ∨ isLowSurrogate u = true)
    (lone : isHighSurrogate u = true → ∀ v more, rest = v :: more → ¬ isLowSurrogate v = true) :
    ∃ others, pairUp (u :: rest) = .error u :: others := by
  cases rest with
  | nil => exact ⟨[], by rw [pairUp, if_pos surrogate]⟩
  | cons v more =>
    refine ⟨pairUp (v :: more), ?_⟩
    by_cases high : isHighSurrogate u = true
    · rw [pairUp, if_pos high, if_neg (lone high v more rfl)]
    · rw [pairUp, if_neg high, if_pos (surrogate.resolve_left high)]

/-- A bad surrogate is found by the number of the units before it. -/
theorem collect_lone {limit consumed : Nat} {units rest : List CodeUnit} {u : CodeUnit}
    (hrest : units.drop consumed = u :: rest)
    (surrogate : isHighSurrogate u.value = true ∨ isLowSurrogate u.value = true)
    (lone : isHighSurrogate u.value = true → ∀ v more, rest.map CodeUnit.value = v :: more →
      ¬ isLowSurrogate v = true) :
    collect limit units consumed (pairUp ((u :: rest).map CodeUnit.value)) =
      some (.error u.offset) := by
  rcases pairUp_lone surrogate lone with ⟨others, hothers⟩
  have here : units[consumed]? = some u := by
    rw [← List.head?_drop, hrest]
    rfl
  rw [List.map_cons, hothers, collect, here]
  rfl

/-- Collecting characters while counting their units gives the text of the units, or the place of
the first surrogate without a partner. -/
theorem collect_eq {limit : Nat} {units : List CodeUnit} (fits : units.length < limit)
    (consumed : Nat) :
    collect limit units consumed (pairUp ((units.drop consumed).map CodeUnit.value)) =
      some (characters (units.drop consumed)) := by
  generalize hrest : units.drop consumed = rest
  fun_induction characters rest generalizing consumed with
  | case1 => rfl
  | case2 u high =>
    refine collect_lone hrest (.inl high) ?_
    intro _ v more hmore
    cases hmore
  | case3 u high v rest low ih =>
    rcases getElem_of_drop_eq_cons hrest with ⟨-, -, hnext⟩
    rcases getElem_of_drop_eq_cons hnext with ⟨inside, -, hafter⟩
    -- the character of a pair counts for two units
    have width : (unitsOfChar (pairedChar u.value v.value)).length = 2 := by
      rw [unitsOfChar_pairedChar high low]
      rfl
    rw [List.map_cons, List.map_cons, pairUp_pair high low, collect, width,
      inWord_of_lt (by omega), ih _ hafter]
    rfl
  | case4 u high v rest low =>
    refine collect_lone hrest (.inl high) ?_
    intro _ w more hmore
    rw [List.map_cons] at hmore
    rwa [← List.head_eq_of_cons_eq hmore]
  | case5 u rest high low =>
    -- a second half without a first one is bad whatever follows
    refine collect_lone hrest (.inr low) ?_
    intro high'
    exact absurd high' high
  | case6 u rest high low ih =>
    rcases getElem_of_drop_eq_cons hrest with ⟨inside, -, hnext⟩
    have width : (unitsOfChar (Char.ofNat u.value.toNat)).length = 1 := by
      rw [unitsOfChar_ofNat high low]
      rfl
    rw [List.map_cons, pairUp_char high low, collect, width, inWord_of_lt (by omega),
      ih _ hnext]
    rfl

/-- The decoder by index decodes, and none of its numbers leaves the array. -/
theorem decodeAt_eq {limit : Nat} {body : List UInt8} (fits : body.length < limit) :
    decodeAt limit body = some (decode body) := by
  have scanned := scan_eq fits 0
  rw [List.drop_zero] at scanned
  rw [decodeAt, scanned, Option.bind_some, decode]
  cases hunits : codeUnits 0 body with
  | error offset => rfl
  | ok units =>
    have count := (codeUnits_bounds hunits).1
    have fitsUnits : units.length < limit := by omega
    have collected := collect_eq fitsUnits 0
    rw [List.drop_zero] at collected
    exact collected

end ModifiedUtf8

end Groundwork.Bytes
