import Groundwork.Text.Pieces

/-!
# Cutting texts

How the pieces of a text and the first place of a mark follow from the way the text was put
together.

* `pieces_append`: a part without separators in front of a separator is the first piece.
* `eq_of_cutAt?`: cutting takes out the mark and nothing else.
* `cutAt?_append_of_not_mem`, `cutAt?_cons_of_ne`: a mark is not found where its first or its
  second character is missing.
* `not_infix_of_cutAt?_eq_none`: a mark that is not found stands nowhere.
* `replaced_of_cutAt?_eq_some`, `replaced_of_cutAt?_eq_none`: what is replaced is the first mark,
  and then the first one in the text behind it.
* `eq_of_append_pair`: two equal characters between texts that neither hold nor touch such a pair
  stand nowhere else.
-/

namespace Groundwork.Text

/-! ## Pieces -/

/-- A part without separators in front of a separator is the first piece. -/
theorem pieces_append {sep : Char} {p : List Char} (h : sep ∉ p) (rest : List Char) :
    pieces sep (p ++ sep :: rest) = p :: pieces sep rest := by
  induction p with
  | nil => simp [pieces]
  | cons c p ih =>
    have hc : c ≠ sep := by
      intro hc
      exact h (by simp [hc])
    have hp : sep ∉ p := by
      intro hp
      exact h (by simp [hp])
    rw [List.cons_append, pieces, if_neg hc, ih hp]

/-! ## Marks -/

/-- Cutting takes out the mark and nothing else. -/
theorem eq_of_cutAt? {mark s before after : List Char}
    (h : cutAt? mark s = some (before, after)) : s = before ++ (mark ++ after) := by
  induction s generalizing before with
  | nil =>
    rw [cutAt?] at h
    split at h
    · rename_i empty
      obtain ⟨rfl, rfl⟩ : [] = before ∧ [] = after := by simpa using h
      simpa using empty
    · cases h
  | cons c s ih =>
    rw [cutAt?] at h
    split at h
    · rename_i here
      obtain ⟨rfl, rfl⟩ : [] = before ∧ (c :: s).drop mark.length = after := by simpa using h
      rcases List.isPrefixOf_iff_prefix.mp here with ⟨rest, hrest⟩
      rw [← hrest]
      simp
    · rcases Option.map_eq_some_iff.mp h with ⟨⟨before, after⟩, hcut, hparts⟩
      rcases hparts with ⟨rfl, rfl⟩
      rw [ih hcut, List.cons_append]

/-- A mark is not found in a part that lacks its first character. -/
theorem cutAt?_append_of_not_mem {c : Char} {mark p : List Char} (h : c ∉ p) (s : List Char) :
    cutAt? (c :: mark) (p ++ s) =
      (cutAt? (c :: mark) s).map fun cut => (p ++ cut.1, cut.2) := by
  induction p with
  | nil => simp
  | cons x p ih =>
    have hx : c ≠ x := by
      intro hx
      exact h (by simp [hx])
    have hp : c ∉ p := by
      intro hp
      exact h (by simp [hp])
    have nothere : (c :: mark).isPrefixOf (x :: (p ++ s)) = false := by
      simp [List.isPrefixOf, hx]
    rw [List.cons_append, cutAt?, nothere, ih hp, Option.map_map]
    rfl

/-- A mark is not found where its second character is missing. -/
theorem cutAt?_cons_of_ne {c d x : Char} (h : d ≠ x) (mark s : List Char) :
    cutAt? (c :: d :: mark) (c :: x :: s) =
      (cutAt? (c :: d :: mark) (x :: s)).map fun cut => (c :: cut.1, cut.2) := by
  have nothere : (c :: d :: mark).isPrefixOf (c :: x :: s) = false := by
    simp [List.isPrefixOf, h]
  rw [cutAt?, nothere]
  rfl

/-- Where the mark stands, the text is cut. -/
theorem cutAt?_append_self (mark s : List Char) (h : mark ≠ []) :
    cutAt? mark (mark ++ s) = some ([], s) := by
  cases mark with
  | nil => exact absurd rfl h
  | cons c mark =>
    have here : (c :: mark).isPrefixOf (c :: (mark ++ s)) = true := by
      exact List.isPrefixOf_iff_prefix.mpr ⟨s, rfl⟩
    rw [List.cons_append, cutAt?, here]
    simp

/-- A mark that is not found stands nowhere. -/
theorem not_infix_of_cutAt?_eq_none {mark s : List Char} (h : cutAt? mark s = none) :
    ¬ mark <:+: s := by
  induction s with
  | nil =>
    intro inside
    rw [List.infix_nil.mp inside] at h
    cases h
  | cons c s ih =>
    intro inside
    rw [cutAt?] at h
    split at h
    · cases h
    · rename_i nothere
      rcases List.infix_cons_iff.mp inside with here | later
      · exact nothere (List.isPrefixOf_iff_prefix.mpr here)
      · exact ih (Option.map_eq_none_iff.mp h) later

/-! ## Replacing -/

theorem replacedBehind_append (mark new p s : List Char) :
    replacedBehind mark new p.length (p ++ s) = replaced mark new s := by
  induction p with
  | nil => rfl
  | cons c p ih => exact ih

/-- A mark at the front is replaced. -/
theorem replaced_append_self {mark : List Char} (h : mark ≠ []) (new s : List Char) :
    replaced mark new (mark ++ s) = new ++ replaced mark new s := by
  cases mark with
  | nil => exact absurd rfl h
  | cons c mark =>
    have here : (c :: mark).isPrefixOf (c :: (mark ++ s)) = true :=
      List.isPrefixOf_iff_prefix.mpr ⟨s, rfl⟩
    rw [List.cons_append, replaced, replacedBehind, if_pos here]
    exact congrArg (new ++ ·) (replacedBehind_append (c :: mark) new mark s)

/-- A character with which no mark begins stays. -/
theorem replaced_cons_of_ne {c x : Char} (h : c ≠ x) (mark new s : List Char) :
    replaced (c :: mark) new (x :: s) = x :: replaced (c :: mark) new s := by
  have nothere : ¬ (c :: mark).isPrefixOf (x :: s) = true := by
    simp [List.isPrefixOf, h]
  rw [replaced, replacedBehind, if_neg nothere]
  rfl

/-- What stands before the first mark stays, the mark is replaced, and so on behind it. -/
theorem replaced_of_cutAt?_eq_some {mark s before after : List Char} (h : mark ≠ [])
    (cut : cutAt? mark s = some (before, after)) (new : List Char) :
    replaced mark new s = before ++ (new ++ replaced mark new after) := by
  induction s generalizing before with
  | nil =>
    rw [cutAt?, List.isEmpty_eq_false_iff.mpr h] at cut
    cases cut
  | cons c s ih =>
    rw [cutAt?] at cut
    split at cut
    · rename_i here
      rcases Prod.mk.inj (Option.some.inj cut) with ⟨rfl, rfl⟩
      rcases List.isPrefixOf_iff_prefix.mp here with ⟨rest, whole⟩
      rw [← whole, List.drop_left]
      exact replaced_append_self h new rest
    · rename_i nothere
      rcases Option.map_eq_some_iff.mp cut with ⟨⟨front, behind⟩, later, parts⟩
      rcases Prod.mk.inj parts with ⟨rfl, rfl⟩
      rw [replaced, replacedBehind, if_neg nothere]
      exact congrArg (c :: ·) (ih later)

/-- A text without marks stays. -/
theorem replaced_of_cutAt?_eq_none {mark s : List Char} (none : cutAt? mark s = none)
    (new : List Char) : replaced mark new s = s := by
  induction s with
  | nil => rfl
  | cons c s ih =>
    rw [cutAt?] at none
    split at none
    · cases none
    · rename_i nothere
      rw [replaced, replacedBehind, if_neg nothere]
      exact congrArg (c :: ·) (ih (Option.map_eq_none_iff.mp none))

/-! ## Pairs -/

/-- Two equal characters between texts that neither hold such a pair nor touch it with another one
stand nowhere else. -/
theorem eq_of_append_pair {c : Char} {x y before after : List Char} (hx : ¬ [c, c] <:+: x)
    (end_ne : x.getLast? ≠ some c) (hy : ¬ [c, c] <:+: y) (head_ne : y.head? ≠ some c)
    (h : x ++ c :: c :: y = before ++ c :: c :: after) : before = x := by
  rcases List.append_eq_append_iff.mp h with ⟨e, rfl, he⟩ | ⟨e, rfl, he⟩
  · -- the other pair is not the first one: it lies in `y`, or its second half begins `y`
    match e with
    | [] => rw [List.append_nil]
    | [d] =>
      obtain ⟨-, rfl⟩ : c = d ∧ y = c :: after := by simpa using he
      exact absurd rfl head_ne
    | d :: d' :: e =>
      obtain ⟨-, -, rfl⟩ : c = d ∧ c = d' ∧ y = e ++ c :: c :: after := by simpa using he
      exact absurd ⟨e, after, by simp⟩ hy
  · match e with
    | [] => rw [List.append_nil]
    | [d] =>
      obtain ⟨rfl, -⟩ : c = d ∧ after = c :: y := by simpa using he
      exact absurd (by simp) end_ne
    | d :: d' :: e =>
      obtain ⟨rfl, rfl, -⟩ : c = d ∧ c = d' ∧ after = e ++ c :: c :: y := by simpa using he
      exact absurd ⟨before, e, by simp⟩ hx

end Groundwork.Text
