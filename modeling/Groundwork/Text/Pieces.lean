/-!
# Pieces of a text between separators

Texts are taken apart as lists of characters.

* `pieces sep s` cuts `s` at every `sep`; joining the pieces with `sep` gives `s` back
  (`joined_pieces`), and no piece holds a separator (`not_mem_of_mem_pieces`).
* `cutAt? mark s` cuts `s` at the first place where `mark` stands.
* `replaced mark new s` is `s` with `new` wherever `mark` stood.
-/

namespace Groundwork.Text

/-- The pieces of a text between the occurrences of `sep`, one more than there are occurrences. -/
def pieces (sep : Char) : List Char → List (List Char)
  | [] => [[]]
  | c :: rest =>
    if c = sep then [] :: pieces sep rest
    else match pieces sep rest with
      | [] => [[c]]
      | piece :: more => (c :: piece) :: more

/-- The pieces one after the other, with `sep` between neighbours. -/
def joined (sep : Char) : List (List Char) → List Char
  | [] => []
  | [piece] => piece
  | piece :: next :: more => piece ++ sep :: joined sep (next :: more)

/-- The text before the first occurrence of `mark` and the text after it, if `mark` occurs. -/
def cutAt? (mark : List Char) : List Char → Option (List Char × List Char)
  | [] => if mark.isEmpty then some ([], []) else none
  | c :: rest =>
    if mark.isPrefixOf (c :: rest) then some ([], (c :: rest).drop mark.length)
    else (cutAt? mark rest).map fun cut => (c :: cut.1, cut.2)

/-- Whether `mark` stands somewhere in the text. -/
def occursIn (mark text : List Char) : Bool :=
  (cutAt? mark text).isSome

/-- The text behind the first `passed` characters, with `new` in place of every `mark`. A mark
begins behind the one before it. -/
def replacedBehind (mark new : List Char) : (passed : Nat) → List Char → List Char
  | _, [] => []
  | passed + 1, _ :: rest => replacedBehind mark new passed rest
  | 0, c :: rest =>
    if mark.isPrefixOf (c :: rest) then new ++ replacedBehind mark new (mark.length - 1) rest
    else c :: replacedBehind mark new 0 rest

/-- The text with `new` in place of every `mark`, from the left. The mark is not empty. -/
def replaced (mark new s : List Char) : List Char :=
  replacedBehind mark new 0 s

theorem pieces_ne_nil (sep : Char) (s : List Char) : pieces sep s ≠ [] := by
  cases s with
  | nil => simp [pieces]
  | cons c rest =>
    by_cases h : c = sep
    · simp [pieces, h]
    · cases hp : pieces sep rest <;> simp [pieces, h, hp]

/-- A text without the separator is one piece. -/
theorem pieces_of_not_mem {sep : Char} {s : List Char} (h : sep ∉ s) : pieces sep s = [s] := by
  induction s with
  | nil => rfl
  | cons c rest ih =>
    simp only [List.mem_cons, not_or] at h
    simp [pieces, ih h.2, Ne.symm h.1]

/-- Joining the pieces of a text gives the text back. -/
theorem joined_pieces (sep : Char) (s : List Char) : joined sep (pieces sep s) = s := by
  induction s with
  | nil => rfl
  | cons c rest ih =>
    by_cases h : c = sep
    · cases hp : pieces sep rest with
      | nil => exact absurd hp (pieces_ne_nil sep rest)
      | cons piece more => rw [hp] at ih; simp [pieces, h, hp, joined, ih]
    · cases hp : pieces sep rest with
      | nil => exact absurd hp (pieces_ne_nil sep rest)
      | cons piece more =>
        cases more <;> simp_all [pieces, joined]

/-- No piece holds the separator. -/
theorem not_mem_of_mem_pieces {sep : Char} {s p : List Char} (h : p ∈ pieces sep s) :
    sep ∉ p := by
  induction s generalizing p with
  | nil => simp_all [pieces]
  | cons c rest ih =>
    by_cases hc : c = sep
    · simp only [pieces, hc, ↓reduceIte, List.mem_cons] at h
      rcases h with rfl | h
      · simp
      · exact ih h
    · cases hp : pieces sep rest with
      | nil => exact absurd hp (pieces_ne_nil sep rest)
      | cons piece more =>
        simp only [pieces, hc, ↓reduceIte, hp, List.mem_cons] at h
        rcases h with rfl | h
        · have := ih (p := piece) (by simp [hp])
          simp [this, Ne.symm hc]
        · exact ih (by simp [hp, h])

end Groundwork.Text
