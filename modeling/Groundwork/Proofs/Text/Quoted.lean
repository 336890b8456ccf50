import Mathlib.Data.List.Forall2
import Groundwork.Text.Quoted
import Groundwork.Proofs.Text.Numeral

/-!
# Reading quoted and indented texts

What stands between quotes tells the text: a character stands for itself, or an escape sequence
stands for it. A text that is indented keeps its lines.

* `Shown` is how a character can be shown between quotes, `Quotes` a text in quotes.
* `exists_quotes_quoted`: texts are quoted in this way.
* `flatMap_eq_intercalate`: putting something in the place of every separator leaves what stands
  between them.
-/

namespace Groundwork.Text

/-! ## Quotes -/

/-- How a character can be shown between quotes: by itself, or by an escape sequence. A character of
ASCII that is printed stands for itself, but for the quote and the backslash. -/
inductive Shown : Char → List Char → Prop where
  | self {c : Char} (printed : 0x20 ≤ c.toNat) (quote : c ≠ '"') (backslash : c ≠ '\\') :
      Shown c [c]
  | quote : Shown '"' ['\\', '"']
  | backslash : Shown '\\' ['\\', '\\']
  | null : Shown '\x00' ['\\', '0']
  | tab : Shown '\t' ['\\', 't']
  | carriageReturn : Shown '\r' ['\\', 'r']
  | lineFeed : Shown '\n' ['\\', 'n']
  | code {c : Char} {digits : List Char} (notPrinted : c.toNat < 0x20 ∨ 0x7e < c.toNat)
      (spells : Spells LowerHexDigit 16 digits c.toNat) :
      Shown c (['\\', 'u', '{'] ++ digits ++ ['}'])

/-- What stands between quotes tells a text. -/
def Quotes (text between : String) : Prop :=
  ∃ parts, List.Forall₂ Shown text.toList parts ∧ between.toList = parts.flatten

/-- Controls are hidden. -/
theorem printed_of_isHidden_eq_false {c : Char} (h : isHidden c = false) : 0x20 ≤ c.toNat := by
  by_contra small
  have control : inRanges inklessRanges c.toNat = true := by
    have bound : c.toNat ≤ 0x1f := by omega
    exact List.any_eq_true.mpr ⟨(0x0, 0x1f), List.mem_cons_self, by simpa using bound⟩
  rw [isHidden, control] at h
  cases h

set_option maxRecDepth 4000 in
theorem apart_of_mem_ranges :
    ∀ range ∈ inklessRanges ++ markRanges, range.2 < 0x20 ∨ 0x7e < range.1 := by
  decide

/-- What is printed of ASCII is not hidden. -/
theorem notPrinted_of_isHidden {c : Char} (h : isHidden c = true) :
    c.toNat < 0x20 ∨ 0x7e < c.toNat := by
  have inside : inRanges (inklessRanges ++ markRanges) c.toNat = true := by
    rw [inRanges, List.any_append]
    exact h
  rcases List.any_eq_true.mp inside with ⟨range, member, bounds⟩
  have apart := apart_of_mem_ranges range member
  rw [Bool.and_eq_true, decide_eq_true_iff, decide_eq_true_iff] at bounds
  omega

theorem shown_quotedChar (c : Char) : Shown c (quotedChar c) := by
  unfold quotedChar
  split_ifs with null tab carriageReturn lineFeed quote backslash hidden
  · exact null ▸ .null
  · exact tab ▸ .tab
  · exact carriageReturn ▸ .carriageReturn
  · exact lineFeed ▸ .lineFeed
  · exact quote ▸ .quote
  · exact backslash ▸ .backslash
  · exact .code (notPrinted_of_isHidden hidden)
      (spells_toDigits (by decide) (fun _ d => ⟨d, rfl⟩) _)
  · exact .self (printed_of_isHidden_eq_false (Bool.eq_false_iff.mpr hidden)) quote backslash

/-- Texts are quoted in this way. -/
theorem exists_quotes_quoted (text : String) :
    ∃ between, Quotes text between ∧ quoted text = "\"" ++ between ++ "\"" := by
  refine ⟨String.ofList (text.toList.flatMap quotedChar), ⟨text.toList.map quotedChar, ?_, ?_⟩, ?_⟩
  · rw [List.forall₂_map_right_iff, List.forall₂_same]
    intro c _
    exact shown_quotedChar c
  · rw [String.toList_ofList, List.flatMap_def]
  · apply String.toList_injective
    simp [quoted]

/-! ## Lines -/

/-- Putting something in the place of every separator leaves what stands between them. -/
theorem flatMap_eq_intercalate (sep : Char) (new s : List Char) :
    (s.flatMap fun c => if c = sep then new else [c]) = new.intercalate (s.splitOn sep) := by
  induction s with
  | nil => rfl
  | cons c s ih =>
    rw [List.flatMap_cons, ih, List.splitOn, List.splitOn, List.splitOnP_cons_eq_if_modifyHead]
    rcases cut : s.splitOnP (· == sep) with _ | ⟨piece, more⟩
    · exact absurd cut (List.splitOnP_ne_nil _ s)
    · by_cases same : c = sep
      · simp [same, List.intercalate]
      · cases more <;> simp [same, List.intercalate]

end Groundwork.Text
