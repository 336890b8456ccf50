import Groundwork.Proofs.Address.RoundTrip
import Groundwork.Proofs.Address.ZeroRun

/-!
# The canonical text of an IPv6 address

What the canonical text is, said by the way it is put together and without a writer, and what
follows for its characters.

* `ShortGroup`, `ShortGroups`: groups in lowercase hexadecimal without leading zeros, and a colon
  between neighbours.
* `CanonicalForm`: the eight groups where no two zero groups are neighbours, and otherwise the
  groups around the first longest run of zeros with `::` in its place.
* `canonicalForm_iff`: the writer writes this form, and no other text is of this form.
* `ColonForm.atMostOnce`: no literal has `::` in two places.
* `text_canonical`: the canonical text of every IPv6 address.
-/

namespace Groundwork.Address

open Groundwork.Text

/-! ## The form -/

/-- The text of a group: lowercase hexadecimal digits without leading zeros. -/
structure ShortGroup (s : List Char) (g : UInt16) : Prop where
  nonempty : s ≠ []
  lead : s.head? = some '0' → s = ['0']
  value : Spells LowerHexDigit 16 s g.toNat

/-- The texts of groups with a colon between neighbours. -/
inductive ShortGroups : List Char → List UInt16 → Prop
  | nil : ShortGroups [] []
  | last {s : List Char} {g : UInt16} (group : ShortGroup s g) : ShortGroups s [g]
  | cons {s t : List Char} {g next : UInt16} {more : List UInt16} (group : ShortGroup s g)
      (rest : ShortGroups t (next :: more)) : ShortGroups (s ++ ':' :: t) (g :: next :: more)

/-- The canonical text of an IPv6 address: all groups if no two zero groups are neighbours, and
otherwise the groups before and after the first longest run of zeros, with `::` between them. -/
inductive CanonicalForm (v : IPv6) : List Char → Prop
  | full {s : List Char}
      (apart : ∀ i : Nat, ¬ (v.groups[i]? = some 0 ∧ v.groups[i + 1]? = some 0))
      (groups : ShortGroups s v.groups) : CanonicalForm v s
  | compressed {start len : Nat} {s t : List Char} (run : FirstLongest v.groups (start, len))
      (two_le : 2 ≤ len) (left : ShortGroups s (v.groups.take start))
      (right : ShortGroups t (v.groups.drop (start + len))) :
      CanonicalForm v (s ++ "::".toList ++ t)

/-- A mark stands in no more than one place of a text. -/
def AtMostOnce (mark s : List Char) : Prop :=
  ∀ before after before' after', s = before ++ mark ++ after → s = before' ++ mark ++ after' →
    before = before'

/-! ## Writing -/

theorem shortGroup_iff {s : List Char} {g : UInt16} : ShortGroup s g ↔ s = hexadecimal g.toNat := by
  constructor
  · intro h
    have digit : ∀ c d, LowerHexDigit c d → d < 16 ∧ c = Nat.digitChar d := fun _ _ hd => hd
    exact h.value.eq_toDigits (by decide) digit h.nonempty h.lead
  · rintro rfl
    refine ⟨Nat.toDigits_ne_nil, ?_, spells_toDigits (by decide) (fun _ hd => ⟨hd, rfl⟩) _⟩
    intro zero
    by_cases pos : 0 < g.toNat
    · exact absurd zero (head?_toDigits_ne_zero (by decide) pos)
    · obtain none : g.toNat = 0 := Nat.eq_zero_of_not_pos pos
      rw [none]
      rfl

theorem shortGroups_iff {s : List Char} {gs : List UInt16} :
    ShortGroups s gs ↔ s = groupChars gs := by
  constructor
  · intro h
    induction h with
    | nil => rfl
    | last group => exact shortGroup_iff.mp group
    | cons group rest ih =>
      rw [shortGroup_iff.mp group, ih]
      rfl
  · rintro rfl
    induction gs with
    | nil => exact .nil
    | cons g gs ih =>
      cases gs with
      | nil => exact .last (shortGroup_iff.mpr rfl)
      | cons next more => exact .cons (shortGroup_iff.mpr rfl) ih

/-- The text that is written is canonical, and there is no other canonical text. -/
theorem canonicalForm_iff {v : IPv6} {s : List Char} : CanonicalForm v s ↔ s = v.chars := by
  have found := firstLongest_longestZeroRun v.groups
  rw [IPv6.chars]
  constructor
  · intro h
    cases h with
    | full apart groups =>
      rw [if_pos (found.short_iff.mpr apart)]
      exact shortGroups_iff.mp groups
    | @compressed start len s t run two_le left right =>
      have same : longestZeroRun v.groups = (start, len) := found.unique run
      have long : ¬ len < 2 := Nat.not_lt.mpr two_le
      simp only [same, if_neg long]
      rw [shortGroups_iff.mp left, shortGroups_iff.mp right]
      simp
  · rintro rfl
    split
    · rename_i short
      exact .full (found.short_iff.mp short) (shortGroups_iff.mpr rfl)
    · rename_i long
      generalize longestZeroRun v.groups = run at found long ⊢
      rcases run with ⟨start, len⟩
      have form := CanonicalForm.compressed found (Nat.not_lt.mp long) (shortGroups_iff.mpr rfl)
        (shortGroups_iff.mpr rfl)
      simpa using form

/-! ## Characters -/

/-- A dot stands in dotted quads only. -/
theorem Groups.dot_not_mem {s : List Char} {gs : List UInt16} (h : Groups false s gs) :
    '.' ∉ s := by
  induction h with
  | last group => exact group.not_mem rfl
  | quad allowed dotted => cases allowed
  | cons group rest ih => simp [group.not_mem (c := '.') rfl, ih]

theorem Side.dot_not_mem {s : List Char} {gs : List UInt16} (h : Side false s gs) : '.' ∉ s := by
  cases h with
  | empty => simp
  | groups h => exact h.dot_not_mem

theorem dot_not_mem_groupChars (gs : List UInt16) : '.' ∉ groupChars gs :=
  (side_groupChars false gs).dot_not_mem

/-- A group takes up to four characters, and a fifth for the colon after it. -/
theorem length_groupChars_le (gs : List UInt16) : (groupChars gs).length ≤ 5 * gs.length - 1 := by
  induction gs with
  | nil => exact Nat.le_refl _
  | cons g gs ih =>
    have short := (group_hexadecimal g).le_four
    cases gs with
    | nil => exact short
    | cons next more =>
      have whole : groupChars (g :: next :: more) =
          hexadecimal g.toNat ++ ':' :: groupChars (next :: more) := rfl
      rw [whole]
      simp only [List.length_append, List.length_cons] at ih ⊢
      omega

theorem length_chars_le (v : IPv6) : v.chars.length ≤ 39 := by
  have eight : v.groups.length = 8 := rfl
  simp only [IPv6.chars]
  split
  · exact length_groupChars_le v.groups
  · rename_i long
    have fits := (firstLongest_longestZeroRun v.groups).zeros.add_le (by omega)
    have left := length_groupChars_le (v.groups.take (longestZeroRun v.groups).1)
    have right := length_groupChars_le
      (v.groups.drop ((longestZeroRun v.groups).1 + (longestZeroRun v.groups).2))
    rw [List.length_take] at left
    rw [List.length_drop] at right
    simp only [List.length_append, List.length_cons]
    omega

/-! ## Two colons -/

/-- Groups end with a character other than a colon. -/
theorem Groups.getLast?_ne {quad : Bool} {s : List Char} {gs : List UInt16}
    (h : Groups quad s gs) : s.getLast? ≠ some ':' := by
  induction h with
  | last group =>
    intro last
    exact group.not_mem (c := ':') rfl (List.mem_of_getLast? last)
  | quad allowed dotted =>
    intro last
    exact dotted.colon_not_mem (List.mem_of_getLast? last)
  | @cons s t g gs group rest ih =>
    rcases rest.exists_cons with ⟨c, more, rfl, hc⟩
    simpa using ih

theorem Side.getLast?_ne {quad : Bool} {s : List Char} {gs : List UInt16} (h : Side quad s gs) :
    s.getLast? ≠ some ':' := by
  cases h with
  | empty => simp
  | groups h => exact h.getLast?_ne

theorem Side.head?_ne {quad : Bool} {s : List Char} {gs : List UInt16} (h : Side quad s gs) :
    s.head? ≠ some ':' := by
  cases h with
  | empty => simp
  | groups h =>
    rcases h.exists_cons with ⟨c, more, rfl, hc⟩
    simpa using hc

theorem Side.not_double_colon {quad : Bool} {s : List Char} {gs : List UInt16}
    (h : Side quad s gs) : ¬ [':', ':'] <:+: s :=
  not_infix_of_cutAt?_eq_none (h.cutAt?_eq_none [])

/-- No text of eight groups has two colons next to each other in two places. -/
theorem ColonForm.atMostOnce {s : List Char} {gs : List UInt16} (h : ColonForm s gs) :
    AtMostOnce "::".toList s := by
  intro before after before' after' here there
  rw [List.append_assoc] at here there
  cases h with
  | full groups count =>
    have nowhere := (Side.groups groups).not_double_colon
    exact absurd ⟨before, after, by simp [here]⟩ nowhere
  | @compressed s t _ _ left right count =>
    have only {front back : List Char}
        (cut : s ++ ':' :: ':' :: t = front ++ ':' :: ':' :: back) : front = s :=
      eq_of_append_pair left.not_double_colon left.getLast?_ne right.not_double_colon
        right.head?_ne cut
    rw [only here, only there]

/-- Three colons in a row are two colons in two places. -/
theorem AtMostOnce.not_triple {c : Char} {s : List Char} (h : AtMostOnce [c, c] s) :
    ¬ [c, c, c] <:+: s := by
  rintro ⟨before, after, rfl⟩
  have same := h before (c :: after) (before ++ [c]) after (by simp) (by simp)
  simpa using congrArg List.length same

/-! ## Texts -/

/-- Different addresses have different canonical texts. -/
theorem chars_injective {v w : IPv6} (h : v.chars = w.chars) : v = w := by
  have hv : colonForm? v.chars = some v := colonForm?_eq_some_iff.mpr (colonForm_chars v)
  have hw : colonForm? w.chars = some w := colonForm?_eq_some_iff.mpr (colonForm_chars w)
  rw [h, hw] at hv
  exact (Option.some.inj hv).symm

/-- The canonical text of an IPv6 address is of the canonical form, and the only text of this form.
It has no dot, `::` at most once and `:::` nowhere, it has at most 39 characters, and no other
address has it, be it in `::ffff:0:0/96` or not. -/
theorem text_canonical (v : IPv6) :
    (∀ s : String, s = (Address.v6 v).text ↔ CanonicalForm v s.toList) ∧
    '.' ∉ (Address.v6 v).text.toList ∧
    AtMostOnce "::".toList (Address.v6 v).text.toList ∧
    ¬ ":::".toList <:+: (Address.v6 v).text.toList ∧
    (Address.v6 v).text.length ≤ 39 ∧
    ∀ w : IPv6, (Address.v6 w).text = (Address.v6 v).text ↔ w = v := by
  have chars (w : IPv6) : (Address.v6 w).text.toList = w.chars := String.toList_ofList
  have once : AtMostOnce "::".toList v.chars := (colonForm_chars v).atMostOnce
  refine ⟨?_, ?_, ?_, ?_, ?_, ?_⟩
  · intro s
    rw [canonicalForm_iff, ← chars, String.toList_inj]
  · rw [chars, IPv6.chars]
    split
    · exact dot_not_mem_groupChars _
    · simp [dot_not_mem_groupChars]
  · rw [chars]
    exact once
  · rw [chars]
    exact once.not_triple
  · rw [← String.length_toList, chars]
    exact length_chars_le v
  · intro w
    constructor
    · intro same
      apply chars_injective
      rw [← chars, ← chars, same]
    · rintro rfl
      rfl

end Groundwork.Address
