import Groundwork.Proofs.Address.Reading

/-!
# The short way to dotted quads

A text with colons in it can be read on two ways. The short way takes `::ffff:` or `::` off its
front and reads the rest as a dotted quad; the general way counts groups. It does not matter that
the short way is tried first.

* `ofGroups`: reading on the general way alone.
* `WaysAgree`: what the short way reads, the general way reads as the same address, and what the
  short way does not read is left to the general way.
* `ofLiteral_waysAgree`: the ways agree on every text with a colon.
-/

namespace Groundwork.Address

open Groundwork.Text

/-- The address of a text of eight groups, in normal form, read on the general way alone. -/
def ofGroups (text : String) : Except AddressError Address :=
  match colonForm? text.toList with
  | some v => .ok v.unmapped
  | none => .error (.notLiteral text)

/-- The two ways to read a text agree. -/
structure WaysAgree (text : String) : Prop where
  /-- The answer is that of the general way. -/
  whole : ofLiteral text = ofGroups text
  /-- An IPv4 address on the short way is a mapped address on the general way, and stands in it. -/
  mapped : ∀ q, quadForm? text.toList = some (.v4 q) →
    ∃ v, colonForm? text.toList = some v ∧ v.mapped? = some q
  /-- An IPv6 address on the short way is the same on the general way, and is no mapped address. -/
  compatible : ∀ v, quadForm? text.toList = some (.v6 v) →
    colonForm? text.toList = some v ∧ v.mapped? = none

theorem ofLiteral_eq_ofGroups {text : String} (colon : ':' ∈ text.toList) :
    ofLiteral text = ofGroups text := by
  rw [ofLiteral, ofGroups, ofChars?_of_colon_mem colon]
  cases colonForm? text.toList with
  | none => rfl
  | some v => rfl

/-- After `::ffff:` the general way reads the mapped address of the dotted quad. -/
theorem exists_mapped_of_mappedMark {s : List Char} {q : IPv4}
    (mark : (s.take mappedMark.length).map Char.toLower = mappedMark)
    (dotted : Quad (s.drop mappedMark.length) q) :
    ∃ v, colonForm? s = some v ∧ v.mapped? = some q := by
  have form := colonForm_of_mappedMark mark dotted
  have value := NormalForm.mapped q
  rcases exists_eq_groups form.length_eq with ⟨v, hv⟩
  rw [hv] at form value
  exact ⟨v, colonForm?_eq_some_iff.mpr form,
    unmapped_eq_v4_iff.mp (normalForm_groups_iff.mp value).symm⟩

/-- After `::` the general way reads the IPv4-compatible address of the dotted quad. -/
theorem colonForm?_of_colons {s : List Char} {q : IPv4} (mark : s.take 2 = [':', ':'])
    (dotted : Quad (s.drop 2) q) : colonForm? s = some (IPv6.compatible q) :=
  colonForm?_eq_some_iff.mpr (colonForm_of_colons mark dotted)

/-- The short way and the general way agree on every text with a colon in it. -/
theorem ofLiteral_waysAgree (text : String) (colon : ':' ∈ text.toList) : WaysAgree text := by
  refine ⟨ofLiteral_eq_ofGroups colon, ?_, ?_⟩
  · intro q h
    cases shortForm_of_quadForm? h with
    | mapped mark dotted => exact exists_mapped_of_mappedMark mark dotted
    | bare dotted => exact absurd colon dotted.colon_not_mem
  · intro v h
    cases shortForm_of_quadForm? h with
    | @compatible q mark dotted =>
      refine ⟨colonForm?_of_colons mark dotted, ?_⟩
      rw [IPv6.mapped?, isMapped_compatible]
      rfl

/-- The short way takes the mark in capital letters too. -/
theorem waysAgree_of_capital_mark :
    ':' ∈ "::FFFF:1.2.3.4".toList ∧
      quadForm? "::FFFF:1.2.3.4".toList = some (.v4 ⟨1, 2, 3, 4⟩) ∧
      ofLiteral "::FFFF:1.2.3.4" = ofGroups "::FFFF:1.2.3.4" ∧
      ∃ v, colonForm? "::FFFF:1.2.3.4".toList = some v ∧ v.mapped? = some ⟨1, 2, 3, 4⟩ := by
  have colon : ':' ∈ "::FFFF:1.2.3.4".toList := by decide
  have short : quadForm? "::FFFF:1.2.3.4".toList = some (.v4 ⟨1, 2, 3, 4⟩) := by decide
  have agree := ofLiteral_waysAgree "::FFFF:1.2.3.4" colon
  exact ⟨colon, short, agree.whole, agree.mapped _ short⟩

end Groundwork.Address
