import Groundwork.Proofs.Address.Reading
import Groundwork.Proofs.Address.ZeroRun

/-!
# Writing and reading addresses

The canonical text of an address is a literal of its normal form.

* `quad_chars`, `groups_groupChars`: the writers of the parts of an address write what the grammar
  has.
* `colonForm_chars`: the canonical text of an IPv6 address is a text of its eight groups, wherever
  the zero groups lie.
* `ofLiteral_text`: reading the canonical text gives the address back in normal form.
-/

namespace Groundwork.Address

open Groundwork.Text

/-! ## Parts -/

theorem octet_decimal (b : UInt8) : Octet (decimal b.toNat) b := by
  by_cases zero : b.toNat = 0
  · obtain rfl : b = 0 := UInt8.toNat_inj.mp zero
    exact .zero
  · have small : b.toNat < 10 ^ 3 := by
      have := b.toNat_lt
      omega
    exact .digits Nat.length_toDigits_pos
      ((Nat.length_toDigits_le_iff (by decide) (by decide)).mpr small)
      (head?_toDigits_ne_zero (by decide) (Nat.pos_of_ne_zero zero)) (spells_decimal _)

theorem quad_chars (v : IPv4) : Quad v.chars v :=
  .mk (octet_decimal v.a) (octet_decimal v.b) (octet_decimal v.c) (octet_decimal v.d)

theorem group_hexadecimal (g : UInt16) : Group (hexadecimal g.toNat) g := by
  have small : g.toNat < 16 ^ 4 := g.toNat_lt
  exact ⟨Nat.length_toDigits_pos,
    (Nat.length_toDigits_le_iff (by decide) (by decide)).mpr small, spells_hexadecimal _⟩

theorem groups_groupChars (quad : Bool) {gs : List UInt16} (h : gs ≠ []) :
    Groups quad (groupChars gs) gs := by
  -- no colon is written after the last group, which is the case of its own
  induction gs with
  | nil => exact absurd rfl h
  | cons g gs ih =>
    cases gs with
    | nil => exact .last (group_hexadecimal g)
    | cons next more => exact .cons (group_hexadecimal g) (ih (by simp))

theorem side_groupChars (quad : Bool) (gs : List UInt16) : Side quad (groupChars gs) gs := by
  by_cases empty : gs = []
  · rw [empty]
    exact .empty
  · exact .groups (groups_groupChars quad empty)

/-! ## Addresses -/

/-- The canonical text of an IPv6 address is a text of its eight groups. -/
theorem colonForm_chars (v : IPv6) : ColonForm v.chars v.groups := by
  simp only [IPv6.chars]
  split
  · exact .full (groups_groupChars true (by simp [IPv6.groups])) rfl
  · rename_i long
    have whole := zeros_longestZeroRun v.groups
    -- which run it is does not matter, only that zeros lie there and that it ends in time
    have fits := (firstLongest_longestZeroRun v.groups).zeros.add_le (by omega)
    have eight : v.groups.length = 8 := rfl
    generalize longestZeroRun v.groups = run at long whole fits
    rcases run with ⟨start, len⟩
    simp only at long whole fits ⊢
    have hleft : (v.groups.take start).length = start := by
      rw [List.length_take]
      omega
    have hright : (v.groups.drop (start + len)).length = 8 - (start + len) := by
      rw [List.length_drop, eight]
    have form := ColonForm.compressed (side_groupChars false (v.groups.take start))
      (side_groupChars true (v.groups.drop (start + len))) (by omega)
    have missing : 8 - (start + (8 - (start + len))) = len := by omega
    rw [hleft, hright, missing, whole] at form
    exact form

theorem literal_chars_v6 (v : IPv6) : Literal (Address.v6 v).chars v.unmapped :=
  .colon (colonForm_chars v) (normalForm_groups_iff.mpr rfl)

theorem literal_chars_v4 (v : IPv4) : Literal (Address.v4 v).chars (.v4 v) :=
  .quad (quad_chars v)

theorem ofLiteral_text_eq_ok_iff {a b : Address} :
    ofLiteral a.text = .ok b ↔ Literal a.chars b := by
  rw [ofLiteral_eq_ok_iff, text, String.toList_ofList]

theorem ofBytes_bytes_v6 (v : IPv6) : ofBytes v.bytes = .ok v.unmapped := by
  have sixteen : IPv4.ofBytes? v.bytes = none := rfl
  rw [ofBytes, sixteen]
  simp

/-- The address of a literal is in normal form: it is no IPv6 address of `::ffff:0:0/96`. -/
theorem Literal.isMapped_eq_false {s : List Char} {v : IPv6} (h : Literal s (.v6 v)) :
    v.isMapped = false := by
  cases h with
  | colon form value =>
    rcases exists_eq_groups form.length_eq with ⟨w, rfl⟩
    rcases unmapped_eq_v6_iff.mp (normalForm_groups_iff.mp value).symm with ⟨rfl, outside⟩
    exact outside

theorem unmapped_of_isMapped_eq_false {v : IPv6} (h : v.isMapped = false) :
    v.unmapped = .v6 v :=
  unmapped_eq_v6_iff.mpr ⟨rfl, h⟩

/-- Reading the canonical text of an address gives the address back: an IPv4 address as it is, an
IPv6 address in the normal form of its bytes, which for one of `::ffff:0:0/96` is the IPv4 address
of the last four, and an address that was read from a literal as it was read. -/
theorem ofLiteral_text :
    (∀ v : IPv4, ofLiteral (Address.v4 v).text = .ok (.v4 v)) ∧
    (∀ v : IPv6, ofLiteral (Address.v6 v).text = ofBytes v.bytes ∧
      (v.groups.take 6 ≠ [0, 0, 0, 0, 0, 0xffff] → ofBytes v.bytes = .ok (.v6 v)) ∧
      (v.groups.take 6 = [0, 0, 0, 0, 0, 0xffff] →
        ∃ q : IPv4, ofBytes v.bytes = .ok (.v4 q) ∧ [q.a, q.b, q.c, q.d] = v.bytes.drop 12)) ∧
    (∀ (literal : String) (a : Address),
      ofLiteral literal = .ok a → ofLiteral a.text = .ok a) := by
  refine ⟨?_, ?_, ?_⟩
  · intro v
    exact ofLiteral_text_eq_ok_iff.mpr (literal_chars_v4 v)
  · intro v
    rw [ofBytes_bytes_v6]
    refine ⟨ofLiteral_text_eq_ok_iff.mpr (literal_chars_v6 v), ?_, ?_⟩
    · intro front
      rw [IPv6.unmapped, IPv6.mapped?, if_neg (mt (isMapped_iff v).mp front)]
    · intro front
      refine ⟨v.lastFour, ?_, rfl⟩
      rw [IPv6.unmapped, IPv6.mapped?, if_pos ((isMapped_iff v).mpr front)]
  · intro literal a ha
    have hliteral := ofLiteral_eq_ok_iff.mp ha
    cases a with
    | v4 v => exact ofLiteral_text_eq_ok_iff.mpr (literal_chars_v4 v)
    | v6 v =>
      -- what was read is in normal form, so that reading its text changes nothing
      have same : v.unmapped = .v6 v := unmapped_of_isMapped_eq_false hliteral.isMapped_eq_false
      have again : Literal (Address.v6 v).chars v.unmapped := literal_chars_v6 v
      rw [same] at again
      exact ofLiteral_text_eq_ok_iff.mpr again

/-- An address that was not read from its canonical text. -/
theorem ofLiteral_text_of_long_literal :
    ofLiteral "2001:DB8:0:0::0:1" = .ok (.v6 ⟨0x2001, 0xdb8, 0, 0, 0, 0, 0, 1⟩) ∧
      ofLiteral (Address.v6 ⟨0x2001, 0xdb8, 0, 0, 0, 0, 0, 1⟩).text =
        .ok (.v6 ⟨0x2001, 0xdb8, 0, 0, 0, 0, 0, 1⟩) := by
  have read : ofLiteral "2001:DB8:0:0::0:1" = .ok (.v6 ⟨0x2001, 0xdb8, 0, 0, 0, 0, 0, 1⟩) := by
    decide
  exact ⟨read, ofLiteral_text.2.2 _ _ read⟩

end Groundwork.Address
