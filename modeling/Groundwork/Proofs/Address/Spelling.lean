import Mathlib.Logic.ExistsUnique
import Groundwork.Proofs.Address.RoundTrip

/-!
# The spelling of an IPv4 address

An IPv6 address has many literals. An IPv4 address has many too, but only one of them has no colon:
its canonical text.

* `octet_iff`, `quad_iff`: an octet is the written decimal number and a dotted quad the canonical
  text, and nothing else is.
* `ofLiteral_of_colon_not_mem`: what a text without a colon is read as.
* `ofLiteral_oneSpelling`: reading such a text and writing the address gives the text back, so that
  every IPv4 address is spelled in one way.
-/

namespace Groundwork.Address

open Groundwork.Text

/-! ## Parts -/

/-- An octet is the decimal number of its byte as it is written. -/
theorem octet_iff {s : List Char} {b : UInt8} : Octet s b ↔ s = decimal b.toNat := by
  constructor
  · intro h
    cases h with
    | zero => rfl
    | digits one_le le_three lead value =>
      have digit : ∀ c d, DecimalDigit c d → d < 10 ∧ c = Nat.digitChar d := fun _ _ hd => hd
      have nonempty : s ≠ [] := List.ne_nil_of_length_pos one_le
      have noLead : s.head? = some '0' → s = ['0'] := fun zero => absurd zero lead
      exact value.eq_toDigits (by decide) digit nonempty noLead
  · intro h
    rw [h]
    exact octet_decimal b

/-- A dotted quad is the canonical text of its address. -/
theorem quad_iff {s : List Char} {v : IPv4} : Quad s v ↔ s = v.chars := by
  constructor
  · intro h
    cases h with
    | mk first second third fourth =>
      rw [octet_iff.mp first, octet_iff.mp second, octet_iff.mp third, octet_iff.mp fourth]
      rfl
  · intro h
    rw [h]
    exact quad_chars v

/-! ## Texts without a colon -/

/-- A literal without a colon is a dotted quad. -/
theorem Literal.exists_quad {s : List Char} {a : Address} (h : Literal s a) (nocolon : ':' ∉ s) :
    ∃ v, a = .v4 v ∧ Quad s v := by
  cases h with
  | @quad v dotted => exact ⟨v, rfl, dotted⟩
  | colon form value => exact absurd form.colon_mem nocolon

/-- A text without a colon is read as an address exactly if that is an IPv4 address and the text is
its canonical text. -/
theorem ofLiteral_of_colon_not_mem {text : String} (nocolon : ':' ∉ text.toList) {a : Address} :
    ofLiteral text = .ok a ↔ ∃ v : IPv4, a = .v4 v ∧ text = (Address.v4 v).text := by
  constructor
  · intro read
    rcases (ofLiteral_eq_ok_iff.mp read).exists_quad nocolon with ⟨v, same, dotted⟩
    refine ⟨v, same, ?_⟩
    have chars : text.toList = v.chars := quad_iff.mp dotted
    rw [← String.ofList_toList (s := text), chars]
    rfl
  · intro h
    rcases h with ⟨v, same, canonical⟩
    rw [same, canonical]
    exact ofLiteral_text_eq_ok_iff.mpr (literal_chars_v4 v)

theorem colon_not_mem_text (v : IPv4) : ':' ∉ (Address.v4 v).text.toList := by
  have chars : (Address.v4 v).text.toList = v.chars := String.toList_ofList
  rw [chars]
  exact (quad_chars v).colon_not_mem

/-- A text without a colon that is read as an address is the canonical text of that address, which
is an IPv4 address. So two such texts are read as the same address only if they are the same, and
every IPv4 address has exactly one. -/
theorem ofLiteral_oneSpelling :
    (∀ (text : String) (a : Address), ':' ∉ text.toList → ofLiteral text = .ok a →
      (∃ v, a = .v4 v) ∧ a.text = text) ∧
    (∀ (text other : String) (a : Address), ':' ∉ text.toList → ':' ∉ other.toList →
      ofLiteral text = .ok a → ofLiteral other = .ok a → text = other) ∧
    (∀ v : IPv4, ∃! text : String, ':' ∉ text.toList ∧ ofLiteral text = .ok (.v4 v)) := by
  have spelled : ∀ (text : String) (a : Address), ':' ∉ text.toList → ofLiteral text = .ok a →
      (∃ v, a = .v4 v) ∧ a.text = text := by
    intro text a nocolon read
    rcases (ofLiteral_of_colon_not_mem nocolon).mp read with ⟨v, same, canonical⟩
    refine ⟨⟨v, same⟩, ?_⟩
    rw [same, canonical]
  refine ⟨spelled, ?_, ?_⟩
  · intro text other a nocolon nocolon' read read'
    have here := (spelled text a nocolon read).2
    have there := (spelled other a nocolon' read').2
    rw [← here, there]
  · intro v
    have nocolon := colon_not_mem_text v
    refine ⟨(Address.v4 v).text, ⟨nocolon, ?_⟩, ?_⟩
    · exact (ofLiteral_of_colon_not_mem nocolon).mpr ⟨v, rfl, rfl⟩
    · intro other h
      exact ((spelled other (.v4 v) h.1 h.2).2).symm

/-- The colon-free spelling of an address that is also written `::ffff:10.0.0.255`. -/
theorem oneSpelling_of_private_quad :
    (':' ∉ "10.0.0.255".toList ∧ ofLiteral "10.0.0.255" = .ok (.v4 ⟨10, 0, 0, 255⟩)) ∧
      (Address.v4 ⟨10, 0, 0, 255⟩).text = "10.0.0.255" ∧
      ∀ other : String, ':' ∉ other.toList → ofLiteral other = .ok (.v4 ⟨10, 0, 0, 255⟩) →
        "10.0.0.255" = other := by
  have nocolon : ':' ∉ "10.0.0.255".toList := by decide
  have read : ofLiteral "10.0.0.255" = .ok (.v4 ⟨10, 0, 0, 255⟩) := by decide
  refine ⟨⟨nocolon, read⟩, (ofLiteral_oneSpelling.1 _ _ nocolon read).2, ?_⟩
  intro other nocolon' read'
  exact ofLiteral_oneSpelling.2.1 _ other _ nocolon nocolon' read read'

end Groundwork.Address
