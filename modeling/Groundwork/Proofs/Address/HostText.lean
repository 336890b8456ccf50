import Groundwork.Proofs.Address.NormalForm

/-!
# Writing and reading hosts

The text of an address as a host is read back as the address if it is in normal form, and refused
if it is not: the reader does not take a mapped address in brackets, since its literal is read as an
IPv4 address.

* `ofHost_brackets_eq_ok_iff`: in brackets, literals of IPv6 addresses are read and nothing else.
* `ofHost_uriText_of_normal`, `ofHost_uriText_of_isMapped`: addresses in normal form and the others.
* `ofHost_uriText`: writing a host and reading it, for all addresses and for those that are read
  from anything.
-/

namespace Groundwork.Address

open Groundwork.Text

/-- In brackets, literals of IPv6 addresses are read and nothing else. -/
theorem ofHost_brackets_eq_ok_iff {inner : String} {a : Address} :
    ofHost ("[" ++ inner ++ "]") = .ok a ↔ ∃ v, a = .v6 v ∧ ofLiteral inner = .ok (.v6 v) := by
  have chars : ("[" ++ inner ++ "]").toList = '[' :: inner.toList ++ [']'] := by simp
  rw [ofHost_eq_ok_iff_ofHostChars?, chars, ofHostChars?_eq_some_iff]
  constructor
  · rintro (⟨v, literal, rfl⟩ | ⟨inside, v, whole, literal, rfl⟩)
    · exact absurd (by simp) literal.bracket_not_mem
    · obtain rfl : inner.toList = inside := by simpa using whole
      exact ⟨v, rfl, ofLiteral_eq_ok_iff.mpr literal⟩
  · rintro ⟨v, rfl, literal⟩
    exact .inr ⟨inner.toList, v, rfl, ofLiteral_eq_ok_iff.mp literal, rfl⟩

theorem uriText_v6 (v : IPv6) : (Address.v6 v).uriText = "[" ++ (Address.v6 v).text ++ "]" := by
  apply String.toList_inj.mp
  simp [uriText, uriChars, text, chars]

theorem ofLiteral_text_v6 (v : IPv6) : ofLiteral (Address.v6 v).text = .ok v.unmapped :=
  ofLiteral_text_eq_ok_iff.mpr (literal_chars_v6 v)

/-- An address in normal form is read back. -/
theorem ofHost_uriText_of_normal {a : Address} (h : a.Normal) : ofHost a.uriText = .ok a := by
  cases a with
  | v4 v =>
    have literal : Literal (Address.v4 v).uriText.toList (.v4 v) := by
      rw [uriText, String.toList_ofList]
      exact literal_chars_v4 v
    have nocolon : ':' ∉ (Address.v4 v).uriText.toList := by
      rw [uriText, String.toList_ofList]
      exact (quad_chars v).colon_not_mem
    exact ofHost_eq_ok_iff.mpr (.inl (.bare nocolon (ofLiteral_eq_ok_iff.mpr literal)))
  | v6 v =>
    have same : v.unmapped = .v6 v := unmapped_of_isMapped_eq_false (normal_v6_iff.mp h)
    rw [uriText_v6]
    apply ofHost_brackets_eq_ok_iff.mpr
    exact ⟨v, rfl, by rw [ofLiteral_text_v6, same]⟩

/-- A mapped address is refused: in brackets stands a literal of an IPv4 address. -/
theorem ofHost_uriText_of_isMapped {v : IPv6} (h : v.isMapped = true) :
    ofHost (Address.v6 v).uriText = .error (.invalidUriHost (Address.v6 v).uriText) := by
  have nonempty : (Address.v6 v).uriText ≠ "" := by
    intro empty
    have := congrArg String.toList empty
    simp [uriText, uriChars] at this
  rw [ofHost_eq_error_iff, hostRefusal, if_neg nonempty]
  refine ⟨rfl, ?_⟩
  intro a read
  rw [uriText_v6] at read
  rcases ofHost_brackets_eq_ok_iff.mp read with ⟨w, -, literal⟩
  rw [ofLiteral_text_v6, Except.ok.injEq] at literal
  rcases unmapped_eq_v6_iff.mp literal with ⟨-, outside⟩
  rw [h] at outside
  cases outside

/-- The text of an address as a host is read back as the address, unless it is an address in
`::ffff:0:0/96`, whose text is refused. So it is read back for every address that is read from a
host, from a literal or from bytes. -/
theorem ofHost_uriText :
    (∀ v : IPv4, ofHost (Address.v4 v).uriText = .ok (.v4 v)) ∧
    (∀ v : IPv6, ofHost (Address.v6 v).uriText =
      if v.groups.take 6 = [0, 0, 0, 0, 0, 0xffff] then
        .error (.invalidUriHost (Address.v6 v).uriText)
      else .ok (.v6 v)) ∧
    (∀ a, Obtained a → ofHost a.uriText = .ok a) := by
  refine ⟨?_, ?_, ?_⟩
  · intro v
    have normal : (Address.v4 v).Normal := trivial
    exact ofHost_uriText_of_normal normal
  · intro v
    split
    · rename_i front
      exact ofHost_uriText_of_isMapped ((isMapped_iff v).mpr front)
    · rename_i front
      have normal : (Address.v6 v).Normal := front
      exact ofHost_uriText_of_normal normal
  · intro a h
    exact ofHost_uriText_of_normal h.normal

/-- A host in brackets that is not written the way it was read. -/
theorem ofHost_uriText_of_long_host :
    ofHost "[2001:DB8:0:0::0:1]" = .ok (.v6 ⟨0x2001, 0xdb8, 0, 0, 0, 0, 0, 1⟩) ∧
      ofHost (Address.v6 ⟨0x2001, 0xdb8, 0, 0, 0, 0, 0, 1⟩).uriText =
        .ok (.v6 ⟨0x2001, 0xdb8, 0, 0, 0, 0, 0, 1⟩) := by
  have read : ofHost "[2001:DB8:0:0::0:1]" = .ok (.v6 ⟨0x2001, 0xdb8, 0, 0, 0, 0, 0, 1⟩) := by
    decide
  exact ⟨read, ofHost_uriText.2.2 _ (.host read)⟩

end Groundwork.Address
