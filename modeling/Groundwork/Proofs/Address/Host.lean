import Groundwork.Address.Host
import Groundwork.Proofs.Address.Reading

/-!
# Reading hosts

The form of a host is an IPv4 literal as it stands, without a colon, or an IPv6 literal in brackets.
A literal of an address in `::ffff:0:0/96` is an IPv6 literal, but it is read as the IPv4 address,
so that such a literal is taken as a host without brackets too.

* `HostForm`: the form of hosts.
* `ofHostChars?_eq_some_iff`: which hosts are read.
* `literal_v4_iff`, `Literal.colon_mem`: which literals have colons.
* `ofHost_eq_ok_iff`: what is read are hosts of the form, and literals of mapped addresses.
* `readsForm_iff`: a host is read as the form says exactly if it is no literal of a mapped address.
-/

namespace Groundwork.Address

open Groundwork.Text

/-! ## Forms -/

/-- The form of a host: an IPv4 literal bare, and hence without a colon, or an IPv6 literal in
brackets. -/
inductive HostForm : String → Address → Prop
  | bare {host : String} {a : Address} (nocolon : ':' ∉ host.toList)
      (literal : ofLiteral host = .ok a) : HostForm host a
  | bracketed {inner : String} {v : IPv6} (literal : ofLiteral inner = .ok (.v6 v)) :
      HostForm ("[" ++ inner ++ "]") (.v6 v)

/-- A host that is a text of eight groups, without brackets, of the address in `::ffff:0:0/96` that
stands for an IPv4 address. -/
def BareMapped (host : String) (v : IPv4) : Prop :=
  ColonForm host.toList ([0, 0, 0, 0, 0, 0xffff] ++ quadGroups v)

/-- The refusal of a host. -/
def hostRefusal (host : String) : AddressError :=
  if host = "" then .emptyHost else .invalidUriHost host

/-- A host is read as the form says: it is accepted as an address exactly if it has the form for it,
and otherwise refused by name. -/
structure ReadsForm (host : String) : Prop where
  accepts : ∀ a, ofHost host = .ok a ↔ HostForm host a
  refuses : ∀ e, ofHost host = .error e ↔ e = hostRefusal host ∧ ∀ a, ¬ HostForm host a

/-! ## Literals with and without colons -/

/-- A literal of an IPv4 address is a dotted quad, or eight groups of a mapped address. -/
theorem literal_v4_iff {s : List Char} {v : IPv4} : Literal s (.v4 v) ↔
    Quad s v ∨ ColonForm s ([0, 0, 0, 0, 0, 0xffff] ++ quadGroups v) := by
  constructor
  · intro h
    cases h with
    | quad dotted => exact .inl dotted
    | colon form value =>
      cases value
      exact .inr form
  · rintro (dotted | form)
    · exact .quad dotted
    · exact .colon form (.mapped v)

/-- A literal of an IPv6 address has a colon. -/
theorem Literal.colon_mem {s : List Char} {v : IPv6} (h : Literal s (.v6 v)) : ':' ∈ s := by
  cases h with
  | colon form value => exact form.colon_mem

theorem BareMapped.colon_mem {host : String} {v : IPv4} (h : BareMapped host v) :
    ':' ∈ host.toList :=
  ColonForm.colon_mem h

/-- A bracket stands in no literal. -/
theorem Literal.bracket_not_mem {s : List Char} {a : Address} (h : Literal s a) : '[' ∉ s :=
  h.not_mem rfl (by decide) (by decide)

/-! ## Hosts -/

theorem unbracketed?_eq_some_iff {host inner : List Char} :
    unbracketed? host = some inner ↔ host = '[' :: inner ++ [']'] := by
  constructor
  · intro h
    unfold unbracketed? at h
    split at h
    · rename_i rest
      split at h
      · rename_i closed
        obtain rfl := Option.some.inj h
        rcases List.getLast?_eq_some_iff.mp closed with ⟨front, rfl⟩
        simp
      · cases h
    · cases h
  · rintro rfl
    simp [unbracketed?]

/-- A host is read if it is a literal of an IPv4 address, or a literal of an IPv6 address in
brackets. -/
theorem ofHostChars?_eq_some_iff {host : List Char} {a : Address} : ofHostChars? host = some a ↔
    (∃ v, Literal host (.v4 v) ∧ a = .v4 v) ∨
      ∃ inner v, host = '[' :: inner ++ [']'] ∧ Literal inner (.v6 v) ∧ a = .v6 v := by
  constructor
  · intro h
    unfold ofHostChars? at h
    split at h
    · rename_i v hv
      obtain rfl := Option.some.inj h
      exact .inl ⟨v, ofChars?_eq_some_iff.mp hv, rfl⟩
    · split at h
      · rename_i v hv
        obtain rfl := Option.some.inj h
        rcases Option.bind_eq_some_iff.mp hv with ⟨inner, hinner, literal⟩
        exact .inr ⟨inner, v, unbracketed?_eq_some_iff.mp hinner, ofChars?_eq_some_iff.mp literal,
          rfl⟩
      · cases h
  · rintro (⟨v, literal, rfl⟩ | ⟨inner, v, rfl, literal, rfl⟩)
    · rw [ofHostChars?, ofChars?_eq_some_iff.mpr literal]
    · -- in brackets there is no bare literal, and what stands inside decides
      have nothing : ofChars? ('[' :: inner ++ [']']) = none := by
        apply Option.eq_none_iff_forall_ne_some.mpr
        intro b hb
        exact (ofChars?_eq_some_iff.mp hb).bracket_not_mem (by simp)
      have inside : unbracketed? ('[' :: inner ++ [']']) = some inner :=
        unbracketed?_eq_some_iff.mpr rfl
      rw [ofHostChars?, nothing, inside, Option.bind_some, ofChars?_eq_some_iff.mpr literal]

theorem ofHost_eq (host : String) : ofHost host =
    match ofHostChars? host.toList with
    | some a => .ok a
    | none => .error (hostRefusal host) := by
  by_cases empty : host = ""
  · rw [empty]
    decide
  · have refusal : hostRefusal host = .invalidUriHost host := if_neg empty
    have nonempty : ¬ host.isEmpty = true := by simpa using empty
    rw [refusal]
    exact if_neg nonempty

theorem ofHost_eq_ok_iff_ofHostChars? {host : String} {a : Address} :
    ofHost host = .ok a ↔ ofHostChars? host.toList = some a := by
  rw [ofHost_eq]
  cases ofHostChars? host.toList <;> simp

/-- What is read as a host has the form of a host or is a bare literal of a mapped address. -/
theorem ofHost_eq_ok_iff {host : String} {a : Address} :
    ofHost host = .ok a ↔ HostForm host a ∨ ∃ v, BareMapped host v ∧ a = .v4 v := by
  rw [ofHost_eq_ok_iff_ofHostChars?, ofHostChars?_eq_some_iff]
  constructor
  · rintro (⟨v, literal, rfl⟩ | ⟨inner, v, hhost, literal, rfl⟩)
    · rcases literal_v4_iff.mp literal with dotted | mapped
      · exact .inl (.bare dotted.colon_not_mem (ofLiteral_eq_ok_iff.mpr literal))
      · exact .inr ⟨v, mapped, rfl⟩
    · have whole : host = "[" ++ String.ofList inner ++ "]" := by
        apply String.toList_inj.mp
        simp [hhost]
      rw [whole]
      refine .inl (.bracketed (ofLiteral_eq_ok_iff.mpr ?_))
      rwa [String.toList_ofList]
  · rintro (form | ⟨v, mapped, rfl⟩)
    · cases form with
      | bare nocolon literal =>
        have hliteral := ofLiteral_eq_ok_iff.mp literal
        cases a with
        | v4 v => exact .inl ⟨v, hliteral, rfl⟩
        | v6 v => exact absurd hliteral.colon_mem nocolon
      | @bracketed inner v literal =>
        exact .inr ⟨inner.toList, v, by simp, ofLiteral_eq_ok_iff.mp literal, rfl⟩
    · exact .inl ⟨v, literal_v4_iff.mpr (.inr mapped), rfl⟩

theorem ofHost_eq_error_iff {host : String} {e : AddressError} :
    ofHost host = .error e ↔ e = hostRefusal host ∧ ∀ a, ofHost host ≠ .ok a := by
  rw [ofHost_eq]
  cases ofHostChars? host.toList with
  | none => simp [eq_comm]
  | some a => simp

/-- A bare literal of a mapped address has not the form of a host: it has a colon, and no
brackets. -/
theorem BareMapped.not_hostForm {host : String} {v : IPv4} (h : BareMapped host v) (a : Address) :
    ¬ HostForm host a := by
  intro form
  cases form with
  | bare nocolon literal => exact nocolon h.colon_mem
  | bracketed literal =>
    have bare : Literal _ (.v4 v) := literal_v4_iff.mpr (.inr h)
    exact bare.bracket_not_mem (by simp)

/-- A host is read as the form says exactly if it is no bare literal of a mapped address; such a
literal is read as the IPv4 address that it stands for. -/
theorem readsForm_iff (host : String) :
    (ReadsForm host ↔ ∀ v, ¬ BareMapped host v) ∧
      ∀ v, BareMapped host v → ofHost host = .ok (.v4 v) := by
  refine ⟨⟨?_, ?_⟩, ?_⟩
  · intro reads v mapped
    have accepted : ofHost host = .ok (.v4 v) := ofHost_eq_ok_iff.mpr (.inr ⟨v, mapped, rfl⟩)
    exact mapped.not_hostForm _ ((reads.accepts _).mp accepted)
  · intro unmapped
    have accepts : ∀ a, ofHost host = .ok a ↔ HostForm host a := by
      intro a
      rw [ofHost_eq_ok_iff, or_iff_left]
      rintro ⟨v, mapped, -⟩
      exact unmapped v mapped
    refine ⟨accepts, ?_⟩
    intro e
    rw [ofHost_eq_error_iff]
    exact and_congr_right fun _ => forall_congr' fun a => not_congr (accepts a)
  · intro v mapped
    exact ofHost_eq_ok_iff.mpr (.inr ⟨v, mapped, rfl⟩)

/-- An IPv6 literal is taken as a host without brackets. -/
theorem not_readsForm_of_mapped_quad :
    ':' ∈ "::ffff:1.2.3.4".toList ∧ ofHost "::ffff:1.2.3.4" = .ok (.v4 ⟨1, 2, 3, 4⟩) ∧
      ¬ ReadsForm "::ffff:1.2.3.4" := by
  have accepted : ofHost "::ffff:1.2.3.4" = .ok (.v4 ⟨1, 2, 3, 4⟩) := by decide
  have colon : ':' ∈ "::ffff:1.2.3.4".toList := by decide
  refine ⟨colon, accepted, ?_⟩
  intro reads
  generalize hhost : "::ffff:1.2.3.4" = host at accepted colon reads
  cases (reads.accepts _).mp accepted with
  | bare nocolon literal => exact nocolon colon

end Groundwork.Address
