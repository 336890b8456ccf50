import Groundwork.Proofs.Address.Host
import Groundwork.Proofs.Address.RoundTrip
import Groundwork.Proofs.Address.Teredo

/-!
# Addresses in normal form

Addresses are read from literals, from hosts and from bytes in either order. All these ways lead to
addresses in normal form, which are the ones that their own bytes give back.

* `Normal`: no IPv6 address of `::ffff:0:0/96`; `ofBytes_bytes_eq_ok_iff` says that the bytes of an
  address give it back exactly if it is in normal form.
* `Obtained`: the addresses that are read in any of the ways; `Obtained.normal` is their invariant.
* `ofBytes_cases`: what bytes are read as, by their number.
* `ofLittleEndianBytes_eq`: the copy in the buffer is the reversed order.
* `constructors_agree`: one normal form for all ways to an address.
-/

namespace Groundwork.Address

open Groundwork.Text Groundwork.Bytes

/-! ## The normal form -/

/-- The address is in normal form: it is no IPv6 address of `::ffff:0:0/96`. -/
def Normal : Address → Prop
  | .v4 _ => True
  | .v6 v => v.groups.take 6 ≠ [0, 0, 0, 0, 0, 0xffff]

/-- The addresses that are read from a literal, from a host, or from bytes. -/
inductive Obtained : Address → Prop
  | literal {text : String} {a : Address} (read : ofLiteral text = .ok a) : Obtained a
  | host {host : String} {a : Address} (read : ofHost host = .ok a) : Obtained a
  | bytes {bytes : List UInt8} {a : Address} (read : ofBytes bytes = .ok a) : Obtained a
  | littleEndianBytes {bytes : List UInt8} {a : Address}
      (read : ofLittleEndianBytes bytes = .ok a) : Obtained a

theorem normal_v6_iff {v : IPv6} : (Address.v6 v).Normal ↔ v.isMapped = false := by
  rw [Normal, Ne, ← isMapped_iff, Bool.not_eq_true]

theorem normal_unmapped (v : IPv6) : v.unmapped.Normal := by
  cases h : v.unmapped with
  | v4 q => trivial
  | v6 w =>
    rcases unmapped_eq_v6_iff.mp h with ⟨rfl, outside⟩
    exact normal_v6_iff.mpr outside

/-- The bytes of an address give the address back exactly if it is in normal form. -/
theorem ofBytes_bytes_eq_ok_iff {a : Address} : ofBytes a.bytes = .ok a ↔ a.Normal := by
  cases a with
  | v4 v => exact iff_of_true rfl trivial
  | v6 v =>
    have read : ofBytes (Address.v6 v).bytes = .ok v.unmapped := ofBytes_bytes_v6 v
    rw [read, Except.ok.injEq, unmapped_eq_v6_iff, normal_v6_iff]
    exact and_iff_right rfl

/-! ## Literals and hosts -/

theorem Literal.normal {s : List Char} {a : Address} (h : Literal s a) : a.Normal := by
  cases a with
  | v4 v => trivial
  | v6 v => exact normal_v6_iff.mpr h.isMapped_eq_false

theorem normal_of_ofLiteral {text : String} {a : Address} (h : ofLiteral text = .ok a) :
    a.Normal :=
  (ofLiteral_eq_ok_iff.mp h).normal

theorem normal_of_ofHost {host : String} {a : Address} (h : ofHost host = .ok a) : a.Normal := by
  rcases ofHost_eq_ok_iff.mp h with form | ⟨v, mapped, rfl⟩
  · cases form with
    | bare nocolon literal => exact normal_of_ofLiteral literal
    | bracketed literal => exact normal_of_ofLiteral literal
  · trivial

/-! ## Bytes -/

theorem exists_v4_of_length {bytes : List UInt8} (h : bytes.length = 4) :
    ∃ v : IPv4, bytes = v.bytes := by
  match bytes, h with
  | [a, b, c, d], _ => exact ⟨⟨a, b, c, d⟩, rfl⟩

theorem exists_v6_of_length {bytes : List UInt8} (h : bytes.length = 16) :
    ∃ v : IPv6, bytes = v.bytes := by
  match bytes, h with
  | [a0, a1, b0, b1, c0, c1, d0, d1, e0, e1, f0, f1, g0, g1, h0, h1], _ =>
    refine ⟨⟨word a0 a1, word b0 b1, word c0 c1, word d0 d1, word e0 e1, word f0 f1, word g0 g1,
      word h0 h1⟩, ?_⟩
    simp [IPv6.bytes, IPv6.groups]

theorem length_of_ofBytes?_v4 {bytes : List UInt8} {v : IPv4} (h : IPv4.ofBytes? bytes = some v) :
    bytes.length = 4 := by
  unfold IPv4.ofBytes? at h
  split at h
  · rfl
  · cases h

/-- Words take two bytes each. -/
theorem length_of_words? {bytes : List UInt8} {gs : List UInt16} (h : IPv6.words? bytes = some gs) :
    bytes.length = 2 * gs.length := by
  fun_induction IPv6.words? bytes generalizing gs with
  | case1 =>
    obtain rfl := Option.some.inj h
    rfl
  | case2 => cases h
  | case3 high low rest ih =>
    rcases Option.map_eq_some_iff.mp h with ⟨more, hmore, rfl⟩
    have := ih hmore
    simp only [List.length_cons] at this ⊢
    omega

theorem length_of_ofBytes?_v6 {bytes : List UInt8} {v : IPv6} (h : IPv6.ofBytes? bytes = some v) :
    bytes.length = 16 := by
  rcases Option.bind_eq_some_iff.mp h with ⟨gs, hgs, hv⟩
  rw [length_of_words? hgs, IPv6.ofGroups?_eq_some_iff.mp hv]
  rfl

/-- Four bytes are read as the IPv4 address that has them and sixteen as the normal form of the IPv6
address that has them; any other number of bytes is refused. -/
theorem ofBytes_cases (bytes : List UInt8) :
    (∃ v : IPv4, bytes = v.bytes ∧ ofBytes bytes = .ok (.v4 v)) ∨
    (∃ v : IPv6, bytes = v.bytes ∧ ofBytes bytes = .ok v.unmapped) ∨
    (bytes.length ≠ 4 ∧ bytes.length ≠ 16 ∧
      ofBytes bytes = .error (.invalidLength bytes.length)) := by
  by_cases four : bytes.length = 4
  · rcases exists_v4_of_length four with ⟨v, rfl⟩
    exact .inl ⟨v, rfl, rfl⟩
  by_cases sixteen : bytes.length = 16
  · rcases exists_v6_of_length sixteen with ⟨v, rfl⟩
    exact .inr (.inl ⟨v, rfl, ofBytes_bytes_v6 v⟩)
  · have nov4 : IPv4.ofBytes? bytes = none := by
      apply Option.eq_none_iff_forall_ne_some.mpr
      intro v hv
      exact four (length_of_ofBytes?_v4 hv)
    have nov6 : IPv6.ofBytes? bytes = none := by
      apply Option.eq_none_iff_forall_ne_some.mpr
      intro v hv
      exact sixteen (length_of_ofBytes?_v6 hv)
    refine .inr (.inr ⟨four, sixteen, ?_⟩)
    simp only [ofBytes, nov4, nov6]

theorem normal_of_ofBytes {bytes : List UInt8} {a : Address} (h : ofBytes bytes = .ok a) :
    a.Normal := by
  rcases ofBytes_cases bytes with ⟨v, -, hv⟩ | ⟨v, -, hv⟩ | ⟨-, -, refused⟩
  · obtain rfl := Except.ok.inj (h.symm.trans hv)
    trivial
  · obtain rfl := Except.ok.inj (h.symm.trans hv)
    exact normal_unmapped v
  · rw [refused] at h
    cases h

theorem ofBytes_eq_error_iff {bytes : List UInt8} {e : AddressError} :
    ofBytes bytes = .error e ↔
      e = .invalidLength bytes.length ∧ bytes.length ≠ 4 ∧ bytes.length ≠ 16 := by
  rcases ofBytes_cases bytes with ⟨v, rfl, hv⟩ | ⟨v, rfl, hv⟩ | ⟨four, sixteen, refused⟩
  · rw [hv]
    exact iff_of_false (fun h => by cases h) fun h => h.2.1 rfl
  · rw [hv]
    exact iff_of_false (fun h => by cases h) fun h => h.2.2 rfl
  · rw [refused, Except.error.injEq, eq_comm]
    exact (and_iff_left ⟨four, sixteen⟩).symm

/-! ## Bytes in reversed order -/

/-- Bytes for which the buffer has room stand at its beginning. -/
theorem take_written {buffer bytes : List UInt8} (h : bytes.length ≤ buffer.length) :
    (written buffer bytes).take bytes.length = bytes := by
  induction bytes generalizing buffer with
  | nil => simp
  | cons b bytes ih =>
    cases buffer with
    | nil => simp at h
    | cons old buffer =>
      have room : bytes.length ≤ buffer.length := by simpa using h
      rw [written, List.length_cons, List.take_succ_cons, ih room]

/-- Reading bytes with the least significant first is reading them in reversed order. -/
theorem ofLittleEndianBytes_eq (bytes : List UInt8) :
    ofLittleEndianBytes bytes = ofBytes bytes.reverse := by
  rw [ofLittleEndianBytes]
  split
  · rename_i other
    rw [eq_comm, ofBytes_eq_error_iff, List.length_reverse]
    exact ⟨rfl, other⟩
  · rename_i known
    have room : bytes.reverse.length ≤ (List.replicate 16 (0 : UInt8)).length := by
      rw [List.length_reverse, List.length_replicate]
      omega
    have copy := take_written room
    rw [List.length_reverse] at copy
    rw [copy]

/-! ## Numbers -/

/-- The bytes of a number, the most significant first, are those of its address. -/
theorem bytes_ofInteger (n : UInt32) : (IPv4.ofInteger n).bytes = bigEndian 4 n.toNat := by
  have lt := n.toNat_lt
  have halves : n.toNat = 65536 * (UInt16.ofNat (n.toNat / 65536)).toNat +
      (UInt16.ofNat n.toNat).toNat := by
    rw [UInt16.toNat_ofNat', UInt16.toNat_ofNat']
    omega
  rw [ofInteger_eq_ofWords halves, bigEndian_four halves]
  rfl

/-! ## All ways -/

theorem Obtained.normal {a : Address} (h : Obtained a) : a.Normal := by
  cases h with
  | literal read => exact normal_of_ofLiteral read
  | host read => exact normal_of_ofHost read
  | bytes read => exact normal_of_ofBytes read
  | littleEndianBytes read =>
    rw [ofLittleEndianBytes_eq] at read
    exact normal_of_ofBytes read

/-- Whatever an address is read from, it is in normal form, and its bytes give it back. Reading
bytes with the least significant first is reading them in reversed order, with the same refusals;
and the address of a number is the one of its four bytes. -/
theorem constructors_agree :
    (∀ a, Obtained a → ofBytes a.bytes = .ok a ∧ a.Normal) ∧
    (∀ bytes, ofLittleEndianBytes bytes = ofBytes bytes.reverse) ∧
    (∀ bytes e, ofLittleEndianBytes bytes = .error e ↔
      e = .invalidLength bytes.length ∧ bytes.length ≠ 4 ∧ bytes.length ≠ 16) ∧
    (∀ n : UInt32, ofBytes (bigEndian 4 n.toNat) = .ok (.v4 (IPv4.ofInteger n))) := by
  refine ⟨?_, ofLittleEndianBytes_eq, ?_, ?_⟩
  · intro a h
    exact ⟨ofBytes_bytes_eq_ok_iff.mpr h.normal, h.normal⟩
  · intro bytes e
    rw [ofLittleEndianBytes_eq, ofBytes_eq_error_iff, List.length_reverse]
  · intro n
    have own : ofBytes (Address.v4 (IPv4.ofInteger n)).bytes = .ok (.v4 (IPv4.ofInteger n)) :=
      ofBytes_bytes_eq_ok_iff.mpr trivial
    rw [← bytes_ofInteger]
    exact own

/-- The short way to dotted quads makes an IPv6 address without going to its normal form. -/
theorem agree_of_compatible_literal :
    Obtained (.v6 ⟨0, 0, 0, 0, 0, 0, 0x0102, 0x0304⟩) ∧
      ofBytes [0, 0, 0, 0, 0, 0, 0, 0, 0, 0, 0, 0, 1, 2, 3, 4] =
        .ok (.v6 ⟨0, 0, 0, 0, 0, 0, 0x0102, 0x0304⟩) ∧
      (Address.v6 ⟨0, 0, 0, 0, 0, 0, 0x0102, 0x0304⟩).Normal := by
  have obtained : Obtained (.v6 ⟨0, 0, 0, 0, 0, 0, 0x0102, 0x0304⟩) :=
    .literal (show ofLiteral "::1.2.3.4" = .ok (.v6 ⟨0, 0, 0, 0, 0, 0, 0x0102, 0x0304⟩) by decide)
  exact ⟨obtained, constructors_agree.1 _ obtained⟩

end Groundwork.Address
