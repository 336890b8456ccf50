import Mathlib.Logic.Function.Basic
import Groundwork.Address.TeredoBytes

/-!
# Teredo addresses pack and unpack

The writer puts fields into groups of the address; the reader goes through the bytes and reads
numbers with and without a sign. Still each undoes the other.

* `bytes_address`: the bytes of a packed address, field by field.
* `unpack_eq`: reading the bytes in sequence gives what the groups say, and no read fails.
* `packing`: what can be packed, and that packing is a bijection onto `2001:0::/32`.
-/

namespace Groundwork.Address

open Groundwork.Bytes

/-! ## Numbers in bytes -/

theorem bigEndianValue_pair (w : UInt16) : bigEndianValue [highByte w, lowByte w] = w.toNat := by
  simp only [bigEndianValue, List.foldl_cons, List.foldl_nil, toNat_highByte, toNat_lowByte]
  omega

theorem bigEndianValue_pairs (h l : UInt16) :
    bigEndianValue [highByte h, lowByte h, highByte l, lowByte l] = 65536 * h.toNat + l.toNat := by
  simp only [bigEndianValue, List.foldl_cons, List.foldl_nil, toNat_highByte, toNat_lowByte]
  omega

/-- The sign with which a number was read does not matter once it is put aside. -/
theorem ofInt_signed {n : Nat} (h : n < 4294967296) :
    UInt32.ofInt (signed 32 n) = UInt32.ofNat n := by
  apply UInt32.toNat_inj.mp
  simp only [UInt32.ofInt, signed, UInt32.toNat_ofNat']
  split <;> omega

/-- A 32-bit number is told by its two halves. -/
theorem ofInteger_eq_ofWords {n : UInt32} {h l : UInt16}
    (halves : n.toNat = 65536 * h.toNat + l.toNat) : IPv4.ofInteger n = IPv4.ofWords h l := by
  have low_lt := l.toNat_lt
  have high_lt := h.toNat_lt
  have high : UInt16.ofNat (n.toNat / 65536) = h := by
    apply UInt16.toNat_inj.mp
    rw [UInt16.toNat_ofNat', halves]
    omega
  have low : UInt16.ofNat n.toNat = l := by
    apply UInt16.toNat_inj.mp
    rw [UInt16.toNat_ofNat', halves]
    omega
  rw [IPv4.ofInteger, high, low]

theorem toNat_ofNat_pair (h l : UInt16) :
    (UInt32.ofNat (65536 * h.toNat + l.toNat)).toNat = 65536 * h.toNat + l.toNat := by
  have low_lt := l.toNat_lt
  have high_lt := h.toNat_lt
  rw [UInt32.toNat_ofNat']
  omega

/-- All bits of a number are inverted when those of its halves are. -/
theorem toNat_not_pair {n : UInt32} {h l : UInt16}
    (halves : n.toNat = 65536 * h.toNat + l.toNat) :
    (~~~n).toNat = 65536 * (~~~h).toNat + (~~~l).toNat := by
  have low_lt := l.toNat_lt
  have high_lt := h.toNat_lt
  rw [UInt32.toNat_not, UInt16.toNat_not, UInt16.toNat_not, halves]
  simp only [UInt32.size, UInt16.size]
  omega

/-! ## Reading -/

/-- The fields of a Teredo address as they are read from its bytes. -/
theorem read_bytes (v : IPv6) : TeredoFields.read v.bytes teredoPrefix.length =
    .ok ⟨IPv4.ofWords v.g2 v.g3, IPv4.ofWords (~~~v.g6) (~~~v.g7), ~~~v.g5, ⟨v.g4⟩⟩ := by
  have reads : TeredoFields.read v.bytes teredoPrefix.length =
      .ok ⟨IPv4.ofInteger (UInt32.ofInt (signed 32
          (bigEndianValue [highByte v.g2, lowByte v.g2, highByte v.g3, lowByte v.g3]))),
        IPv4.ofInteger (~~~UInt32.ofInt (signed 32
          (bigEndianValue [highByte v.g6, lowByte v.g6, highByte v.g7, lowByte v.g7]))),
        ~~~UInt16.ofInt (bigEndianValue [highByte v.g5, lowByte v.g5]),
        ⟨UInt16.ofInt (bigEndianValue [highByte v.g4, lowByte v.g4])⟩⟩ := rfl
  have word (w : UInt16) : UInt16.ofInt (bigEndianValue [highByte w, lowByte w]) = w := by
    have lt := w.toNat_lt
    rw [bigEndianValue_pair]
    apply UInt16.toNat_inj.mp
    rw [UInt16.ofInt, UInt16.toNat_ofNat']
    omega
  have number (h l : UInt16) : UInt32.ofInt (signed 32
      (bigEndianValue [highByte h, lowByte h, highByte l, lowByte l])) =
        UInt32.ofNat (65536 * h.toNat + l.toNat) := by
    have low_lt := l.toNat_lt
    have high_lt := h.toNat_lt
    rw [bigEndianValue_pairs, ofInt_signed (by omega)]
  rw [reads, word, word, number, number, ofInteger_eq_ofWords (toNat_ofNat_pair v.g2 v.g3),
    ofInteger_eq_ofWords (toNat_not_pair (toNat_ofNat_pair v.g6 v.g7))]

/-- The prefix of four bytes is what the first two groups say. -/
theorem isTeredo_iff (v : IPv6) :
    v.isTeredo = true ↔ v.bytes.take teredoPrefix.length = teredoPrefix := by
  have first : v.bytes.take teredoPrefix.length =
      [highByte v.g0, lowByte v.g0, highByte v.g1, lowByte v.g1] := rfl
  rw [first, IPv6.isTeredo, decide_eq_true_eq]
  constructor
  · rintro ⟨g0, g1⟩
    rw [g0, g1]
    rfl
  · intro bytes
    injection bytes with high0 bytes
    injection bytes with low0 bytes
    injection bytes with high1 bytes
    injection bytes with low1 bytes
    constructor
    · rw [← word_highByte_lowByte v.g0, high0, low0]
      rfl
    · rw [← word_highByte_lowByte v.g1, high1, low1]
      rfl

/-- Reading a Teredo address byte by byte gives the fields that its groups say, and no read
fails. -/
theorem unpack_eq (v : IPv6) : v.unpack = v.teredoFields.mapError .refused := by
  unfold IPv6.unpack IPv6.teredoFields
  by_cases teredo : v.isTeredo = true
  · rw [if_pos ((isTeredo_iff v).mp teredo), if_pos teredo, read_bytes]
    rfl
  · rw [if_neg (fun h => teredo ((isTeredo_iff v).mpr h)), if_neg teredo]
    rfl

theorem teredoFields_of_unpack {v : IPv6} {t : TeredoFields} (read : v.unpack = .ok t) :
    v.teredoFields = .ok t := by
  rw [unpack_eq] at read
  cases h : v.teredoFields with
  | error e =>
    rw [h] at read
    cases read
  | ok t' =>
    rw [h] at read
    rw [Except.ok.inj read]

/-! ## Writing -/

theorem bigEndian_two (w : UInt16) : bigEndian 2 w.toNat = [highByte w, lowByte w] := by
  simp [bigEndian, highByte, lowByte]

theorem bigEndian_four {n : Nat} {h l : UInt16} (halves : n = 65536 * h.toNat + l.toNat) :
    bigEndian 4 n = [highByte h, lowByte h, highByte l, lowByte l] := by
  have low_lt := l.toNat_lt
  have high_lt := h.toNat_lt
  simp only [bigEndian, List.cons.injEq, and_true]
  refine ⟨?_, ?_, ?_, ?_⟩
  all_goals
    apply UInt8.toNat_inj.mp
    simp only [UInt8.toNat_ofNat', toNat_highByte, toNat_lowByte]
    omega

theorem bytes_high_low (v : IPv4) :
    v.bytes = [highByte v.high, lowByte v.high, highByte v.low, lowByte v.low] := by
  simp [IPv4.bytes, IPv4.high, IPv4.low]

theorem toNat_toInteger (v : IPv4) : v.toInteger.toNat = 65536 * v.high.toNat + v.low.toNat := by
  rw [IPv4.toInteger, bytes_high_low, bigEndianValue_pairs, toNat_ofNat_pair]

/-- The bytes of a packed address, field by field. -/
theorem bytes_address (t : TeredoFields) : t.address.bytes = t.packed := by
  have front : teredoPrefix = [highByte 0x2001, lowByte 0x2001, highByte 0, lowByte 0] := by decide
  unfold TeredoFields.packed
  rw [front, bigEndian_two, bigEndian_two,
    bigEndian_four (toNat_not_pair (toNat_toInteger t.client)), bytes_high_low t.server]
  rfl

theorem isTeredo_address (t : TeredoFields) : t.address.isTeredo = true := rfl

/-! ## There and back -/

theorem make_eq_ok {port flags : Nat} (server client : Option IPv4) (portFits : port ≤ 0xffff)
    (flagsFit : flags ≤ 0xffff) : TeredoFields.make server client port flags =
      .ok ⟨server.getD .unspecified, client.getD .unspecified, UInt16.ofNat port,
        ⟨UInt16.ofNat flags⟩⟩ := by
  rw [TeredoFields.make, if_neg (Nat.not_lt_of_le portFits), if_neg (Nat.not_lt_of_le flagsFit)]

theorem make_bad_port {port : Nat} (server client : Option IPv4) (flags : Nat)
    (high : 0xffff < port) :
    TeredoFields.make server client port flags = .error (.portOutOfRange port) :=
  if_pos high

theorem make_bad_flags {port flags : Nat} (server client : Option IPv4) (portFits : port ≤ 0xffff)
    (high : 0xffff < flags) :
    TeredoFields.make server client port flags = .error (.flagsOutOfRange flags) := by
  rw [TeredoFields.make, if_neg (Nat.not_lt_of_le portFits), if_pos high]

/-- Fields that were made fit. -/
theorem fits_of_make {server client : Option IPv4} {port flags : Nat} {t : TeredoFields}
    (made : TeredoFields.make server client port flags = .ok t) :
    port ≤ 0xffff ∧ flags ≤ 0xffff := by
  rcases Nat.lt_or_ge 0xffff port with high | portFits
  · rw [make_bad_port server client flags high] at made
    cases made
  · rcases Nat.lt_or_ge 0xffff flags with high | flagsFit
    · rw [make_bad_flags server client portFits high] at made
      cases made
    · exact ⟨portFits, flagsFit⟩

theorem unpack_address (t : TeredoFields) : t.address.unpack = .ok t := by
  rw [unpack_eq, IPv6.teredoFields, if_pos (isTeredo_address t)]
  -- what is read well stays as it is when failures are renamed
  show Except.ok _ = Except.ok t
  simp [TeredoFields.address]

theorem exists_unpack {v : IPv6} (teredo : v.isTeredo = true) :
    ∃ t, v.unpack = .ok t ∧ t.address = v := by
  rw [unpack_eq, IPv6.teredoFields, if_pos teredo]
  refine ⟨_, rfl, ?_⟩
  have front : v.g0 = 0x2001 ∧ v.g1 = 0 := of_decide_eq_true teredo
  simp [TeredoFields.address, ← front.1, ← front.2]

/-- That Teredo addresses pack their fields and nothing else. -/
structure Packing : Prop where
  /-- Fields can be made exactly if port and flags fit into sixteen bits. -/
  made_iff : ∀ server client port flags, (∃ t, TeredoFields.make server client port flags = .ok t) ↔
    port ≤ 0xffff ∧ flags ≤ 0xffff
  /-- They are what they are made of, and a missing address is `0.0.0.0`. -/
  made_of : ∀ server client port flags t, TeredoFields.make server client port flags = .ok t →
    t.server = server.getD .unspecified ∧ t.client = client.getD .unspecified ∧
      t.port.toNat = port ∧ t.flags.bits.toNat = flags
  /-- Whatever fields there are can be made. -/
  makes_all : ∀ t : TeredoFields,
    TeredoFields.make (some t.server) (some t.client) t.port.toNat t.flags.bits.toNat = .ok t
  /-- A port that does not fit is reported first. -/
  bad_port : ∀ server client port flags, 0xffff < port →
    TeredoFields.make server client port flags = .error (.portOutOfRange port)
  bad_flags : ∀ server client port flags, port ≤ 0xffff → 0xffff < flags →
    TeredoFields.make server client port flags = .error (.flagsOutOfRange flags)
  /-- The Teredo addresses are those of `2001:0::/32`. -/
  isTeredo_iff : ∀ v : IPv6, v.isTeredo = true ↔ v.bytes.take 4 = [0x20, 0x01, 0x00, 0x00]
  /-- The bytes of a packed address are the fields in their order. -/
  bytes : ∀ t : TeredoFields, t.address.bytes = t.packed
  /-- Reading the bytes and taking the groups apart come to the same, and no read fails. -/
  reads : ∀ v : IPv6, v.unpack = v.teredoFields.mapError .refused
  address_isTeredo : ∀ t : TeredoFields, t.address.isTeredo = true
  unpack_address : ∀ t : TeredoFields, t.address.unpack = .ok t
  address_unpack : ∀ v : IPv6, v.isTeredo = true → ∃ t, v.unpack = .ok t ∧ t.address = v
  bijective : Function.Bijective fun t : TeredoFields =>
    (⟨t.address, address_isTeredo t⟩ : { v : IPv6 // v.isTeredo = true })

/-- Packing and unpacking Teredo addresses undo each other, over all fields and over all addresses
of `2001:0::/32`. -/
theorem packing : Packing where
  made_iff := by
    intro server client port flags
    constructor
    · rintro ⟨t, made⟩
      exact fits_of_make made
    · rintro ⟨portFits, flagsFit⟩
      exact ⟨_, make_eq_ok server client portFits flagsFit⟩
  made_of := by
    intro server client port flags t made
    rcases fits_of_make made with ⟨portFits, flagsFit⟩
    rw [make_eq_ok server client portFits flagsFit] at made
    cases made
    refine ⟨rfl, rfl, ?_, ?_⟩
    · exact UInt16.toNat_ofNat_of_lt' (Nat.lt_succ_of_le portFits)
    · exact UInt16.toNat_ofNat_of_lt' (Nat.lt_succ_of_le flagsFit)
  makes_all := by
    intro t
    have port := t.port.toNat_lt
    have flags := t.flags.bits.toNat_lt
    rw [make_eq_ok _ _ (by omega) (by omega), UInt16.ofNat_toNat, UInt16.ofNat_toNat]
    rfl
  bad_port := fun server client _ flags high => make_bad_port server client flags high
  bad_flags := fun server client _ _ portFits high => make_bad_flags server client portFits high
  isTeredo_iff := isTeredo_iff
  bytes := bytes_address
  reads := unpack_eq
  address_isTeredo := isTeredo_address
  unpack_address := unpack_address
  address_unpack := fun _ teredo => exists_unpack teredo
  bijective := by
    constructor
    · intro t t' same
      have address : t.address = t'.address := congrArg Subtype.val same
      have unpacked : t.address.unpack = .ok t' := by
        rw [address, unpack_address]
      rw [unpack_address] at unpacked
      exact Except.ok.inj unpacked
    · rintro ⟨v, teredo⟩
      rcases exists_unpack teredo with ⟨t, read, packed⟩
      exact ⟨t, Subtype.ext packed⟩

end Groundwork.Address
