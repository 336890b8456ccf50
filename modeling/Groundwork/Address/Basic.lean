import Groundwork.Bytes.BigEndian

/-!
# Internet addresses

* `IPv4` is four bytes, `IPv6` eight 16-bit groups, `Address` one of the two.
* `IPv4.bytes`, `IPv6.bytes` and `IPv6.groups` show an address in network order; `ofBytes?` and
  `ofGroups?` read it back.
* `IPv6.mapped?` is the IPv4 address inside `::ffff:0:0/96`; `IPv6.unmapped` is the normal form
  of an address, which shows such an address as the IPv4 address.
-/

namespace Groundwork.Address

open Groundwork.Bytes

/-- An IPv4 address, `a.b.c.d`. -/
structure IPv4 where
  a : UInt8
  b : UInt8
  c : UInt8
  d : UInt8
deriving DecidableEq, Repr, Inhabited

/-- An IPv6 address, `g0:g1:g2:g3:g4:g5:g6:g7`. -/
structure IPv6 where
  g0 : UInt16
  g1 : UInt16
  g2 : UInt16
  g3 : UInt16
  g4 : UInt16
  g5 : UInt16
  g6 : UInt16
  g7 : UInt16
deriving DecidableEq, Repr, Inhabited

/-! ## IPv4 -/

namespace IPv4

/-- The address `0.0.0.0`. -/
def unspecified : IPv4 := ⟨0, 0, 0, 0⟩

/-- The four bytes in network order. -/
def bytes (v : IPv4) : List UInt8 :=
  [v.a, v.b, v.c, v.d]

/-- The address of four bytes in network order. -/
def ofBytes? : List UInt8 → Option IPv4
  | [a, b, c, d] => some ⟨a, b, c, d⟩
  | _ => none

/-- The first two bytes as one word. -/
def high (v : IPv4) : UInt16 := word v.a v.b

/-- The last two bytes as one word. -/
def low (v : IPv4) : UInt16 := word v.c v.d

/-- The address of two words. -/
def ofWords (high low : UInt16) : IPv4 :=
  ⟨highByte high, lowByte high, highByte low, lowByte low⟩

/-- The address of a 32-bit number, the first byte the most significant. -/
def ofInteger (n : UInt32) : IPv4 :=
  ofWords (UInt16.ofNat (n.toNat / 65536)) (UInt16.ofNat n.toNat)

@[simp] theorem ofBytes?_bytes (v : IPv4) : ofBytes? v.bytes = some v := rfl

@[simp] theorem ofWords_high_low (v : IPv4) : ofWords v.high v.low = v := by
  simp [ofWords, high, low]

@[simp] theorem high_ofWords (high low : UInt16) : (ofWords high low).high = high := by
  simp [ofWords, IPv4.high]

@[simp] theorem low_ofWords (high low : UInt16) : (ofWords high low).low = low := by
  simp [ofWords, IPv4.low]

end IPv4

/-! ## IPv6 -/

namespace IPv6

/-- The number of groups of an address. -/
def groupCount : Nat := 8

/-- The eight groups in order. -/
def groups (v : IPv6) : List UInt16 :=
  [v.g0, v.g1, v.g2, v.g3, v.g4, v.g5, v.g6, v.g7]

/-- The address of eight groups. -/
def ofGroups? : List UInt16 → Option IPv6
  | [g0, g1, g2, g3, g4, g5, g6, g7] => some ⟨g0, g1, g2, g3, g4, g5, g6, g7⟩
  | _ => none

/-- The sixteen bytes in network order. -/
def bytes (v : IPv6) : List UInt8 :=
  v.groups.flatMap fun g => [highByte g, lowByte g]

/-- The words of a sequence of byte pairs, if every byte has a partner. -/
def words? : List UInt8 → Option (List UInt16)
  | [] => some []
  | [_] => none
  | high :: low :: rest => (words? rest).map (word high low :: ·)

/-- The address of sixteen bytes in network order. -/
def ofBytes? (bytes : List UInt8) : Option IPv6 :=
  (words? bytes).bind ofGroups?

/-- The IPv4 address that stands in the last four bytes. -/
def lastFour (v : IPv6) : IPv4 :=
  IPv4.ofWords v.g6 v.g7

/-- The address `::a.b.c.d`: an IPv4 address below ninety-six zero bits. -/
def compatible (v : IPv4) : IPv6 :=
  ⟨0, 0, 0, 0, 0, 0, v.high, v.low⟩

/-- Whether the address lies in `::ffff:0:0/96`. -/
def isMapped (v : IPv6) : Bool :=
  v.g0 = 0 ∧ v.g1 = 0 ∧ v.g2 = 0 ∧ v.g3 = 0 ∧ v.g4 = 0 ∧ v.g5 = 0xffff

/-- The IPv4 address that an address of `::ffff:0:0/96` stands for. -/
def mapped? (v : IPv6) : Option IPv4 :=
  if v.isMapped then some v.lastFour else none

@[simp] theorem ofGroups?_groups (v : IPv6) : ofGroups? v.groups = some v := rfl

@[simp] theorem length_groups (v : IPv6) : v.groups.length = groupCount := rfl

/-- Groups make an address exactly when they are the groups of that address. -/
theorem ofGroups?_eq_some_iff {gs : List UInt16} {v : IPv6} :
    ofGroups? gs = some v ↔ gs = v.groups := by
  constructor
  · intro h
    unfold ofGroups? at h
    split at h
    · cases h; rfl
    · cases h
  · rintro rfl; rfl

@[simp] theorem ofBytes?_bytes (v : IPv6) : ofBytes? v.bytes = some v := by
  simp [ofBytes?, bytes, groups, words?, ofGroups?]

end IPv6

end Groundwork.Address

namespace Groundwork

open Groundwork.Address

/-- An internet address of either family. -/
inductive Address where
  | v4 (v : IPv4)
  | v6 (v : IPv6)
deriving DecidableEq, Repr, Inhabited

namespace Address

/-- The bytes of the address in network order. -/
def bytes : Address → List UInt8
  | .v4 v => v.bytes
  | .v6 v => v.bytes

/-- The name of the address family. -/
def family : Address → String
  | .v4 _ => "IPv4"
  | .v6 _ => "IPv6"

/-- The normal form of an IPv6 address: an address of `::ffff:0:0/96` is the IPv4 address. -/
def IPv6.unmapped (v : IPv6) : Address :=
  match v.mapped? with
  | some q => .v4 q
  | none => .v6 v

/-- The address of exactly these bytes, four or sixteen, without going to the normal form. -/
def ofRawBytes? (bytes : List UInt8) : Option Address :=
  match IPv4.ofBytes? bytes with
  | some v => some (.v4 v)
  | none => (IPv6.ofBytes? bytes).map .v6

end Address

end Groundwork
