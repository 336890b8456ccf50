import Groundwork.Address.Teredo

/-!
# IPv4 addresses inside IPv6 addresses

The schemes that carry an IPv4 address in an IPv6 address while a network moves from one family
to the other: IPv4-compatible addresses, 6to4, Teredo and ISATAP. For each there is a predicate
and a function that takes the IPv4 address out; `embeddedClient` asks the schemes whose IPv4
address is that of the client.
-/

namespace Groundwork.Address.IPv6

open Groundwork.Bytes

/-! ## IPv4-compatible addresses -/

/-- Whether the address is `::a.b.c.d` other than `::` and `::1`. -/
def isCompatible (v : IPv6) : Bool :=
  v.g0 = 0 ∧ v.g1 = 0 ∧ v.g2 = 0 ∧ v.g3 = 0 ∧ v.g4 = 0 ∧ v.g5 = 0 ∧
    ¬ (v.g6 = 0 ∧ (v.g7 = 0 ∨ v.g7 = 1))

/-- The IPv4 address of an IPv4-compatible address. -/
def compatibleIPv4 (v : IPv6) : Except AddressError IPv4 :=
  if v.isCompatible then .ok v.lastFour else .error (.notCompatible v)

/-! ## 6to4 -/

/-- Whether the address lies in `2002::/16`. -/
def isSixToFour (v : IPv6) : Bool :=
  v.g0 = 0x2002

/-- The IPv4 address of the router of a 6to4 address. -/
def sixToFourIPv4 (v : IPv6) : Except AddressError IPv4 :=
  if v.isSixToFour then .ok (IPv4.ofWords v.g1 v.g2) else .error (.notSixToFour v)

/-- The site address of the 6to4 router at an IPv4 address: subnet and interface are zero. -/
def sixToFour (v : IPv4) : IPv6 :=
  ⟨0x2002, v.high, v.low, 0, 0, 0, 0, 0⟩

/-! ## ISATAP -/

/-- Whether the interface identifier is `0:5efe:a.b.c.d`, whatever the two lowest bits of its first
byte are, in an address that is not a Teredo address. -/
def isIsatap (v : IPv6) : Bool :=
  v.isTeredo = false ∧ highByte v.g4 ≤ 3 ∧ lowByte v.g4 = 0 ∧ v.g5 = 0x5efe

/-- The IPv4 address of the tunnel end of an ISATAP address. -/
def isatapIPv4 (v : IPv6) : Except AddressError IPv4 :=
  if v.isIsatap then .ok v.lastFour else .error (.notIsatap v)

/-! ## The client -/

/-- The IPv4 address of the client behind an IPv4-compatible, 6to4 or Teredo address. -/
def embeddedClient (v : IPv6) : Except AddressError IPv4 :=
  if v.isCompatible then v.compatibleIPv4
  else if v.isSixToFour then v.sixToFourIPv4
  else if v.isTeredo then v.teredoFields.map (·.client)
  else .error (.nothingEmbedded v)

end Groundwork.Address.IPv6
