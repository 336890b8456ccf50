import Groundwork.Address.Error

/-!
# Teredo addresses

A Teredo address lies in `2001:0::/32` and packs the addresses of a server and of a client, the
client's port and sixteen flags; port and client are stored with all bits inverted.

* `TeredoFlags` is the set of flags, with its operations and its text.
* `TeredoFields.make` checks the fields, `TeredoFields.address` packs them,
  `IPv6.teredoFields` unpacks them.
-/

namespace Groundwork.Address

open Groundwork.Bytes

/-- The flags of a Teredo address. -/
structure TeredoFlags where
  bits : UInt16
deriving DecidableEq, Repr, Inhabited

namespace TeredoFlags

/-- The flag of a client behind a cone NAT. -/
def coneFlag : TeredoFlags := ⟨0x8000⟩

/-- Whether no flag is set. -/
def isEmpty (f : TeredoFlags) : Bool := f.bits = 0

/-- Whether all sixteen flags are set. -/
def isAll (f : TeredoFlags) : Bool := f.bits = 0xffff

/-- Whether all flags of `g` are among those of `f`. -/
def contains (f g : TeredoFlags) : Bool := f.bits &&& g.bits = g.bits

/-- Whether a flag is common to both. -/
def intersects (f g : TeredoFlags) : Bool := f.bits &&& g.bits ≠ 0

/-- The flags of either. -/
def union (f g : TeredoFlags) : TeredoFlags := ⟨f.bits ||| g.bits⟩

/-- The flags of both. -/
def intersection (f g : TeredoFlags) : TeredoFlags := ⟨f.bits &&& g.bits⟩

/-- The flags of `f` that are not among those of `g`. -/
def difference (f g : TeredoFlags) : TeredoFlags := ⟨f.bits &&& ~~~g.bits⟩

/-- The flags of exactly one of the two. -/
def symmetricDifference (f g : TeredoFlags) : TeredoFlags := ⟨f.bits ^^^ g.bits⟩

/-- The flags that are not set. -/
def complement (f : TeredoFlags) : TeredoFlags := ⟨~~~f.bits⟩

/-- Whether the client is behind a cone NAT. -/
def cone (f : TeredoFlags) : Bool := f.contains coneFlag

/-- The flags by name, the unnamed ones together as one number. -/
def text (f : TeredoFlags) : String :=
  let named := if f.cone then ["CONE"] else []
  let rest := (f.difference coneFlag).bits
  let unnamed :=
    if rest = 0 then [] else ["0x" ++ String.ofList (Text.hexadecimal rest.toNat)]
  let shown := if f.isEmpty then "0x0" else " | ".intercalate (named ++ unnamed)
  "TeredoFlags(" ++ shown ++ ")"

end TeredoFlags

/-- What a Teredo address says about the tunnel to its client. -/
structure TeredoFields where
  server : IPv4
  client : IPv4
  port : UInt16
  flags : TeredoFlags
deriving DecidableEq, Repr, Inhabited

namespace TeredoFields

/-- The fields with these values, if port and flags fit into sixteen bits; a missing address is
`0.0.0.0`. A port that does not fit is reported before flags that do not. -/
def make (server client : Option IPv4) (port flags : Nat) : Except AddressError TeredoFields :=
  if 0xffff < port then .error (.portOutOfRange port)
  else if 0xffff < flags then .error (.flagsOutOfRange flags)
  else .ok ⟨server.getD .unspecified, client.getD .unspecified, UInt16.ofNat port,
    ⟨UInt16.ofNat flags⟩⟩

/-- The address that packs the fields. -/
def address (t : TeredoFields) : IPv6 :=
  ⟨0x2001, 0, t.server.high, t.server.low, t.flags.bits, ~~~t.port,
    ~~~t.client.high, ~~~t.client.low⟩

end TeredoFields

namespace IPv6

/-- Whether the address lies in `2001:0::/32`. -/
def isTeredo (v : IPv6) : Bool :=
  v.g0 = 0x2001 ∧ v.g1 = 0

/-- The fields of a Teredo address. -/
def teredoFields (v : IPv6) : Except AddressError TeredoFields :=
  if v.isTeredo then
    .ok ⟨IPv4.ofWords v.g2 v.g3, IPv4.ofWords (~~~v.g6) (~~~v.g7), ~~~v.g5, ⟨v.g4⟩⟩
  else .error (.notTeredo v)

end IPv6

end Groundwork.Address
