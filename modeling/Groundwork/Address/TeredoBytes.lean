import Groundwork.Address.Teredo
import Groundwork.Bytes.Reader

/-!
# Teredo addresses byte by byte

The sixteen bytes of a Teredo address are the prefix `2001:0::/32`, the server, the flags, the port
and the client, in this order and big-endian, port and client with all bits inverted.

* `TeredoFields.packed` writes these bytes.
* `IPv6.unpack` reads the fields one after the other behind the prefix. The numbers of 32 bits are
  read with a sign, which is put aside.
-/

namespace Groundwork

open Groundwork.Bytes

/-- The integer that a scalar of an integer kind holds; zero for the other kinds. -/
def Bytes.Scalar.toInt : Scalar → Int
  | .integer n => n
  | .bool _ | .float _ => 0

namespace Address

/-- The address as a 32-bit number, the first byte the most significant. -/
def IPv4.toInteger (v : IPv4) : UInt32 :=
  UInt32.ofNat (bigEndianValue v.bytes)

/-- The first four bytes of every Teredo address. -/
def teredoPrefix : List UInt8 := [0x20, 0x01, 0x00, 0x00]

/-- The bytes that pack the fields. -/
def TeredoFields.packed (t : TeredoFields) : List UInt8 :=
  teredoPrefix ++ t.server.bytes ++ bigEndian 2 t.flags.bits.toNat ++
    bigEndian 2 (~~~t.port).toNat ++ bigEndian 4 (~~~t.client.toInteger).toNat

/-- Why an address is not unpacked: it is no Teredo address, or a field cannot be read. -/
inductive UnpackError where
  | refused (e : AddressError)
  | unreadable (e : ReadError)
deriving DecidableEq, Repr

/-- The wording of a failure. -/
def UnpackError.message : UnpackError → String
  | .refused e => e.message
  | .unreadable e => "read error: " ++ e.message

/-- The fields that stand in the bytes, read one after the other from an offset on. -/
def TeredoFields.read (bytes : List UInt8) (offset : Nat) : Except ReadError TeredoFields := do
  let r ← Reader.startingAt bytes offset
  let (server, r) ← r.scalar .i32
  let (flags, r) ← r.scalar .u16
  let (port, r) ← r.scalar .u16
  let (client, _) ← r.scalar .i32
  return ⟨IPv4.ofInteger (UInt32.ofInt server.toInt),
    IPv4.ofInteger (~~~UInt32.ofInt client.toInt), ~~~UInt16.ofInt port.toInt,
    ⟨UInt16.ofInt flags.toInt⟩⟩

/-- The fields of a Teredo address, read from its bytes. -/
def IPv6.unpack (v : IPv6) : Except UnpackError TeredoFields :=
  if v.bytes.take teredoPrefix.length = teredoPrefix then
    (TeredoFields.read v.bytes teredoPrefix.length).mapError .unreadable
  else .error (.refused (.notTeredo v))

end Address

end Groundwork
