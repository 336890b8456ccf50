import Groundwork.Address.Host
import Groundwork.Address.Transition
import Groundwork.Text.Hex

/-!
# Reports on addresses

* `Report.description` is the block of lines about one address: its text, family, bytes and URI
  form.
* `Report.entries` is what there is to say about the IPv4 addresses inside an IPv6 address, and
  `Report.classification` the lines that say it.
-/

namespace Groundwork.Report

open Groundwork.Address

/-- The bytes in hexadecimal with a space between neighbours. -/
def spacedBytes (bytes : List UInt8) : String :=
  " ".intercalate (bytes.map fun b => String.ofList (Text.hexByte b))

/-- The block of lines about an address. -/
def description (a : Address) : List String :=
  [a.text,
    "  family: " ++ a.family,
    "  bytes:  " ++ spacedBytes a.bytes,
    "  uri:    " ++ a.uriText]

/-- What a classification can say about an IPv6 address. -/
inductive Entry where
  | compatible (v : IPv4)
  | sixToFour (v : IPv4)
  | teredo (t : TeredoFields)
  | isatap (v : IPv4)
  | client (v : Option IPv4)
deriving DecidableEq, Repr

/-- Flags as four hexadecimal digits. -/
def flagsText (f : TeredoFlags) : String :=
  "0x" ++ String.ofList (Text.hexBytes (Bytes.bigEndian 2 f.bits.toNat))

/-- The lines of an entry. -/
def Entry.lines : Entry → List String
  | .compatible v => ["  compat:  " ++ v.text]
  | .sixToFour v => ["  6to4:    " ++ v.text]
  | .teredo t =>
    ["  teredo:  server " ++ t.server.text,
      "           client " ++ t.client.text,
      "           port   " ++ toString t.port.toNat,
      "           flags  " ++ flagsText t.flags]
  | .isatap v => ["  isatap:  " ++ v.text]
  | .client (some v) => ["  client:  " ++ v.text]
  | .client none => ["  client:  none"]

/-- One entry for every scheme that the address follows, and one for the client. -/
def entries (v : IPv6) : List Entry :=
  (v.compatibleIPv4.toOption.map Entry.compatible).toList ++
    (v.sixToFourIPv4.toOption.map Entry.sixToFour).toList ++
    (v.teredoFields.toOption.map Entry.teredo).toList ++
    (v.isatapIPv4.toOption.map Entry.isatap).toList ++
    [.client v.embeddedClient.toOption]

/-- The lines about the IPv4 addresses inside an IPv6 address, after its text. -/
def classification (v : IPv6) : List String :=
  v.text :: (entries v).flatMap Entry.lines

end Groundwork.Report
