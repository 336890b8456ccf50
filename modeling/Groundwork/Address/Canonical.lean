import Groundwork.Address.Basic
import Groundwork.Text.Digits
import Groundwork.Text.Pieces

/-!
# The canonical text of an address

An IPv4 address is written as a dotted quad. An IPv6 address is written in lowercase hexadecimal
groups without leading zeros, the longest run of two or more zero groups (the first of equally
long ones) as `::`, and never with a dotted quad.

* `longestZeroRun` finds the run that `IPv6.text` leaves out, in one pass over the groups.
* `Address.text` is the canonical text, `Address.uriText` the same with IPv6 in brackets.
* `IPv6.mixedText` shows an address of `::ffff:0:0/96` with a dotted quad at its end, and every
  other address canonically; error messages use it.
-/

namespace Groundwork.Address

open Groundwork.Text

/-- The dotted quad of an IPv4 address. -/
def IPv4.chars (v : IPv4) : List Char :=
  joined '.' (v.bytes.map fun b => decimal b.toNat)

/-- The dotted quad of an IPv4 address. -/
def IPv4.text (v : IPv4) : String :=
  String.ofList v.chars

/-- The groups in hexadecimal, with a colon between neighbours. -/
def groupChars (gs : List UInt16) : List Char :=
  joined ':' (gs.map fun g => hexadecimal g.toNat)

/-- One pass over the groups: the longest run of zero groups so far and the run that is under way,
each by its start and its length. -/
structure ZeroScan where
  best : Nat × Nat
  current : Nat × Nat
deriving DecidableEq, Repr

/-- The pass goes on to the next group. A zero group begins a run or makes the run under way longer;
only a run that is longer than the best one takes its place. -/
def ZeroScan.next (scan : ZeroScan) (g : UInt16) (position : Nat) : ZeroScan :=
  if g = 0 then
    let start := if scan.current.2 = 0 then position else scan.current.1
    let current := (start, scan.current.2 + 1)
    { best := if scan.best.2 < current.2 then current else scan.best, current }
  else { scan with current := (scan.current.1, 0) }

/-- The pass over all groups. -/
def scanZeros (gs : List UInt16) : ZeroScan :=
  gs.zipIdx.foldl (fun scan entry => scan.next entry.1 entry.2) ⟨(0, 0), (0, 0)⟩

/-- The start and the length of the longest run of zero groups, the first of equally long ones. -/
def longestZeroRun (gs : List UInt16) : Nat × Nat :=
  (scanZeros gs).best

/-- The canonical characters of an IPv6 address. -/
def IPv6.chars (v : IPv6) : List Char :=
  let run := longestZeroRun v.groups
  if run.2 < 2 then groupChars v.groups
  else groupChars (v.groups.take run.1) ++ ':' :: ':' :: groupChars (v.groups.drop (run.1 + run.2))

/-- The canonical text of an IPv6 address. -/
def IPv6.text (v : IPv6) : String :=
  String.ofList v.chars

/-- The text of an IPv6 address that shows a mapped IPv4 address as a dotted quad. -/
def IPv6.mixedText (v : IPv6) : String :=
  match v.mapped? with
  | some q => "::ffff:" ++ q.text
  | none => v.text

/-- The canonical characters of an address. -/
def chars : Address → List Char
  | .v4 v => v.chars
  | .v6 v => v.chars

/-- The canonical text of an address. -/
def text (a : Address) : String :=
  String.ofList a.chars

/-- The characters of an address as the host of a URI. -/
def uriChars : Address → List Char
  | .v4 v => v.chars
  | .v6 v => '[' :: v.chars ++ [']']

/-- The text of an address as the host of a URI. -/
def uriText (a : Address) : String :=
  String.ofList a.uriChars

end Groundwork.Address
