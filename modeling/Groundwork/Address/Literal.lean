import Groundwork.Address.Error

/-!
# Address literals

Reading the text of an address, without name resolution.

* `dottedQuad?` reads `a.b.c.d`: four decimal numbers up to 255 without leading zeros.
* `colonForm?` reads an IPv6 literal: eight groups of one to four hexadecimal digits, of which
  `::` may stand for one or more zero groups, and a dotted quad may stand for the last two.
* `quadForm?` reads the texts that end in a dotted quad and need no groups to be counted: a bare
  dotted quad, and one after `::ffff:` or `::`.
* `ofLiteral` reads either form and answers with the normal form of the address.
-/

namespace Groundwork.Address

open Groundwork.Text

/-! ## Dotted quads -/

/-- The byte of one to three decimal digits; a zero is not followed by more digits. -/
def octet? (s : List Char) : Option UInt8 :=
  if s = [] ∨ 3 < s.length ∨ (s.head? = some '0' ∧ s ≠ ['0']) then none
  else match decimalValue? s with
    | some n => if n ≤ 255 then some (UInt8.ofNat n) else none
    | none => none

/-- The IPv4 address of four octets with dots between them. -/
def dottedQuad? (s : List Char) : Option IPv4 :=
  match (pieces '.' s).mapM octet? with
  | some [a, b, c, d] => some ⟨a, b, c, d⟩
  | _ => none

/-! ## Groups -/

/-- The group of one to four hexadecimal digits. -/
def hexGroup? (s : List Char) : Option UInt16 :=
  if s = [] ∨ 4 < s.length then none else (hexValue? s).map UInt16.ofNat

/-- The groups of a list of pieces; with `quad`, the last piece may be a dotted quad and then
counts as two groups. -/
def groupsOfPieces? (quad : Bool) : List (List Char) → Option (List UInt16)
  | [] => some []
  | [piece] =>
    if quad ∧ '.' ∈ piece then (dottedQuad? piece).map fun v => [v.high, v.low]
    else (hexGroup? piece).map ([·])
  | piece :: next :: more =>
    match hexGroup? piece, groupsOfPieces? quad (next :: more) with
    | some g, some gs => some (g :: gs)
    | _, _ => none

/-- The groups of one side of a literal, at most eight; an empty side has none. -/
def section? (quad : Bool) (s : List Char) : Option (List UInt16) :=
  if s = [] then some []
  else match groupsOfPieces? quad (pieces ':' s) with
    | some gs => if gs.length ≤ IPv6.groupCount then some gs else none
    | none => none

/-- The eight groups that begin with `head`, end with `tail` and are zero in between; at least one
group has to lie in between. -/
def expand? (head tail : List UInt16) : Option (List UInt16) :=
  if head.length + tail.length < IPv6.groupCount then
    some (head ++ List.replicate (IPv6.groupCount - (head.length + tail.length)) 0 ++ tail)
  else none

/-- The IPv6 address of a literal, as it stands. -/
def colonForm? (s : List Char) : Option IPv6 :=
  if ':' ∉ s ∨ occursIn [':', ':', ':'] s then none
  else match cutAt? [':', ':'] s with
    | none => (section? true s).bind IPv6.ofGroups?
    | some (head, tail) =>
      if occursIn [':', ':'] tail then none
      else match section? false head, section? true tail with
        | some h, some t => (expand? h t).bind IPv6.ofGroups?
        | _, _ => none

/-! ## Literals -/

/-- The mark in front of the dotted quad of a mapped address. -/
def mappedMark : List Char := "::ffff:".toList

/-- The address of a text that is a dotted quad, or a dotted quad after `::ffff:` (in either
case) or `::`. -/
def quadForm? (s : List Char) : Option Address :=
  if (s.take mappedMark.length).map Char.toLower = mappedMark then
    (dottedQuad? (s.drop mappedMark.length)).map .v4
  else if s.take 2 = [':', ':'] then
    (dottedQuad? (s.drop 2)).map fun v => .v6 (IPv6.compatible v)
  else (dottedQuad? s).map .v4

/-- The address of a literal. -/
def ofChars? (s : List Char) : Option Address :=
  match quadForm? s with
  | some a => some a
  | none => (colonForm? s).map IPv6.unmapped

/-- The address that a literal denotes, in normal form. -/
def ofLiteral (text : String) : Except AddressError Address :=
  match ofChars? text.toList with
  | some a => .ok a
  | none => .error (.notLiteral text)

/-- Whether the text is an address literal. -/
def isLiteral (text : String) : Bool :=
  (ofLiteral text).toBool

/-! ## Bytes -/

/-- The address of four or sixteen bytes in network order, in normal form. -/
def ofBytes (bytes : List UInt8) : Except AddressError Address :=
  match IPv4.ofBytes? bytes with
  | some v => .ok (.v4 v)
  | none => match IPv6.ofBytes? bytes with
    | some v => .ok v.unmapped
    | none => .error (.invalidLength bytes.length)

/-- Writes bytes over the beginning of a buffer, as many as it has room for. -/
def written : List UInt8 → List UInt8 → List UInt8
  | _ :: buffer, b :: bytes => b :: written buffer bytes
  | buffer, _ => buffer

/-- The address of four or sixteen bytes with the least significant first, in normal form. They are
put into network order in a buffer of sixteen bytes. -/
def ofLittleEndianBytes (bytes : List UInt8) : Except AddressError Address :=
  if bytes.length ≠ 4 ∧ bytes.length ≠ 16 then .error (.invalidLength bytes.length)
  else ofBytes ((written (List.replicate 16 0) bytes.reverse).take bytes.length)

end Groundwork.Address
