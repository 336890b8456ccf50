import Groundwork.Address.Literal

/-!
# Addresses as the host of a URI

A host is an IPv4 literal as it stands or an IPv6 literal in brackets.
-/

namespace Groundwork.Address

/-- The text between a pair of brackets that encloses it. -/
def unbracketed? : List Char → Option (List Char)
  | '[' :: rest => if rest.getLast? = some ']' then some rest.dropLast else none
  | _ => none

/-- The address of a host: an IPv4 address bare, an IPv6 address in brackets. -/
def ofHostChars? (host : List Char) : Option Address :=
  match ofChars? host with
  | some (.v4 v) => some (.v4 v)
  | _ => match (unbracketed? host).bind ofChars? with
    | some (.v6 v) => some (.v6 v)
    | _ => none

/-- The address that the host of a URI denotes. -/
def ofHost (host : String) : Except AddressError Address :=
  if host.isEmpty then .error .emptyHost
  else match ofHostChars? host.toList with
    | some a => .ok a
    | none => .error (.invalidUriHost host)

/-- Whether the text is an address as the host of a URI. -/
def isHost (host : String) : Bool :=
  (ofHost host).toBool

end Groundwork.Address
