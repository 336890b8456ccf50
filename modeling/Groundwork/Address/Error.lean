import Groundwork.Address.Canonical

/-!
# What goes wrong with addresses

Every refusal names the text, length, number or address that it refuses; `AddressError.message`
is its wording.
-/

namespace Groundwork

open Groundwork.Address

/-- The reasons why there is no address, or no address embedded in one. -/
inductive AddressError where
  | notLiteral (text : String)
  | invalidUriHost (host : String)
  | emptyHost
  | invalidLength (length : Nat)
  | notCompatible (address : IPv6)
  | notSixToFour (address : IPv6)
  | notTeredo (address : IPv6)
  | notIsatap (address : IPv6)
  | nothingEmbedded (address : IPv6)
  | portOutOfRange (port : Nat)
  | flagsOutOfRange (flags : Nat)
deriving DecidableEq, Repr

/-- The wording of a refusal. -/
def AddressError.message : AddressError → String
  | .notLiteral text => "'" ++ text ++ "' is not an IP string literal"
  | .invalidUriHost host => "not a valid URI host address: \"" ++ host ++ "\""
  | .emptyHost => "host string is empty"
  | .invalidLength n => "byte array has invalid length for an IP address: " ++ toString n
  | .notCompatible a => "address '" ++ a.mixedText ++ "' is not IPv4-compatible"
  | .notSixToFour a => "address '" ++ a.mixedText ++ "' is not a 6to4 address"
  | .notTeredo a => "address '" ++ a.mixedText ++ "' is not a Teredo address"
  | .notIsatap a => "address '" ++ a.mixedText ++ "' is not an ISATAP address"
  | .nothingEmbedded a => "'" ++ a.mixedText ++ "' has no embedded IPv4 address"
  | .portOutOfRange p => "port '" ++ toString p ++ "' is out of range (0 <= port <= 0xffff)"
  | .flagsOutOfRange f => "flags '" ++ toString f ++ "' is out of range (0 <= flags <= 0xffff)"

end Groundwork
