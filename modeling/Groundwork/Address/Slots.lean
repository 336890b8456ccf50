import Groundwork.Address.Literal

/-!
# Reading literals into slots

The way from a literal to its address by index: the groups go one by one into the eight slots of an
address, the two sides of `::` are copied to the ends of fresh slots, and a text is cut behind a
number of bytes.

* `Filled` are slots that are filled from the front on. `fillSection?` fills them with one side of a
  literal; a group too many ends it like a piece that is no group.
* `Copy` is a range of slots and what goes into it, `spread?` the two copies of a literal with `::`.
* `upToByte?` and `fromByte?` cut a text behind a number of bytes.
* `colonFormAt`, `quadFormAt` and `ofLiteralAt` read literals in this way. They have a second `none`
  around their answer, where a range leaves the slots or differs in length from what goes into it, a
  difference falls below zero, or a cut falls within a character.
-/

namespace Groundwork.Address

open Groundwork.Text

/-! ## Slots -/

/-- The slots of an address, one for each group. -/
abbrev Slots := Vector UInt16 IPv6.groupCount

/-- Slots with nothing in them. -/
def Slots.zero : Slots := Vector.replicate IPv6.groupCount 0

/-- The address that has its groups in the slots. -/
def IPv6.ofSlots (slots : Slots) : IPv6 :=
  match slots.toList, slots.length_toList with
  | [g0, g1, g2, g3, g4, g5, g6, g7], _ => ⟨g0, g1, g2, g3, g4, g5, g6, g7⟩

/-- The difference of two numbers, unless it falls below zero. -/
def difference? (a b : Nat) : Option Nat :=
  if b ≤ a then some (a - b) else none

/-- Slots of which the first `count` have been filled. -/
structure Filled where
  slots : Slots
  count : Nat
deriving DecidableEq, Repr

namespace Filled

/-- Slots before anything is filled in. -/
def empty : Filled := ⟨Slots.zero, 0⟩

/-- Fills the next slot, if there is one. -/
def push? (f : Filled) (g : UInt16) : Option Filled :=
  if h : f.count < IPv6.groupCount then some ⟨f.slots.set f.count g h, f.count + 1⟩ else none

/-- Fills the next slots, one after the other. -/
def pushAll? (f : Filled) : List UInt16 → Option Filled
  | [] => some f
  | g :: gs => (f.push? g).bind fun f => f.pushAll? gs

/-- The slots up to the count, if that is not behind the last one. -/
def groups? (f : Filled) : Option (List UInt16) :=
  if f.count ≤ IPv6.groupCount then some (f.slots.toList.take f.count) else none

end Filled

/-! ## Sides of a literal -/

/-- The groups of a piece with `more` behind it. With `quad`, the last piece is a dotted quad if it
has a dot in it. -/
def groupsOfPiece? (quad : Bool) (piece : List Char) (more : List (List Char)) :
    Option (List UInt16) :=
  if quad ∧ more = [] ∧ '.' ∈ piece then (dottedQuad? piece).map fun v => [v.high, v.low]
  else (hexGroup? piece).map ([·])

/-- Fills the next slots with the groups of the pieces. -/
def fillPieces? (quad : Bool) (f : Filled) : List (List Char) → Option Filled
  | [] => some f
  | piece :: more =>
    (groupsOfPiece? quad piece more).bind fun gs =>
      (f.pushAll? gs).bind fun f => fillPieces? quad f more

/-- The slots with the groups of one side of a literal. -/
def fillSection? (quad : Bool) (s : List Char) : Option Filled :=
  if s = [] then some .empty else fillPieces? quad .empty (pieces ':' s)

/-! ## Copies -/

/-- Groups for the slots from `start` up to `stop`. -/
structure Copy where
  start : Nat
  stop : Nat
  source : List UInt16
deriving DecidableEq, Repr

/-- The range lies within the slots, and has a place for each group. -/
def Copy.Fits (c : Copy) : Prop :=
  c.start ≤ c.stop ∧ c.stop ≤ IPv6.groupCount ∧ c.source.length = c.stop - c.start

instance (c : Copy) : Decidable c.Fits :=
  inferInstanceAs (Decidable (_ ∧ _ ∧ _))

/-- The slots after a copy, if it fits. -/
def Copy.onto? (c : Copy) (slots : Slots) : Option Slots :=
  if fits : c.Fits then
    some <| Vector.ofFn fun i =>
      if within : c.start ≤ i ∧ i < c.stop then
        have inside : i - c.start < c.source.length := by
          have same := fits.2.2
          omega
        c.source[i - c.start]
      else slots[i]
  else none

/-- The copy of the groups to the front. -/
def Filled.toFront? (f : Filled) : Option Copy :=
  f.groups?.map fun source => ⟨0, f.count, source⟩

/-- The copy of the groups to the back. -/
def Filled.toBack? (f : Filled) : Option Copy :=
  (difference? IPv6.groupCount f.count).bind fun start =>
    f.groups?.map fun source => ⟨start, IPv6.groupCount, source⟩

/-- The slots with the groups of the head at the front and those of the tail at the back. -/
def spread? (head tail : Filled) : Option Slots :=
  head.toFront?.bind fun front =>
    (front.onto? Slots.zero).bind fun slots =>
      tail.toBack?.bind fun back => back.onto? slots

/-! ## Cuts -/

/-- The first `n` bytes of a text, if there are as many and a character ends with them. -/
def upToByte? (text : String) (n : Nat) : Option String :=
  if boundary : (String.Pos.Raw.mk n).IsValid text then
    some (text.sliceTo ⟨⟨n⟩, boundary⟩).copy
  else none

/-- The text behind its first `n` bytes, if there are as many and a character ends with them. -/
def fromByte? (text : String) (n : Nat) : Option String :=
  if boundary : (String.Pos.Raw.mk n).IsValid text then
    some (text.sliceFrom ⟨⟨n⟩, boundary⟩).copy
  else none

/-- The number of bytes of the mark in front of a mapped address. -/
def mappedMarkSize : Nat := (String.ofList mappedMark).utf8ByteSize

example : mappedMarkSize = 7 := rfl

/-! ## Literals -/

/-- The IPv6 address of a literal, as it stands. -/
def colonFormAt (s : List Char) : Option (Option IPv6) :=
  if ':' ∉ s ∨ occursIn [':', ':', ':'] s then some none
  else match cutAt? [':', ':'] s with
    | none =>
      some <| (fillSection? true s).bind fun f =>
        if f.count = IPv6.groupCount then some (IPv6.ofSlots f.slots) else none
    | some (head, tail) =>
      if occursIn [':', ':'] tail then some none
      else match fillSection? false head, fillSection? true tail with
        | some h, some t =>
          if IPv6.groupCount ≤ h.count + t.count then some none
          else (spread? h t).map fun slots => some (IPv6.ofSlots slots)
        | _, _ => some none

/-- The address of a text that is a dotted quad, or a dotted quad after `::ffff:` (in either
case) or `::`. The first of these marks is compared and cut off by its bytes. -/
def quadFormAt (text : String) : Option (Option Address) :=
  match (upToByte? text mappedMarkSize).filter fun front =>
      front.toList.map Char.toLower = mappedMark with
  | some _ => (fromByte? text mappedMarkSize).map fun rest => (dottedQuad? rest.toList).map .v4
  | none =>
    some <|
      if text.toList.take 2 = [':', ':'] then
        (dottedQuad? (text.toList.drop 2)).map fun v => .v6 (IPv6.compatible v)
      else (dottedQuad? text.toList).map .v4

/-- The address that a literal denotes, in normal form. -/
def ofLiteralAt (text : String) : Option (Except AddressError Address) :=
  (quadFormAt text).bind fun
    | some a => some (.ok a)
    | none =>
      (colonFormAt text.toList).map fun
        | some v => .ok v.unmapped
        | none => .error (.notLiteral text)

end Groundwork.Address
