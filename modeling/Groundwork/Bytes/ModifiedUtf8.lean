/-!
# Modified UTF-8

A text as UTF-16 code units, each unit in a group of one to three bytes. It differs from UTF-8 in
two points: U+0000 takes two bytes, and a supplementary character is written as its two
surrogates of three bytes each.

* `encode` writes a text.
* `decode` reads one. It first cuts the bytes into groups (`codeUnits`), then joins surrogate
  pairs (`characters`); overlong groups and a plain zero byte are accepted. A refusal is the
  offset of the byte where the text stops being well formed, and a bad group is reported before a
  surrogate without a partner.
-/

namespace Groundwork.Bytes.ModifiedUtf8

/-! ## Code units -/

/-- A UTF-16 code unit and the offset of the first byte of its group. -/
structure CodeUnit where
  value : UInt16
  offset : Nat
deriving DecidableEq, Repr

/-- The six bits that a continuation byte `10xxxxxx` carries. -/
def continuation? (b : UInt8) : Option Nat :=
  if b.toNat / 64 = 2 then some (b.toNat % 64) else none

/-- The code units of a sequence of groups that starts at `offset`, or the offset of the first
byte that does not fit: a byte that starts no group, or the place of a missing continuation. -/
def codeUnits (offset : Nat) : List UInt8 → Except Nat (List CodeUnit)
  | [] => .ok []
  | lead :: rest =>
    if lead.toNat < 0x80 then
      (codeUnits (offset + 1) rest).map (⟨UInt16.ofNat lead.toNat, offset⟩ :: ·)
    else if lead.toNat / 32 = 6 then
      match rest with
      | [] => .error (offset + 1)
      | second :: rest =>
        match continuation? second with
        | none => .error (offset + 1)
        | some low =>
          (codeUnits (offset + 2) rest).map
            (⟨UInt16.ofNat (lead.toNat % 32 * 64 + low), offset⟩ :: ·)
    else if lead.toNat / 16 = 14 then
      match rest with
      | [] => .error (offset + 1)
      | second :: rest =>
        match continuation? second with
        | none => .error (offset + 1)
        | some middle =>
          match rest with
          | [] => .error (offset + 2)
          | third :: rest =>
            match continuation? third with
            | none => .error (offset + 2)
            | some low =>
              (codeUnits (offset + 3) rest).map
                (⟨UInt16.ofNat (lead.toNat % 16 * 4096 + middle * 64 + low), offset⟩ :: ·)
    else .error offset

/-! ## Surrogates -/

/-- Whether the unit is the first of a surrogate pair. -/
def isHighSurrogate (u : UInt16) : Bool :=
  0xd800 ≤ u.toNat ∧ u.toNat < 0xdc00

/-- Whether the unit is the second of a surrogate pair. -/
def isLowSurrogate (u : UInt16) : Bool :=
  0xdc00 ≤ u.toNat ∧ u.toNat < 0xe000

/-- The supplementary character of a surrogate pair. -/
def pairedChar (high low : UInt16) : Char :=
  Char.ofNat (0x10000 + (high.toNat - 0xd800) * 0x400 + (low.toNat - 0xdc00))

/-- The characters of a sequence of code units, or the offset of the first surrogate without a
partner. -/
def characters : List CodeUnit → Except Nat (List Char)
  | [] => .ok []
  | u :: rest =>
    if isHighSurrogate u.value then
      match rest with
      | [] => .error u.offset
      | v :: rest =>
        if isLowSurrogate v.value then
          (characters rest).map (pairedChar u.value v.value :: ·)
        else .error u.offset
    else if isLowSurrogate u.value then .error u.offset
    else (characters rest).map (Char.ofNat u.value.toNat :: ·)

/-- The text that the bytes spell, or the offset of the byte where they go wrong. -/
def decode (bytes : List UInt8) : Except Nat (List Char) :=
  match codeUnits 0 bytes with
  | .ok units => characters units
  | .error offset => .error offset

/-! ## Writing -/

/-- The UTF-16 code units of a character. -/
def unitsOfChar (c : Char) : List UInt16 :=
  if c.toNat < 0x10000 then [UInt16.ofNat c.toNat]
  else [UInt16.ofNat (0xd800 + (c.toNat - 0x10000) / 0x400),
    UInt16.ofNat (0xdc00 + (c.toNat - 0x10000) % 0x400)]

/-- The group of a code unit. -/
def groupOfUnit (u : UInt16) : List UInt8 :=
  if u ≠ 0 ∧ u.toNat < 0x80 then [UInt8.ofNat u.toNat]
  else if u.toNat < 0x800 then
    [UInt8.ofNat (0xc0 + u.toNat / 64), UInt8.ofNat (0x80 + u.toNat % 64)]
  else
    [UInt8.ofNat (0xe0 + u.toNat / 4096), UInt8.ofNat (0x80 + u.toNat / 64 % 64),
      UInt8.ofNat (0x80 + u.toNat % 64)]

/-- The bytes of a text. -/
def encode (s : List Char) : List UInt8 :=
  (s.flatMap unitsOfChar).flatMap groupOfUnit

end Groundwork.Bytes.ModifiedUtf8
