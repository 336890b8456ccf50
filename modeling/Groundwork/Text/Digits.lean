/-!
# Digits

Numbers as digit sequences: the value of a decimal or hexadecimal digit, the number that a
sequence of digits spells, and the shortest spelling of a number.

* `decimalDigit?` and `hexDigit?` read one character; only ASCII digits count, and hexadecimal
  letters count in either case.
* `fromDigits base` is the number spelled by digits, the most significant first.
* `decimal` and `hexadecimal` spell a number with lowercase letters and without leading zeros.
-/

namespace Groundwork.Text

/-- The value of an ASCII decimal digit. -/
def decimalDigit? (c : Char) : Option Nat :=
  if 0x30 ≤ c.toNat ∧ c.toNat ≤ 0x39 then some (c.toNat - 0x30) else none

/-- The value of an ASCII hexadecimal digit of either case. -/
def hexDigit? (c : Char) : Option Nat :=
  if 0x30 ≤ c.toNat ∧ c.toNat ≤ 0x39 then some (c.toNat - 0x30)
  else if 0x61 ≤ c.toNat ∧ c.toNat ≤ 0x66 then some (c.toNat - 0x61 + 10)
  else if 0x41 ≤ c.toNat ∧ c.toNat ≤ 0x46 then some (c.toNat - 0x41 + 10)
  else none

/-- The number that a sequence of digits spells, the most significant digit first. -/
def fromDigits (base : Nat) (digits : List Nat) : Nat :=
  digits.foldl (fun value digit => base * value + digit) 0

/-- The number spelled in decimal by a text of digits only. -/
def decimalValue? (s : List Char) : Option Nat :=
  (s.mapM decimalDigit?).map (fromDigits 10)

/-- The number spelled in hexadecimal by a text of digits only. -/
def hexValue? (s : List Char) : Option Nat :=
  (s.mapM hexDigit?).map (fromDigits 16)

/-- The decimal digits of a number, without leading zeros. -/
def decimal (n : Nat) : List Char :=
  Nat.toDigits 10 n

/-- The lowercase hexadecimal digits of a number, without leading zeros. -/
def hexadecimal (n : Nat) : List Char :=
  Nat.toDigits 16 n

/-- A decimal digit is a hexadecimal digit of the same value. -/
theorem hexDigit?_of_decimalDigit? {c : Char} {d : Nat} (h : decimalDigit? c = some d) :
    hexDigit? c = some d := by
  unfold decimalDigit? at h
  unfold hexDigit?
  split at h <;> simp_all

/-- Reading the spelling of a digit gives the digit back. -/
theorem hexDigit?_digitChar {d : Nat} (h : d < 16) : hexDigit? (Nat.digitChar d) = some d := by
  have table : ∀ e ∈ List.range 16, hexDigit? (Nat.digitChar e) = some e := by decide
  exact table d (List.mem_range.mpr h)

end Groundwork.Text
