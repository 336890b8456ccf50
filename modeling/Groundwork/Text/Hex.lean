import Groundwork.Text.Digits

/-!
# Bytes as hexadecimal text

Two lowercase digits per byte. `hexBytes` writes, `hexBytes?` reads digits of either case, and
reading what was written gives the bytes back (`hexBytes?_hexBytes`).
-/

namespace Groundwork.Text

/-- The two hexadecimal digits of a byte. -/
def hexByte (b : UInt8) : List Char :=
  [Nat.digitChar (b.toNat / 16), Nat.digitChar (b.toNat % 16)]

/-- The hexadecimal digits of a sequence of bytes, two for each. -/
def hexBytes (bytes : List UInt8) : List Char :=
  bytes.flatMap hexByte

/-- The bytes that a text of digit pairs spells. -/
def hexBytes? : List Char → Option (List UInt8)
  | [] => some []
  | [_] => none
  | high :: low :: rest => do
    let h ← hexDigit? high
    let l ← hexDigit? low
    let bytes ← hexBytes? rest
    pure (UInt8.ofNat (16 * h + l) :: bytes)

/-- Reading what was written gives the bytes back. -/
theorem hexBytes?_hexBytes (bytes : List UInt8) : hexBytes? (hexBytes bytes) = some bytes := by
  induction bytes with
  | nil => rfl
  | cons b rest ih =>
    have hb := b.toNat_lt
    have hh := hexDigit?_digitChar (show b.toNat / 16 < 16 by omega)
    have hl := hexDigit?_digitChar (show b.toNat % 16 < 16 by omega)
    have hv : 16 * (b.toNat / 16) + b.toNat % 16 = b.toNat := by omega
    have step : hexBytes (b :: rest) =
        Nat.digitChar (b.toNat / 16) :: Nat.digitChar (b.toNat % 16) :: hexBytes rest := rfl
    rw [step, hexBytes?, hh, hl, ih]
    simp only [Option.pure_def, Option.bind_eq_bind, Option.bind_some, hv, UInt8.ofNat_toNat]

end Groundwork.Text
