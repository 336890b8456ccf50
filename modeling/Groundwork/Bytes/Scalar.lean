import Groundwork.Bytes.BigEndian

/-!
# Scalars in bytes

Truth values, integers and floating-point numbers as big-endian bytes of a fixed width.

* `ScalarKind` names the kinds, `ScalarKind.width` their number of bytes.
* `ScalarKind.decode` reads bytes of that width.
* `FloatBits` is a floating-point number by its bit pattern, all NaNs being one.
-/

namespace Groundwork.Bytes

-- powers mean the same whether or not algebra is imported beside this module
attribute [local instance (2000)] instPowNat

/-- The kinds of scalars; `codeUnit` is a UTF-16 code unit. -/
inductive ScalarKind where
  | bool
  | u8
  | i8
  | i16
  | u16
  | codeUnit
  | i32
  | i64
  | f32
  | f64
deriving DecidableEq, Repr

/-- A floating-point number by its bit pattern; the patterns of NaN are not told apart. -/
inductive FloatBits where
  | nan
  | pattern (bits : Nat)
deriving DecidableEq, Repr

/-- The number of a bit pattern with this many bits of fraction below the exponent and the sign: it
is NaN when the exponent is all ones and the fraction is not zero. -/
def FloatBits.ofBits (exponentBits fractionBits bits : Nat) : FloatBits :=
  if bits / 2 ^ fractionBits % 2 ^ exponentBits = 2 ^ exponentBits - 1 ∧
      bits % 2 ^ fractionBits ≠ 0 then .nan
  else .pattern bits

/-- The value of a scalar. -/
inductive Scalar where
  | bool (b : Bool)
  | integer (n : Int)
  | float (x : FloatBits)
deriving DecidableEq, Repr

namespace ScalarKind

/-- The number of bytes of a scalar. -/
def width : ScalarKind → Nat
  | .bool | .u8 | .i8 => 1
  | .i16 | .u16 | .codeUnit => 2
  | .i32 | .f32 => 4
  | .i64 | .f64 => 8

/-- The scalar that bytes of its width spell; every truth value but a zero byte is true. -/
def decode (kind : ScalarKind) (bytes : List UInt8) : Scalar :=
  let n := bigEndianValue bytes
  match kind with
  | .bool => .bool (n ≠ 0)
  | .u8 | .u16 | .codeUnit => .integer n
  | .i8 => .integer (signed 8 n)
  | .i16 => .integer (signed 16 n)
  | .i32 => .integer (signed 32 n)
  | .i64 => .integer (signed 64 n)
  | .f32 => .float (.ofBits 8 23 n)
  | .f64 => .float (.ofBits 11 52 n)

end ScalarKind

end Groundwork.Bytes
