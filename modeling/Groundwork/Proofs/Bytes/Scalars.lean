import Groundwork.Proofs.Bytes.Advance

/-!
# Scalars and blocks in sequence

Values are written one behind the other, each as big-endian bytes, and read in the same order.

* `ScalarKind.Admits`: which scalars can be written as which kind, and `ScalarKind.encode` how.
* `signed_eq_toInt`: signed numbers are read as two's complement.
* `FloatBits.ofBits_eq`: the patterns of NaN are those above the one of infinity.
* `decode_encode`: a scalar that was written is read back, with all patterns of NaN as one value.
* `perform_item`, `run_written`: the same for a reader, one value and a sequence of values.
* `perform_bool`, `perform_signed`: which truth values and signed numbers are read of any bytes.
* `run_recovers_items`: reading undoes writing.
-/

namespace Groundwork.Bytes

-- powers mean the same whether or not algebra is imported beside this module
attribute [local instance (2000)] instPowNat

/-! ## Kinds -/

namespace ScalarKind

/-- Whether the kind holds integers without a sign. -/
def isUnsigned : ScalarKind → Bool
  | .u8 | .u16 | .codeUnit => true
  | _ => false

/-- Whether the kind holds integers with a sign. -/
def isSigned : ScalarKind → Bool
  | .i8 | .i16 | .i32 | .i64 => true
  | _ => false

/-- Whether the kind holds floating-point numbers. -/
def isFloat : ScalarKind → Bool
  | .f32 | .f64 => true
  | _ => false

/-- The scalars of a kind: a truth value, an integer in range, NaN, or any bit pattern. -/
inductive Admits : ScalarKind → Scalar → Prop
  | bool (b : Bool) : Admits .bool (.bool b)
  | unsigned {kind : ScalarKind} {n : Int} (unsigned : kind.isUnsigned = true) (low : 0 ≤ n)
      (high : n < 2 ^ kind.bits) : Admits kind (.integer n)
  | signed {kind : ScalarKind} {n : Int} (signed : kind.isSigned = true)
      (low : -2 ^ (kind.bits - 1) ≤ n) (high : n < 2 ^ (kind.bits - 1)) :
      Admits kind (.integer n)
  | nan {kind : ScalarKind} (float : kind.isFloat = true) : Admits kind (.float .nan)
  | pattern {kind : ScalarKind} {bits : Nat} (float : kind.isFloat = true)
      (fits : bits < 2 ^ kind.bits) : Admits kind (.float (.pattern bits))

/-- The pattern of positive infinity. -/
def infinityBits : ScalarKind → Nat
  | .f32 => 0x7f800000
  | .f64 => 0x7ff0000000000000
  | _ => 0

/-- The scalar as it is read. The patterns of NaN, which apart from their sign lie above the one of
infinity, are not told apart. -/
def shown (kind : ScalarKind) : Scalar → Scalar
  | .float (.pattern bits) =>
    .float (if kind.infinityBits < bits % 2 ^ (kind.bits - 1) then .nan else .pattern bits)
  | x => x

/-- A bit pattern of NaN. -/
def nanBits : ScalarKind → Nat
  | .f32 => 0x7fc00000
  | .f64 => 0x7ff8000000000000
  | _ => 0

/-- The bytes of a scalar of this kind; an integer is written in two's complement. -/
def encode (kind : ScalarKind) : Scalar → List UInt8
  | .bool b => bigEndian (kind.bits / 8) b.toNat
  | .integer n => bigEndian (kind.bits / 8) (n % 2 ^ kind.bits).toNat
  | .float .nan => bigEndian (kind.bits / 8) kind.nanBits
  | .float (.pattern bits) => bigEndian (kind.bits / 8) bits

theorem pow_bits (kind : ScalarKind) : 256 ^ (kind.bits / 8) = 2 ^ kind.bits := by
  cases kind <;> rfl

theorem length_encode (kind : ScalarKind) (x : Scalar) :
    (kind.encode x).length = kind.bits / 8 := by
  cases x with
  | bool b => exact length_bigEndian _ _
  | integer n => exact length_bigEndian _ _
  | float x =>
    cases x with
    | nan => exact length_bigEndian _ _
    | pattern bits => exact length_bigEndian _ _

end ScalarKind

/-! ## Numbers -/

/-- Bytes spell a number below the power of 256 that their count says. -/
theorem bigEndianValue_lt (bytes : List UInt8) : bigEndianValue bytes < 256 ^ bytes.length := by
  induction bytes with
  | nil => decide
  | cons b rest ih =>
    have digit : b.toNat + 1 ≤ 256 := b.toNat_lt
    have room : 256 ^ rest.length * (b.toNat + 1) ≤ 256 ^ rest.length * 256 :=
      Nat.mul_le_mul_left _ digit
    rw [Nat.mul_add, Nat.mul_one] at room
    rw [bigEndianValue_cons, List.length_cons, Nat.pow_succ]
    omega

/-- With a sign, the bits of a number are read as two's complement. -/
theorem signed_eq_toInt {bits n : Nat} (h : n < 2 ^ bits) :
    signed bits n = (BitVec.ofNat bits n).toInt := by
  have power : ((2 ^ bits : Nat) : Int) = 2 ^ bits := Int.natCast_pow 2 bits
  rw [BitVec.toInt_eq_toNat_cond, BitVec.toNat_ofNat, Nat.mod_eq_of_lt h, signed, power]

/-- The two's complement of a number as a word. -/
theorem toNat_ofInt (bits : Nat) (n : Int) :
    (BitVec.ofInt bits n).toNat = (n % 2 ^ bits).toNat := by
  have power : ((2 ^ bits : Nat) : Int) = 2 ^ bits := Int.natCast_pow 2 bits
  rw [BitVec.toNat_ofInt, power]

theorem toNat_emod_lt (bits : Nat) (n : Int) : (n % 2 ^ bits).toNat < 2 ^ bits := by
  rw [← toNat_ofInt]
  exact (BitVec.ofInt bits n).isLt

/-- A number that fits with its sign comes back when its two's complement is read. -/
theorem signed_emod {bits : Nat} (pos : 0 < bits) {n : Int} (low : -2 ^ (bits - 1) ≤ n)
    (high : n < 2 ^ (bits - 1)) : signed bits (n % 2 ^ bits).toNat = n := by
  have word : BitVec.ofNat bits (n % 2 ^ bits).toNat = BitVec.ofInt bits n := by
    rw [← toNat_ofInt, BitVec.ofNat_toNat, BitVec.setWidth_eq]
  rw [signed_eq_toInt (toNat_emod_lt bits n), word, BitVec.toInt_ofInt_eq_self pos low high]

/-- The pattern of infinity has an exponent of ones and no fraction, so that the patterns of NaN are
those above it, apart from the sign. -/
theorem FloatBits.ofBits_eq (exponentBits fractionBits bits : Nat) :
    FloatBits.ofBits exponentBits fractionBits bits =
      if 2 ^ fractionBits * (2 ^ exponentBits - 1) < bits % 2 ^ (fractionBits + exponentBits) then
        .nan
      else .pattern bits := by
  have fraction : bits % 2 ^ fractionBits < 2 ^ fractionBits :=
    Nat.mod_lt _ (Nat.two_pow_pos fractionBits)
  have exponent : bits / 2 ^ fractionBits % 2 ^ exponentBits < 2 ^ exponentBits :=
    Nat.mod_lt _ (Nat.two_pow_pos exponentBits)
  have nan : 2 ^ fractionBits * (2 ^ exponentBits - 1) < bits % 2 ^ (fractionBits + exponentBits) ↔
      bits / 2 ^ fractionBits % 2 ^ exponentBits = 2 ^ exponentBits - 1 ∧
        bits % 2 ^ fractionBits ≠ 0 := by
    rw [Nat.pow_add, Nat.mod_mul]
    by_cases ones : bits / 2 ^ fractionBits % 2 ^ exponentBits = 2 ^ exponentBits - 1
    · rw [ones]
      omega
    · -- a smaller exponent leaves no room for what the fraction adds
      have smaller : bits / 2 ^ fractionBits % 2 ^ exponentBits + 1 ≤ 2 ^ exponentBits - 1 := by
        omega
      have below := Nat.mul_le_mul_left (2 ^ fractionBits) smaller
      rw [Nat.mul_add, Nat.mul_one] at below
      exact iff_of_false (by omega) (fun h => ones h.1)
  rw [FloatBits.ofBits]
  simp only [nan]

/-! ## One scalar -/

namespace ScalarKind

theorem decode_unsigned {kind : ScalarKind} (unsigned : kind.isUnsigned = true)
    (bytes : List UInt8) : kind.decode bytes = .integer (bigEndianValue bytes) := by
  cases kind with
  | u8 | u16 | codeUnit => rfl
  | bool | i8 | i16 | i32 | i64 | f32 | f64 => cases unsigned

theorem decode_signed {kind : ScalarKind} (h : kind.isSigned = true) (bytes : List UInt8) :
    kind.decode bytes = .integer (signed kind.bits (bigEndianValue bytes)) := by
  cases kind with
  | i8 | i16 | i32 | i64 => rfl
  | bool | u8 | u16 | codeUnit | f32 | f64 => cases h

theorem decode_float {kind : ScalarKind} (float : kind.isFloat = true) (bytes : List UInt8) :
    kind.decode bytes = kind.shown (.float (.pattern (bigEndianValue bytes))) := by
  cases kind with
  | f32 => exact congrArg Scalar.float (FloatBits.ofBits_eq 8 23 (bigEndianValue bytes))
  | f64 => exact congrArg Scalar.float (FloatBits.ofBits_eq 11 52 (bigEndianValue bytes))
  | bool | u8 | i8 | i16 | u16 | codeUnit | i32 | i64 => cases float

/-- The bytes of an integer spell its two's complement. -/
theorem bigEndianValue_encode_integer (kind : ScalarKind) (n : Int) :
    bigEndianValue (kind.encode (.integer n)) = (n % 2 ^ kind.bits).toNat := by
  have bytes : kind.encode (.integer n) = bigEndian (kind.bits / 8) (n % 2 ^ kind.bits).toNat := rfl
  rw [bytes, bigEndianValue_bigEndian, pow_bits, Nat.mod_eq_of_lt (toNat_emod_lt kind.bits n)]

/-- The bytes of a bit pattern spell it. -/
theorem bigEndianValue_encode_pattern {kind : ScalarKind} {bits : Nat}
    (fits : bits < 2 ^ kind.bits) :
    bigEndianValue (kind.encode (.float (.pattern bits))) = bits := by
  have bytes : kind.encode (.float (.pattern bits)) = bigEndian (kind.bits / 8) bits := rfl
  rw [bytes, bigEndianValue_bigEndian, pow_bits, Nat.mod_eq_of_lt fits]

/-- A scalar that was written is read back. -/
theorem decode_encode {kind : ScalarKind} {x : Scalar} (h : kind.Admits x) :
    kind.decode (kind.encode x) = kind.shown x := by
  cases h with
  | bool b => cases b <;> rfl
  | @unsigned _ n unsigned low high =>
    rw [decode_unsigned unsigned, bigEndianValue_encode_integer, Int.emod_eq_of_lt low high,
      Int.toNat_of_nonneg low]
    rfl
  | signed signed low high =>
    have pos : 0 < kind.bits := by
      cases kind <;> decide
    rw [decode_signed signed, bigEndianValue_encode_integer, signed_emod pos low high]
    rfl
  | nan float =>
    cases kind with
    | f32 | f64 => rfl
    | bool | u8 | i8 | i16 | u16 | codeUnit | i32 | i64 => cases float
  | pattern float fits =>
    rw [decode_float float, bigEndianValue_encode_pattern fits]

end ScalarKind

/-! ## Values in sequence -/

/-- What is written for a read: a scalar of a kind, or a block of bytes. -/
inductive Item where
  | scalar (kind : ScalarKind) (x : Scalar) (admitted : kind.Admits x)
  | block (bytes : List UInt8)

namespace Item

/-- The bytes that are written. -/
def bytes : Item → List UInt8
  | .scalar kind x _ => kind.encode x
  | .block bytes => bytes

/-- The read that matches. -/
def request : Item → Request
  | .scalar kind _ _ => .scalar kind
  | .block bytes => .block bytes.length

/-- What is to be read. -/
def reading : Item → Reading
  | .scalar kind x _ => .scalar (kind.shown x)
  | .block bytes => .block bytes

end Item

/-- The bytes of items one behind the other. -/
def written (items : List Item) : List UInt8 :=
  items.flatMap Item.bytes

namespace Reader

/-- The reader after several reads, which is the one after the last of them. -/
def after (r : Reader) (requests : List Request) : Reader :=
  ((r.run requests).getLast?.map Prod.snd).getD r

theorem after_cons (r : Reader) (request : Request) (more : List Request) :
    r.after (request :: more) = (r.perform request).2.after more := by
  rw [after, after, run, List.getLast?_cons]
  cases ((r.perform request).2.run more).getLast? with
  | none => rfl
  | some step => rfl

/-- A block that is as long as the bytes in front is those bytes. -/
theorem take_append {front rest : List UInt8} {n : Nat} (length : front.length = n)
    (position : Nat) :
    (Reader.mk position (front ++ rest)).take n = .ok (front, ⟨position + n, rest⟩) := by
  have enough : n ≤ (Reader.mk position (front ++ rest)).remaining := by
    rw [remaining, List.length_append]
    omega
  rw [take_eq_ok enough, advance, List.take_left' length, List.drop_left' length]

/-- The matching read gives the item back and goes on behind it. -/
theorem perform_item (item : Item) (position : Nat) (rest : List UInt8) :
    (Reader.mk position (item.bytes ++ rest)).perform item.request =
      (.ok item.reading, ⟨position + item.bytes.length, rest⟩) := by
  cases item with
  | scalar kind x admitted =>
    have length := kind.length_encode x
    simp only [Item.bytes, Item.request, Item.reading]
    rw [perform_scalar, take_append length, length, ← ScalarKind.decode_encode admitted]
    rfl
  | block bytes =>
    simp only [Item.bytes, Item.request, Item.reading]
    rw [perform, take_append rfl]
    rfl

/-- Several items are read back in the order in which they were written, and the reader goes on
behind the last of them. -/
theorem run_written (items : List Item) (position : Nat) (rest : List UInt8) :
    ((Reader.mk position (written items ++ rest)).run (items.map Item.request)).map Prod.fst =
        items.map (fun item => .ok item.reading) ∧
      (Reader.mk position (written items ++ rest)).after (items.map Item.request) =
        ⟨position + (written items).length, rest⟩ := by
  induction items generalizing position with
  | nil => exact ⟨rfl, rfl⟩
  | cons item more ih =>
    have bytes : written (item :: more) ++ rest = item.bytes ++ (written more ++ rest) := by
      rw [written, List.flatMap_cons, List.append_assoc]
      rfl
    have first := perform_item item position (written more ++ rest)
    rcases ih (position + item.bytes.length) with ⟨answers, final⟩
    have length : (written (item :: more)).length = item.bytes.length + (written more).length := by
      rw [written, List.flatMap_cons, List.length_append]
      rfl
    constructor
    · rw [bytes, List.map_cons, run, List.map_cons, first, answers]
      rfl
    · rw [bytes, List.map_cons, after_cons, first, final, length, Nat.add_assoc]

/-! ## Any bytes -/

/-- A truth value is read of one byte, and every byte but zero is true. -/
theorem perform_bool {r : Reader} {b : UInt8} {more : List UInt8} (front : r.rest = b :: more) :
    r.perform (.scalar .bool) = (.ok (.scalar (.bool (b ≠ 0))), r.advance 1) := by
  have taken : r.take (ScalarKind.bool.bits / 8) = .ok ([b], r.advance 1) := by
    have enough : 1 ≤ r.remaining := by
      rw [remaining, front]
      exact Nat.succ_pos _
    have first : r.rest.take 1 = [b] := by
      rw [front]
      rfl
    rw [← first]
    exact take_eq_ok enough
  have value : bigEndianValue [b] = b.toNat := by
    rw [bigEndianValue, List.foldl_cons, List.foldl_nil, Nat.mul_zero, Nat.zero_add]
  have decoded : ScalarKind.bool.decode [b] = .bool (b ≠ 0) := by
    have zero : b.toNat ≠ 0 ↔ b ≠ 0 := not_congr (UInt8.toNat_inj (b := 0))
    rw [ScalarKind.decode, value, decide_eq_decide.mpr zero]
  rw [perform_scalar, taken, ← decoded]
  rfl

/-- An integer with a sign is read as the two's complement of the number that its bytes spell. -/
theorem perform_signed {r : Reader} {kind : ScalarKind} (signed : kind.isSigned = true)
    (enough : kind.bits / 8 ≤ r.remaining) :
    r.perform (.scalar kind) =
      (.ok (.scalar (.integer
        (BitVec.ofNat kind.bits (bigEndianValue (r.rest.take (kind.bits / 8)))).toInt)),
        r.advance (kind.bits / 8)) := by
  have length : (r.rest.take (kind.bits / 8)).length = kind.bits / 8 :=
    List.length_take_of_le enough
  have fits : bigEndianValue (r.rest.take (kind.bits / 8)) < 2 ^ kind.bits := by
    have lt := bigEndianValue_lt (r.rest.take (kind.bits / 8))
    rwa [length, ScalarKind.pow_bits] at lt
  rw [perform_scalar, take_eq_ok enough, ← signed_eq_toInt fits, ← ScalarKind.decode_signed signed]
  rfl

/-- Items that were written one behind the other are read back by the matching reads: each as it was
written, without a failure, up to the byte behind the last of them. Of any bytes, a truth value is
true exactly if its byte is not zero, and a number with a sign is the two's complement of the number
that its bytes spell. -/
theorem run_recovers_items :
    (∀ (items : List Item) (rest : List UInt8),
      ((Reader.ofBytes (written items ++ rest)).run (items.map Item.request)).map Prod.fst =
          items.map (fun item => .ok item.reading) ∧
        (Reader.ofBytes (written items ++ rest)).after (items.map Item.request) =
          ⟨(written items).length, rest⟩) ∧
    (∀ (r : Reader) (b : UInt8) (more : List UInt8), r.rest = b :: more →
      r.perform (.scalar .bool) = (.ok (.scalar (.bool (b ≠ 0))), r.advance 1)) ∧
    (∀ (r : Reader) (kind : ScalarKind), kind.isSigned = true → kind.bits / 8 ≤ r.remaining →
      r.perform (.scalar kind) =
        (.ok (.scalar (.integer
          (BitVec.ofNat kind.bits (bigEndianValue (r.rest.take (kind.bits / 8)))).toInt)),
          r.advance (kind.bits / 8))) := by
  refine ⟨?_, ?_, ?_⟩
  · intro items rest
    have read := run_written items 0 rest
    rwa [Nat.zero_add] at read
  · intro r b more front
    exact perform_bool front
  · intro r kind signed enough
    exact perform_signed signed enough

/-- A bit pattern of NaN other than the usual one, a negative number and a block, and the same bytes
read as a number with the most significant bit set. -/
theorem recovers_items_of_nan_pattern :
    (((Reader.ofBytes [0xff, 0x80, 0x00, 0x01, 0xff, 0xfe, 0x07, 0x08, 0x09]).run
          [.scalar .f32, .scalar .i16, .block 2]).map Prod.fst =
        [.ok (.scalar (.float .nan)), .ok (.scalar (.integer (-2))), .ok (.block [0x07, 0x08])] ∧
      (Reader.ofBytes [0xff, 0x80, 0x00, 0x01, 0xff, 0xfe, 0x07, 0x08, 0x09]).after
          [.scalar .f32, .scalar .i16, .block 2] = ⟨8, [0x09]⟩) ∧
      ScalarKind.i32.isSigned = true ∧
      ScalarKind.i32.bits / 8 ≤ (Reader.ofBytes [0xff, 0x80, 0x00, 0x01]).remaining ∧
      (Reader.ofBytes [0xff, 0x80, 0x00, 0x01]).perform (.scalar .i32) =
        (.ok (.scalar (.integer (-8388607))), ⟨4, []⟩) := by
  have pattern : ScalarKind.f32.Admits (.float (.pattern 0xff800001)) := .pattern rfl (by decide)
  have negative : ScalarKind.i16.Admits (.integer (-2)) := .signed rfl (by decide) (by decide)
  have signed : ScalarKind.i32.isSigned = true := rfl
  have enough : ScalarKind.i32.bits / 8 ≤ (Reader.ofBytes [0xff, 0x80, 0x00, 0x01]).remaining := by
    decide
  refine ⟨?_, signed, enough, ?_⟩
  · exact run_recovers_items.1
      [.scalar .f32 _ pattern, .scalar .i16 _ negative, .block [0x07, 0x08]] [0x09]
  · rw [run_recovers_items.2.2 _ _ signed enough]
    rfl

end Reader

end Groundwork.Bytes
