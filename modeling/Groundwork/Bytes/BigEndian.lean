/-!
# Big-endian numbers

* `bigEndian width n` writes a number in a fixed count of bytes, the most significant first;
  `bigEndianValue` reads bytes back as a number, and undoes it on numbers that fit
  (`bigEndianValue_bigEndian`).
* `signed bits n` reads an unsigned number of the given width as two's complement.
* `word`, `highByte` and `lowByte` put two bytes together to a 16-bit word and take it apart.
-/

namespace Groundwork.Bytes

-- powers mean the same whether or not algebra is imported beside this module
attribute [local instance (2000)] instPowNat

/-- The lowest `width` bytes of a number, the most significant first. -/
def bigEndian : (width : Nat) → Nat → List UInt8
  | 0, _ => []
  | width + 1, n => UInt8.ofNat (n / 256 ^ width) :: bigEndian width n

/-- The number that bytes spell, the most significant first. -/
def bigEndianValue (bytes : List UInt8) : Nat :=
  bytes.foldl (fun value b => 256 * value + b.toNat) 0

/-- The two's complement value of an unsigned number of `bits` bits. -/
def signed (bits n : Nat) : Int :=
  if 2 * n < 2 ^ bits then n else n - 2 ^ bits

/-- The 16-bit word of two bytes. -/
def word (high low : UInt8) : UInt16 :=
  UInt16.ofNat (256 * high.toNat + low.toNat)

/-- The upper byte of a word. -/
def highByte (w : UInt16) : UInt8 :=
  UInt8.ofNat (w.toNat / 256)

/-- The lower byte of a word. -/
def lowByte (w : UInt16) : UInt8 :=
  UInt8.ofNat w.toNat

@[simp] theorem length_bigEndian (width n : Nat) : (bigEndian width n).length = width := by
  induction width with
  | zero => rfl
  | succ width ih => simp [bigEndian, ih]

theorem foldl_bytes (start : Nat) (bytes : List UInt8) :
    bytes.foldl (fun value b => 256 * value + b.toNat) start =
      256 ^ bytes.length * start + bigEndianValue bytes := by
  induction bytes generalizing start with
  | nil => simp [bigEndianValue]
  | cons b rest ih =>
    have h0 := ih (256 * start + b.toNat)
    have h1 := ih (256 * 0 + b.toNat)
    simp only [List.foldl_cons, bigEndianValue, List.length_cons] at *
    rw [h0, h1, Nat.pow_succ]
    simp only [Nat.mul_zero, Nat.zero_add, Nat.mul_add, Nat.mul_assoc, Nat.add_assoc]

theorem bigEndianValue_cons (b : UInt8) (rest : List UInt8) :
    bigEndianValue (b :: rest) = 256 ^ rest.length * b.toNat + bigEndianValue rest := by
  simpa [bigEndianValue] using foldl_bytes b.toNat rest

/-- Reading back what was written gives the number modulo the width. -/
theorem bigEndianValue_bigEndian (width n : Nat) :
    bigEndianValue (bigEndian width n) = n % 256 ^ width := by
  induction width with
  | zero => simp [bigEndian, bigEndianValue, Nat.mod_one]
  | succ width ih =>
    have hb : (UInt8.ofNat (n / 256 ^ width)).toNat = n / 256 ^ width % 256 := by simp
    rw [bigEndian, bigEndianValue_cons, length_bigEndian, ih, hb, Nat.pow_succ, Nat.mod_mul]
    omega

@[simp] theorem toNat_word (high low : UInt8) :
    (word high low).toNat = 256 * high.toNat + low.toNat := by
  have hh := high.toNat_lt
  have hl := low.toNat_lt
  rw [word, UInt16.toNat_ofNat']
  omega

@[simp] theorem toNat_highByte (w : UInt16) : (highByte w).toNat = w.toNat / 256 := by
  have hw := w.toNat_lt
  rw [highByte, UInt8.toNat_ofNat']
  omega

@[simp] theorem toNat_lowByte (w : UInt16) : (lowByte w).toNat = w.toNat % 256 := by
  rw [lowByte, UInt8.toNat_ofNat']

/-- A word is put together from its two bytes. -/
@[simp] theorem word_highByte_lowByte (w : UInt16) : word (highByte w) (lowByte w) = w := by
  apply UInt16.toNat_inj.mp
  rw [toNat_word, toNat_highByte, toNat_lowByte]
  omega

@[simp] theorem highByte_word (high low : UInt8) : highByte (word high low) = high := by
  have hl := low.toNat_lt
  apply UInt8.toNat_inj.mp
  rw [toNat_highByte, toNat_word]
  omega

@[simp] theorem lowByte_word (high low : UInt8) : lowByte (word high low) = low := by
  have hl := low.toNat_lt
  apply UInt8.toNat_inj.mp
  rw [toNat_lowByte, toNat_word]
  omega

end Groundwork.Bytes
