import Groundwork.Bytes.Reader

/-!
# Reading by index

A `Cursor` is an array of bytes and a position in it. It does the reads of a `Reader` by indexing
into the array, with numbers that have to be below the `limit` of a machine word.

* An operation answers `none` where an index or a range leaves the array, a difference falls below
  zero, or a sum reaches the limit (`inWord`).
* `block`, `scalar`, `skip`, `line` and `text` are the reads; `perform` does one request and `run`
  does several. A failing text has moved the position by then and puts it back.
* `decodeAt` is the decoder of modified UTF-8 over indices: it scans the groups, joins the
  surrogates and finds the place of a bad one by counting the units of the characters before it.
-/

namespace Groundwork.Bytes

/-! ## Checked numbers -/

/-- The outcome `x`, which the number `n` has to fit in a word for. -/
def inWord {α : Type} (limit n : Nat) (x : Option α) : Option α :=
  if n < limit then x else none

theorem inWord_of_lt {α : Type} {limit n : Nat} (h : n < limit) (x : Option α) :
    inWord limit n x = x := by
  rw [inWord, if_pos h]

/-- The bytes from one index up to another, if both are within the array and in order. -/
def slice? (bytes : List UInt8) (start stop : Nat) : Option (List UInt8) :=
  if start ≤ stop ∧ stop ≤ bytes.length then some ((bytes.drop start).take (stop - start)) else none

/-! ## Modified UTF-8 -/

namespace ModifiedUtf8

/-- The bits of the continuation byte at an index, or that index if there is none. -/
def continuationAt (body : List UInt8) (i : Nat) : Except Nat Nat :=
  match body[i]?.bind continuation? with
  | some bits => .ok bits
  | none => .error i

/-- The code units of the groups from index `i` on. -/
def scan (limit : Nat) (body : List UInt8) (i : Nat) : Option (Except Nat (List CodeUnit)) :=
  if h : i < body.length then
    let lead := body[i].toNat
    if lead < 0x80 then
      inWord limit (i + 1) <|
        (scan limit body (i + 1)).map (Except.map (⟨UInt16.ofNat lead, i⟩ :: ·))
    else if lead / 32 = 6 then
      inWord limit (i + 1) <|
      match continuationAt body (i + 1) with
      | .error bad => some (.error bad)
      | .ok low =>
        inWord limit (i + 2) <|
          (scan limit body (i + 2)).map (Except.map (⟨UInt16.ofNat (lead % 32 * 64 + low), i⟩ :: ·))
    else if lead / 16 = 14 then
      inWord limit (i + 1) <|
      match continuationAt body (i + 1) with
      | .error bad => some (.error bad)
      | .ok middle =>
        inWord limit (i + 2) <|
        match continuationAt body (i + 2) with
        | .error bad => some (.error bad)
        | .ok low =>
          inWord limit (i + 3) <|
            (scan limit body (i + 3)).map
              (Except.map (⟨UInt16.ofNat (lead % 16 * 4096 + middle * 64 + low), i⟩ :: ·))
    else some (.error i)
  else some (.ok [])
termination_by body.length - i

/-- The characters of a sequence of UTF-16 code units, with each surrogate that has no partner in
the place of a character. -/
def pairUp : List UInt16 → List (Except UInt16 Char)
  | [] => []
  | [u] => [if isHighSurrogate u ∨ isLowSurrogate u then .error u else .ok (Char.ofNat u.toNat)]
  | u :: v :: rest =>
    if isHighSurrogate u then
      if isLowSurrogate v then .ok (pairedChar u v) :: pairUp rest
      else .error u :: pairUp (v :: rest)
    else if isLowSurrogate u then .error u :: pairUp (v :: rest)
    else .ok (Char.ofNat u.toNat) :: pairUp (v :: rest)

/-- Collects characters that start at the unit of index `consumed`, up to the first surrogate
without a partner. The answer there is the offset of its group. -/
def collect (limit : Nat) (units : List CodeUnit) (consumed : Nat) :
    List (Except UInt16 Char) → Option (Except Nat (List Char))
  | [] => some (.ok [])
  | .error _ :: _ => some (.error ((units[consumed]?.map CodeUnit.offset).getD 0))
  | .ok c :: rest =>
    inWord limit (consumed + (unitsOfChar c).length) <|
      (collect limit units (consumed + (unitsOfChar c).length) rest).map (Except.map (c :: ·))

/-- The text that the bytes spell, or the offset of the byte where they go wrong. -/
def decodeAt (limit : Nat) (body : List UInt8) : Option (Except Nat (List Char)) :=
  (scan limit body 0).bind fun
    | .ok units => collect limit units 0 (pairUp (units.map CodeUnit.value))
    | .error offset => some (.error offset)

end ModifiedUtf8

/-! ## Cursors -/

/-- An array of bytes and a position in it. -/
structure Cursor where
  bytes : List UInt8
  position : Nat
deriving DecidableEq, Repr

namespace Cursor

/-- A cursor at the front of the bytes. -/
def ofBytes (bytes : List UInt8) : Cursor := ⟨bytes, 0⟩

/-- A cursor at an offset, which is at most the length of the bytes. -/
def startingAt (bytes : List UInt8) (offset : Nat) : Except ReadError Cursor :=
  if bytes.length < offset then .error (.offsetOutOfBounds offset bytes.length)
  else .ok ⟨bytes, offset⟩

/-- The number of bytes that are left; it would be negative behind the end. -/
def remaining? (c : Cursor) : Option Nat :=
  if c.position ≤ c.bytes.length then some (c.bytes.length - c.position) else none

/-- The cursor at another position of its bytes. -/
def moveTo (c : Cursor) (position : Nat) : Cursor := { c with position }

variable (limit : Nat)

/-- Reads the next `n` bytes, if there are as many. -/
def block (c : Cursor) (n : Nat) : Option (Except ReadError (List UInt8) × Cursor) :=
  c.remaining?.bind fun remaining =>
    if remaining < n then some (.error (.unexpectedEnd n remaining), c)
    else
      inWord limit (c.position + n) <|
        (slice? c.bytes c.position (c.position + n)).map fun bytes =>
          (.ok bytes, c.moveTo (c.position + n))

/-- Reads the next scalar of a kind. -/
def scalar (c : Cursor) (kind : ScalarKind) : Option (Except ReadError Scalar × Cursor) :=
  (c.block limit kind.width).map fun got => (got.1.map kind.decode, got.2)

/-- Passes over `n` bytes, or all that are left if there are fewer, and tells how many. -/
def skip (c : Cursor) (n : Nat) : Option (Nat × Cursor) :=
  c.remaining?.bind fun remaining =>
    inWord limit (c.position + min n remaining) <|
      some (min n remaining, c.moveTo (c.position + min n remaining))

/-- The characters of the line that starts at `position`, and the position behind its end. -/
def lineFrom (bytes : List UInt8) (position : Nat) : Option (List Char × Nat) :=
  if h : position < bytes.length then
    inWord limit (position + 1) <|
    if bytes[position] = 10 then some ([], position + 1)
    else if bytes[position] = 13 then
      if bytes[position + 1]? = some 10 then
        inWord limit (position + 1 + 1) (some ([], position + 1 + 1))
      else some ([], position + 1)
    else
      (lineFrom bytes (position + 1)).map fun got => (Char.ofUInt8 bytes[position] :: got.1, got.2)
  else some ([], position)
termination_by bytes.length - position

/-- Reads the next line, if any byte is left. -/
def line (c : Cursor) : Option (Option String × Cursor) :=
  c.remaining?.bind fun remaining =>
    if remaining = 0 then some (none, c)
    else
      (lineFrom limit c.bytes c.position).map fun got =>
        (some (String.ofList got.1), c.moveTo got.2)

/-- Reads a text of `length` bytes. A failure moves the position to `start`. -/
def body (c : Cursor) (start length : Nat) : Option (Except ReadError String × Cursor) :=
  c.remaining?.bind fun remaining =>
    if remaining < length then
      some (.error (.unexpectedEnd length remaining), c.moveTo start)
    else
      inWord limit (c.position + length) <|
        (slice? c.bytes c.position (c.position + length)).bind fun bytes =>
          (ModifiedUtf8.decodeAt limit bytes).bind fun
            | .ok s => some (.ok (String.ofList s), c.moveTo (c.position + length))
            | .error offset =>
              -- the place is told in the whole array, not in the body
              inWord limit (c.position + offset) <|
                some (.error (.malformedText (c.position + offset)), c.moveTo start)

/-- Reads the next text, which a 16-bit length stands in front of. The position is behind the length
when the body fails, and goes back to where it was. -/
def text (c : Cursor) : Option (Except ReadError String × Cursor) :=
  (c.block limit 2).bind fun
    | (.error e, after) => some (.error e, after)
    | (.ok lengthBytes, after) => after.body limit c.position (bigEndianValue lengthBytes)

/-! ## Requests -/

/-- An answer to a read as one to a request. -/
def settled {α : Type} (reading : α → Reading) (got : Except ReadError α × Cursor) :
    Except ReadError Reading × Cursor :=
  (got.1.map reading, got.2)

/-- Does one read. -/
def perform (c : Cursor) : Request → Option (Except ReadError Reading × Cursor)
  | .scalar kind => (c.scalar limit kind).map (settled .scalar)
  | .block length => (c.block limit length).map (settled .block)
  | .skip count => (c.skip limit count).map fun got => (.ok (.skipped got.1), got.2)
  | .line => (c.line limit).map fun got => (.ok (.line got.1), got.2)
  | .text => (c.text limit).map (settled .text)

/-- Does the reads one after the other; the answers come with the cursor after each. -/
def run (c : Cursor) : List Request → Option (List (Except ReadError Reading × Cursor))
  | [] => some []
  | request :: more =>
    (c.perform limit request).bind fun step => (run step.2 more).map (step :: ·)

end Cursor

end Groundwork.Bytes
