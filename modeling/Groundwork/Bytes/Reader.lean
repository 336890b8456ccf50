import Groundwork.Bytes.ModifiedUtf8
import Groundwork.Bytes.Scalar

/-!
# Reading bytes in sequence

A `Reader` stands at a position of an array of bytes and reads forward.

* `Reader.ofBytes` starts at the front, `Reader.startingAt` at an offset within the array.
* `take`, `scalar`, `text`, `line` and `skip` read one item. A read that fails gives no new reader,
  so the old one stays where it was.
* `Request` names the reads and `Reader.perform` does one; `Reader.run` does several, each from
  where the one before left the reader.
-/

namespace Groundwork.Bytes

/-- The reasons why a read fails. -/
inductive ReadError where
  | unexpectedEnd (needed remaining : Nat)
  | offsetOutOfBounds (offset length : Nat)
  | malformedText (offset : Nat)
deriving DecidableEq, Repr

/-- The wording of a failure. -/
def ReadError.message : ReadError → String
  | .unexpectedEnd needed remaining =>
    "unexpected end of input: needed " ++ toString needed ++ " bytes, " ++ toString remaining ++
      " remaining"
  | .offsetOutOfBounds offset length =>
    "start offset " ++ toString offset ++ " is past the end of a " ++ toString length ++
      "-byte array"
  | .malformedText offset => "malformed modified UTF-8 at byte " ++ toString offset

/-- A position in an array of bytes and the bytes from there on. -/
structure Reader where
  position : Nat
  rest : List UInt8
deriving DecidableEq, Repr

namespace Reader

/-- A reader at the front of the bytes. -/
def ofBytes (bytes : List UInt8) : Reader := ⟨0, bytes⟩

/-- A reader at an offset, which is at most the length of the bytes. -/
def startingAt (bytes : List UInt8) (offset : Nat) : Except ReadError Reader :=
  if bytes.length < offset then .error (.offsetOutOfBounds offset bytes.length)
  else .ok ⟨offset, bytes.drop offset⟩

/-- The number of bytes that are left. -/
def remaining (r : Reader) : Nat := r.rest.length

/-- The reader after the next `n` bytes. -/
def advance (r : Reader) (n : Nat) : Reader :=
  ⟨r.position + n, r.rest.drop n⟩

/-! ## Blocks and scalars -/

/-- The next `n` bytes, if there are as many. -/
def take (r : Reader) (n : Nat) : Except ReadError (List UInt8 × Reader) :=
  if r.remaining < n then .error (.unexpectedEnd n r.remaining)
  else .ok (r.rest.take n, r.advance n)

/-- The next scalar of a kind. -/
def scalar (r : Reader) (kind : ScalarKind) : Except ReadError (Scalar × Reader) :=
  (r.take kind.width).map fun got => (kind.decode got.1, got.2)

/-- Passes over `n` bytes, or all that are left if there are fewer, and tells how many. -/
def skip (r : Reader) (n : Nat) : Nat × Reader :=
  (min n r.remaining, r.advance (min n r.remaining))

/-! ## Lines -/

/-- Whether the byte ends a line: a line feed or a carriage return. -/
def endsLine (b : UInt8) : Bool :=
  b = 10 ∨ b = 13

/-- The line terminator at the front of the bytes: a line feed, a carriage return, or both in the
order carriage return, line feed. -/
def terminator : List UInt8 → List UInt8
  | 13 :: 10 :: _ => [13, 10]
  | 13 :: _ => [13]
  | 10 :: _ => [10]
  | _ => []

/-- The bytes of the next line, without its terminator. -/
def lineBytes (bytes : List UInt8) : List UInt8 :=
  bytes.takeWhile fun b => !endsLine b

/-- The next line, read as Latin-1 and without its terminator, if any byte is left. -/
def line (r : Reader) : Option String × Reader :=
  if r.rest = [] then (none, r)
  else
    let content := lineBytes r.rest
    let ending := terminator (r.rest.drop content.length)
    (some (String.ofList (content.map Char.ofUInt8)), r.advance (content.length + ending.length))

/-! ## Text -/

/-- The next text in modified UTF-8, which a 16-bit length stands in front of. -/
def text (r : Reader) : Except ReadError (String × Reader) :=
  match r.take 2 with
  | .error e => .error e
  | .ok (lengthBytes, body) =>
    match body.take (bigEndianValue lengthBytes) with
    | .error e => .error e
    | .ok (bytes, after) =>
      match ModifiedUtf8.decode bytes with
      | .ok s => .ok (String.ofList s, after)
      | .error offset => .error (.malformedText (body.position + offset))

end Reader

/-! ## Requests -/

/-- What to read next. -/
inductive Request where
  | scalar (kind : ScalarKind)
  | block (length : Nat)
  | skip (count : Nat)
  | line
  | text
deriving DecidableEq, Repr

/-- What was read. -/
inductive Reading where
  | scalar (value : Scalar)
  | block (bytes : List UInt8)
  | skipped (count : Nat)
  | line (content : Option String)
  | text (content : String)
deriving DecidableEq, Repr

namespace Reader

/-- The answer to a read and the reader after it: the old one if the read failed. -/
def settled {α : Type} (r : Reader) (reading : α → Reading)
    (got : Except ReadError (α × Reader)) : Except ReadError Reading × Reader :=
  match got with
  | .ok (a, after) => (.ok (reading a), after)
  | .error e => (.error e, r)

/-- Does one read; a reader whose read fails stays as it was. -/
def perform (r : Reader) : Request → Except ReadError Reading × Reader
  | .scalar kind => r.settled .scalar (r.scalar kind)
  | .block length => r.settled .block (r.take length)
  | .skip count => (.ok (.skipped (r.skip count).1), (r.skip count).2)
  | .line => (.ok (.line r.line.1), r.line.2)
  | .text => r.settled .text r.text

/-- Does the reads one after the other; the answers come with the reader after each. -/
def run (r : Reader) : List Request → List (Except ReadError Reading × Reader)
  | [] => []
  | request :: more =>
    let step := r.perform request
    step :: run step.2 more

end Reader

end Groundwork.Bytes
