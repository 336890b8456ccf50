import Groundwork.Proofs.Bytes.Advance
import Groundwork.Proofs.Bytes.Scanning

/-!
# Reading keeps its position in range

* A cursor in range does what the reader on the bytes from its position on does, and none of its
  numbers leaves the array (`perform_eq`, and `run_eq` for several reads). Each read has its own
  lemma (`block_eq`, `skip_eq`, `line_eq`, `text_eq`).
* `Lawful` is the law of one read, `LawfulRun` that of several.
* `run_lawful`: every sequence of reads keeps the law, whatever its counts.
-/

namespace Groundwork.Bytes.Cursor

/-! ## Cursors and readers -/

/-- The position is within the bytes or at their end. -/
def InRange (c : Cursor) : Prop :=
  c.position ≤ c.bytes.length

/-- The number of bytes from the position on. -/
def left (c : Cursor) : Nat :=
  c.bytes.length - c.position

/-- The reader that has the bytes from the position on before it. -/
def reader (c : Cursor) : Reader :=
  ⟨c.position, c.bytes.drop c.position⟩

/-- What a reader got, for the cursor that it stands for; without success the cursor stays. -/
def adopt {α : Type} (c : Cursor) : Except ReadError (α × Reader) → Except ReadError α × Cursor
  | .ok (a, after) => (.ok a, c.moveTo after.position)
  | .error e => (.error e, c)

@[simp] theorem remaining_reader (c : Cursor) : c.reader.remaining = c.left :=
  List.length_drop

theorem remaining?_eq {c : Cursor} (inside : c.InRange) : c.remaining? = some c.left := by
  unfold InRange at inside
  rw [remaining?, if_pos inside, left]

theorem reader_moveTo (c : Cursor) (n : Nat) :
    (c.moveTo (c.position + n)).reader = c.reader.advance n := by
  simp only [reader, moveTo, Reader.advance, List.drop_drop]

theorem inRange_moveTo {c : Cursor} {n : Nat} (inside : c.InRange) (enough : n ≤ c.left) :
    (c.moveTo (c.position + n)).InRange := by
  simp only [InRange, left, moveTo] at inside enough ⊢
  omega

/-- The next bytes are a slice of the array. -/
theorem slice?_eq {c : Cursor} {n : Nat} (inside : c.InRange) (enough : n ≤ c.left) :
    slice? c.bytes c.position (c.position + n) = some (c.reader.rest.take n) := by
  have within : c.position ≤ c.position + n ∧ c.position + n ≤ c.bytes.length := by
    simp only [InRange, left] at inside enough
    omega
  rw [slice?, if_pos within, Nat.add_sub_cancel_left]
  rfl

section

variable {limit : Nat} {c : Cursor} (inside : c.InRange) (fits : c.bytes.length < limit)

include inside fits

/-- A sum that stays within the bytes fits in a word. -/
theorem add_lt {n : Nat} (enough : n ≤ c.left) : c.position + n < limit := by
  simp only [InRange, left] at inside enough
  omega

theorem block_eq (n : Nat) : c.block limit n = some (c.adopt (c.reader.take n)) := by
  rw [block, remaining?_eq inside, Option.bind_some]
  by_cases short : c.left < n
  · rw [if_pos short, Reader.take_eq_error (by rwa [remaining_reader]), remaining_reader]
    rfl
  · have enough : n ≤ c.left := by omega
    rw [if_neg short, inWord_of_lt (add_lt inside fits enough), slice?_eq inside enough,
      Reader.take_eq_ok (by rwa [remaining_reader])]
    rfl

theorem scalar_eq (kind : ScalarKind) :
    c.scalar limit kind = some (c.adopt (c.reader.scalar kind)) := by
  rw [scalar, block_eq inside fits, Option.map_some, Reader.scalar]
  cases c.reader.take kind.width with
  | error e => rfl
  | ok got => rfl

theorem skip_eq (n : Nat) : c.skip limit n =
    some ((c.reader.skip n).1, c.moveTo (c.reader.skip n).2.position) := by
  have enough : min n c.left ≤ c.left := Nat.min_le_right _ _
  rw [skip, remaining?_eq inside, Option.bind_some, inWord_of_lt (add_lt inside fits enough),
    Reader.skip, remaining_reader]
  rfl

omit inside in
/-- The loop over the bytes of a line ends behind its terminator. -/
theorem lineFrom_eq (position : Nat) :
    lineFrom limit c.bytes position =
      some ((Reader.lineBytes (c.bytes.drop position)).map Char.ofUInt8,
        position + Reader.lineLength (c.bytes.drop position)) := by
  generalize hrest : c.bytes.drop position = rest
  induction rest generalizing position with
  | nil =>
    have past : ¬ position < c.bytes.length := by
      rw [List.drop_eq_nil_iff] at hrest
      omega
    rw [lineFrom, dif_neg past]
    rfl
  | cons b more ih =>
    rcases getElem_of_drop_eq_cons hrest with ⟨here, hb, hmore⟩
    rw [lineFrom, dif_pos here, inWord_of_lt (by omega), hb]
    by_cases feed : b = 10
    · rw [if_pos feed, feed, Reader.lineBytes_end (.inl rfl), Reader.lineLength_feed]
      rfl
    by_cases ret : b = 13
    · -- the byte after the carriage return is looked at, and passed if it is a line feed
      rw [if_neg feed, if_pos ret, ret, Reader.lineBytes_end (.inr rfl), Reader.lineLength_return,
        ← hmore, List.head?_drop]
      by_cases second : c.bytes[position + 1]? = some 10
      · have next : position + 1 < c.bytes.length := (List.getElem?_eq_some_iff.mp second).1
        rw [if_pos second, if_pos second, inWord_of_lt (by omega)]
        rfl
      · rw [if_neg second, if_neg second]
        rfl
    · have content : ¬ (b = 10 ∨ b = 13) := not_or.mpr ⟨feed, ret⟩
      rw [if_neg feed, if_neg ret, ih (position + 1) hmore, Reader.lineBytes_cons content,
        Reader.lineLength_cons content, Option.map_some]
      simp only [List.map_cons, Option.some.injEq, Prod.mk.injEq, true_and]
      omega

theorem line_eq : c.line limit = some (c.reader.line.1, c.moveTo c.reader.line.2.position) := by
  rw [line, remaining?_eq inside, Option.bind_some]
  by_cases empty : c.left = 0
  · have none_left : c.reader.rest = [] := by
      rwa [← Reader.remaining_eq_zero_iff, remaining_reader]
    rw [if_pos empty, Reader.line, if_pos none_left]
    rfl
  · have some_left : c.reader.rest ≠ [] := by
      rwa [Ne, ← Reader.remaining_eq_zero_iff, remaining_reader]
    rw [if_neg empty, lineFrom_eq fits, Reader.line_eq_some some_left]
    rfl

theorem body_eq (start length : Nat) : c.body limit start length = some
    (match c.reader.take length with
    | .error e => (.error e, c.moveTo start)
    | .ok (bytes, after) =>
      match ModifiedUtf8.decode bytes with
      | .ok s => (.ok (String.ofList s), c.moveTo after.position)
      | .error offset => (.error (.malformedText (c.position + offset)), c.moveTo start)) := by
  rw [body, remaining?_eq inside, Option.bind_some]
  by_cases short : c.left < length
  · rw [if_pos short, Reader.take_eq_error (by rwa [remaining_reader]), remaining_reader]
  · have enough : length ≤ c.left := by omega
    have within : (c.reader.rest.take length).length ≤ length := List.length_take_le _ _
    have fitsBody : (c.reader.rest.take length).length < limit := by
      have room := add_lt inside fits enough
      omega
    rw [if_neg short, inWord_of_lt (add_lt inside fits enough), slice?_eq inside enough,
      Option.bind_some, ModifiedUtf8.decodeAt_eq fitsBody, Option.bind_some,
      Reader.take_eq_ok (by rwa [remaining_reader])]
    dsimp only
    cases decoded : ModifiedUtf8.decode (c.reader.rest.take length) with
    | ok s => rfl
    | error offset =>
      -- the bad byte is in the body, or just behind it
      have place := ModifiedUtf8.decode_error_le decoded
      exact inWord_of_lt (add_lt inside fits (by omega)) _

/-- A text moves the position in stages, and each failure puts it back. -/
theorem text_eq : c.text limit = some (c.adopt c.reader.text) := by
  rw [text, block_eq inside fits, Option.bind_some, Reader.text]
  by_cases short : c.left < 2
  · rw [Reader.take_eq_error (by rwa [remaining_reader])]
    rfl
  · have enough : 2 ≤ c.left := by omega
    have insideBody : (c.moveTo (c.position + 2)).InRange := inRange_moveTo inside enough
    have fitsBody : (c.moveTo (c.position + 2)).bytes.length < limit := fits
    rw [Reader.take_eq_ok (by rwa [remaining_reader])]
    -- the position is behind the length when the body is read
    show (c.moveTo (c.position + 2)).body limit c.position _ = _
    rw [body_eq insideBody fitsBody, reader_moveTo]
    dsimp only
    cases (c.reader.advance 2).take (bigEndianValue (c.reader.rest.take 2)) with
    | error e => rfl
    | ok got =>
      dsimp only
      cases ModifiedUtf8.decode got.1 with
      | ok s => rfl
      | error offset => rfl

/-- A cursor in range does what the reader does on the bytes from its position on. -/
theorem perform_eq (request : Request) : c.perform limit request =
    some ((c.reader.perform request).1, c.moveTo (c.reader.perform request).2.position) := by
  -- a read that may fail answers the same, and without success neither moves
  have same {α : Type} (reading : α → Reading) (got : Except ReadError (α × Reader)) :
      settled reading (c.adopt got) =
        ((c.reader.settled reading got).1,
          c.moveTo (c.reader.settled reading got).2.position) := by
    cases got with
    | error e => rfl
    | ok got => rfl
  cases request with
  | scalar kind => rw [perform, scalar_eq inside fits, Option.map_some, same, Reader.perform]
  | block length => rw [perform, block_eq inside fits, Option.map_some, same, Reader.perform]
  | skip count => rw [perform, skip_eq inside fits, Option.map_some, Reader.perform]
  | line => rw [perform, line_eq inside fits, Option.map_some, Reader.perform]
  | text => rw [perform, text_eq inside fits, Option.map_some, same, Reader.perform]

/-- Several reads of a cursor in range are those of the reader, from position to position. -/
theorem run_eq (requests : List Request) : c.run limit requests =
    some ((c.reader.run requests).map fun step => (step.1, c.moveTo step.2.position)) := by
  induction requests generalizing c with
  | nil => rfl
  | cons request more ih =>
    rcases Reader.exists_reads c.reader request with ⟨n, reads, goes⟩
    have enough : n ≤ c.left := by
      have le := reads.le_remaining
      rwa [remaining_reader] at le
    have performed := perform_eq inside fits request
    have place : c.moveTo (c.reader.perform request).2.position = c.moveTo (c.position + n) := by
      rw [goes]
      rfl
    have later := ih (inRange_moveTo inside enough) fits
    rw [reader_moveTo, ← goes] at later
    rw [run, performed, Option.bind_some, place, later]
    simp only [Reader.run, List.map_cons, Option.map_some, place]
    rfl

end

/-! ## The law of a read -/

/-- What a read from `c` that answers `answer` and leaves the cursor `after` keeps. -/
structure Lawful (c : Cursor) (request : Request) (answer : Except ReadError Reading)
    (after : Cursor) : Prop where
  /-- The bytes stay, and the position is within them. -/
  same_bytes : after.bytes = c.bytes
  in_range : after.InRange
  /-- What has been passed and what is left are all the bytes. -/
  all_bytes : ∃ n, after.remaining? = some n ∧ after.position + n = after.bytes.length
  /-- The position never goes back. -/
  forward : c.position ≤ after.position
  /-- A failure leaves the cursor as it was. -/
  atomic : ∀ e, answer = .error e → after = c
  /-- A read of fixed width fails exactly where fewer bytes are left, and names both numbers. -/
  fixed_fails : ∀ n, request.width? = some n →
    ∀ e, answer = .error e ↔ c.left < n ∧ e = .unexpectedEnd n c.left
  /-- Otherwise it passes over its width. -/
  fixed_advances : ∀ n, request.width? = some n →
    ∀ reading, answer = .ok reading → after.position = c.position + n
  /-- A text passes over its length and as many bytes. -/
  text_advances : request = .text → ∀ reading, answer = .ok reading →
    after.position = c.position + 2 + bigEndianValue ((c.bytes.drop c.position).take 2)
  /-- Skipping passes over what it says, which is all that is left if that is less. -/
  skips : ∀ count, request = .skip count →
    answer = .ok (.skipped (min count c.left)) ∧
      after.position = c.position + min count c.left
  /-- There is a line, of one byte or more, unless nothing is left. -/
  lines : request = .line → ∃ content, answer = .ok (.line content) ∧
    (content = none ↔ c.left = 0) ∧ (content ≠ none → c.position + 1 ≤ after.position)
  /-- The answer is that of the reader, which goes on from the same place. -/
  agrees : c.reader.perform request = (answer, after.reader)

/-- A cursor in range does every read, and keeps the law. -/
theorem exists_perform_lawful {limit : Nat} {c : Cursor} (inside : c.InRange)
    (fits : c.bytes.length < limit) (request : Request) :
    ∃ answer after, c.perform limit request = some (answer, after) ∧
      Lawful c request answer after := by
  rcases Reader.exists_reads c.reader request with ⟨n, reads, goes⟩
  have performed := perform_eq inside fits request
  have agrees : c.reader.perform request =
      ((c.reader.perform request).1, (c.moveTo (c.position + n)).reader) := by
    rw [reader_moveTo, ← goes]
  rw [goes] at performed
  generalize (c.reader.perform request).1 = answer at reads performed agrees
  have enough : n ≤ c.left := by
    have le := reads.le_remaining
    rwa [remaining_reader] at le
  have inside' := inRange_moveTo inside enough
  -- the cursor moves by what the read passes over, so the law is read off `reads`
  refine ⟨answer, c.moveTo (c.position + n), performed, ?_⟩
  constructor
  case same_bytes => rfl
  case in_range => exact inside'
  case all_bytes =>
    refine ⟨_, remaining?_eq inside', ?_⟩
    unfold InRange at inside'
    rw [left]
    omega
  case forward => exact Nat.le_add_right _ _
  case atomic =>
    intro e failed
    subst failed
    rw [reads.of_error]
    rfl
  case fixed_fails =>
    intro width fixed e
    rw [← remaining_reader]
    exact reads.error_iff fixed e
  case fixed_advances =>
    intro width fixed reading succeeded
    subst succeeded
    rw [← reads.eq_width fixed]
    rfl
  case text_advances =>
    intro isText reading succeeded
    subst isText succeeded
    show c.position + n = _
    rw [reads.of_text, Nat.add_assoc]
    rfl
  case skips =>
    intro count isSkip
    subst isSkip
    rcases reads.of_skip with ⟨told, passed⟩
    rw [← remaining_reader, ← passed]
    exact ⟨told, rfl⟩
  case lines =>
    intro isLine
    subst isLine
    rcases reads.of_line with ⟨content, told, none_iff, passed⟩
    rw [remaining_reader] at none_iff
    exact ⟨content, told, none_iff, fun h => Nat.add_le_add_left (passed h) c.position⟩
  case agrees => exact agrees

/-! ## Sequences of reads -/

/-- Several reads, each lawful from where the one before left the cursor. -/
inductive LawfulRun :
    Cursor → List Request → List (Except ReadError Reading × Cursor) → Prop
  | nil (c : Cursor) : LawfulRun c [] []
  | cons {c after : Cursor} {request : Request} {more : List Request}
      {answer : Except ReadError Reading} {steps : List (Except ReadError Reading × Cursor)}
      (first : Lawful c request answer after) (rest : LawfulRun after more steps) :
      LawfulRun c (request :: more) ((answer, after) :: steps)

theorem exists_run_lawfulRun {limit : Nat} {c : Cursor} (inside : c.InRange)
    (fits : c.bytes.length < limit) (requests : List Request) :
    ∃ steps, c.run limit requests = some steps ∧ LawfulRun c requests steps := by
  induction requests generalizing c with
  | nil => exact ⟨[], rfl, .nil c⟩
  | cons request more ih =>
    rcases exists_perform_lawful inside fits request with ⟨answer, after, performed, first⟩
    have fits' : after.bytes.length < limit := by rwa [first.same_bytes]
    rcases ih first.in_range fits' with ⟨steps, ran, rest⟩
    refine ⟨(answer, after) :: steps, ?_, .cons first rest⟩
    rw [run, performed, Option.bind_some, ran]
    rfl

/-- The cursors that reading bytes begins with. -/
inductive Made (bytes : List UInt8) : Cursor → Prop
  | front : Made bytes (ofBytes bytes)
  | offset {start : Nat} {c : Cursor} (made : startingAt bytes start = .ok c) : Made bytes c

/-- A cursor is made exactly at the offsets up to the end; past it both numbers are named. -/
theorem startingAt_cases (bytes : List UInt8) (start : Nat) :
    (start ≤ bytes.length ∧ startingAt bytes start = .ok ⟨bytes, start⟩) ∨
      (bytes.length < start ∧
        startingAt bytes start = .error (.offsetOutOfBounds start bytes.length)) := by
  by_cases past : bytes.length < start
  · right
    exact ⟨past, by rw [startingAt, if_pos past]⟩
  · left
    exact ⟨by omega, by rw [startingAt, if_neg past]⟩

theorem Made.inRange {bytes : List UInt8} {c : Cursor} (h : Made bytes c) :
    c.bytes = bytes ∧ c.InRange := by
  cases h with
  | front => exact ⟨rfl, Nat.zero_le _⟩
  | @offset start _ made =>
    rcases startingAt_cases bytes start with ⟨within, eq⟩ | ⟨-, eq⟩
    · rw [eq] at made
      rw [← Except.ok.inj made]
      exact ⟨rfl, within⟩
    · rw [eq] at made
      cases made

/-- A cursor is made exactly at an offset within the bytes or at their end, where the reader starts.
From there every sequence of reads, whatever its counts, is done without an index or a sum out of
range, and each read keeps the law. -/
theorem run_lawful {limit : Nat} {bytes : List UInt8} (fits : bytes.length < limit) :
    (∀ start, (∃ c, startingAt bytes start = .ok c) ↔ start ≤ bytes.length) ∧
    (∀ start, Reader.startingAt bytes start = (startingAt bytes start).map reader) ∧
    ∀ c, Made bytes c → c.InRange ∧ ∀ requests,
      ∃ steps, c.run limit requests = some steps ∧ LawfulRun c requests steps := by
  refine ⟨?_, ?_, ?_⟩
  · intro start
    rcases startingAt_cases bytes start with ⟨within, eq⟩ | ⟨past, eq⟩
    · exact iff_of_true ⟨_, eq⟩ within
    · refine iff_of_false ?_ (by omega)
      rintro ⟨c, made⟩
      rw [eq] at made
      cases made
  · intro start
    rw [Reader.startingAt, startingAt]
    split
    · rfl
    · rfl
  · intro c made
    rcases made.inRange with ⟨rfl, inside⟩
    exact ⟨inside, exists_run_lawfulRun inside fits⟩

/-- A malformed text, a short read and a count next to the limit of a 64-bit word, after a start
inside the bytes. -/
theorem lawfulRun_of_great_skip :
    (∃ c, startingAt [7, 0, 2, 0xc3, 0x41] 1 = .ok c) ∧
    ∃ steps, (Cursor.mk [7, 0, 2, 0xc3, 0x41] 1).run 6
        [.text, .scalar .i64, .skip 0xffffffffffffffff, .line] = some steps ∧
      LawfulRun ⟨[7, 0, 2, 0xc3, 0x41], 1⟩
        [.text, .scalar .i64, .skip 0xffffffffffffffff, .line] steps := by
  have fits : [7, 0, 2, 0xc3, (0x41 : UInt8)].length < 6 := by decide
  have started : startingAt [7, 0, 2, 0xc3, 0x41] 1 = .ok ⟨[7, 0, 2, 0xc3, 0x41], 1⟩ := rfl
  refine ⟨((run_lawful fits).1 1).mpr (by decide), ?_⟩
  exact ((run_lawful fits).2.2 _ (.offset started)).2 _

/-- Behind the end of the bytes nothing is answered. -/
example (limit count : Nat) : (Cursor.mk [1] 2).run limit [.skip count] = none := rfl

/-- A word that is too small for the position behind the bytes stops the read. -/
example : (ofBytes [1, 2]).run 2 [.block 2] = none := rfl

end Groundwork.Bytes.Cursor
