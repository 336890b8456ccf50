import Mathlib.Data.List.Forall2
import Groundwork.Proofs.Bytes.Cursor

/-!
# Starting inside the bytes

A cursor that starts at an offset reads as a cursor at the front of the bytes from there on. The two
differ in where they stand: the positions are apart by the offset, and so are the places of
malformed texts, which are told in the whole array.

* `Reader.perform_shift`: a reader further on, with the same bytes before it, does the same read.
* `Cursor.Apart` is the distance of two cursors, `Cursor.SameStep` what it makes of an answer.
* `Cursor.exists_sameStep` is one read, `Cursor.exists_sameSteps` a sequence of reads.
* `Cursor.startingAt_readsTail`: so it is from every offset within the bytes or at their end.
-/

namespace Groundwork.Bytes

/-- The failure as it is told `distance` bytes further on. -/
def ReadError.shift (distance : Nat) : ReadError → ReadError
  | .malformedText offset => .malformedText (offset + distance)
  | e => e

/-! ## Readers -/

namespace Reader

/-- The reader with the same bytes before it, `distance` bytes further on. -/
def shift (distance : Nat) (r : Reader) : Reader :=
  ⟨r.position + distance, r.rest⟩

/-- An answer, and a reader further on. -/
def shiftStep {α : Type} (distance : Nat) (step : Except ReadError α × Reader) :
    Except ReadError α × Reader :=
  (step.1.mapError (ReadError.shift distance), step.2.shift distance)

/-- What was read, and a reader further on. -/
def shiftGot {α : Type} (distance : Nat) (got : Except ReadError (α × Reader)) :
    Except ReadError (α × Reader) :=
  match got with
  | .ok (a, after) => .ok (a, after.shift distance)
  | .error e => .error (e.shift distance)

variable (distance : Nat) (r : Reader)

theorem advance_shift (n : Nat) : (r.shift distance).advance n = (r.advance n).shift distance := by
  simp only [shift, advance, Nat.add_right_comm]

theorem settled_shift {α : Type} (reading : α → Reading) (got : Except ReadError (α × Reader)) :
    (r.shift distance).settled reading (shiftGot distance got) =
      shiftStep distance (r.settled reading got) := by
  cases got with
  | error e => rfl
  | ok got => rfl

/-- How many bytes are missing does not depend on where they are missing. -/
theorem take_shift (n : Nat) : (r.shift distance).take n = shiftGot distance (r.take n) := by
  by_cases short : r.remaining < n
  · rw [take_eq_error short]
    exact take_eq_error short
  · have enough : n ≤ r.remaining := Nat.le_of_not_lt short
    have enough' : n ≤ (r.shift distance).remaining := enough
    rw [take_eq_ok enough, take_eq_ok enough', advance_shift]
    rfl

/-- A text that goes wrong goes wrong further on. -/
theorem text_shift : (r.shift distance).text = shiftGot distance r.text := by
  rw [Reader.text, take_shift, Reader.text]
  cases r.take 2 with
  | error e => rfl
  | ok head =>
    rcases head with ⟨lengthBytes, body⟩
    simp only [shiftGot]
    rw [take_shift]
    cases body.take (bigEndianValue lengthBytes) with
    | error e => rfl
    | ok got =>
      simp only [shiftGot]
      cases ModifiedUtf8.decode got.1 with
      | ok s => rfl
      | error offset =>
        simp only [shift, ReadError.shift, Nat.add_right_comm]

/-- A reader further on does the same read. -/
theorem perform_shift (request : Request) :
    (r.shift distance).perform request = shiftStep distance (r.perform request) := by
  cases request with
  | scalar kind => rw [perform_scalar, perform_scalar, take_shift, settled_shift]
  | block length => rw [perform, perform, take_shift, settled_shift]
  | skip count =>
    show (_, (r.shift distance).advance _) = (_, (r.advance _).shift distance)
    rw [advance_shift]
    rfl
  | line =>
    by_cases empty : r.rest = []
    · have empty' : (r.shift distance).rest = [] := empty
      rw [perform, perform, Reader.line, Reader.line, if_pos empty, if_pos empty']
      rfl
    · have left : (r.shift distance).rest ≠ [] := empty
      rw [perform, perform, line_eq_some empty, line_eq_some left, advance_shift]
      rfl
  | text => rw [perform, perform, text_shift, settled_shift]

end Reader

/-! ## Cursors -/

namespace Cursor

/-- Two cursors with the same bytes before them, of which the first is `distance` bytes further
on. -/
structure Apart (distance : Nat) (c tail : Cursor) : Prop where
  position : c.position = tail.position + distance
  bytes : c.bytes.drop distance = tail.bytes
  remaining : ∃ n, c.remaining? = some n ∧ tail.remaining? = some n

/-- The same answer from two cursors that are `distance` bytes apart, before the read and after it:
only the place of a malformed text is told differently. -/
structure SameStep (distance : Nat) (step tailStep : Except ReadError Reading × Cursor) : Prop where
  answer : step.1 = tailStep.1.mapError (ReadError.shift distance)
  after : Apart distance step.2 tailStep.2

theorem remaining?_eq_some_iff {c : Cursor} {n : Nat} :
    c.remaining? = some n ↔ c.InRange ∧ c.left = n := by
  constructor
  · intro h
    rcases Option.ite_none_right_eq_some.mp h with ⟨inside, left⟩
    exact ⟨inside, Option.some.inj left⟩
  · rintro ⟨inside, rfl⟩
    exact remaining?_eq inside

namespace Apart

variable {distance : Nat} {c tail : Cursor}

theorem reader_eq (h : Apart distance c tail) : c.reader = tail.reader.shift distance := by
  simp only [reader, Reader.shift, h.position, ← h.bytes, List.drop_drop, Nat.add_comm]

/-- Two cursors that go on by the same number of bytes stay apart as they were. -/
theorem moveTo (h : Apart distance c tail) {n : Nat} (enough : n ≤ tail.left) :
    Apart distance (c.moveTo (c.position + n)) (tail.moveTo (tail.position + n)) := by
  rcases h.remaining with ⟨left, remaining, remaining'⟩
  rcases remaining?_eq_some_iff.mp remaining with ⟨inside, length⟩
  rcases remaining?_eq_some_iff.mp remaining' with ⟨inside', length'⟩
  have enough' : n ≤ c.left := by omega
  have onward := inRange_moveTo inside enough'
  have onward' := inRange_moveTo inside' enough
  have same : (c.moveTo (c.position + n)).left = (tail.moveTo (tail.position + n)).left := by
    simp only [Cursor.left, Cursor.moveTo, Nat.sub_add_eq] at length length' ⊢
    rw [length, length']
  refine ⟨?_, h.bytes, _, remaining?_eq onward, ?_⟩
  · show c.position + n = tail.position + n + distance
    rw [h.position, Nat.add_right_comm]
  · rw [remaining?_eq onward', same]

end Apart

/-- One read keeps two cursors apart as they were, and they answer the same. -/
theorem exists_sameStep {limit distance : Nat} {c tail : Cursor} (h : Apart distance c tail)
    (fits : c.bytes.length < limit) (request : Request) :
    ∃ step tailStep, c.perform limit request = some step ∧
      tail.perform limit request = some tailStep ∧ SameStep distance step tailStep ∧
      step.2.bytes = c.bytes := by
  rcases h.remaining with ⟨left, remaining, remaining'⟩
  rcases remaining?_eq_some_iff.mp remaining with ⟨inside, -⟩
  rcases remaining?_eq_some_iff.mp remaining' with ⟨inside', -⟩
  have fits' : tail.bytes.length < limit := by
    rw [← h.bytes, List.length_drop]
    omega
  rcases Reader.exists_reads tail.reader request with ⟨n, reads, goes⟩
  have enough : n ≤ tail.left := by
    have le := reads.le_remaining
    rwa [remaining_reader] at le
  have performed := perform_eq inside fits request
  rw [h.reader_eq, Reader.perform_shift] at performed
  refine ⟨_, _, performed, perform_eq inside' fits' request, ⟨rfl, ?_⟩, rfl⟩
  -- the answers are those of the readers; both cursors pass over the same number of bytes
  have place : (Reader.shiftStep distance (tail.reader.perform request)).2.position =
      c.position + n := by
    rw [Reader.shiftStep, goes, h.position, Nat.add_right_comm]
    rfl
  have place' : (tail.reader.perform request).2.position = tail.position + n := by
    rw [goes]
    rfl
  simp only [place, place']
  exact h.moveTo enough

/-- A sequence of reads keeps two cursors apart as they were, and they answer the same. -/
theorem exists_sameSteps {limit distance : Nat} {c tail : Cursor} (h : Apart distance c tail)
    (fits : c.bytes.length < limit) (requests : List Request) :
    ∃ steps tailSteps, c.run limit requests = some steps ∧
      tail.run limit requests = some tailSteps ∧
      List.Forall₂ (SameStep distance) steps tailSteps := by
  induction requests generalizing c tail with
  | nil => exact ⟨[], [], rfl, rfl, .nil⟩
  | cons request more ih =>
    rcases exists_sameStep h fits request with ⟨step, tailStep, performed, performed', same, bytes⟩
    rcases ih same.after (by rwa [bytes]) with ⟨steps, tailSteps, ran, ran', others⟩
    refine ⟨step :: steps, tailStep :: tailSteps, ?_, ?_, .cons same others⟩
    · rw [run, performed, Option.bind_some, ran]
      rfl
    · rw [run, performed', Option.bind_some, ran']
      rfl

/-- A cursor can start at this offset, and from there it reads what a cursor at the front of the
bytes from there on reads. -/
def ReadsTail (limit : Nat) (bytes : List UInt8) (start : Nat) : Prop :=
  ∃ c, startingAt bytes start = .ok c ∧ Apart start c (ofBytes (bytes.drop start)) ∧
    ∀ requests, ∃ steps tailSteps, c.run limit requests = some steps ∧
      (ofBytes (bytes.drop start)).run limit requests = some tailSteps ∧
      List.Forall₂ (SameStep start) steps tailSteps

/-- From every offset within the bytes, or at their end, a cursor reads what a cursor at the front
of the bytes from there on reads: the same answers in the same order, with as many bytes left after
each, at positions that are greater by the offset. Of the failures only malformed texts tell a
place, and it is greater by the offset as well. -/
theorem startingAt_readsTail {limit : Nat} {bytes : List UInt8} (fits : bytes.length < limit)
    {start : Nat} (within : start ≤ bytes.length) : ReadsTail limit bytes start := by
  have started : startingAt bytes start = .ok ⟨bytes, start⟩ := by
    rw [startingAt, if_neg (Nat.not_lt_of_le within)]
  have apart : Apart start ⟨bytes, start⟩ (ofBytes (bytes.drop start)) := by
    refine ⟨(Nat.zero_add start).symm, rfl, bytes.length - start, remaining?_eq within, ?_⟩
    rw [remaining?_eq (Nat.zero_le _)]
    simp only [left, ofBytes, List.length_drop, Nat.sub_zero]
  exact ⟨_, started, apart, fun requests => exists_sameSteps apart fits requests⟩

/-- A malformed text behind the offset is told at byte 5 of the whole array, and at byte 3 of the
tail. -/
theorem readsTail_of_malformed_text :
    [7, 7, 0, 2, 0xc3, 0x41, (13 : UInt8)].length < 8 ∧
      2 ≤ [7, 7, 0, 2, 0xc3, 0x41, (13 : UInt8)].length ∧
      ReadsTail 8 [7, 7, 0, 2, 0xc3, 0x41, 13] 2 ∧
      (Cursor.mk [7, 7, 0, 2, 0xc3, 0x41, 13] 2).run 8 [.text] =
        some [(.error (.malformedText 5), ⟨[7, 7, 0, 2, 0xc3, 0x41, 13], 2⟩)] ∧
      (ofBytes [0, 2, 0xc3, 0x41, 13]).run 8 [.text] =
        some [(.error (.malformedText 3), ofBytes [0, 2, 0xc3, 0x41, 13])] := by
  have fits : [7, 7, 0, 2, 0xc3, 0x41, (13 : UInt8)].length < 8 := by decide
  have within : 2 ≤ [7, 7, 0, 2, 0xc3, 0x41, (13 : UInt8)].length := by decide
  have inside : (Cursor.mk [7, 7, 0, 2, 0xc3, 0x41, 13] 2).InRange := within
  refine ⟨fits, within, startingAt_readsTail fits within, ?_, ?_⟩
  · rw [run_eq inside fits]
    rfl
  · rw [run_eq (Nat.zero_le _) (by decide)]
    rfl

end Cursor

end Groundwork.Bytes
