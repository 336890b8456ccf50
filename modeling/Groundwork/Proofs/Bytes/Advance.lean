import Groundwork.Proofs.Bytes.Text

/-!
# How far a read goes

* `ScalarKind.bits` is the number of bits of a scalar, `Request.width?` the number of bytes of a
  read.
* `Reads` lists what a read can do: its answer together with the number of bytes that it passes
  over. It is the inversion lemma of `Reader.perform` (`exists_reads`), one shape for each way a
  request ends.
* `lineLength` is the number of bytes of a line with its terminator. It follows the bytes one by
  one (`lineLength_cons`, `lineLength_feed`, `lineLength_return`).
-/

namespace Groundwork.Bytes

/-- The number of bits of a scalar. A truth value has a byte for itself. -/
def ScalarKind.bits : ScalarKind → Nat
  | .bool | .u8 | .i8 => 8
  | .i16 | .u16 | .codeUnit => 16
  | .i32 | .f32 => 32
  | .i64 | .f64 => 64

theorem ScalarKind.width_eq (kind : ScalarKind) : kind.width = kind.bits / 8 := by
  cases kind <;> rfl

/-- The number of bytes that a read of fixed width takes. -/
def Request.width? : Request → Option Nat
  | .scalar kind => some (kind.bits / 8)
  | .block length => some length
  | .skip _ | .line | .text => none

namespace Reader

/-! ## Lines -/

/-- The number of bytes of the next line, its terminator included. -/
def lineLength (bytes : List UInt8) : Nat :=
  (lineBytes bytes).length + (terminator (bytes.drop (lineBytes bytes).length)).length

theorem endsLine_iff {b : UInt8} : endsLine b = true ↔ b = 10 ∨ b = 13 := by
  simp [endsLine]

theorem lineBytes_cons {b : UInt8} (inside : ¬ (b = 10 ∨ b = 13)) (more : List UInt8) :
    lineBytes (b :: more) = b :: lineBytes more := by
  have goes : (!endsLine b) = true := by
    rw [← endsLine_iff] at inside
    simpa using inside
  exact List.takeWhile_cons_of_pos goes

theorem lineBytes_end {b : UInt8} (ends : b = 10 ∨ b = 13) (more : List UInt8) :
    lineBytes (b :: more) = [] := by
  have stops : ¬ (!endsLine b) = true := by
    rw [← endsLine_iff] at ends
    simpa using ends
  exact List.takeWhile_cons_of_neg stops

theorem lineLength_cons {b : UInt8} (inside : ¬ (b = 10 ∨ b = 13)) (more : List UInt8) :
    lineLength (b :: more) = lineLength more + 1 := by
  rw [lineLength, lineBytes_cons inside, List.length_cons, List.drop_succ_cons, lineLength]
  omega

theorem lineLength_feed (more : List UInt8) : lineLength (10 :: more) = 1 := by
  rw [lineLength, lineBytes_end (.inl rfl)]
  rfl

/-- A line feed after a carriage return belongs to the same terminator. -/
theorem lineLength_return (more : List UInt8) :
    lineLength (13 :: more) = if more.head? = some 10 then 2 else 1 := by
  rw [lineLength, lineBytes_end (.inr rfl)]
  cases more with
  | nil => rfl
  | cons b more =>
    by_cases feed : b = 10
    · rw [feed]
      rfl
    · have alone : terminator (13 :: b :: more) = [13] := by
        rw [terminator]
        intro others h
        exact feed (List.head_eq_of_cons_eq h)
      have next : ¬ (b :: more).head? = some 10 := by
        rwa [List.head?_cons, Option.some.injEq]
      rw [if_neg next, List.length_nil, List.drop_zero, alone]
      rfl

/-- A line ends within the bytes, and is not empty unless they are. -/
theorem lineLength_bounds (bytes : List UInt8) :
    lineLength bytes ≤ bytes.length ∧ (bytes ≠ [] → 0 < lineLength bytes) := by
  induction bytes with
  | nil => exact ⟨Nat.le_refl _, fun h => absurd rfl h⟩
  | cons b more ih =>
    rw [List.length_cons]
    by_cases ends : b = 10 ∨ b = 13
    · rcases ends with rfl | rfl
      · rw [lineLength_feed]
        omega
      · -- a terminator of two bytes needs the second one
        have second : more.head? = some 10 → 0 < more.length := by
          intro h
          cases more with
          | nil => cases h
          | cons => exact Nat.succ_pos _
        rw [lineLength_return]
        split
        · rename_i feed
          have := second feed
          omega
        · omega
    · rw [lineLength_cons ends]
      omega

theorem line_eq_some {r : Reader} (left : r.rest ≠ []) :
    r.line = (some (String.ofList ((lineBytes r.rest).map Char.ofUInt8)),
      r.advance (lineLength r.rest)) := by
  rw [Reader.line, if_neg left]
  rfl

/-! ## What a read does -/

/-- The answer to a read and the number of bytes that it passes over. -/
inductive Reads (r : Reader) : Request → Except ReadError Reading → Nat → Prop
  | short {request : Request} {n : Nat} (width : request.width? = some n)
      (short : r.remaining < n) : Reads r request (.error (.unexpectedEnd n r.remaining)) 0
  | fixed {request : Request} {n : Nat} {reading : Reading} (width : request.width? = some n)
      (enough : n ≤ r.remaining) : Reads r request (.ok reading) n
  | skipped (count : Nat) :
      Reads r (.skip count) (.ok (.skipped (min count r.remaining))) (min count r.remaining)
  | noLine (empty : r.remaining = 0) : Reads r .line (.ok (.line none)) 0
  | line {content : String} {n : Nat} (left : r.remaining ≠ 0) (some_bytes : 0 < n)
      (enough : n ≤ r.remaining) : Reads r .line (.ok (.line (some content))) n
  | noText (e : ReadError) : Reads r .text (.error e) 0
  | text {content : String} {n : Nat} (length : n = 2 + bigEndianValue (r.rest.take 2))
      (enough : n ≤ r.remaining) : Reads r .text (.ok (.text content)) n

/-- A read passes over no more bytes than are left. -/
theorem Reads.le_remaining {r : Reader} {request : Request} {answer : Except ReadError Reading}
    {n : Nat} (h : Reads r request answer n) : n ≤ r.remaining := by
  cases h with
  | short | noLine | noText => exact Nat.zero_le _
  | fixed width enough => exact enough
  | skipped count => exact Nat.min_le_right _ _
  | line left some_bytes enough => exact enough
  | text length enough => exact enough

/-- A read that fails passes over nothing. -/
theorem Reads.of_error {r : Reader} {request : Request} {e : ReadError} {n : Nat}
    (h : Reads r request (.error e) n) : n = 0 := by
  cases h with
  | short | noText => rfl

/-- A read of fixed width fails exactly where fewer bytes are left, and names both numbers. -/
theorem Reads.error_iff {r : Reader} {request : Request} {answer : Except ReadError Reading}
    {n width : Nat} (h : Reads r request answer n) (fixed : request.width? = some width)
    (e : ReadError) :
    answer = .error e ↔ r.remaining < width ∧ e = .unexpectedEnd width r.remaining := by
  cases h with
  | @short _ w hw short =>
    rw [fixed, Option.some.injEq] at hw
    subst hw
    rw [Except.error.injEq]
    constructor
    · intro he
      exact ⟨short, he.symm⟩
    · intro he
      exact he.2.symm
  | @fixed _ w _ hw enough =>
    rw [fixed, Option.some.injEq] at hw
    subst hw
    constructor
    · intro he
      cases he
    · intro he
      omega
  | skipped | noLine | line | noText | text => cases fixed

/-- A read of fixed width that succeeds passes over its width. -/
theorem Reads.eq_width {r : Reader} {request : Request} {reading : Reading} {n width : Nat}
    (h : Reads r request (.ok reading) n) (fixed : request.width? = some width) : n = width := by
  cases h with
  | fixed hw enough =>
    rw [fixed, Option.some.injEq] at hw
    exact hw.symm
  | skipped | noLine | line | text => cases fixed

theorem Reads.of_skip {r : Reader} {count n : Nat} {answer : Except ReadError Reading}
    (h : Reads r (.skip count) answer n) :
    answer = .ok (.skipped n) ∧ n = min count r.remaining := by
  cases h with
  | short width => cases width
  | fixed width => cases width
  | skipped => exact ⟨rfl, rfl⟩

/-- There is a line, of one byte or more, unless nothing is left. -/
theorem Reads.of_line {r : Reader} {n : Nat} {answer : Except ReadError Reading}
    (h : Reads r .line answer n) : ∃ content, answer = .ok (.line content) ∧
      (content = none ↔ r.remaining = 0) ∧ (content ≠ none → 1 ≤ n) := by
  cases h with
  | short width => cases width
  | fixed width => cases width
  | noLine empty => exact ⟨none, rfl, iff_of_true rfl empty, fun h => absurd rfl h⟩
  | @line content _ left some_bytes enough =>
    exact ⟨some content, rfl, iff_of_false (Option.some_ne_none content) left, fun _ => some_bytes⟩

theorem Reads.of_text {r : Reader} {n : Nat} {reading : Reading}
    (h : Reads r .text (.ok reading) n) : n = 2 + bigEndianValue (r.rest.take 2) := by
  cases h with
  | fixed width => cases width
  | text length enough => exact length

theorem advance_zero (r : Reader) : r.advance 0 = r := by
  rw [advance, Nat.add_zero, List.drop_zero]

theorem advance_advance (r : Reader) (m n : Nat) : (r.advance m).advance n = r.advance (m + n) := by
  simp only [advance, List.drop_drop, Nat.add_assoc]

theorem take_eq_error {r : Reader} {n : Nat} (short : r.remaining < n) :
    r.take n = .error (.unexpectedEnd n r.remaining) := by
  rw [Reader.take, if_pos short]

theorem remaining_eq_zero_iff {r : Reader} : r.remaining = 0 ↔ r.rest = [] :=
  List.length_eq_zero_iff

/-- A text that is read has its length in front of it, and as many bytes behind. -/
theorem text_cases (r : Reader) : (∃ e, r.text = .error e) ∨
    ∃ s, r.text = .ok (s, r.advance (2 + bigEndianValue (r.rest.take 2))) ∧
      2 + bigEndianValue (r.rest.take 2) ≤ r.remaining := by
  -- too few bytes for the length, for the text, or enough for both
  by_cases short : r.remaining < 2
  · left
    exact ⟨_, by rw [Reader.text, take_eq_error short]⟩
  · by_cases enough : 2 + bigEndianValue (r.rest.take 2) ≤ r.remaining
    · rw [text_eq rfl enough]
      cases decoded : ModifiedUtf8.decode
          ((r.rest.drop 2).take (bigEndianValue (r.rest.take 2))) with
      | ok s => exact .inr ⟨_, rfl, enough⟩
      | error offset => exact .inl ⟨_, rfl⟩
    · left
      have body : (r.advance 2).remaining < bigEndianValue (r.rest.take 2) := by
        simp only [advance, remaining, List.length_drop] at enough short ⊢
        omega
      refine ⟨.unexpectedEnd (bigEndianValue (r.rest.take 2)) (r.advance 2).remaining, ?_⟩
      rw [Reader.text, take_eq_ok (by omega)]
      dsimp only
      rw [take_eq_error body]

/-- A read that takes a block, and makes any reading of it, has the block's width. -/
theorem exists_reads_of_take {r : Reader} {request : Request} {n : Nat}
    (width : request.width? = some n) (reading : List UInt8 → Reading) :
    ∃ k, Reads r request (r.settled reading (r.take n)).1 k ∧
      (r.settled reading (r.take n)).2 = r.advance k := by
  by_cases short : r.remaining < n
  · refine ⟨0, ?_, ?_⟩
    · rw [take_eq_error short]
      exact .short width short
    · rw [take_eq_error short, advance_zero]
      rfl
  · have enough : n ≤ r.remaining := by omega
    refine ⟨n, ?_, ?_⟩
    · rw [take_eq_ok enough]
      exact .fixed width enough
    · rw [take_eq_ok enough]
      rfl

theorem perform_scalar (r : Reader) (kind : ScalarKind) :
    r.perform (.scalar kind) =
      r.settled (fun bytes => .scalar (kind.decode bytes)) (r.take (kind.bits / 8)) := by
  rw [perform, scalar, kind.width_eq]
  cases r.take (kind.bits / 8) with
  | error e => rfl
  | ok got => rfl

/-- Every read answers in one of these ways, and the reader goes on behind the bytes it passed. -/
theorem exists_reads (r : Reader) (request : Request) :
    ∃ n, Reads r request (r.perform request).1 n ∧ (r.perform request).2 = r.advance n := by
  cases request with
  | scalar kind =>
    rw [perform_scalar]
    exact exists_reads_of_take rfl _
  | block length => exact exists_reads_of_take rfl .block
  | skip count => exact ⟨min count r.remaining, .skipped count, rfl⟩
  | line =>
    by_cases empty : r.rest = []
    · refine ⟨0, ?_, ?_⟩
      · rw [perform, Reader.line, if_pos empty]
        exact .noLine (remaining_eq_zero_iff.mpr empty)
      · rw [perform, Reader.line, if_pos empty, advance_zero]
    · have bounds := lineLength_bounds r.rest
      have left : r.remaining ≠ 0 := by rwa [Ne, remaining_eq_zero_iff]
      refine ⟨lineLength r.rest, ?_, ?_⟩
      · rw [perform, line_eq_some empty]
        exact .line left (bounds.2 empty) bounds.1
      · rw [perform, line_eq_some empty]
  | text =>
    rcases text_cases r with ⟨e, failed⟩ | ⟨s, read, enough⟩
    · refine ⟨0, ?_, ?_⟩
      · rw [perform, failed]
        exact .noText e
      · rw [perform, failed, advance_zero]
        rfl
    · refine ⟨2 + bigEndianValue (r.rest.take 2), ?_, ?_⟩
      · rw [perform, read]
        exact .text rfl enough
      · rw [perform, read]
        rfl

end Reader

end Groundwork.Bytes
