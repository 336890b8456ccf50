import Groundwork.Proofs.Bytes.Cursor

/-!
# Reading line after line

Bytes are cut into lines at their terminators, and reading them line after line gives these lines
and loses nothing.

* `Lines` says how bytes are cut, without regard to the reader. There is one way to cut them
  (`exists_lines`, `Lines.unique`).
* `perform_line` is one read, `run_line` any number of them.
* `Cursor.exists_readsLines`: from every position the reads give the lines in turn and then none,
  and each stops behind the terminator of its line.
-/

namespace Groundwork.Bytes

/-! ## Lines -/

/-- The bytes before a line terminator, and the terminator, which is missing behind the last bytes
if they have none. -/
structure Line where
  content : List UInt8
  ending : List UInt8
deriving DecidableEq, Repr

namespace Line

/-- All the bytes of a line. -/
def bytes (l : Line) : List UInt8 := l.content ++ l.ending

/-- The text of a line, which has the character of the same number for every byte. -/
def text (l : Line) : String := String.ofList (l.content.map Char.ofUInt8)

end Line

/-- There is no line feed and no carriage return among the bytes. -/
def Unbroken (content : List UInt8) : Prop :=
  ∀ b ∈ content, b ≠ 10 ∧ b ≠ 13

/-- A terminator in front of other bytes: a line feed, a carriage return and a line feed, or a
carriage return without one. -/
inductive Ending (rest : List UInt8) : List UInt8 → Prop
  | feed : Ending rest [10]
  | both : Ending rest [13, 10]
  | alone (no_feed : rest.head? ≠ some 10) : Ending rest [13]

/-- Bytes and the lines that they are cut into, from left to right. The last line may have no
terminator, but then it has content. -/
inductive Lines : List UInt8 → List Line → Prop
  | nil : Lines [] []
  | last {content : List UInt8} (unbroken : Unbroken content) (some_bytes : content ≠ []) :
      Lines content [⟨content, []⟩]
  | cons {content ending rest : List UInt8} {lines : List Line} (unbroken : Unbroken content)
      (ends : Ending rest ending) (more : Lines rest lines) :
      Lines (content ++ (ending ++ rest)) (⟨content, ending⟩ :: lines)

namespace Lines

variable {bytes : List UInt8} {lines : List Line}

/-- Lines have all the bytes, in their order. -/
theorem flatMap_bytes (h : Lines bytes lines) : lines.flatMap Line.bytes = bytes := by
  induction h with
  | nil => rfl
  | last => simp [Line.bytes]
  | cons unbroken ends more ih => rw [List.flatMap_cons, ih, Line.bytes, List.append_assoc]

theorem unbroken_of_mem (h : Lines bytes lines) : ∀ l ∈ lines, Unbroken l.content := by
  induction h with
  | nil =>
    intro l hl
    cases hl
  | last unbroken => exact List.forall_mem_singleton.mpr unbroken
  | cons unbroken ends more ih => exact List.forall_mem_cons.mpr ⟨unbroken, ih⟩

theorem nil_iff (h : Lines bytes lines) : bytes = [] ↔ lines = [] := by
  cases h with
  | nil => exact iff_of_true rfl rfl
  | last unbroken some_bytes => exact iff_of_false some_bytes (List.cons_ne_nil _ _)
  | cons unbroken ends more => cases ends <;> simp

/-- Another byte in front that ends no line belongs to the first line. -/
theorem exists_push (h : Lines bytes lines) {b : UInt8} (inside : b ≠ 10 ∧ b ≠ 13) :
    ∃ others, Lines (b :: bytes) others := by
  cases h with
  | nil => exact ⟨_, .last (List.forall_mem_singleton.mpr inside) (List.cons_ne_nil b [])⟩
  | last unbroken some_bytes =>
    exact ⟨_, .last (List.forall_mem_cons.mpr ⟨inside, unbroken⟩) (List.cons_ne_nil b _)⟩
  | @cons content ending rest lines unbroken ends more =>
    have unbroken' : Unbroken (b :: content) := List.forall_mem_cons.mpr ⟨inside, unbroken⟩
    exact ⟨_, .cons unbroken' ends more⟩

end Lines

/-! ## The first line -/

namespace Reader

/-- The content of a line is what stands before the first terminator. -/
theorem lineBytes_append {content : List UInt8} (unbroken : Unbroken content) {tail : List UInt8}
    (ends : lineBytes tail = []) : lineBytes (content ++ tail) = content := by
  induction content with
  | nil => exact ends
  | cons b content ih =>
    rcases List.forall_mem_cons.mp unbroken with ⟨inside, unbroken'⟩
    rw [List.cons_append, lineBytes_cons (not_or.mpr inside), ih unbroken']

theorem lineBytes_ending {ending rest : List UInt8} (ends : Ending rest ending) :
    lineBytes (ending ++ rest) = [] := by
  cases ends with
  | feed => exact lineBytes_end (.inl rfl) _
  | both | alone => exact lineBytes_end (.inr rfl) _

/-- A terminator is told by what comes after it. -/
theorem terminator_ending {ending rest : List UInt8} (ends : Ending rest ending) :
    terminator (ending ++ rest) = ending := by
  cases ends with
  | feed | both => rfl
  | alone no_feed =>
    show terminator (13 :: rest) = [13]
    rw [terminator]
    intro others h
    rw [h] at no_feed
    exact no_feed rfl

end Reader

/-- The first line is the one that the reader finds, and the other lines are those of the bytes
behind it. -/
theorem Lines.first {bytes : List UInt8} {l : Line} {more : List Line}
    (h : Lines bytes (l :: more)) :
    Reader.lineBytes bytes = l.content ∧
      Reader.terminator (bytes.drop l.content.length) = l.ending ∧
      Lines (bytes.drop l.bytes.length) more := by
  cases h with
  | last unbroken some_bytes =>
    have found : Reader.lineBytes (bytes ++ []) = bytes := Reader.lineBytes_append unbroken rfl
    rw [List.append_nil] at found
    have behind : bytes.drop (Line.bytes ⟨bytes, []⟩).length = [] := by simp [Line.bytes]
    refine ⟨found, ?_, ?_⟩
    · rw [List.drop_length]
      rfl
    · rw [behind]
      exact .nil
  | @cons content ending rest _ unbroken ends rest_lines =>
    have behind : (content ++ (ending ++ rest)).drop (Line.bytes ⟨content, ending⟩).length =
        rest := by
      rw [← List.append_assoc]
      exact List.drop_left
    refine ⟨Reader.lineBytes_append unbroken (Reader.lineBytes_ending ends), ?_, ?_⟩
    · rw [List.drop_left]
      exact Reader.terminator_ending ends
    · rw [behind]
      exact rest_lines

/-- There is one way to cut bytes into lines. -/
theorem Lines.unique {bytes : List UInt8} {lines others : List Line} (h : Lines bytes lines)
    (h' : Lines bytes others) : others = lines := by
  induction lines generalizing bytes others with
  | nil => exact h'.nil_iff.mp (h.nil_iff.mpr rfl)
  | cons l more ih =>
    cases others with
    | nil => exact absurd (h.nil_iff.mp (h'.nil_iff.mpr rfl)) (List.cons_ne_nil l more)
    | cons l' more' =>
      rcases h.first with ⟨content, ending, rest⟩
      rcases h'.first with ⟨content', ending', rest'⟩
      have same_content : l'.content = l.content := content'.symm.trans content
      have same : l' = l := by
        rw [same_content, ending] at ending'
        cases l
        cases l'
        cases same_content
        cases ending'
        rfl
      rw [same] at rest' ⊢
      rw [ih rest rest']

/-- Behind a line feed in front the other lines begin. -/
theorem Lines.exists_behind_feed {rest : List UInt8} {lines : List Line}
    (h : Lines (10 :: rest) lines) : ∃ more, Lines rest more := by
  cases lines with
  | nil => exact absurd (h.nil_iff.mpr rfl) (List.cons_ne_nil _ _)
  | cons l more =>
    rcases h.first with ⟨content, ending, behind⟩
    rw [Reader.lineBytes_end (.inl rfl)] at content
    rw [← content] at ending
    have length : l.bytes.length = 1 := by
      rw [Line.bytes, ← content, ← ending]
      rfl
    rw [length] at behind
    exact ⟨more, behind⟩

/-- All bytes can be cut into lines. -/
theorem exists_lines (bytes : List UInt8) : ∃ lines, Lines bytes lines := by
  have empty : Unbroken [] := List.forall_mem_nil _
  induction bytes with
  | nil => exact ⟨[], .nil⟩
  | cons b rest ih =>
    rcases ih with ⟨lines, h⟩
    by_cases feed : b = 10
    · rw [feed]
      exact ⟨_, .cons empty .feed h⟩
    by_cases ret : b = 13
    · rw [ret]
      by_cases second : rest.head? = some 10
      · -- the first of the lines behind is the line feed alone, which goes with this byte
        rcases List.head?_eq_some_iff.mp second with ⟨behind, rfl⟩
        rcases h.exists_behind_feed with ⟨more, h'⟩
        exact ⟨_, .cons empty .both h'⟩
      · exact ⟨_, .cons empty (.alone second) h⟩
    · exact h.exists_push ⟨feed, ret⟩

/-! ## Reading -/

namespace Reader

variable {r : Reader} {lines : List Line}

/-- A read gives the first line and goes on with the others. -/
theorem perform_line {l : Line} {more : List Line} (h : Lines r.rest (l :: more)) :
    r.perform .line = (.ok (.line (some l.text)), r.advance l.bytes.length) ∧
      Lines (r.advance l.bytes.length).rest more := by
  rcases h.first with ⟨content, ending, rest⟩
  have left : r.rest ≠ [] := fun empty => List.cons_ne_nil l more (h.nil_iff.mp empty)
  have length : lineLength r.rest = l.bytes.length := by
    rw [lineLength, content, ending, Line.bytes, List.length_append]
  refine ⟨?_, rest⟩
  rw [perform, line_eq_some left, content, length]
  rfl

/-- Without any byte left there is no line. -/
theorem perform_no_line (h : r.rest = []) : r.perform .line = (.ok (.line none), r) := by
  rw [perform, Reader.line, if_pos h]

/-- However many lines are asked for, they come in turn and then none comes, and each read goes on
behind the lines so far. -/
theorem run_line (h : Lines r.rest lines) (count : Nat) :
    r.run (List.replicate count .line) = (List.range count).map fun k =>
      (.ok (.line (lines[k]?.map Line.text)),
        r.advance ((lines.take (k + 1)).flatMap Line.bytes).length) := by
  induction count generalizing r lines with
  | zero => rfl
  | succ count ih =>
    rw [List.replicate_succ, run, List.range_succ_eq_map, List.map_cons, List.map_map]
    cases lines with
    | nil =>
      rw [perform_no_line (h.nil_iff.mpr rfl), ih h]
      simp only [List.getElem?_nil, Option.map_none, List.take_nil, List.flatMap_nil,
        List.length_nil, advance_zero, Function.comp_def]
    | cons l more =>
      rcases perform_line h with ⟨performed, h'⟩
      rw [performed, ih h']
      simp only [List.getElem?_cons_zero, List.getElem?_cons_succ, Option.map_some,
        List.take_succ_cons, List.take_zero, List.flatMap_cons, List.flatMap_nil, List.append_nil,
        List.length_append, advance_advance, Function.comp_def]

end Reader

/-! ## Lines of a cursor -/

/-- A line reads as its content, byte by byte. -/
theorem numbers_text (l : Line) : l.text.toList.map Char.toNat = l.content.map UInt8.toNat := by
  rw [Line.text, String.toList_ofList, List.map_map]
  rfl

theorem length_text (l : Line) : l.text.toList.length = l.content.length := by
  rw [Line.text, String.toList_ofList, List.length_map]

/-- A character whose byte is not among the content is not in the text. -/
theorem not_mem_text {l : Line} {b : UInt8} (absent : b ∉ l.content) {c : Char}
    (number : c.toNat = b.toNat) : c ∉ l.text.toList := by
  intro h
  have here : b.toNat ∈ l.content.map UInt8.toNat := by
    rw [← numbers_text, ← number]
    exact List.mem_map_of_mem h
  rcases List.mem_map.mp here with ⟨b', hb', same⟩
  rw [UInt8.toNat_inj.mp same] at hb'
  exact absent hb'

/-- The characters of lines and the bytes of their terminators are as many as their bytes. -/
theorem length_texts_add (lines : List Line) :
    (lines.flatMap fun l => l.text.toList).length + (lines.flatMap Line.ending).length =
      (lines.flatMap Line.bytes).length := by
  induction lines with
  | nil => rfl
  | cons l more ih =>
    simp only [List.flatMap_cons, List.length_append, Line.bytes, length_text]
    omega

namespace Cursor

/-- Read number `k` of lines, from a cursor on: the line of this number, or none behind the last
one, up to the end of its terminator. -/
def lineRead (c : Cursor) (lines : List Line) (k : Nat) : Except ReadError Reading × Cursor :=
  (.ok (.line (lines[k]?.map Line.text)),
    c.moveTo (c.position + ((lines.take (k + 1)).flatMap Line.bytes).length))

/-- What reading line after line does from a cursor on, if these are the lines. -/
structure ReadsLines (limit : Nat) (c : Cursor) (lines : List Line) : Prop where
  /-- The bytes that are left are cut into these lines, and cannot be cut otherwise. -/
  cut : ∀ others, Lines (c.bytes.drop c.position) others ↔ others = lines
  /-- Each read gives the next line, or none behind the last one, and it stops behind the terminator
  of its line, or at the end. -/
  reads : ∀ count, c.run limit (List.replicate count .line) =
    some ((List.range count).map (c.lineRead lines))
  /-- So reading until there is no line comes to an end, with these lines and all bytes read. -/
  until_none : ∃ steps, c.run limit (List.replicate (lines.length + 1) .line) = some steps ∧
    steps.map Prod.fst =
      lines.map (fun l => .ok (.line (some l.text))) ++ [.ok (.line none)] ∧
    steps.getLast?.map Prod.snd = some (c.moveTo c.bytes.length)
  /-- A line has no terminator in it, and the characters with the numbers of its bytes. -/
  texts : ∀ l ∈ lines, '\n' ∉ l.text.toList ∧ '\r' ∉ l.text.toList ∧
    l.text.toList.map Char.toNat = l.content.map UInt8.toNat
  /-- The lines with their terminators are the bytes that were left. -/
  lossless : lines.flatMap Line.bytes = c.bytes.drop c.position
  /-- The characters of the lines and the bytes of the terminators are as many as these bytes. -/
  count : (lines.flatMap fun l => l.text.toList).length + (lines.flatMap Line.ending).length =
    c.left

/-- The reads up to the last line give the lines. -/
theorem map_lineRead (c : Cursor) (lines : List Line) :
    ((List.range lines.length).map (c.lineRead lines)).map Prod.fst =
      lines.map fun l => .ok (.line (some l.text)) := by
  refine List.ext_getElem (by simp) ?_
  intro k below below'
  rw [List.length_map] at below'
  simp [lineRead, List.getElem?_eq_getElem below']

/-- Behind the last line there is no line, and the bytes are at their end. -/
theorem lineRead_length {c : Cursor} (inside : c.InRange) {lines : List Line}
    (all : (lines.flatMap Line.bytes).length = c.left) :
    c.lineRead lines lines.length = (.ok (.line none), c.moveTo c.bytes.length) := by
  have stop : c.position + c.left = c.bytes.length := Nat.add_sub_cancel' inside
  rw [lineRead, List.getElem?_eq_none (Nat.le_refl _), List.take_of_length_le (Nat.le_succ _), all,
    stop]
  rfl

/-- From every position on, reading line after line gives the lines of the bytes that are left. -/
theorem exists_readsLines {limit : Nat} {c : Cursor} (inside : c.InRange)
    (fits : c.bytes.length < limit) : ∃ lines, ReadsLines limit c lines := by
  rcases exists_lines (c.bytes.drop c.position) with ⟨lines, cut⟩
  have all := cut.flatMap_bytes
  have length : (lines.flatMap Line.bytes).length = c.left := by
    rw [all, List.length_drop, left]
  have reads : ∀ count, c.run limit (List.replicate count .line) =
      some ((List.range count).map (c.lineRead lines)) := by
    intro count
    rw [run_eq inside fits, Reader.run_line cut, List.map_map]
    rfl
  refine ⟨lines, ?_⟩
  constructor
  case cut =>
    intro others
    constructor
    · intro h
      exact cut.unique h
    · rintro rfl
      exact cut
  case reads => exact reads
  case until_none =>
    have steps := reads (lines.length + 1)
    rw [List.range_succ, List.map_append, List.map_singleton,
      lineRead_length inside length] at steps
    refine ⟨_, steps, ?_, ?_⟩
    · rw [List.map_append, map_lineRead]
      rfl
    · rw [List.getLast?_concat]
      rfl
  case texts =>
    intro l hl
    have unbroken := cut.unbroken_of_mem l hl
    have feed : 10 ∉ l.content := fun h => (unbroken _ h).1 rfl
    have ret : 13 ∉ l.content := fun h => (unbroken _ h).2 rfl
    exact ⟨not_mem_text feed rfl, not_mem_text ret rfl, numbers_text l⟩
  case lossless => exact all
  case count => rw [length_texts_add, length]

/-- Empty lines, each kind of terminator, a byte above the others and a carriage return as the last
byte, after a start inside a line. -/
theorem readsLines_of_mixed_terminators :
    (Cursor.mk [7, 0xe9, 13, 13, 10, 10, 97, 13] 1).InRange ∧
      [7, 0xe9, 13, 13, 10, 10, 97, (13 : UInt8)].length < 9 ∧
      ReadsLines 9 ⟨[7, 0xe9, 13, 13, 10, 10, 97, 13], 1⟩
        [⟨[0xe9], [13]⟩, ⟨[], [13, 10]⟩, ⟨[], [10]⟩, ⟨[97], [13]⟩] := by
  have inside : (Cursor.mk [7, 0xe9, 13, 13, 10, 10, 97, 13] 1).InRange := by
    unfold InRange
    decide
  have fits : [7, 0xe9, 13, 13, 10, 10, 97, (13 : UInt8)].length < 9 := by decide
  refine ⟨inside, fits, ?_⟩
  rcases exists_readsLines inside fits with ⟨lines, h⟩
  have cut : Lines [0xe9, 13, 13, 10, 10, 97, 13]
      [⟨[0xe9], [13]⟩, ⟨[], [13, 10]⟩, ⟨[], [10]⟩, ⟨[97], [13]⟩] := by
    refine @Lines.cons [0xe9] [13] [13, 10, 10, 97, 13] _ (by simp [Unbroken])
      (.alone (by decide)) ?_
    refine @Lines.cons [] [13, 10] [10, 97, 13] _ (by simp [Unbroken]) .both ?_
    refine @Lines.cons [] [10] [97, 13] _ (by simp [Unbroken]) .feed ?_
    exact @Lines.cons [97] [13] [] _ (by simp [Unbroken]) (.alone (by decide)) .nil
  rwa [(h.cut _).mp cut]

end Cursor

end Groundwork.Bytes
