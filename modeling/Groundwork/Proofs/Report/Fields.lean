import Groundwork.Proofs.Address.NormalForm
import Groundwork.Proofs.Text.Cutting
import Groundwork.CommandLine

/-!
# Reading reports

A report is read line by line: a field is what stands on a line after its label. Labels differ from
each other before either of them ends, so that no line has two of them, and the text of an address
begins with none.

* `linesOf` cuts an output into lines, and `linesOf_ofLines` gives back the lines that were printed.
* `field` is what a report says after a label, with `field_label` and `field_apart` for one line.
* `spelledBytes?` reads the bytes that a field spells, `spelledBytes?_spacedBytes` those that were
  printed.
-/

namespace Groundwork.Report

open Groundwork.Text Groundwork.Address Groundwork.CommandLine

/-! ## Lines -/

/-- The lines of an output. Each ends with a line feed. -/
def linesOf (output : String) : List String :=
  (pieces '\n' output.toList).dropLast.map String.ofList

theorem pieces_ofLines {lines : List String} (h : ∀ line ∈ lines, '\n' ∉ line.toList) :
    pieces '\n' (ofLines lines).toList = lines.map String.toList ++ [[]] := by
  induction lines with
  | nil => rfl
  | cons line more ih =>
    have here : (ofLines (line :: more)).toList = line.toList ++ '\n' :: (ofLines more).toList := by
      simp [ofLines, String.join_cons]
    rw [here, pieces_append (h line List.mem_cons_self),
      ih fun other inside => h other (List.mem_cons_of_mem _ inside)]
    rfl

/-- Lines that were printed can be told from the output. -/
theorem linesOf_ofLines {lines : List String} (h : ∀ line ∈ lines, '\n' ∉ line.toList) :
    linesOf (ofLines lines) = lines := by
  rw [linesOf, pieces_ofLines h, List.dropLast_concat, List.map_map]
  simp [Function.comp_def]

/-- A line is in one piece if its label is and what it says. -/
theorem line_feed_not_mem_append {label said : String} (h : '\n' ∉ label.toList)
    (h' : '\n' ∉ said.toList) : '\n' ∉ (label ++ said).toList := by
  rw [String.toList_append, List.mem_append]
  exact not_or_intro h h'

/-! ## Fields -/

/-- What a report says after a label, on as many lines as begin with it. -/
def field (label : String) (lines : List String) : List String :=
  lines.filterMap fun line =>
    if label.toList.isPrefixOf line.toList then
      some (String.ofList (line.toList.drop label.toList.length))
    else none

/-- Neither label is the beginning of the other. -/
def Apart (label other : String) : Prop :=
  ¬label.toList <+: other.toList ∧ ¬other.toList <+: label.toList

instance (label other : String) : Decidable (Apart label other) :=
  inferInstanceAs (Decidable (_ ∧ _))

variable {label other : String}

theorem field_label (said : String) (more : List String) :
    field label ((label ++ said) :: more) = said :: field label more := by
  have begins : label.toList.isPrefixOf (label ++ said).toList = true := by
    rw [List.isPrefixOf_iff_prefix, String.toList_append]
    exact List.prefix_append _ _
  have rest : (label ++ said).toList.drop label.toList.length = said.toList := by
    rw [String.toList_append, List.drop_left]
  rw [field, List.filterMap_cons, if_pos begins, rest, String.ofList_toList]
  rfl

theorem field_of_not_prefix {line : String} (h : ¬label.toList <+: line.toList)
    (more : List String) : field label (line :: more) = field label more := by
  rw [field, List.filterMap_cons, if_neg (mt List.isPrefixOf_iff_prefix.mp h)]
  rfl

/-- A line with another label says nothing. -/
theorem field_apart (h : Apart label other) (said : String) (more : List String) :
    field label ((other ++ said) :: more) = field label more := by
  apply field_of_not_prefix
  intro begins
  rw [String.toList_append] at begins
  rcases List.prefix_or_prefix_of_prefix begins (List.prefix_append _ _) with first | second
  · exact h.1 first
  · exact h.2 second

/-- A line with no space on it says nothing after a label that begins with one. -/
theorem field_of_not_mem {line : String} (h : ' ' ∉ line.toList) (begins : ' ' ∈ label.toList)
    (more : List String) : field label (line :: more) = field label more :=
  field_of_not_prefix (fun h' => h (h'.subset begins)) more

/-! ## Texts of addresses -/

theorem not_mem_v4 {c : Char} (v : IPv4) (digit : hexDigit? c = none) (dot : c ≠ '.')
    (colon : c ≠ ':') : c ∉ v.text.toList := by
  rw [IPv4.text, String.toList_ofList]
  exact (literal_chars_v4 v).not_mem digit dot colon

theorem not_mem_v6 {c : Char} (v : IPv6) (digit : hexDigit? c = none) (dot : c ≠ '.')
    (colon : c ≠ ':') : c ∉ v.text.toList := by
  rw [IPv6.text, String.toList_ofList]
  exact (literal_chars_v6 v).not_mem digit dot colon

/-! ## Bytes -/

/-- The bytes that a text spells, as pairs of digits between spaces. -/
def spelledBytes? (s : String) : Option (List UInt8) :=
  ((pieces ' ' s.toList).mapM hexBytes?).map List.flatten

theorem not_mem_hexByte {c : Char} (digit : hexDigit? c = none) (b : UInt8) : c ∉ hexByte b := by
  have small := b.toNat_lt
  intro inside
  have known : ∃ d < 16, c = Nat.digitChar d := by
    rcases List.mem_cons.mp inside with high | low
    · exact ⟨b.toNat / 16, by omega, high⟩
    · exact ⟨b.toNat % 16, by omega, List.mem_singleton.mp low⟩
  obtain ⟨d, fits, rfl⟩ := known
  rw [hexDigit?_digitChar fits] at digit
  cases digit

theorem toList_spacedBytes (bytes : List UInt8) :
    (spacedBytes bytes).toList = [' '].intercalate (bytes.map hexByte) := by
  rw [spacedBytes, String.toList_intercalate, List.map_map]
  simp [Function.comp_def]

theorem spacedBytes_cons_cons (b next : UInt8) (more : List UInt8) :
    (spacedBytes (b :: next :: more)).toList =
      hexByte b ++ ' ' :: (spacedBytes (next :: more)).toList := by
  rw [toList_spacedBytes, toList_spacedBytes]
  simp [List.intercalate]

theorem not_mem_spacedBytes {c : Char} (digit : hexDigit? c = none) (space : c ≠ ' ')
    (bytes : List UInt8) : c ∉ (spacedBytes bytes).toList := by
  induction bytes with
  | nil => simp [toList_spacedBytes]
  | cons b more ih =>
    cases more with
    | nil => simpa [toList_spacedBytes] using not_mem_hexByte digit b
    | cons next more =>
      rw [spacedBytes_cons_cons, List.mem_append, List.mem_cons]
      rintro (here | separator | later)
      · exact not_mem_hexByte digit b here
      · exact space separator
      · exact ih later

theorem pieces_spacedBytes {bytes : List UInt8} (h : bytes ≠ []) :
    pieces ' ' (spacedBytes bytes).toList = bytes.map hexByte := by
  induction bytes with
  | nil => exact absurd rfl h
  | cons b more ih =>
    have noSpace : ' ' ∉ hexByte b := not_mem_hexByte (by decide) b
    cases more with
    | nil =>
      rw [toList_spacedBytes]
      simpa using pieces_of_not_mem noSpace
    | cons next more =>
      rw [spacedBytes_cons_cons, pieces_append noSpace, ih (by simp)]
      rfl

theorem mapM_hexBytes? (bytes : List UInt8) :
    (bytes.map hexByte).mapM hexBytes? = some (bytes.map fun b => [b]) := by
  induction bytes with
  | nil => rfl
  | cons b more ih =>
    have one : hexBytes? (hexByte b) = some [b] := hexBytes?_hexBytes [b]
    rw [List.map_cons, List.mapM_cons, one, ih]
    rfl

/-- Reading what was printed gives the bytes back. -/
theorem spelledBytes?_spacedBytes {bytes : List UInt8} (h : bytes ≠ []) :
    spelledBytes? (spacedBytes bytes) = some bytes := by
  rw [spelledBytes?, pieces_spacedBytes h, mapM_hexBytes?, Option.map_some, ← List.flatMap_def,
    List.flatMap_singleton']

end Groundwork.Report
