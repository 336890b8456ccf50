import Groundwork.Proofs.Text.Cutting
import Groundwork.Proofs.Text.Numeral
import Groundwork.Threads.Factory

/-!
# The names of threads

A format is read twice, once when it is set and once for each name. The test looks at the characters
one by one and at a brace together with the character behind it; the name comes from replacing the
placeholders from the left. Both find the same parts.

* `Part`: a part of a format, `Part.text` as it is written and `Part.shown` as it is in a name.
* `isFormat_iff`: the formats are the texts that are put together from parts.
* `fill_parts`: a name is put together from the same parts.
* `eq_of_shown_eq`: two names from the same parts with a placeholder among them show the same
  number.
* `FormatsAgree` and `formatsAgree`: every text that is offered as a format.
-/

namespace Groundwork.Threads

open Groundwork.Text

/-! ## Parts -/

/-- A character that stands for itself in a format. -/
structure Plain (c : Char) : Prop where
  not_opening : c ≠ '{'
  not_closing : c ≠ '}'
  not_nul : c ≠ '\x00'

/-- A part of a format. -/
inductive Part where
  | literal (c : Char) (plain : Plain c)
  | number

namespace Part

/-- A part as it is written in a format. -/
def text : Part → List Char
  | literal c _ => [c]
  | number => placeholder

/-- A part as it is in the name that shows `digits`. -/
def shown (digits : List Char) : Part → List Char
  | literal c _ => [c]
  | number => digits

end Part

/-- The text that is put together from parts. -/
def written (parts : List Part) : List Char :=
  parts.flatMap Part.text

/-- The name that is put together from parts and shows `digits`. -/
def named (digits : List Char) (parts : List Part) : List Char :=
  parts.flatMap (Part.shown digits)

/-! ## The test -/

theorem isFormat_placeholder (rest : List Char) :
    isFormat (placeholder ++ rest) = isFormat rest :=
  rfl

theorem isFormat_cons_of_plain {c : Char} (plain : Plain c) (rest : List Char) :
    isFormat (c :: rest) = isFormat rest := by
  rw [isFormat]
  · simp [plain.not_closing, plain.not_nul]
  · exact plain.not_opening

/-- Whatever is put together from parts passes the test. -/
theorem isFormat_written (parts : List Part) : isFormat (written parts) = true := by
  induction parts with
  | nil => rfl
  | cons part parts ih =>
    cases part with
    | literal c plain => exact (isFormat_cons_of_plain plain _).trans ih
    | number => exact (isFormat_placeholder _).trans ih

/-- Whatever passes the test is put together from parts. -/
theorem exists_parts_of_isFormat {s : List Char} (h : isFormat s = true) :
    ∃ parts, s = written parts := by
  fun_induction isFormat s with
  | case1 => exact ⟨[], rfl⟩
  | case2 rest ih =>
    rcases ih h with ⟨parts, rfl⟩
    exact ⟨.number :: parts, rfl⟩
  | case3 =>
    -- an opening brace with another character behind it, or with none
    cases h
  | case4 c rest no_brace ih =>
    simp only [Bool.and_eq_true, bne_iff_ne] at h
    rcases h with ⟨⟨not_closing, not_nul⟩, passes⟩
    rcases ih passes with ⟨parts, rfl⟩
    exact ⟨.literal c ⟨no_brace, not_closing, not_nul⟩ :: parts, rfl⟩

/-- The formats are the texts that are put together from parts. -/
theorem isFormat_iff {s : List Char} : isFormat s = true ↔ ∃ parts, s = written parts := by
  constructor
  · exact exists_parts_of_isFormat
  · rintro ⟨parts, rfl⟩
    exact isFormat_written parts

/-! ## Names -/

/-- Replacing the placeholders from the left replaces those that the format was put together from.
-/
theorem fill_written (digits : List Char) (parts : List Part) :
    fill digits (written parts) = named digits parts := by
  induction parts with
  | nil => rfl
  | cons part parts ih =>
    cases part with
    | literal c plain =>
      -- no placeholder begins at a character that is no opening brace
      have stays : fill digits (c :: written parts) = c :: fill digits (written parts) :=
        replaced_cons_of_ne plain.not_opening.symm _ digits _
      exact stays.trans (congrArg (c :: ·) ih)
    | number =>
      have replaced : fill digits (placeholder ++ written parts) =
          digits ++ fill digits (written parts) :=
        replaced_append_self (by decide) digits _
      exact replaced.trans (congrArg (digits ++ ·) ih)

/-- A decimal digit stands for itself. -/
theorem plain_of_decimalDigit {c : Char} {d : Nat} (h : DecimalDigit c d) : Plain c := by
  rcases h with ⟨lt, rfl⟩
  have table : ∀ e < 10, Nat.digitChar e ≠ '{' ∧ Nat.digitChar e ≠ '}' ∧
      Nat.digitChar e ≠ '\x00' := by decide
  rcases table d lt with ⟨not_opening, not_closing, not_nul⟩
  exact ⟨not_opening, not_closing, not_nul⟩

theorem plain_of_mem_decimal {n : Nat} {c : Char} (h : c ∈ decimal n) : Plain c := by
  rcases (spells_decimal n).digit_of_mem h with ⟨d, digit⟩
  exact plain_of_decimalDigit digit

/-- A name has plain characters only. -/
theorem plain_of_mem_named {n : Nat} {parts : List Part} {c : Char}
    (h : c ∈ named (decimal n) parts) : Plain c := by
  rcases List.mem_flatMap.mp h with ⟨part, -, here⟩
  cases part with
  | literal d plain =>
    rw [List.mem_singleton.mp here]
    exact plain
  | number => exact plain_of_mem_decimal here

/-! ## Different numbers -/

/-- How many placeholders there are among the parts. -/
def numbers : List Part → Nat
  | [] => 0
  | .literal _ _ :: more => numbers more
  | .number :: more => numbers more + 1

theorem numbers_pos {parts : List Part} (h : .number ∈ parts) : 0 < numbers parts := by
  induction parts with
  | nil => cases h
  | cons part parts ih =>
    cases part with
    | literal c plain =>
      rcases List.mem_cons.mp h with impossible | later
      · cases impossible
      · exact ih later
    | number => exact Nat.succ_pos _

/-- Two names from the same parts differ in length by what their digits do, once for each
placeholder. -/
theorem length_named_add (a b : List Char) (parts : List Part) :
    (named a parts).length + numbers parts * b.length =
      (named b parts).length + numbers parts * a.length := by
  induction parts with
  | nil =>
    show 0 + 0 * b.length = 0 + 0 * a.length
    rw [Nat.zero_mul, Nat.zero_mul]
  | cons part parts ih =>
    cases part with
    | literal c plain =>
      show (named a parts).length + 1 + numbers parts * b.length =
        (named b parts).length + 1 + numbers parts * a.length
      omega
    | number =>
      show (a ++ named a parts).length + (numbers parts + 1) * b.length =
        (b ++ named b parts).length + (numbers parts + 1) * a.length
      rw [List.length_append, List.length_append, Nat.succ_mul, Nat.succ_mul]
      omega

/-- Digits of the same length in the same name are the same. -/
theorem eq_of_named_eq_of_length_eq {a b : List Char} (length : a.length = b.length)
    {parts : List Part} (h : .number ∈ parts) (same : named a parts = named b parts) : a = b := by
  induction parts with
  | nil => cases h
  | cons part parts ih =>
    cases part with
    | literal c plain =>
      rcases List.mem_cons.mp h with impossible | later
      · cases impossible
      · exact ih later (List.cons.inj same).2
    | number => exact List.append_inj_left same length

/-- The same name from the same parts shows the same digits, wherever these stand and whatever
digits there are around them. -/
theorem eq_of_named_eq {a b : List Char} {parts : List Part} (h : .number ∈ parts)
    (same : named a parts = named b parts) : a = b := by
  have lengths := length_named_add a b parts
  rw [same] at lengths
  have length : b.length = a.length :=
    Nat.eq_of_mul_eq_mul_left (numbers_pos h) (Nat.add_left_cancel lengths)
  exact eq_of_named_eq_of_length_eq length.symm h same

/-! ## The formats -/

theorem ofString_eq_ok_iff {s : String} {f : NameFormat} :
    NameFormat.ofString s = .ok f ↔ f.chars = s.toList := by
  rw [NameFormat.ofString]
  constructor
  · intro h
    split at h
    · rw [← Except.ok.inj h]
    · cases h
  · rintro chars
    have passes : isFormat s.toList = true := by
      rw [← chars]
      exact f.isFormat_chars
    rw [dif_pos passes]
    rcases f with ⟨_, _⟩
    cases chars
    rfl

theorem ofString_eq_error_iff {s : String} {e : SetupError} :
    NameFormat.ofString s = .error e ↔ isFormat s.toList = false ∧ e = .invalidNameFormat s := by
  rw [NameFormat.ofString]
  by_cases passes : isFormat s.toList = true
  · rw [dif_pos passes, passes]
    exact ⟨nofun, nofun⟩
  · rw [dif_neg passes, Bool.eq_false_iff.mpr passes]
    constructor
    · intro h
      exact ⟨rfl, (Except.error.inj h).symm⟩
    · rintro ⟨-, rfl⟩
      rfl

/-- A name is put together from the parts of the format. -/
theorem toList_name {f : NameFormat} {parts : List Part} (h : f.chars = written parts) (n : Nat) :
    (f.name n).toList = named (decimal n) parts := by
  rw [NameFormat.name, String.toList_ofList, h, fill_written]

/-- That the test and the names agree on what a text is made of which is offered as a format. -/
structure FormatsAgree (s : String) : Prop where
  /-- A text is set as the format exactly if it is put together from parts, and otherwise handed
  back. -/
  accepted_iff : ∀ settings : Settings, (∃ f, NameFormat.ofString s = .ok f ∧
    settings.withNameFormat s = .ok { settings with nameFormat := some f }) ↔
      ∃ parts, s.toList = written parts
  refused_iff : ∀ settings : Settings,
    settings.withNameFormat s = .error (.invalidNameFormat s) ↔ ¬ ∃ parts, s.toList = written parts
  /-- Each name has the decimal digits of its number in place of every placeholder. -/
  name_eq : ∀ f parts, NameFormat.ofString s = .ok f → s.toList = written parts →
    ∀ n, (f.name n).toList = named (decimal n) parts
  name_plain : ∀ f, NameFormat.ofString s = .ok f → ∀ n, ∀ c ∈ (f.name n).toList, Plain c
  /-- If there is a placeholder, different numbers give different names. -/
  name_injective : ∀ f parts, NameFormat.ofString s = .ok f → s.toList = written parts →
    .number ∈ parts → ∀ n m, f.name n = f.name m → n = m

/-- The test of a format and the names agree, whatever text is offered as a format. -/
theorem formatsAgree (s : String) : FormatsAgree s := by
  constructor
  case accepted_iff =>
    intro settings
    rw [← isFormat_iff]
    constructor
    · rintro ⟨f, ok, -⟩
      rw [← ofString_eq_ok_iff.mp ok]
      exact f.isFormat_chars
    · intro passes
      have ok : NameFormat.ofString s = .ok ⟨s.toList, passes⟩ := ofString_eq_ok_iff.mpr rfl
      refine ⟨_, ok, ?_⟩
      rw [Settings.withNameFormat, ok]
      rfl
  case refused_iff =>
    intro settings
    rw [← isFormat_iff, Bool.not_eq_true, Settings.withNameFormat]
    constructor
    · intro refused
      cases read : NameFormat.ofString s with
      | ok f =>
        rw [read] at refused
        cases refused
      | error e => exact (ofString_eq_error_iff.mp read).1
    · intro fails
      rw [ofString_eq_error_iff.mpr ⟨fails, rfl⟩]
      rfl
  case name_eq =>
    intro f parts ok whole n
    exact toList_name ((ofString_eq_ok_iff.mp ok).trans whole) n
  case name_plain =>
    intro f ok n c here
    rcases exists_parts_of_isFormat f.isFormat_chars with ⟨parts, whole⟩
    rw [toList_name whole] at here
    exact plain_of_mem_named here
  case name_injective =>
    intro f parts ok whole some n m same
    have chars := (ofString_eq_ok_iff.mp ok).trans whole
    have names := congrArg String.toList same
    rw [toList_name chars, toList_name chars] at names
    exact decimal_injective (eq_of_named_eq some names)

end Groundwork.Threads
