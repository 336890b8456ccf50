import Mathlib.Data.List.TakeWhile
import Groundwork.Proofs.Address.HostText
import Groundwork.Proofs.Report.Fields
import Groundwork.Proofs.Text.Quoted

/-!
# Descriptions

What is printed about an address can be read in three ways, and each gives the address back. A list
of texts is described up to the first that is no literal.

* `ReadsBack` and `readsBack_description`: the block of lines about an address in normal form.
* `exists_describeAll`: what is printed for a list of texts, and what goes wrong.
* `Blames`: what is told of a text that is no literal, word for word.
* `Described` and `parse_described`: what the program does on a list of texts, however it reads its
  arguments.
-/

namespace Groundwork.Report

open Groundwork.Text Groundwork.Address Groundwork.CommandLine

/-! ## One address -/

/-- What reading the block of an address gives. -/
structure ReadsBack (a : Address) (block : List String) : Prop where
  /-- The first line is a literal of the address. -/
  header_eq : block.head?.map ofLiteral = some (.ok a)
  family_eq_v4 : ∀ v, a = .v4 v → field "  family: " block = ["IPv4"]
  family_eq_v6 : ∀ v, a = .v6 v → field "  family: " block = ["IPv6"]
  /-- The bytes are those of the address. -/
  bytes_eq : (field "  bytes:  " block).map (fun s => (spelledBytes? s).map ofBytes) =
    [some (.ok a)]
  uri_eq : (field "  uri:    " block).map ofHost = [.ok a]

theorem not_mem_text {c : Char} (a : Address) (digit : hexDigit? c = none) (dot : c ≠ '.')
    (colon : c ≠ ':') : c ∉ a.text.toList := by
  cases a with
  | v4 v => exact not_mem_v4 v digit dot colon
  | v6 v => exact not_mem_v6 v digit dot colon

/-- Each label of a description stands on one line. -/
theorem field_description (a : Address) :
    field "  family: " (description a) = [a.family] ∧
      field "  bytes:  " (description a) = [spacedBytes a.bytes] ∧
      field "  uri:    " (description a) = [a.uriText] := by
  have noSpace : ' ' ∉ a.text.toList := not_mem_text a (by decide) (by decide) (by decide)
  rw [description]
  refine ⟨?_, ?_, ?_⟩
  · rw [field_of_not_mem noSpace (by decide), field_label, field_apart (by decide),
      field_apart (by decide)]
    rfl
  · rw [field_of_not_mem noSpace (by decide), field_apart (by decide), field_label,
      field_apart (by decide)]
    rfl
  · rw [field_of_not_mem noSpace (by decide), field_apart (by decide), field_apart (by decide),
      field_label]
    rfl

/-- The block of an address can be read back exactly if the address is in normal form. -/
theorem readsBack_description_iff {a : Address} : ReadsBack a (description a) ↔ a.Normal := by
  rcases field_description a with ⟨family, bytes, uri⟩
  have some : a.bytes ≠ [] := by
    cases a <;> exact List.cons_ne_nil _ _
  have read : (field "  bytes:  " (description a)).map (fun s => (spelledBytes? s).map ofBytes) =
      [.some (ofBytes a.bytes)] := by
    rw [bytes, List.map_singleton, spelledBytes?_spacedBytes some, Option.map_some]
  constructor
  · intro h
    have same := read.symm.trans h.bytes_eq
    exact ofBytes_bytes_eq_ok_iff.mp (Option.some.inj (List.cons.inj same).1)
  · intro h
    constructor
    case header_eq =>
      have literal : Literal a.chars a := by
        cases a with
        | v4 v => exact literal_chars_v4 v
        | v6 v =>
          have again := literal_chars_v6 v
          rw [unmapped_of_isMapped_eq_false (normal_v6_iff.mp h)] at again
          exact again
      exact congrArg Option.some (ofLiteral_text_eq_ok_iff.mpr literal)
    case family_eq_v4 =>
      rintro v rfl
      exact family
    case family_eq_v6 =>
      rintro v rfl
      exact family
    case bytes_eq => rw [read, ofBytes_bytes_eq_ok_iff.mpr h]
    case uri_eq => rw [uri, List.map_singleton, ofHost_uriText_of_normal h]

theorem line_feed_not_mem_uriText (a : Address) : '\n' ∉ a.uriText.toList := by
  cases a with
  | v4 v => exact not_mem_v4 v (by decide) (by decide) (by decide)
  | v6 v =>
    rw [uriText_v6]
    have text := not_mem_text (.v6 v) (c := '\n') (by decide) (by decide) (by decide)
    exact line_feed_not_mem_append (line_feed_not_mem_append (by decide) text) (by decide)

/-- Each line of a description is one. -/
theorem line_feed_not_mem_description (a : Address) :
    ∀ line ∈ description a, '\n' ∉ line.toList := by
  intro line inside
  simp only [description, List.mem_cons, List.not_mem_nil, or_false] at inside
  rcases inside with rfl | rfl | rfl | rfl
  · exact not_mem_text a (by decide) (by decide) (by decide)
  · apply line_feed_not_mem_append (by decide)
    cases a <;> simp [family]
  · exact line_feed_not_mem_append (by decide) (not_mem_spacedBytes (by decide) (by decide) _)
  · exact line_feed_not_mem_append (by decide) (line_feed_not_mem_uriText a)

/-! ## A list of texts -/

theorem describeAll_cons_of_ok {text : String} {a : Address} (h : ofLiteral text = .ok a)
    (more : List String) : describeAll (text :: more) =
      (description a ++ (describeAll more).1, (describeAll more).2) := by
  rw [describeAll, h]

/-- What is printed for a list of texts, and what goes wrong, is told by the longest part of the
list that begins it and has literals only, and by the text that comes next. -/
theorem exists_describeAll (texts : List String) : ∃ as : List Address,
    (texts.takeWhile isLiteral).map ofLiteral = as.map .ok ∧
      (describeAll texts).1 = as.flatMap description ∧
      (texts.dropWhile isLiteral = [] ∧ (describeAll texts).2 = none ∨
        ∃ text more e, texts.dropWhile isLiteral = text :: more ∧ ofLiteral text = .error e ∧
          (describeAll texts).2 = some (.parsing text e)) := by
  induction texts with
  | nil => exact ⟨[], rfl, rfl, .inl ⟨rfl, rfl⟩⟩
  | cons text more ih =>
    cases read : ofLiteral text with
    | ok a =>
      have literal : isLiteral text = true := by
        rw [isLiteral, read]
        rfl
      rcases ih with ⟨as, literals, lines, rest⟩
      refine ⟨a :: as, ?_, ?_, ?_⟩
      · rw [List.takeWhile_cons_of_pos literal, List.map_cons, literals, read]
        rfl
      · rw [describeAll_cons_of_ok read, lines]
        rfl
      · rw [describeAll_cons_of_ok read, List.dropWhile_cons_of_pos literal]
        exact rest
    | error e =>
      have bad : ¬isLiteral text = true := by
        rw [isLiteral, read]
        exact Bool.false_ne_true
      refine ⟨[], ?_, ?_, .inr ⟨text, more, e, ?_, read, ?_⟩⟩
      · rw [List.takeWhile_cons_of_neg bad]
        rfl
      · rw [describeAll, read]
        rfl
      · exact List.dropWhile_cons_of_neg bad
      · rw [describeAll, read]

/-! ## A text that is no literal -/

/-- What is told of a text that is no literal: the text in quotes, and why it is refused. This comes
on a line of its own with four spaces before it, and a text of several lines is kept behind them. -/
def Blames (text errors : String) : Prop :=
  ∃ between, Quotes text between ∧
    errors = "Error: parsing \"" ++ between ++ "\"\n\nCaused by:\n    '" ++
    "\n    ".intercalate ((text.toList.splitOn '\n').map String.ofList) ++
    "' is not an IP string literal\n"

theorem toList_indented (s : String) : (indented s).toList =
    "    ".toList ++ s.toList.flatMap fun c => if c = '\n' then "\n    ".toList else [c] :=
  String.toList_ofList

/-- What stands before and behind a text stays on its first and on its last line. -/
theorem indented_append_append {before behind : String} (h : '\n' ∉ before.toList)
    (h' : '\n' ∉ behind.toList) (text : String) : indented (before ++ text ++ behind) =
      "    " ++ before ++ "\n    ".intercalate ((text.toList.splitOn '\n').map String.ofList) ++
        behind := by
  have stays : ∀ s : List Char, '\n' ∉ s →
      (s.flatMap fun c => if c = '\n' then "\n    ".toList else [c]) = s := by
    intro s whole
    have each : ∀ c ∈ s, (if c = '\n' then "\n    ".toList else [c]) = [c] := by
      intro c inside
      refine if_neg ?_
      rintro rfl
      exact whole inside
    rw [List.flatMap_congr each, List.flatMap_singleton']
  apply String.toList_injective
  simp only [toList_indented, String.toList_append, List.flatMap_append, stays _ h, stays _ h',
    flatMap_eq_intercalate, String.toList_intercalate, List.map_map, Function.comp_def,
    String.toList_ofList, List.map_id', List.append_assoc]

theorem blames_report (text : String) :
    Blames text (Failure.parsing text (.notLiteral text)).report := by
  rcases exists_quotes_quoted text with ⟨between, quotes, quoted_eq⟩
  refine ⟨between, quotes, ?_⟩
  have context : "Error: parsing \"" = "Error: " ++ "parsing " ++ "\"" := by decide
  have cause : "\"\n\nCaused by:\n    '" = "\"" ++ "\n\nCaused by:\n" ++ "    " ++ "'" := by decide
  have ending : "' is not an IP string literal\n" = "' is not an IP string literal" ++ "\n" := by
    decide
  show "Error: " ++ ("parsing " ++ quoted text) ++ ("\n\nCaused by:\n" ++
    indented ("'" ++ text ++ "' is not an IP string literal")) ++ "\n" = _
  rw [indented_append_append (by decide) (by decide), quoted_eq, context, cause, ending]
  simp only [String.append_assoc]

/-! ## The program -/

/-- What comes of a call of the program to describe some texts, the first of which are literals of
the addresses `as`. -/
structure Described (texts : List String) (as : List Address) (result : Result) : Prop where
  /-- The addresses are those of the literals that stand before the first text that is none. -/
  literals_eq : (texts.takeWhile isLiteral).map ofLiteral = as.map .ok
  output_eq : result.output = ofLines (as.flatMap description)
  lines_eq : linesOf result.output = as.flatMap description
  code_eq_zero_iff : result.code = 0 ↔ ∀ text ∈ texts, isLiteral text = true
  errors_eq : result.code = 0 → result.errors = ""
  /-- The first text that is no literal is told. -/
  refused : ∀ text more, texts.dropWhile isLiteral = text :: more → result.code = 1 ∧
    ofLiteral text = .error (.notLiteral text) ∧ Blames text result.errors
  readsBack : ∀ a ∈ as, ReadsBack a (description a)

theorem exists_described (texts : List String) :
    ∃ as, Described texts as (Command.parse texts).result := by
  rcases exists_describeAll texts with ⟨as, literals, lines, ends⟩
  have printed : linesOf (ofLines (as.flatMap description)) = as.flatMap description := by
    apply linesOf_ofLines
    intro line inside
    rcases List.mem_flatMap.mp inside with ⟨a, -, ofBlock⟩
    exact line_feed_not_mem_description a line ofBlock
  have normal : ∀ a ∈ as, ReadsBack a (description a) := by
    intro a inside
    have read : Except.ok a ∈ as.map (Except.ok : Address → Except AddressError Address) :=
      List.mem_map_of_mem inside
    rw [← literals] at read
    rcases List.mem_map.mp read with ⟨text, -, literal⟩
    exact readsBack_description_iff.mpr (normal_of_ofLiteral literal)
  use as
  rcases ends with ⟨all, none⟩ | ⟨text, more, e, rest, bad, failure⟩
  · have result : (Command.parse texts).result = ⟨0, ofLines (as.flatMap description), ""⟩ := by
      have done : (Command.parse texts).run = (as.flatMap description, .none) := Prod.ext lines none
      simp only [Command.result, done]
    rw [result]
    constructor
    case literals_eq => exact literals
    case output_eq => rfl
    case lines_eq => exact printed
    case code_eq_zero_iff => exact iff_of_true rfl (List.dropWhile_eq_nil_iff.mp all)
    case errors_eq => exact fun _ => rfl
    case refused =>
      intro text more rest
      rw [all] at rest
      cases rest
    case readsBack => exact normal
  · obtain rfl := eq_notLiteral_of_ofLiteral bad
    have result : (Command.parse texts).result = ⟨1, ofLines (as.flatMap description),
        (Failure.parsing text (.notLiteral text)).report⟩ := by
      have done : (Command.parse texts).run =
          (as.flatMap description, some (.parsing text (.notLiteral text))) :=
        Prod.ext lines failure
      simp only [Command.result, done]
    have failed : (1 : UInt8) ≠ 0 := by decide
    rw [result]
    constructor
    case literals_eq => exact literals
    case output_eq => rfl
    case lines_eq => exact printed
    case code_eq_zero_iff =>
      refine iff_of_false failed fun all => ?_
      rw [List.dropWhile_eq_nil_iff.mpr all] at rest
      cases rest
    case errors_eq => exact fun zero => absurd zero failed
    case refused =>
      intro text' more' rest'
      cases rest.symm.trans rest'
      exact ⟨rfl, bad, blames_report text⟩
    case readsBack => exact normal

/-- Every list of texts can be handed over, whatever the texts are. -/
theorem ofArguments_parse {texts : List String} (h : texts ≠ []) :
    Command.ofArguments ("parse" :: "--" :: texts) = some (.parse texts) := by
  cases texts with
  | nil => exact absurd rfl h
  | cons text more => rfl

/-- Texts are described up to the first that is no literal, and everything that is printed about an
address gives the address back. This holds however the program reads its arguments, as long as it
hands the texts over. -/
theorem parse_described :
    (∀ texts, texts ≠ [] →
      Command.ofArguments ("parse" :: "--" :: texts) = some (.parse texts)) ∧
    ∀ (ofArguments : List String → Option Command) (args texts : List String),
      ofArguments args = some (.parse texts) →
        ∃ as, Described texts as (runWith ofArguments args) := by
  constructor
  · intro texts some
    exact ofArguments_parse some
  · intro ofArguments args texts asked
    rw [runWith, asked]
    exact exists_described texts

/-- A call with an IPv6 literal, a mapped address and a text of two lines that is no literal. -/
theorem parse_described_of_three :
    (∃ as, Described ["2001:DB8::1", "::ffff:10.0.0.1", "::1%\n0", "::1"] as
      (runWith (fun texts => some (.parse texts))
        ["2001:DB8::1", "::ffff:10.0.0.1", "::1%\n0", "::1"])) ∧
    runWith (fun texts => some (.parse texts))
        ["2001:DB8::1", "::ffff:10.0.0.1", "::1%\n0", "::1"] =
      ⟨1, "2001:db8::1\n  family: IPv6\n" ++
          "  bytes:  20 01 0d b8 00 00 00 00 00 00 00 00 00 00 00 01\n" ++
          "  uri:    [2001:db8::1]\n" ++
          "10.0.0.1\n  family: IPv4\n  bytes:  0a 00 00 01\n  uri:    10.0.0.1\n",
        "Error: parsing \"::1%\\n0\"\n\nCaused by:\n" ++
          "    '::1%\n    0' is not an IP string literal\n"⟩ :=
  ⟨parse_described.2 _ _ _ rfl, by decide +kernel⟩

end Groundwork.Report
