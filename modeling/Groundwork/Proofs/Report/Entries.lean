import Groundwork.Proofs.Address.Classification
import Groundwork.Proofs.Report.Fields

/-!
# Classifications

An address is of one scheme with a client at most, so that there are few shapes which the entries of
a report can have, and all that its lines say of each other is read off the shapes.

* `Label` are the labels of a classification, and `field_classification` tells the field of each.
* `Shape` and `shape_entries`: what the entries of a report look like.
* `repacked?` packs what a Teredo entry says, and `Shape.repacked?_eq` gives the address back.
* `Consistent` and `classification_consistent`: the lines agree with each other and with the
  address.
-/

namespace Groundwork.Report

open Groundwork.Text Groundwork.Bytes Groundwork.Address Groundwork.CommandLine

/-! ## Labels -/

/-- What a line of a classification can be about. -/
inductive Label where
  | compatible
  | sixToFour
  | server
  | tunnelled
  | port
  | flags
  | isatap
  | client
deriving DecidableEq, Repr

/-- How a line begins. -/
def Label.text : Label → String
  | compatible => "  compat:  "
  | sixToFour => "  6to4:    "
  | server => "  teredo:  server "
  | tunnelled => "           client "
  | port => "           port   "
  | flags => "           flags  "
  | isatap => "  isatap:  "
  | client => "  client:  "

/-- Labels differ before either of them ends. -/
theorem Label.apart (l m : Label) : l ≠ m → Apart l.text m.text := by
  cases l <;> cases m <;> decide

/-- What an entry says, and after which labels. -/
def Entry.said : Entry → List (Label × String)
  | compatible v => [(.compatible, v.text)]
  | sixToFour v => [(.sixToFour, v.text)]
  | teredo t => [(.server, t.server.text), (.tunnelled, t.client.text),
      (.port, toString t.port.toNat), (.flags, flagsText t.flags)]
  | isatap v => [(.isatap, v.text)]
  | client (some v) => [(.client, v.text)]
  | client none => [(.client, "none")]

theorem Entry.lines_eq (e : Entry) : e.lines = e.said.map fun p => p.1.text ++ p.2 := by
  rcases e with _ | _ | _ | _ | (_ | _) <;> rfl

/-- What entries say after a label. -/
def told (l : Label) (es : List Entry) : List String :=
  ((es.flatMap Entry.said).filter fun p => p.1 = l).map Prod.snd

theorem classification_eq (v : IPv6) : classification v =
    v.text :: ((entries v).flatMap Entry.said).map fun p => p.1.text ++ p.2 := by
  rw [classification, List.map_flatMap]
  congr 2
  funext e
  exact e.lines_eq

theorem field_labelled (l : Label) (said : List (Label × String)) :
    field l.text (said.map fun p => p.1.text ++ p.2) =
      (said.filter fun p => p.1 = l).map Prod.snd := by
  induction said with
  | nil => rfl
  | cons p more ih =>
    by_cases same : p.1 = l
    · have here : (p :: more).filter (fun p => p.1 = l) = p :: more.filter fun p => p.1 = l :=
        List.filter_cons_of_pos (decide_eq_true same)
      rw [List.map_cons, same, field_label, ih, here]
      rfl
    · have here : (p :: more).filter (fun p => p.1 = l) = more.filter fun p => p.1 = l :=
        List.filter_cons_of_neg fun h => same (of_decide_eq_true h)
      rw [List.map_cons, field_apart (Label.apart l p.1 (Ne.symm same)), ih, here]

/-- The field of a label is what the entries say after it. -/
theorem field_classification (l : Label) (v : IPv6) :
    field l.text (classification v) = told l (entries v) := by
  have noSpace : ' ' ∉ v.text.toList := not_mem_v6 v (by decide) (by decide) (by decide)
  have begins : ' ' ∈ l.text.toList := by
    cases l <;> decide
  rw [classification_eq, field_of_not_mem noSpace begins, field_labelled]
  rfl

/-! ## The shapes of a report -/

/-- What the entries of a report look like: the entry of a scheme with a client, if there is one,
and who the client is. An ISATAP entry can only stand beside that of 6to4, or alone. -/
inductive Shape (v : IPv6) : List Entry → Prop
  | compatible {q : IPv4} (client : v.embeddedClient = .ok q) :
      Shape v [.compatible q, .client (some q)]
  | sixToFour {q : IPv4} (isatap : Option IPv4) (client : v.embeddedClient = .ok q) :
      Shape v (.sixToFour q :: ((isatap.map Entry.isatap).toList ++ [.client (some q)]))
  | teredo {t : TeredoFields} (packed : t.address = v) (client : v.embeddedClient = .ok t.client) :
      Shape v [.teredo t, .client (some t.client)]
  | other {e : AddressError} (isatap : Option IPv4) (client : v.embeddedClient = .error e) :
      Shape v ((isatap.map Entry.isatap).toList ++ [.client none])

theorem shape_entries (v : IPv6) : Shape v (entries v) := by
  by_cases covered : ∃ s : ClientScheme, s.covers v = true
  · rcases covered with ⟨s, h⟩
    have client := embeddedClient_of_covers h
    have alone : ∀ t : ClientScheme, t ≠ s → ¬t.covers v = true := by
      intro t other h'
      exact other (ClientScheme.eq_of_covers h' h)
    cases s with
    | compatible =>
      have notSixToFour : ¬v.isSixToFour = true := alone .sixToFour (by decide)
      have notTeredo : ¬v.isTeredo = true := alone .teredo (by decide)
      have notIsatap : ¬v.isIsatap = true := by
        intro isatap
        exact absurd h (Bool.eq_false_iff.mp (apart_of_isIsatap isatap).1)
      have here : v.compatibleIPv4 = .ok v.lastFour := if_pos h
      have found : v.embeddedClient = .ok v.lastFour := client.trans here
      rw [entries, found, here, IPv6.sixToFourIPv4, if_neg notSixToFour, IPv6.teredoFields,
        if_neg notTeredo, IPv6.isatapIPv4, if_neg notIsatap]
      exact .compatible found
    | sixToFour =>
      have notCompatible : ¬v.isCompatible = true := alone .compatible (by decide)
      have notTeredo : ¬v.isTeredo = true := alone .teredo (by decide)
      have here : v.sixToFourIPv4 = .ok (.ofWords v.g1 v.g2) := if_pos h
      have found : v.embeddedClient = .ok (.ofWords v.g1 v.g2) := client.trans here
      rw [entries, found, here, IPv6.compatibleIPv4, if_neg notCompatible, IPv6.teredoFields,
        if_neg notTeredo]
      exact .sixToFour v.isatapIPv4.toOption found
    | teredo =>
      have notCompatible : ¬v.isCompatible = true := alone .compatible (by decide)
      have notSixToFour : ¬v.isSixToFour = true := alone .sixToFour (by decide)
      have notIsatap : ¬v.isIsatap = true := by
        intro isatap
        exact absurd h (Bool.eq_false_iff.mp (apart_of_isIsatap isatap).2)
      rcases exists_unpack h with ⟨t, unpacked, packed⟩
      have here : v.teredoFields = .ok t := teredoFields_of_unpack unpacked
      have found : v.embeddedClient = .ok t.client := embeddedClient_of_unpack unpacked
      rw [entries, found, here, IPv6.compatibleIPv4, if_neg notCompatible, IPv6.sixToFourIPv4,
        if_neg notSixToFour, IPv6.isatapIPv4, if_neg notIsatap]
      exact .teredo packed found
  · have none : ∀ s : ClientScheme, ¬s.covers v = true := fun s h => covered ⟨s, h⟩
    have notCompatible : ¬v.isCompatible = true := none .compatible
    have notSixToFour : ¬v.isSixToFour = true := none .sixToFour
    have notTeredo : ¬v.isTeredo = true := none .teredo
    have found := embeddedClient_of_none none
    rw [entries, found, IPv6.compatibleIPv4, if_neg notCompatible, IPv6.sixToFourIPv4,
      if_neg notSixToFour, IPv6.teredoFields, if_neg notTeredo]
    exact .other v.isatapIPv4.toOption found

namespace Shape

variable {v : IPv6} {es : List Entry}

theorem one_scheme (h : Shape v es) : (told .compatible es).length +
    (told .sixToFour es).length + (told .server es).length ≤ 1 := by
  cases h with
  | compatible client => exact Nat.le_refl 1
  | sixToFour isatap client => cases isatap <;> exact Nat.le_refl 1
  | teredo packed client => exact Nat.le_refl 1
  | other isatap client => cases isatap <;> exact Nat.zero_le 1

/-- A Teredo entry has all its lines. -/
theorem teredo_whole (h : Shape v es) : ∀ l ∈ [Label.tunnelled, .port, .flags],
    (told l es).length = (told .server es).length := by
  intro l inside
  simp only [List.mem_cons, List.not_mem_nil, or_false] at inside
  cases h with
  | compatible client => rcases inside with rfl | rfl | rfl <;> rfl
  | sixToFour isatap client =>
    cases isatap <;> rcases inside with rfl | rfl | rfl <;> rfl
  | teredo packed client => rcases inside with rfl | rfl | rfl <;> rfl
  | other isatap client =>
    cases isatap <;> rcases inside with rfl | rfl | rfl <;> rfl

/-- The entry of a scheme shows the client. -/
theorem clients (h : Shape v es) :
    told .compatible es ++ told .sixToFour es ++ told .tunnelled es =
      (v.embeddedClient.toOption.map IPv4.text).toList := by
  cases h with
  | compatible client =>
    rw [client]
    rfl
  | sixToFour isatap client =>
    rw [client]
    cases isatap <;> rfl
  | teredo packed client =>
    rw [client]
    rfl
  | other isatap client =>
    rw [client]
    cases isatap <;> rfl

theorem client (h : Shape v es) :
    told .client es = [(v.embeddedClient.toOption.map IPv4.text).getD "none"] := by
  cases h with
  | compatible client =>
    rw [client]
    rfl
  | sixToFour isatap client =>
    rw [client]
    cases isatap <;> rfl
  | teredo packed client =>
    rw [client]
    rfl
  | other isatap client =>
    rw [client]
    cases isatap <;> rfl

theorem isatap_apart (h : Shape v es) (isatap : told .isatap es ≠ []) :
    told .compatible es = [] ∧ told .server es = [] := by
  cases h with
  | compatible client => exact absurd rfl isatap
  | sixToFour beside client => cases beside <;> exact ⟨rfl, rfl⟩
  | teredo packed client => exact absurd rfl isatap
  | other beside client => cases beside <;> exact ⟨rfl, rfl⟩

end Shape

/-! ## A Teredo entry read back -/

/-- The number of flags as they are printed, if there are four digits. -/
def flagsValue? (s : String) : Option Nat :=
  match s.toList with
  | ['0', 'x', a, b, c, d] => hexValue? [a, b, c, d]
  | _ => none

/-- The address that packs what is said after the labels of a Teredo entry. -/
def repacked? (lines : List String) : Option IPv6 := do
  let server ← dottedQuad? (← (field Label.server.text lines).head?).toList
  let client ← dottedQuad? (← (field Label.tunnelled.text lines).head?).toList
  let port ← decimalValue? (← (field Label.port.text lines).head?).toList
  let flags ← flagsValue? (← (field Label.flags.text lines).head?)
  let t ← (TeredoFields.make (some server) (some client) port flags).toOption
  pure t.address

theorem dottedQuad?_text (v : IPv4) : dottedQuad? v.text.toList = some v := by
  rw [IPv4.text, String.toList_ofList]
  exact dottedQuad?_eq_some_iff.mpr (quad_chars v)

theorem decimalValue?_toString (n : Nat) : decimalValue? (toString n).toList = some n := by
  have printed : (toString n).toList = decimal n := Nat.toList_repr
  rw [printed]
  exact decimalValue?_eq_some_iff.mpr (spells_decimal n)

theorem toList_flagsText (f : TeredoFlags) : (flagsText f).toList =
    '0' :: 'x' :: (hexByte (highByte f.bits) ++ hexByte (lowByte f.bits)) := by
  have digits : hexBytes [highByte f.bits, lowByte f.bits] =
      hexByte (highByte f.bits) ++ hexByte (lowByte f.bits) := rfl
  simp only [flagsText, String.toList_append, bigEndian_two, digits, String.toList_ofList]
  rfl

/-- Four digits of two bytes are a numeral of both. -/
theorem hexValue?_hexByte_append (high low : UInt8) :
    hexValue? (hexByte high ++ hexByte low) = some (256 * high.toNat + low.toNat) := by
  have highFits := high.toNat_lt
  have lowFits := low.toNat_lt
  have digit : ∀ d < 16, hexDigit? (Nat.digitChar d) = some d := fun d fits =>
    hexDigit?_digitChar fits
  have digits : (hexByte high ++ hexByte low).mapM hexDigit? =
      some [high.toNat / 16, high.toNat % 16, low.toNat / 16, low.toNat % 16] := by
    simp [hexByte, digit (high.toNat / 16) (by omega), digit (high.toNat % 16) (by omega),
      digit (low.toNat / 16) (by omega), digit (low.toNat % 16) (by omega)]
  have value : fromDigits 16 [high.toNat / 16, high.toNat % 16, low.toNat / 16, low.toNat % 16] =
      256 * high.toNat + low.toNat := by
    simp only [fromDigits, List.foldl_cons, List.foldl_nil]
    omega
  rw [hexValue?, digits, Option.map_some, value]

theorem flagsValue?_flagsText (f : TeredoFlags) :
    flagsValue? (flagsText f) = some f.bits.toNat := by
  have value : 256 * (highByte f.bits).toNat + (lowByte f.bits).toNat = f.bits.toNat := by
    have pair := bigEndianValue_pair f.bits
    simpa [bigEndianValue] using pair
  rw [← value, ← hexValue?_hexByte_append, flagsValue?, toList_flagsText]
  rfl

section Repacking

variable {lines : List String}

theorem repacked?_of_fields {t : TeredoFields}
    (server : field Label.server.text lines = [t.server.text])
    (tunnelled : field Label.tunnelled.text lines = [t.client.text])
    (port : field Label.port.text lines = [toString t.port.toNat])
    (flags : field Label.flags.text lines = [flagsText t.flags]) :
    repacked? lines = some t.address := by
  have portFits : t.port.toNat ≤ 0xffff := Nat.le_of_lt_succ t.port.toNat_lt
  have flagsFit : t.flags.bits.toNat ≤ 0xffff := Nat.le_of_lt_succ t.flags.bits.toNat_lt
  have made := make_eq_ok (some t.server) (some t.client) portFits flagsFit
  simp only [repacked?, server, tunnelled, port, flags, List.head?_cons, Option.bind_eq_bind,
    Option.bind_some, dottedQuad?_text, decimalValue?_toString, flagsValue?_flagsText, made,
    UInt16.ofNat_toNat]
  rfl

theorem repacked?_of_nil (nothing : field Label.server.text lines = []) :
    repacked? lines = none := by
  rw [repacked?, nothing]
  rfl

/-- The lines of a Teredo entry give the address back. -/
theorem Shape.repacked?_eq {v : IPv6} {es : List Entry} (h : Shape v es)
    (said : ∀ l : Label, field l.text lines = told l es) :
    repacked? lines = if field Label.server.text lines = [] then none else some v := by
  cases h with
  | compatible client =>
    have nothing : field Label.server.text lines = [] := said .server
    rw [repacked?_of_nil nothing, if_pos nothing]
  | sixToFour isatap client =>
    have nothing : field Label.server.text lines = [] := by
      rw [said]
      cases isatap <;> rfl
    rw [repacked?_of_nil nothing, if_pos nothing]
  | @teredo t packed client =>
    have server : field Label.server.text lines = [t.server.text] := said .server
    have some : ¬field Label.server.text lines = [] := by
      rw [server]
      exact List.cons_ne_nil _ _
    have back := repacked?_of_fields server (said .tunnelled) (said .port) (said .flags)
    rw [if_neg some, back, packed]
  | other isatap client =>
    have nothing : field Label.server.text lines = [] := by
      rw [said]
      cases isatap <;> rfl
    rw [repacked?_of_nil nothing, if_pos nothing]

end Repacking

/-! ## Agreement -/

/-- What a report says of the IPv4 address of a client, after the labels of the three schemes. -/
def clientsTold (lines : List String) : List String :=
  field Label.compatible.text lines ++ field Label.sixToFour.text lines ++
    field Label.tunnelled.text lines

/-- That the lines of a report on an address agree. -/
structure Consistent (v : IPv6) (lines : List String) : Prop where
  header_eq : lines.head? = some (Address.v6 v).text
  /-- There is an entry of one scheme with a client at most. -/
  one_scheme : (field Label.compatible.text lines).length +
    (field Label.sixToFour.text lines).length + (field Label.server.text lines).length ≤ 1
  teredo_whole : ∀ l ∈ [Label.tunnelled, .port, .flags],
    (field l.text lines).length = (field Label.server.text lines).length
  /-- The client is the one that the entry shows, and there is none if there is no entry. -/
  client_eq : field Label.client.text lines =
    if clientsTold lines = [] then ["none"] else clientsTold lines
  client_eq_none_iff : field Label.client.text lines = ["none"] ↔ clientsTold lines = []
  clientsTold_eq : clientsTold lines = (v.embeddedClient.toOption.map IPv4.text).toList
  isatap_apart : field Label.isatap.text lines ≠ [] →
    field Label.compatible.text lines = [] ∧ field Label.server.text lines = []
  /-- A Teredo entry determines the address. -/
  repacked_eq : repacked? lines = if field Label.server.text lines = [] then none else some v

theorem text_ne_none (q : IPv4) : q.text ≠ "none" := by
  intro same
  have inside : 'o' ∈ q.text.toList := by
    rw [same]
    decide
  exact not_mem_v4 q (by decide) (by decide) (by decide) inside

theorem consistent_classification (v : IPv6) : Consistent v (classification v) := by
  have said : ∀ l : Label, field l.text (classification v) = told l (entries v) :=
    fun l => field_classification l v
  have shape := shape_entries v
  have clients : clientsTold (classification v) =
      (v.embeddedClient.toOption.map IPv4.text).toList := by
    rw [clientsTold, said, said, said]
    exact shape.clients
  have client := (said .client).trans shape.client
  constructor
  case header_eq => rfl
  case one_scheme =>
    rw [said, said, said]
    exact shape.one_scheme
  case teredo_whole =>
    intro l inside
    rw [said, said]
    exact shape.teredo_whole l inside
  case client_eq =>
    rw [client, clients]
    cases v.embeddedClient.toOption <;> rfl
  case client_eq_none_iff =>
    rw [client, clients]
    cases v.embeddedClient.toOption with
    | none => exact iff_of_true rfl rfl
    | some q =>
      refine iff_of_false (fun same => ?_) (List.cons_ne_nil _ _)
      exact text_ne_none q (List.cons.inj same).1
  case clientsTold_eq => exact clients
  case isatap_apart =>
    rw [said, said, said]
    exact shape.isatap_apart
  case repacked_eq => exact shape.repacked?_eq said

/-! ## The program -/

theorem line_feed_not_mem_said {e : Entry} {p : Label × String} (h : p ∈ e.said) :
    '\n' ∉ p.2.toList := by
  have quad : ∀ q : IPv4, '\n' ∉ q.text.toList := fun q =>
    not_mem_v4 q (by decide) (by decide) (by decide)
  have digits : ∀ b : UInt8, '\n' ∉ hexByte b := not_mem_hexByte (by decide)
  have number : ∀ n : Nat, '\n' ∉ (toString n).toList := by
    intro n
    have printed : (toString n).toList = decimal n := Nat.toList_repr
    rw [printed]
    refine (spells_decimal n).not_mem fun d digit => ?_
    cases decimalDigit?_eq_some_iff.mpr digit
  have flags : ∀ f : TeredoFlags, '\n' ∉ (flagsText f).toList := by
    intro f
    rw [toList_flagsText]
    simp [digits]
  cases e with
  | compatible q =>
    rw [List.mem_singleton.mp h]
    exact quad q
  | sixToFour q =>
    rw [List.mem_singleton.mp h]
    exact quad q
  | teredo t =>
    simp only [Entry.said, List.mem_cons, List.not_mem_nil, or_false] at h
    rcases h with rfl | rfl | rfl | rfl
    · exact quad t.server
    · exact quad t.client
    · exact number t.port.toNat
    · exact flags t.flags
  | isatap q =>
    rw [List.mem_singleton.mp h]
    exact quad q
  | client q? =>
    cases q? with
    | some q =>
      rw [List.mem_singleton.mp h]
      exact quad q
    | none =>
      rw [List.mem_singleton.mp h]
      decide

/-- Each line of a classification is one. -/
theorem line_feed_not_mem_classification (v : IPv6) :
    ∀ line ∈ classification v, '\n' ∉ line.toList := by
  intro line inside
  rw [classification_eq, List.mem_cons] at inside
  rcases inside with rfl | labelled
  · exact not_mem_v6 v (by decide) (by decide) (by decide)
  · rcases List.mem_map.mp labelled with ⟨p, said, rfl⟩
    rcases List.mem_flatMap.mp said with ⟨e, -, ofEntry⟩
    have label : '\n' ∉ p.1.text.toList := by
      cases p.1 <;> decide
    exact line_feed_not_mem_append label (line_feed_not_mem_said ofEntry)

/-- The report on every IPv6 address agrees with itself and with the address, and it is what the
program prints, however it reads its arguments. -/
theorem classification_consistent :
    (∀ v : IPv6, Consistent v (linesOf (ofLines (classification v)))) ∧
    ∀ (ofArguments : List String → Option Command) (args : List String) text v,
      ofArguments args = some (.classify text) → ofLiteral text = .ok (.v6 v) →
        runWith ofArguments args = ⟨0, ofLines (classification v), ""⟩ := by
  constructor
  · intro v
    rw [linesOf_ofLines (line_feed_not_mem_classification v)]
    exact consistent_classification v
  · intro ofArguments args text v asked read
    simp only [runWith, asked, Command.result, Command.run, read]

/-- The tunnel end of an ISATAP address at a 6to4 site is not the client. -/
theorem classification_consistent_of_tunnel_end :
    runWith (fun texts => texts.head?.map .classify) ["2002:C000:201:1::5efe:10.0.0.1"] =
      ⟨0, ofLines (classification ⟨0x2002, 0xc000, 0x0201, 1, 0, 0x5efe, 0x0a00, 1⟩), ""⟩ ∧
    classification ⟨0x2002, 0xc000, 0x0201, 1, 0, 0x5efe, 0x0a00, 1⟩ =
      ["2002:c000:201:1:0:5efe:a00:1", "  6to4:    192.0.2.1", "  isatap:  10.0.0.1",
        "  client:  192.0.2.1"] :=
  ⟨classification_consistent.2 _ _ _ _ rfl (by decide +kernel), by rfl⟩

end Groundwork.Report
