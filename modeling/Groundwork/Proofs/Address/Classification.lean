import Groundwork.Address.Transition
import Groundwork.Proofs.Address.Teredo

/-!
# Transition schemes do not overlap

Which scheme an IPv6 address belongs to is a matter of its bytes, and so is the IPv4 address in it.

* `isCompatible_iff`, `isSixToFour_iff`, `isIsatap_iff`: the predicates of the schemes, byte by
  byte.
* `Extracts`: an answer that exists for the addresses of a scheme, and a refusal for all others.
* `ClientScheme.eq_of_covers`: an address belongs to one scheme with a client at most, so that the
  order in which these schemes are tried does not matter (`clientInOrder_eq`).
* `classification`: all of this together, for every address.
-/

namespace Groundwork.Address

open Groundwork.Bytes

/-! ## Bytes and groups -/

@[simp] theorem IPv6.length_bytes (v : IPv6) : v.bytes.length = 16 := by
  simp [IPv6.bytes, IPv6.groups]

/-- The first two bytes are those of a group exactly if the group is their word. -/
theorem pair_cons_eq_iff {g : UInt16} {high low : UInt8} {more more' : List UInt8} :
    highByte g :: lowByte g :: more = high :: low :: more' ↔ g = word high low ∧ more = more' := by
  constructor
  · intro same
    injection same with first same
    injection same with second rest
    constructor
    · rw [← first, ← second, word_highByte_lowByte]
    · exact rest
  · intro same
    rw [same.1, same.2, highByte_word, lowByte_word]

/-- What holds of the bytes of all numbers below 256 holds of all bytes. -/
theorem forall_byte {p : UInt8 → Prop} (h : ∀ n < 256, p (UInt8.ofNat n)) (b : UInt8) : p b := by
  have byte := h b.toNat b.toNat_lt
  rwa [UInt8.ofNat_toNat] at byte

/-- The bytes up to three are those with no bit above the two lowest. -/
theorem or_three_eq_iff (b : UInt8) : b ||| 3 = 3 ↔ b ≤ 3 :=
  forall_byte (p := fun b => b ||| 3 = 3 ↔ b ≤ 3) (by decide +kernel) b

/-- Setting the two lowest bits of a byte hides what they were. -/
theorem or_three_eq (b : UInt8) : b ||| 3 = (b &&& 0xfc) ||| 3 :=
  forall_byte (p := fun b => b ||| 3 = (b &&& 0xfc) ||| 3) (by decide +kernel) b

/-! ## The schemes, byte by byte -/

/-- An IPv4-compatible address has twelve zero bytes in front, and is neither `::` nor `::1`. -/
theorem isCompatible_iff (v : IPv6) : v.isCompatible = true ↔
    v.bytes.take 12 = List.replicate 12 0 ∧
      v.bytes.drop 12 ≠ [0, 0, 0, 0] ∧ v.bytes.drop 12 ≠ [0, 0, 0, 1] := by
  have zero : word 0 0 = 0 := by decide
  have one : word 0 1 = 1 := by decide
  have front : v.bytes.take 12 = List.replicate 12 0 ↔
      v.g0 = 0 ∧ v.g1 = 0 ∧ v.g2 = 0 ∧ v.g3 = 0 ∧ v.g4 = 0 ∧ v.g5 = 0 := by
    have bytes : v.bytes.take 12 = [highByte v.g0, lowByte v.g0, highByte v.g1, lowByte v.g1,
      highByte v.g2, lowByte v.g2, highByte v.g3, lowByte v.g3, highByte v.g4, lowByte v.g4,
      highByte v.g5, lowByte v.g5] := rfl
    rw [bytes]
    simp only [List.replicate, pair_cons_eq_iff, zero, and_true]
  have back : v.bytes.drop 12 = [highByte v.g6, lowByte v.g6, highByte v.g7, lowByte v.g7] := rfl
  have unspecified : v.bytes.drop 12 = [0, 0, 0, 0] ↔ v.g6 = 0 ∧ v.g7 = 0 := by
    rw [back, pair_cons_eq_iff, pair_cons_eq_iff, zero, eq_self, and_true]
  have loopback : v.bytes.drop 12 = [0, 0, 0, 1] ↔ v.g6 = 0 ∧ v.g7 = 1 := by
    rw [back, pair_cons_eq_iff, pair_cons_eq_iff, zero, one, eq_self, and_true]
  have neither : ¬ (v.g6 = 0 ∧ (v.g7 = 0 ∨ v.g7 = 1)) ↔
      ¬ (v.g6 = 0 ∧ v.g7 = 0) ∧ ¬ (v.g6 = 0 ∧ v.g7 = 1) := by
    rw [and_or_left, not_or]
  rw [IPv6.isCompatible, decide_eq_true_eq, front, Ne, unspecified, Ne, loopback, neither]
  simp only [and_assoc]

/-- A 6to4 address begins with the bytes of its prefix. -/
theorem isSixToFour_iff (v : IPv6) : v.isSixToFour = true ↔ v.bytes.take 2 = [0x20, 0x02] := by
  have bytes : v.bytes.take 2 = [highByte v.g0, lowByte v.g0] := rfl
  have number : word 0x20 0x02 = 0x2002 := by decide
  rw [IPv6.isSixToFour, decide_eq_true_eq, bytes, pair_cons_eq_iff, number, eq_self, and_true]

/-- An ISATAP address has its mark in the bytes 8 to 11, whatever the two lowest bits of the first
of them are, and is no Teredo address. -/
theorem isIsatap_iff (v : IPv6) : v.isIsatap = true ↔
    v.isTeredo = false ∧ v.bytes[8] ||| 3 = 3 ∧ (v.bytes.drop 9).take 3 = [0x00, 0x5e, 0xfe] := by
  have first : v.bytes[8] = highByte v.g4 := rfl
  have bytes : (v.bytes.drop 9).take 3 = [lowByte v.g4, highByte v.g5, lowByte v.g5] := rfl
  have number : word 0x5e 0xfe = 0x5efe := by decide
  rw [IPv6.isIsatap, decide_eq_true_eq, first, or_three_eq_iff, bytes, List.cons.injEq,
    pair_cons_eq_iff, number, eq_self, and_true]

/-- Outside `2001:0::/32`, the mark is all that an ISATAP address is told by. -/
theorem isIsatap_congr {v w : IPv6} (outside : v.isTeredo = false) (outside' : w.isTeredo = false)
    (first : v.bytes[8] &&& (0xfc : UInt8) = w.bytes[8] &&& (0xfc : UInt8))
    (rest : (v.bytes.drop 9).take 3 = (w.bytes.drop 9).take 3) : v.isIsatap = w.isIsatap := by
  rw [Bool.eq_iff_iff, isIsatap_iff, isIsatap_iff, outside, outside', or_three_eq v.bytes[8],
    or_three_eq w.bytes[8], first, rest]

/-! ## One scheme at most -/

/-- The schemes whose IPv4 address is that of a client. -/
inductive ClientScheme where
  | compatible
  | sixToFour
  | teredo
deriving DecidableEq, Repr

namespace ClientScheme

/-- Whether an address belongs to the scheme. -/
def covers : ClientScheme → IPv6 → Bool
  | .compatible, v => v.isCompatible
  | .sixToFour, v => v.isSixToFour
  | .teredo, v => v.isTeredo

/-- The IPv4 address of the client behind an address of the scheme. -/
def client : ClientScheme → IPv6 → Except AddressError IPv4
  | .compatible, v => v.compatibleIPv4
  | .sixToFour, v => v.sixToFourIPv4
  | .teredo, v => v.teredoFields.map (·.client)

/-- The first group of the addresses of the scheme. -/
def firstGroup : ClientScheme → UInt16
  | .compatible => 0
  | .sixToFour => 0x2002
  | .teredo => 0x2001

theorem g0_of_covers {s : ClientScheme} {v : IPv6} (h : s.covers v = true) :
    v.g0 = s.firstGroup := by
  cases s with
  | compatible => exact (of_decide_eq_true h).1
  | sixToFour => exact of_decide_eq_true h
  | teredo => exact (of_decide_eq_true h).1

/-- An address belongs to one of the schemes at most, since their first groups differ. -/
theorem eq_of_covers {s t : ClientScheme} {v : IPv6} (hs : s.covers v = true)
    (ht : t.covers v = true) : s = t := by
  have same : s.firstGroup = t.firstGroup := by rw [← g0_of_covers hs, g0_of_covers ht]
  have apart : ∀ s t : ClientScheme, s.firstGroup = t.firstGroup → s = t := by
    intro s t
    cases s <;> cases t <;> decide
  exact apart s t same

/-- Wherever it stands in an order, the scheme of an address is the first that the address belongs
to. -/
theorem find?_covers {order : List ClientScheme} {s : ClientScheme} {v : IPv6} (mem : s ∈ order)
    (h : s.covers v = true) : order.find? (fun t => t.covers v) = some s := by
  cases found : order.find? (fun t => t.covers v) with
  | none => exact absurd h (List.find?_eq_none.mp found s mem)
  | some t =>
    have belongs := List.find?_some found
    rw [eq_of_covers belongs h]

end ClientScheme

/-- The client that is found when the schemes of an order are tried one after the other. -/
def clientInOrder (order : List ClientScheme) (v : IPv6) : Except AddressError IPv4 :=
  match order.find? fun s => s.covers v with
  | some s => s.client v
  | none => .error (.nothingEmbedded v)

theorem clientInOrder_of_covers {order : List ClientScheme} {s : ClientScheme} {v : IPv6}
    (mem : s ∈ order) (h : s.covers v = true) : clientInOrder order v = s.client v := by
  rw [clientInOrder, ClientScheme.find?_covers mem h]

theorem clientInOrder_of_none {v : IPv6} (none : ∀ s : ClientScheme, ¬ s.covers v = true)
    (order : List ClientScheme) : clientInOrder order v = .error (.nothingEmbedded v) := by
  have nothing : order.find? (fun s => s.covers v) = .none :=
    List.find?_eq_none.mpr fun s _ => none s
  rw [clientInOrder, nothing]

/-- The client of an address is found in the order compatible, 6to4, Teredo. -/
theorem embeddedClient_eq (v : IPv6) :
    v.embeddedClient = clientInOrder [.compatible, .sixToFour, .teredo] v := by
  unfold IPv6.embeddedClient
  split
  · rename_i compatible
    have belongs : ClientScheme.compatible.covers v = true := compatible
    rw [clientInOrder_of_covers (by decide) belongs]
    rfl
  rename_i notCompatible
  split
  · rename_i sixToFour
    have belongs : ClientScheme.sixToFour.covers v = true := sixToFour
    rw [clientInOrder_of_covers (by decide) belongs]
    rfl
  rename_i notSixToFour
  split
  · rename_i teredo
    have belongs : ClientScheme.teredo.covers v = true := teredo
    rw [clientInOrder_of_covers (by decide) belongs]
    rfl
  · rename_i notTeredo
    have none : ∀ s : ClientScheme, ¬ s.covers v = true := by
      intro s
      cases s with
      | compatible => exact notCompatible
      | sixToFour => exact notSixToFour
      | teredo => exact notTeredo
    rw [clientInOrder_of_none none]

/-- In every order of all schemes the same client is found. -/
theorem clientInOrder_eq {order : List ClientScheme} (all : ∀ s, s ∈ order) (v : IPv6) :
    clientInOrder order v = v.embeddedClient := by
  rw [embeddedClient_eq]
  by_cases some : ∃ s : ClientScheme, s.covers v = true
  · rcases some with ⟨s, h⟩
    have mem : s ∈ [ClientScheme.compatible, .sixToFour, .teredo] := by
      cases s <;> decide
    rw [clientInOrder_of_covers (all s) h, clientInOrder_of_covers mem h]
  · have none : ∀ s : ClientScheme, ¬ s.covers v = true := fun s h => some ⟨s, h⟩
    rw [clientInOrder_of_none none, clientInOrder_of_none none]

theorem embeddedClient_of_covers {s : ClientScheme} {v : IPv6} (h : s.covers v = true) :
    v.embeddedClient = s.client v := by
  have mem : s ∈ [ClientScheme.compatible, .sixToFour, .teredo] := by
    cases s <;> decide
  rw [embeddedClient_eq, clientInOrder_of_covers mem h]

theorem embeddedClient_of_none {v : IPv6} (none : ∀ s : ClientScheme, ¬ s.covers v = true) :
    v.embeddedClient = .error (.nothingEmbedded v) := by
  rw [embeddedClient_eq, clientInOrder_of_none none]

/-! ## What is extracted -/

/-- Something is extracted exactly if there is something to extract; what it is has the property
`content`, and otherwise the answer is the refusal. -/
structure Extracts {ε α : Type} (covered : Prop) (answer : Except ε α) (content : α → Prop)
    (refusal : ε) : Prop where
  ok_iff : (∃ a, answer = .ok a) ↔ covered
  content : ∀ a, answer = .ok a → content a
  refused : ¬ covered → answer = .error refusal

theorem extracts_of_ok {ε α : Type} {covered : Prop} {answer : Except ε α} {content : α → Prop}
    {refusal : ε} {a : α} (holds : covered) (ok : answer = .ok a) (ha : content a) :
    Extracts covered answer content refusal := by
  refine ⟨iff_of_true ⟨a, ok⟩ holds, ?_, fun h => absurd holds h⟩
  intro b hb
  have same : a = b := Except.ok.inj (ok.symm.trans hb)
  rwa [← same]

theorem extracts_of_error {ε α : Type} {covered : Prop} {answer : Except ε α} {content : α → Prop}
    {refusal : ε} (not : ¬ covered) (error : answer = .error refusal) :
    Extracts covered answer content refusal := by
  have none : ∀ a, answer ≠ .ok a := by
    intro a ok
    rw [error] at ok
    cases ok
  refine ⟨iff_of_false ?_ not, ?_, fun _ => error⟩
  · intro h
    rcases h with ⟨a, ok⟩
    exact none a ok
  · intro a ok
    exact absurd ok (none a)

theorem extracts_ite {ε α : Type} {covered : Bool} {content : α → Prop} {a : α} {refusal : ε}
    (ha : content a) :
    Extracts (covered = true) (if covered then .ok a else .error refusal) content refusal := by
  by_cases holds : covered = true
  · exact extracts_of_ok holds (if_pos holds) ha
  · exact extracts_of_error holds (if_neg holds)

theorem extracts_unpack (v : IPv6) :
    Extracts (v.isTeredo = true) v.unpack (fun t => t.address = v) (.refused (.notTeredo v)) := by
  by_cases teredo : v.isTeredo = true
  · rcases exists_unpack teredo with ⟨t, read, packed⟩
    exact extracts_of_ok teredo read packed
  · have refused : v.unpack = .error (.refused (.notTeredo v)) := by
      rw [unpack_eq, IPv6.teredoFields, if_neg teredo]
      rfl
    exact extracts_of_error teredo refused

/-- The client behind a Teredo address is the one that is read from its bytes. -/
theorem embeddedClient_of_unpack {v : IPv6} {t : TeredoFields} (read : v.unpack = .ok t) :
    v.embeddedClient = .ok t.client := by
  have teredo : v.isTeredo = true := (extracts_unpack v).ok_iff.mp ⟨t, read⟩
  have belongs : ClientScheme.teredo.covers v = true := teredo
  have client : ClientScheme.teredo.client v = v.teredoFields.map (·.client) := rfl
  rw [embeddedClient_of_covers belongs, client, teredoFields_of_unpack read]
  rfl

namespace ClientScheme

/-- Every address of a scheme has a client. -/
theorem exists_client {s : ClientScheme} {v : IPv6} (h : s.covers v = true) :
    ∃ q, s.client v = .ok q := by
  cases s with
  | compatible => exact ⟨_, if_pos h⟩
  | sixToFour => exact ⟨_, if_pos h⟩
  | teredo =>
    have fields : v.teredoFields = .ok _ := if_pos h
    have client : ClientScheme.teredo.client v = v.teredoFields.map (·.client) := rfl
    rw [client, fields]
    exact ⟨_, rfl⟩

theorem exists_covers_iff (v : IPv6) : (∃ s : ClientScheme, s.covers v = true) ↔
    v.isCompatible = true ∨ v.isSixToFour = true ∨ v.isTeredo = true := by
  constructor
  · intro h
    rcases h with ⟨s, h⟩
    cases s with
    | compatible => exact Or.inl h
    | sixToFour => exact Or.inr (Or.inl h)
    | teredo => exact Or.inr (Or.inr h)
  · intro h
    rcases h with h | h | h
    · exact ⟨.compatible, h⟩
    · exact ⟨.sixToFour, h⟩
    · exact ⟨.teredo, h⟩

end ClientScheme

theorem extracts_embeddedClient (v : IPv6) :
    Extracts (v.isCompatible = true ∨ v.isSixToFour = true ∨ v.isTeredo = true) v.embeddedClient
      (fun q => ∃ s : ClientScheme, s.covers v = true ∧ s.client v = .ok q)
      (.nothingEmbedded v) := by
  rw [← ClientScheme.exists_covers_iff]
  by_cases some : ∃ s : ClientScheme, s.covers v = true
  · rcases some with ⟨s, h⟩
    rcases ClientScheme.exists_client h with ⟨q, hq⟩
    have answer : v.embeddedClient = .ok q := by rw [embeddedClient_of_covers h, hq]
    exact extracts_of_ok ⟨s, h⟩ answer ⟨s, h, hq⟩
  · have none : ∀ s : ClientScheme, ¬ s.covers v = true := fun s h => some ⟨s, h⟩
    exact extracts_of_error some (embeddedClient_of_none none)

/-! ## The schemes together -/

/-- An ISATAP address is no Teredo address, and its sixth group is not zero. -/
theorem apart_of_isIsatap {v : IPv6} (h : v.isIsatap = true) :
    v.isCompatible = false ∧ v.isTeredo = false := by
  rw [IPv6.isIsatap, decide_eq_true_eq] at h
  rcases h with ⟨outside, -, -, mark⟩
  refine ⟨?_, outside⟩
  rw [IPv6.isCompatible, decide_eq_false_iff_not]
  intro compatible
  have zero : v.g5 = 0 := compatible.2.2.2.2.2.1
  rw [zero] at mark
  exact absurd mark (by decide)

/-- That IPv6 addresses are told apart by the transition schemes, and what is extracted from
them. -/
structure Classification : Prop where
  /-- Each scheme is told by the bytes of the address. -/
  isCompatible_iff : ∀ v : IPv6, v.isCompatible = true ↔
    v.bytes.take 12 = List.replicate 12 0 ∧
      v.bytes.drop 12 ≠ [0, 0, 0, 0] ∧ v.bytes.drop 12 ≠ [0, 0, 0, 1]
  isSixToFour_iff : ∀ v : IPv6, v.isSixToFour = true ↔ v.bytes.take 2 = [0x20, 0x02]
  isTeredo_iff : ∀ v : IPv6, v.isTeredo = true ↔ v.bytes.take 4 = [0x20, 0x01, 0x00, 0x00]
  isIsatap_iff : ∀ v : IPv6, v.isIsatap = true ↔
    v.isTeredo = false ∧ v.bytes[8] ||| 3 = 3 ∧ (v.bytes.drop 9).take 3 = [0x00, 0x5e, 0xfe]
  /-- No address is of two of the schemes with a client. -/
  one_scheme : ∀ (v : IPv6) (s t : ClientScheme),
    s.covers v = true → t.covers v = true → s = t
  /-- ISATAP goes together with 6to4 only. -/
  isatap_apart : ∀ v : IPv6, v.isIsatap = true → v.isCompatible = false ∧ v.isTeredo = false
  isatap_beside : ∃ v : IPv6, v.isIsatap = true ∧ v.isSixToFour = true
  /-- Outside `2001:0::/32`, ISATAP does not depend on any byte but 8 to 11, and not on the two
  lowest bits of byte 8. -/
  isatap_congr : ∀ v w : IPv6, v.isTeredo = false → w.isTeredo = false →
    v.bytes[8] &&& (0xfc : UInt8) = w.bytes[8] &&& (0xfc : UInt8) →
    (v.bytes.drop 9).take 3 = (w.bytes.drop 9).take 3 → v.isIsatap = w.isIsatap
  /-- What is extracted from an address of a scheme stands in its bytes, and every other address is
  refused by name. -/
  compatible : ∀ v : IPv6, Extracts (v.isCompatible = true) v.compatibleIPv4
    (fun q => q.bytes = v.bytes.drop 12) (.notCompatible v)
  sixToFour : ∀ v : IPv6, Extracts (v.isSixToFour = true) v.sixToFourIPv4
    (fun q => q.bytes = (v.bytes.drop 2).take 4) (.notSixToFour v)
  isatap : ∀ v : IPv6, Extracts (v.isIsatap = true) v.isatapIPv4
    (fun q => q.bytes = v.bytes.drop 12) (.notIsatap v)
  teredo : ∀ v : IPv6, Extracts (v.isTeredo = true) v.unpack
    (fun t => t.address = v) (.refused (.notTeredo v))
  /-- There is a client exactly in an address of a scheme with a client, and it is the one of that
  scheme. -/
  client : ∀ v : IPv6, Extracts
    (v.isCompatible = true ∨ v.isSixToFour = true ∨ v.isTeredo = true) v.embeddedClient
    (fun q => ∃ s : ClientScheme, s.covers v = true ∧ s.client v = .ok q) (.nothingEmbedded v)
  client_of_covers : ∀ (v : IPv6) (s : ClientScheme),
    s.covers v = true → v.embeddedClient = s.client v
  client_of_unpack : ∀ (v : IPv6) (t : TeredoFields),
    v.unpack = .ok t → v.embeddedClient = .ok t.client
  /-- It does not matter in which order the schemes are tried. -/
  client_in_order : ∀ order : List ClientScheme, (∀ s, s ∈ order) →
    ∀ v : IPv6, clientInOrder order v = v.embeddedClient

/-- The transition schemes do not overlap, but for ISATAP inside 6to4, and everything that is
extracted from an IPv6 address follows the one scheme that the address belongs to. -/
theorem classification : Classification where
  isCompatible_iff := isCompatible_iff
  isSixToFour_iff := isSixToFour_iff
  isTeredo_iff := isTeredo_iff
  isIsatap_iff := isIsatap_iff
  one_scheme := fun _ _ _ => ClientScheme.eq_of_covers
  isatap_apart := fun _ => apart_of_isIsatap
  isatap_beside := ⟨⟨0x2002, 0, 0, 0, 0x0200, 0x5efe, 0, 0⟩, by decide⟩
  isatap_congr := fun _ _ => isIsatap_congr
  compatible := fun _ => extracts_ite rfl
  sixToFour := fun _ => extracts_ite rfl
  isatap := fun _ => extracts_ite rfl
  teredo := extracts_unpack
  client := extracts_embeddedClient
  client_of_covers := fun _ _ => embeddedClient_of_covers
  client_of_unpack := fun _ _ => embeddedClient_of_unpack
  client_in_order := fun _ all => clientInOrder_eq all

/-- The address of an ISATAP tunnel end at a 6to4 site: the client is that of the site, also if
Teredo is tried first. -/
theorem classification_of_isatap_site :
    (∀ s : ClientScheme, s ∈ [.teredo, .compatible, .sixToFour]) ∧
      (IPv6.mk 0x2002 0xc000 0x0201 1 0 0x5efe 0x0a00 1).isIsatap = true ∧
      (IPv6.mk 0x2002 0xc000 0x0201 1 0 0x5efe 0x0a00 1).embeddedClient = .ok ⟨192, 0, 2, 1⟩ ∧
      clientInOrder [.teredo, .compatible, .sixToFour]
        (IPv6.mk 0x2002 0xc000 0x0201 1 0 0x5efe 0x0a00 1) = .ok ⟨192, 0, 2, 1⟩ := by
  have all : ∀ s : ClientScheme, s ∈ [.teredo, .compatible, .sixToFour] := by
    intro s
    cases s <;> decide
  have client : (IPv6.mk 0x2002 0xc000 0x0201 1 0 0x5efe 0x0a00 1).embeddedClient =
      .ok ⟨192, 0, 2, 1⟩ :=
    classification.client_of_covers _ .sixToFour (by decide)
  refine ⟨all, by decide, client, ?_⟩
  rw [classification.client_in_order _ all, client]

end Groundwork.Address
