import Groundwork.Proofs.Address.Classification
import Groundwork.Proofs.Address.RoundTrip

/-!
# Putting IPv4 addresses in and taking them out

`IPv6.compatible` and `IPv6.sixToFour` put an IPv4 address into an IPv6 address, `compatibleIPv4`
and `sixToFourIPv4` take one out.

* `bytes_compatible`, `bytes_sixToFour`: where the bytes of the IPv4 address stand.
* `isCompatible_compatible_iff`: `0.0.0.0` and `0.0.0.1` make `::` and `::1`, which count as other
  addresses.
* `ofLiteral_colons_text`: a dotted quad behind `::` makes the same IPv6 address.
* `embedding`: both ways undo each other, but for what 6to4 addresses have behind the site.
-/

namespace Groundwork.Address

open Groundwork.Text Groundwork.Bytes

/-! ## Bytes -/

theorem bytes_compatible (v : IPv4) :
    (IPv6.compatible v).bytes = List.replicate 12 0 ++ v.bytes := by
  have zeros : List.replicate 12 (0 : UInt8) =
      (List.replicate 6 (0 : UInt16)).flatMap fun g => [highByte g, lowByte g] := by decide
  rw [bytes_high_low, zeros]
  rfl

theorem bytes_sixToFour (v : IPv4) :
    (IPv6.sixToFour v).bytes = [0x20, 0x02] ++ v.bytes ++ List.replicate 10 0 := by
  have front : [0x20, 0x02] = [highByte 0x2002, lowByte 0x2002] := by decide
  have zeros : List.replicate 10 (0 : UInt8) =
      (List.replicate 5 (0 : UInt16)).flatMap fun g => [highByte g, lowByte g] := by decide
  rw [bytes_high_low, front, zeros]
  rfl

theorem IPv4.bytes_injective {v w : IPv4} (h : v.bytes = w.bytes) : v = w := by
  have same : IPv4.ofBytes? v.bytes = IPv4.ofBytes? w.bytes := by rw [h]
  rw [IPv4.ofBytes?_bytes, IPv4.ofBytes?_bytes] at same
  exact Option.some.inj same

theorem IPv6.bytes_injective {v w : IPv6} (h : v.bytes = w.bytes) : v = w := by
  have same : IPv6.ofBytes? v.bytes = IPv6.ofBytes? w.bytes := by rw [h]
  rw [IPv6.ofBytes?_bytes, IPv6.ofBytes?_bytes] at same
  exact Option.some.inj same

/-! ## IPv4-compatible addresses -/

/-- The IPv4 addresses that would stand in `::` and `::1`. -/
def IPv4.Excluded (v : IPv4) : Prop :=
  v = ⟨0, 0, 0, 0⟩ ∨ v = ⟨0, 0, 0, 1⟩

instance (v : IPv4) : Decidable v.Excluded :=
  inferInstanceAs (Decidable (v = ⟨0, 0, 0, 0⟩ ∨ v = ⟨0, 0, 0, 1⟩))

theorem isCompatible_compatible_iff (v : IPv4) :
    (IPv6.compatible v).isCompatible = true ↔ ¬ v.Excluded := by
  have front : (IPv6.compatible v).bytes.take 12 = List.replicate 12 0 := by
    rw [bytes_compatible]
    exact List.take_left' List.length_replicate
  have back : (IPv6.compatible v).bytes.drop 12 = v.bytes := by
    rw [bytes_compatible]
    exact List.drop_left' List.length_replicate
  have zero : v.bytes = [0, 0, 0, 0] ↔ v = ⟨0, 0, 0, 0⟩ :=
    ⟨fun h => IPv4.bytes_injective h, fun h => by rw [h]; rfl⟩
  have one : v.bytes = [0, 0, 0, 1] ↔ v = ⟨0, 0, 0, 1⟩ :=
    ⟨fun h => IPv4.bytes_injective h, fun h => by rw [h]; rfl⟩
  rw [isCompatible_iff, front, back, Ne, zero, Ne, one, IPv4.Excluded, not_or]
  exact and_iff_right rfl

theorem lastFour_compatible (v : IPv4) : (IPv6.compatible v).lastFour = v :=
  IPv4.ofWords_high_low v

theorem compatibleIPv4_compatible (v : IPv4) : (IPv6.compatible v).compatibleIPv4 =
    if v.Excluded then .error (.notCompatible (IPv6.compatible v)) else .ok v := by
  rw [IPv6.compatibleIPv4, lastFour_compatible]
  by_cases excluded : v.Excluded
  · have outside : ¬ (IPv6.compatible v).isCompatible = true := by
      rw [isCompatible_compatible_iff]
      exact not_not.mpr excluded
    rw [if_neg outside, if_pos excluded]
  · rw [if_pos ((isCompatible_compatible_iff v).mpr excluded), if_neg excluded]

/-- What is taken out of an IPv4-compatible address makes the same address. -/
theorem compatible_lastFour {a : IPv6} (h : a.isCompatible = true) :
    IPv6.compatible a.lastFour = a := by
  have front : a.bytes.take 12 = List.replicate 12 0 := ((isCompatible_iff a).mp h).1
  have back : a.lastFour.bytes = a.bytes.drop 12 := rfl
  apply IPv6.bytes_injective
  rw [bytes_compatible, back, ← front, List.take_append_drop]

/-! ## 6to4 addresses -/

theorem isSixToFour_sixToFour (v : IPv4) : (IPv6.sixToFour v).isSixToFour = true := by
  rw [isSixToFour_iff, bytes_sixToFour]
  rfl

theorem sixToFourIPv4_sixToFour (v : IPv4) : (IPv6.sixToFour v).sixToFourIPv4 = .ok v := by
  have taken : IPv4.ofWords (IPv6.sixToFour v).g1 (IPv6.sixToFour v).g2 = v :=
    IPv4.ofWords_high_low v
  rw [IPv6.sixToFourIPv4, if_pos (isSixToFour_sixToFour v), taken]

/-- What is taken out of a 6to4 address makes an address with the same first six bytes, and zeros
behind them. -/
theorem bytes_sixToFour_ofWords {a : IPv6} (h : a.isSixToFour = true) :
    (IPv6.sixToFour (IPv4.ofWords a.g1 a.g2)).bytes = a.bytes.take 6 ++ List.replicate 10 0 := by
  have front : a.bytes.take 2 = [0x20, 0x02] := (isSixToFour_iff a).mp h
  have site : (IPv4.ofWords a.g1 a.g2).bytes = (a.bytes.drop 2).take 4 := rfl
  have six : a.bytes.take 6 = a.bytes.take 2 ++ (a.bytes.drop 2).take 4 := rfl
  rw [bytes_sixToFour, site, ← front, six]

/-! ## The client -/

/-- The addresses `::` and `::1` belong to no scheme. -/
theorem not_covers_of_excluded {v : IPv4} (excluded : v.Excluded) (s : ClientScheme) :
    ¬ s.covers (IPv6.compatible v) = true := by
  intro h
  have first : 0 = s.firstGroup := ClientScheme.g0_of_covers h
  cases s with
  | compatible => exact (isCompatible_compatible_iff v).mp h excluded
  | sixToFour => exact absurd first (by decide)
  | teredo => exact absurd first (by decide)

theorem embeddedClient_compatible (v : IPv4) : (IPv6.compatible v).embeddedClient =
    if v.Excluded then .error (.nothingEmbedded (IPv6.compatible v)) else .ok v := by
  by_cases excluded : v.Excluded
  · rw [if_pos excluded, embeddedClient_of_none (not_covers_of_excluded excluded)]
  · have belongs : ClientScheme.compatible.covers (IPv6.compatible v) = true :=
      (isCompatible_compatible_iff v).mpr excluded
    have client : ClientScheme.compatible.client (IPv6.compatible v) = .ok v := by
      have taken := compatibleIPv4_compatible v
      rwa [if_neg excluded] at taken
    rw [if_neg excluded, embeddedClient_of_covers belongs, client]

theorem embeddedClient_sixToFour (v : IPv4) : (IPv6.sixToFour v).embeddedClient = .ok v := by
  have belongs : ClientScheme.sixToFour.covers (IPv6.sixToFour v) = true := isSixToFour_sixToFour v
  have client : ClientScheme.sixToFour.client (IPv6.sixToFour v) = .ok v :=
    sixToFourIPv4_sixToFour v
  rw [embeddedClient_of_covers belongs, client]

/-! ## Texts -/

/-- A dotted quad behind `::` is a literal of the IPv4-compatible address. -/
theorem ofLiteral_colons_text (v : IPv4) :
    ofLiteral ("::" ++ (Address.v4 v).text) = .ok (.v6 (IPv6.compatible v)) := by
  have quad : (Address.v4 v).text.toList = v.chars := String.toList_ofList
  have chars : ("::" ++ (Address.v4 v).text).toList = ':' :: ':' :: v.chars := by
    rw [String.toList_append, quad]
    rfl
  have form : ColonForm (':' :: ':' :: v.chars) (IPv6.compatible v).groups :=
    colonForm_of_colons rfl (quad_chars v)
  have value : NormalForm (IPv6.compatible v).groups (.v6 (IPv6.compatible v)) := by
    rw [normalForm_groups_iff, unmapped_of_isMapped_eq_false (isMapped_compatible v)]
  rw [ofLiteral_eq_ok_iff, chars]
  exact .colon form value

/-! ## There and back -/

/-- That an IPv4 address is taken out as it was put in, and the other way round. -/
structure Embedding : Prop where
  /-- Where the bytes of the IPv4 address stand. -/
  bytes_compatible : ∀ v : IPv4,
    (IPv6.compatible v).bytes = List.replicate 12 0 ++ v.bytes
  bytes_sixToFour : ∀ v : IPv4,
    (IPv6.sixToFour v).bytes = [0x20, 0x02] ++ v.bytes ++ List.replicate 10 0
  /-- Only `0.0.0.0` and `0.0.0.1` are not taken out of an IPv4-compatible address. -/
  compatible : ∀ v : IPv4, (IPv6.compatible v).compatibleIPv4 =
    if v = ⟨0, 0, 0, 0⟩ ∨ v = ⟨0, 0, 0, 1⟩ then .error (.notCompatible (IPv6.compatible v))
    else .ok v
  sixToFour : ∀ v : IPv4, (IPv6.sixToFour v).sixToFourIPv4 = .ok v
  /-- Nor are they the clients there. -/
  client_compatible : ∀ v : IPv4, (IPv6.compatible v).embeddedClient =
    if v = ⟨0, 0, 0, 0⟩ ∨ v = ⟨0, 0, 0, 1⟩ then .error (.nothingEmbedded (IPv6.compatible v))
    else .ok v
  client_sixToFour : ∀ v : IPv4, (IPv6.sixToFour v).embeddedClient = .ok v
  /-- The text with `::` in front of the dotted quad is read as the IPv4-compatible address. -/
  literal : ∀ v : IPv4,
    ofLiteral ("::" ++ (Address.v4 v).text) = .ok (.v6 (IPv6.compatible v))
  /-- What is taken out of an address makes the address again. -/
  compatible_again : ∀ a : IPv6, a.isCompatible = true →
    ∃ q, a.compatibleIPv4 = .ok q ∧ IPv6.compatible q = a
  /-- With 6to4, the bytes behind the site become zero. -/
  sixToFour_again : ∀ a : IPv6, a.isSixToFour = true →
    ∃ q, a.sixToFourIPv4 = .ok q ∧
      (IPv6.sixToFour q).bytes = a.bytes.take 6 ++ List.replicate 10 0

/-- Putting an IPv4 address into an IPv6 address and taking it out undo each other, in bytes and in
text, for all addresses of both families. -/
theorem embedding : Embedding where
  bytes_compatible := bytes_compatible
  bytes_sixToFour := bytes_sixToFour
  compatible := compatibleIPv4_compatible
  sixToFour := sixToFourIPv4_sixToFour
  client_compatible := embeddedClient_compatible
  client_sixToFour := embeddedClient_sixToFour
  literal := ofLiteral_colons_text
  compatible_again := fun a h => ⟨a.lastFour, if_pos h, compatible_lastFour h⟩
  sixToFour_again := fun a h => ⟨IPv4.ofWords a.g1 a.g2, if_pos h, bytes_sixToFour_ofWords h⟩

/-- A 6to4 address with a subnet and an interface behind its site. -/
theorem embedding_of_site_with_subnet :
    (IPv6.mk 0x2002 0xc000 0x0201 0x17 0 0 0 1).isSixToFour = true ∧
      ∃ q, (IPv6.mk 0x2002 0xc000 0x0201 0x17 0 0 0 1).sixToFourIPv4 = .ok q ∧
        (IPv6.sixToFour q).bytes =
          [0x20, 0x02, 192, 0, 2, 1, 0, 0, 0, 0, 0, 0, 0, 0, 0, 0] := by
  have scheme : (IPv6.mk 0x2002 0xc000 0x0201 0x17 0 0 0 1).isSixToFour = true := by decide
  rcases embedding.sixToFour_again _ scheme with ⟨q, taken, bytes⟩
  refine ⟨scheme, q, taken, ?_⟩
  rw [bytes]
  decide

end Groundwork.Address
