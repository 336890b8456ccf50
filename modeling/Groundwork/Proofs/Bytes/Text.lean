import Groundwork.Bytes.Reader
import Groundwork.Proofs.Bytes.CodeUnits

/-!
# Texts in modified UTF-8

* `characters_eq_ok_iff`: joining surrogates gives a text exactly if the code units are those of the
  text.
* `decode_eq_ok_iff`: bytes spell a text exactly if they are groups that carry its code units.
* `decode_encode`: what was written is read back.
* `text_reads_modifiedUtf8`: reading a text with its length in front, in terms of the grammar of
  groups.
-/

namespace Groundwork.Bytes

namespace ModifiedUtf8

/-! ## Surrogates -/

theorem isHighSurrogate_iff {u : UInt16} :
    isHighSurrogate u = true ↔ 0xd800 ≤ u.toNat ∧ u.toNat < 0xdc00 := by
  simp [isHighSurrogate]

theorem isLowSurrogate_iff {u : UInt16} :
    isLowSurrogate u = true ↔ 0xdc00 ≤ u.toNat ∧ u.toNat < 0xe000 := by
  simp [isLowSurrogate]

/-- A number that is no surrogate is the number of a character. -/
theorem toNat_ofNat {n : Nat} (h : n < 0xd800 ∨ 0xdfff < n ∧ n < 0x110000) :
    (Char.ofNat n).toNat = n := by
  have valid : n.isValidChar := h
  rw [Char.ofNat, dif_pos valid]
  rfl

/-- No character has the number of a surrogate. -/
theorem toNat_cases (c : Char) : c.toNat < 0xd800 ∨ 0xdfff < c.toNat ∧ c.toNat < 0x110000 :=
  c.valid

/-- A code unit that is no surrogate stands for a character by itself. -/
theorem unitsOfChar_ofNat {u : UInt16} (high : ¬ isHighSurrogate u = true)
    (low : ¬ isLowSurrogate u = true) : unitsOfChar (Char.ofNat u.toNat) = [u] := by
  have bound := u.toNat_lt
  rw [isHighSurrogate_iff] at high
  rw [isLowSurrogate_iff] at low
  rw [unitsOfChar, toNat_ofNat (by omega), if_pos (by omega), UInt16.ofNat_toNat]

theorem toNat_pairedChar {high low : UInt16} (hhigh : isHighSurrogate high = true)
    (hlow : isLowSurrogate low = true) : (pairedChar high low).toNat =
      0x10000 + (high.toNat - 0xd800) * 0x400 + (low.toNat - 0xdc00) := by
  rw [isHighSurrogate_iff] at hhigh
  rw [isLowSurrogate_iff] at hlow
  exact toNat_ofNat (by omega)

/-- A pair of surrogates stands for a supplementary character. -/
theorem unitsOfChar_pairedChar {high low : UInt16} (hhigh : isHighSurrogate high = true)
    (hlow : isLowSurrogate low = true) : unitsOfChar (pairedChar high low) = [high, low] := by
  have hc := toNat_pairedChar hhigh hlow
  rw [isHighSurrogate_iff] at hhigh
  rw [isLowSurrogate_iff] at hlow
  have first : UInt16.ofNat (0xd800 + ((pairedChar high low).toNat - 0x10000) / 0x400) = high := by
    apply UInt16.toNat_inj.mp
    rw [UInt16.toNat_ofNat']
    omega
  have second : UInt16.ofNat (0xdc00 + ((pairedChar high low).toNat - 0x10000) % 0x400) = low := by
    apply UInt16.toNat_inj.mp
    rw [UInt16.toNat_ofNat']
    omega
  rw [unitsOfChar, if_neg (by omega), first, second]

/-! ## Characters -/

/-- Text that was made of code units has these code units. -/
theorem flatMap_unitsOfChar_of_characters {units : List CodeUnit} {s : List Char}
    (h : characters units = .ok s) : units.map CodeUnit.value = s.flatMap unitsOfChar := by
  fun_induction characters units generalizing s with
  | case1 =>
    rw [← Except.ok.inj h]
    rfl
  | case2 | case4 | case5 => cases h
  | case3 u high v rest low ih =>
    rcases map_eq_ok_iff.mp h with ⟨more, hmore, rfl⟩
    rw [List.map_cons, List.map_cons, List.flatMap_cons, unitsOfChar_pairedChar high low, ih hmore]
    rfl
  | case6 u rest high low ih =>
    rcases map_eq_ok_iff.mp h with ⟨more, hmore, rfl⟩
    rw [List.map_cons, List.flatMap_cons, unitsOfChar_ofNat high low, ih hmore]
    rfl

/-- The character at the front is taken off with its code units. -/
theorem characters_append {c : Char} {units : List CodeUnit}
    (h : units.map CodeUnit.value = unitsOfChar c) (rest : List CodeUnit) :
    characters (units ++ rest) = (characters rest).map (c :: ·) := by
  have valid := toNat_cases c
  unfold unitsOfChar at h
  split at h
  · rename_i basic
    rcases List.map_eq_singleton_iff.mp h with ⟨u, rfl, hu⟩
    have value : u.value.toNat = c.toNat := by
      rw [hu, UInt16.toNat_ofNat']
      omega
    have high : ¬ isHighSurrogate u.value = true := by
      rw [isHighSurrogate_iff]
      omega
    have low : ¬ isLowSurrogate u.value = true := by
      rw [isLowSurrogate_iff]
      omega
    show characters (u :: rest) = _
    rw [characters.eq_def]
    dsimp only
    rw [if_neg high, if_neg low, value, Char.ofNat_toNat]
  · rename_i supplementary
    rcases List.map_eq_cons_iff.mp h with ⟨u, units, rfl, hu, h⟩
    rcases List.map_eq_singleton_iff.mp h with ⟨v, rfl, hv⟩
    have hunat : u.value.toNat = 0xd800 + (c.toNat - 0x10000) / 0x400 := by
      rw [hu, UInt16.toNat_ofNat']
      omega
    have hvnat : v.value.toNat = 0xdc00 + (c.toNat - 0x10000) % 0x400 := by
      rw [hv, UInt16.toNat_ofNat']
      omega
    have high : isHighSurrogate u.value = true := by
      rw [isHighSurrogate_iff]
      omega
    have low : isLowSurrogate v.value = true := by
      rw [isLowSurrogate_iff]
      omega
    have paired : pairedChar u.value v.value = c := by
      apply Char.toNat_inj.mp
      rw [toNat_pairedChar high low]
      omega
    show characters (u :: v :: rest) = _
    rw [characters.eq_def]
    dsimp only
    rw [if_pos high, if_pos low, paired]

/-- Code units of a text give the text. -/
theorem characters_of_flatMap_unitsOfChar {units : List CodeUnit} {s : List Char}
    (h : units.map CodeUnit.value = s.flatMap unitsOfChar) : characters units = .ok s := by
  induction s generalizing units with
  | nil =>
    rw [List.map_eq_nil_iff.mp h]
    rfl
  | cons c s ih =>
    rw [List.flatMap_cons] at h
    rcases List.map_eq_append_iff.mp h with ⟨front, rest, rfl, hfront, hrest⟩
    rw [characters_append hfront, ih hrest]
    rfl

/-- Joining surrogates gives a text exactly if the code units are those of the text. -/
theorem characters_eq_ok_iff {units : List CodeUnit} {s : List Char} :
    characters units = .ok s ↔ units.map CodeUnit.value = s.flatMap unitsOfChar := by
  constructor
  · exact flatMap_unitsOfChar_of_characters
  · exact characters_of_flatMap_unitsOfChar

/-! ## Texts -/

/-- Bytes spell a text exactly if they are groups that carry its code units. -/
theorem decode_eq_ok_iff {bytes : List UInt8} {s : List Char} :
    decode bytes = .ok s ↔ Groups bytes (s.flatMap unitsOfChar) := by
  rw [← codeUnits_values_iff 0]
  unfold decode
  constructor
  · intro h
    split at h
    · rename_i units hunits
      exact ⟨units, hunits, characters_eq_ok_iff.mp h⟩
    · cases h
  · rintro ⟨units, hunits, hvalues⟩
    rw [hunits]
    exact characters_eq_ok_iff.mpr hvalues

/-- What was written is read back. -/
theorem decode_encode (s : List Char) : decode (encode s) = .ok s := by
  rw [decode_eq_ok_iff]
  exact groups_flatMap_groupOfUnit _

/-- The UTF-16 code units of a text. -/
def utf16 (s : String) : List UInt16 :=
  s.toList.flatMap unitsOfChar

end ModifiedUtf8

/-! ## Texts with their length in front -/

namespace Reader

open ModifiedUtf8

theorem take_eq_ok {r : Reader} {n : Nat} (enough : n ≤ r.remaining) :
    r.take n = .ok (r.rest.take n, r.advance n) := by
  rw [Reader.take, if_neg (by omega)]

/-- Reading a text that is there in full is decoding its bytes. -/
theorem text_eq {r : Reader} {n : Nat} (length : bigEndianValue (r.rest.take 2) = n)
    (enough : 2 + n ≤ r.remaining) : r.text =
      match decode ((r.rest.drop 2).take n) with
      | .ok s => .ok (String.ofList s, r.advance (2 + n))
      | .error offset => .error (.malformedText (r.position + 2 + offset)) := by
  have body : n ≤ (r.advance 2).remaining := by
    simp only [Reader.advance, Reader.remaining, List.length_drop] at enough ⊢
    omega
  have after : (r.advance 2).advance n = r.advance (2 + n) := by
    simp only [Reader.advance, List.drop_drop, Nat.add_assoc]
  rw [Reader.text, take_eq_ok (by omega)]
  dsimp only
  rw [length, take_eq_ok body]
  dsimp only
  rw [after]
  rfl

/-- Where a length stands in front of as many bytes, a text is read exactly if these bytes are
groups that carry its code units, and the reader is then behind them. In particular, what was
written is read back, whatever follows it. -/
theorem text_reads_modifiedUtf8 :
    (∀ (bytes : List UInt8) (p n : Nat), bigEndianValue ((bytes.drop p).take 2) = n →
      p + 2 + n ≤ bytes.length → ∀ (s : String) (r : Reader),
        Reader.text ⟨p, bytes.drop p⟩ = .ok (s, r) ↔
          Groups ((bytes.drop (p + 2)).take n) (utf16 s) ∧
            r = ⟨p + 2 + n, bytes.drop (p + 2 + n)⟩) ∧
    (∀ (s : String) (p : Nat) (after : List UInt8), (encode s.toList).length ≤ 65535 →
      Reader.text ⟨p, bigEndian 2 (encode s.toList).length ++ encode s.toList ++ after⟩ =
        .ok (s, ⟨p + 2 + (encode s.toList).length, after⟩)) := by
  constructor
  · intro bytes p n length enough s r
    have remaining : 2 + n ≤ (Reader.mk p (bytes.drop p)).remaining := by
      simp only [Reader.remaining, List.length_drop]
      omega
    have after : (Reader.mk p (bytes.drop p)).advance (2 + n) =
        ⟨p + 2 + n, bytes.drop (p + 2 + n)⟩ := by
      simp only [Reader.advance, List.drop_drop, Nat.add_assoc]
    have body : (bytes.drop p).drop 2 = bytes.drop (p + 2) := List.drop_drop
    rw [text_eq length remaining, after, body, utf16, ← decode_eq_ok_iff]
    constructor
    · intro h
      split at h
      · rename_i t decoded
        rcases Prod.mk.inj (Except.ok.inj h) with ⟨rfl, rfl⟩
        rw [String.toList_ofList]
        exact ⟨decoded, rfl⟩
      · cases h
    · rintro ⟨decoded, rfl⟩
      rw [decoded]
      dsimp only
      rw [String.ofList_toList]
  · intro s p after short
    rw [List.append_assoc]
    have width : (bigEndian 2 (encode s.toList).length).length = 2 := length_bigEndian 2 _
    have length : bigEndianValue
        ((bigEndian 2 (encode s.toList).length ++ (encode s.toList ++ after)).take 2) =
          (encode s.toList).length := by
      rw [List.take_left' width, bigEndianValue_bigEndian]
      omega
    rw [text_eq length (by simp [Reader.remaining]), List.drop_left' width, List.take_left,
      decode_encode]
    dsimp only
    rw [String.ofList_toList, Reader.advance, ← List.drop_drop, List.drop_left' width,
      List.drop_left, Nat.add_assoc]

/-- An overlong group and a pair of surrogates are read, and a zero is written in two bytes. -/
theorem text_reads_overlong_and_pair :
    Reader.text ⟨1, [0, 8, 0xc1, 0xa1, 0xed, 0xa0, 0xbd, 0xed, 0xb8, 0x80, 7]⟩ =
        .ok ("a😀", ⟨11, [7]⟩) ∧
      Reader.text ⟨0, [0, 2, 0xc0, 0x80, 5]⟩ = .ok ("\x00", ⟨4, [5]⟩) := by
  constructor
  · have units : utf16 "a😀" = [0x61, 0xd83d, 0xde00] := by decide +kernel
    have groups : Groups [0xc1, 0xa1, 0xed, 0xa0, 0xbd, 0xed, 0xb8, 0x80] (utf16 "a😀") := by
      rw [units, ← codeUnits_values_iff 0]
      exact ⟨[⟨0x61, 0⟩, ⟨0xd83d, 2⟩, ⟨0xde00, 5⟩], rfl, rfl⟩
    exact (text_reads_modifiedUtf8.1
      [0xff, 0, 8, 0xc1, 0xa1, 0xed, 0xa0, 0xbd, 0xed, 0xb8, 0x80, 7] 1 8 (by decide) (by decide)
      "a😀" ⟨11, [7]⟩).mpr ⟨groups, rfl⟩
  · have bytes : encode "\x00".toList = [0xc0, 0x80] := by decide +kernel
    have read := text_reads_modifiedUtf8.2 "\x00" 0 [5] (by rw [bytes]; decide)
    rw [bytes] at read
    exact read

end Reader

end Groundwork.Bytes
