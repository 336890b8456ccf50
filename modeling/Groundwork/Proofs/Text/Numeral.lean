import Mathlib.Algebra.Group.Nat.Defs
import Mathlib.Data.List.Basic
import Mathlib.Data.List.Induction
import Groundwork.Text.Digits

/-!
# Numerals

What a numeral is, said without a reader: a digit at the end of a numeral multiplies the number by
the base and adds the value of the digit.

* `Spells digit base s n`: the text `s` is a numeral of `n`.
* `decimalValue?_eq_some_iff`, `hexValue?_eq_some_iff`: the readers of numerals accept exactly the
  numerals.
* `spells_decimal`, `spells_hexadecimal`: the writers of numerals write numerals, and different ones
  for different numbers (`decimal_injective`).
* `Spells.eq_toDigits`: a numeral without leading zeros is the one that is written.
-/

namespace Groundwork.Text

/-! ## Digits -/

/-- `c` is the decimal digit of value `d`, one of `0` to `9`. -/
def DecimalDigit (c : Char) (d : Nat) : Prop :=
  d < 10 ∧ c = Nat.digitChar d

/-- `c` is a hexadecimal digit of value `d`, one of `0` to `9`, `a` to `f` and `A` to `F`. -/
def HexDigit (c : Char) (d : Nat) : Prop :=
  d < 16 ∧ (c = Nat.digitChar d ∨ c = (Nat.digitChar d).toUpper)

/-- `c` is the lowercase hexadecimal digit of value `d`, one of `0` to `9` and `a` to `f`. -/
def LowerHexDigit (c : Char) (d : Nat) : Prop :=
  d < 16 ∧ c = Nat.digitChar d

theorem decimalDigit?_eq_some_iff {c : Char} {d : Nat} :
    decimalDigit? c = some d ↔ DecimalDigit c d := by
  -- the digits have consecutive codes, so that ten cases say it all
  have table : ∀ e < 10, decimalDigit? (Nat.digitChar e) = some e := by decide
  have code : ∀ e < 10, (Nat.digitChar e).toNat = 0x30 + e := by decide
  constructor
  · intro h
    unfold decimalDigit? at h
    split at h
    · rename_i range
      obtain rfl : c.toNat - 0x30 = d := by simpa using h
      have hd : c.toNat - 0x30 < 10 := by omega
      refine ⟨hd, Char.toNat_inj.mp ?_⟩
      rw [code _ hd]
      omega
    · cases h
  · rintro ⟨hd, rfl⟩
    exact table d hd

theorem hexDigit?_eq_some_iff {c : Char} {d : Nat} :
    hexDigit? c = some d ↔ HexDigit c d := by
  -- the sixteen digits, and the codes of the three rows that they stand in
  have upper : ∀ e < 16, hexDigit? (Nat.digitChar e).toUpper = some e := by decide
  have digits : ∀ e < 10, (Nat.digitChar e).toNat = 0x30 + e := by decide
  have small : ∀ e < 6, (Nat.digitChar (e + 10)).toNat = 0x61 + e := by decide
  have capital : ∀ e < 6, (Nat.digitChar (e + 10)).toUpper.toNat = 0x41 + e := by decide
  constructor
  · intro h
    unfold hexDigit? at h
    split at h
    · rename_i range
      obtain rfl : c.toNat - 0x30 = d := by simpa using h
      refine ⟨by omega, Or.inl (Char.toNat_inj.mp ?_)⟩
      rw [digits _ (by omega)]
      omega
    split at h
    · rename_i range
      obtain rfl : c.toNat - 0x61 + 10 = d := by simpa using h
      refine ⟨by omega, Or.inl (Char.toNat_inj.mp ?_)⟩
      rw [small _ (by omega)]
      omega
    split at h
    · rename_i range
      obtain rfl : c.toNat - 0x41 + 10 = d := by simpa using h
      refine ⟨by omega, Or.inr (Char.toNat_inj.mp ?_)⟩
      rw [capital _ (by omega)]
      omega
    · cases h
  · rintro ⟨hd, rfl | rfl⟩
    · exact hexDigit?_digitChar hd
    · exact upper d hd

/-! ## Numerals -/

/-- The text is a numeral of the number: its digits, the most significant first, are those of the
number in the base. -/
inductive Spells (digit : Char → Nat → Prop) (base : Nat) : List Char → Nat → Prop
  | nil : Spells digit base [] 0
  | snoc {s : List Char} {c : Char} {n d : Nat} (init : Spells digit base s n)
      (last : digit c d) : Spells digit base (s ++ [c]) (base * n + d)

/-- Every character of a numeral is a digit. -/
theorem Spells.digit_of_mem {digit : Char → Nat → Prop} {base : Nat} {s : List Char} {n : Nat}
    (h : Spells digit base s n) {c : Char} (hc : c ∈ s) : ∃ d, digit c d := by
  induction h with
  | nil => cases hc
  | snoc init last ih =>
    rcases List.mem_append.mp hc with hc | hc
    · exact ih hc
    · rw [List.mem_singleton.mp hc]
      exact ⟨_, last⟩

/-- A character that is no digit stands in no numeral. -/
theorem Spells.not_mem {digit : Char → Nat → Prop} {base : Nat} {s : List Char} {n : Nat}
    (h : Spells digit base s n) {c : Char} (hc : ∀ d, ¬ digit c d) : c ∉ s := by
  intro mem
  rcases h.digit_of_mem mem with ⟨d, hd⟩
  exact hc d hd

/-- A numeral of `k` digits is below the `k`-th power of the base. -/
theorem Spells.lt_pow {digit : Char → Nat → Prop} {base : Nat} {s : List Char} {n : Nat}
    (h : Spells digit base s n) (hdigit : ∀ c d, digit c d → d < base) :
    n < base ^ s.length := by
  induction h with
  | nil => simp
  | @snoc s c n d init last ih =>
    have hd : d < base := hdigit c d last
    have hn : base * (n + 1) ≤ base * base ^ s.length := Nat.mul_le_mul_left base ih
    rw [List.length_append, List.length_singleton, Nat.pow_succ, Nat.mul_comm (base ^ s.length)]
    rw [Nat.mul_add] at hn
    omega

/-- Reading digit by digit accepts exactly the numerals. -/
theorem map_fromDigits_eq_some_iff {digit : Char → Nat → Prop} {digit? : Char → Option Nat}
    (hdigit : ∀ c d, digit? c = some d ↔ digit c d) {base : Nat} {s : List Char} {n : Nat} :
    (s.mapM digit?).map (fromDigits base) = some n ↔ Spells digit base s n := by
  -- both directions go from the right, as a numeral is built
  constructor
  · intro h
    induction s using List.reverseRecOn generalizing n with
    | nil =>
      obtain rfl : 0 = n := by simpa [fromDigits] using h
      exact .nil
    | append_singleton s c ih =>
      rcases Option.map_eq_some_iff.mp h with ⟨ds, hds, rfl⟩
      simp only [List.mapM_append, List.mapM_cons, List.mapM_nil, Option.bind_eq_bind,
        Option.pure_def, Option.bind_some, Option.bind_eq_some_iff, Option.some.injEq] at hds
      rcases hds with ⟨es, hes, _, ⟨d, hd, rfl⟩, rfl⟩
      have init := ih (n := fromDigits base es) (by rw [hes]; rfl)
      have value : fromDigits base (es ++ [d]) = base * fromDigits base es + d := by
        simp [fromDigits]
      rw [value]
      exact .snoc init ((hdigit c d).mp hd)
  · intro h
    induction h with
    | nil => rfl
    | @snoc s c n d init last ih =>
      rcases Option.map_eq_some_iff.mp ih with ⟨es, hes, rfl⟩
      have hd := (hdigit c d).mpr last
      simp [List.mapM_append, hes, hd, fromDigits]

theorem decimalValue?_eq_some_iff {s : List Char} {n : Nat} :
    decimalValue? s = some n ↔ Spells DecimalDigit 10 s n :=
  map_fromDigits_eq_some_iff fun _ _ => decimalDigit?_eq_some_iff

theorem hexValue?_eq_some_iff {s : List Char} {n : Nat} :
    hexValue? s = some n ↔ Spells HexDigit 16 s n :=
  map_fromDigits_eq_some_iff fun _ _ => hexDigit?_eq_some_iff

/-- The shortest numeral of a number is a numeral of it. -/
theorem spells_toDigits {digit : Char → Nat → Prop} {base : Nat} (hb : 1 < base)
    (hdigit : ∀ d < base, digit (Nat.digitChar d) d) (n : Nat) :
    Spells digit base (Nat.toDigits base n) n := by
  induction n using Nat.strongRecOn with
  | ind n ih =>
    by_cases small : n < base
    · rw [Nat.toDigits_of_lt_base small]
      simpa using Spells.snoc .nil (hdigit n small)
    · -- the last digit is the remainder, the others are those of the quotient
      have shorter : n / base < n := Nat.div_lt_self (by omega) hb
      have last : digit (Nat.digitChar (n % base)) (n % base) :=
        hdigit (n % base) (Nat.mod_lt n (by omega))
      have whole := Spells.snoc (ih (n / base) shorter) last
      rw [Nat.div_add_mod] at whole
      rw [Nat.toDigits_of_base_le hb (by omega)]
      exact whole

theorem spells_decimal (n : Nat) : Spells DecimalDigit 10 (decimal n) n :=
  spells_toDigits (by decide) (fun _ hd => ⟨hd, rfl⟩) n

/-- Numbers with the same decimal numeral are the same. -/
theorem decimal_injective {n m : Nat} (h : decimal n = decimal m) : n = m := by
  have read : decimalValue? (decimal n) = some n := decimalValue?_eq_some_iff.mpr (spells_decimal n)
  rw [h, decimalValue?_eq_some_iff.mpr (spells_decimal m)] at read
  exact (Option.some.inj read).symm

theorem spells_hexadecimal (n : Nat) : Spells HexDigit 16 (hexadecimal n) n :=
  spells_toDigits (by decide) (fun _ hd => ⟨hd, Or.inl rfl⟩) n

/-- Only the numeral of zero begins with a zero. -/
theorem head?_toDigits_ne_zero {base n : Nat} (hb : 1 < base) (hn : 0 < n) :
    (Nat.toDigits base n).head? ≠ some '0' := by
  induction n using Nat.strongRecOn with
  | ind n ih =>
    by_cases small : n < base
    · rw [Nat.toDigits_of_lt_base small]
      simpa using Nat.ne_of_gt hn
    · have shorter : n / base < n := Nat.div_lt_self hn hb
      have more : 0 < n / base := Nat.div_pos (by omega) (by omega)
      rw [Nat.toDigits_of_base_le hb (by omega), List.head?_append_of_ne_nil _ Nat.toDigits_ne_nil]
      exact ih (n / base) shorter more

theorem spells_nil_iff {digit : Char → Nat → Prop} {base n : Nat} :
    Spells digit base [] n ↔ n = 0 := by
  constructor
  · intro h
    generalize hs : ([] : List Char) = s at h
    cases h with
    | nil => rfl
    | snoc init last => simp at hs
  · rintro rfl
    exact .nil

/-- A numeral without leading zeros is the shortest one. -/
theorem Spells.eq_toDigits {digit : Char → Nat → Prop} {base : Nat} (hb : 1 < base)
    (hdigit : ∀ c d, digit c d → d < base ∧ c = Nat.digitChar d) {s : List Char} {n : Nat}
    (h : Spells digit base s n) (nonempty : s ≠ []) (lead : s.head? = some '0' → s = ['0']) :
    s = Nat.toDigits base n := by
  induction h with
  | nil => exact absurd rfl nonempty
  | @snoc s c n d init last ih =>
    rcases hdigit c d last with ⟨hd, rfl⟩
    by_cases only : s = []
    · subst only
      obtain rfl := spells_nil_iff.mp init
      rw [Nat.mul_zero, Nat.zero_add, Nat.toDigits_of_lt_base hd]
      rfl
    · -- more digits follow, so that the first one is not zero, and neither is their number
      have headed : s.head? ≠ some '0' := by
        intro zero
        have whole := lead (by rwa [List.head?_append_of_ne_nil _ only])
        have short := congrArg List.length whole
        rw [List.length_append] at short
        exact only (List.eq_nil_of_length_eq_zero (by simpa using short))
      have hs : s = Nat.toDigits base n := ih only (fun zero => absurd zero headed)
      have pos : 0 < n := by
        apply Nat.pos_of_ne_zero
        rintro rfl
        apply headed
        rw [hs, Nat.toDigits_of_lt_base (by omega)]
        rfl
      rw [← Nat.toDigits_append_toDigits hb pos hd, Nat.toDigits_of_lt_base hd, ← hs]

end Groundwork.Text
