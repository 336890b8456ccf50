import Groundwork.Address.Basic
import Groundwork.Proofs.Text.Numeral

/-!
# The grammar of address literals

Which texts are address literals, and which address each of them stands for, said by the way a
text is put together and without a reader.

* `Quad`: four octets with dots between them.
* `Groups`: hexadecimal groups with colons between them, the last two of which may be written as a
  dotted quad; `Side` is one side of `::`, where there may be none.
* `ColonForm`: eight groups, or fewer around one `::`.
* `NormalForm`: the address of eight groups, which is an IPv4 address in `::ffff:0:0/96`.
* `Literal`: the two forms of a literal together.
-/

namespace Groundwork.Address

open Groundwork.Text

/-! ## Dotted quads -/

/-- An octet: `0`, or one to three decimal digits without a leading zero, of a value below 256. -/
inductive Octet : List Char → UInt8 → Prop
  | zero : Octet ['0'] 0
  | digits {s : List Char} {b : UInt8} (one_le : 1 ≤ s.length) (le_three : s.length ≤ 3)
      (lead : s.head? ≠ some '0') (value : Spells DecimalDigit 10 s b.toNat) : Octet s b

/-- A dotted quad: the four bytes of an address as octets with a dot between neighbours. -/
inductive Quad : List Char → IPv4 → Prop
  | mk {p q r t : List Char} {a b c d : UInt8} (first : Octet p a) (second : Octet q b)
      (third : Octet r c) (fourth : Octet t d) :
      Quad (p ++ '.' :: (q ++ '.' :: (r ++ '.' :: t))) ⟨a, b, c, d⟩

/-! ## Groups -/

/-- A group: one to four hexadecimal digits of either case. -/
structure Group (s : List Char) (g : UInt16) : Prop where
  one_le : 1 ≤ s.length
  le_four : s.length ≤ 4
  value : Spells HexDigit 16 s g.toNat

/-- The two groups of four bytes, the first byte of each the more significant. -/
def quadGroups (v : IPv4) : List UInt16 :=
  [UInt16.ofNat (256 * v.a.toNat + v.b.toNat), UInt16.ofNat (256 * v.c.toNat + v.d.toNat)]

/-- Groups with a colon between neighbours; with `quad`, a dotted quad may stand for the last
two. -/
inductive Groups (quad : Bool) : List Char → List UInt16 → Prop
  | last {s : List Char} {g : UInt16} (group : Group s g) : Groups quad s [g]
  | quad {s : List Char} {v : IPv4} (allowed : quad = true) (dotted : Quad s v) :
      Groups quad s (quadGroups v)
  | cons {s t : List Char} {g : UInt16} {gs : List UInt16} (group : Group s g)
      (rest : Groups quad t gs) : Groups quad (s ++ ':' :: t) (g :: gs)

/-- One side of `::`: no group at all, or groups. -/
inductive Side (quad : Bool) : List Char → List UInt16 → Prop
  | empty : Side quad [] []
  | groups {s : List Char} {gs : List UInt16} (h : Groups quad s gs) : Side quad s gs

/-- The text of eight groups: all of them, or at most seven on the sides of a `::` that stands for
as many zero groups as are missing. -/
inductive ColonForm : List Char → List UInt16 → Prop
  | full {s : List Char} {gs : List UInt16} (h : Groups true s gs) (count : gs.length = 8) :
      ColonForm s gs
  | compressed {s t : List Char} {gs hs : List UInt16} (left : Side false s gs)
      (right : Side true t hs) (count : gs.length + hs.length ≤ 7) :
      ColonForm (s ++ ':' :: ':' :: t)
        (gs ++ List.replicate (8 - (gs.length + hs.length)) 0 ++ hs)

/-! ## Literals -/

/-- The address of eight groups. If the first eighty bits are zero and the next sixteen are ones,
it is the IPv4 address of the last two groups. -/
inductive NormalForm : List UInt16 → Address → Prop
  | mapped (v : IPv4) : NormalForm ([0, 0, 0, 0, 0, 0xffff] ++ quadGroups v) (.v4 v)
  | plain (v : IPv6) (h : v.groups.take 6 ≠ [0, 0, 0, 0, 0, 0xffff]) : NormalForm v.groups (.v6 v)

/-- The text is a literal of the address. -/
inductive Literal : List Char → Address → Prop
  | quad {s : List Char} {v : IPv4} (dotted : Quad s v) : Literal s (.v4 v)
  | colon {s : List Char} {gs : List UInt16} {a : Address} (form : ColonForm s gs)
      (value : NormalForm gs a) : Literal s a

/-! ## Which characters stand where -/

theorem decimalDigit?_of_hexDigit? {c : Char} (h : hexDigit? c = none) :
    decimalDigit? c = none := by
  cases hd : decimalDigit? c with
  | none => rfl
  | some d =>
    rw [hexDigit?_of_decimalDigit? hd] at h
    cases h

theorem Octet.not_mem {s : List Char} {b : UInt8} (h : Octet s b) {c : Char}
    (hc : decimalDigit? c = none) : c ∉ s := by
  have nodigit : ∀ d, ¬ DecimalDigit c d := by
    intro d hd
    rw [decimalDigit?_eq_some_iff.mpr hd] at hc
    cases hc
  cases h with
  | zero =>
    intro mem
    rw [List.mem_singleton.mp mem] at hc
    cases hc
  | digits one_le le_three lead value => exact value.not_mem nodigit

theorem Group.not_mem {s : List Char} {g : UInt16} (h : Group s g) {c : Char}
    (hc : hexDigit? c = none) : c ∉ s := by
  apply h.value.not_mem
  intro d hd
  rw [hexDigit?_eq_some_iff.mpr hd] at hc
  cases hc

theorem Quad.colon_not_mem {s : List Char} {v : IPv4} (h : Quad s v) : ':' ∉ s := by
  cases h with
  | mk first second third fourth =>
    simp [first.not_mem (c := ':') rfl, second.not_mem (c := ':') rfl,
      third.not_mem (c := ':') rfl, fourth.not_mem (c := ':') rfl]

theorem Quad.dot_mem {s : List Char} {v : IPv4} (h : Quad s v) : '.' ∈ s := by
  cases h with
  | mk first second third fourth => simp

theorem Octet.ne_nil {s : List Char} {b : UInt8} (h : Octet s b) : s ≠ [] := by
  cases h with
  | zero => simp
  | digits one_le le_three lead value =>
    intro empty
    simp [empty] at one_le

theorem Group.ne_nil {s : List Char} {g : UInt16} (h : Group s g) : s ≠ [] := by
  intro empty
  simpa [empty] using h.one_le

theorem Quad.ne_nil {s : List Char} {v : IPv4} (h : Quad s v) : s ≠ [] :=
  List.ne_nil_of_mem h.dot_mem

theorem Quad.not_mem {s : List Char} {v : IPv4} (h : Quad s v) {c : Char}
    (hc : decimalDigit? c = none) (dot : c ≠ '.') : c ∉ s := by
  cases h with
  | mk first second third fourth =>
    simp [first.not_mem hc, second.not_mem hc, third.not_mem hc, fourth.not_mem hc, dot]

theorem Groups.not_mem {quad : Bool} {s : List Char} {gs : List UInt16} (h : Groups quad s gs)
    {c : Char} (hc : hexDigit? c = none) (dot : c ≠ '.') (colon : c ≠ ':') : c ∉ s := by
  induction h with
  | last group => exact group.not_mem hc
  | quad allowed dotted => exact dotted.not_mem (decimalDigit?_of_hexDigit? hc) dot
  | cons group rest ih => simp [group.not_mem hc, colon, ih]

theorem Side.not_mem {quad : Bool} {s : List Char} {gs : List UInt16} (h : Side quad s gs)
    {c : Char} (hc : hexDigit? c = none) (dot : c ≠ '.') (colon : c ≠ ':') : c ∉ s := by
  cases h with
  | empty => simp
  | groups h => exact h.not_mem hc dot colon

theorem ColonForm.not_mem {s : List Char} {gs : List UInt16} (h : ColonForm s gs)
    {c : Char} (hc : hexDigit? c = none) (dot : c ≠ '.') (colon : c ≠ ':') : c ∉ s := by
  cases h with
  | full h count => exact h.not_mem hc dot colon
  | compressed left right count =>
    simp [left.not_mem hc dot colon, right.not_mem hc dot colon, colon]

/-- Hexadecimal digits, dots and colons are the only characters of a literal. -/
theorem Literal.not_mem {s : List Char} {a : Address} (h : Literal s a)
    {c : Char} (hc : hexDigit? c = none) (dot : c ≠ '.') (colon : c ≠ ':') : c ∉ s := by
  cases h with
  | quad dotted => exact dotted.not_mem (decimalDigit?_of_hexDigit? hc) dot
  | colon form value => exact form.not_mem hc dot colon

/-- Groups begin with a character other than a colon. -/
theorem Groups.exists_cons {quad : Bool} {s : List Char} {gs : List UInt16}
    (h : Groups quad s gs) : ∃ c rest, s = c :: rest ∧ c ≠ ':' := by
  have of_not_mem : ∀ {t : List Char}, t ≠ [] → ':' ∉ t →
      ∃ c rest, t = c :: rest ∧ c ≠ ':' := by
    intro t nonempty nocolon
    rcases List.exists_cons_of_ne_nil nonempty with ⟨c, rest, rfl⟩
    refine ⟨c, rest, rfl, ?_⟩
    intro hc
    exact nocolon (by simp [hc])
  cases h with
  | last group => exact of_not_mem group.ne_nil (group.not_mem rfl)
  | quad allowed dotted => exact of_not_mem dotted.ne_nil dotted.colon_not_mem
  | cons group rest =>
    rcases of_not_mem group.ne_nil (group.not_mem rfl) with ⟨c, more, rfl, hc⟩
    exact ⟨c, _, rfl, hc⟩

end Groundwork.Address
