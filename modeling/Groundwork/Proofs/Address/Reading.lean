import Mathlib.Data.List.Forall2
import Groundwork.Address.Literal
import Groundwork.Proofs.Address.Grammar
import Groundwork.Proofs.Text.Cutting

/-!
# Reading address literals

The reader against the grammar, one lemma for each function of the reader.

* `octet?_eq_some_iff`, `dottedQuad?_eq_some_iff`, `hexGroup?_eq_some_iff`, `section?_eq_some_iff`
  and `colonForm?_eq_some_iff`: each part of a literal is read exactly if the grammar has it.
* `shortForm_of_quadForm?`, `literal_of_quadForm?`: what the short way to dotted quads reads, and
  that these are no other literals.
* `ofChars?_eq_some_iff`: a text is read as an address exactly if it is a literal of it.
* `ofLiteral_reads_the_grammar`: the same with the answer for all other texts.
-/

namespace Groundwork.Address

open Groundwork.Text Groundwork.Bytes

/-! ## Dotted quads -/

theorem octet?_eq_some_iff {s : List Char} {b : UInt8} : octet? s = some b ↔ Octet s b := by
  constructor
  · intro h
    unfold octet? at h
    split at h
    · cases h
    rename_i shape
    simp only [not_or, not_and, not_not] at shape
    rcases shape with ⟨nonempty, short, lead⟩
    split at h
    · rename_i n hn
      split at h
      · rename_i small
        obtain rfl : UInt8.ofNat n = b := by simpa using h
        have value : (UInt8.ofNat n).toNat = n := by
          rw [UInt8.toNat_ofNat']
          omega
        by_cases zero : s = ['0']
        · -- the only numeral that may begin with a zero
          subst zero
          obtain rfl : 0 = n := Option.some.inj hn
          exact .zero
        · refine .digits (List.length_pos_of_ne_nil nonempty) (by omega) ?_ ?_
          · intro head
            exact zero (lead head)
          · rw [value]
            exact decimalValue?_eq_some_iff.mp hn
      · cases h
    · cases h
  · intro h
    cases h with
    | zero => rfl
    | digits one_le le_three lead value =>
      have nonempty : s ≠ [] := by
        intro empty
        simp [empty] at one_le
      have short : ¬ 3 < s.length := by omega
      have small : b.toNat ≤ 255 := by
        have := b.toNat_lt
        omega
      rw [octet?, if_neg (by simp [nonempty, short, lead]), decimalValue?_eq_some_iff.mpr value]
      simp [small]

/-- A list is read as a whole exactly if its elements are read one by one. -/
theorem mapM_eq_some_iff {α β : Type} {f : α → Option β} {l : List α} {bs : List β} :
    l.mapM f = some bs ↔ List.Forall₂ (fun a b => f a = some b) l bs := by
  induction l generalizing bs with
  | nil =>
    rw [List.forall₂_nil_left_iff]
    simp [eq_comm]
  | cons a l ih =>
    rw [List.forall₂_cons_left_iff]
    simp only [List.mapM_cons, Option.bind_eq_bind, Option.bind_eq_some_iff, Option.pure_def,
      Option.some.injEq, ih]
    constructor
    · rintro ⟨b, hb, cs, hcs, rfl⟩
      exact ⟨b, cs, hb, hcs, rfl⟩
    · rintro ⟨b, cs, hb, hcs, rfl⟩
      exact ⟨b, hb, cs, hcs, rfl⟩

theorem dottedQuad?_eq_some_iff {s : List Char} {v : IPv4} :
    dottedQuad? s = some v ↔ Quad s v := by
  constructor
  · intro h
    unfold dottedQuad? at h
    split at h
    · rename_i a b c d hparts
      obtain rfl : (⟨a, b, c, d⟩ : IPv4) = v := by simpa using h
      have whole := joined_pieces '.' s
      generalize pieces '.' s = ps at hparts whole
      obtain _ | ⟨ha, _ | ⟨hb, _ | ⟨hc, _ | ⟨hd, _ | _⟩⟩⟩⟩ := mapM_eq_some_iff.mp hparts
      rw [← whole]
      exact .mk (octet?_eq_some_iff.mp ha) (octet?_eq_some_iff.mp hb)
        (octet?_eq_some_iff.mp hc) (octet?_eq_some_iff.mp hd)
    · cases h
  · rintro ⟨first, second, third, fourth⟩
    rw [dottedQuad?, pieces_append (first.not_mem rfl), pieces_append (second.not_mem rfl),
      pieces_append (third.not_mem rfl), pieces_of_not_mem (fourth.not_mem rfl)]
    simp [octet?_eq_some_iff.mpr first, octet?_eq_some_iff.mpr second,
      octet?_eq_some_iff.mpr third, octet?_eq_some_iff.mpr fourth]

/-! ## Groups -/

theorem hexGroup?_eq_some_iff {s : List Char} {g : UInt16} :
    hexGroup? s = some g ↔ Group s g := by
  have below : ∀ c d, HexDigit c d → d < 16 := by
    intro c d hd
    exact hd.1
  constructor
  · intro h
    unfold hexGroup? at h
    split at h
    · cases h
    rename_i shape
    simp only [not_or] at shape
    rcases shape with ⟨nonempty, short⟩
    rcases Option.map_eq_some_iff.mp h with ⟨n, hn, rfl⟩
    have value := hexValue?_eq_some_iff.mp hn
    have fits : n < 2 ^ 16 := by
      calc n < 16 ^ s.length := value.lt_pow below
        _ ≤ 16 ^ 4 := Nat.pow_le_pow_right (by decide) (by omega)
        _ = 2 ^ 16 := by decide
    refine ⟨List.length_pos_of_ne_nil nonempty, by omega, ?_⟩
    rw [UInt16.toNat_ofNat', Nat.mod_eq_of_lt fits]
    exact value
  · intro h
    have short : ¬ 4 < s.length := by
      have := h.le_four
      omega
    rw [hexGroup?, if_neg (by simp [h.ne_nil, short]), hexValue?_eq_some_iff.mpr h.value]
    simp

theorem quadGroups_eq (v : IPv4) : quadGroups v = [v.high, v.low] := rfl

/-- Groups joined by colons are groups of the grammar. -/
theorem groups_of_groupsOfPieces? {quad : Bool} {ps : List (List Char)} {gs : List UInt16}
    (h : groupsOfPieces? quad ps = some gs) (nonempty : ps ≠ []) :
    Groups quad (joined ':' ps) gs := by
  -- only the last piece, the one with no piece after it, may be a dotted quad
  induction ps generalizing gs with
  | nil => exact absurd rfl nonempty
  | cons piece ps ih =>
    cases ps with
    | nil =>
      rw [groupsOfPieces?] at h
      split at h
      · rename_i dotted
        rcases Option.map_eq_some_iff.mp h with ⟨v, hv, rfl⟩
        exact .quad dotted.1 (dottedQuad?_eq_some_iff.mp hv)
      · rcases Option.map_eq_some_iff.mp h with ⟨g, hg, rfl⟩
        exact .last (hexGroup?_eq_some_iff.mp hg)
    | cons next more =>
      rw [groupsOfPieces?] at h
      split at h
      · rename_i g rest hg hrest
        obtain rfl : g :: rest = gs := by simpa using h
        exact .cons (hexGroup?_eq_some_iff.mp hg) (ih hrest (by simp))
      · cases h

theorem groupsOfPieces?_cons (quad : Bool) (piece : List Char) {ps : List (List Char)}
    (h : ps ≠ []) : groupsOfPieces? quad (piece :: ps) =
      (hexGroup? piece).bind fun g => (groupsOfPieces? quad ps).map (g :: ·) := by
  cases ps with
  | nil => exact absurd rfl h
  | cons next more =>
    rw [groupsOfPieces?]
    cases hexGroup? piece with
    | none => rfl
    | some g => cases groupsOfPieces? quad (next :: more) <;> rfl

theorem groupsOfPieces?_pieces_eq_some_iff {quad : Bool} {s : List Char} {gs : List UInt16} :
    groupsOfPieces? quad (pieces ':' s) = some gs ↔ Groups quad s gs := by
  constructor
  · intro h
    have groups := groups_of_groupsOfPieces? h (pieces_ne_nil ':' s)
    rwa [joined_pieces] at groups
  · intro h
    induction h with
    | last group =>
      have nodot := group.not_mem (c := '.') rfl
      rw [pieces_of_not_mem (group.not_mem rfl), groupsOfPieces?, if_neg (by simp [nodot]),
        hexGroup?_eq_some_iff.mpr group]
      rfl
    | quad allowed dotted =>
      rw [pieces_of_not_mem dotted.colon_not_mem, groupsOfPieces?,
        if_pos ⟨allowed, dotted.dot_mem⟩, dottedQuad?_eq_some_iff.mpr dotted]
      rfl
    | cons group rest ih =>
      rw [pieces_append (group.not_mem rfl), groupsOfPieces?_cons quad _ (pieces_ne_nil _ _),
        hexGroup?_eq_some_iff.mpr group, ih]
      rfl

theorem section?_eq_some_iff {quad : Bool} {s : List Char}
    {gs : List UInt16} : section? quad s = some gs ↔ Side quad s gs ∧ gs.length ≤ 8 := by
  constructor
  · intro h
    unfold section? at h
    split at h
    · rename_i empty
      obtain rfl : [] = gs := by simpa using h
      rw [empty]
      exact ⟨.empty, by simp⟩
    · split at h
      · rename_i hs hgroups
        split at h
        · rename_i count
          obtain rfl : hs = gs := by simpa using h
          exact ⟨.groups (groupsOfPieces?_pieces_eq_some_iff.mp hgroups), count⟩
        · cases h
      · cases h
  · rintro ⟨side, count⟩
    cases side with
    | empty => rfl
    | groups h =>
      rcases h.exists_cons with ⟨c, rest, rfl, hc⟩
      rw [section?, if_neg (by simp), groupsOfPieces?_pieces_eq_some_iff.mpr h]
      exact if_pos count

/-! ## Colons -/

/-- A mark of colons is not found in groups, where no two colons meet. -/
theorem Groups.cutAt?_append {quad : Bool} {s : List Char} {gs : List UInt16}
    (h : Groups quad s gs) (mark rest : List Char) :
    cutAt? (':' :: ':' :: mark) (s ++ rest) =
      (cutAt? (':' :: ':' :: mark) rest).map fun cut => (s ++ cut.1, cut.2) := by
  induction h with
  | last group => exact cutAt?_append_of_not_mem (group.not_mem rfl) rest
  | quad allowed dotted => exact cutAt?_append_of_not_mem dotted.colon_not_mem rest
  | @cons s t g gs group more ih =>
    rcases more.exists_cons with ⟨c, t', rfl, hc⟩
    rw [List.append_assoc, cutAt?_append_of_not_mem (group.not_mem rfl), List.cons_append,
      List.cons_append, cutAt?_cons_of_ne (Ne.symm hc), ← List.cons_append, ih, Option.map_map,
      Option.map_map]
    congr 1
    funext cut
    simp

theorem Side.cutAt?_append {quad : Bool} {s : List Char} {gs : List UInt16}
    (h : Side quad s gs) (mark rest : List Char) :
    cutAt? (':' :: ':' :: mark) (s ++ rest) =
      (cutAt? (':' :: ':' :: mark) rest).map fun cut => (s ++ cut.1, cut.2) := by
  cases h with
  | empty => simp
  | groups h => exact h.cutAt?_append mark rest

/-- There is no `::` on a side of `::`. -/
theorem Side.cutAt?_eq_none {quad : Bool} {s : List Char} {gs : List UInt16}
    (h : Side quad s gs) (mark : List Char) : cutAt? (':' :: ':' :: mark) s = none := by
  have whole := h.cutAt?_append mark []
  rw [List.append_nil] at whole
  rw [whole]
  rfl

/-- Nor is there `:::` around it. -/
theorem Side.cutAt?_colons_eq_none {quad : Bool} {s : List Char} {gs : List UInt16}
    (h : Side quad s gs) : cutAt? [':', ':', ':'] (':' :: ':' :: s) = none := by
  have inside := h.cutAt?_eq_none [':']
  cases h with
  | empty => rfl
  | groups h =>
    rcases h.exists_cons with ⟨c, rest, rfl, hc⟩
    have nothere : [':', ':', ':'].isPrefixOf (':' :: ':' :: c :: rest) = false := by
      simp [List.isPrefixOf, Ne.symm hc]
    rw [cutAt?, nothere, cutAt?_cons_of_ne (Ne.symm hc), inside]
    rfl

/-- More than two groups have a colon between them. -/
theorem Groups.colon_mem {quad : Bool} {s : List Char} {gs : List UInt16} (h : Groups quad s gs)
    (count : 2 < gs.length) : ':' ∈ s := by
  cases h with
  | last group => simp at count
  | quad allowed dotted => simp [quadGroups] at count
  | cons group rest => simp

theorem ColonForm.colon_mem {s : List Char} {gs : List UInt16} (h : ColonForm s gs) : ':' ∈ s := by
  cases h with
  | full groups count => exact groups.colon_mem (by omega)
  | compressed left right count => simp

theorem ColonForm.length_eq {s : List Char} {gs : List UInt16} (h : ColonForm s gs) :
    gs.length = 8 := by
  cases h with
  | full groups count => exact count
  | compressed left right count =>
    simp only [List.length_append, List.length_replicate]
    omega

/-- Eight groups are the groups of an address. -/
theorem exists_eq_groups {gs : List UInt16} (h : gs.length = 8) : ∃ v : IPv6, gs = v.groups := by
  match gs, h with
  | [g0, g1, g2, g3, g4, g5, g6, g7], _ => exact ⟨⟨g0, g1, g2, g3, g4, g5, g6, g7⟩, rfl⟩

theorem expand?_eq_some_iff {hs ts gs : List UInt16} :
    expand? hs ts = some gs ↔ hs.length + ts.length ≤ 7 ∧
      hs ++ List.replicate (8 - (hs.length + ts.length)) 0 ++ ts = gs := by
  rw [expand?]
  split
  · rename_i count
    have room : hs.length + ts.length ≤ 7 := Nat.le_of_lt_succ count
    rw [Option.some.injEq]
    exact ⟨fun h => ⟨room, h⟩, fun h => h.2⟩
  · rename_i count
    have noroom : ¬ hs.length + ts.length ≤ 7 := fun h => count (Nat.lt_succ_of_le h)
    simp [noroom]

/-- What is read as eight groups is a text of them. -/
theorem colonForm_of_colonForm? {s : List Char} {v : IPv6} (h : colonForm? s = some v) :
    ColonForm s v.groups := by
  unfold colonForm? at h
  split at h
  · cases h
  split at h
  · -- no `::`, so that all groups are there
    rcases Option.bind_eq_some_iff.mp h with ⟨gs, hgs, hv⟩
    have same : gs = v.groups := IPv6.ofGroups?_eq_some_iff.mp hv
    rcases section?_eq_some_iff.mp hgs with ⟨side, -⟩
    cases side with
    | empty => cases same
    | groups groups =>
      rw [same] at groups
      exact .full groups rfl
  · rename_i left right hcut
    split at h
    · cases h
    split at h
    · rename_i hs ts hhs hts
      rcases Option.bind_eq_some_iff.mp h with ⟨gs, hgs, hv⟩
      rcases expand?_eq_some_iff.mp hgs with ⟨count, rfl⟩
      rw [← IPv6.ofGroups?_eq_some_iff.mp hv, eq_of_cutAt? hcut]
      exact .compressed (section?_eq_some_iff.mp hhs).1 (section?_eq_some_iff.mp hts).1 count
    · cases h

/-- Eight groups are read as an address. -/
theorem colonForm?_of_groups {s : List Char} {gs : List UInt16} (groups : Groups true s gs)
    (count : gs.length = 8) : colonForm? s = IPv6.ofGroups? gs := by
  have side : Side true s gs := .groups groups
  have colon : ':' ∈ s := groups.colon_mem (by omega)
  have nomarks : occursIn [':', ':', ':'] s = false := by
    rw [occursIn, side.cutAt?_eq_none [':']]
    rfl
  have whole : section? true s = some gs := by
    apply section?_eq_some_iff.mpr
    exact ⟨side, Nat.le_of_eq count⟩
  rw [colonForm?, if_neg (by simp [colon, nomarks]), side.cutAt?_eq_none []]
  simp only [whole, Option.bind_some]

/-- Two sides of a `::` are read as an address. -/
theorem colonForm?_of_sides {s t : List Char} {gs hs : List UInt16} (left : Side false s gs)
    (right : Side true t hs) (count : gs.length + hs.length ≤ 7) :
    colonForm? (s ++ ':' :: ':' :: t) =
      IPv6.ofGroups? (gs ++ List.replicate (8 - (gs.length + hs.length)) 0 ++ hs) := by
  have nomarks : occursIn [':', ':', ':'] (s ++ ':' :: ':' :: t) = false := by
    rw [occursIn, left.cutAt?_append [':'], right.cutAt?_colons_eq_none]
    rfl
  -- the first `::` is the one between the sides
  have cut : cutAt? [':', ':'] (s ++ ':' :: ':' :: t) = some (s, t) := by
    have here : cutAt? [':', ':'] (':' :: ':' :: t) = some ([], t) :=
      cutAt?_append_self [':', ':'] t (by simp)
    rw [left.cutAt?_append [], here]
    simp
  have once : occursIn [':', ':'] t = false := by
    rw [occursIn, right.cutAt?_eq_none []]
    rfl
  have hleft : section? false s = some gs := section?_eq_some_iff.mpr ⟨left, by omega⟩
  have hright : section? true t = some hs := section?_eq_some_iff.mpr ⟨right, by omega⟩
  rw [colonForm?, if_neg (by simp [nomarks]), cut]
  simp only [once, hleft, hright, expand?_eq_some_iff.mpr ⟨count, rfl⟩, Option.bind_some]
  rfl

/-- A text is read as eight groups exactly if it is a text of them. -/
theorem colonForm?_eq_some_iff {s : List Char} {v : IPv6} :
    colonForm? s = some v ↔ ColonForm s v.groups := by
  constructor
  · exact colonForm_of_colonForm?
  · intro h
    generalize hv : v.groups = gs at h
    cases h with
    | full groups count => rw [colonForm?_of_groups groups count, ← hv, IPv6.ofGroups?_groups]
    | compressed left right count =>
      rw [colonForm?_of_sides left right count, ← hv, IPv6.ofGroups?_groups]

/-! ## The normal form -/

theorem groups_injective {v w : IPv6} (h : v.groups = w.groups) : v = w := by
  have same : IPv6.ofGroups? v.groups = IPv6.ofGroups? w.groups := by rw [h]
  simpa using same

theorem isMapped_iff (v : IPv6) :
    v.isMapped = true ↔ v.groups.take 6 = [0, 0, 0, 0, 0, 0xffff] := by
  simp [IPv6.isMapped, IPv6.groups]

/-- The normal form of an address is an IPv4 address exactly if it is a mapped address of that. -/
theorem unmapped_eq_v4_iff {v : IPv6} {q : IPv4} : v.unmapped = .v4 q ↔ v.mapped? = some q := by
  rw [IPv6.unmapped]
  cases v.mapped? with
  | none => simp
  | some p => simp

/-- The normal form of an address is an IPv6 address exactly if it is that one, and no mapped
address. -/
theorem unmapped_eq_v6_iff {v w : IPv6} :
    v.unmapped = .v6 w ↔ v = w ∧ v.isMapped = false := by
  rw [IPv6.unmapped, IPv6.mapped?]
  cases v.isMapped with
  | true => simp
  | false => simp

theorem normalForm_groups_iff {v : IPv6} {a : Address} :
    NormalForm v.groups a ↔ a = v.unmapped := by
  constructor
  · intro h
    generalize hgs : v.groups = gs at h
    cases h with
    | mapped q =>
      have hv : v = ⟨0, 0, 0, 0, 0, 0xffff, q.high, q.low⟩ := groups_injective hgs
      have inside : v.isMapped = true := by rw [isMapped_iff, hgs]; rfl
      rw [IPv6.unmapped, IPv6.mapped?, if_pos inside, hv]
      simp [IPv6.lastFour]
    | plain w hw =>
      obtain rfl := groups_injective hgs
      have outside : ¬ v.isMapped = true := by rwa [isMapped_iff]
      rw [IPv6.unmapped, IPv6.mapped?, if_neg outside]
  · rintro rfl
    by_cases inside : v.isMapped = true
    · have split : v.groups = [0, 0, 0, 0, 0, 0xffff] ++ quadGroups v.lastFour := by
        have front := (isMapped_iff v).mp inside
        have back : v.groups.drop 6 = quadGroups v.lastFour := by
          simp [quadGroups_eq, IPv6.lastFour, IPv6.groups]
        rw [← front, ← back, List.take_append_drop]
      rw [IPv6.unmapped, IPv6.mapped?, if_pos inside, split]
      exact .mapped v.lastFour
    · rw [IPv6.unmapped, IPv6.mapped?, if_neg inside]
      rw [isMapped_iff] at inside
      exact .plain v inside

/-! ## Literals -/

/-- Going to lowercase moves the capital letters only, by 32. -/
theorem toLower_cases (c : Char) :
    c.toLower = c ∨
      0x41 ≤ c.toNat ∧ c.toNat ≤ 0x5a ∧ c.toLower.toNat = c.toNat + 0x20 := by
  unfold Char.toLower
  split
  · rename_i capital
    have low : 0x41 ≤ c.toNat := UInt32.le_iff_toNat_le.mp capital.1
    have high : c.toNat ≤ 0x5a := UInt32.le_iff_toNat_le.mp capital.2
    refine Or.inr ⟨low, high, ?_⟩
    show (c.val + 0x20).toNat = c.val.toNat + 0x20
    have small : c.val.toNat + 0x20 < 2 ^ 32 := by
      have : c.val.toNat ≤ 0x5a := high
      omega
    rw [UInt32.toNat_add]
    exact Nat.mod_eq_of_lt small
  · exact Or.inl rfl

theorem eq_colon_of_toLower {c : Char} (h : c.toLower = ':') : c = ':' := by
  rcases toLower_cases c with same | ⟨low, high, code⟩
  · rwa [same] at h
  · have colon : c.toLower.toNat = 0x3a := by rw [h]; rfl
    omega

theorem hexDigit_of_toLower {c : Char} (h : c.toLower = 'f') : HexDigit c 15 := by
  refine ⟨by decide, ?_⟩
  rcases toLower_cases c with same | ⟨low, high, code⟩
  · left
    rwa [same] at h
  · right
    have letter : c.toLower.toNat = 0x66 := by rw [h]; rfl
    have capital : (Nat.digitChar 15).toUpper.toNat = 0x46 := by decide
    apply Char.toNat_inj.mp
    omega

/-- A text that begins like the mark of a mapped address begins with two colons, a group of ones
and a colon. -/
theorem exists_group_of_mappedMark {s : List Char}
    (h : (s.take mappedMark.length).map Char.toLower = mappedMark) :
    ∃ p, Group p 0xffff ∧ s = ':' :: ':' :: (p ++ ':' :: s.drop mappedMark.length) := by
  have letters : mappedMark = [':', ':', 'f', 'f', 'f', 'f', ':'] := by decide
  rw [letters] at h
  -- the seven characters, each with what it is in lowercase
  simp only [List.map_eq_cons_iff, List.map_eq_nil_iff] at h
  obtain ⟨c1, _, h, h1, c2, _, rfl, h2, c3, _, rfl, h3, c4, _, rfl, h4, c5, _, rfl, h5, c6, _,
    rfl, h6, c7, _, rfl, h7, rfl⟩ := h
  have ones : Group [c3, c4, c5, c6] 0xffff := by
    have digits := ((((Spells.nil : Spells HexDigit 16 [] 0).snoc (hexDigit_of_toLower h3)).snoc
      (hexDigit_of_toLower h4)).snoc (hexDigit_of_toLower h5)).snoc (hexDigit_of_toLower h6)
    exact ⟨by simp, by simp, digits⟩
  refine ⟨_, ones, ?_⟩
  have whole := List.take_append_drop mappedMark.length s
  rw [← letters] at h
  rw [h, eq_colon_of_toLower h1, eq_colon_of_toLower h2, eq_colon_of_toLower h7] at whole
  exact whole.symm

/-- The texts that the short way reads, one case for each of its branches: a dotted quad after
`::ffff:` in letters of either case, after `::`, and bare. -/
inductive ShortForm (s : List Char) : Address → Prop
  | mapped {v : IPv4} (mark : (s.take mappedMark.length).map Char.toLower = mappedMark)
      (dotted : Quad (s.drop mappedMark.length) v) : ShortForm s (.v4 v)
  | compatible {v : IPv4} (mark : s.take 2 = [':', ':']) (dotted : Quad (s.drop 2) v) :
      ShortForm s (.v6 (IPv6.compatible v))
  | bare {v : IPv4} (dotted : Quad s v) : ShortForm s (.v4 v)

theorem shortForm_of_quadForm? {s : List Char} {a : Address} (h : quadForm? s = some a) :
    ShortForm s a := by
  unfold quadForm? at h
  split at h
  · rename_i mark
    rcases Option.map_eq_some_iff.mp h with ⟨v, hv, rfl⟩
    exact .mapped mark (dottedQuad?_eq_some_iff.mp hv)
  split at h
  · rename_i mark
    rcases Option.map_eq_some_iff.mp h with ⟨v, hv, rfl⟩
    exact .compatible mark (dottedQuad?_eq_some_iff.mp hv)
  · rcases Option.map_eq_some_iff.mp h with ⟨v, hv, rfl⟩
    exact .bare (dottedQuad?_eq_some_iff.mp hv)

/-- A dotted quad after `::ffff:` is a compressed text of a mapped address. -/
theorem colonForm_of_mappedMark {s : List Char} {v : IPv4}
    (mark : (s.take mappedMark.length).map Char.toLower = mappedMark)
    (dotted : Quad (s.drop mappedMark.length) v) :
    ColonForm s ([0, 0, 0, 0, 0, 0xffff] ++ quadGroups v) := by
  rcases exists_group_of_mappedMark mark with ⟨p, ones, hs⟩
  have right : Groups true (p ++ ':' :: s.drop mappedMark.length) (0xffff :: quadGroups v) :=
    .cons ones (.quad rfl dotted)
  have form := ColonForm.compressed .empty (.groups right) (by simp [quadGroups])
  rw [hs]
  exact form

/-- A dotted quad after `::` is a compressed text of an IPv4-compatible address. -/
theorem colonForm_of_colons {s : List Char} {v : IPv4} (mark : s.take 2 = [':', ':'])
    (dotted : Quad (s.drop 2) v) : ColonForm s (IPv6.compatible v).groups := by
  have right : Groups true (s.drop 2) (quadGroups v) := .quad rfl dotted
  have form := ColonForm.compressed .empty (.groups right) (by simp [quadGroups])
  have hs : s = ':' :: ':' :: s.drop 2 := by
    have whole := List.take_append_drop 2 s
    rw [mark] at whole
    exact whole.symm
  rw [hs]
  exact form

/-- An IPv4-compatible address is no mapped address. -/
theorem isMapped_compatible (v : IPv4) : (IPv6.compatible v).isMapped = false := by
  simp [IPv6.isMapped, IPv6.compatible]

/-- The short way to dotted quads reads no other literals. -/
theorem literal_of_quadForm? {s : List Char} {a : Address} (h : quadForm? s = some a) :
    Literal s a := by
  cases shortForm_of_quadForm? h with
  | mapped mark dotted => exact .colon (colonForm_of_mappedMark mark dotted) (.mapped _)
  | @compatible v mark dotted =>
    have outside : (IPv6.compatible v).groups.take 6 ≠ [0, 0, 0, 0, 0, 0xffff] := by
      rw [Ne, ← isMapped_iff, isMapped_compatible]
      decide
    exact .colon (colonForm_of_colons mark dotted) (.plain (IPv6.compatible v) outside)
  | bare dotted => exact .quad dotted

/-- Without a colon, the short way is the way to dotted quads. -/
theorem quadForm?_of_colon_not_mem {s : List Char} (h : ':' ∉ s) :
    quadForm? s = (dottedQuad? s).map .v4 := by
  -- both marks have colons in them
  have nomapped : ¬ (s.take mappedMark.length).map Char.toLower = mappedMark := by
    intro mark
    rcases exists_group_of_mappedMark mark with ⟨p, -, hs⟩
    rw [hs] at h
    simp at h
  have nocolons : ¬ s.take 2 = [':', ':'] := by
    intro mark
    have first : ':' ∈ s.take 2 := by simp [mark]
    exact h (List.mem_of_mem_take first)
  rw [quadForm?, if_neg nomapped, if_neg nocolons]

/-- A literal with a colon is eight groups in normal form. -/
theorem Literal.exists_colonForm? {s : List Char} {a : Address} (h : Literal s a)
    (colon : ':' ∈ s) : ∃ v, colonForm? s = some v ∧ a = v.unmapped := by
  cases h with
  | quad dotted => exact absurd colon dotted.colon_not_mem
  | colon form value =>
    rcases exists_eq_groups form.length_eq with ⟨v, rfl⟩
    exact ⟨v, colonForm?_eq_some_iff.mpr form, normalForm_groups_iff.mp value⟩

/-- With a colon, the short way does not change what is read. -/
theorem ofChars?_of_colon_mem {s : List Char} (colon : ':' ∈ s) :
    ofChars? s = (colonForm? s).map IPv6.unmapped := by
  unfold ofChars?
  split
  · -- what the short way reads is a literal, and those with a colon are read in one way only
    rename_i a ha
    rcases (literal_of_quadForm? ha).exists_colonForm? colon with ⟨v, hv, rfl⟩
    rw [hv]
    rfl
  · rfl

/-- A text is read as an address exactly if it is a literal of it. -/
theorem ofChars?_eq_some_iff {s : List Char} {a : Address} :
    ofChars? s = some a ↔ Literal s a := by
  constructor
  · intro h
    unfold ofChars? at h
    split at h
    · rename_i b hb
      obtain rfl : b = a := by simpa using h
      exact literal_of_quadForm? hb
    · rcases Option.map_eq_some_iff.mp h with ⟨v, hv, rfl⟩
      exact .colon (colonForm?_eq_some_iff.mp hv) (normalForm_groups_iff.mpr rfl)
  · intro h
    by_cases colon : ':' ∈ s
    · rcases h.exists_colonForm? colon with ⟨v, hv, rfl⟩
      rw [ofChars?_of_colon_mem colon, hv]
      rfl
    · cases h with
      | quad dotted =>
        rw [ofChars?, quadForm?_of_colon_not_mem colon, dottedQuad?_eq_some_iff.mpr dotted]
        rfl
      | colon form value => exact absurd form.colon_mem colon

theorem ofLiteral_eq_ok_iff {text : String} {a : Address} :
    ofLiteral text = .ok a ↔ Literal text.toList a := by
  rw [← ofChars?_eq_some_iff, ofLiteral]
  cases ofChars? text.toList with
  | none => simp
  | some b => simp

/-- A text that is refused is told by name. -/
theorem eq_notLiteral_of_ofLiteral {text : String} {e : AddressError}
    (h : ofLiteral text = .error e) : e = .notLiteral text := by
  unfold ofLiteral at h
  split at h
  · cases h
  · exact (Except.error.inj h).symm

/-- A text is read as an address exactly if it is a literal of it, and every text that is a literal
of no address is refused by name. -/
theorem ofLiteral_reads_the_grammar (text : String) :
    (∀ a, ofLiteral text = .ok a ↔ Literal text.toList a) ∧
      (∀ e, ofLiteral text = .error e ↔
        e = .notLiteral text ∧ ∀ a, ¬ Literal text.toList a) := by
  refine ⟨fun a => ofLiteral_eq_ok_iff, fun e => ?_⟩
  constructor
  · intro h
    refine ⟨eq_notLiteral_of_ofLiteral h, ?_⟩
    intro a ha
    rw [ofLiteral_eq_ok_iff.mpr ha] at h
    cases h
  · rintro ⟨rfl, none⟩
    unfold ofLiteral
    split
    · rename_i a ha
      exact absurd (ofChars?_eq_some_iff.mp ha) (none a)
    · rfl

end Groundwork.Address
