import Groundwork.Address.Slots
import Groundwork.Proofs.Address.Reading

/-!
# Reading literals stays in range

* `Holds` is what slots keep while a side of a literal is read into them: one group fills the next
  slot (`Holds.push?`), and the pieces of a side do so one after the other (`Holds.fillPieces`).
* `Apart` says where the two copies of a literal with `::` go.
* Reading by index is the same as reading without (`colonFormAt_eq`, `quadFormAt_eq`,
  `ofLiteralAt_eq`).
* `staysInRange`: no text makes the reader leave the slots or cut a character, whatever stands in
  it.
-/

namespace Groundwork.Address

open Groundwork.Text

/-! ## Filling slots -/

theorem IPv6.groups_ofSlots (slots : Slots) : (IPv6.ofSlots slots).groups = slots.toList := by
  unfold IPv6.ofSlots
  split
  rename_i whole _
  exact whole.symm

/-- Groups in the slots are an address. -/
theorem IPv6.ofGroups?_toList (slots : Slots) :
    IPv6.ofGroups? slots.toList = some (IPv6.ofSlots slots) :=
  IPv6.ofGroups?_eq_some_iff.mpr (IPv6.groups_ofSlots slots).symm

namespace Filled

/-- The slots up to the count hold the groups, and those behind them hold zero. -/
structure Holds (f : Filled) (gs : List UInt16) : Prop where
  count_eq : f.count = gs.length
  count_le : f.count ≤ IPv6.groupCount
  filled : ∀ i (slot : i < IPv6.groupCount) (group : i < gs.length), f.slots[i] = gs[i]
  free : ∀ i (slot : i < IPv6.groupCount), f.count ≤ i → f.slots[i] = 0

/-- What comes of filling slots with groups: they hold them all, or there are too many. -/
inductive Outcome (gs : List UInt16) : Option Filled → Prop
  | holds {f : Filled} (h : f.Holds gs) : Outcome gs (some f)
  | full (many : IPv6.groupCount < gs.length) : Outcome gs none

/-- Slots that hold groups are filled with more, and those that cannot hold them hold no more. -/
theorem Outcome.bind {gs hs : List UInt16} {first : Option Filled} {next : Filled → Option Filled}
    (h : Outcome gs first) (goes : ∀ f, f.Holds gs → Outcome (gs ++ hs) (next f)) :
    Outcome (gs ++ hs) (first.bind next) := by
  cases h with
  | holds h => exact goes _ h
  | full many =>
    refine .full ?_
    rw [List.length_append]
    omega

theorem holds_empty : empty.Holds [] where
  count_eq := rfl
  count_le := Nat.zero_le _
  filled := by
    intro i slot group
    simp at group
  free := by
    intro i slot _
    exact Vector.getElem_replicate slot

theorem Holds.push? {f : Filled} {gs : List UInt16} (h : f.Holds gs) (g : UInt16) :
    Outcome (gs ++ [g]) (f.push? g) := by
  have count := h.count_eq
  rw [Filled.push?]
  split
  · rename_i room
    refine .holds ⟨by simp [count], room, ?_, ?_⟩
    · intro i slot group
      by_cases here : i = gs.length
      · simp [count, here]
      · -- an earlier slot, which stays as it was
        have before : i < gs.length := by
          simp only [List.length_append, List.length_singleton] at group
          omega
        have apart : f.count ≠ i := by omega
        rw [Vector.getElem_set_ne _ _ apart, List.getElem_append_left before]
        exact h.filled i slot before
    · intro i slot behind
      have later : f.count < i := behind
      rw [Vector.getElem_set_ne _ _ (Nat.ne_of_lt later)]
      exact h.free i slot (Nat.le_of_lt later)
  · rename_i noroom
    refine .full ?_
    rw [List.length_append, List.length_singleton]
    omega

theorem Holds.pushAll? {f : Filled} {gs : List UInt16} (h : f.Holds gs) (hs : List UInt16) :
    Outcome (gs ++ hs) (f.pushAll? hs) := by
  induction hs generalizing f gs with
  | nil =>
    rw [List.append_nil]
    exact .holds h
  | cons g hs ih =>
    rw [Filled.pushAll?, List.append_cons]
    exact (h.push? g).bind fun f h' => ih h'

/-- The slots up to the count are the groups. -/
theorem Holds.take_count {f : Filled} {gs : List UInt16} (h : f.Holds gs) :
    f.slots.toList.take f.count = gs := by
  have count := h.count_eq
  have within := h.count_le
  apply List.ext_getElem
  · rw [List.length_take, Vector.length_toList]
    omega
  · intro i _ group
    rw [List.getElem_take, Vector.getElem_toList]
    exact h.filled i (by omega) group

theorem Holds.groups? {f : Filled} {gs : List UInt16} (h : f.Holds gs) : f.groups? = some gs := by
  rw [Filled.groups?, if_pos h.count_le, h.take_count]

/-- All slots are filled by as many groups. -/
theorem Holds.toList_eq {f : Filled} {gs : List UInt16} (h : f.Holds gs)
    (all : f.count = IPv6.groupCount) : f.slots.toList = gs := by
  have whole := h.take_count
  rwa [all, List.take_of_length_le (Nat.le_of_eq Vector.length_toList)] at whole

end Filled

/-! ## Filling slots with one side of a literal -/

/-- The groups of the first piece come before those of the others. -/
theorem groupsOfPieces?_cons_eq (quad : Bool) (piece : List Char) (more : List (List Char)) :
    groupsOfPieces? quad (piece :: more) =
      (groupsOfPiece? quad piece more).bind fun gs =>
        (groupsOfPieces? quad more).map (gs ++ ·) := by
  cases more with
  | nil =>
    have alone : ∀ gs : Option (List UInt16),
        gs = gs.bind fun gs => (groupsOfPieces? quad []).map (gs ++ ·) := by
      intro gs
      cases gs with
      | none => rfl
      | some gs => simp [groupsOfPieces?]
    rw [← alone, groupsOfPieces?, groupsOfPiece?]
    simp only [true_and]
  | cons next more =>
    rw [groupsOfPieces?_cons quad piece (List.cons_ne_nil _ _), groupsOfPiece?,
      if_neg (by simp), Option.bind_map]
    rfl

/-- Pieces fill the next slots with their groups. -/
theorem Filled.Holds.fillPieces {quad : Bool} {f : Filled} {gs hs : List UInt16}
    {ps : List (List Char)} (h : f.Holds gs) (read : groupsOfPieces? quad ps = some hs) :
    Filled.Outcome (gs ++ hs) (fillPieces? quad f ps) := by
  -- on the pieces that are left, with the groups of those before them in the slots
  induction ps generalizing f gs hs with
  | nil =>
    obtain rfl : [] = hs := Option.some.inj read
    rw [List.append_nil]
    exact .holds h
  | cons piece more ih =>
    rw [groupsOfPieces?_cons_eq] at read
    rcases Option.bind_eq_some_iff.mp read with ⟨first, hfirst, later⟩
    rcases Option.map_eq_some_iff.mp later with ⟨rest, hrest, rfl⟩
    rw [fillPieces?, hfirst, Option.bind_some, ← List.append_assoc]
    exact (h.pushAll? first).bind fun f h' => ih h' hrest

/-- Where one of the pieces is no group, they fill no slots. -/
theorem fillPieces?_eq_none {quad : Bool} {ps : List (List Char)}
    (unread : groupsOfPieces? quad ps = none) (f : Filled) : fillPieces? quad f ps = none := by
  induction ps generalizing f with
  | nil => cases unread
  | cons piece more ih =>
    rw [groupsOfPieces?_cons_eq] at unread
    rw [fillPieces?]
    cases hfirst : groupsOfPiece? quad piece more with
    | none => rfl
    | some first =>
      rw [hfirst, Option.bind_some, Option.map_eq_none_iff] at unread
      rw [Option.bind_some]
      cases f.pushAll? first with
      | none => rfl
      | some next => exact ih unread next

/-- A side of a literal is refused, or fills the slots with its groups. -/
inductive SideFilled (quad : Bool) (s : List Char) : Prop
  | refused (unfilled : fillSection? quad s = none) (unread : section? quad s = none)
  | filled {f : Filled} {gs : List UInt16} (filled : fillSection? quad s = some f)
      (read : section? quad s = some gs) (holds : f.Holds gs)

theorem sideFilled (quad : Bool) (s : List Char) : SideFilled quad s := by
  by_cases empty : s = []
  · refine .filled ?_ ?_ Filled.holds_empty
    · rw [fillSection?, if_pos empty]
    · rw [section?, if_pos empty]
  have fills : fillSection? quad s = fillPieces? quad .empty (pieces ':' s) := by
    rw [fillSection?, if_neg empty]
  cases read : groupsOfPieces? quad (pieces ':' s) with
  | none =>
    refine .refused ?_ (by simp [section?, empty, read])
    rw [fills, fillPieces?_eq_none read]
  | some gs =>
    have outcome := Filled.holds_empty.fillPieces read
    rw [List.nil_append, ← fills] at outcome
    generalize filled : fillSection? quad s = r at outcome
    cases outcome with
    | holds h =>
      have few : gs.length ≤ IPv6.groupCount := h.count_eq ▸ h.count_le
      exact .filled filled (by simp [section?, empty, read, few]) h
    | full many => exact .refused filled (by simp [section?, empty, read, many])

theorem exists_holds {quad : Bool} {s : List Char} {f : Filled}
    (h : fillSection? quad s = some f) : ∃ gs, f.Holds gs := by
  cases sideFilled quad s with
  | refused unfilled unread =>
    rw [unfilled] at h
    cases h
  | filled filled read holds =>
    rw [filled] at h
    rw [← Option.some.inj h]
    exact ⟨_, holds⟩

/-! ## Copies -/

/-- A copy that fits replaces what was in its range. -/
theorem Copy.exists_onto? {c : Copy} (fits : c.Fits) (slots : Slots) :
    ∃ after, c.onto? slots = some after ∧
      after.toList = slots.toList.take c.start ++ (c.source ++ slots.toList.drop c.stop) := by
  refine ⟨_, dif_pos fits, ?_⟩
  rcases fits with ⟨ordered, within, same⟩
  have size : slots.toList.length = IPv6.groupCount := Vector.length_toList
  have front : (slots.toList.take c.start).length = c.start := by
    rw [List.length_take]
    omega
  apply List.ext_getElem
  · simp only [Vector.length_toList, List.length_append, List.length_drop, front]
    omega
  · intro i slot _
    rw [Vector.getElem_toList, Vector.getElem_ofFn]
    dsimp only
    -- the slot lies before the range, in it or behind it
    rcases Nat.lt_or_ge i c.start with before | started
    · rw [dif_neg (by omega), List.getElem_append_left (by omega), List.getElem_take]
      rfl
    rw [List.getElem_append_right (by omega)]
    rcases Nat.lt_or_ge i c.stop with inside | behind
    · rw [dif_pos ⟨started, inside⟩, List.getElem_append_left (by omega)]
      simp only [front]
    · have place : c.stop + (i - c.start - (c.stop - c.start)) = i := by omega
      rw [dif_neg (by omega), List.getElem_append_right (by omega), List.getElem_drop]
      simp only [front, same, place]
      rfl

/-- How the two sides of a `::` go into the slots. -/
structure Apart (head tail : Filled) (front back : Copy) (slots : Slots) : Prop where
  /-- The copies that the sides make. That of the tail begins at a difference of two numbers, which
  is there. -/
  to_front : head.toFront? = some front
  to_back : tail.toBack? = some back
  /-- Each range lies within the slots and has a place for each of the groups. -/
  front_fits : front.Fits
  back_fits : back.Fits
  /-- The ranges have at least one slot between them. -/
  zero_between : front.stop < back.start
  copied : spread? head tail = some slots
  /-- The groups of both sides are left in the end, with zeros between them. -/
  kept : slots.toList = head.slots.toList.take head.count ++
    List.replicate (back.start - front.stop) 0 ++ tail.slots.toList.take tail.count

theorem Filled.Holds.toFront? {f : Filled} {gs : List UInt16} (h : f.Holds gs) :
    f.toFront? = some ⟨0, gs.length, gs⟩ := by
  rw [Filled.toFront?, h.groups?, h.count_eq]
  rfl

theorem Filled.Holds.front_fits {f : Filled} {gs : List UInt16} (h : f.Holds gs) :
    (Copy.mk 0 gs.length gs).Fits := by
  have few : gs.length ≤ IPv6.groupCount := h.count_eq ▸ h.count_le
  exact ⟨Nat.zero_le _, few, rfl⟩

theorem Filled.Holds.toBack? {f : Filled} {gs : List UInt16} (h : f.Holds gs) :
    f.toBack? = some ⟨IPv6.groupCount - gs.length, IPv6.groupCount, gs⟩ := by
  rw [Filled.toBack?, difference?, if_pos h.count_le, h.groups?, h.count_eq]
  rfl

theorem Filled.Holds.back_fits {f : Filled} {gs : List UInt16} (h : f.Holds gs) :
    (Copy.mk (IPv6.groupCount - gs.length) IPv6.groupCount gs).Fits := by
  have few : gs.length ≤ IPv6.groupCount := h.count_eq ▸ h.count_le
  refine ⟨Nat.sub_le _ _, Nat.le_refl _, ?_⟩
  dsimp only
  omega

section

variable {head tail : Filled} {gs hs : List UInt16} (left : head.Holds gs) (right : tail.Holds hs)
  (count : gs.length + hs.length < IPv6.groupCount)

include left right count

/-- Two sides with fewer groups than there are slots are copied to both ends. -/
theorem exists_spread? : ∃ slots, spread? head tail = some slots ∧
    slots.toList =
      gs ++ List.replicate (IPv6.groupCount - (gs.length + hs.length)) 0 ++ hs := by
  rcases Copy.exists_onto? left.front_fits Slots.zero with ⟨half, first, half_eq⟩
  rcases Copy.exists_onto? right.back_fits half with ⟨slots, second, slots_eq⟩
  refine ⟨slots, ?_, ?_⟩
  · rw [spread?, left.toFront?, Option.bind_some, first, Option.bind_some, right.toBack?,
      Option.bind_some, second]
  · have zeros : Slots.zero.toList = List.replicate IPv6.groupCount 0 := Vector.toList_replicate
    dsimp only at half_eq slots_eq
    rw [zeros, List.take_zero, List.nil_append, List.drop_replicate] at half_eq
    have behind : half.toList.drop IPv6.groupCount = [] :=
      List.drop_of_length_le (Nat.le_of_eq Vector.length_toList)
    have between : min (IPv6.groupCount - hs.length - gs.length) (IPv6.groupCount - gs.length) =
        IPv6.groupCount - (gs.length + hs.length) := by omega
    rw [slots_eq, behind, List.append_nil, half_eq, List.take_append,
      List.take_of_length_le (by omega), List.take_replicate, between]

/-- The two copies lie apart, and what they put into the slots stays there. -/
theorem exists_apart : ∃ front back slots, Apart head tail front back slots := by
  rcases exists_spread? left right count with ⟨slots, copied, kept⟩
  have gap : IPv6.groupCount - hs.length - gs.length =
      IPv6.groupCount - (gs.length + hs.length) := by omega
  refine ⟨_, _, slots, left.toFront?, right.toBack?, left.front_fits, right.back_fits, ?_, copied,
    ?_⟩
  · dsimp only
    omega
  · rw [left.take_count, right.take_count, gap]
    exact kept

end

/-- As many groups as there are slots are an address, and no other number is. -/
theorem Filled.Holds.ofSlots_eq {f : Filled} {gs : List UInt16} (h : f.Holds gs) :
    (if f.count = IPv6.groupCount then some (IPv6.ofSlots f.slots) else none) =
      IPv6.ofGroups? gs := by
  split
  · rename_i all
    rw [← h.toList_eq all, IPv6.ofGroups?_toList]
  · rename_i some_free
    rw [h.count_eq] at some_free
    unfold IPv6.ofGroups?
    split
    · exact absurd rfl some_free
    · rfl

/-- Two sides are copied to the slots of their address, or have too many groups. -/
theorem spread?_eq {head tail : Filled} {gs hs : List UInt16} (left : head.Holds gs)
    (right : tail.Holds hs) :
    (if IPv6.groupCount ≤ head.count + tail.count then some none
      else (spread? head tail).map fun slots => some (IPv6.ofSlots slots)) =
      some ((expand? gs hs).bind IPv6.ofGroups?) := by
  rw [left.count_eq, right.count_eq, expand?]
  by_cases count : gs.length + hs.length < IPv6.groupCount
  · rcases exists_spread? left right count with ⟨slots, copied, kept⟩
    rw [if_neg (Nat.not_le.mpr count), if_pos count, copied, Option.map_some, Option.bind_some,
      ← kept, IPv6.ofGroups?_toList]
  · rw [if_pos (Nat.le_of_not_lt count), if_neg count, Option.bind_none]

theorem colonFormAt_eq (s : List Char) : colonFormAt s = some (colonForm? s) := by
  rw [colonFormAt, colonForm?]
  split
  · rfl
  cases cutAt? [':', ':'] s with
  | none =>
    refine congrArg some ?_
    cases sideFilled true s with
    | refused unfilled unread =>
      rw [unfilled, unread]
      rfl
    | filled filled read holds =>
      rw [filled, read, Option.bind_some, Option.bind_some]
      exact holds.ofSlots_eq
  | some cut =>
    rcases cut with ⟨head, tail⟩
    dsimp only
    split
    · rfl
    cases sideFilled false head with
    | refused unfilled unread =>
      rw [unfilled, unread]
    | filled filledHead readHead left =>
      cases sideFilled true tail with
      | refused unfilled unread =>
        rw [filledHead, readHead, unfilled, unread]
      | filled filledTail readTail right =>
        rw [filledHead, readHead, filledTail, readTail]
        exact spread?_eq left right

/-! ## Cuts -/

/-- Behind the bytes of a part of a text stands a boundary of characters. -/
theorem isValid_append (front rest : String) :
    (String.Pos.Raw.mk front.utf8ByteSize).IsValid (front ++ rest) :=
  String.Pos.Raw.isValid_iff_exists_append.mpr ⟨front, rest, rfl, rfl⟩

/-- Behind the bytes of its front, a text is cut into front and rest. -/
theorem cut_append (front rest : String) :
    upToByte? (front ++ rest) front.utf8ByteSize = some front ∧
      fromByte? (front ++ rest) front.utf8ByteSize = some rest := by
  have boundary := isValid_append front rest
  have here := (String.Pos.mk _ boundary).splits
  have cut : (String.Pos.mk _ boundary).Splits front rest := ⟨rfl, rfl⟩
  rw [upToByte?, fromByte?, dif_pos boundary, dif_pos boundary]
  exact ⟨congrArg some (here.eq_left cut), congrArg some (here.eq_right cut)⟩

/-- What is cut off is the front of the text. -/
theorem exists_append_of_upToByte? {text front : String} {n : Nat}
    (h : upToByte? text n = some front) : ∃ rest, text = front ++ rest := by
  rw [upToByte?] at h
  split at h
  · rename_i boundary
    have here := (String.Pos.mk _ boundary).splits
    rw [Option.some.inj h] at here
    exact ⟨_, here.eq_append⟩
  · cases h

/-- A capital letter has as many bytes as its small letter: both have one. -/
theorem utf8Size_toLower (c : Char) : c.toLower.utf8Size = c.utf8Size := by
  have single : ∀ {d : Char}, d.toNat ≤ 127 → d.utf8Size = 1 := by
    intro d small
    exact Char.utf8Size_eq_one_iff.mpr (UInt32.le_iff_toNat_le.mpr small)
  rcases toLower_cases c with same | ⟨low, high, code⟩
  · rw [same]
  · have capital : c.toNat ≤ 127 := by omega
    have small : c.toLower.toNat ≤ 127 := by omega
    rw [single capital, single small]

theorem utf8ByteSize_map_toLower (s : List Char) :
    (String.ofList (s.map Char.toLower)).utf8ByteSize = (String.ofList s).utf8ByteSize := by
  induction s with
  | nil => rfl
  | cons c s ih =>
    simp only [List.map_cons, String.ofList_cons, String.utf8ByteSize_append,
      String.utf8ByteSize_singleton, utf8Size_toLower, ih]

/-- The text begins with the seven characters of the mark of a mapped address, in either case. -/
def BeginsWithMark (text : String) : Prop :=
  (text.toList.take mappedMark.length).map Char.toLower = mappedMark

/-- The characters of the mark are as many bytes, so that the mark is cut off with them. -/
theorem BeginsWithMark.exists_cut {text : String} (h : BeginsWithMark text) :
    ∃ front rest, text = front ++ rest ∧ front.toList.map Char.toLower = mappedMark ∧
      rest.toList = text.toList.drop mappedMark.length ∧
      (String.Pos.Raw.mk mappedMarkSize).IsValid text ∧
      upToByte? text mappedMarkSize = some front ∧ fromByte? text mappedMarkSize = some rest := by
  rw [BeginsWithMark] at h
  generalize hfront : text.toList.take mappedMark.length = front at h
  generalize hrest : text.toList.drop mappedMark.length = rest
  have whole : text = String.ofList front ++ String.ofList rest := by
    rw [← String.ofList_append, ← hfront, ← hrest, List.take_append_drop, String.ofList_toList]
  have size : (String.ofList front).utf8ByteSize = mappedMarkSize := by
    rw [← utf8ByteSize_map_toLower, h]
    rfl
  rw [whole, ← size]
  refine ⟨String.ofList front, String.ofList rest, rfl, ?_, String.toList_ofList,
    isValid_append _ _, cut_append _ _⟩
  rw [String.toList_ofList, h]

/-- The bytes of the mark are its characters. -/
theorem beginsWithMark_of_upToByte? {text front : String} {n : Nat}
    (h : upToByte? text n = some front) (mark : front.toList.map Char.toLower = mappedMark) :
    BeginsWithMark text := by
  rcases exists_append_of_upToByte? h with ⟨rest, rfl⟩
  have length : front.toList.length = mappedMark.length := by rw [← mark, List.length_map]
  rw [BeginsWithMark, String.toList_append, List.take_left' length, mark]

theorem quadFormAt_eq (text : String) : quadFormAt text = some (quadForm? text.toList) := by
  rw [quadFormAt, quadForm?]
  by_cases mark : (text.toList.take mappedMark.length).map Char.toLower = mappedMark
  · rcases BeginsWithMark.exists_cut mark with ⟨front, rest, -, same, behind, -, cut, cut'⟩
    have seen : (upToByte? text mappedMarkSize).filter (fun front =>
        front.toList.map Char.toLower = mappedMark) = some front := by
      rw [cut]
      exact Option.filter_some_pos (decide_eq_true same)
    rw [if_pos mark, seen, cut', ← behind]
    rfl
  · have unseen : (upToByte? text mappedMarkSize).filter (fun front =>
        front.toList.map Char.toLower = mappedMark) = none := by
      rw [Option.filter_eq_none_iff]
      intro front cut same
      exact mark (beginsWithMark_of_upToByte? cut (of_decide_eq_true same))
    rw [if_neg mark, unseen]

/-! ## Literals -/

theorem ofLiteralAt_eq (text : String) : ofLiteralAt text = some (ofLiteral text) := by
  rw [ofLiteralAt, quadFormAt_eq, Option.bind_some, ofLiteral, ofChars?]
  cases quadForm? text.toList with
  | some a => rfl
  | none =>
    dsimp only
    rw [colonFormAt_eq, Option.map_some]
    cases colonForm? text.toList with
    | none => rfl
    | some v => rfl

/-- What keeps the reading of a text in range. -/
structure StaysInRange (text : String) : Prop where
  /-- A side, of this text or of any other one, is refused, or its groups fill at most all slots and
  leave the others at zero. -/
  sides : ∀ quad s, SideFilled quad s
  /-- Around a `::` that has to stand for a group, the copies lie within the slots and apart. -/
  copies : ∀ head tail h t, cutAt? [':', ':'] text.toList = some (head, tail) →
    fillSection? false head = some h → fillSection? true tail = some t →
    h.count + t.count < IPv6.groupCount → ∃ front back slots, Apart h t front back slots
  /-- The mark of a mapped address is seen in the bytes exactly if it stands there. -/
  mark_seen : BeginsWithMark text ↔ ∃ front, upToByte? text mappedMarkSize = some front ∧
    front.toList.map Char.toLower = mappedMark
  /-- Behind the mark a character begins, or the text ends, and the cut takes nothing away. -/
  mark_cut : BeginsWithMark text → (String.Pos.Raw.mk mappedMarkSize).IsValid text ∧
    ∃ front rest, upToByte? text mappedMarkSize = some front ∧
      fromByte? text mappedMarkSize = some rest ∧ text = front ++ rest
  /-- The reading comes to its end, with the answer that the literal has. -/
  answered : ofLiteralAt text = some (ofLiteral text)

/-- No text makes the reader leave the slots, and none is cut within a character. -/
theorem staysInRange (text : String) : StaysInRange text where
  sides := sideFilled
  copies := by
    intro head tail h t _ filledHead filledTail count
    rcases exists_holds filledHead with ⟨gs, left⟩
    rcases exists_holds filledTail with ⟨hs, right⟩
    rw [left.count_eq, right.count_eq] at count
    exact exists_apart left right count
  mark_seen := by
    constructor
    · intro begins
      rcases begins.exists_cut with ⟨front, -, -, same, -, -, cut, -⟩
      exact ⟨front, cut, same⟩
    · rintro ⟨front, cut, same⟩
      exact beginsWithMark_of_upToByte? cut same
  mark_cut := by
    intro begins
    rcases begins.exists_cut with ⟨front, rest, whole, -, -, boundary, cut, cut'⟩
    exact ⟨boundary, front, rest, cut, cut', whole⟩
  answered := ofLiteralAt_eq text

/-- Seven groups around `::`, which stands for just one, and a mark in mixed case with a character
of two bytes behind it. -/
theorem staysInRange_of_tight_literal :
    (∃ h t, cutAt? [':', ':'] "1:2:3:4::5:1.2.3.4".toList =
        some ("1:2:3:4".toList, "5:1.2.3.4".toList) ∧
      fillSection? false "1:2:3:4".toList = some h ∧
      fillSection? true "5:1.2.3.4".toList = some t ∧ h.count + t.count = 7 ∧
      ∃ front back slots, Apart h t front back slots) ∧
    (BeginsWithMark "::FfFf:é" ∧ (String.Pos.Raw.mk mappedMarkSize).IsValid "::FfFf:é" ∧
      ofLiteralAt "::FfFf:é" = some (ofLiteral "::FfFf:é")) := by
  have begins : BeginsWithMark "::FfFf:é" := rfl
  refine ⟨⟨⟨#v[1, 2, 3, 4, 0, 0, 0, 0], 4⟩, ⟨#v[5, 0x102, 0x304, 0, 0, 0, 0, 0], 3⟩, rfl, rfl, rfl,
    rfl, ?_⟩, begins, ((staysInRange "::FfFf:é").mark_cut begins).1,
    (staysInRange "::FfFf:é").answered⟩
  exact (staysInRange "1:2:3:4::5:1.2.3.4").copies _ _ _ _ rfl rfl rfl (by decide)

/-- A copy that is too short for its range, and a cut within a character, are no answers. -/
example : (Copy.mk 5 8 [1, 2]).onto? Slots.zero = none ∧ fromByte? "é" 1 = none := by decide

end Groundwork.Address
