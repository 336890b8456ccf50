import Mathlib.Data.List.Perm.Basic
import Groundwork.Waiting

/-!
# Runs with callers who wait

* `Visited`: what can come of a single visit. Every visit is one look at the state
  (`visited_of_visit?`).
* `visits?_induction`: what every look preserves, every run preserves.
* `waiting_of_visits?` and `perm_of_visits?`: who waits, and that every call is answered once or
  still waits.
-/

namespace Groundwork.WaitingRoom

variable {I : Interface} {σ : Type}

/-! ## Visits -/

/-- What can come of a visit. Every visit is one look at the state, and nobody is answered who has
to wait as long as it takes. -/
inductive Visited (b : Behaviour I σ) (patience : Patience I) (room : WaitingRoom I σ) :
    Visit I → List (Answered I) → WaitingRoom I σ → Prop
  | answered (op : I.Op) (served : patience op (b op room.state).1 ≠ .waits) :
      Visited b patience room (.call op) [⟨op, (b op room.state).1⟩]
        ⟨(b op room.state).2, room.waiting⟩
  | joins (op : I.Op) (unserved : patience op (b op room.state).1 ≠ .over) :
      Visited b patience room (.call op) []
        ⟨(b op room.state).2, room.waiting ++ [op]⟩
  | leaves {visit : Visit I} {index : Nat} {op : I.Op} (old : visit.called = [])
      (found : room.waiting[index]? = some op)
      (served : patience op (b op room.state).1 ≠ .waits) :
      Visited b patience room visit [⟨op, (b op room.state).1⟩]
        ⟨(b op room.state).2, room.waiting.eraseIdx index⟩
  | stays {visit : Visit I} {op : I.Op} (old : visit.called = [])
      (unserved : patience op (b op room.state).1 ≠ .over) :
      Visited b patience room visit [] ⟨(b op room.state).2, room.waiting⟩

variable {b : Behaviour I σ} {patience : Patience I}

/-- Nothing else can come of a visit. -/
theorem visited_of_visit? {room room' : WaitingRoom I σ} {visit : Visit I}
    {events : List (Answered I)} (h : room.visit? b patience visit = some (events, room')) :
    Visited b patience room visit events room' := by
  cases visit with
  | call op =>
    unfold visit? at h
    dsimp only at h
    split at h
    · rename_i verdict
      rcases Prod.mk.inj (Option.some.inj h) with ⟨rfl, rfl⟩
      exact .answered op (by rw [verdict]; nofun)
    · rename_i waits
      rcases Prod.mk.inj (Option.some.inj h) with ⟨rfl, rfl⟩
      exact .joins op (by rw [waits]; nofun)
    · rename_i waits
      rcases Prod.mk.inj (Option.some.inj h) with ⟨rfl, rfl⟩
      exact .joins op (by rw [waits]; nofun)
  | look index =>
    unfold visit? at h
    dsimp only at h
    split at h
    · cases h
    · rename_i op found
      split at h
      · rename_i verdict
        rcases Prod.mk.inj (Option.some.inj h) with ⟨rfl, rfl⟩
        exact .leaves rfl found (by rw [verdict]; nofun)
      · rename_i waits
        rcases Prod.mk.inj (Option.some.inj h) with ⟨rfl, rfl⟩
        exact .stays rfl (by rw [waits]; nofun)
      · rename_i waits
        rcases Prod.mk.inj (Option.some.inj h) with ⟨rfl, rfl⟩
        exact .stays rfl (by rw [waits]; nofun)
  | giveUp index =>
    unfold visit? at h
    dsimp only at h
    split at h
    · cases h
    · rename_i op found
      split at h
      · rename_i verdict
        rcases Prod.mk.inj (Option.some.inj h) with ⟨rfl, rfl⟩
        exact .leaves rfl found (by rw [verdict]; nofun)
      · rename_i verdict
        rcases Prod.mk.inj (Option.some.inj h) with ⟨rfl, rfl⟩
        exact .leaves rfl found (by rw [verdict]; nofun)
      · cases h

/-! ## Runs -/

/-- What every look preserves, whether it is answered or not, a run preserves. -/
theorem visits?_induction {P : List (Answered I) → σ → Prop}
    (answered : ∀ {events s} (op : I.Op), P events s → patience op (b op s).1 ≠ .waits →
      P (events ++ [⟨op, (b op s).1⟩]) (b op s).2)
    (unserved : ∀ {events s} (op : I.Op), P events s → patience op (b op s).1 ≠ .over →
      P events (b op s).2)
    {room room' : WaitingRoom I σ} {visits : List (Visit I)} {before events : List (Answered I)}
    (h : P before room.state) (run : room.visits? b patience visits = some (events, room')) :
    P (before ++ events) room'.state := by
  induction visits generalizing room before events with
  | nil =>
    rcases Prod.mk.inj (Option.some.inj run) with ⟨rfl, rfl⟩
    rw [List.append_nil]
    exact h
  | cons visit visits ih =>
    rcases Option.bind_eq_some_iff.mp run with ⟨⟨here, next⟩, first, rest⟩
    rcases Option.map_eq_some_iff.mp rest with ⟨⟨later, last⟩, further, result⟩
    rcases Prod.mk.inj result with ⟨rfl, rfl⟩
    have now : P (before ++ here) next.state := by
      cases visited_of_visit? first with
      | answered op served => exact answered op h served
      | joins op waits =>
        rw [List.append_nil]
        exact unserved op h waits
      | leaves old found served => exact answered _ h served
      | stays old waits =>
        rw [List.append_nil]
        exact unserved _ h waits
    rw [← List.append_assoc]
    exact ih now further

/-- If only calls of some kind have to wait, only such calls wait. -/
theorem waiting_of_visits? {P : I.Op → Prop}
    (unserved : ∀ {s} (op : I.Op), patience op (b op s).1 ≠ .over → P op)
    {room room' : WaitingRoom I σ} {visits : List (Visit I)} {events : List (Answered I)}
    (h : ∀ op ∈ room.waiting, P op) (run : room.visits? b patience visits = some (events, room')) :
    ∀ op ∈ room'.waiting, P op := by
  induction visits generalizing room events with
  | nil =>
    rcases Prod.mk.inj (Option.some.inj run) with ⟨rfl, rfl⟩
    exact h
  | cons visit visits ih =>
    rcases Option.bind_eq_some_iff.mp run with ⟨⟨here, next⟩, first, rest⟩
    rcases Option.map_eq_some_iff.mp rest with ⟨⟨later, last⟩, further, result⟩
    rcases Prod.mk.inj result with ⟨rfl, rfl⟩
    refine ih ?_ further
    intro op found
    cases visited_of_visit? first with
    | answered called served => exact h op found
    | joins called waits =>
      rcases List.mem_append.mp found with before | new
      · exact h op before
      · rw [List.mem_singleton.mp new]
        exact unserved called waits
    | leaves old there served => exact h op (List.mem_of_mem_eraseIdx found)
    | stays old waits => exact h op found

/-- Every call is answered once or still waits. -/
theorem perm_of_visits? {room room' : WaitingRoom I σ} {visits : List (Visit I)}
    {events : List (Answered I)} (run : room.visits? b patience visits = some (events, room')) :
    (room.waiting ++ visits.flatMap Visit.called).Perm
      (events.map Sigma.fst ++ room'.waiting) := by
  induction visits generalizing room events with
  | nil =>
    rcases Prod.mk.inj (Option.some.inj run) with ⟨rfl, rfl⟩
    simp
  | cons visit visits ih =>
    rcases Option.bind_eq_some_iff.mp run with ⟨⟨here, next⟩, first, rest⟩
    rcases Option.map_eq_some_iff.mp rest with ⟨⟨later, last⟩, further, result⟩
    rcases Prod.mk.inj result with ⟨rfl, rfl⟩
    have now : (room.waiting ++ visit.called).Perm (here.map Sigma.fst ++ next.waiting) := by
      cases visited_of_visit? first with
      | answered op served => exact List.perm_append_comm
      | joins op waits => exact List.Perm.refl _
      | @leaves _ index op old found served =>
        rcases List.getElem?_eq_some_iff.mp found with ⟨bound, rfl⟩
        rw [old, List.append_nil]
        exact (List.getElem_cons_eraseIdx_perm bound).symm
      | stays old waits =>
        rw [old, List.append_nil]
        exact List.Perm.refl _
    have afterwards : (next.waiting ++ visits.flatMap Visit.called).Perm
        (later.map Sigma.fst ++ last.waiting) := ih further
    calc room.waiting ++ (visit :: visits).flatMap Visit.called
      _ = room.waiting ++ visit.called ++ visits.flatMap Visit.called := by
          rw [List.flatMap_cons, List.append_assoc]
      List.Perm _ (here.map Sigma.fst ++ next.waiting ++ visits.flatMap Visit.called) :=
          now.append_right _
      _ = here.map Sigma.fst ++ (next.waiting ++ visits.flatMap Visit.called) :=
          List.append_assoc _ _ _
      List.Perm _ (here.map Sigma.fst ++ (later.map Sigma.fst ++ last.waiting)) :=
          afterwards.append_left _
      _ = (here ++ later).map Sigma.fst ++ last.waiting := by
          rw [List.map_append, List.append_assoc]

end Groundwork.WaitingRoom
