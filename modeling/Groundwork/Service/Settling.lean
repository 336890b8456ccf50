import Groundwork.Service.Deployment

/-!
# Settling

Letting the workers of a service move comes to an end: every move brings the work nearer to it.

* `progress?_settle`: no worker of a settled deployment can move.
* `exists_steps?_settle`: settling makes no moves but those of the service.
-/

namespace Groundwork.Service

/-! ## Every move brings the end nearer -/

-- sums mean the same whether or not algebra is imported beside this module
attribute [local instance (2000)] Zero.ofOfNat0

theorem sum_set_lt {weight : Worker → Nat} {ws : List Worker} {i : Nat} {old new : Worker}
    (h : ws[i]? = some old) (lt : weight new < weight old) :
    ((ws.set i new).map weight).sum < (ws.map weight).sum := by
  induction ws generalizing i with
  | nil => simp at h
  | cons w ws ih =>
    cases i with
    | zero =>
      simp only [List.getElem?_cons_zero, Option.some.injEq] at h
      subst h
      simp only [List.set_cons_zero, List.map_cons, List.sum_cons]
      omega
    | succ i =>
      have := ih (i := i) (by simpa using h)
      simp only [List.set_cons_succ, List.map_cons, List.sum_cons]
      omega

theorem sum_eraseIdx_lt {weight : Worker → Nat} {ws : List Worker} {i : Nat} {old : Worker}
    (h : ws[i]? = some old) (pos : 0 < weight old) :
    ((ws.eraseIdx i).map weight).sum < (ws.map weight).sum := by
  induction ws generalizing i with
  | nil => simp at h
  | cons w ws ih =>
    cases i with
    | zero =>
      simp only [List.getElem?_cons_zero, Option.some.injEq] at h
      subst h
      simp only [List.eraseIdx_cons_zero, List.map_cons, List.sum_cons]
      omega
    | succ i =>
      have := ih (i := i) (by simpa using h)
      simp only [List.eraseIdx_cons_succ, List.map_cons, List.sum_cons]
      omega

/-- A move of a worker brings the work nearer to its end. -/
theorem distance_lt_of_advance? {s s' : Service} {i : Nat} {move : WorkerMove}
    (h : s.advance? i move = some s') : distance s' < distance s := by
  unfold Service.advance? at h
  split at h <;> cases h
  case h_1 hook hw => exact sum_set_lt hw (by cases hook <;> simp [Worker.distance])
  case h_2 hook message hw => exact sum_set_lt hw (by cases hook <;> simp [Worker.distance])
  case h_3 message hw => exact sum_eraseIdx_lt hw (by simp [Worker.distance])
  case h_4 hook thread failure hw =>
    exact sum_set_lt hw (by cases hook <;> simp [Worker.distance])
  case h_5 hook thread message hw =>
    exact sum_eraseIdx_lt hw (by cases hook <;> simp [Worker.distance])
  case h_6 thread hw =>
    unfold Service.startUpDone
    split
    · exact sum_set_lt hw (by simp [Worker.distance])
    · exact sum_eraseIdx_lt hw (by simp [Worker.distance])
  case h_7 thread hw => exact sum_eraseIdx_lt hw (by simp [Worker.distance])

/-! ## Settled deployments -/

namespace Deployment

theorem distance_lt_of_progress? {d d' : Deployment} (h : d.progress? = some d') :
    distance d'.service < distance d.service := by
  obtain ⟨i, _, hi⟩ := List.exists_of_findSome?_eq_some h
  unfold progressAt? at hi
  split at hi
  · cases hi
  · split at hi
    · cases hi
    · obtain ⟨s, hs, rfl⟩ := Option.map_eq_some_iff.mp hi
      exact distance_lt_of_advance? hs

theorem progress?_settleWithin {moves : Nat} {d : Deployment} (h : distance d.service ≤ moves) :
    (d.settleWithin moves).progress? = none := by
  induction moves generalizing d with
  | zero =>
    cases hp : d.progress? with
    | none => exact hp
    | some next => have := distance_lt_of_progress? hp; omega
  | succ moves ih =>
    cases hp : d.progress? with
    | none => simp [settleWithin, hp]
    | some next =>
      have := distance_lt_of_progress? hp
      simpa [settleWithin, hp] using ih (d := next) (by omega)

/-- A move of a worker among its surroundings is a move of the service. -/
theorem exists_step?_of_progress? {d d' : Deployment} (h : d.progress? = some d') :
    ∃ action, d.service.step? action = some d'.service := by
  obtain ⟨i, _, hi⟩ := List.exists_of_findSome?_eq_some h
  unfold progressAt? at hi
  split at hi
  · cases hi
  · split at hi
    · cases hi
    · rename_i move _
      obtain ⟨s, hs, rfl⟩ := Option.map_eq_some_iff.mp hi
      exact ⟨.worker i move, hs⟩

theorem exists_steps?_settleWithin (moves : Nat) (d : Deployment) :
    ∃ actions, d.service.steps? actions = some (d.settleWithin moves).service := by
  induction moves generalizing d with
  | zero => exact ⟨[], rfl⟩
  | succ moves ih =>
    cases hp : d.progress? with
    | none => exact ⟨[], by simp [settleWithin, hp, Service.steps?]⟩
    | some next =>
      obtain ⟨action, ha⟩ := exists_step?_of_progress? hp
      obtain ⟨actions, has⟩ := ih next
      exact ⟨action :: actions, by simp [settleWithin, hp, Service.steps?, ha, has]⟩

/-- Settling is a run of the service. -/
theorem exists_steps?_settle (d : Deployment) :
    ∃ actions, d.service.steps? actions = some d.settle.service :=
  exists_steps?_settleWithin _ d

/-- No worker of a settled deployment can move. -/
theorem progress?_settle (d : Deployment) : d.settle.progress? = none :=
  progress?_settleWithin (Nat.le_refl _)

end Deployment

end Groundwork.Service
