import JvmEmit.Scope.Lifecycle

/-!
# Scopes through their look-up

Each change to nested scopes is described by what it does to the look-up of a scope, and each
requirement by the condition under which it is met.
-/

namespace JvmEmit

namespace NestedScopes

variable {α : Type}

/-! ## Looking up after a change -/

theorem isSome_get?_iff (nested : NestedScopes α) (scope : ScopeId) :
    (nested.get? scope).isSome ↔ scope.index < nested.size := by
  simp [get?, size]

@[simp]
theorem size_modify (nested : NestedScopes α) (scope : ScopeId) (change : Scope α → Scope α) :
    (nested.modify scope change).size = nested.size := by
  simp [modify, size]

/-- A change to one scope is seen there and nowhere else. -/
theorem get?_modify (nested : NestedScopes α) (scope other : ScopeId)
    (change : Scope α → Scope α) :
    (nested.modify scope change).get? other =
      if scope = other then (nested.get? other).map change else nested.get? other := by
  obtain ⟨index⟩ := scope
  obtain ⟨otherIndex⟩ := other
  simp [get?, modify, Array.getElem?_modify]

@[simp]
theorem size_modifyPayload (nested : NestedScopes α) (scope : ScopeId) (change : α → α) :
    (nested.modifyPayload scope change).size = nested.size := by
  simp [modifyPayload]

/-- A change to the payload of one scope is seen there and nowhere else. -/
theorem payload?_modifyPayload (nested : NestedScopes α) (scope other : ScopeId)
    (change : α → α) :
    (nested.modifyPayload scope change).payload? other =
      if scope = other then (nested.payload? other).map change else nested.payload? other := by
  simp only [payload?, modifyPayload, get?_modify]
  split
  · cases nested.get? other <;> rfl
  · rfl

/-- A change to a payload keeps the path of every scope. -/
@[simp]
theorem path_modifyPayload (nested : NestedScopes α) (scope other : ScopeId) (change : α → α) :
    (nested.modifyPayload scope change).path other = nested.path other := by
  simp only [path, enclosing, modifyPayload, get?_modify]
  split
  · cases nested.get? other <;> rfl
  · rfl

/-- A change that keeps a payload keeps the nesting. -/
theorem modifyPayload_id (nested : NestedScopes α) (scope : ScopeId) :
    nested.modifyPayload scope (fun payload => payload) = nested := by
  rw [modifyPayload, modify, NestedScopes.mk.injEq, ← Array.toList_inj, Array.toList_modify]
  exact List.modify_id _ _

/-- Two changes to the payload of one scope are one change. -/
theorem modifyPayload_modifyPayload (nested : NestedScopes α) (scope : ScopeId)
    (first second : α → α) :
    (nested.modifyPayload scope first).modifyPayload scope second =
      nested.modifyPayload scope fun payload => second (first payload) := by
  simp only [modifyPayload, modify, NestedScopes.mk.injEq, ← Array.toList_inj, Array.toList_modify]
  exact List.modify_modify_eq _ _ _ _

/-! ## When the requirements are met -/

theorem requireKnown_eq_ok_iff (nested : NestedScopes α) (scope : ScopeId) :
    nested.requireKnown scope = .ok () ↔ scope.index < nested.size := by
  simp [requireKnown]

theorem requireOpen_eq_ok_iff (nested : NestedScopes α) (scope : ScopeId) :
    nested.requireOpen scope = .ok () ↔
      scope.index < nested.size ∧ nested.isClosed scope = false := by
  by_cases known : scope.index < nested.size <;>
    cases closed : nested.isClosed scope <;> simp [requireOpen, requireKnown, known, closed]

theorem requireInnermost_eq_ok_iff (nested : NestedScopes α) (scope : ScopeId) :
    nested.requireInnermost scope = .ok () ↔ nested.openInner scope = [] := by
  simp [requireInnermost]

theorem requireUsable_eq_ok_iff (nested : NestedScopes α) (scope : ScopeId) :
    nested.requireUsable scope = .ok () ↔
      scope.index < nested.size ∧ nested.isClosed scope = false ∧
        nested.openInner scope = [] := by
  rw [← and_assoc, ← requireOpen_eq_ok_iff, ← requireInnermost_eq_ok_iff]
  unfold requireUsable
  cases nested.requireOpen scope <;> simp

/-! ## Outcomes of the operations -/

theorem enter_of_refused {nested : NestedScopes α} {parent : ScopeId} {cause : ScopeError}
    (label : Option String) (payload : α) (refused : nested.requireOpen parent = .error cause) :
    nested.enter parent label payload = .error cause nested := by
  simp [enter, refused]

/-- A new scope has the next free number and no scope inside it. -/
theorem get?_enter {nested after : NestedScopes α} {parent child : ScopeId}
    {label : Option String} {payload : α}
    (entered : nested.enter parent label payload = .ok child after) :
    child = ⟨nested.size⟩ ∧
      after.get? child = some {
        label, enclosing := nested.path parent, inner := [], closed := false, payload } := by
  have accepted : nested.requireOpen parent = .ok () := by
    cases check : nested.requireOpen parent with
    | ok => rfl
    | error cause => simp [enter, check] at entered
  have known := ((requireOpen_eq_ok_iff nested parent).mp accepted).1
  simp only [enter, accepted, EStateM.Result.ok.injEq] at entered
  obtain ⟨rfl, rfl⟩ := entered
  refine ⟨rfl, ?_⟩
  have distinct : parent ≠ ⟨nested.size⟩ := by
    rintro rfl
    exact absurd known (by simp)
  rw [get?_modify, if_neg distinct]
  simp [get?, size]

theorem close_of_isClosed {nested : NestedScopes α} {scope : ScopeId}
    (closed : nested.isClosed scope = true) : nested.close scope = .ok false nested := by
  simp [close, closed]

theorem close_of_requireUsable {nested : NestedScopes α} {scope : ScopeId}
    (usable : nested.requireUsable scope = .ok ()) :
    nested.close scope =
      .ok true (nested.modify scope fun node => { node with closed := true }) := by
  have opened := ((requireUsable_eq_ok_iff nested scope).mp usable).2.1
  simp [close, opened, usable]

end NestedScopes

end JvmEmit
