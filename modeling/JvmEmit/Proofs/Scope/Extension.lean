import JvmEmit.Proofs.Scope.Nesting

/-!
# Nestings that grow

Scopes are opened at the end and closed for good, and nothing else is done to a nesting but changes
of payloads. So what is known of a scope stays: its label, the scopes around it and the order of those
inside it, behind which others may be listed.
-/

namespace JvmEmit

namespace NestedScopes

variable {α : Type}

/-- The later nesting has the scopes of the earlier one in their places, and perhaps others. -/
structure Extends (earlier later : NestedScopes α) : Prop where
  size_le : earlier.size ≤ later.size
  label?_eq : ∀ {scope : ScopeId}, scope.index < earlier.size →
    later.label? scope = earlier.label? scope
  enclosing_eq : ∀ {scope : ScopeId}, scope.index < earlier.size →
    later.enclosing scope = earlier.enclosing scope
  inner_prefix : ∀ scope : ScopeId, earlier.inner scope <+: later.inner scope
  isClosed_stays : ∀ {scope : ScopeId}, earlier.isClosed scope = true →
    later.isClosed scope = true

namespace Extends

variable {earlier later : NestedScopes α} {scope : ScopeId}

theorem refl (nested : NestedScopes α) : nested.Extends nested :=
  ⟨Nat.le_refl _, fun _ => rfl, fun _ => rfl, fun _ => List.prefix_refl _, id⟩

theorem trans {middle : NestedScopes α} (first : earlier.Extends middle)
    (second : middle.Extends later) : earlier.Extends later := by
  refine ⟨Nat.le_trans first.size_le second.size_le, ?_, ?_, ?_, ?_⟩
  · intro scope known
    have stillKnown := Nat.lt_of_lt_of_le known first.size_le
    exact (second.label?_eq stillKnown).trans (first.label?_eq known)
  · intro scope known
    have stillKnown := Nat.lt_of_lt_of_le known first.size_le
    exact (second.enclosing_eq stillKnown).trans (first.enclosing_eq known)
  · intro scope
    exact (first.inner_prefix scope).trans (second.inner_prefix scope)
  · intro scope closed
    exact second.isClosed_stays (first.isClosed_stays closed)

theorem enter {parent child : ScopeId} {label : Option String} {payload : α}
    (entered : earlier.enter parent label payload = .ok child later) : earlier.Extends later := by
  have unknown := size_le_child_of_enter entered
  have older : ∀ {scope : ScopeId}, scope.index < earlier.size → scope ≠ child := by
    rintro scope known rfl
    omega
  refine ⟨?_, ?_, ?_, ?_, ?_⟩
  · simp [size_of_enter entered]
  · intro scope known
    simp [label?_of_enter entered, older known]
  · intro scope known
    simp [enclosing_of_enter entered, older known]
  · intro scope
    rw [inner_of_enter entered]
    split
    · exact List.prefix_append _ _
    · exact List.prefix_rfl
  · intro scope closed
    simp [isClosed_of_enter entered, closed]

theorem closedAt {closing : ScopeId} (known : closing.index < earlier.size) :
    earlier.Extends (earlier.closedAt closing) := by
  have stays : ∀ {scope : ScopeId}, earlier.isClosed scope = true →
      (earlier.closedAt closing).isClosed scope = true := by
    intro scope closed
    simp [isClosed_closedAt _ _ _ known, closed]
  refine ⟨?_, ?_, ?_, ?_, stays⟩ <;> simp

theorem modifyPayload (nested : NestedScopes α) (scope : ScopeId) (change : α → α) :
    nested.Extends (nested.modifyPayload scope change) := by
  refine ⟨?_, ?_, ?_, ?_, ?_⟩ <;> simp

theorem path_eq (extended : earlier.Extends later) (known : scope.index < earlier.size) :
    later.path scope = earlier.path scope := by
  simp [path, extended.enclosing_eq known]

theorem parent?_eq (extended : earlier.Extends later) (known : scope.index < earlier.size) :
    later.parent? scope = earlier.parent? scope := by
  simp [parent?, extended.enclosing_eq known]

/-- A scope that is open was open before. -/
theorem open_before (extended : earlier.Extends later) (isOpen : later.isClosed scope = false) :
    earlier.isClosed scope = false := by
  apply Bool.eq_false_iff.mpr
  intro closed
  rw [extended.isClosed_stays closed] at isOpen
  cases isOpen

end Extends

end NestedScopes

end JvmEmit
