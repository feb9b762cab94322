import JvmEmit.Proofs.Scope.Nesting

/-!
# Nestings with a single open path

If scopes are entered only inside usable ones, the open scopes lie on one path: of two open scopes
one is around the other. Entering an open scope that has open scopes inside it, which nested scopes
allow, would open a second path.
-/

namespace JvmEmit

namespace NestedScopes

variable {α : Type}

/-- Of two open scopes one lies on the path of the other. -/
def SinglePath (nested : NestedScopes α) : Prop :=
  ∀ scope other : ScopeId, nested.requireOpen scope = .ok () →
    nested.requireOpen other = .ok () → scope ∈ nested.path other ∨ other ∈ nested.path scope

namespace SinglePath

variable {nested : NestedScopes α}

theorem ofRoot (label : Option String) (payload : α) : (ofRoot label payload).SinglePath := by
  intro scope other scopeOpen otherOpen
  have scopeKnown := ((requireOpen_eq_ok_iff _ _).mp scopeOpen).1
  have otherKnown := ((requireOpen_eq_ok_iff _ _).mp otherOpen).1
  rw [size_ofRoot, Nat.lt_one_iff] at scopeKnown otherKnown
  left
  rw [path, show scope = other from congrArg ScopeId.mk (scopeKnown.trans otherKnown.symm)]
  exact List.mem_cons_self

theorem mem_path_of_usable (singlePath : nested.SinglePath) (wellNested : nested.WellNested)
    {usable scope : ScopeId} (isUsable : nested.requireUsable usable = .ok ())
    (scopeOpen : nested.requireOpen scope = .ok ()) : scope ∈ nested.path usable := by
  rcases singlePath scope usable scopeOpen (requireOpen_of_requireUsable isUsable) with around | inside
  · exact around
  · rcases List.mem_cons.mp inside with same | inside
    · rw [same]
      exact List.mem_cons_self
    · have isOpen := ((requireOpen_eq_ok_iff _ _).mp scopeOpen).2
      exact absurd inside (wellNested.not_mem_enclosing_of_usable isUsable isOpen)

theorem enter {parent child : ScopeId} {label : Option String} {payload : α}
    {after : NestedScopes α} (singlePath : nested.SinglePath) (wellNested : nested.WellNested)
    (usable : nested.requireUsable parent = .ok ())
    (entered : nested.enter parent label payload = .ok child after) : after.SinglePath := by
  have childPath : after.path child = child :: nested.path parent := by
    rw [path_of_enter entered, if_pos rfl]
  have inChildPath : ∀ {scope : ScopeId}, after.requireOpen scope = .ok () →
      scope ∈ after.path child := by
    intro scope scopeOpen
    rw [childPath]
    by_cases same : scope = child
    · rw [same]
      exact List.mem_cons_self
    · have older := (requireOpen_after_enter_iff entered same).mp scopeOpen
      exact List.mem_cons_of_mem _ (singlePath.mem_path_of_usable wellNested usable older)
  intro scope other scopeOpen otherOpen
  by_cases scopeNew : scope = child
  · subst scopeNew
    exact .inr (inChildPath otherOpen)
  by_cases otherNew : other = child
  · subst otherNew
    exact .inl (inChildPath scopeOpen)
  rw [path_of_enter entered, path_of_enter entered, if_neg scopeNew, if_neg otherNew]
  apply singlePath
  · exact (requireOpen_after_enter_iff entered scopeNew).mp scopeOpen
  · exact (requireOpen_after_enter_iff entered otherNew).mp otherOpen

theorem closedAt (singlePath : nested.SinglePath) {closing : ScopeId}
    (known : closing.index < nested.size) : (nested.closedAt closing).SinglePath := by
  intro scope other scopeOpen otherOpen
  rw [path_closedAt, path_closedAt]
  apply singlePath
  · exact ((requireOpen_closedAt_iff nested closing scope known).mp scopeOpen).2
  · exact ((requireOpen_closedAt_iff nested closing other known).mp otherOpen).2

theorem modifyPayload (singlePath : nested.SinglePath) (scope : ScopeId) (change : α → α) :
    (nested.modifyPayload scope change).SinglePath := by
  intro one other oneOpen otherOpen
  rw [path_modifyPayload, path_modifyPayload]
  apply singlePath
  · exact (requireOpen_modifyPayload_iff nested scope one change).mp oneOpen
  · exact (requireOpen_modifyPayload_iff nested scope other change).mp otherOpen

end SinglePath

end NestedScopes

end JvmEmit
