import JvmEmit.Proofs.Slot.Layout
import JvmEmit.Proofs.Slot.Names

/-!
# Variables in the order of declaration

A variable is placed behind every variable that is visible where it is declared, and has another
name. The variables visible then are those declared before it in its scope and in the scopes around
it. A variable declared before it in a scope that lies inside its own is not among them, and may
share slots and name with it.

The list of all declared variables, in the order of declaration, keeps this for good, since the
path of a scope never changes.
-/

namespace JvmEmit

variable {τ : Type}

namespace SlotTable

theorem mem_visible_of_mem_declaredIn {table : SlotTable τ} {scope outer : ScopeId}
    {declared : Variable τ} (member : declared ∈ table.declaredIn outer)
    (onPath : outer ∈ table.scopes.path scope) : declared ∈ table.visible scope := by
  rw [declaredIn, frame] at member
  cases found : table.scopes.payload? outer with
  | none =>
      rw [found] at member
      simp [VariableFrame.startingAt] at member
  | some own =>
      rw [found] at member
      apply List.mem_flatMap.mpr
      refine ⟨own, ?_, member⟩
      rw [List.mem_reverse]
      exact List.mem_filterMap.mpr ⟨outer, onPath, found⟩

theorem known_of_mem_declaredIn {table : SlotTable τ} {scope : ScopeId} {declared : Variable τ}
    (member : declared ∈ table.declaredIn scope) : scope.index < table.scopes.size := by
  rw [declaredIn, frame] at member
  apply (NestedScopes.payload?_isSome_iff table.scopes scope).mp
  cases found : table.scopes.payload? scope with
  | none =>
      rw [found] at member
      simp [VariableFrame.startingAt] at member
  | some own => rfl

variable [Slotted τ]

/-- The variables were declared one after another in their scopes. -/
structure InOrder (table : SlotTable τ) (history : List (Variable τ)) : Prop where
  declared : ∀ declared ∈ history, declared ∈ table.declaredIn declared.scope
  /-- A variable comes behind those declared before it in its scope or around it. -/
  ordered : history.Pairwise fun earlier later =>
    earlier.scope ∈ table.scopes.path later.scope →
      earlier.endSlot ≤ later.slot ∧ ∀ name, earlier.name = some name → later.name ≠ some name

namespace InOrder

variable {table : SlotTable τ} {history : List (Variable τ)}

theorem nil (table : SlotTable τ) : table.InOrder [] := by
  constructor
  · intro declared member
    cases member
  · exact .nil

theorem enter {parent child : ScopeId} {label : Option String}
    {scopes : NestedScopes (VariableFrame τ)} (inOrder : table.InOrder history)
    (entered : table.scopes.enter parent label (table.innerFrame parent) = .ok child scopes) :
    InOrder { table with scopes } history := by
  have unknown := NestedScopes.size_le_child_of_enter entered
  have older : ∀ declared ∈ history, declared.scope ≠ child := by
    intro declared member same
    have known := known_of_mem_declaredIn (inOrder.declared declared member)
    rw [same] at known
    omega
  constructor
  · intro declared member
    rw [declaredIn, frame_of_enter entered, if_neg (older declared member)]
    exact inOrder.declared declared member
  · apply inOrder.ordered.imp_of_mem
    intro earlier later _ laterMember apart onPath
    apply apart
    change earlier.scope ∈ scopes.path later.scope at onPath
    rwa [NestedScopes.path_of_enter entered, if_neg (older later laterMember)] at onPath

theorem close (inOrder : table.InOrder history) (closing : ScopeId) :
    InOrder { table with scopes := table.scopes.closedAt closing } history := by
  constructor
  · intro declared member
    rw [declaredIn, frame_closedAt]
    exact inOrder.declared declared member
  · simpa using inOrder.ordered

theorem declare {scope : ScopeId} {role : VariableRole} {name : Option String}
    (inOrder : table.InOrder history) (laidOut : table.LaidOut) (indexed : table.Indexed)
    (accepted : table.requireDeclarable scope role name = .ok ()) (type : τ) :
    (table.adding (table.nextVariable scope role type name)).InOrder
      (history ++ [table.nextVariable scope role type name]) := by
  have accepts := (requireDeclarable_eq_ok_iff _ _ _ _).mp accepted
  have usable := (NestedScopes.requireUsable_eq_ok_iff _ _).mp accepts.1
  have frame := frame_adding (table.nextVariable scope role type name) usable.1
  have visibleBounds := (laidOut.visible_tiles usable.2.1).bounds.2
  have paths : ∀ other,
      (table.adding (table.nextVariable scope role type name)).scopes.path other =
        table.scopes.path other := fun other => NestedScopes.path_modifyPayload _ _ _ _
  constructor
  · intro declared member
    rw [declaredIn, frame]
    rcases List.mem_append.mp member with older | newest
    · have kept := inOrder.declared declared older
      split
      · rw [VariableFrame.push, Array.toList_push]
        exact List.mem_append_left _ kept
      · exact kept
    · rw [List.mem_singleton] at newest
      subst newest
      rw [if_pos rfl, VariableFrame.push, Array.toList_push]
      exact List.mem_append_right _ (List.mem_singleton_self _)
  · simp only [paths]
    rw [List.pairwise_append]
    refine ⟨inOrder.ordered, List.pairwise_singleton _ _, ?_⟩
    intro earlier member later newest onPath
    rw [List.mem_singleton] at newest
    subst newest
    have visible : earlier ∈ table.visible scope :=
      mem_visible_of_mem_declaredIn (inOrder.declared earlier member) onPath
    refine ⟨(visibleBounds earlier visible).2, ?_⟩
    intro given named sameName
    have missing := accepts.2.2 given sameName
    exact (indexed.named?_eq_none_iff scope given).mp missing earlier visible named

end InOrder

end SlotTable

end JvmEmit
