import JvmEmit.Proofs.Scope.Detour

/-!
# The beginning of a detour

A scope is entered, and from then on a nesting is only changed at this scope and at those entered
later. The scopes entered earlier stay as they are, so when the scope is closed again, it has been a
detour: closing it at once would have led to the same nesting, up to the numbers of scopes.
-/

namespace JvmEmit

namespace NestedScopes

variable {α : Type}

/-- The scopes that are numbered below a scope are what they were before. -/
structure KeptBelow (entry : ScopeId) (before after : NestedScopes α) : Prop where
  size_le : before.size ≤ after.size
  get?_eq : ∀ scope, scope.index < entry.index → after.get? scope = before.get? scope

namespace KeptBelow

variable {entry scope : ScopeId} {before nested after : NestedScopes α}

theorem refl (entry : ScopeId) (before : NestedScopes α) : KeptBelow entry before before :=
  ⟨Nat.le_refl _, fun _ _ => rfl⟩

/-- A change to a scope that is not below is not seen below. -/
theorem modify (kept : KeptBelow entry before nested) (behind : entry.index ≤ scope.index)
    (change : Scope α → Scope α) : KeptBelow entry before (nested.modify scope change) := by
  refine ⟨?_, ?_⟩
  · rw [size_modify]
    exact kept.size_le
  · intro other below
    have apart : scope ≠ other := by
      rintro rfl
      omega
    rw [get?_modify, if_neg apart]
    exact kept.get?_eq other below

theorem modifyPayload (kept : KeptBelow entry before nested) (behind : entry.index ≤ scope.index)
    (change : α → α) : KeptBelow entry before (nested.modifyPayload scope change) :=
  kept.modify behind _

theorem closedAt (kept : KeptBelow entry before nested) (behind : entry.index ≤ scope.index) :
    KeptBelow entry before (nested.closedAt scope) :=
  kept.modify behind _

theorem enter {parent child : ScopeId} {label : Option String} {payload : α}
    (kept : KeptBelow entry before nested) (behind : entry.index ≤ parent.index)
    (entered : nested.enter parent label payload = .ok child after) :
    KeptBelow entry before after := by
  have known := ((requireOpen_eq_ok_iff _ _).mp (requireOpen_of_enter entered)).1
  have last := size_le_child_of_enter entered
  refine ⟨?_, ?_⟩
  · rw [size_of_enter entered]
    exact Nat.le_succ_of_le kept.size_le
  · intro other below
    have notChild : other ≠ child := by
      rintro rfl
      omega
    have notParent : other ≠ parent := by
      rintro rfl
      omega
    rw [get?_after_enter entered, if_neg notChild, if_neg notParent]
    exact kept.get?_eq other below

end KeptBelow

end NestedScopes

namespace Detour

open NestedScopes

variable {α : Type} {detour : Detour} {before after : NestedScopes α}

/-- Nothing that belongs to a scope is numbered above the scope that was entered last. -/
theorem movedNode_of_last (wellNested : before.WellNested)
    (last : before.size = detour.closed.index + 1) {scope : ScopeId} {node : Scope α}
    (found : before.get? scope = some node) : detour.movedNode node = node := by
  have fixed : ∀ scopes : List ScopeId, (∀ other ∈ scopes, other.index < before.size) →
      scopes.map detour.moved = scopes := by
    intro scopes known
    have same : scopes.map detour.moved = scopes.map id := by
      apply List.map_congr_left
      intro other member
      have below := known other member
      exact moved_of_le (by omega)
    rw [same, List.map_id]
  have known : scope.index < before.size := by
    rw [← isSome_get?_iff, found]
    rfl
  have enclosing : before.enclosing scope = node.enclosing := by
    rw [NestedScopes.enclosing, found]
    rfl
  have inner : before.inner scope = node.inner := by
    rw [NestedScopes.inner, found]
    rfl
  rw [movedNode, fixed node.enclosing, fixed node.inner]
  · intro child listed
    rw [← inner] at listed
    exact known_of_parent? (wellNested.mem_inner_iff.mp listed)
  · intro outer around
    rw [← enclosing] at around
    exact Nat.lt_trans (wellNested.earlier_of_mem_enclosing around) known

theorem Separates.of_keptBelow (wellNested : before.WellNested)
    (last : before.size = detour.closed.index + 1)
    (usable : before.requireUsable detour.closed = .ok ())
    (kept : KeptBelow detour.closed before after) (gap : after.size = before.size + detour.gap)
    (closed : after.isClosed detour.closed = true) :
    detour.Separates (before.closedAt detour.closed) after := by
  have known : detour.closed.index < before.size := by omega
  constructor
  · exact wellNested.closedAt usable
  · rw [size_closedAt]
    exact known
  · rw [size_closedAt]
    exact gap
  · intro scope other
    rw [get?_closedAt, if_neg other.symm]
    rcases Nat.lt_or_ge scope.index detour.closed.index with below | above
    · rw [moved_of_le (Nat.le_of_lt below), kept.get?_eq scope below]
      cases found : before.get? scope with
      | none => rfl
      | some node => rw [Option.map_some, movedNode_of_last wellNested last found]
    · have apart : scope.index ≠ detour.closed.index := by
        intro same
        exact other (congrArg ScopeId.mk same)
      have behind : detour.closed.index < scope.index := by omega
      rw [moved_of_lt behind, get?_eq_none_of_unknown, get?_eq_none_of_unknown]
      · rfl
      · omega
      · rw [gap]
        exact Nat.add_le_add_right (by omega) _
  · rw [isClosed_closedAt _ _ _ known]
    simp
  · exact closed
  · intro scope around
    rw [enclosing_closedAt] at around
    have behind := wellNested.earlier_of_mem_enclosing around
    rw [enclosing_eq_nil_of_unknown (by omega)] at around
    cases around

end Detour

end JvmEmit
