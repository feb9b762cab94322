import JvmEmit.Proofs.Slot.Layout
import JvmEmit.Proofs.Slot.Names

/-!
# What an open scope sees

An open scope sees the same variables until a variable is declared in it, since nothing around it can
declare any. So what is checked when a variable is declared stays true of all the variables that an
open scope sees: they have different names, and the frame has slots for them.
-/

namespace JvmEmit

variable {τ : Type}

namespace SlotTable

/-- A scope sees the variables of the scopes on its path, those of the outermost scope first. -/
theorem visible_eq_flatMap_path (table : SlotTable τ) (scope : ScopeId) :
    table.visible scope = (table.scopes.path scope).reverse.flatMap table.declaredIn := by
  rw [visible, frames, NestedScopes.payloads, ← List.filterMap_reverse,
    List.filterMap_eq_flatMap_toList, List.flatMap_assoc]
  apply List.flatMap_congr
  intro outer _
  rw [declaredIn, frame]
  cases table.scopes.payload? outer <;> simp [VariableFrame.startingAt]

theorem declaredIn_adding [Slotted τ] {table : SlotTable τ} {scope : ScopeId}
    (known : scope.index < table.scopes.size) (role : VariableRole) (type : τ)
    (name : Option String) :
    (table.adding (table.nextVariable scope role type name)).declaredIn scope =
      table.declaredIn scope ++ [table.nextVariable scope role type name] := by
  have frame := frame_adding (table.nextVariable scope role type name) known scope
  rw [declaredIn, frame.trans (if_pos rfl)]
  exact Array.toList_push

/-- A declaration adds the variable behind those that its scope sees already. -/
theorem visible_adding_self [Slotted τ] {table : SlotTable τ} {declared : Variable τ}
    (wellNested : table.scopes.WellNested) (known : declared.scope.index < table.scopes.size) :
    (table.adding declared).visible declared.scope =
      table.visible declared.scope ++ [declared] := by
  rcases NestedScopes.exists_payload? known with ⟨own, found⟩
  rw [visible, frames, adding, wellNested.payloads_modifyPayload_self found, visible, frames,
    NestedScopes.payloads_eq, found]
  simp [VariableFrame.push]

/-! ## Names -/

/-- The variables that an open scope sees have different names. -/
def NamesApart (table : SlotTable τ) : Prop :=
  ∀ {scope : ScopeId}, table.scopes.isClosed scope = false →
    (table.visible scope).Pairwise fun earlier later =>
      ∀ name, earlier.name = some name → later.name ≠ some name

namespace NamesApart

variable {table : SlotTable τ}

theorem initial (label : Option String) : (SlotTable.ofRoot label : SlotTable τ).NamesApart := by
  intro scope _
  rw [visible_ofRoot]
  exact .nil

/-- A declaration asks for a name that none of the visible variables has. -/
theorem step [Slotted τ] {after : SlotTable τ} (namesApart : table.NamesApart)
    (wellNested : table.scopes.WellNested) (indexed : table.Indexed) (step : table.Step after) :
    after.NamesApart := by
  intro scope scopeOpen
  rcases step.visible_cases wellNested scopeOpen with
    ⟨before, openBefore, visible⟩ | ⟨role, name, type, accepted, _, visible⟩
  · rw [visible]
    exact namesApart openBefore
  · have accepts := (requireDeclarable_eq_ok_iff _ _ _ _).mp accepted
    have openBefore := ((NestedScopes.requireUsable_eq_ok_iff _ _).mp accepts.1).2.1
    rw [visible, List.pairwise_append]
    refine ⟨namesApart openBefore, List.pairwise_singleton _ _, ?_⟩
    intro earlier member later newest given named sameName
    rw [List.mem_singleton.mp newest] at sameName
    have missing := accepts.2.2 given sameName
    exact (indexed.named?_eq_none_iff scope given).mp missing earlier member named

end NamesApart

/-! ## Room -/

theorem nextSlot_adding [Slotted τ] {table : SlotTable τ} {scope : ScopeId}
    (known : scope.index < table.scopes.size) (role : VariableRole) (type : τ)
    (name : Option String) :
    (table.adding (table.nextVariable scope role type name)).nextSlot scope =
      table.nextSlot scope + Slotted.slotCount type := by
  have frame := frame_adding (table.nextVariable scope role type name) known scope
  rw [nextSlot, frame.trans (if_pos rfl)]
  rfl

/-- The slots that the table asks for hold the variables of every scope. -/
def HasRoom [Slotted τ] (table : SlotTable τ) : Prop :=
  ∀ scope, table.nextSlot scope ≤ table.slotsNeeded

namespace HasRoom

variable [Slotted τ] {table : SlotTable τ}

theorem initial (label : Option String) : (SlotTable.ofRoot label : SlotTable τ).HasRoom := by
  rintro ⟨_ | index⟩
  · exact Nat.le_refl 0
  · exact Nat.le_refl 0

theorem step {after : SlotTable τ} (hasRoom : table.HasRoom) (step : table.Step after) :
    after.HasRoom := by
  cases step with
  | idle => exact hasRoom
  | enter entered =>
      intro scope
      rw [nextSlot, frame_of_enter entered]
      split
      · exact hasRoom _
      · exact hasRoom scope
  | close usable =>
      intro scope
      rw [nextSlot, frame_closedAt]
      exact hasRoom scope
  | declare accepted type unnamed =>
      have usable := ((requireDeclarable_eq_ok_iff _ _ _ _).mp accepted).1
      have known := ((NestedScopes.requireUsable_eq_ok_iff _ _).mp usable).1
      intro scope
      rw [nextSlot, frame_adding (table.nextVariable _ _ type _) known]
      split
      · rename_i same
        rw [← same]
        exact Nat.le_max_right _ _
      · exact Nat.le_trans (hasRoom scope) (Nat.le_max_left _ _)

end HasRoom

end SlotTable

end JvmEmit
