import JvmEmit.Proofs.Scope.Nesting
import JvmEmit.Slot.Table
import Mathlib.Data.List.Induction

/-!
# Runs of a slot table

A run is a list of calls that change a slot table, from the table whose outermost scope is empty.
Calls may fail, and then change nothing. `SlotTable.Step` lists what one call can do; the draft of a
method changes its slot table by such steps as well.
-/

namespace JvmEmit

/-- The calls that change a slot table. -/
inductive SlotCall (τ : Type) where
  | enter (parent : ScopeId) (label : Option String)
  | close (scope : ScopeId)
  | declareReceiver (scope : ScopeId) (type : τ)
  | declareArgument (scope : ScopeId) (type : τ) (name : Option String)
  | declareLocal (scope : ScopeId) (type : τ) (name : Option String)

namespace SlotTable

variable {τ : Type}

/-! ## What a declaration asks for -/

theorem requireDeclarable_eq_ok_iff (table : SlotTable τ) (scope : ScopeId) (role : VariableRole)
    (name : Option String) :
    table.requireDeclarable scope role name = .ok () ↔
      table.scopes.requireUsable scope = .ok () ∧ table.orderViolation? scope role = none ∧
        ∀ given, name = some given → table.named? scope given = none := by
  rw [requireDeclarable]
  cases table.scopes.requireUsable scope with
  | error cause => simp
  | ok =>
      cases table.orderViolation? scope role with
      | some detail => simp
      | none =>
          cases name with
          | none => simp
          | some given => cases found : table.named? scope given <;> simp [Option.filter, found]

/-! ## The frames after a change -/

section Frames

variable {table : SlotTable τ}

theorem frame_eq_of_payload? {scope : ScopeId} {own : VariableFrame τ}
    (found : table.scopes.payload? scope = some own) : table.frame scope = own := by
  simp [frame, found]

theorem frame_of_enter {parent child : ScopeId} {label : Option String} {own : VariableFrame τ}
    {scopes : NestedScopes (VariableFrame τ)}
    (entered : table.scopes.enter parent label own = .ok child scopes) (slotsNeeded : Nat)
    (scope : ScopeId) :
    (SlotTable.mk scopes slotsNeeded).frame scope = if scope = child then own else table.frame scope := by
  rw [frame, NestedScopes.payload?_of_enter entered]
  split
  · rfl
  · rfl

theorem frame_closedAt (table : SlotTable τ) (closing : ScopeId) (slotsNeeded : Nat) (scope : ScopeId) :
    (SlotTable.mk (table.scopes.closedAt closing) slotsNeeded).frame scope = table.frame scope := by
  rw [frame, NestedScopes.payload?_closedAt]
  rfl

end Frames

/-! ## What a scope sees -/

theorem visible_eq_of_outermost {table : SlotTable τ} {scope : ScopeId}
    (outside : table.scopes.parent? scope = none) : table.visible scope = table.declaredIn scope := by
  have noOuter : table.scopes.outerPayloads scope = [] := by
    rw [NestedScopes.outerPayloads, (NestedScopes.enclosing_eq_nil_iff _ _).mpr outside]
    rfl
  rw [visible, frames, NestedScopes.payloads_eq, noOuter, declaredIn, frame]
  cases table.scopes.payload? scope with
  | none => rfl
  | some own => simp

/-- A nested scope sees what its parent sees, and then its own variables. -/
theorem visible_eq_append {table : SlotTable τ} (wellNested : table.scopes.WellNested)
    {scope parent : ScopeId} (inside : table.scopes.parent? scope = some parent) :
    table.visible scope = table.visible parent ++ table.declaredIn scope := by
  rw [visible, frames, NestedScopes.payloads_eq, wellNested.outerPayloads_eq inside, visible, frames,
    declaredIn, frame]
  cases table.scopes.payload? scope with
  | none => simp [VariableFrame.startingAt]
  | some own => simp

/-! ## Outcomes of the operations -/

/-- The frame of a new scope starts behind the variables of its parent. -/
def innerFrame (table : SlotTable τ) (parent : ScopeId) : VariableFrame τ :=
  .startingAt (table.nextSlot parent) (table.visibleCount parent)

theorem enter_cases (table : SlotTable τ) (parent : ScopeId) (label : Option String) :
    (∃ scopes,
      table.scopes.enter parent label (table.innerFrame parent) = .ok ⟨table.scopes.size⟩ scopes ∧
      table.enter parent label = .ok ⟨table.scopes.size⟩ { table with scopes }) ∨
    (∃ cause, table.scopes.requireOpen parent = .error cause ∧
      table.enter parent label = .error cause table) := by
  have unfolded : table.enter parent label =
      (table.scopes.enter parent label (table.innerFrame parent)).lift id fun scopes =>
        { table with scopes } := rfl
  rcases table.scopes.enter_cases parent label (table.innerFrame parent) with
    ⟨_, scopes, entered⟩ | ⟨cause, closed, refused⟩
  · refine .inl ⟨scopes, entered, ?_⟩
    rw [unfolded, entered]
    rfl
  · refine .inr ⟨cause, closed, ?_⟩
    rw [unfolded, refused]
    rfl

theorem close_cases (table : SlotTable τ) (scope : ScopeId) :
    (table.scopes.requireUsable scope = .ok () ∧
      table.close scope = .ok true { table with scopes := table.scopes.closedAt scope }) ∨
    (table.scopes.isClosed scope = true ∧ table.close scope = .ok false table) ∨
    (∃ cause, table.scopes.requireUsable scope = .error cause ∧
      table.close scope = .error cause table) := by
  rw [SlotTable.close]
  rcases table.scopes.close_cases scope with
    ⟨usable, closed⟩ | ⟨before, closed⟩ | ⟨cause, unusable, refused⟩
  · exact .inl ⟨usable, by rw [closed]; rfl⟩
  · exact .inr (.inl ⟨before, by rw [closed]; rfl⟩)
  · exact .inr (.inr ⟨cause, unusable, by rw [refused]; rfl⟩)

variable [Slotted τ]

/-- The variable that a declaration adds to a scope. -/
def nextVariable (table : SlotTable τ) (scope : ScopeId) (role : VariableRole) (type : τ)
    (name : Option String) : Variable τ :=
  { name, type, scope, slot := table.nextSlot scope, role }

/-- The table after a variable was added to its scope. -/
def adding (table : SlotTable τ) (declared : Variable τ) : SlotTable τ where
  scopes := table.scopes.modifyPayload declared.scope fun frame => frame.push declared
  slotsNeeded := max table.slotsNeeded declared.endSlot

theorem frame_adding {table : SlotTable τ} (declared : Variable τ)
    (known : declared.scope.index < table.scopes.size) (scope : ScopeId) :
    (table.adding declared).frame scope =
      if declared.scope = scope then (table.frame scope).push declared else table.frame scope := by
  rw [frame, adding, NestedScopes.payload?_modifyPayload]
  split
  · rename_i same
    obtain ⟨own, found⟩ := NestedScopes.exists_payload? known
    rw [← same, found, frame, found]
    rfl
  · rfl

theorem wellNested_adding {table : SlotTable τ} (wellNested : table.scopes.WellNested)
    (declared : Variable τ) : (table.adding declared).scopes.WellNested :=
  wellNested.modifyPayload declared.scope fun frame => frame.push declared

theorem declare_cases (table : SlotTable τ) (scope : ScopeId) (role : VariableRole) (type : τ)
    (name : Option String) :
    (table.requireDeclarable scope role name = .ok () ∧
      table.declare scope role type name =
        .ok (table.nextVariable scope role type name)
          (table.adding (table.nextVariable scope role type name))) ∨
    (∃ cause, table.requireDeclarable scope role name = .error cause ∧
      table.declare scope role type name = .error cause table) := by
  cases check : table.requireDeclarable scope role name with
  | ok =>
      refine .inl ⟨rfl, ?_⟩
      rw [declare, check]
      rfl
  | error cause =>
      refine .inr ⟨cause, rfl, ?_⟩
      rw [declare, check]

/-! ## What a call can do -/

/-- The changes that one call can make to a slot table. -/
inductive Step : SlotTable τ → SlotTable τ → Prop where
  | idle (table : SlotTable τ) : Step table table
  | enter {table : SlotTable τ} {parent child : ScopeId} {label : Option String}
      {scopes : NestedScopes (VariableFrame τ)}
      (entered : table.scopes.enter parent label (table.innerFrame parent) = .ok child scopes) :
      Step table { table with scopes }
  | close {table : SlotTable τ} {scope : ScopeId}
      (usable : table.scopes.requireUsable scope = .ok ()) :
      Step table { table with scopes := table.scopes.closedAt scope }
  | declare {table : SlotTable τ} {scope : ScopeId} {role : VariableRole} {name : Option String}
      (accepted : table.requireDeclarable scope role name = .ok ()) (type : τ)
      (unnamed : role = .receiver → name = none) :
      Step table (table.adding (table.nextVariable scope role type name))

theorem step_enter (table : SlotTable τ) (parent : ScopeId) (label : Option String) :
    Step table (Outcome.state (table.enter parent label)) := by
  rcases table.enter_cases parent label with ⟨scopes, entered, result⟩ | ⟨cause, _, result⟩
  · rw [result]
    exact .enter entered
  · rw [result]
    exact .idle table

theorem step_close (table : SlotTable τ) (scope : ScopeId) :
    Step table (Outcome.state (table.close scope)) := by
  rcases table.close_cases scope with ⟨usable, result⟩ | ⟨_, result⟩ | ⟨cause, _, result⟩
  · rw [result]
    exact .close usable
  · rw [result]
    exact .idle table
  · rw [result]
    exact .idle table

theorem step_declare (table : SlotTable τ) (scope : ScopeId) (role : VariableRole) (type : τ)
    (name : Option String) (unnamed : role = .receiver → name = none) :
    Step table (Outcome.state (table.declare scope role type name)) := by
  rcases table.declare_cases scope role type name with ⟨accepted, result⟩ | ⟨cause, _, result⟩
  · rw [result]
    exact .declare accepted type unnamed
  · rw [result]
    exact .idle table

end SlotTable

namespace SlotCall

variable {τ : Type} [Slotted τ]

/-- The table after a call, whether the call succeeds or fails. -/
def after (call : SlotCall τ) (table : SlotTable τ) : SlotTable τ :=
  match call with
  | .enter parent label => Outcome.state (table.enter parent label)
  | .close scope => Outcome.state (table.close scope)
  | .declareReceiver scope type => Outcome.state (table.declareReceiver scope type)
  | .declareArgument scope type name => Outcome.state (table.declareArgument scope type name)
  | .declareLocal scope type name => Outcome.state (table.declareLocal scope type name)

theorem step_after (call : SlotCall τ) (table : SlotTable τ) : table.Step (call.after table) := by
  cases call with
  | enter parent label => exact table.step_enter parent label
  | close scope => exact table.step_close scope
  | declareReceiver scope type => exact table.step_declare scope .receiver type none fun _ => rfl
  | declareArgument scope type name =>
      exact table.step_declare scope .argument type name (by simp)
  | declareLocal scope type name =>
      exact table.step_declare scope .localVariable type name (by simp)

end SlotCall

namespace SlotTable

variable {τ : Type} [Slotted τ]

/-- The table after a row of calls on the table without variables. -/
def ofCalls (label : Option String) (calls : List (SlotCall τ)) : SlotTable τ :=
  calls.foldl (fun table call => call.after table) (.ofRoot label)

theorem ofCalls_append (label : Option String) (calls : List (SlotCall τ)) (call : SlotCall τ) :
    ofCalls label (calls ++ [call]) = call.after (ofCalls label calls) := by
  rw [ofCalls, List.foldl_append]
  rfl

/-- What holds of the empty table and is kept by every step holds after every run. -/
theorem ofCalls_induction {invariant : SlotTable τ → Prop} (label : Option String)
    (initial : invariant (.ofRoot label))
    (kept : ∀ {table after : SlotTable τ}, invariant table → table.Step after → invariant after)
    (calls : List (SlotCall τ)) : invariant (ofCalls label calls) := by
  induction calls using List.reverseRecOn with
  | nil => exact initial
  | append_singleton calls call ih =>
      rw [ofCalls, List.foldl_append]
      exact kept ih (call.step_after _)

end SlotTable

end JvmEmit
