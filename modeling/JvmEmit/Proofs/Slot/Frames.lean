import JvmEmit.Proofs.Slot.Runs

/-!
# The frames of a slot table

A step keeps a frame, or makes the frame of a new scope, or adds one variable to a frame. The same
holds of the frames along the path of an open scope, because no variable is ever added around an open
scope: what an open scope sees is kept, or taken over from the parent of a new scope, or grows by one
variable at its end.

Beside its variables, a frame keeps numbers that save a walk through them. They are what its
variables make of them. The index at which a frame begins is that of its parent's variables when the
scope was entered, and counts the variables around the scope as long as the scope is open.
-/

namespace JvmEmit

variable {τ : Type}

/-! ## The variables of a row of frames -/

/-- The variables of frames of which each lies inside the next, the outermost frame first. -/
def variablesOf (frames : List (VariableFrame τ)) : List (Variable τ) :=
  frames.reverse.flatMap fun frame => frame.contents.toList

@[simp]
theorem variablesOf_nil : variablesOf ([] : List (VariableFrame τ)) = [] :=
  rfl

@[simp]
theorem variablesOf_cons (own : VariableFrame τ) (outer : List (VariableFrame τ)) :
    variablesOf (own :: outer) = variablesOf outer ++ own.contents.toList := by
  simp [variablesOf]

theorem mem_variablesOf_iff {frames : List (VariableFrame τ)} {declared : Variable τ} :
    declared ∈ variablesOf frames ↔ ∃ frame ∈ frames, declared ∈ frame.contents.toList := by
  simp [variablesOf]

namespace SlotTable

theorem visible_eq_variablesOf (table : SlotTable τ) (scope : ScopeId) :
    table.visible scope = variablesOf (table.frames scope) :=
  rfl

@[simp]
theorem visible_ofRoot (label : Option String) (scope : ScopeId) :
    (SlotTable.ofRoot label : SlotTable τ).visible scope = [] := by
  rcases scope with ⟨_ | index⟩
  · rfl
  · rfl

theorem frames_eq_cons {table : SlotTable τ} {scope : ScopeId}
    (known : scope.index < table.scopes.size) :
    table.frames scope = table.frame scope :: table.scopes.outerPayloads scope := by
  rcases NestedScopes.exists_payload? known with ⟨own, found⟩
  rw [frames, NestedScopes.payloads_eq, frame_eq_of_payload? found, found]
  rfl

/-- The frames along the path of a scope are those of the scopes on the path. -/
theorem frame_of_mem_frames {table : SlotTable τ} {scope : ScopeId} {frame : VariableFrame τ}
    (member : frame ∈ table.frames scope) :
    ∃ outer ∈ table.scopes.path scope, table.frame outer = frame := by
  rcases List.mem_filterMap.mp member with ⟨outer, onPath, found⟩
  exact ⟨outer, onPath, frame_eq_of_payload? found⟩

/-! ## What a step does to the frames -/

section Step

variable [Slotted τ] {table after : SlotTable τ}

/-- A frame is kept, or it is that of the new scope, or it gets one variable. -/
theorem Step.frame_cases (step : table.Step after) (scope : ScopeId) :
    after.frame scope = table.frame scope ∨
    (∃ parent, table.scopes.size ≤ scope.index ∧ after.frame scope = table.innerFrame parent) ∨
    (∃ role name type, table.requireDeclarable scope role name = .ok () ∧
      (role = .receiver → name = none) ∧
      after.frame scope = (table.frame scope).push (table.nextVariable scope role type name)) := by
  cases step with
  | idle => exact .inl rfl
  | enter entered =>
      rw [frame_of_enter entered]
      split
      · rename_i atChild
        rw [atChild]
        exact .inr (.inl ⟨_, NestedScopes.size_le_child_of_enter entered, rfl⟩)
      · exact .inl rfl
  | close usable => exact .inl (frame_closedAt table _ _ scope)
  | declare accepted type unnamed =>
      rename_i home role name
      have usable := ((requireDeclarable_eq_ok_iff _ _ _ _).mp accepted).1
      have known := ((NestedScopes.requireUsable_eq_ok_iff _ _).mp usable).1
      rw [frame_adding (table.nextVariable home role type name) known]
      split
      · rename_i same
        change home = scope at same
        subst same
        exact .inr (.inr ⟨role, name, type, accepted, unnamed, rfl⟩)
      · exact .inl rfl

/--
The frames along the path of an open scope are kept, or those of a parent are taken over by a new
scope, or the innermost one gets one variable.
-/
theorem Step.frames_cases (wellNested : table.scopes.WellNested) (step : table.Step after)
    {scope : ScopeId} (scopeOpen : after.scopes.isClosed scope = false) :
    (table.scopes.isClosed scope = false ∧ after.frames scope = table.frames scope) ∨
    (∃ parent, table.scopes.size ≤ scope.index ∧ table.scopes.requireOpen parent = .ok () ∧
      after.frames scope = table.innerFrame parent :: table.frames parent) ∨
    (∃ role name type, table.requireDeclarable scope role name = .ok () ∧
      (role = .receiver → name = none) ∧
      after.frames scope =
        (table.frame scope).push (table.nextVariable scope role type name) ::
          table.scopes.outerPayloads scope) := by
  cases step with
  | idle => exact .inl ⟨scopeOpen, rfl⟩
  | enter entered =>
      rename_i parent child label scopes
      change scopes.isClosed scope = false at scopeOpen
      rw [NestedScopes.isClosed_of_enter entered] at scopeOpen
      by_cases atChild : scope = child
      · subst atChild
        refine .inr (.inl ⟨parent, NestedScopes.size_le_child_of_enter entered,
          NestedScopes.requireOpen_of_enter entered, ?_⟩)
        exact wellNested.payloads_child_of_enter entered
      · exact .inl ⟨scopeOpen, wellNested.payloads_of_enter entered atChild⟩
  | close usable =>
      rename_i closing
      have known := ((NestedScopes.requireUsable_eq_ok_iff _ _).mp usable).1
      change (table.scopes.closedAt closing).isClosed scope = false at scopeOpen
      rw [NestedScopes.isClosed_closedAt _ _ _ known, Bool.or_eq_false_iff] at scopeOpen
      exact .inl ⟨scopeOpen.2, NestedScopes.payloads_closedAt _ _ _⟩
  | declare accepted type unnamed =>
      rename_i home role name
      have usable := ((requireDeclarable_eq_ok_iff _ _ _ _).mp accepted).1
      have known := ((NestedScopes.requireUsable_eq_ok_iff _ _).mp usable).1
      have openBefore : table.scopes.isClosed scope = false :=
        (NestedScopes.isClosed_modifyPayload _ _ _ _).symm.trans scopeOpen
      by_cases same : home = scope
      · subst same
        refine .inr (.inr ⟨role, name, type, accepted, unnamed, ?_⟩)
        rcases NestedScopes.exists_payload? known with ⟨own, found⟩
        rw [frame_eq_of_payload? found]
        exact wellNested.payloads_modifyPayload_self found _
      · -- no other open scope lies inside the one that declares
        have apart := wellNested.not_mem_path_of_usable usable openBefore (Ne.symm same)
        exact .inl ⟨openBefore, NestedScopes.payloads_modifyPayload_of_not_mem _ apart⟩

/-- What an open scope sees is kept, or taken over from a parent, or gets one variable. -/
theorem Step.visible_cases (wellNested : table.scopes.WellNested) (step : table.Step after)
    {scope : ScopeId} (scopeOpen : after.scopes.isClosed scope = false) :
    (∃ before, table.scopes.isClosed before = false ∧
      after.visible scope = table.visible before) ∨
    (∃ role name type, table.requireDeclarable scope role name = .ok () ∧
      (role = .receiver → name = none) ∧
      after.visible scope =
        table.visible scope ++ [table.nextVariable scope role type name]) := by
  rcases step.frames_cases wellNested scopeOpen with
    ⟨openBefore, frames⟩ | ⟨parent, _, parentOpen, frames⟩ |
    ⟨role, name, type, accepted, unnamed, frames⟩
  · refine .inl ⟨scope, openBefore, ?_⟩
    rw [visible_eq_variablesOf, frames, visible_eq_variablesOf]
  · refine .inl ⟨parent, ((NestedScopes.requireOpen_eq_ok_iff _ _).mp parentOpen).2, ?_⟩
    rw [visible_eq_variablesOf, frames, variablesOf_cons]
    exact List.append_nil _
  · refine .inr ⟨role, name, type, accepted, unnamed, ?_⟩
    have usable := ((requireDeclarable_eq_ok_iff _ _ _ _).mp accepted).1
    have known := ((NestedScopes.requireUsable_eq_ok_iff _ _).mp usable).1
    rw [visible_eq_variablesOf, frames, visible_eq_variablesOf, frames_eq_cons known]
    simp [VariableFrame.push]

end Step

end SlotTable

/-! ## What a frame keeps of its variables -/

namespace VariableFrame

variable [Slotted τ]

/-- The frame has been built up from its variables, one after another. -/
def Built (frame : VariableFrame τ) : Prop :=
  frame = frame.contents.toList.foldl push (startingAt frame.firstSlot frame.firstIndex)

theorem built_startingAt (slot index : Nat) : (startingAt slot index : VariableFrame τ).Built :=
  rfl

theorem Built.push {frame : VariableFrame τ} (built : frame.Built) (declared : Variable τ) :
    (frame.push declared).Built := by
  have contents : (frame.push declared).contents.toList = frame.contents.toList ++ [declared] :=
    Array.toList_push
  rw [Built, contents, List.foldl_append]
  exact congrArg (VariableFrame.push · declared) built

end VariableFrame

namespace SlotTable

/-- Every frame of the table has been built up from its variables. -/
def Built [Slotted τ] (table : SlotTable τ) : Prop :=
  ∀ scope, (table.frame scope).Built

namespace Built

variable [Slotted τ] {table : SlotTable τ}

theorem initial (label : Option String) : (SlotTable.ofRoot label : SlotTable τ).Built := by
  rintro ⟨_ | index⟩
  · exact VariableFrame.built_startingAt 0 0
  · exact VariableFrame.built_startingAt 0 0

theorem step {after : SlotTable τ} (built : table.Built) (step : table.Step after) :
    after.Built := by
  intro scope
  rcases step.frame_cases scope with kept | ⟨parent, _, entered⟩ | ⟨role, name, type, _, _, grown⟩
  · rw [kept]
    exact built scope
  · rw [entered]
    exact VariableFrame.built_startingAt _ _
  · rw [grown]
    exact (built scope).push _

theorem of_mem_frames (built : table.Built) {scope : ScopeId} {frame : VariableFrame τ}
    (member : frame ∈ table.frames scope) : frame.Built := by
  rcases frame_of_mem_frames member with ⟨outer, _, rfl⟩
  exact built outer

/-- A summary put together along the path is that of the variables in sight, if frames add their own. -/
theorem foldr_frames {β : Type} (built : table.Built) (combine : VariableFrame τ → β → β)
    (ofRow : List (Variable τ) → β)
    (adds : ∀ (frame : VariableFrame τ) (row : List (Variable τ)), frame.Built →
      combine frame (ofRow row) = ofRow (row ++ frame.contents.toList)) (scope : ScopeId) :
    (table.frames scope).foldr combine (ofRow []) = ofRow (table.visible scope) := by
  rw [visible_eq_variablesOf]
  have frameBuilt : ∀ frame ∈ table.frames scope, frame.Built := fun _ => built.of_mem_frames
  generalize table.frames scope = frames at frameBuilt ⊢
  induction frames with
  | nil => rfl
  | cons own outer ih =>
      rw [List.forall_mem_cons] at frameBuilt
      rw [List.foldr_cons, ih frameBuilt.2, variablesOf_cons]
      exact adds own (variablesOf outer) frameBuilt.1

end Built

end SlotTable

/-! ## Where variables are declared -/

namespace SlotTable

/-- A variable knows the scope that it was declared in. -/
def DeclaredAtHome (table : SlotTable τ) : Prop :=
  ∀ scope, ∀ declared ∈ table.declaredIn scope, declared.scope = scope

namespace DeclaredAtHome

variable {table : SlotTable τ}

theorem initial (label : Option String) :
    (SlotTable.ofRoot label : SlotTable τ).DeclaredAtHome := by
  rintro ⟨_ | index⟩ declared member
  · cases member
  · cases member

theorem step [Slotted τ] {after : SlotTable τ} (atHome : table.DeclaredAtHome)
    (step : table.Step after) : after.DeclaredAtHome := by
  intro scope declared member
  rw [declaredIn] at member
  rcases step.frame_cases scope with kept | ⟨parent, _, entered⟩ | ⟨role, name, type, _, _, grown⟩
  · rw [kept] at member
    exact atHome scope declared member
  · rw [entered] at member
    cases member
  · rw [grown, VariableFrame.push, Array.toList_push] at member
    rcases List.mem_append.mp member with older | newest
    · exact atHome scope declared older
    · rw [List.mem_singleton.mp newest]
      rfl

end DeclaredAtHome

end SlotTable

/-! ## Where frames begin -/

/-- Each frame begins at the index that the variables around it lead up to. -/
def Counted : List (VariableFrame τ) → Prop
  | [] => True
  | own :: outer => own.firstIndex = (variablesOf outer).length ∧ Counted outer

namespace SlotTable

/-- Along the path of an open scope, frames begin where those around them end. -/
def CountedOpenly (table : SlotTable τ) : Prop :=
  ∀ scope, table.scopes.isClosed scope = false → Counted (table.frames scope)

namespace CountedOpenly

variable {table : SlotTable τ}

theorem initial (label : Option String) :
    (SlotTable.ofRoot label : SlotTable τ).CountedOpenly := by
  rintro ⟨_ | index⟩ _
  · exact ⟨rfl, trivial⟩
  · trivial

/-- An open scope sees as many variables as it keeps count of. -/
theorem visibleCount_eq (counted : table.CountedOpenly) {scope : ScopeId}
    (isOpen : table.scopes.requireOpen scope = .ok ()) :
    table.visibleCount scope = (table.visible scope).length := by
  have opened := (NestedScopes.requireOpen_eq_ok_iff _ _).mp isOpen
  have frames := frames_eq_cons opened.1
  have begins := counted scope opened.2
  rw [frames] at begins
  rw [visible_eq_variablesOf, frames, variablesOf_cons, List.length_append, ← begins.1,
    Array.length_toList]
  rfl

theorem step [Slotted τ] {after : SlotTable τ} (counted : table.CountedOpenly)
    (wellNested : table.scopes.WellNested) (step : table.Step after) : after.CountedOpenly := by
  intro scope scopeOpen
  rcases step.frames_cases wellNested scopeOpen with
    ⟨openBefore, frames⟩ | ⟨parent, _, parentOpen, frames⟩ | ⟨role, name, type, accepted, _, frames⟩
  · rw [frames]
    exact counted scope openBefore
  · rw [frames]
    exact ⟨counted.visibleCount_eq parentOpen,
      counted parent ((NestedScopes.requireOpen_eq_ok_iff _ _).mp parentOpen).2⟩
  · have usable := (NestedScopes.requireUsable_eq_ok_iff _ _).mp
      ((requireDeclarable_eq_ok_iff _ _ _ _).mp accepted).1
    have begins := counted scope usable.2.1
    rw [frames_eq_cons usable.1] at begins
    rw [frames]
    exact begins

end CountedOpenly

end SlotTable

end JvmEmit
