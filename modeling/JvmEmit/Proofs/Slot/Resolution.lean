import JvmEmit.Proofs.Slot.Summaries
import Mathlib.Data.List.Pairwise

/-!
# Resolving names and indices

A name is looked up in the frames along the path of a scope, the innermost first, by the positions
that each frame keeps. No two variables in sight of an open scope have the same name, so the look-up
finds the variable of that name among all variables in sight, if there is one. A variable of another
scope is never found, even one of a closed scope whose name is used again around it.

An index is looked up in the closest frame that begins at or before it, and counts the variables in
sight from the outermost scope inwards.
-/

namespace JvmEmit

variable {τ : Type}

/-- The closest frame that begins at or before an index has the variable with that index. -/
theorem Counted.find?_bind_getElem? {frames : List (VariableFrame τ)} (counted : Counted frames)
    (index : Nat) :
    ((frames.find? fun frame => frame.firstIndex ≤ index).bind fun frame =>
      frame.contents[index - frame.firstIndex]?) = (variablesOf frames)[index]? := by
  induction frames with
  | nil => rfl
  | cons own outer ih =>
      rw [variablesOf_cons]
      by_cases begun : own.firstIndex ≤ index
      · have behind : (variablesOf outer).length ≤ index := by rwa [← counted.1]
        rw [List.find?_cons_of_pos (by simpa using begun), List.getElem?_append_right behind,
          ← counted.1]
        simp
      · have before : index < (variablesOf outer).length := by
          rw [← counted.1]
          omega
        rw [List.find?_cons_of_neg (by simpa using begun), List.getElem?_append_left before]
        exact ih counted.2

theorem VariableFrame.Indexed.of_named? {frame : VariableFrame τ} (indexed : frame.Indexed)
    {name : String} {declared : Variable τ} (found : frame.named? name = some declared) :
    declared ∈ frame.contents.toList ∧ declared.name = some name := by
  rcases Option.bind_eq_some_iff.mp found with ⟨position, known, atPosition⟩
  have named := (indexed name position).mp known
  rw [atPosition] at named
  exact ⟨Array.mem_toList_iff.mpr (Array.mem_of_getElem? atPosition), named⟩

/-- Of variables with different names, at most one has a given name. -/
theorem countP_name_le_one {row : List (Variable τ)}
    (apart : row.Pairwise fun earlier later =>
      ∀ name, earlier.name = some name → later.name ≠ some name) (name : String) :
    row.countP (fun declared => declared.name = some name) ≤ 1 := by
  induction row with
  | nil => simp
  | cons first row ih =>
      rw [List.pairwise_cons] at apart
      by_cases named : first.name = some name
      · have noneElse : row.countP (fun declared => declared.name = some name) = 0 := by
          simpa [List.countP_eq_zero] using fun declared member => apart.1 declared member name named
        simp [named, noneElse]
      · simpa [List.countP_cons, named] using ih apart.2

namespace SlotTable

namespace Coherent

variable [Slotted τ] {table : SlotTable τ} {scope : ScopeId}

/-! ## Names -/

theorem mem_visible_of_named? (coherent : table.Coherent) {name : String} {declared : Variable τ}
    (found : table.named? scope name = some declared) :
    declared ∈ table.visible scope ∧ declared.name = some name := by
  rcases List.exists_of_findSome?_eq_some found with ⟨frame, member, inFrame⟩
  have named := (coherent.indexed.frame_indexed member).of_named? inFrame
  exact ⟨mem_variablesOf_iff.mpr ⟨frame, member, named.1⟩, named.2⟩

/-- A name in sight leads to the variable that has it. -/
theorem named?_eq_some_iff (coherent : table.Coherent)
    (scopeOpen : table.scopes.isClosed scope = false) {name : String} {declared : Variable τ} :
    table.named? scope name = some declared ↔
      declared ∈ table.visible scope ∧ declared.name = some name := by
  constructor
  · exact coherent.mem_visible_of_named?
  · rintro ⟨member, named⟩
    cases found : table.named? scope name with
    | none =>
        exact absurd named ((coherent.indexed.named?_eq_none_iff scope name).mp found _ member)
    | some other =>
        -- the look-up ends at the innermost variable of the name, which is the only one
        rcases coherent.mem_visible_of_named? found with ⟨otherMember, otherNamed⟩
        by_contra different
        have symmetric : Std.Symm fun earlier later : Variable τ =>
            ∀ name, earlier.name = some name → later.name ≠ some name := by
          constructor
          intro earlier later apart given laterNamed earlierNamed
          exact apart given earlierNamed laterNamed
        have apart := (coherent.namesApart scopeOpen).forall otherMember member
          fun same => different (congrArg some same)
        exact apart name otherNamed named

theorem named?_eq_find? (coherent : table.Coherent)
    (scopeOpen : table.scopes.isClosed scope = false) (name : String) :
    table.named? scope name =
      (table.visible scope).find? fun declared => declared.name = some name := by
  cases found : (table.visible scope).find? fun declared => declared.name = some name with
  | none =>
      apply (coherent.indexed.named?_eq_none_iff scope name).mpr
      simpa using found
  | some declared =>
      apply (coherent.named?_eq_some_iff scopeOpen).mpr
      exact ⟨List.mem_of_find?_eq_some found, by simpa using List.find?_some found⟩

theorem resolve_eq (coherent : table.Coherent) (isOpen : table.scopes.requireOpen scope = .ok ())
    (name : String) :
    table.resolve scope name =
      match (table.visible scope).find? fun declared => declared.name = some name with
      | some declared => .ok declared
      | none => .error (.nameUnknown name (table.scopes.pathName scope)) := by
  have scopeOpen := ((NestedScopes.requireOpen_eq_ok_iff _ _).mp isOpen).2
  have named := coherent.named?_eq_find? scopeOpen name
  cases found : (table.visible scope).find? fun declared => declared.name = some name with
  | none => simp [resolve, isOpen, named.trans found]
  | some declared => simp [resolve, isOpen, named.trans found]

theorem resolve_eq_ok_iff (coherent : table.Coherent)
    (isOpen : table.scopes.requireOpen scope = .ok ()) {name : String} {declared : Variable τ} :
    table.resolve scope name = .ok declared ↔
      declared ∈ table.visible scope ∧ declared.name = some name := by
  have scopeOpen := ((NestedScopes.requireOpen_eq_ok_iff _ _).mp isOpen).2
  rw [← coherent.named?_eq_some_iff scopeOpen, resolve, isOpen]
  cases table.named? scope name <;> simp

/-- What a scope sees was declared in the scope itself or in a scope around it. -/
theorem scope_mem_path (coherent : table.Coherent) {declared : Variable τ}
    (member : declared ∈ table.visible scope) : declared.scope ∈ table.scopes.path scope := by
  rw [visible_eq_flatMap_path] at member
  rcases List.mem_flatMap.mp member with ⟨home, onPath, declaredThere⟩
  rw [coherent.atHome home declared declaredThere]
  exact List.mem_reverse.mp onPath

/-! ## Indices -/

theorem indexed?_eq (coherent : table.Coherent) (scopeOpen : table.scopes.isClosed scope = false)
    (index : Nat) : table.indexed? scope index = (table.visible scope)[index]? :=
  (coherent.counted scope scopeOpen).find?_bind_getElem? index

theorem resolveIndex_eq (coherent : table.Coherent)
    (isOpen : table.scopes.requireOpen scope = .ok ()) (index : Nat) :
    table.resolveIndex scope index =
      match (table.visible scope)[index]? with
      | some declared => .ok declared
      | none => .error (.indexTooLarge index (table.visible scope).length) := by
  have scopeOpen := ((NestedScopes.requireOpen_eq_ok_iff _ _).mp isOpen).2
  simp only [resolveIndex, isOpen, coherent.counted.visibleCount_eq isOpen,
    coherent.indexed?_eq scopeOpen]
  split
  · rename_i tooLarge
    rw [List.getElem?_eq_none tooLarge]
  · rfl

theorem resolveIndex_eq_ok_iff (coherent : table.Coherent)
    (isOpen : table.scopes.requireOpen scope = .ok ()) {index : Nat} {declared : Variable τ} :
    table.resolveIndex scope index = .ok declared ↔
      (table.visible scope)[index]? = some declared := by
  rw [coherent.resolveIndex_eq isOpen]
  cases (table.visible scope)[index]? <;> simp

end Coherent

theorem resolveAmong_eq_ok_iff {table : SlotTable τ} {scope : ScopeId}
    (isOpen : table.scopes.requireOpen scope = .ok ()) {role : VariableRole} {count index : Nat}
    {declared : Variable τ} :
    table.resolveAmong scope role count index = .ok declared ↔
      ((table.visible scope).filter fun declared => declared.role = role)[index]? =
        some declared := by
  rw [resolveAmong, isOpen]
  cases ((table.visible scope).filter fun declared => declared.role = role)[index]? <;> simp

/-! ## After every run -/

/--
After every run, at most one of the variables that an open scope sees has a given name, and the name
is resolved to that variable, which is declared in the scope or around it. The name is that of an
argument or a local variable if this variable is one. Every frame knows exactly the positions of its
named variables.
-/
theorem names_resolve_to_visible_variables [Slotted τ] (label : Option String)
    (calls : List (SlotCall τ)) {scope : ScopeId}
    (isOpen : (ofCalls label calls).scopes.requireOpen scope = .ok ()) (name : String) :
    ((ofCalls label calls).visible scope).countP (fun declared => declared.name = some name) ≤ 1 ∧
    (ofCalls label calls).resolve scope name =
      (match ((ofCalls label calls).visible scope).find? fun declared =>
          declared.name = some name with
        | some declared => .ok declared
        | none => .error (.nameUnknown name ((ofCalls label calls).scopes.pathName scope))) ∧
    ((ofCalls label calls).hasArgument scope name = true ↔
      ∃ declared ∈ (ofCalls label calls).visible scope,
        declared.name = some name ∧ declared.role = .argument) ∧
    ((ofCalls label calls).hasLocal scope name = true ↔
      ∃ declared ∈ (ofCalls label calls).visible scope,
        declared.name = some name ∧ declared.role = .localVariable) ∧
    (∀ declared, (ofCalls label calls).resolve scope name = .ok declared →
      declared.scope ∈ (ofCalls label calls).scopes.path scope) ∧
    ∀ home position, ((ofCalls label calls).frame home).positions[name]? = some position ↔
      ∃ declared, ((ofCalls label calls).frame home).contents[position]? = some declared ∧
        declared.name = some name := by
  have coherent := Coherent.ofCalls label calls
  have scopeOpen := ((NestedScopes.requireOpen_eq_ok_iff _ _).mp isOpen).2
  have hasRole : ∀ role, (((ofCalls label calls).named? scope name).any fun declared =>
      declared.role = role) = true ↔
      ∃ declared ∈ (ofCalls label calls).visible scope,
        declared.name = some name ∧ declared.role = role := by
    intro role
    simp only [Option.any_eq_true, coherent.named?_eq_some_iff scopeOpen, decide_eq_true_iff,
      and_assoc]
  refine ⟨countP_name_le_one (coherent.namesApart scopeOpen) name, coherent.resolve_eq isOpen name,
    hasRole .argument, hasRole .localVariable, ?_, ?_⟩
  · intro declared resolved
    exact coherent.scope_mem_path ((coherent.resolve_eq_ok_iff isOpen).mp resolved).1
  · intro home position
    rw [coherent.indexed home name position, Option.bind_eq_some_iff]

/-- A name of a closed scope is used again around it, and then seen from another nested scope. -/
def reusedName : List (SlotCall StackKind) :=
  [.declareArgument .root .long (some "a"), .enter .root none,
    .declareLocal ⟨1⟩ .double (some "x"), .close ⟨1⟩, .declareLocal .root .int (some "x"),
    .enter .root none, .declareLocal ⟨2⟩ .int none, .declareLocal ⟨2⟩ .float (some "y")]

/-- The variable of the closed scope is not found, and the argument is no local variable. -/
theorem names_resolve_to_visible_variables_around_closed_scope :
    (ofCalls none reusedName).scopes.requireOpen ⟨2⟩ = .ok () ∧
      (ofCalls none reusedName).resolve ⟨2⟩ "x" =
        .ok ⟨some "x", .int, .root, 2, .localVariable⟩ ∧
      (ofCalls none reusedName).hasArgument ⟨2⟩ "a" = true ∧
      ¬(ofCalls none reusedName).hasLocal ⟨2⟩ "a" = true := by
  have isOpen : (ofCalls none reusedName).scopes.requireOpen ⟨2⟩ = .ok () := by decide
  rcases names_resolve_to_visible_variables none reusedName isOpen "x" with ⟨_, resolved, _⟩
  rcases names_resolve_to_visible_variables none reusedName isOpen "a" with
    ⟨_, _, isArgument, isLocal, _⟩
  refine ⟨isOpen, resolved.trans (by decide), ?_, ?_⟩
  · exact isArgument.mpr ⟨⟨some "a", .long, .root, 0, .argument⟩, by decide, rfl, rfl⟩
  · rw [isLocal]
    decide

end SlotTable

end JvmEmit
