import JvmEmit.Proofs.Scope.OpenPath
import JvmEmit.Proofs.Slot.Indices
import JvmEmit.Proofs.Slot.Order
import JvmEmit.Proofs.Slot.Stability
import Mathlib.Data.List.Flatten

/-!
# The counters of a scope

A scope counts its variables and those around it in two ways. How many there are in all was noted for
the scopes around it when the scope was entered, whereas the arguments, the local variables and the
receiver are looked for along the path whenever they are asked for. As long as the scope is open,
nothing is declared around it and the two ways agree.

Once the scope is closed, the scopes around it may declare again, and their new variables come into
its sight. The number in all stays what it was when the scope was closed. So the counters of a closed
scope agree with its view if nothing was declared around it since, and only then.
-/

namespace JvmEmit

variable {τ : Type}

/-! ## Counting all roles -/

/-- Every variable has one of three roles. -/
theorem sum_roleCount (row : List (Variable τ)) :
    roleCount .receiver row + roleCount .argument row + roleCount .localVariable row =
      row.length := by
  induction row with
  | nil => rfl
  | cons first row ih =>
      simp only [roleCount, List.countP_cons, List.length_cons] at ih ⊢
      cases role : first.role <;> simp <;> omega

/-- In the order of roles there is at most one receiver. -/
theorem InRoleOrder.roleCount_receiver {row : List (Variable τ)} (inOrder : InRoleOrder row) :
    roleCount .receiver row = (receiverOf row).isSome.toNat := by
  cases row with
  | nil => rfl
  | cons first rest =>
      have noneBehind : roleCount .receiver rest = 0 := by
        apply List.countP_eq_zero.mpr
        intro later member
        have follows := (List.pairwise_cons.mp inOrder.ordered).1 later member
        simp only [decide_eq_true_iff]
        intro isReceiver
        rw [isReceiver] at follows
        exact VariableRole.not_mayPrecede_receiver _ follows
      simp only [roleCount, List.countP_cons] at noneBehind ⊢
      rw [noneBehind]
      cases role : first.role <;> simp [receiverOf, role]

namespace SlotTable

/-- The counters of a scope say how many variables are in sight, in all and by their roles. -/
structure CountsVisible (table : SlotTable τ) (scope : ScopeId) : Prop where
  visibleCount : table.visibleCount scope = (table.visible scope).length
  isEmpty_iff : table.isEmpty scope = true ↔ table.visible scope = []
  byRole : table.visibleCount scope =
    (table.hasReceiver scope).toNat + table.argumentCount scope + table.localCount scope

/-- In a later table, a closed scope has the variables that it had, and may see more around it. -/
structure AsLeft (left later : SlotTable τ) (scope : ScopeId) : Prop where
  isClosed : later.scopes.isClosed scope = true
  frame : later.frame scope = left.frame scope
  visible : (left.visible scope).Sublist (later.visible scope)

/-- Closing a scope leaves its variables and its view. -/
theorem asLeft_closedAt {table : SlotTable τ} {scope : ScopeId}
    (usable : table.scopes.requireUsable scope = .ok ()) :
    table.AsLeft { table with scopes := table.scopes.closedAt scope } scope := by
  have known := ((NestedScopes.requireUsable_eq_ok_iff _ _).mp usable).1
  refine ⟨?_, frame_closedAt table scope _ scope, ?_⟩
  · simp [NestedScopes.isClosed_closedAt _ _ _ known]
  · rw [visible, visible, frames, frames, NestedScopes.payloads_closedAt]

variable [Slotted τ]

/-! ## The counters of an open scope -/

theorem Coherent.countsVisible {table : SlotTable τ} (coherent : table.Coherent) {scope : ScopeId}
    (isOpen : table.scopes.requireOpen scope = .ok ()) : table.CountsVisible scope := by
  have scopeOpen := ((NestedScopes.requireOpen_eq_ok_iff _ _).mp isOpen).2
  have total := coherent.counted.visibleCount_eq isOpen
  refine ⟨total, ?_, ?_⟩
  · simp [SlotTable.isEmpty, total]
  · rw [total, ← sum_roleCount, (coherent.rolesInOrder scope scopeOpen).roleCount_receiver,
      coherent.rolesInOrder.hasReceiver_eq scopeOpen, coherent.built.argumentCount_eq,
      coherent.built.localCount_eq]

/-! ## The roles in sight of any scope -/

/-- The variables of each scope, open or closed, are in the order of roles. -/
theorem declaredIn_inRoleOrder (label : Option String) (calls : List (SlotCall τ))
    (scope : ScopeId) : InRoleOrder ((ofCalls label calls).declaredIn scope) := by
  induction calls using List.reverseRecOn with
  | nil =>
      have noVariables : (ofCalls label []).declaredIn scope = ([] : List (Variable τ)) := by
        rcases scope with ⟨_ | index⟩ <;> rfl
      rw [noVariables]
      exact .nil
  | append_singleton calls call ih =>
      have coherent := Coherent.ofCalls label calls
      rw [ofCalls_append, declaredIn]
      rcases (call.step_after (ofCalls label calls)).frame_cases scope with
        kept | ⟨parent, _, entered⟩ | ⟨role, name, type, accepted, unnamed, grown⟩
      · rw [kept]
        exact ih
      · rw [entered]
        exact .nil
      · have accepts := (requireDeclarable_eq_ok_iff _ _ _ _).mp accepted
        have isOpen := NestedScopes.requireOpen_of_requireUsable accepts.1
        rw [grown, VariableFrame.push, Array.toList_push]
        apply ih.concat
        · intro earlier member
          apply (coherent.rolesInOrder.orderViolation?_eq_none_iff coherent.built coherent.counted
            isOpen role).mp accepts.2.1
          exact mem_visible_of_mem_declaredIn member List.mem_cons_self
        · exact unnamed

/-- A scope, open or closed, finds a receiver if there is one in sight. -/
theorem hasReceiver_iff_exists (label : Option String) (calls : List (SlotCall τ))
    (scope : ScopeId) :
    (ofCalls label calls).hasReceiver scope = true ↔
      ∃ declared ∈ (ofCalls label calls).visible scope, declared.role = .receiver := by
  have inFront : ∀ frame ∈ (ofCalls label calls).frames scope,
      frame.receiver?.isSome = true ↔
        ∃ declared ∈ frame.contents.toList, declared.role = .receiver := by
    intro frame member
    rcases frame_of_mem_frames member with ⟨outer, _, rfl⟩
    have inOrder := declaredIn_inRoleOrder label calls outer
    rw [declaredIn] at inOrder
    simp only [VariableFrame.receiver?_eq, Option.isSome_iff_exists, inOrder.receiverOf_eq_some_iff]
  simp only [hasReceiver, SlotTable.receiver?, List.findSome?_isSome_iff,
    visible_eq_variablesOf, mem_variablesOf_iff]
  constructor
  · rintro ⟨frame, member, found⟩
    rcases (inFront frame member).mp found with ⟨declared, inFrame, isReceiver⟩
    exact ⟨declared, ⟨frame, member, inFrame⟩, isReceiver⟩
  · rintro ⟨declared, ⟨frame, member, inFrame⟩, isReceiver⟩
    exact ⟨frame, member, (inFront frame member).mpr ⟨declared, inFrame, isReceiver⟩⟩

/-! ## What a step leaves of a closed scope -/

section Step

variable {table after : SlotTable τ} {scope : ScopeId}

theorem Step.declaredIn_prefix (step : table.Step after)
    (known : scope.index < table.scopes.size) :
    table.declaredIn scope <+: after.declaredIn scope := by
  rw [declaredIn, declaredIn]
  rcases step.frame_cases scope with kept | ⟨_, unknown, _⟩ | ⟨_, _, _, _, _, grown⟩
  · simp [kept]
  · omega
  · rw [grown, VariableFrame.push, Array.toList_push]
    exact List.prefix_append _ _

/-- What a scope sees stays in its sight, and more may come between. -/
theorem Step.visible_sublist (wellNested : table.scopes.WellNested) (step : table.Step after)
    (known : scope.index < table.scopes.size) :
    (table.visible scope).Sublist (after.visible scope) := by
  rw [visible_eq_flatMap_path, visible_eq_flatMap_path, step.scopes_extend.path_eq known]
  apply List.Sublist.flatMap_right
  intro outer member
  apply (step.declaredIn_prefix _).sublist
  exact wellNested.known_of_mem_path known (List.mem_reverse.mp member)

theorem Step.frame_eq_of_isClosed (step : table.Step after)
    (known : scope.index < table.scopes.size) (closed : table.scopes.isClosed scope = true) :
    after.frame scope = table.frame scope := by
  rcases step.frame_cases scope with kept | ⟨_, unknown, _⟩ | ⟨_, _, _, accepted, _⟩
  · exact kept
  · omega
  · have usable := ((requireDeclarable_eq_ok_iff _ _ _ _).mp accepted).1
    have isOpen := ((NestedScopes.requireUsable_eq_ok_iff _ _).mp usable).2.1
    rw [closed] at isOpen
    cases isOpen

end Step

/-! ## The way back to the closing of a scope -/

theorem AsLeft.step {left table after : SlotTable τ} {scope : ScopeId}
    (asLeft : left.AsLeft table scope) (wellNested : table.scopes.WellNested)
    (step : table.Step after) (known : scope.index < table.scopes.size) :
    left.AsLeft after scope := by
  refine ⟨step.scopes_extend.isClosed_stays asLeft.isClosed, ?_, ?_⟩
  · exact (step.frame_eq_of_isClosed known asLeft.isClosed).trans asLeft.frame
  · exact asLeft.visible.trans (step.visible_sublist wellNested known)

theorem isClosed_declare (table : SlotTable τ) (home : ScopeId) (role : VariableRole)
    (type : τ) (name : Option String) (scope : ScopeId) :
    (Outcome.state (table.declare home role type name)).scopes.isClosed scope =
      table.scopes.isClosed scope := by
  rcases table.declare_cases home role type name with ⟨_, result⟩ | ⟨_, _, result⟩
  · rw [result]
    exact NestedScopes.isClosed_modifyPayload _ _ _ _
  · rw [result]
    rfl

end SlotTable

/-- Only the call to close a scope closes it, if the scope can be used. -/
theorem SlotCall.closes_cases [Slotted τ] (call : SlotCall τ) (table : SlotTable τ)
    (scope : ScopeId) :
    (call.after table).scopes.isClosed scope = table.scopes.isClosed scope ∨
    (call = .close scope ∧ table.scopes.requireUsable scope = .ok () ∧
      call.after table = { table with scopes := table.scopes.closedAt scope }) := by
  cases call with
  | enter parent label =>
      left
      rw [after]
      rcases table.enter_cases parent label with ⟨scopes, entered, result⟩ | ⟨_, _, result⟩
      · rw [result]
        exact NestedScopes.isClosed_of_enter entered scope
      · rw [result]
        rfl
  | close closing =>
      rw [after]
      rcases table.close_cases closing with ⟨usable, result⟩ | ⟨_, result⟩ | ⟨_, _, result⟩
      · rw [result]
        have known := ((NestedScopes.requireUsable_eq_ok_iff _ _).mp usable).1
        by_cases same : closing = scope
        · subst same
          exact .inr ⟨rfl, usable, rfl⟩
        · left
          simp [NestedScopes.isClosed_closedAt _ _ _ known, same]
      · rw [result]
        exact .inl rfl
      · rw [result]
        exact .inl rfl
  | declareReceiver home type => exact .inl (table.isClosed_declare home .receiver type none scope)
  | declareArgument home type name =>
      exact .inl (table.isClosed_declare home .argument type name scope)
  | declareLocal home type name =>
      exact .inl (table.isClosed_declare home .localVariable type name scope)

namespace SlotTable

variable [Slotted τ]

/-- A closed scope was closed by a call of the run, and is as that call has left it. -/
theorem exists_asLeft (label : Option String) (calls : List (SlotCall τ)) {scope : ScopeId}
    (closed : (ofCalls label calls).scopes.isClosed scope = true) :
    ∃ earlier later, calls = earlier ++ .close scope :: later ∧
      (ofCalls label earlier).scopes.requireUsable scope = .ok () ∧
      (ofCalls label earlier).AsLeft (ofCalls label calls) scope := by
  induction calls using List.reverseRecOn with
  | nil =>
      rcases scope with ⟨_ | index⟩ <;> cases closed
  | append_singleton calls call ih =>
      have step := call.step_after (ofCalls label calls)
      have wellNested := (Coherent.ofCalls label calls).laidOut.wellNested
      rw [ofCalls_append] at closed ⊢
      rcases call.closes_cases (ofCalls label calls) scope with kept | ⟨rfl, usable, result⟩
      · rw [kept] at closed
        have known := NestedScopes.known_of_isClosed closed
        rcases ih closed with ⟨earlier, later, split, usable, asLeft⟩
        refine ⟨earlier, later ++ [call], ?_, usable, asLeft.step wellNested step known⟩
        simp [split]
      · rw [result]
        exact ⟨calls, [], rfl, usable, asLeft_closedAt usable⟩

/-- The counters of a closed scope are right as long as nothing more has come into its sight. -/
theorem AsLeft.countsVisible_iff {label : Option String} {calls earlier : List (SlotCall τ)}
    {scope : ScopeId} (asLeft : (ofCalls label earlier).AsLeft (ofCalls label calls) scope)
    (counts : (ofCalls label earlier).CountsVisible scope) :
    (ofCalls label calls).CountsVisible scope ↔
      (ofCalls label calls).visible scope = (ofCalls label earlier).visible scope := by
  have kept : (ofCalls label calls).visibleCount scope =
      (ofCalls label earlier).visibleCount scope := by
    rw [visibleCount, asLeft.frame]
    rfl
  constructor
  · intro countsNow
    apply Eq.symm
    apply asLeft.visible.eq_of_length
    rw [← counts.visibleCount, ← kept, countsNow.visibleCount]
  · intro same
    have total : (ofCalls label calls).visibleCount scope =
        ((ofCalls label calls).visible scope).length := by
      rw [kept, counts.visibleCount, same]
    have hasReceiver : (ofCalls label calls).hasReceiver scope =
        (ofCalls label earlier).hasReceiver scope := by
      rw [Bool.eq_iff_iff, hasReceiver_iff_exists, hasReceiver_iff_exists, same]
    refine ⟨total, ?_, ?_⟩
    · simp [SlotTable.isEmpty, total]
    · rw [kept, counts.byRole, hasReceiver, (Coherent.ofCalls label calls).built.argumentCount_eq,
        (Coherent.ofCalls label earlier).built.argumentCount_eq,
        (Coherent.ofCalls label calls).built.localCount_eq,
        (Coherent.ofCalls label earlier).built.localCount_eq, same]

/--
After every run, the counters of an open scope say how many variables are in sight, in all and by
their roles. A closed scope still has the number in all that it had when it was closed. The variables
that were in sight then still are, and its counters say how many are in sight if nothing else has come
into sight since, and only then. Open or closed, a scope finds a receiver if there is one in sight,
and counts the arguments and the local variables in sight.
-/
theorem counters_last_until_declaration_around (label : Option String)
    (calls : List (SlotCall τ)) {scope : ScopeId}
    (known : scope.index < (ofCalls label calls).scopes.size) :
    let table := ofCalls label calls
    (table.scopes.isClosed scope = false → table.CountsVisible scope) ∧
    (table.scopes.isClosed scope = true → ∃ earlier later,
      calls = earlier ++ .close scope :: later ∧
      let left := ofCalls label earlier
      left.scopes.requireUsable scope = .ok () ∧ left.CountsVisible scope ∧
        table.visibleCount scope = left.visibleCount scope ∧
        (left.visible scope).Sublist (table.visible scope) ∧
        (table.CountsVisible scope ↔ table.visible scope = left.visible scope)) ∧
    (table.hasReceiver scope = true ↔
      ∃ declared ∈ table.visible scope, declared.role = .receiver) ∧
    roleCount .receiver (table.visible scope) + table.argumentCount scope +
      table.localCount scope = (table.visible scope).length := by
  intro table
  have coherent : table.Coherent := Coherent.ofCalls label calls
  refine ⟨?_, ?_, hasReceiver_iff_exists label calls scope, ?_⟩
  · intro isOpen
    exact coherent.countsVisible ((NestedScopes.requireOpen_eq_ok_iff _ _).mpr ⟨known, isOpen⟩)
  · intro closed
    rcases exists_asLeft label calls closed with ⟨earlier, later, split, usable, asLeft⟩
    have counts := (Coherent.ofCalls label earlier).countsVisible
      (NestedScopes.requireOpen_of_requireUsable usable)
    refine ⟨earlier, later, split, usable, counts, ?_, asLeft.visible,
      asLeft.countsVisible_iff counts⟩
    change (table.frame scope).visibleCount = _
    rw [asLeft.frame]
    rfl
  · rw [coherent.built.argumentCount_eq, coherent.built.localCount_eq]
    exact sum_roleCount _

/-- A scope with a variable is closed, and another variable is declared around it. -/
def laterLocal : List (SlotCall StackKind) :=
  [.declareReceiver .root .reference, .enter .root none, .declareLocal ⟨1⟩ .long (some "x"),
    .close ⟨1⟩, .declareLocal .root .int (some "y"), .close ⟨1⟩]

/-- The closed scope has counted two variables, and three are in its sight. -/
theorem counters_last_until_later_local :
    ScopeId.index ⟨1⟩ < (ofCalls none laterLocal).scopes.size ∧
    (∃ earlier later, laterLocal = earlier ++ .close ⟨1⟩ :: later ∧
      (ofCalls none earlier).CountsVisible ⟨1⟩ ∧ (ofCalls none earlier).visibleCount ⟨1⟩ = 2 ∧
      (ofCalls none laterLocal).visible ⟨1⟩ ≠ (ofCalls none earlier).visible ⟨1⟩) ∧
    ((ofCalls none laterLocal).visible ⟨1⟩).length = 3 := by
  have known : ScopeId.index ⟨1⟩ < (ofCalls none laterLocal).scopes.size := by decide
  have inSight : ((ofCalls none laterLocal).visible ⟨1⟩).length = 3 := by decide
  have counted : (ofCalls none laterLocal).visibleCount ⟨1⟩ = 2 := by decide
  rcases (counters_last_until_declaration_around none laterLocal known).2.1 (by decide) with
    ⟨earlier, later, split, _, counts, kept, _, right_iff⟩
  refine ⟨known, ⟨earlier, later, split, counts, kept.symm.trans counted, ?_⟩, inSight⟩
  intro same
  have right := (right_iff.mpr same).visibleCount
  omega

/-- An empty scope is closed before the first variable is declared around it. -/
def firstLocalAround : List (SlotCall StackKind) :=
  [.enter .root none, .close ⟨1⟩, .declareLocal .root .int none]

/-- The closed scope counts one local variable in its sight, and says that it is empty. -/
theorem counters_of_closed_scope_disagree :
    let table := ofCalls none firstLocalAround
    ScopeId.index ⟨1⟩ < table.scopes.size ∧ (table.visible ⟨1⟩).length = 1 ∧
      table.visibleCount ⟨1⟩ = 0 ∧ table.isEmpty ⟨1⟩ = true ∧
      (table.hasReceiver ⟨1⟩).toNat + table.argumentCount ⟨1⟩ + table.localCount ⟨1⟩ = 1 ∧
      ¬table.CountsVisible ⟨1⟩ := by
  intro table
  have inSight : (table.visible ⟨1⟩).length = 1 := by decide
  have counted : table.visibleCount ⟨1⟩ = 0 := by decide
  refine ⟨by decide, inSight, counted, by decide, by decide, ?_⟩
  intro counts
  have total := counts.visibleCount
  omega

end SlotTable

end JvmEmit
