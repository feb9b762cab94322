import JvmEmit.Proofs.Slot.Resolution

/-!
# Indices among the variables of one role

A frame counts its arguments and its local variables as they are declared, and the sums of these
counts along the path of a scope count the ones in sight. The variables in sight come in the order of
their roles. So an index among the arguments, or among the local variables, is an index among all
variables in sight, moved up by the number of those in front.

All look-ups by an index therefore read the same list. Once an index is below the number of variables
in sight, the frame that the look-up ends in has a variable for it.
-/

namespace JvmEmit

variable {τ : Type}

/-! ## Counting a role -/

/-- How many variables of a row have a role. -/
def roleCount (role : VariableRole) (row : List (Variable τ)) : Nat :=
  row.countP fun declared => declared.role = role

namespace VariableFrame

variable [Slotted τ] {tally : VariableFrame τ → Nat} {role : VariableRole}

/-- A number kept by frames starts at zero, and goes up by one with each variable of a role. -/
structure Tallies (tally : VariableFrame τ → Nat) (role : VariableRole) : Prop where
  startingAt : ∀ slot index, tally (.startingAt slot index) = 0
  push : ∀ (frame : VariableFrame τ) (declared : Variable τ),
    tally (frame.push declared) = tally frame + if declared.role = role then 1 else 0

theorem tallies_argumentCount : Tallies (argumentCount : VariableFrame τ → Nat) .argument :=
  ⟨fun _ _ => rfl, fun _ _ => rfl⟩

theorem tallies_localCount : Tallies (localCount : VariableFrame τ → Nat) .localVariable :=
  ⟨fun _ _ => rfl, fun _ _ => rfl⟩

namespace Tallies

theorem foldl_push (tallies : Tallies tally role) (frame : VariableFrame τ)
    (row : List (Variable τ)) :
    tally (row.foldl VariableFrame.push frame) = tally frame + roleCount role row := by
  induction row generalizing frame with
  | nil => rfl
  | cons first row ih =>
      rw [List.foldl_cons, ih, tallies.push, roleCount, roleCount, List.countP_cons]
      simp only [decide_eq_true_iff]
      omega

theorem eq_roleCount (tallies : Tallies tally role) {frame : VariableFrame τ}
    (built : frame.Built) : tally frame = roleCount role frame.contents.toList := by
  have counted := congrArg tally built
  rw [tallies.foldl_push, tallies.startingAt, Nat.zero_add] at counted
  exact counted

end Tallies

end VariableFrame

/-! ## The variables of one role in a row -/

/-- Of three rows one behind the other, the middle one has all variables of a role. -/
structure Surround (role : VariableRole) (before within behind : List (Variable τ)) : Prop where
  before : ∀ declared ∈ before, declared.role ≠ role
  within : ∀ declared ∈ within, declared.role = role
  behind : ∀ declared ∈ behind, declared.role ≠ role

namespace Surround

variable {role : VariableRole} {before within behind : List (Variable τ)}

theorem filter_eq (surround : Surround role before within behind) :
    (before ++ within ++ behind).filter (fun declared => declared.role = role) = within := by
  have noneBefore : before.filter (fun declared => declared.role = role) = [] := by
    simpa [List.filter_eq_nil_iff] using surround.before
  have allWithin : within.filter (fun declared => declared.role = role) = within := by
    simpa [List.filter_eq_self] using surround.within
  have noneBehind : behind.filter (fun declared => declared.role = role) = [] := by
    simpa [List.filter_eq_nil_iff] using surround.behind
  rw [List.filter_append, List.filter_append, noneBefore, allWithin, noneBehind, List.nil_append,
    List.append_nil]

theorem roleCount_eq (surround : Surround role before within behind) :
    roleCount role (before ++ within ++ behind) = within.length := by
  rw [roleCount, List.countP_eq_length_filter, surround.filter_eq]

end Surround

/-- In the order of roles, the arguments lie between the receiver and the local variables. -/
theorem InRoleOrder.surround {row : List (Variable τ)} (inOrder : InRoleOrder row) :
    ∃ arguments locals, row = (receiverOf row).toList ++ arguments ++ locals ∧
      Surround .argument (receiverOf row).toList arguments locals ∧
      Surround .localVariable ((receiverOf row).toList ++ arguments) locals [] := by
  rcases inOrder.split with ⟨arguments, locals, split, areArguments, areLocals⟩
  have isReceiver : ∀ declared ∈ (receiverOf row).toList, declared.role = .receiver := by
    intro declared member
    exact (inOrder.receiverOf_eq_some_iff.mp (Option.mem_toList.mp member)).2
  refine ⟨arguments, locals, split, ⟨?_, areArguments, ?_⟩, ⟨?_, areLocals, by simp⟩⟩
  · intro declared member
    rw [isReceiver declared member]
    decide
  · intro declared member
    rw [areLocals declared member]
    decide
  · intro declared member
    rcases List.mem_append.mp member with first | behind
    · rw [isReceiver declared first]
      decide
    · rw [areArguments declared behind]
      decide

namespace SlotTable

namespace Built

variable [Slotted τ] {table : SlotTable τ}

/-- The tallies of the frames along a path add up to the count of the role in sight. -/
theorem foldr_tally {tally : VariableFrame τ → Nat} {role : VariableRole} (built : table.Built)
    (tallies : VariableFrame.Tallies tally role) (scope : ScopeId) :
    (table.frames scope).foldr (fun frame total => tally frame + total) 0 =
      roleCount role (table.visible scope) := by
  apply built.foldr_frames (fun frame total => tally frame + total) (roleCount role)
  intro frame row frameBuilt
  rw [tallies.eq_roleCount frameBuilt, roleCount, roleCount, roleCount, List.countP_append,
    Nat.add_comm]

theorem argumentCount_eq (built : table.Built) (scope : ScopeId) :
    table.argumentCount scope = roleCount .argument (table.visible scope) :=
  built.foldr_tally VariableFrame.tallies_argumentCount scope

theorem localCount_eq (built : table.Built) (scope : ScopeId) :
    table.localCount scope = roleCount .localVariable (table.visible scope) :=
  built.foldr_tally VariableFrame.tallies_localCount scope

end Built

/-! ## Looking up an index -/

namespace Coherent

variable [Slotted τ] {table : SlotTable τ} {scope : ScopeId} {index : Nat}

/-- Below the number of variables in sight, the frame that a look-up ends in has the index. -/
theorem resolveIndex_of_lt (coherent : table.Coherent)
    (isOpen : table.scopes.requireOpen scope = .ok ()) (known : index < table.visibleCount scope) :
    ∃ declared, (table.visible scope)[index]? = some declared ∧
      table.indexed? scope index = some declared ∧ table.resolveIndex scope index = .ok declared := by
  have scopeOpen := ((NestedScopes.requireOpen_eq_ok_iff _ _).mp isOpen).2
  rw [coherent.counted.visibleCount_eq isOpen] at known
  have found : (table.visible scope)[index]? = some (table.visible scope)[index] :=
    List.getElem?_eq_getElem known
  refine ⟨_, found, ?_, (coherent.resolveIndex_eq_ok_iff isOpen).mpr found⟩
  rw [coherent.indexed?_eq scopeOpen, found]

theorem resolveIndex_of_ge (coherent : table.Coherent)
    (isOpen : table.scopes.requireOpen scope = .ok ())
    (tooLarge : table.visibleCount scope ≤ index) :
    table.resolveIndex scope index = .error (.indexTooLarge index (table.visibleCount scope)) := by
  rw [coherent.counted.visibleCount_eq isOpen] at tooLarge ⊢
  rw [coherent.resolveIndex_eq isOpen, List.getElem?_eq_none tooLarge]

/-- The variables of a role are looked up by their index in front of which others may lie. -/
theorem resolveAmong_of_surround (coherent : table.Coherent)
    (isOpen : table.scopes.requireOpen scope = .ok ()) {role : VariableRole}
    {before within behind : List (Variable τ)}
    (visible : table.visible scope = before ++ within ++ behind)
    (surround : Surround role before within behind) (index : Nat) :
    (index < within.length → ∃ declared,
      table.resolveAmong scope role within.length index = .ok declared ∧
      table.resolveIndex scope (before.length + index) = .ok declared) ∧
    (within.length ≤ index →
      table.resolveAmong scope role within.length index =
        .error (.indexTooLarge index within.length)) := by
  constructor
  · intro known
    refine ⟨within[index], ?_, ?_⟩
    · rw [resolveAmong_eq_ok_iff isOpen, visible, surround.filter_eq]
      exact List.getElem?_eq_getElem known
    · rw [coherent.resolveIndex_eq_ok_iff isOpen, visible, List.append_assoc,
        List.getElem?_append_right (Nat.le_add_right _ _), Nat.add_sub_cancel_left,
        List.getElem?_append_left known]
      exact List.getElem?_eq_getElem known
  · intro tooLarge
    rw [resolveAmong, isOpen, visible, surround.filter_eq]
    simp only [List.getElem?_eq_none tooLarge]

end Coherent

/-! ## After every run -/

/--
After every run, the index of a variable that an open scope sees is its place among all the variables
in sight, and every index below their number has one. The arguments have the indices behind that of
the receiver, if there is one, and the local variables those behind the arguments. An index that is
too large is refused with the number of variables that there are.
-/
theorem indices_count_visible_variables [Slotted τ] (label : Option String)
    (calls : List (SlotCall τ)) {scope : ScopeId}
    (isOpen : (ofCalls label calls).scopes.requireOpen scope = .ok ()) (index : Nat) :
    let table := ofCalls label calls
    let receivers := (table.hasReceiver scope).toNat
    (index < table.visibleCount scope → ∃ declared,
      (table.visible scope)[index]? = some declared ∧
      table.indexed? scope index = some declared ∧
      table.resolveIndex scope index = .ok declared) ∧
    (table.visibleCount scope ≤ index →
      table.resolveIndex scope index =
        .error (.indexTooLarge index (table.visibleCount scope))) ∧
    (index < table.argumentCount scope → ∃ declared,
      table.resolveArgument scope index = .ok declared ∧
      table.resolveIndex scope (receivers + index) = .ok declared) ∧
    (table.argumentCount scope ≤ index →
      table.resolveArgument scope index =
        .error (.indexTooLarge index (table.argumentCount scope))) ∧
    (index < table.localCount scope → ∃ declared,
      table.resolveLocal scope index = .ok declared ∧
      table.resolveIndex scope (receivers + table.argumentCount scope + index) = .ok declared) ∧
    (table.localCount scope ≤ index →
      table.resolveLocal scope index =
        .error (.indexTooLarge index (table.localCount scope))) := by
  intro table receivers
  have coherent : table.Coherent := Coherent.ofCalls label calls
  have scopeOpen := ((NestedScopes.requireOpen_eq_ok_iff _ _).mp isOpen).2
  rcases (coherent.rolesInOrder scope scopeOpen).surround with
    ⟨arguments, locals, visible, aroundArguments, aroundLocals⟩
  have receiverCount : receivers = (receiverOf (table.visible scope)).toList.length := by
    change (table.hasReceiver scope).toNat = _
    rw [coherent.rolesInOrder.hasReceiver_eq scopeOpen]
    cases receiverOf (table.visible scope) <;> rfl
  have argumentCount : table.argumentCount scope = arguments.length := by
    rw [coherent.built.argumentCount_eq, visible, aroundArguments.roleCount_eq]
  have localCount : table.localCount scope = locals.length := by
    rw [coherent.built.localCount_eq, visible, ← aroundLocals.roleCount_eq, List.append_nil]
  have argumentsFound := coherent.resolveAmong_of_surround isOpen visible aroundArguments index
  have localsFound := coherent.resolveAmong_of_surround isOpen
    (visible.trans (List.append_nil _).symm) aroundLocals index
  rw [List.length_append] at localsFound
  rw [resolveArgument, resolveLocal, argumentCount, localCount, receiverCount]
  exact ⟨coherent.resolveIndex_of_lt isOpen, coherent.resolveIndex_of_ge isOpen,
    argumentsFound.1, argumentsFound.2, localsFound.1, localsFound.2⟩

/-- Between two scopes with variables lie two that declare none. -/
def sparseScopes : List (SlotCall StackKind) :=
  [.declareReceiver .root .reference, .declareArgument .root .long (some "l"), .enter .root none,
    .enter ⟨1⟩ none, .enter ⟨2⟩ none, .declareArgument ⟨3⟩ .int none,
    .declareLocal ⟨3⟩ .double (some "y")]

theorem indices_count_visible_variables_across_empty_scopes :
    (ofCalls none sparseScopes).scopes.requireOpen ⟨3⟩ = .ok () ∧
      (ofCalls none sparseScopes).resolveIndex ⟨3⟩ 2 = .ok ⟨none, .int, ⟨3⟩, 3, .argument⟩ ∧
      (ofCalls none sparseScopes).resolveIndex ⟨3⟩ 4 = .error (.indexTooLarge 4 4) ∧
      (ofCalls none sparseScopes).resolveArgument ⟨3⟩ 1 =
        (ofCalls none sparseScopes).resolveIndex ⟨3⟩ 2 ∧
      (ofCalls none sparseScopes).resolveLocal ⟨3⟩ 0 =
        (ofCalls none sparseScopes).resolveIndex ⟨3⟩ 3 ∧
      (ofCalls none sparseScopes).resolveLocal ⟨3⟩ 1 = .error (.indexTooLarge 1 1) := by
  have isOpen : (ofCalls none sparseScopes).scopes.requireOpen ⟨3⟩ = .ok () := by decide
  have first := indices_count_visible_variables none sparseScopes isOpen 0
  have second := indices_count_visible_variables none sparseScopes isOpen 1
  have third := indices_count_visible_variables none sparseScopes isOpen 2
  have fifth := indices_count_visible_variables none sparseScopes isOpen 4
  rcases third.1 (by decide) with ⟨declared, inSight, _, resolved⟩
  rcases second.2.2.1 (by decide) with ⟨argument, amongArguments, amongAll⟩
  rcases first.2.2.2.2.1 (by decide) with ⟨innermost, amongLocals, behindArguments⟩
  refine ⟨isOpen, ?_, fifth.2.1 (by decide), amongArguments.trans amongAll.symm,
    amongLocals.trans behindArguments.symm, second.2.2.2.2.2 (by decide)⟩
  rw [resolved]
  exact congrArg Except.ok (Option.some.inj (inSight.symm.trans (by decide)))

end SlotTable

end JvmEmit
