import JvmEmit.Proofs.Slot.Layout
import JvmEmit.Proofs.Slot.Roles
import JvmEmit.Proofs.Slot.Visible

/-!
# What a table keeps and what its scopes see

A slot table decides on declarations and look-ups by what its frames keep: a receiver in front, a
phase, an index, a map from names. `Coherent` puts together what every run establishes about these,
so that each of them can be read as a statement about the variables that an open scope sees.

The first such reading is that of the roles. The receiver that a scope finds, whether it finds one
and how far its declarations have come tell what the variables in sight are, in their order.
-/

namespace JvmEmit

variable {τ : Type} [Slotted τ]

namespace SlotTable

/-- What the table keeps agrees with what its scopes see. -/
structure Coherent (table : SlotTable τ) : Prop where
  laidOut : table.LaidOut
  built : table.Built
  atHome : table.DeclaredAtHome
  counted : table.CountedOpenly
  indexed : table.Indexed
  rolesInOrder : table.RolesInOrder
  namesApart : table.NamesApart

namespace Coherent

theorem initial (label : Option String) : (SlotTable.ofRoot label : SlotTable τ).Coherent :=
  ⟨.initial label, .initial label, .initial label, .initial label, .initial label, .initial label,
    NamesApart.initial label⟩

theorem step {table after : SlotTable τ} (coherent : table.Coherent) (step : table.Step after) :
    after.Coherent := by
  rcases coherent with ⟨laidOut, built, atHome, counted, indexed, rolesInOrder, namesApart⟩
  have wellNested := laidOut.wellNested
  exact ⟨laidOut.step step, built.step step, atHome.step step, counted.step wellNested step,
    indexed.step step, rolesInOrder.step wellNested built counted step,
    NamesApart.step @namesApart wellNested indexed step⟩

theorem ofCalls (label : Option String) (calls : List (SlotCall τ)) :
    (SlotTable.ofCalls label calls).Coherent :=
  ofCalls_induction label (initial label) step calls

variable {table : SlotTable τ} {scope : ScopeId}

theorem receiver?_eq_some_iff (coherent : table.Coherent)
    (scopeOpen : table.scopes.isClosed scope = false) {declared : Variable τ} :
    table.receiver? scope = some declared ↔
      declared ∈ table.visible scope ∧ declared.role = .receiver := by
  rw [coherent.rolesInOrder.receiver?_eq scopeOpen]
  exact (coherent.rolesInOrder scope scopeOpen).receiverOf_eq_some_iff

/-- The receiver that a scope finds has no name and comes first, in slot zero. -/
theorem of_receiver? (coherent : table.Coherent)
    (scopeOpen : table.scopes.isClosed scope = false) {receiver : Variable τ}
    (found : table.receiver? scope = some receiver) :
    receiver.role = .receiver ∧ receiver.name = none ∧ receiver.slot = 0 := by
  have inOrder := coherent.rolesInOrder scope scopeOpen
  rcases (coherent.receiver?_eq_some_iff scopeOpen).mp found with ⟨member, isReceiver⟩
  refine ⟨isReceiver, inOrder.unnamed receiver member isReceiver, ?_⟩
  rcases List.append_of_mem member with ⟨before, behind, split⟩
  have tiles := coherent.laidOut.visible_tiles scopeOpen
  rw [split] at inOrder tiles
  rw [inOrder.eq_nil_of_receiver isReceiver] at tiles
  exact tiles.1

theorem hasReceiver_iff (coherent : table.Coherent)
    (scopeOpen : table.scopes.isClosed scope = false) :
    table.hasReceiver scope = true ↔
      ∃ declared ∈ table.visible scope, declared.role = .receiver := by
  rw [hasReceiver, Option.isSome_iff_exists]
  simp only [coherent.receiver?_eq_some_iff scopeOpen]

end Coherent

/--
After every run, an open scope sees a receiver, if it finds one, and then arguments and then local
variables. The receiver has no name and lies in slot zero. The scope knows whether there is a
receiver, and its phase is that of the last variable in sight, or empty if there is none.
-/
theorem visible_variables_in_order_of_roles (label : Option String) (calls : List (SlotCall τ))
    {scope : ScopeId} (isOpen : (ofCalls label calls).scopes.requireOpen scope = .ok ()) :
    (∃ arguments locals,
      (ofCalls label calls).visible scope =
        ((ofCalls label calls).receiver? scope).toList ++ arguments ++ locals ∧
      (∀ receiver, (ofCalls label calls).receiver? scope = some receiver →
        receiver.role = .receiver ∧ receiver.name = none ∧ receiver.slot = 0) ∧
      (∀ declared ∈ arguments, declared.role = .argument) ∧
      ∀ declared ∈ locals, declared.role = .localVariable) ∧
    ((ofCalls label calls).hasReceiver scope = true ↔
      ∃ declared ∈ (ofCalls label calls).visible scope, declared.role = .receiver) ∧
    ((ofCalls label calls).phase scope = .empty ↔ (ofCalls label calls).visible scope = []) ∧
    ∀ last, ((ofCalls label calls).visible scope).getLast? = some last →
      (ofCalls label calls).phase scope = .ofRole last.role := by
  have coherent := Coherent.ofCalls label calls
  have scopeOpen := ((NestedScopes.requireOpen_eq_ok_iff _ _).mp isOpen).2
  have inOrder := coherent.rolesInOrder scope scopeOpen
  refine ⟨?_, coherent.hasReceiver_iff scopeOpen, ?_, ?_⟩
  · rcases inOrder.split with ⟨arguments, locals, visible, areArguments, areLocals⟩
    rw [← coherent.rolesInOrder.receiver?_eq scopeOpen] at visible
    exact ⟨arguments, locals, visible, fun _ => coherent.of_receiver? scopeOpen, areArguments,
      areLocals⟩
  · rw [coherent.built.phase_eq]
    exact phaseOf_eq_empty_iff _
  · intro last isLast
    rw [coherent.built.phase_eq]
    exact inOrder.phaseOf_eq_of_getLast? isLast

/-- The receiver is declared in a nested scope, and an argument after a scope with a local variable. -/
def nestedArguments : List (SlotCall StackKind) :=
  [.enter .root none, .declareReceiver ⟨1⟩ .reference, .declareArgument ⟨1⟩ .long (some "a"),
    .enter ⟨1⟩ none, .declareLocal ⟨2⟩ .double (some "x"), .close ⟨2⟩,
    .declareArgument ⟨1⟩ .int none, .enter ⟨1⟩ none, .declareLocal ⟨3⟩ .int (some "x")]

/-- The scope that is entered last sees neither the variable of the closed scope nor its phase. -/
theorem visible_variables_in_order_of_roles_after_closed_scope :
    (ofCalls none nestedArguments).scopes.requireOpen ⟨3⟩ = .ok () ∧
      ((ofCalls none nestedArguments).visible ⟨3⟩).map Variable.role =
        [.receiver, .argument, .argument, .localVariable] ∧
      (ofCalls none nestedArguments).phase ⟨3⟩ = .hasLocals ∧
      (ofCalls none nestedArguments).hasReceiver ⟨3⟩ = true := by
  have isOpen : (ofCalls none nestedArguments).scopes.requireOpen ⟨3⟩ = .ok () := by decide
  have roles : ((ofCalls none nestedArguments).visible ⟨3⟩).map Variable.role =
      [.receiver, .argument, .argument, .localVariable] := by decide
  rcases visible_variables_in_order_of_roles none nestedArguments isOpen with
    ⟨_, hasReceiver_iff, _, phase_of_last⟩
  refine ⟨isOpen, roles, ?_, ?_⟩
  · exact phase_of_last ⟨some "x", .int, ⟨3⟩, 4, .localVariable⟩ (by decide)
  · apply hasReceiver_iff.mpr
    exact ⟨⟨none, .reference, ⟨1⟩, 0, .receiver⟩, by decide, rfl⟩

end SlotTable

end JvmEmit
