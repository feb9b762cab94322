import JvmEmit.Proofs.Slot.Frames

/-!
# The order of roles

The variables that an open scope sees are a receiver, if there is one, then arguments, and then local
variables. The receiver and the arguments may be declared in nested scopes, and a scope may declare
arguments after a scope inside it that declared local variables was closed, but nothing of a closed
scope is seen from an open one.

A declaration is checked against what the table keeps: whether there is a receiver, how many
variables there are and how far the declarations have come. On an open scope the check comes down to
one condition on the variables in sight, that each of them may come before the new one.
-/

namespace JvmEmit

variable {τ : Type}

/-! ## Phases -/

namespace DeclarationPhase

theorem max_assoc (first second third : DeclarationPhase) :
    max (max first second) third = max first (max second third) := by
  cases first <;> cases second <;> cases third <;> rfl

theorem max_comm (first second : DeclarationPhase) : max first second = max second first := by
  cases first <;> cases second <;> rfl

@[simp]
theorem empty_max (phase : DeclarationPhase) : max .empty phase = phase := by
  cases phase <;> rfl

@[simp]
theorem max_empty (phase : DeclarationPhase) : max phase .empty = phase := by
  cases phase <;> rfl

theorem max_eq_hasLocals_iff (first second : DeclarationPhase) :
    max first second = .hasLocals ↔ first = .hasLocals ∨ second = .hasLocals := by
  revert first second
  rintro (_ | _) (_ | _) <;> decide

theorem ofRole_eq_hasLocals_iff (role : VariableRole) :
    ofRole role = .hasLocals ↔ role = .localVariable := by
  cases role <;> decide

end DeclarationPhase

/-- The phase that the declarations of some variables have come to. -/
def phaseOf (row : List (Variable τ)) : DeclarationPhase :=
  row.foldr (fun declared phase => max (.ofRole declared.role) phase) .empty

section Phase

variable (row rest : List (Variable τ))

theorem phaseOf_append : phaseOf (row ++ rest) = max (phaseOf row) (phaseOf rest) := by
  induction row with
  | nil => exact (DeclarationPhase.empty_max _).symm
  | cons first row ih =>
      change max _ (phaseOf (row ++ rest)) = max (max _ (phaseOf row)) _
      rw [ih, DeclarationPhase.max_assoc]

theorem phaseOf_eq_empty_iff : phaseOf row = .empty ↔ row = [] := by
  cases row with
  | nil => exact iff_of_true rfl rfl
  | cons first row =>
      refine iff_of_false ?_ (List.cons_ne_nil _ _)
      change max (.ofRole first.role) (phaseOf row) ≠ .empty
      cases first.role <;> cases phaseOf row <;> decide

theorem phaseOf_eq_hasLocals_iff :
    phaseOf row = .hasLocals ↔ ∃ declared ∈ row, declared.role = .localVariable := by
  induction row with
  | nil => simp [phaseOf]
  | cons first row ih =>
      change max _ (phaseOf row) = .hasLocals ↔ _
      rw [DeclarationPhase.max_eq_hasLocals_iff, DeclarationPhase.ofRole_eq_hasLocals_iff, ih]
      simp

end Phase

namespace VariableFrame

variable [Slotted τ]

theorem phase_foldl_push (frame : VariableFrame τ) (row : List (Variable τ)) :
    (row.foldl push frame).phase = max frame.phase (phaseOf row) := by
  induction row generalizing frame with
  | nil => exact (DeclarationPhase.max_empty _).symm
  | cons first row ih =>
      rw [List.foldl_cons, ih]
      exact DeclarationPhase.max_assoc _ _ _

theorem Built.phase_eq {frame : VariableFrame τ} (built : frame.Built) :
    frame.phase = phaseOf frame.contents.toList := by
  have phase := congrArg VariableFrame.phase built
  rw [phase_foldl_push] at phase
  exact phase.trans (DeclarationPhase.empty_max _)

end VariableFrame

/-- The phase of a scope is the one that the variables in sight have come to. -/
theorem SlotTable.Built.phase_eq [Slotted τ] {table : SlotTable τ} (built : table.Built)
    (scope : ScopeId) : table.phase scope = phaseOf (table.visible scope) := by
  apply built.foldr_frames (fun frame furthest => max frame.phase furthest) phaseOf
  intro frame row frameBuilt
  rw [frameBuilt.phase_eq, phaseOf_append, DeclarationPhase.max_comm]

/-! ## Rows in the order of roles -/

/-- Declarations of one role may be followed by one of another role. -/
def VariableRole.MayPrecede : VariableRole → VariableRole → Prop
  | _, .receiver => False
  | .localVariable, .argument => False
  | _, _ => True

theorem VariableRole.not_mayPrecede_receiver (role : VariableRole) :
    ¬role.MayPrecede .receiver := by
  cases role <;> exact id

/-- The variables come in the order of their roles, and a receiver has no name. -/
structure InRoleOrder (row : List (Variable τ)) : Prop where
  ordered : row.Pairwise fun earlier later => earlier.role.MayPrecede later.role
  unnamed : ∀ declared ∈ row, declared.role = .receiver → declared.name = none

/-- A receiver comes first of all. -/
def receiverOf (row : List (Variable τ)) : Option (Variable τ) :=
  row.head?.filter fun first => first.role = .receiver

namespace InRoleOrder

variable {row rest : List (Variable τ)} {declared : Variable τ}

theorem nil : InRoleOrder ([] : List (Variable τ)) :=
  ⟨.nil, by simp⟩

theorem of_append (inOrder : InRoleOrder (row ++ rest)) : InRoleOrder row := by
  constructor
  · exact (List.pairwise_append.mp inOrder.ordered).1
  · intro declared member
    exact inOrder.unnamed declared (List.mem_append_left _ member)

theorem concat (inOrder : InRoleOrder row)
    (follows : ∀ earlier ∈ row, earlier.role.MayPrecede declared.role)
    (unnamed : declared.role = .receiver → declared.name = none) :
    InRoleOrder (row ++ [declared]) := by
  constructor
  · rw [List.pairwise_append]
    refine ⟨inOrder.ordered, List.pairwise_singleton _ _, ?_⟩
    intro earlier member later newest
    rw [List.mem_singleton.mp newest]
    exact follows earlier member
  · intro other member isReceiver
    rcases List.mem_append.mp member with older | newest
    · exact inOrder.unnamed other older isReceiver
    · rw [List.mem_singleton.mp newest] at isReceiver ⊢
      exact unnamed isReceiver

/-- Nothing comes before a receiver. -/
theorem eq_nil_of_receiver (inOrder : InRoleOrder (row ++ declared :: rest))
    (isReceiver : declared.role = .receiver) : row = [] := by
  cases row with
  | nil => rfl
  | cons first row =>
      have before := (List.pairwise_append.mp inOrder.ordered).2.2 first List.mem_cons_self
        declared List.mem_cons_self
      rw [isReceiver] at before
      exact absurd before (VariableRole.not_mayPrecede_receiver _)

theorem receiverOf_eq_some_iff (inOrder : InRoleOrder row) :
    receiverOf row = some declared ↔ declared ∈ row ∧ declared.role = .receiver := by
  rw [receiverOf, Option.filter_eq_some_iff, decide_eq_true_iff]
  constructor
  · rintro ⟨first, isReceiver⟩
    exact ⟨List.mem_of_head? first, isReceiver⟩
  · rintro ⟨member, isReceiver⟩
    rcases List.append_of_mem member with ⟨before, behind, rfl⟩
    rw [inOrder.eq_nil_of_receiver isReceiver]
    exact ⟨rfl, isReceiver⟩

/-- Without a receiver in front, a row is one of arguments and then local variables. -/
theorem split_of_no_receiver
    (ordered : row.Pairwise fun earlier later => earlier.role.MayPrecede later.role)
    (noReceiver : ∀ declared ∈ row, declared.role ≠ .receiver) :
    ∃ arguments locals, row = arguments ++ locals ∧
      (∀ declared ∈ arguments, declared.role = .argument) ∧
      ∀ declared ∈ locals, declared.role = .localVariable := by
  induction row with
  | nil => exact ⟨[], [], rfl, by simp, by simp⟩
  | cons first row ih =>
      rw [List.forall_mem_cons] at noReceiver
      rw [List.pairwise_cons] at ordered
      cases role : first.role with
      | receiver => exact absurd role noReceiver.1
      | argument =>
          rcases ih ordered.2 noReceiver.2 with ⟨arguments, locals, rfl, areArguments, areLocals⟩
          refine ⟨first :: arguments, locals, rfl, ?_, areLocals⟩
          exact List.forall_mem_cons.mpr ⟨role, areArguments⟩
      | localVariable =>
          refine ⟨[], first :: row, rfl, by simp, List.forall_mem_cons.mpr ⟨role, ?_⟩⟩
          intro later member
          have follows := ordered.1 later member
          rw [role] at follows
          cases laterRole : later.role with
          | receiver => exact absurd laterRole (noReceiver.2 later member)
          | argument =>
              rw [laterRole] at follows
              cases follows
          | localVariable => rfl

/-- A row in the order of roles is a receiver, if any, then arguments, then local variables. -/
theorem split (inOrder : InRoleOrder row) :
    ∃ arguments locals, row = (receiverOf row).toList ++ arguments ++ locals ∧
      (∀ declared ∈ arguments, declared.role = .argument) ∧
      ∀ declared ∈ locals, declared.role = .localVariable := by
  cases first : receiverOf row with
  | none =>
      apply split_of_no_receiver inOrder.ordered
      intro declared member isReceiver
      rw [inOrder.receiverOf_eq_some_iff.mpr ⟨member, isReceiver⟩] at first
      cases first
  | some receiver =>
      rcases inOrder.receiverOf_eq_some_iff.mp first with ⟨member, isReceiver⟩
      rcases List.append_of_mem member with ⟨before, behind, rfl⟩
      have front := inOrder.eq_nil_of_receiver isReceiver
      subst front
      have behindOrdered := List.pairwise_cons.mp inOrder.ordered
      have noReceiver : ∀ declared ∈ behind, declared.role ≠ .receiver := by
        intro later member laterReceiver
        have follows := behindOrdered.1 later member
        rw [laterReceiver] at follows
        exact VariableRole.not_mayPrecede_receiver _ follows
      rcases split_of_no_receiver behindOrdered.2 noReceiver with ⟨arguments, locals, rfl, roles⟩
      exact ⟨arguments, locals, rfl, roles⟩

theorem max_phaseOf_eq {role : VariableRole}
    (follows : ∀ earlier ∈ row, earlier.role.MayPrecede role) :
    max (phaseOf row) (.ofRole role) = .ofRole role := by
  induction row with
  | nil => exact DeclarationPhase.empty_max _
  | cons first row ih =>
      rw [List.forall_mem_cons] at follows
      change max (max _ (phaseOf row)) _ = _
      rw [DeclarationPhase.max_assoc, ih follows.2]
      have precedes := follows.1
      revert precedes
      cases first.role <;> cases role <;> intro precedes <;> first | rfl | cases precedes

/-- The declarations have come to the role of the last variable. -/
theorem phaseOf_eq_of_getLast? (inOrder : InRoleOrder row) (last : row.getLast? = some declared) :
    phaseOf row = .ofRole declared.role := by
  rcases List.getLast?_eq_some_iff.mp last with ⟨before, rfl⟩
  rw [phaseOf_append]
  have follows : ∀ earlier ∈ before, earlier.role.MayPrecede declared.role := by
    intro earlier member
    exact (List.pairwise_append.mp inOrder.ordered).2.2 earlier member declared
      (List.mem_singleton_self _)
  have single : phaseOf [declared] = .ofRole declared.role := DeclarationPhase.max_empty _
  rw [single]
  exact max_phaseOf_eq follows

end InRoleOrder

/-! ## The receiver in sight -/

theorem VariableFrame.receiver?_eq (frame : VariableFrame τ) :
    frame.receiver? = receiverOf frame.contents.toList := by
  rw [receiver?, receiverOf, List.head?_eq_getElem?, Array.getElem?_toList]

/-- The closest frame with a receiver in front has the only one. -/
theorem InRoleOrder.findSome?_receiver? {frames : List (VariableFrame τ)}
    (inOrder : InRoleOrder (variablesOf frames)) :
    frames.findSome? VariableFrame.receiver? = receiverOf (variablesOf frames) := by
  induction frames with
  | nil => rfl
  | cons own outer ih =>
      rw [variablesOf_cons] at inOrder ⊢
      rw [List.findSome?_cons, VariableFrame.receiver?_eq]
      cases around : variablesOf outer with
      | nil =>
          rw [around] at ih
          rw [ih .nil, List.nil_append]
          cases receiverOf own.contents.toList <;> rfl
      | cons first rest =>
          rw [around] at ih inOrder
          rw [ih inOrder.of_append]
          cases found : receiverOf own.contents.toList with
          | none => rfl
          | some receiver =>
              -- a receiver of an inner frame would come behind the variables around it
              rw [receiverOf, Option.filter_eq_some_iff, decide_eq_true_iff] at found
              rcases List.head?_eq_some_iff.mp found.1 with ⟨behind, contents⟩
              rw [contents] at inOrder
              cases inOrder.eq_nil_of_receiver found.2

namespace SlotTable

/-- Open scopes see variables in the order of roles. -/
def RolesInOrder (table : SlotTable τ) : Prop :=
  ∀ scope, table.scopes.isClosed scope = false → InRoleOrder (table.visible scope)

namespace RolesInOrder

variable {table : SlotTable τ}

theorem initial (label : Option String) :
    (SlotTable.ofRoot label : SlotTable τ).RolesInOrder := by
  intro scope _
  rw [visible_ofRoot]
  exact .nil

theorem receiver?_eq (rolesInOrder : table.RolesInOrder) {scope : ScopeId}
    (scopeOpen : table.scopes.isClosed scope = false) :
    table.receiver? scope = receiverOf (table.visible scope) :=
  (rolesInOrder scope scopeOpen).findSome?_receiver?

theorem hasReceiver_eq (rolesInOrder : table.RolesInOrder) {scope : ScopeId}
    (scopeOpen : table.scopes.isClosed scope = false) :
    table.hasReceiver scope = (receiverOf (table.visible scope)).isSome := by
  rw [hasReceiver, rolesInOrder.receiver?_eq scopeOpen]

variable [Slotted τ]

/-- What a scope keeps says of a role whether all variables in sight may come before it. -/
theorem orderViolation?_eq_none_iff (rolesInOrder : table.RolesInOrder) (built : table.Built)
    (counted : table.CountedOpenly) {scope : ScopeId}
    (isOpen : table.scopes.requireOpen scope = .ok ()) (role : VariableRole) :
    table.orderViolation? scope role = none ↔
      ∀ earlier ∈ table.visible scope, earlier.role.MayPrecede role := by
  cases role with
  | receiver =>
      have opened := ((NestedScopes.requireOpen_eq_ok_iff _ _).mp isOpen).2
      rw [orderViolation?, rolesInOrder.hasReceiver_eq opened, counted.visibleCount_eq isOpen]
      cases table.visible scope with
      | nil => simp [receiverOf]
      | cons first rest =>
          refine iff_of_false ?_ ?_
          · cases receiverOf (first :: rest) <;> simp
          · intro follows
            exact VariableRole.not_mayPrecede_receiver _ (follows first List.mem_cons_self)
  | argument =>
      rw [orderViolation?, built.phase_eq]
      split
      · rename_i hasLocals
        rcases (phaseOf_eq_hasLocals_iff _).mp hasLocals with ⟨declared, member, isLocal⟩
        refine iff_of_false (by simp) ?_
        intro follows
        have precedes := follows declared member
        rw [isLocal] at precedes
        cases precedes
      · rename_i noLocals
        refine iff_of_true rfl ?_
        intro earlier member
        cases earlierRole : earlier.role with
        | receiver => trivial
        | argument => trivial
        | localVariable =>
            exact absurd ((phaseOf_eq_hasLocals_iff _).mpr ⟨earlier, member, earlierRole⟩) noLocals
  | localVariable =>
      refine iff_of_true rfl ?_
      intro earlier _
      cases earlier.role <;> trivial

theorem step {after : SlotTable τ} (rolesInOrder : table.RolesInOrder)
    (wellNested : table.scopes.WellNested) (built : table.Built) (counted : table.CountedOpenly)
    (step : table.Step after) : after.RolesInOrder := by
  intro scope scopeOpen
  rcases step.visible_cases wellNested scopeOpen with
    ⟨before, openBefore, visible⟩ | ⟨role, name, type, accepted, unnamed, visible⟩
  · rw [visible]
    exact rolesInOrder before openBefore
  · have accepts := (requireDeclarable_eq_ok_iff _ _ _ _).mp accepted
    have isOpen := NestedScopes.requireOpen_of_requireUsable accepts.1
    rw [visible]
    apply (rolesInOrder scope ((NestedScopes.requireOpen_eq_ok_iff _ _).mp isOpen).2).concat
    · exact (rolesInOrder.orderViolation?_eq_none_iff built counted isOpen role).mp accepts.2.1
    · exact unnamed

end RolesInOrder

end SlotTable

end JvmEmit
