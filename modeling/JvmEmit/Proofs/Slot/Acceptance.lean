import JvmEmit.Proofs.Scope.Levels
import JvmEmit.Proofs.Slot.Resolution

/-!
# Which declarations a slot table accepts

A slot table decides on a declaration by what it keeps at hand: the open scopes directly inside the
scope, whether some frame has a receiver in front, counts, phases, and maps from names. The reasons
against a declaration can be told without all this, from the scopes at any depth inside the scope and
from the row of the variables in sight. Both ways lead to the same answer, down to the wording.

What is accepted takes the next free slots of its scope, and no other scope takes notice.
-/

namespace JvmEmit

variable {τ : Type}

/-! ## Reasons against a declaration -/

/-- What a row of variables has against a variable of a role behind it, if anything. -/
def VariableRole.lateness? (row : List (Variable τ)) : VariableRole → Option String
  | .receiver =>
      if row.isEmpty then none
      else if row.any fun declared => declared.role = .receiver then
        some "a receiver has already been added"
      else some "other variables have already been added"
  | .argument =>
      if row.any fun declared => declared.role = .localVariable then
        some "local variables have already been added"
      else none
  | .localVariable => none

namespace SlotTable

/--
The first reason against a declaration, judged by the scopes inside its scope and by the variables
in sight: the scope is closed, a scope inside it is open, the role comes too late, or the name is
that of a variable in sight.
-/
def refusal? (table : SlotTable τ) (scope : ScopeId) (role : VariableRole) (name : Option String) :
    Option ScopeError :=
  let scopeName := table.scopes.pathName scope
  if table.scopes.isClosed scope then some (.closed scopeName)
  else if table.scopes.hasOpenInside scope then
    some (.openInside scopeName
      (((table.scopes.openWithin scope).take NestedScopes.listedScopes).map
        table.scopes.pathName))
  else
    match role.lateness? (table.visible scope) with
    | some detail => some (.outOfOrder scopeName detail)
    | none =>
        let taken := name.filter fun given =>
          (table.visible scope).any fun declared => declared.name = some given
        taken.map fun given => .nameTaken given scopeName

namespace Coherent

variable [Slotted τ] {table : SlotTable τ} {scope : ScopeId}

/-- What the table keeps has the same against a role as the variables in sight. -/
theorem orderViolation?_eq (coherent : table.Coherent)
    (isOpen : table.scopes.requireOpen scope = .ok ()) (role : VariableRole) :
    table.orderViolation? scope role = role.lateness? (table.visible scope) := by
  have scopeOpen := ((NestedScopes.requireOpen_eq_ok_iff _ _).mp isOpen).2
  cases role with
  | receiver =>
      have hasReceiver : table.hasReceiver scope =
          (table.visible scope).any fun declared => declared.role = .receiver := by
        rw [Bool.eq_iff_iff, coherent.hasReceiver_iff scopeOpen]
        simp
      rw [orderViolation?, hasReceiver, coherent.counted.visibleCount_eq isOpen,
        VariableRole.lateness?]
      cases table.visible scope with
      | nil => rfl
      | cons first rest => simp
  | argument =>
      have hasLocals : table.phase scope = .hasLocals ↔
          ((table.visible scope).any fun declared => declared.role = .localVariable) = true := by
        rw [coherent.built.phase_eq, phaseOf_eq_hasLocals_iff]
        simp
      simp only [orderViolation?, hasLocals, VariableRole.lateness?]
  | localVariable => rfl

theorem isSome_named? (coherent : table.Coherent) (scope : ScopeId) (name : String) :
    (table.named? scope name).isSome =
      (table.visible scope).any fun declared => declared.name = some name := by
  rw [Bool.eq_iff_iff, ← Option.ne_none_iff_isSome, ne_eq, coherent.indexed.named?_eq_none_iff]
  simp

/-- A known scope accepts a declaration unless there is a reason against it, which it reports. -/
theorem requireDeclarable_eq_refusal? (coherent : table.Coherent)
    (known : scope.index < table.scopes.size) (role : VariableRole) (name : Option String) :
    table.requireDeclarable scope role name =
      match table.refusal? scope role name with
      | some cause => .error cause
      | none => .ok () := by
  rw [requireDeclarable, coherent.laidOut.wellNested.requireUsable_eq known, refusal?]
  cases closed : table.scopes.isClosed scope with
  | true => rfl
  | false =>
      cases table.scopes.hasOpenInside scope with
      | true => rfl
      | false =>
          have isOpen := (NestedScopes.requireOpen_eq_ok_iff _ _).mpr ⟨known, closed⟩
          simp only [Bool.false_eq_true, if_false, coherent.orderViolation?_eq isOpen,
            coherent.isSome_named?]
          cases role.lateness? (table.visible scope) with
          | some detail => rfl
          | none =>
              dsimp only
              cases name.filter fun given =>
                (table.visible scope).any fun declared => declared.name = some given <;> rfl

end Coherent

/-! ## Exact answers -/

/--
A declaration fails for the first reason against it and then changes nothing. Without a reason it
succeeds: the variable lies in the next free slots, comes behind the others of its scope, and changes
no other scope.
-/
structure AnsweredExactly [Slotted τ] (table : SlotTable τ) (scope : ScopeId) (role : VariableRole)
    (type : τ) (name : Option String)
    (outcome : Outcome ScopeError (SlotTable τ) (Variable τ)) : Prop where
  refused : ∀ cause, table.refusal? scope role name = some cause → outcome = .error cause table
  accepted : table.refusal? scope role name = none →
    ∃ declared after, outcome = .ok declared after ∧
      declared = { name, type, scope, slot := table.nextSlot scope, role } ∧
      after.declaredIn scope = table.declaredIn scope ++ [declared] ∧
      after.nextSlot scope = table.nextSlot scope + Slotted.slotCount type ∧
      ∀ other, other ≠ scope → after.frame other = table.frame other

variable [Slotted τ]

theorem Coherent.answeredExactly_declare {table : SlotTable τ} (coherent : table.Coherent)
    {scope : ScopeId} (known : scope.index < table.scopes.size) (role : VariableRole) (type : τ)
    (name : Option String) :
    table.AnsweredExactly scope role type name (table.declare scope role type name) := by
  have decided := coherent.requireDeclarable_eq_refusal? known role name
  constructor
  · intro cause reason
    rw [reason] at decided
    rw [declare, decided]
  · intro noReason
    rw [noReason] at decided
    have frameAfter := frame_adding (table.nextVariable scope role type name) known
    have own := (frameAfter scope).trans (if_pos rfl)
    refine ⟨table.nextVariable scope role type name,
      table.adding (table.nextVariable scope role type name), ?_, rfl, ?_, ?_, ?_⟩
    · rw [declare, decided]
      rfl
    · rw [declaredIn, own, declaredIn]
      exact Array.toList_push
    · rw [nextSlot, own, nextSlot]
      rfl
    · intro other apart
      exact (frameAfter other).trans (if_neg (Ne.symm apart))

/--
After every run, a known scope answers the declaration of a receiver, an argument or a local variable
exactly as the scopes inside it and the variables in sight call for.
-/
theorem declarations_answered_exactly (label : Option String) (calls : List (SlotCall τ))
    {scope : ScopeId} (known : scope.index < (ofCalls label calls).scopes.size) (type : τ) :
    let table := ofCalls label calls
    table.AnsweredExactly scope .receiver type none (table.declareReceiver scope type) ∧
    (∀ name, table.AnsweredExactly scope .argument type name
      (table.declareArgument scope type name)) ∧
    ∀ name, table.AnsweredExactly scope .localVariable type name
      (table.declareLocal scope type name) := by
  intro table
  have coherent : table.Coherent := Coherent.ofCalls label calls
  refine ⟨?_, ?_, ?_⟩
  · exact coherent.answeredExactly_declare known .receiver type none
  · intro name
    exact coherent.answeredExactly_declare known .argument type name
  · intro name
    exact coherent.answeredExactly_declare known .localVariable type name

/-- A scope with a local variable is closed, and one beside it is open when declarations are tried. -/
def siblingScopes : List (SlotCall StackKind) :=
  [.declareReceiver .root .reference, .declareArgument .root .long (some "l"), .enter .root none,
    .declareLocal ⟨1⟩ .int (some "x"), .close ⟨1⟩, .enter .root none,
    .declareArgument ⟨2⟩ .int (some "a")]

/-- Each reason is met once, and then a name of the closed scope is accepted. -/
theorem declarations_answered_exactly_beside_closed_scope :
    let table := ofCalls none siblingScopes
    ScopeId.index ⟨2⟩ < table.scopes.size ∧
    table.declareLocal ⟨1⟩ .int none = .error (.closed "root/0") table ∧
    table.declareLocal .root .int none = .error (.openInside "root" ["root/1"]) table ∧
    table.declareReceiver ⟨2⟩ .reference =
      .error (.outOfOrder "root/1" "a receiver has already been added") table ∧
    table.declareArgument ⟨2⟩ .int (some "l") = .error (.nameTaken "l" "root/1") table ∧
    ∃ after, table.declareLocal ⟨2⟩ .int (some "x") =
      .ok ⟨some "x", .int, ⟨2⟩, 4, .localVariable⟩ after ∧ after.nextSlot ⟨2⟩ = 5 := by
  intro table
  have known : ScopeId.index ⟨2⟩ < table.scopes.size := by decide
  have closed := declarations_answered_exactly none siblingScopes
    (show ScopeId.index ⟨1⟩ < table.scopes.size by decide) .int
  have outer := declarations_answered_exactly none siblingScopes
    (show ScopeId.index .root < table.scopes.size by decide) .int
  have inner := declarations_answered_exactly none siblingScopes known
  refine ⟨known, (closed.2.2 none).refused _ ?_, (outer.2.2 none).refused _ ?_,
    (inner .reference).1.refused _ ?_, ((inner .int).2.1 (some "l")).refused _ ?_, ?_⟩
  · decide +kernel
  · decide +kernel
  · decide +kernel
  · decide +kernel
  · rcases ((inner .int).2.2 (some "x")).accepted (by decide +kernel) with
      ⟨declared, after, result, declaredEq, _, nextSlot, _⟩
    refine ⟨after, ?_, nextSlot.trans (by decide +kernel)⟩
    rw [result, declaredEq]
    have slot : (ofCalls none siblingScopes).nextSlot ⟨2⟩ = 4 := by decide +kernel
    rw [slot]

end SlotTable

end JvmEmit
