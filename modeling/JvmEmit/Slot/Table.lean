import JvmEmit.Scope.Lifecycle
import JvmEmit.Slot.Variable

/-!
# Slot tables

A slot table lays out the variables of one method by scope. A nested scope takes its slots behind
those of the scope around it, which cannot declare anything until the nested scope is closed. Slots
of a closed scope are used again, so sibling scopes share slots and may share names; along the path
of an open scope every slot and every name belongs to one variable.

Declaring asks for a usable scope, and resolving a name or an index for an open one. The counts and
lists of a scope can be read at any time.
-/

namespace JvmEmit

/-- The variables of one method, laid out by scope. -/
structure SlotTable (τ : Type) where
  scopes : NestedScopes (VariableFrame τ)
  /-- The number of slots that hold the variables of every scope so far. -/
  slotsNeeded : Nat

namespace SlotTable

variable {τ : Type}

/-- The table whose outermost scope has no variables. -/
def ofRoot (label : Option String) : SlotTable τ where
  scopes := .ofRoot label (.startingAt 0 0)
  slotsNeeded := 0

/-! ## Reading a scope -/

/-- The frame of a scope, which is empty for an unknown scope. -/
def frame (table : SlotTable τ) (scope : ScopeId) : VariableFrame τ :=
  (table.scopes.payload? scope).getD (.startingAt 0 0)

/-- The frames of a scope and of the scopes around it, its own first. -/
def frames (table : SlotTable τ) (scope : ScopeId) : List (VariableFrame τ) :=
  table.scopes.payloads scope

/-- The variables declared in a scope itself, in the order of declaration. -/
def declaredIn (table : SlotTable τ) (scope : ScopeId) : List (Variable τ) :=
  (table.frame scope).contents.toList

/-- The variables visible from a scope, the outermost scope first. -/
def visible (table : SlotTable τ) (scope : ScopeId) : List (Variable τ) :=
  (table.frames scope).reverse.flatMap fun frame => frame.contents.toList

/-- The number of variables of a scope, and of those around it as they were when it was entered. -/
def visibleCount (table : SlotTable τ) (scope : ScopeId) : Nat :=
  (table.frame scope).visibleCount

/-- No variable is counted in a scope or around it. -/
def isEmpty (table : SlotTable τ) (scope : ScopeId) : Bool :=
  table.visibleCount scope == 0

/-- The number of arguments visible from a scope. -/
def argumentCount (table : SlotTable τ) (scope : ScopeId) : Nat :=
  (table.frames scope).foldr (fun frame total => frame.argumentCount + total) 0

/-- The number of local variables visible from a scope. -/
def localCount (table : SlotTable τ) (scope : ScopeId) : Nat :=
  (table.frames scope).foldr (fun frame total => frame.localCount + total) 0

/-- The furthest phase that the declarations in a scope and around it have reached. -/
def phase (table : SlotTable τ) (scope : ScopeId) : DeclarationPhase :=
  (table.frames scope).foldr (fun frame furthest => max frame.phase furthest) .empty

/-- The slot at which the variables of a scope begin. -/
def firstSlot (table : SlotTable τ) (scope : ScopeId) : Nat :=
  (table.frame scope).firstSlot

/-- The slot that the next variable of a scope will take. -/
def nextSlot (table : SlotTable τ) (scope : ScopeId) : Nat :=
  (table.frame scope).nextSlot

/-- The receiver, if it is visible from a scope. -/
def receiver? (table : SlotTable τ) (scope : ScopeId) : Option (Variable τ) :=
  (table.frames scope).findSome? VariableFrame.receiver?

/-- A receiver is visible from a scope. -/
def hasReceiver (table : SlotTable τ) (scope : ScopeId) : Bool :=
  (table.receiver? scope).isSome

/-- The variable with a name that is visible from a scope, the innermost first. -/
def named? (table : SlotTable τ) (scope : ScopeId) (name : String) : Option (Variable τ) :=
  (table.frames scope).findSome? fun frame => frame.named? name

/-- The variable visible under a name is an argument. -/
def hasArgument (table : SlotTable τ) (scope : ScopeId) (name : String) : Bool :=
  (table.named? scope name).any fun declared => declared.role = .argument

/-- The variable visible under a name is a local variable. -/
def hasLocal (table : SlotTable τ) (scope : ScopeId) (name : String) : Bool :=
  (table.named? scope name).any fun declared => declared.role = .localVariable

/-! ## Resolving names and indices -/

/-- The variable visible from an open scope under a name. -/
def resolve (table : SlotTable τ) (scope : ScopeId) (name : String) :
    Except ScopeError (Variable τ) :=
  match table.scopes.requireOpen scope with
  | .error cause => .error cause
  | .ok () =>
      match table.named? scope name with
      | some declared => .ok declared
      | none => .error (.nameUnknown name (table.scopes.pathName scope))

/--
The variable with an index among all variables visible from a scope, if there is one: the closest
frame that begins at or before the index has it.
-/
def indexed? (table : SlotTable τ) (scope : ScopeId) (index : Nat) : Option (Variable τ) :=
  ((table.frames scope).find? fun frame => frame.firstIndex ≤ index).bind fun frame =>
    frame.contents[index - frame.firstIndex]?

/-- The variable with an index among all variables visible from an open scope. -/
def resolveIndex (table : SlotTable τ) (scope : ScopeId) (index : Nat) :
    Except ScopeError (Variable τ) :=
  match table.scopes.requireOpen scope with
  | .error cause => .error cause
  | .ok () =>
      let count := table.visibleCount scope
      if count ≤ index then .error (.indexTooLarge index count)
      else
        match table.indexed? scope index with
        | some declared => .ok declared
        | none => .error (.indexTooLarge index count)

/-- The visible variable with an index among those of one role, of which there are `count`. -/
def resolveAmong (table : SlotTable τ) (scope : ScopeId) (role : VariableRole) (count : Nat)
    (index : Nat) : Except ScopeError (Variable τ) :=
  match table.scopes.requireOpen scope with
  | .error cause => .error cause
  | .ok () =>
      match ((table.visible scope).filter fun declared => declared.role = role)[index]? with
      | some declared => .ok declared
      | none => .error (.indexTooLarge index count)

/-- The argument with an index among those visible from an open scope. -/
def resolveArgument (table : SlotTable τ) (scope : ScopeId) (index : Nat) :
    Except ScopeError (Variable τ) :=
  table.resolveAmong scope .argument (table.argumentCount scope) index

/-- The local variable with an index among those visible from an open scope. -/
def resolveLocal (table : SlotTable τ) (scope : ScopeId) (index : Nat) :
    Except ScopeError (Variable τ) :=
  table.resolveAmong scope .localVariable (table.localCount scope) index

/-! ## Entering and closing scopes -/

/-- Opens a scope inside an open scope; its slots and indices come behind those of the parent. -/
def enter (table : SlotTable τ) (parent : ScopeId) (label : Option String) :
    Outcome ScopeError (SlotTable τ) ScopeId :=
  let outer := table.frame parent
  (table.scopes.enter parent label (.startingAt outer.nextSlot outer.visibleCount)).lift id
    fun scopes => { table with scopes }

/-- Closes a scope, whose slots are free again for the scope around it. -/
def close (table : SlotTable τ) (scope : ScopeId) : Outcome ScopeError (SlotTable τ) Bool :=
  (table.scopes.close scope).lift id fun scopes => { table with scopes }

/-! ## Declaring -/

/-- What keeps a role from being declared next, if anything does. -/
def orderViolation? (table : SlotTable τ) (scope : ScopeId) : VariableRole → Option String
  | .receiver =>
      if table.hasReceiver scope then some "a receiver has already been added"
      else if 0 < table.visibleCount scope then some "other variables have already been added"
      else none
  | .argument =>
      if table.phase scope = .hasLocals then some "local variables have already been added"
      else none
  | .localVariable => none

/-- A usable scope accepts a variable in the order of roles and under a name that is not visible. -/
def requireDeclarable (table : SlotTable τ) (scope : ScopeId) (role : VariableRole)
    (name : Option String) : Except ScopeError Unit :=
  match table.scopes.requireUsable scope with
  | .error cause => .error cause
  | .ok () =>
      match table.orderViolation? scope role with
      | some detail => .error (.outOfOrder (table.scopes.pathName scope) detail)
      | none =>
          match name.filter fun name => (table.named? scope name).isSome with
          | some name => .error (.nameTaken name (table.scopes.pathName scope))
          | none => .ok ()

/-- Adds a variable to a scope that accepts it, in the next free slots. -/
def declare [Slotted τ] (table : SlotTable τ) (scope : ScopeId) (role : VariableRole) (type : τ)
    (name : Option String) : Outcome ScopeError (SlotTable τ) (Variable τ) :=
  match table.requireDeclarable scope role name with
  | .error cause => .error cause table
  | .ok () =>
      let declared : Variable τ := { name, type, scope, slot := table.nextSlot scope, role }
      .ok declared {
        scopes := table.scopes.modifyPayload scope fun frame => frame.push declared
        slotsNeeded := max table.slotsNeeded declared.endSlot }

/-- Declares the receiver, which has no name and is the first variable of all. -/
def declareReceiver [Slotted τ] (table : SlotTable τ) (scope : ScopeId) (type : τ) :
    Outcome ScopeError (SlotTable τ) (Variable τ) :=
  table.declare scope .receiver type none

/-- Declares an argument, which comes before every local variable. -/
def declareArgument [Slotted τ] (table : SlotTable τ) (scope : ScopeId) (type : τ)
    (name : Option String) : Outcome ScopeError (SlotTable τ) (Variable τ) :=
  table.declare scope .argument type name

/-- Declares a local variable, behind which no receiver or argument is accepted. -/
def declareLocal [Slotted τ] (table : SlotTable τ) (scope : ScopeId) (type : τ)
    (name : Option String) : Outcome ScopeError (SlotTable τ) (Variable τ) :=
  table.declare scope .localVariable type name

end SlotTable

end JvmEmit
