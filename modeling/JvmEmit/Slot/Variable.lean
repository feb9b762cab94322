import JvmEmit.Scope.Nested
import JvmEmit.Types.StackKind
import Std.Data.TreeMap

/-!
# Variables and frames

A variable sits in one or two consecutive local-variable slots of a method's frame. The receiver
comes first, then the arguments, then the local variables. The variables declared in one scope are
kept together in a frame, which remembers where its slots and its indices begin. Slots count the
width of every variable before a variable; indices count variables, wide or not.
-/

namespace JvmEmit

/-- What a variable is to its method. -/
inductive VariableRole where
  /-- The object on which an instance method is called. -/
  | receiver
  | argument
  | localVariable
deriving DecidableEq

/-- How far the declarations of a scope have come; a later phase is never left. -/
inductive DeclarationPhase where
  | empty
  | hasReceiver
  | hasArguments
  | hasLocals
deriving DecidableEq

namespace DeclarationPhase

/-- The position of a phase in the order in which phases are reached. -/
def rank : DeclarationPhase → Nat
  | .empty => 0
  | .hasReceiver => 1
  | .hasArguments => 2
  | .hasLocals => 3

/-- The further of two phases. -/
instance : Max DeclarationPhase where
  max left right := if left.rank ≤ right.rank then right else left

/-- The phase that the declaration of a variable reaches. -/
def ofRole : VariableRole → DeclarationPhase
  | .receiver => .hasReceiver
  | .argument => .hasArguments
  | .localVariable => .hasLocals

end DeclarationPhase

/-- A declared variable of a type `τ`. -/
structure Variable (τ : Type) where
  name : Option String
  type : τ
  scope : ScopeId
  slot : Nat
  role : VariableRole
deriving DecidableEq

namespace Variable

variable {τ : Type}

/-- The written form of a variable: its name, if any, then its slot and its type. -/
def text [ToString τ] (declared : Variable τ) : String :=
  declared.name.getD "" ++ "@" ++ toString declared.slot ++ " : " ++ toString declared.type

/-- The slot behind those of a variable. -/
def endSlot [Slotted τ] (declared : Variable τ) : Nat :=
  declared.slot + Slotted.slotCount declared.type

end Variable

/-- The variables declared in one scope. -/
structure VariableFrame (τ : Type) where
  /-- The variables of the scope itself, in the order of declaration. -/
  contents : Array (Variable τ)
  /-- The positions of the named variables. -/
  positions : Std.TreeMap String Nat
  phase : DeclarationPhase
  /-- The slot of the first variable of the scope. -/
  firstSlot : Nat
  /-- The next free slot. -/
  nextSlot : Nat
  /-- The number of variables in the scopes around this one when it was entered. -/
  firstIndex : Nat
  argumentCount : Nat
  localCount : Nat

namespace VariableFrame

variable {τ : Type}

/-- The frame without variables whose slots and indices begin at the given numbers. -/
def startingAt (slot index : Nat) : VariableFrame τ where
  contents := #[]
  positions := ∅
  phase := .empty
  firstSlot := slot
  nextSlot := slot
  firstIndex := index
  argumentCount := 0
  localCount := 0

/-- The number of variables up to the end of the frame, those of the scopes around it included. -/
def visibleCount (frame : VariableFrame τ) : Nat :=
  frame.firstIndex + frame.contents.size

/-- The receiver, which is the first variable of the frame if it has one. -/
def receiver? (frame : VariableFrame τ) : Option (Variable τ) :=
  frame.contents[0]?.filter fun first => first.role = .receiver

/-- The variable of the frame with a name. -/
def named? (frame : VariableFrame τ) (name : String) : Option (Variable τ) :=
  frame.positions[name]?.bind fun position => frame.contents[position]?

/-- Adds a variable behind the others of the scope. -/
def push [Slotted τ] (frame : VariableFrame τ) (declared : Variable τ) : VariableFrame τ where
  contents := frame.contents.push declared
  positions :=
    match declared.name with
    | none => frame.positions
    | some name => frame.positions.insert name frame.contents.size
  phase := max frame.phase (.ofRole declared.role)
  firstSlot := frame.firstSlot
  nextSlot := frame.nextSlot + Slotted.slotCount declared.type
  firstIndex := frame.firstIndex
  argumentCount := frame.argumentCount + if declared.role = .argument then 1 else 0
  localCount := frame.localCount + if declared.role = .localVariable then 1 else 0

end VariableFrame

end JvmEmit
