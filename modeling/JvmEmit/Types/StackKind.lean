/-!
# Stack kinds

A JVM value is held on the operand stack and in local-variable slots as one of a few kinds. The
kind decides how many slots a value takes: the wide kinds take two, every other kind takes one.
`Slotted` is the only thing a slot layout has to know about a type.
-/

namespace JvmEmit

/-- How the operand stack holds a value; the small integer types are all held as `int`. -/
inductive StackKind where
  | void
  | int
  | long
  | float
  | double
  | reference
deriving DecidableEq

namespace StackKind

/-- The number of operand-stack entries of a value, which is none for `void`. -/
def category : StackKind → Nat
  | .void => 0
  | .int | .float | .reference => 1
  | .long | .double => 2

/-- A wide value takes two entries. -/
def isWide (kind : StackKind) : Bool :=
  kind.category == 2

/-- The name of a kind, as source text writes it for the primitive types. -/
def name : StackKind → String
  | .void => "void"
  | .int => "int"
  | .long => "long"
  | .float => "float"
  | .double => "double"
  | .reference => "reference"

instance : ToString StackKind where
  toString := name

/-- Every kind, in the order of the type's definition. -/
def all : List StackKind :=
  [.void, .int, .long, .float, .double, .reference]

/-- The kind with this exact name. -/
def ofName? (text : String) : Option StackKind :=
  all.find? fun kind => kind.name == text

end StackKind

/-- A type of values that occupy one or two consecutive local-variable slots. -/
class Slotted (τ : Type) where
  slotCount : τ → Nat
  /-- A value is never without a slot, and never wider than two. -/
  slotCount_eq_one_or_two : ∀ type, slotCount type = 1 ∨ slotCount type = 2

/-- A variable of kind `void` still takes a slot of its own. -/
instance : Slotted StackKind where
  slotCount kind := max kind.category 1
  slotCount_eq_one_or_two kind := by cases kind <;> decide

end JvmEmit
