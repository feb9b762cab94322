import JvmEmit.Types.ClassName
import JvmEmit.Types.StackKind

/-!
# JVM types

The types of fields, parameters, variables and results. Each type has a stack kind, and through it
a slot width.
-/

namespace JvmEmit

/-- A type of the JVM, with `void` for the result of a method that returns nothing. -/
inductive JvmType where
  | void
  | boolean
  | byte
  | char
  | short
  | int
  | long
  | float
  | double
  | reference (className : ClassName)
  | array (component : JvmType)
deriving DecidableEq

namespace JvmType

/-- The stack kind that holds values of a type. -/
def kind : JvmType → StackKind
  | .void => .void
  | .boolean | .byte | .char | .short | .int => .int
  | .long => .long
  | .float => .float
  | .double => .double
  | .reference _ | .array _ => .reference

/-- Every type other than a class or an array is primitive, `void` included. -/
def isPrimitive : JvmType → Bool
  | .reference _ | .array _ => false
  | _ => true

/-- Classes and arrays are the reference types. -/
def isReference (type : JvmType) : Bool :=
  !type.isPrimitive

/-- The source text of a type; an array writes brackets after its component. -/
def text : JvmType → String
  | .void => "void"
  | .boolean => "boolean"
  | .byte => "byte"
  | .char => "char"
  | .short => "short"
  | .int => "int"
  | .long => "long"
  | .float => "float"
  | .double => "double"
  | .reference className => className.sourceName
  | .array component => component.text ++ "[]"

instance : ToString JvmType where
  toString := text

/-- The types without a class or component, in the order of the type's definition. -/
def primitives : List JvmType :=
  [.void, .boolean, .byte, .char, .short, .int, .long, .float, .double]

/-- The primitive type with this exact text. -/
def ofPrimitiveName? (name : String) : Option JvmType :=
  primitives.find? fun type => type.text == name

/-- The class type that a source name denotes. -/
def ofSourceName (name : String) : JvmType :=
  .reference (.ofSourceName name)

/-- The array type with this many levels of brackets around a component. -/
def arrayOf (component : JvmType) : (levels : Nat) → JvmType
  | 0 => component
  | levels + 1 => .array (component.arrayOf levels)

/-- A type is as wide as its stack kind. -/
instance : Slotted JvmType where
  slotCount type := Slotted.slotCount type.kind
  slotCount_eq_one_or_two type := Slotted.slotCount_eq_one_or_two type.kind

end JvmType

end JvmEmit
