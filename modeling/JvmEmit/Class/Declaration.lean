import JvmEmit.ClassFileVersion
import JvmEmit.Modifiers
import JvmEmit.Types.JvmType

/-!
# Declarations

What a class, a field, a method and a parameter are declared as, and the options under which a class
is written.
-/

namespace JvmEmit

/-- The head of a class: its name, modifiers, superclass and interfaces. -/
structure ClassHeader where
  name : ClassName
  modifiers : ClassModifiers := .plainClass
  superclass : ClassName := .object
  interfaces : List ClassName := []
deriving DecidableEq

/-- A field of a class, with its name, type and modifiers. -/
structure Field where
  name : String
  type : JvmType
  modifiers : FieldModifiers
deriving DecidableEq

/-- A formal parameter, which may lack a name. -/
structure Parameter where
  name : Option String
  type : JvmType
deriving DecidableEq

/-- The signature of a method, by default that of a public instance method without parameters. -/
structure MethodSignature where
  name : String
  modifiers : MethodModifiers := .plainMethod
  parameters : List Parameter := []
  returnType : JvmType := .void
deriving DecidableEq

/-- A method takes a receiver unless it is static. -/
def MethodSignature.isInstance (signature : MethodSignature) : Bool :=
  signature.modifiers.isInstance

/-- The options under which a class is written. -/
structure ClassOptions where
  version : ClassFileVersion := .standard
  /-- Finished methods list their named variables for a debugger. -/
  localVariableTable : Bool := true
deriving DecidableEq

end JvmEmit
