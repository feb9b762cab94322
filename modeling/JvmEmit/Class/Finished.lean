import JvmEmit.Class.Declaration
import JvmEmit.Code.Instruction

/-!
# Finished classes

What a class and its methods have become once they are complete, ready to be written to a class
file.
-/

namespace JvmEmit

/-- A named variable as a debugger sees it: where it lives, and where in the code it is visible. -/
structure LocalVariableEntry where
  name : String
  type : JvmType
  start : Label
  stop : Label
  slot : Nat
deriving DecidableEq

/-- A method whose code is complete, with what a class file says about it. -/
structure FinishedMethod where
  signature : MethodSignature
  code : List Instruction
  /-- The number of local-variable slots of the method's frame. -/
  maxLocals : Nat
  localVariables : List LocalVariableEntry
deriving DecidableEq

/-- A class whose members are complete, with the version of its class file. -/
structure FinishedClass where
  header : ClassHeader
  version : ClassFileVersion
  fields : List Field
  methods : List FinishedMethod
deriving DecidableEq

end JvmEmit
