/-!
# Class names

A class is named by a dotted package and a simple name. Source text writes the two with a dot
between them (`java.lang.String`), class files write slashes for dots (`java/lang/String`). Reading
a source name splits it at its last dot, so everything before that dot is the package.
-/

namespace JvmEmit

/-- A class or interface, named by its package and its simple name. -/
structure ClassName where
  package : String
  /-- The simple name, in which `$` separates nested classes. -/
  name : String
deriving DecidableEq

namespace ClassName

/-- The characters before and after the last dot, or `none` where there is no dot. -/
def splitAtLastDot? (text : List Char) : Option (List Char × List Char) :=
  match text.reverse.dropWhile (· != '.') with
  | [] => none
  | _ :: before => some (before.reverse, (text.reverse.takeWhile (· != '.')).reverse)

/-- Reads a source name: the part after the last dot is the simple name. -/
def ofSourceName (text : String) : ClassName :=
  match splitAtLastDot? text.toList with
  | some (package, name) => ⟨String.ofList package, String.ofList name⟩
  | none => ⟨"", text⟩

/-- The source name; a class of the default package has no dot in front. -/
def sourceName (className : ClassName) : String :=
  if className.package = "" then className.name
  else className.package ++ "." ++ className.name

/-- The class-file name: the source name with a slash for every dot. -/
def internalForm (className : ClassName) : String :=
  className.sourceName.map fun c => if c = '.' then '/' else c

instance : ToString ClassName where
  toString := sourceName

/-- The class at the root of the class hierarchy. -/
def object : ClassName :=
  ⟨"java.lang", "Object"⟩

/-- The class of text literals. -/
def string : ClassName :=
  ⟨"java.lang", "String"⟩

end ClassName

end JvmEmit
