/-!
# Numbered names

A name is read as a base and the digits at its end. The name of a base with index zero is the base
itself, and with a larger index it is the base followed by the decimal numeral: `foo`, `foo1`,
`foo2`. Only ASCII digits count, so a name that ends in another script's digits has no index.
-/

namespace JvmEmit

namespace NumberedName

/-- The ASCII digits at the end of a name. -/
def digits (name : String) : String :=
  String.ofList (name.toList.reverse.takeWhile Char.isDigit).reverse

/-- The name without the digits at its end. -/
def base (name : String) : String :=
  String.ofList (name.toList.reverse.dropWhile Char.isDigit).reverse

/-- The base used where a hint has none. -/
def fallbackBase : String :=
  "x"

/-- The base of a hint; a missing hint and one of digits only have the fallback. -/
def baseOfHint (hint : Option String) : String :=
  match hint.map base with
  | some name => if name = "" then fallbackBase else name
  | none => fallbackBase

/-- The name of a base with an index, where index zero stands for the base itself. -/
def numbered (base : String) (index : Nat) : String :=
  if index = 0 then base else base ++ toString index

/-- The index that the digits at the end of a name write, which is zero where there are none. -/
def index (name : String) : Nat :=
  Nat.ofDigitChars 10 (digits name).toList 0

/-- A name that no base and index give: it has no base, or its digits begin with a zero. -/
def isUnnumbered (name : String) : Bool :=
  base name = "" || (digits name).toList.head? = some '0'

end NumberedName

end JvmEmit
