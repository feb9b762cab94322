/-!
# Access and property flags

The flags of a class, field or method are sixteen bits whose values are those of the class-file
format. Each kind of target names some of the bits. Bits without a name are kept as they are, except
where an operation says that it works within the named flags.
-/

namespace JvmEmit

/-- What a set of modifiers belongs to. -/
inductive ModifierTarget where
  | classFile
  | field
  | method
deriving DecidableEq

/-- A named bit of the flags of a target. -/
structure Flag where
  name : String
  bit : UInt16
deriving DecidableEq

namespace ModifierTarget

/-- The flags that a target names, from the lowest bit to the highest. -/
def flags : ModifierTarget → List Flag
  | .classFile =>
      [⟨"PUBLIC", 0x0001⟩, ⟨"FINAL", 0x0010⟩, ⟨"SUPER", 0x0020⟩, ⟨"INTERFACE", 0x0200⟩,
        ⟨"ABSTRACT", 0x0400⟩, ⟨"SYNTHETIC", 0x1000⟩, ⟨"ANNOTATION", 0x2000⟩, ⟨"ENUM", 0x4000⟩]
  | .field =>
      [⟨"PUBLIC", 0x0001⟩, ⟨"PRIVATE", 0x0002⟩, ⟨"PROTECTED", 0x0004⟩, ⟨"STATIC", 0x0008⟩,
        ⟨"FINAL", 0x0010⟩, ⟨"VOLATILE", 0x0040⟩, ⟨"TRANSIENT", 0x0080⟩, ⟨"SYNTHETIC", 0x1000⟩,
        ⟨"ENUM", 0x4000⟩]
  | .method =>
      [⟨"PUBLIC", 0x0001⟩, ⟨"PRIVATE", 0x0002⟩, ⟨"PROTECTED", 0x0004⟩, ⟨"STATIC", 0x0008⟩,
        ⟨"FINAL", 0x0010⟩, ⟨"SYNCHRONIZED", 0x0020⟩, ⟨"BRIDGE", 0x0040⟩, ⟨"VARARGS", 0x0080⟩,
        ⟨"NATIVE", 0x0100⟩, ⟨"ABSTRACT", 0x0400⟩, ⟨"STRICT", 0x0800⟩, ⟨"SYNTHETIC", 0x1000⟩]

/-- The bits that a target names. -/
def mask (target : ModifierTarget) : UInt16 :=
  target.flags.foldl (fun bits flag => bits ||| flag.bit) 0

/-- The name of the kind of modifiers that a target has, for their written form. -/
def title : ModifierTarget → String
  | .classFile => "ClassModifiers"
  | .field => "FieldModifiers"
  | .method => "MethodModifiers"

end ModifierTarget

/-- A set of modifiers of a target, which may hold bits that the target does not name. -/
structure Modifiers (target : ModifierTarget) where
  bits : UInt16
deriving DecidableEq

namespace Modifiers

variable {target : ModifierTarget}

/-- The set without modifiers. -/
def empty : Modifiers target :=
  ⟨0⟩

/-- The bits as a set of modifiers, provided that all of them are named. -/
def ofKnownBits? (bits : UInt16) : Option (Modifiers target) :=
  if bits &&& target.mask = bits then some ⟨bits⟩ else none

/-- The modifiers without their unnamed bits. -/
def truncate (modifiers : Modifiers target) : Modifiers target :=
  ⟨modifiers.bits &&& target.mask⟩

/-- The set of the one flag with this exact name, if the target names it. -/
def ofName? (name : String) : Option (Modifiers target) :=
  (target.flags.find? fun flag => flag.name == name).map fun flag => ⟨flag.bit⟩

/-- The bits that are set on either side. -/
def union (left right : Modifiers target) : Modifiers target :=
  ⟨left.bits ||| right.bits⟩

/-- The bits that are set on both sides. -/
def inter (left right : Modifiers target) : Modifiers target :=
  ⟨left.bits &&& right.bits⟩

/-- The bits of the left side that are not set on the right, unnamed ones included. -/
def sdiff (left right : Modifiers target) : Modifiers target :=
  ⟨left.bits &&& ~~~right.bits⟩

/-- The bits that are set on one side only. -/
def symmDiff (left right : Modifiers target) : Modifiers target :=
  ⟨left.bits ^^^ right.bits⟩

/-- The named flags that are not set. -/
def complement (modifiers : Modifiers target) : Modifiers target :=
  truncate ⟨~~~modifiers.bits⟩

/-- All bits of another set are set. -/
def contains (modifiers other : Modifiers target) : Bool :=
  modifiers.bits &&& other.bits == other.bits

/-- Some bit of another set is set. -/
def intersects (modifiers other : Modifiers target) : Bool :=
  modifiers.bits &&& other.bits != 0

/-- No bit is set, named or not. -/
def isEmpty (modifiers : Modifiers target) : Bool :=
  modifiers.bits == 0

/-- All flags that the target names are set. -/
def isAll (modifiers : Modifiers target) : Bool :=
  target.mask ||| modifiers.bits == modifiers.bits

/-- The names of the flags that are set, from the lowest bit to the highest. -/
def names (modifiers : Modifiers target) : List String :=
  (target.flags.filter fun flag => modifiers.contains ⟨flag.bit⟩).map Flag.name

/-- A word in hexadecimal, in lower case and without leading zeros. -/
def hexText (bits : UInt16) : String :=
  "0x" ++ String.ofList (Nat.toDigits 16 bits.toNat)

/-- The written parts of a set: its names, then what is left over, or zero for the empty set. -/
def parts (modifiers : Modifiers target) : List String :=
  let unnamed := modifiers.bits &&& ~~~target.mask
  if modifiers.bits = 0 then [hexText 0]
  else if unnamed = 0 then modifiers.names
  else modifiers.names ++ [hexText unnamed]

/-- The written form of a set, such as `ClassModifiers(PUBLIC | FINAL | 0x8000)`. -/
def text (modifiers : Modifiers target) : String :=
  target.title ++ "(" ++ " | ".intercalate modifiers.parts ++ ")"

end Modifiers

/-- The modifiers of a class. -/
abbrev ClassModifiers := Modifiers .classFile

/-- The modifiers of a field. -/
abbrev FieldModifiers := Modifiers .field

/-- The modifiers of a method. -/
abbrev MethodModifiers := Modifiers .method

namespace Modifiers

/-- A public class whose `super` calls are resolved by the current rules. -/
def plainClass : ClassModifiers :=
  ⟨0x0021⟩

/-- A public instance method. -/
def plainMethod : MethodModifiers :=
  ⟨0x0001⟩

/-- A method of the class itself, which has no receiver. -/
def staticMethod : MethodModifiers :=
  ⟨0x0008⟩

/-- A method that no source text declares. -/
def syntheticMethod : MethodModifiers :=
  ⟨0x1000⟩

/-- The method is called on an object, its receiver. -/
def isInstance (modifiers : MethodModifiers) : Bool :=
  !modifiers.contains staticMethod

end Modifiers

end JvmEmit
