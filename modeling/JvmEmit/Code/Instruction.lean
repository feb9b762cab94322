/-!
# Labels and instructions

The code of a method is a list of symbolic instructions. A label stands for a position, which a mark
fixes and a branch refers to. Opcodes are the bytes of the class-file format and are not checked.

Labels are told apart by the order in which they are made. What is noted about a label is found by its
number, a 32-bit word that counts the labels and starts again at zero after 2³² of them.
-/

namespace JvmEmit

/-- The identity of a label within its method: how many labels were made before it. -/
structure LabelId where
  index : Nat
deriving DecidableEq

/-- The number by which a label is looked up. It has 32 bits, so labels 2³² apart share it. -/
def LabelId.number (id : LabelId) : UInt32 :=
  .ofNat id.index

/-- A position in the code of a method, with the fresh name it was given. -/
structure Label where
  id : LabelId
  name : String
deriving DecidableEq

/-- The number by which a label is looked up. -/
def Label.number (label : Label) : UInt32 :=
  label.id.number

/-- A symbolic instruction. -/
inductive Instruction where
  | simple (opcode : UInt8)
  /-- An instruction on a local-variable slot. -/
  | onSlot (opcode : UInt8) (slot : Nat)
  | branch (opcode : UInt8) (target : Label)
  | mark (label : Label)
deriving DecidableEq

namespace Instruction

/-- A byte in hexadecimal, with two digits in lower case. -/
def hexByte (byte : UInt8) : String :=
  "0x" ++ String.ofList [Nat.digitChar (byte.toNat / 16), Nat.digitChar (byte.toNat % 16)]

/-- The written form of an instruction, in which labels stand by name. -/
def text : Instruction → String
  | .simple opcode => "op " ++ hexByte opcode
  | .onSlot opcode slot => "op " ++ hexByte opcode ++ " @" ++ toString slot
  | .branch opcode target => "op " ++ hexByte opcode ++ " -> " ++ target.name
  | .mark label => label.name ++ ":"

/-- The label that an instruction fixes or refers to. -/
def label? : Instruction → Option Label
  | .branch _ label | .mark label => some label
  | .simple _ | .onSlot .. => none

end Instruction

end JvmEmit
