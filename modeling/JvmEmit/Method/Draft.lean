import JvmEmit.Class.Draft
import JvmEmit.Slot.Table

/-!
# Drafts of methods

The draft of a method takes over the draft of its class until the method is complete or abandoned.
The body of a method consists of nested blocks. A block is one scope of the method's slot table and
one scope of the class's name supply, entered and closed together, and it has a label at each end of
its code.

The body is the outermost block. Its variables live in the outermost scope of the method's own slot
table, while its names live in a scope directly inside that of the class, which is entered together
with the method.
-/

namespace JvmEmit

/-- The identity of a block within its method. -/
structure BlockId where
  index : Nat
deriving DecidableEq

/-- A lexical block: its two scopes and the labels at its ends. -/
structure Block where
  /-- The scope of the block's variables in the slot table of the method. -/
  slotScope : ScopeId
  /-- The scope of the block's names in the name supply of the class. -/
  nameScope : ScopeId
  start : Label
  stop : Label
deriving DecidableEq

/-- A method under construction, together with the class it has taken over. -/
structure MethodDraft where
  owner : ClassDraft
  signature : MethodSignature
  /-- The scope of the method's names in the name supply of the class. -/
  nameScope : ScopeId
  slots : SlotTable JvmType
  /-- The blocks in the order of entering; a block's number is its position. -/
  blocks : Array Block
  /-- The outermost block, once the body has been started. -/
  body : Option BlockId
  /-- For each label of the method, whether one with its number has a position. -/
  bound : Array Bool
  code : Array Instruction
  /-- The declared variables, each with its block, in the order of declaration. -/
  declared : Array (BlockId × Variable JvmType)

/-- Programs on a method under construction, which may fail and keep what they have done by then. -/
abbrev MethodM (α : Type) :=
  EStateM DraftError MethodDraft α

namespace ClassDraft

/-- Enters the name scope of a method and hands the class over to its draft. -/
def draftMethod (signature : MethodSignature) : ClassM MethodDraft := do
  let nameScope ← onNames fun names => names.enter .root (some signature.name)
  let owner ← get
  return {
    owner, signature, nameScope
    slots := .ofRoot (some signature.name)
    blocks := #[]
    body := none
    bound := #[]
    code := #[]
    declared := #[] }

/-- Starts a method under its own name, which several methods of a class may share. -/
def startMethod (signature : MethodSignature) : ClassM MethodDraft := do
  takeName signature.name
  draftMethod signature

/-- Starts a method that no source text declares, under a fresh name. -/
def startSyntheticMethod (hint : String) (modifiers : MethodModifiers)
    (parameters : List Parameter) (returnType : JvmType) : ClassM MethodDraft := do
  let name ← issueName (some hint)
  draftMethod { name, modifiers := modifiers.union .syntheticMethod, parameters, returnType }

end ClassDraft

namespace MethodDraft

/-! ## The parts of a draft -/

/-- Runs an operation on the name supply of the class that the method has taken over. -/
def onNames {α : Type} (operation : NameSupply → Outcome ScopeError NameSupply α) : MethodM α :=
  fun draft => (operation draft.owner.names).lift .scope fun names =>
    { draft with owner := { draft.owner with names } }

/-- Runs an operation on the slot table of the method. -/
def onSlots {α : Type}
    (operation : SlotTable JvmType → Outcome ScopeError (SlotTable JvmType) α) : MethodM α :=
  fun draft => (operation draft.slots).lift .scope fun slots => { draft with slots }

/-- A question to the slot table of the method, which changes nothing. -/
def askSlots {α : Type} (question : SlotTable JvmType → Except ScopeError α) : MethodM α :=
  onSlots fun slots => Outcome.ofExcept slots (question slots)

/-- The block with an identity, which may be of another method and unknown here. -/
def block (id : BlockId) : MethodM Block :=
  fun draft =>
    match draft.blocks[id.index]? with
    | some found => .ok found draft
    | none => .error (.unknownBlock id.index) draft

/-- A block that is open and has no open block inside it. -/
def usableBlock (id : BlockId) : MethodM Block := do
  let found ← block id
  askSlots fun slots => slots.scopes.requireUsable found.slotScope
  return found

/-- The number of slots that the frame needs so far. -/
def maxLocals (draft : MethodDraft) : Nat :=
  draft.slots.slotsNeeded

/-- The receiver of the method, once the body has declared it. -/
def receiver? (draft : MethodDraft) : Option (Variable JvmType) :=
  draft.slots.receiver? .root

/-- A label of the method has a position. Only its number counts, whichever method made it. -/
def isBound (draft : MethodDraft) (label : Label) : Bool :=
  draft.bound[label.number.toNat]?.getD false

/-- Gives a label the current position. -/
def markHere (label : Label) : MethodM Unit :=
  modify fun draft =>
    { draft with
      bound := draft.bound.setIfInBounds label.number.toNat true
      code := draft.code.push (.mark label) }

/--
Makes a label under a fresh name of a name scope, without a position. It comes behind all labels made
before, and its number counts them as far as 32 bits go.
-/
def issueLabel (nameScope : ScopeId) (hint : Option String) : MethodM Label := do
  let name ← onNames fun names => names.fresh nameScope hint
  let draft ← get
  let label : Label := ⟨⟨draft.bound.size⟩, name⟩
  set { draft with bound := draft.bound.push false }
  return label

/-- Adds a block behind the others and gives its start label the current position. -/
def addBlock (entered : Block) : MethodM BlockId := do
  let draft ← get
  set { draft with blocks := draft.blocks.push entered }
  markHere entered.start
  return ⟨draft.blocks.size⟩

/-- Remembers a declared variable with its block for the entries of the debugger. -/
def recordVariable (id : BlockId) (declared : Variable JvmType) : MethodM Unit :=
  modify fun draft => { draft with declared := draft.declared.push (id, declared) }

/-! ## Blocks -/

/-- Declares the receiver of the method, which has the type of the class. -/
def addReceiver (body : BlockId) : MethodM Unit := do
  let draft ← get
  let type : JvmType := .reference draft.owner.header.name
  let receiver ← onSlots fun slots => slots.declareReceiver .root type
  recordVariable body receiver

/-- Declares a parameter of the method; its name, if any, is reserved in the body. -/
def addParameter (body : BlockId) (parameter : Parameter) : MethodM Unit := do
  let draft ← get
  let argument ← onSlots fun slots => slots.declareArgument .root parameter.type parameter.name
  if let some name := parameter.name then
    onNames fun names => names.reserve draft.nameScope name
  recordVariable body argument

/--
Starts the body of the method and declares its receiver and parameters. A parameter whose name is
taken ends the declarations with an error, and what came before it stays.
-/
def startBody : MethodM BlockId := do
  let draft ← get
  if draft.body.isSome then
    throw (.bodyStarted draft.signature.name)
  let start ← issueLabel draft.nameScope (some "start")
  let stop ← issueLabel draft.nameScope (some "end")
  let body ← addBlock { slotScope := .root, nameScope := draft.nameScope, start, stop }
  modify fun draft => { draft with body := some body }
  if draft.signature.isInstance then
    addReceiver body
  draft.signature.parameters.forM (addParameter body)
  return body

/-- Enters a block inside a usable block. Its labels are named in the outer block. -/
def enterBlock (parent : BlockId) (label : Option String) : MethodM BlockId := do
  let outer ← usableBlock parent
  let start ← issueLabel outer.nameScope (some "start")
  let stop ← issueLabel outer.nameScope (some "end")
  let slotScope ← onSlots fun slots => slots.enter outer.slotScope label
  let nameScope ← onNames fun names => names.enter outer.nameScope label
  addBlock { slotScope, nameScope, start, stop }

/-- Asks whether a block has been left. -/
def isBlockClosed (id : BlockId) : MethodM Bool := do
  let asked ← block id
  let draft ← get
  return draft.slots.scopes.isClosed asked.slotScope

/--
Closes a block that has no open block inside it, and gives its end label the current position. The
answer says whether the block was open before.
-/
def leaveBlock (id : BlockId) : MethodM Bool := do
  if ← isBlockClosed id then
    return false
  let closing ← usableBlock id
  markHere closing.stop
  let _ ← onSlots fun slots => slots.close closing.slotScope
  let _ ← onNames fun names => names.close closing.nameScope
  return true

/-! ## Variables and names -/

/-- Declares a local variable in a block; its name, if any, is reserved in the block. -/
def addVariable (id : BlockId) (type : JvmType) (name : Option String) :
    MethodM (Variable JvmType) := do
  let home ← block id
  let declared ← onSlots fun slots => slots.declareLocal home.slotScope type name
  if let some name := name then
    onNames fun names => names.reserve home.nameScope name
  recordVariable id declared
  return declared

/-- Hands out a fresh name of a block. -/
def issueName (id : BlockId) (hint : Option String) : MethodM String := do
  let home ← block id
  onNames fun names => names.fresh home.nameScope hint

/-- Takes a name out of those that a block and the blocks inside it hand out. -/
def takeName (id : BlockId) (name : String) : MethodM Unit := do
  let home ← block id
  onNames fun names => names.reserve home.nameScope name

/-- Declares a local variable in a block under a fresh name. -/
def addTemporary (id : BlockId) (type : JvmType) (hint : Option String) :
    MethodM (Variable JvmType) := do
  let name ← issueName id hint
  addVariable id type (some name)

/-- Looks up the variable with a name that is visible from a block. -/
def visibleVariable (id : BlockId) (name : String) : MethodM (Variable JvmType) := do
  let home ← block id
  askSlots fun slots => slots.resolve home.slotScope name

/-! ## Labels and instructions -/

/-- The base of a label's name when no hint is given. -/
def labelHint : String :=
  "label"

/-- Makes a label of a block, without a position. -/
def createLabel (id : BlockId) (hint : Option String) : MethodM Label := do
  let home ← block id
  issueLabel home.nameScope (some (hint.getD labelHint))

/-- Gives a label the current position in a usable block, once and for all. -/
def bindLabel (id : BlockId) (label : Label) : MethodM Unit := do
  let _ ← usableBlock id
  let draft ← get
  if draft.isBound label then
    throw (.labelBound label.name)
  markHere label

/-- Adds an instruction to the code of a usable block; a mark binds its label. -/
def append (id : BlockId) (instruction : Instruction) : MethodM Unit :=
  match instruction with
  | .mark label => bindLabel id label
  | _ => do
    let _ ← usableBlock id
    modify fun draft => { draft with code := draft.code.push instruction }

/-! ## Completion -/

/-- The debugger's entry of a declared variable, provided that the variable has a name. -/
def entry? (draft : MethodDraft) (id : BlockId) (declared : Variable JvmType) :
    Option LocalVariableEntry :=
  declared.name.bind fun name =>
    draft.blocks[id.index]?.map fun home =>
      { name, type := declared.type, start := home.start, stop := home.stop
        slot := declared.slot }

/-- The debugger's entries of the named variables, in the order of declaration. -/
def entries (draft : MethodDraft) : List LocalVariableEntry :=
  draft.declared.toList.filterMap fun (id, declared) => draft.entry? id declared

/-- What becomes of the draft when its method is complete. -/
def finished (draft : MethodDraft) : FinishedMethod where
  signature := draft.signature
  code := draft.code.toList
  maxLocals := draft.maxLocals
  localVariables := if draft.owner.options.localVariableTable then draft.entries else []

/-- A body, once started, has to be closed before the method is complete. -/
def requireBodyClosed : MethodM Unit := do
  let draft ← get
  if let some body := draft.body then
    if !(← isBlockClosed body) then
      throw (.bodyOpen draft.signature.name)

/-- Ends the method, adds it to its class and gives the class back. -/
def complete (draft : MethodDraft) : Outcome DraftError ClassDraft Unit :=
  match requireBodyClosed draft with
  | .error cause _ => .error cause draft.owner
  | .ok _ _ =>
      match draft.owner.names.close draft.nameScope with
      | .error cause names => .error (.scope cause) { draft.owner with names }
      | .ok _ names =>
          .ok () {
            draft.owner with
            names
            methods := draft.owner.methods ++ [draft.finished] }

/--
Gives the class back without the method. The name scope of the method stays as it is, and while it
is open the class hands out and takes no names.
-/
def abandon (draft : MethodDraft) : ClassDraft :=
  draft.owner

end MethodDraft

end JvmEmit
