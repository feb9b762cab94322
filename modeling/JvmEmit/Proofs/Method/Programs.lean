import JvmEmit.Method.Draft
import JvmEmit.Proofs.Name.Runs
import JvmEmit.Proofs.Slot.Runs

/-!
# The programs of a method's draft

The operations on the draft of a method are sequences of smaller programs. This file says what each
of the smaller ones leaves behind, as a function from draft to draft, and under which condition it
does so. The operations are put together from these facts, and their own definitions are unfolded
nowhere else.
-/

namespace JvmEmit

/-! ## Sequences of programs -/

theorem Outcome.eq_ok_of_toExcept {ε σ α : Type} {outcome : Outcome ε σ α} {answer : α}
    (answered : Outcome.toExcept outcome = .ok answer) :
    outcome = .ok answer (Outcome.state outcome) := by
  cases outcome with
  | ok answer state =>
      cases answered
      rfl
  | error cause state => cases answered

section Sequence

variable {ε σ α β : Type} {program : EStateM ε σ α} {next : α → EStateM ε σ β} {before after : σ}

theorem bind_of_ok {answer : α} (ran : program before = .ok answer after) :
    (program >>= next) before = next answer after := by
  change EStateM.bind program next before = next answer after
  rw [EStateM.bind, ran]

theorem bind_of_error {cause : ε} (failed : program before = .error cause after) :
    (program >>= next) before = .error cause after := by
  change EStateM.bind program next before = .error cause after
  rw [EStateM.bind, failed]

theorem bind_eq_ok {answer : β} (ran : (program >>= next) before = .ok answer after) :
    ∃ first middle, program before = .ok first middle ∧ next first middle = .ok answer after := by
  cases result : program before with
  | ok first middle =>
      rw [bind_of_ok result] at ran
      exact ⟨first, middle, rfl, ran⟩
  | error cause middle =>
      rw [bind_of_error result] at ran
      cases ran

theorem get_bind {next : σ → EStateM ε σ β} : (get >>= next) before = next before before :=
  rfl

end Sequence

namespace MethodDraft

variable {draft : MethodDraft} {scope : ScopeId}

/-! ## What the smaller programs leave behind -/

/-- The draft with another name supply in its class. -/
def withNames (draft : MethodDraft) (names : NameSupply) : MethodDraft :=
  { draft with owner := { draft.owner with names } }

/-- The label that is made next, under a fresh name of a name scope. -/
def nextLabel (draft : MethodDraft) (scope : ScopeId) (hint : Option String) : Label :=
  ⟨⟨draft.bound.size⟩, draft.owner.names.freshName scope hint⟩

/-- The draft after a label was made, without a position. -/
def withLabel (draft : MethodDraft) (scope : ScopeId) (hint : Option String) : MethodDraft :=
  { draft.withNames (draft.owner.names.afterFresh scope hint) with
    bound := draft.bound.push false }

theorem name_nextLabel (draft : MethodDraft) (scope : ScopeId) (hint : Option String) :
    (draft.nextLabel scope hint).name = draft.owner.names.freshName scope hint :=
  rfl

theorem names_withLabel (draft : MethodDraft) (scope : ScopeId) (hint : Option String) :
    (draft.withLabel scope hint).owner.names = draft.owner.names.afterFresh scope hint :=
  rfl

/-- The draft after the labels for the two ends of a block were made. -/
def withEnds (draft : MethodDraft) (scope : ScopeId) : MethodDraft :=
  (draft.withLabel scope (some "start")).withLabel scope (some "end")

/-- The label made for the end of a block, after the one for its start. -/
def nextStop (draft : MethodDraft) (scope : ScopeId) : Label :=
  (draft.withLabel scope (some "start")).nextLabel scope (some "end")

/-- The draft after a label was given the current position. -/
def marking (draft : MethodDraft) (label : Label) : MethodDraft :=
  { draft with
    bound := draft.bound.setIfInBounds label.number.toNat true
    code := draft.code.push (.mark label) }

/-- The draft after a block was added behind the others. -/
def beginning (draft : MethodDraft) (entered : Block) : MethodDraft :=
  { draft with blocks := draft.blocks.push entered }.marking entered.start

/-- The draft after a block was entered inside another one, as a scope of both nestings. -/
def entering (draft : MethodDraft) (outer : Block) (slotScope nameScope : ScopeId)
    (slotScopes : NestedScopes (VariableFrame JvmType)) (nameScopes : NestedScopes NameFrame) :
    MethodDraft :=
  ({ draft.withEnds outer.nameScope with
    slots := { draft.slots with scopes := slotScopes } }.withNames ⟨nameScopes⟩).beginning {
      slotScope
      nameScope
      start := draft.nextLabel outer.nameScope (some "start")
      stop := draft.nextStop outer.nameScope }

/-- The draft after the block of the body was added, without variables. -/
def withBody (draft : MethodDraft) : MethodDraft :=
  { (draft.withEnds draft.nameScope).beginning {
      slotScope := .root
      nameScope := draft.nameScope
      start := draft.nextLabel draft.nameScope (some "start")
      stop := draft.nextStop draft.nameScope } with
    body := some ⟨draft.blocks.size⟩ }

/-- The names after a variable was declared in a name scope; its name, if any, is taken. -/
def namesDeclaring (draft : MethodDraft) (scope : ScopeId) : Option String → NameSupply
  | none => draft.owner.names
  | some name => draft.owner.names.afterReserve scope name

/-- The draft after a variable was declared in a block. -/
def declaring (draft : MethodDraft) (id : BlockId) (home : Block) (role : VariableRole)
    (type : JvmType) (name : Option String) : MethodDraft :=
  let declared := draft.slots.nextVariable home.slotScope role type name
  { draft.withNames (draft.namesDeclaring home.nameScope name) with
    slots := draft.slots.adding declared
    declared := draft.declared.push (id, declared) }

theorem markHere_eq (draft : MethodDraft) (label : Label) :
    markHere label draft = .ok ⟨⟩ (draft.marking label) :=
  rfl

/-! ## Names and labels -/

theorem onNames_fresh_of_usable
    (usable : draft.owner.names.scopes.requireUsable scope = .ok ()) (hint : Option String) :
    onNames (fun names => names.fresh scope hint) draft =
      .ok (draft.owner.names.freshName scope hint)
        (draft.withNames (draft.owner.names.afterFresh scope hint)) := by
  rw [onNames, NameSupply.fresh_of_usable usable]
  rfl

theorem onNames_fresh_of_unusable {cause : ScopeError}
    (unusable : draft.owner.names.scopes.requireUsable scope = .error cause)
    (hint : Option String) :
    onNames (fun names => names.fresh scope hint) draft = .error (.scope cause) draft := by
  rw [onNames, NameSupply.fresh_of_unusable unusable]
  rfl

theorem onNames_reserve_of_usable
    (usable : draft.owner.names.scopes.requireUsable scope = .ok ()) (name : String) :
    onNames (fun names => names.reserve scope name) draft =
      .ok () (draft.withNames (draft.owner.names.afterReserve scope name)) := by
  rw [onNames, NameSupply.reserve_of_usable usable]
  rfl

theorem onNames_reserve_of_unusable {cause : ScopeError}
    (unusable : draft.owner.names.scopes.requireUsable scope = .error cause) (name : String) :
    onNames (fun names => names.reserve scope name) draft = .error (.scope cause) draft := by
  rw [onNames, NameSupply.reserve_of_unusable unusable]
  rfl

theorem issueLabel_of_usable (usable : draft.owner.names.scopes.requireUsable scope = .ok ())
    (hint : Option String) :
    issueLabel scope hint draft =
      .ok (draft.nextLabel scope hint) (draft.withLabel scope hint) := by
  rw [issueLabel, bind_of_ok (onNames_fresh_of_usable usable hint)]
  rfl

theorem issueLabel_of_unusable {cause : ScopeError}
    (unusable : draft.owner.names.scopes.requireUsable scope = .error cause)
    (hint : Option String) : issueLabel scope hint draft = .error (.scope cause) draft := by
  rw [issueLabel, bind_of_error (onNames_fresh_of_unusable unusable hint)]

theorem requireUsable_withLabel_iff (draft : MethodDraft) (scope : ScopeId) (hint : Option String)
    (other : ScopeId) :
    (draft.withLabel scope hint).owner.names.scopes.requireUsable other = .ok () ↔
      draft.owner.names.scopes.requireUsable other = .ok () :=
  NestedScopes.requireUsable_modifyPayload_iff _ _ _ _

theorem issueLabels_of_usable {α : Type}
    (usable : draft.owner.names.scopes.requireUsable scope = .ok ())
    (next : Label → Label → MethodM α) :
    (do
      let start ← issueLabel scope (some "start")
      let stop ← issueLabel scope (some "end")
      next start stop : MethodM α) draft =
    next (draft.nextLabel scope (some "start")) (draft.nextStop scope) (draft.withEnds scope) := by
  have usableStill := (requireUsable_withLabel_iff draft scope (some "start") scope).mpr usable
  rw [bind_of_ok (issueLabel_of_usable usable _), bind_of_ok (issueLabel_of_usable usableStill _)]
  rfl

/-! ## Blocks -/

theorem block_of_some {id : BlockId} {home : Block}
    (found : draft.blocks[id.index]? = some home) : block id draft = .ok home draft := by
  rw [block, found]

theorem block_of_none {id : BlockId} (unknown : draft.blocks[id.index]? = none) :
    block id draft = .error (.unknownBlock id.index) draft := by
  rw [block, unknown]

theorem askSlots_of_ok {α : Type} (question : SlotTable JvmType → Except ScopeError α) {answer : α}
    (answered : question draft.slots = .ok answer) :
    askSlots question draft = .ok answer draft := by
  rw [askSlots, onSlots, answered]
  rfl

theorem askSlots_of_error {α : Type} (question : SlotTable JvmType → Except ScopeError α)
    {cause : ScopeError} (refused : question draft.slots = .error cause) :
    askSlots question draft = .error (.scope cause) draft := by
  rw [askSlots, onSlots, refused]
  rfl

theorem usableBlock_of_usable {id : BlockId} {home : Block}
    (found : draft.blocks[id.index]? = some home)
    (usable : draft.slots.scopes.requireUsable home.slotScope = .ok ()) :
    usableBlock id draft = .ok home draft := by
  have asked := askSlots_of_ok (fun slots => slots.scopes.requireUsable home.slotScope) usable
  rw [usableBlock, bind_of_ok (block_of_some found), bind_of_ok asked]
  rfl

theorem usableBlock_of_unusable {id : BlockId} {home : Block} {cause : ScopeError}
    (found : draft.blocks[id.index]? = some home)
    (unusable : draft.slots.scopes.requireUsable home.slotScope = .error cause) :
    usableBlock id draft = .error (.scope cause) draft := by
  have asked := askSlots_of_error (fun slots => slots.scopes.requireUsable home.slotScope) unusable
  rw [usableBlock, bind_of_ok (block_of_some found), bind_of_error asked]

theorem usableBlock_of_unknown {id : BlockId} (unknown : draft.blocks[id.index]? = none) :
    usableBlock id draft = .error (.unknownBlock id.index) draft := by
  rw [usableBlock, bind_of_error (block_of_none unknown)]

theorem usableBlock_cases (id : BlockId) (draft : MethodDraft) :
    (∃ home, draft.blocks[id.index]? = some home ∧
      draft.slots.scopes.requireUsable home.slotScope = .ok () ∧
      usableBlock id draft = .ok home draft) ∨
    (∃ cause, usableBlock id draft = .error cause draft) := by
  cases found : draft.blocks[id.index]? with
  | none => exact .inr ⟨_, usableBlock_of_unknown found⟩
  | some home =>
      cases check : draft.slots.scopes.requireUsable home.slotScope with
      | error cause => exact .inr ⟨_, usableBlock_of_unusable found check⟩
      | ok => exact .inl ⟨home, rfl, check, usableBlock_of_usable found check⟩

theorem isBlockClosed_of_some {id : BlockId} {home : Block}
    (found : draft.blocks[id.index]? = some home) :
    isBlockClosed id draft = .ok (draft.slots.scopes.isClosed home.slotScope) draft := by
  rw [isBlockClosed, bind_of_ok (block_of_some found)]
  rfl

theorem isBlockClosed_of_none {id : BlockId} (unknown : draft.blocks[id.index]? = none) :
    isBlockClosed id draft = .error (.unknownBlock id.index) draft := by
  rw [isBlockClosed, bind_of_error (block_of_none unknown)]

end MethodDraft

end JvmEmit
