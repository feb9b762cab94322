import JvmEmit.Proofs.Method.Programs
import Mathlib.Data.List.Induction
import Mathlib.Logic.Relation

/-!
# Runs of a method's draft

A run is a list of calls on a draft that a class has just handed out. Calls may fail, and may then
have changed something. The run keeps, beside the draft, the labels that its calls have made: these
and the labels in the code are the labels of the method's own.

`MethodDraft.Step` lists the changes that calls are made of. A single call may take several steps,
since declaring a variable under a fresh name first takes the name, and starting the body declares
the receiver and one parameter after another. What belongs together, such as entering the two scopes
of a block, is one step.
-/

namespace JvmEmit

/-- The calls on the draft of a method, apart from those that end it. -/
inductive MethodCall where
  | startBody
  | enterBlock (parent : BlockId) (label : Option String)
  | isBlockClosed (block : BlockId)
  | leaveBlock (block : BlockId)
  | addVariable (block : BlockId) (type : JvmType) (name : Option String)
  | addTemporary (block : BlockId) (type : JvmType) (hint : Option String)
  | issueName (block : BlockId) (hint : Option String)
  | takeName (block : BlockId) (name : String)
  | visibleVariable (block : BlockId) (name : String)
  | createLabel (block : BlockId) (hint : Option String)
  | bindLabel (block : BlockId) (label : Label)
  | append (block : BlockId) (instruction : Instruction)
deriving DecidableEq

namespace MethodCall

/-- The draft after a call, whether the call succeeds or fails. -/
def after (call : MethodCall) (draft : MethodDraft) : MethodDraft :=
  match call with
  | .startBody => Outcome.state (MethodDraft.startBody draft)
  | .enterBlock parent label => Outcome.state (MethodDraft.enterBlock parent label draft)
  | .isBlockClosed block => Outcome.state (MethodDraft.isBlockClosed block draft)
  | .leaveBlock block => Outcome.state (MethodDraft.leaveBlock block draft)
  | .addVariable block type name =>
      Outcome.state (MethodDraft.addVariable block type name draft)
  | .addTemporary block type hint =>
      Outcome.state (MethodDraft.addTemporary block type hint draft)
  | .issueName block hint => Outcome.state (MethodDraft.issueName block hint draft)
  | .takeName block name => Outcome.state (MethodDraft.takeName block name draft)
  | .visibleVariable block name => Outcome.state (MethodDraft.visibleVariable block name draft)
  | .createLabel block hint => Outcome.state (MethodDraft.createLabel block hint draft)
  | .bindLabel block label => Outcome.state (MethodDraft.bindLabel block label draft)
  | .append block instruction => Outcome.state (MethodDraft.append block instruction draft)

/-- The label that a call makes, if it is a call for a label and succeeds. -/
def made? (call : MethodCall) (draft : MethodDraft) : Option Label :=
  match call with
  | .createLabel block hint =>
      match MethodDraft.createLabel block hint draft with
      | .ok label _ => some label
      | .error .. => none
  | _ => none

/-- The label that a call passes to the draft. -/
def passed? : MethodCall → Option Label
  | .bindLabel _ label => some label
  | .append _ instruction => instruction.label?
  | _ => none

end MethodCall

/-- A draft together with the labels that the calls on it have made. -/
structure MethodRun where
  draft : MethodDraft
  labels : List Label

namespace MethodRun

/-- The run with one more call. -/
def record (run : MethodRun) (call : MethodCall) : MethodRun where
  draft := call.after run.draft
  labels := (call.made? run.draft).toList ++ run.labels

/-- The run of a row of calls on a draft, with no labels made before. -/
def ofCalls (draft : MethodDraft) (calls : List MethodCall) : MethodRun :=
  calls.foldl record ⟨draft, []⟩

theorem ofCalls_append (draft : MethodDraft) (calls : List MethodCall) (call : MethodCall) :
    ofCalls draft (calls ++ [call]) = (ofCalls draft calls).record call := by
  rw [ofCalls, List.foldl_append]
  rfl

/-- A label was made by a call of the run, or can be read from the code of the method. -/
def knows (run : MethodRun) (label : Label) : Bool :=
  run.labels.contains label ||
    run.draft.code.any fun instruction => instruction.label? == some label

/-- Every label that one of the calls passes is one that the run knows by then. -/
def passesOwnLabels : MethodRun → List MethodCall → Bool
  | _, [] => true
  | run, call :: rest => call.passed?.all run.knows && (run.record call).passesOwnLabels rest

end MethodRun

namespace MethodDraft

/-- The draft has just been handed out by a class, for a declared or for a synthetic method. -/
inductive IsNew : MethodDraft → Prop where
  | declared {owner left : ClassDraft} {signature : MethodSignature} {draft : MethodDraft}
      (started : ClassDraft.startMethod signature owner = .ok draft left) : IsNew draft
  | synthetic {owner left : ClassDraft} {hint : String} {modifiers : MethodModifiers}
      {parameters : List Parameter} {returnType : JvmType} {draft : MethodDraft}
      (started :
        ClassDraft.startSyntheticMethod hint modifiers parameters returnType owner =
          .ok draft left) : IsNew draft

/-- The draft of a method that is the first to be started in its class. -/
def ofSignature (header : ClassHeader) (signature : MethodSignature) : MethodDraft where
  owner := {
    ClassDraft.ofHeader header {} with
    names := Outcome.state (((ClassDraft.ofHeader header {}).names.afterReserve .root
      signature.name).enter .root (some signature.name)) }
  signature
  nameScope := ⟨1⟩
  slots := .ofRoot (some signature.name)
  blocks := #[]
  body := none
  bound := #[]
  code := #[]
  declared := #[]

theorem isNew_ofSignature (header : ClassHeader) (signature : MethodSignature) :
    (ofSignature header signature).IsNew :=
  .declared (show ClassDraft.startMethod signature (.ofHeader header {}) = .ok _ _ from rfl)

/-- Calls can lead to the draft from one that a class has handed out. -/
def IsReachable (draft : MethodDraft) : Prop :=
  ∃ (handedOut : MethodDraft) (calls : List MethodCall),
    handedOut.IsNew ∧ (MethodRun.ofCalls handedOut calls).draft = draft

theorem IsNew.isReachable {draft : MethodDraft} (isNew : draft.IsNew) : draft.IsReachable :=
  ⟨draft, [], isNew, rfl⟩

theorem IsReachable.after {draft : MethodDraft} (reachable : draft.IsReachable)
    (call : MethodCall) : (call.after draft).IsReachable := by
  rcases reachable with ⟨handedOut, calls, isNew, rfl⟩
  exact ⟨handedOut, calls ++ [call], isNew, by rw [MethodRun.ofCalls_append]; rfl⟩

/-- A new draft has entered a scope for its names, and has nothing else yet. -/
theorem IsNew.entered {draft : MethodDraft} (isNew : draft.IsNew) :
    ∃ (owner : ClassDraft) (signature : MethodSignature) (nameScope : ScopeId)
      (scopes : NestedScopes NameFrame),
      owner.names.scopes.enter .root (some signature.name) .empty = .ok nameScope scopes ∧
        draft = {
          owner := { owner with names := ⟨scopes⟩ }
          signature
          nameScope
          slots := .ofRoot (some signature.name)
          blocks := #[]
          body := none
          bound := #[]
          code := #[]
          declared := #[] } := by
  have drafted : ∃ (owner left : ClassDraft) (signature : MethodSignature),
      ClassDraft.draftMethod signature owner = .ok draft left := by
    cases isNew with
    | declared started =>
        rcases bind_eq_ok started with ⟨_, owner, _, drafted⟩
        exact ⟨owner, _, _, drafted⟩
    | synthetic started =>
        rcases bind_eq_ok started with ⟨_, owner, _, drafted⟩
        exact ⟨owner, _, _, drafted⟩
  rcases drafted with ⟨owner, left, signature, drafted⟩
  rcases bind_eq_ok drafted with ⟨nameScope, middle, entering, returned⟩
  refine ⟨owner, signature, nameScope, middle.names.scopes, ?_⟩
  rcases owner.names.scopes.enter_cases .root (some signature.name) NameFrame.empty with
    ⟨_, scopes, entered⟩ | ⟨cause, _, refused⟩
  · rw [ClassDraft.onNames, NameSupply.enter, entered] at entering
    cases entering
    cases returned
    exact ⟨entered, rfl⟩
  · rw [ClassDraft.onNames, NameSupply.enter, refused] at entering
    cases entering

theorem IsNew.body_eq {draft : MethodDraft} (isNew : draft.IsNew) : draft.body = none := by
  rcases isNew.entered with ⟨owner, signature, nameScope, scopes, entered, rfl⟩
  rfl

/-! ## What calls are made of -/

/--
The changes that calls on a draft are made of. The labels that are given a position or referred to
are the permitted ones, which may depend on the draft.
-/
inductive Step (permitted : MethodDraft → Label → Prop) : MethodDraft → MethodDraft → Prop where
  | issueName {draft : MethodDraft} {home : Block} (entered : home ∈ draft.blocks)
      (usable : draft.owner.names.scopes.requireUsable home.nameScope = .ok ())
      (hint : Option String) :
      Step permitted draft (draft.withNames (draft.owner.names.afterFresh home.nameScope hint))
  | takeName {draft : MethodDraft} {home : Block} (entered : home ∈ draft.blocks)
      (usable : draft.owner.names.scopes.requireUsable home.nameScope = .ok ()) (name : String) :
      Step permitted draft (draft.withNames (draft.owner.names.afterReserve home.nameScope name))
  | createLabel {draft : MethodDraft} {home : Block} (entered : home ∈ draft.blocks)
      (usable : draft.owner.names.scopes.requireUsable home.nameScope = .ok ())
      (hint : Option String) :
      Step permitted draft (draft.withLabel home.nameScope hint)
  | startBody {draft : MethodDraft} (unstarted : draft.body = none)
      (usable : draft.owner.names.scopes.requireUsable draft.nameScope = .ok ()) :
      Step permitted draft draft.withBody
  | enterBlock {draft : MethodDraft} {outer : Block} {label : Option String}
      {slotScope nameScope : ScopeId} {slotScopes : NestedScopes (VariableFrame JvmType)}
      {nameScopes : NestedScopes NameFrame} (entered : outer ∈ draft.blocks)
      (usable : draft.slots.scopes.requireUsable outer.slotScope = .ok ())
      (slotsEntered : draft.slots.scopes.enter outer.slotScope label
        (draft.slots.innerFrame outer.slotScope) = .ok slotScope slotScopes)
      (namesEntered : (draft.withEnds outer.nameScope).owner.names.scopes.enter outer.nameScope
        label .empty = .ok nameScope nameScopes) :
      Step permitted draft
        (({ draft.withEnds outer.nameScope with
          slots := { draft.slots with scopes := slotScopes } }.withNames ⟨nameScopes⟩).beginning {
            slotScope
            nameScope
            start := draft.nextLabel outer.nameScope (some "start")
            stop := draft.nextStop outer.nameScope })
  | leaveBlock {draft : MethodDraft} {closing : Block} (entered : closing ∈ draft.blocks)
      (usable : draft.slots.scopes.requireUsable closing.slotScope = .ok ()) :
      Step permitted draft {
        (draft.marking closing.stop).withNames
          ⟨draft.owner.names.scopes.closedAt closing.nameScope⟩ with
        slots := { draft.slots with scopes := draft.slots.scopes.closedAt closing.slotScope } }
  | declare {draft : MethodDraft} {id : BlockId} {home : Block} {role : VariableRole}
      {name : Option String} (found : draft.blocks[id.index]? = some home)
      (accepted : draft.slots.requireDeclarable home.slotScope role name = .ok ())
      (unnamed : role = .receiver → name = none) (type : JvmType) :
      Step permitted draft (draft.declaring id home role type name)
  | bindLabel {draft : MethodDraft} {home : Block} {label : Label} (entered : home ∈ draft.blocks)
      (usable : draft.slots.scopes.requireUsable home.slotScope = .ok ())
      (unbound : draft.isBound label = false) (allowed : permitted draft label) :
      Step permitted draft (draft.marking label)
  | append {draft : MethodDraft} {home : Block} {instruction : Instruction}
      (entered : home ∈ draft.blocks)
      (usable : draft.slots.scopes.requireUsable home.slotScope = .ok ())
      (noMark : ∀ label, instruction ≠ .mark label)
      (allowed : ∀ label, instruction.label? = some label → permitted draft label) :
      Step permitted draft { draft with code := draft.code.push instruction }

/-- One draft has what a method under construction keeps of another one. -/
structure Retains (draft after : MethodDraft) : Prop where
  owner : after.owner = { draft.owner with names := after.owner.names }
  signature : after.signature = draft.signature
  nameScope : after.nameScope = draft.nameScope
  blocks : ∀ home ∈ draft.blocks, home ∈ after.blocks

namespace Retains

theorem refl (draft : MethodDraft) : draft.Retains draft :=
  ⟨rfl, rfl, rfl, fun _ => id⟩

theorem trans {draft middle after : MethodDraft} (first : draft.Retains middle)
    (second : middle.Retains after) : draft.Retains after := by
  refine ⟨?_, second.signature.trans first.signature, second.nameScope.trans first.nameScope,
    fun home entered => second.blocks home (first.blocks home entered)⟩
  have owner := second.owner
  rw [first.owner] at owner
  exact owner

end Retains

/-- A step changes nothing of the class but the names, and a block stays as it was entered. -/
theorem Step.retains {permitted : MethodDraft → Label → Prop} {draft after : MethodDraft}
    (step : Step permitted draft after) : draft.Retains after := by
  have kept : ∀ home ∈ draft.blocks, home ∈ draft.blocks := fun _ => id
  have pushed : ∀ entered, ∀ home ∈ draft.blocks, home ∈ draft.blocks.push entered :=
    fun _ _ older => Array.mem_push_of_mem _ older
  cases step with
  | issueName entered usable hint => exact ⟨rfl, rfl, rfl, kept⟩
  | takeName entered usable name => exact ⟨rfl, rfl, rfl, kept⟩
  | createLabel entered usable hint => exact ⟨rfl, rfl, rfl, kept⟩
  | startBody unstarted usable => exact ⟨rfl, rfl, rfl, pushed _⟩
  | enterBlock entered usable slotsEntered namesEntered => exact ⟨rfl, rfl, rfl, pushed _⟩
  | leaveBlock entered usable => exact ⟨rfl, rfl, rfl, kept⟩
  | declare found accepted unnamed type => exact ⟨rfl, rfl, rfl, kept⟩
  | bindLabel entered usable unbound allowed => exact ⟨rfl, rfl, rfl, kept⟩
  | append entered usable noMark allowed => exact ⟨rfl, rfl, rfl, kept⟩

/-- Steps of which each begins where the one before it ends. -/
abbrev Path (permitted : MethodDraft → Label → Prop) : MethodDraft → MethodDraft → Prop :=
  Relation.ReflTransGen (Step permitted)

/-- What every step keeps is kept by a path. -/
theorem Path.keeps {permitted : MethodDraft → Label → Prop} (invariant : MethodDraft → Prop)
    (kept : ∀ {draft after : MethodDraft}, Step permitted draft after → invariant draft →
      invariant after)
    {draft after : MethodDraft} (path : Path permitted draft after) (holds : invariant draft) :
    invariant after := by
  induction path with
  | refl => exact holds
  | tail _ step ih => exact kept step ih

theorem Path.retains {permitted : MethodDraft → Label → Prop} {draft after : MethodDraft}
    (path : Path permitted draft after) : draft.Retains after := by
  induction path with
  | refl => exact .refl draft
  | tail _ step ih => exact ih.trans step.retains

end MethodDraft

end JvmEmit
