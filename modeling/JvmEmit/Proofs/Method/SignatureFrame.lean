import JvmEmit.Proofs.Method.Completion
import JvmEmit.Proofs.Method.OpenBlocks
import JvmEmit.Proofs.Method.Parameters

/-!
# The frame that a signature asks for

A method's frame begins with the receiver, if there is one, and the parameters, side by side. They are
declared when the body is started, and everything declared later is a local variable behind them. So
what was declared when the body was started is what the finished method has of its signature, also
when the body was started with an error and the calls went on.

A method can be finished after such an error, since only the end of its body is asked for. It then
lacks the parameters from the first one on whose name an earlier one has.
-/

namespace JvmEmit

namespace Parameter

/-- The slots that parameters take up together. -/
def slotsOf : List Parameter → Nat
  | [] => 0
  | parameter :: rest => Slotted.slotCount parameter.type + slotsOf rest

/-- The arguments that parameters become, side by side from a slot on. -/
def argumentsFrom : (slot : Nat) → List Parameter → List (Variable JvmType)
  | _, [] => []
  | slot, parameter :: rest =>
      { name := parameter.name, type := parameter.type, scope := .root, slot, role := .argument } ::
        argumentsFrom (slot + Slotted.slotCount parameter.type) rest

end Parameter

namespace MethodSignature

/-- The slots of the receiver, in front of those of the parameters. -/
def receiverSlots (signature : MethodSignature) : Nat :=
  if signature.isInstance then 1 else 0

/-- The parameters that a body declares, which end before the first clash of names. -/
def declaredParameters (signature : MethodSignature) : List Parameter :=
  Parameter.beforeClash [] signature.parameters

/-- The receiver of a method of a class, as a row that is empty for a static method. -/
def receivers (signature : MethodSignature) (owner : ClassName) : List (Variable JvmType) :=
  if signature.isInstance then
    [{ name := none, type := .reference owner, scope := .root, slot := 0, role := .receiver }]
  else []

/-- The variables that a body declares when it is started. -/
def frame (signature : MethodSignature) (owner : ClassName) : List (Variable JvmType) :=
  signature.receivers owner ++
    Parameter.argumentsFrom signature.receiverSlots signature.declaredParameters

end MethodSignature

/-- The debugger's entry of a variable of a block, provided that the variable has a name. -/
def Block.entryOf? (home : Block) (declared : Variable JvmType) : Option LocalVariableEntry :=
  declared.name.map fun name =>
    { name, type := declared.type, start := home.start, stop := home.stop, slot := declared.slot }

namespace MethodDraft

variable {draft : MethodDraft} {id : BlockId} {home : Block}

/-! ## What starting the body declares -/

theorem body_withParameters (parameters : List Parameter) :
    (draft.withParameters id home parameters).body = draft.body := by
  induction parameters generalizing draft with
  | nil => rfl
  | cons parameter parameters ih => exact ih

theorem known_declaring (known : 0 < draft.slots.scopes.size) (id : BlockId) (home : Block)
    (role : VariableRole) (type : JvmType) (name : Option String) :
    0 < (draft.declaring id home role type name).slots.scopes.size :=
  Nat.lt_of_lt_of_eq known (NestedScopes.size_modifyPayload _ _ _).symm

theorem nextSlot_declaring (outermost : home.slotScope = .root)
    (known : 0 < draft.slots.scopes.size) (role : VariableRole) (type : JvmType)
    (name : Option String) :
    (draft.declaring id home role type name).slots.nextSlot .root =
      draft.slots.nextSlot .root + Slotted.slotCount type := by
  rw [declaring, outermost]
  exact SlotTable.nextSlot_adding known _ _ _

theorem nextSlot_withParameters (outermost : home.slotScope = .root)
    (known : 0 < draft.slots.scopes.size) (parameters : List Parameter) :
    (draft.withParameters id home parameters).slots.nextSlot .root =
      draft.slots.nextSlot .root + Parameter.slotsOf parameters := by
  induction parameters generalizing draft with
  | nil => rfl
  | cons parameter parameters ih =>
      have rest := ih (known_declaring known id home .argument parameter.type parameter.name)
      rw [nextSlot_declaring outermost known, Nat.add_assoc] at rest
      exact rest

theorem declared_withParameters (outermost : home.slotScope = .root)
    (known : 0 < draft.slots.scopes.size) (parameters : List Parameter) :
    (draft.withParameters id home parameters).declared.toList =
      draft.declared.toList ++
        (Parameter.argumentsFrom (draft.slots.nextSlot .root) parameters).map (Prod.mk id) := by
  induction parameters generalizing draft with
  | nil => exact (List.append_nil _).symm
  | cons parameter parameters ih =>
      have rest := ih (known_declaring known id home .argument parameter.type parameter.name)
      rw [nextSlot_declaring outermost known] at rest
      refine rest.trans ?_
      simp [declaring, outermost, Parameter.argumentsFrom, SlotTable.nextVariable]

theorem body_withReceiver : (draft.withReceiver id home).body = draft.body := by
  rw [withReceiver]
  cases draft.signature.isInstance <;> rfl

theorem known_withReceiver (known : 0 < draft.slots.scopes.size) (id : BlockId) (home : Block) :
    0 < (draft.withReceiver id home).slots.scopes.size := by
  rw [withReceiver]
  cases draft.signature.isInstance with
  | false => exact known
  | true => exact known_declaring known id home _ _ _

/-- The receiver takes one slot. -/
theorem nextSlot_withReceiver (outermost : home.slotScope = .root)
    (known : 0 < draft.slots.scopes.size) (atStart : draft.slots.nextSlot .root = 0) :
    (draft.withReceiver id home).slots.nextSlot .root = draft.signature.receiverSlots := by
  rw [withReceiver, MethodSignature.receiverSlots]
  cases draft.signature.isInstance with
  | false => exact atStart
  | true => exact (nextSlot_declaring outermost known _ _ _).trans (congrArg (· + 1) atStart)

theorem declared_withReceiver (outermost : home.slotScope = .root)
    (atStart : draft.slots.nextSlot .root = 0) :
    (draft.withReceiver id home).declared.toList =
      draft.declared.toList ++
        (draft.signature.receivers draft.owner.header.name).map (Prod.mk id) := by
  rw [withReceiver, MethodSignature.receivers]
  cases draft.signature.isInstance with
  | false => exact (List.append_nil _).symm
  | true => simp [declaring, outermost, SlotTable.nextVariable, atStart]

/-- The frame that the body is given when it is started, be it with an error. -/
theorem frame_of_startBody (wellSlotted : draft.WellSlotted) (unstarted : draft.body = none) :
    (Outcome.state (startBody draft)).body = some ⟨draft.blocks.size⟩ ∧
      (Outcome.state (startBody draft)).slots.nextSlot .root =
        draft.signature.receiverSlots + Parameter.slotsOf draft.signature.declaredParameters ∧
      (Outcome.state (startBody draft)).declared.toList =
        (draft.signature.frame draft.owner.header.name).map (Prod.mk ⟨draft.blocks.size⟩) := by
  have lockstep := wellSlotted.lockstep
  have noneDeclared : draft.withBody.declared.toList = [] :=
    wellSlotted.recorded.declared_of_unstarted lockstep unstarted
  have known : 0 < draft.withBody.slots.scopes.size := lockstep.slotScopes_nonempty
  have slots : draft.withBody.slots = .ofRoot (some draft.signature.name) :=
    (lockstep.unstarted unstarted).2
  have atStart : draft.withBody.slots.nextSlot .root = 0 := by
    rw [slots]
    rfl
  rcases state_startBody lockstep unstarted with ⟨home, outermost, state⟩
  have knownNext := known_withReceiver known ⟨draft.blocks.size⟩ home
  rw [state]
  refine ⟨?_, ?_, ?_⟩
  · rw [body_withParameters, body_withReceiver]
    rfl
  · rw [nextSlot_withParameters outermost knownNext, nextSlot_withReceiver outermost known atStart]
    rfl
  · rw [declared_withParameters outermost knownNext, declared_withReceiver outermost atStart,
      nextSlot_withReceiver outermost known atStart, noneDeclared, List.nil_append,
      ← List.map_append]
    rfl

/-! ## What later calls declare -/

end MethodDraft

namespace MethodCall

/-- The variable that a call answers, if it succeeds, as the one that it has declared in a block. -/
def declaredIn (block : BlockId) (outcome : Outcome DraftError MethodDraft (Variable JvmType)) :
    List (BlockId × Variable JvmType) :=
  ((Outcome.toExcept outcome).toOption.map (Prod.mk block)).toList

/-- The variables that a call declares, each with its block. -/
def declarations (call : MethodCall) (draft : MethodDraft) : List (BlockId × Variable JvmType) :=
  match call with
  | .startBody =>
      if draft.body.isSome then []
      else (draft.signature.frame draft.owner.header.name).map (Prod.mk ⟨0⟩)
  | .addVariable block type name =>
      declaredIn block (MethodDraft.addVariable block type name draft)
  | .addTemporary block type hint =>
      declaredIn block (MethodDraft.addTemporary block type hint draft)
  | _ => []

end MethodCall

namespace MethodDraft

variable {draft : MethodDraft} {id : BlockId} {home : Block}

/-- One draft has what another one has declared and, behind it, some local variables. -/
structure AddsLocals (draft : MethodDraft) (added : List (BlockId × Variable JvmType))
    (after : MethodDraft) : Prop where
  body : after.body = draft.body
  declared : after.declared.toList = draft.declared.toList ++ added
  areLocal : ∀ newest ∈ added, newest.2.role = .localVariable
  maxLocals : draft.maxLocals ≤ after.maxLocals

namespace AddsLocals

variable {middle after : MethodDraft} {front back : List (BlockId × Variable JvmType)}

theorem unchanged (body : after.body = draft.body) (declared : after.declared = draft.declared)
    (maxLocals : after.maxLocals = draft.maxLocals) : draft.AddsLocals [] after := by
  refine ⟨body, ?_, ?_, Nat.le_of_eq maxLocals.symm⟩
  · rw [declared, List.append_nil]
  · intro newest member
    cases member

theorem refl (draft : MethodDraft) : draft.AddsLocals [] draft :=
  unchanged rfl rfl rfl

theorem trans (first : draft.AddsLocals front middle) (second : middle.AddsLocals back after) :
    draft.AddsLocals (front ++ back) after := by
  refine ⟨second.body.trans first.body, ?_, ?_, Nat.le_trans first.maxLocals second.maxLocals⟩
  · rw [second.declared, first.declared, List.append_assoc]
  · exact List.forall_mem_append.mpr ⟨first.areLocal, second.areLocal⟩

theorem declare (draft : MethodDraft) (id : BlockId) (home : Block) (type : JvmType)
    (name : Option String) :
    draft.AddsLocals [(id, draft.slots.nextVariable home.slotScope .localVariable type name)]
      (draft.declaring id home .localVariable type name) := by
  refine ⟨rfl, Array.toList_push, ?_, Nat.le_max_left _ _⟩
  intro newest member
  rw [List.mem_singleton.mp member]
  rfl

theorem of_refused {α : Type} {program : MethodM α} {cause : DraftError}
    (refused : program draft = .error cause draft) :
    draft.AddsLocals [] (Outcome.state (program draft)) := by
  rw [refused]
  exact .refl draft

theorem addVariable (lockstep : draft.Lockstep) (id : BlockId) (type : JvmType)
    (name : Option String) :
    draft.AddsLocals (MethodCall.declaredIn id (MethodDraft.addVariable id type name draft))
      (Outcome.state (MethodDraft.addVariable id type name draft)) := by
  rcases addVariable_cases lockstep id type name with ⟨home, _, _, result⟩ | ⟨cause, refused⟩
  · rw [result]
    exact .declare draft id home type name
  · rw [refused]
    exact .refl draft

theorem issueName (draft : MethodDraft) (id : BlockId) (hint : Option String) :
    draft.AddsLocals [] (Outcome.state (MethodDraft.issueName id hint draft)) := by
  rcases issueName_cases draft id hint with ⟨home, _, _, result⟩ | ⟨cause, refused⟩
  · rw [result]
    exact .unchanged rfl rfl rfl
  · exact .of_refused refused

theorem addTemporary (lockstep : draft.Lockstep) (id : BlockId) (type : JvmType)
    (hint : Option String) :
    draft.AddsLocals (MethodCall.declaredIn id (MethodDraft.addTemporary id type hint draft))
      (Outcome.state (MethodDraft.addTemporary id type hint draft)) := by
  rcases addTemporary_split lockstep id type hint with
    ⟨name, named, issued, lockstepThere, result⟩ | ⟨cause, refused⟩
  · have first := AddsLocals.issueName draft id hint
    rw [issued] at first
    rw [result]
    exact first.trans (.addVariable lockstepThere id type _)
  · rw [refused]
    exact .refl draft

theorem bindLabel (draft : MethodDraft) (id : BlockId) (label : Label) :
    draft.AddsLocals [] (Outcome.state (MethodDraft.bindLabel id label draft)) := by
  rcases bindLabel_cases draft id label with ⟨home, _, _, _, result⟩ | ⟨cause, refused⟩
  · rw [result]
    exact .unchanged rfl rfl rfl
  · exact .of_refused refused

/-- Only starting the body declares anything else than local variables. -/
theorem ofCall (lockstep : draft.Lockstep) {call : MethodCall}
    (started : call = .startBody → draft.body ≠ none) :
    draft.AddsLocals (call.declarations draft) (call.after draft) := by
  cases call with
  | startBody =>
      rcases Option.ne_none_iff_exists'.mp (started rfl) with ⟨body, known⟩
      rw [MethodCall.declarations, if_pos (by simp [known])]
      exact .of_refused (startBody_of_started known)
  | enterBlock parent label =>
      rcases usableBlock_cases parent draft with ⟨outer, found, usable, _⟩ | ⟨cause, refused⟩
      · rcases enterBlock_of_usable lockstep found usable label with ⟨_, _, _, _, _, _, result⟩
        rw [MethodCall.after, result]
        exact .unchanged rfl rfl rfl
      · exact .of_refused (enterBlock_of_refused refused label)
  | isBlockClosed id =>
      rw [MethodCall.after, state_isBlockClosed]
      exact .refl draft
  | leaveBlock id =>
      rcases leaveBlock_cases lockstep id with ⟨closing, _, _, result⟩ | same | ⟨cause, refused⟩
      · rw [MethodCall.after, result]
        exact .unchanged rfl rfl rfl
      · rw [MethodCall.after, same]
        exact .refl draft
      · exact .of_refused refused
  | addVariable id type name => exact .addVariable lockstep id type name
  | addTemporary id type hint => exact .addTemporary lockstep id type hint
  | issueName id hint => exact .issueName draft id hint
  | takeName id name =>
      rcases takeName_cases draft id name with ⟨home, _, _, result⟩ | ⟨cause, refused⟩
      · rw [MethodCall.after, result]
        exact .unchanged rfl rfl rfl
      · exact .of_refused refused
  | visibleVariable id name =>
      rw [MethodCall.after, state_visibleVariable]
      exact .refl draft
  | createLabel id hint =>
      rcases createLabel_cases draft id hint with ⟨home, _, _, result⟩ | ⟨cause, refused⟩
      · rw [MethodCall.after, result]
        exact .unchanged rfl rfl rfl
      · exact .of_refused refused
  | bindLabel id label => exact .bindLabel draft id label
  | append id instruction =>
      rcases append_cases draft id instruction with
        ⟨label, _, same⟩ | ⟨home, _, _, _, result⟩ | ⟨cause, refused⟩
      · rw [MethodCall.after, same]
        exact .bindLabel draft id label
      · rw [MethodCall.after, result]
        exact .unchanged rfl rfl rfl
      · exact .of_refused refused

end AddsLocals

/-! ## The frame along a run -/

/-- Once the body was started, the draft has the frame of its signature, and local variables. -/
structure Framed (draft : MethodDraft) : Prop where
  wellSlotted : draft.WellSlotted
  room : draft.body ≠ none →
    draft.signature.receiverSlots + Parameter.slotsOf draft.signature.declaredParameters ≤
      draft.maxLocals
  declared : draft.body ≠ none → ∃ locals : List (BlockId × Variable JvmType),
    draft.declared.toList =
      (draft.signature.frame draft.owner.header.name).map (Prod.mk ⟨0⟩) ++ locals ∧
    ∀ added ∈ locals, added.2.role = .localVariable

namespace Framed

theorem ofIsNew (isNew : draft.IsNew) : draft.Framed :=
  ⟨.ofIsNew isNew, absurd isNew.body_eq, absurd isNew.body_eq⟩

theorem wellSlotted_after (framed : draft.Framed) (call : MethodCall) :
    (call.after draft).WellSlotted := by
  have path : Path (fun _ _ => True) draft (call.after draft) :=
    path_after framed.wellSlotted.lockstep call fun _ _ => trivial
  exact path.keeps WellSlotted WellSlotted.step framed.wellSlotted

theorem startBody (framed : draft.Framed) (unstarted : draft.body = none) :
    (MethodCall.startBody.after draft).Framed := by
  have retains := retains_after framed.wellSlotted.lockstep .startBody
  have wellSlotted := framed.wellSlotted_after .startBody
  rcases frame_of_startBody framed.wellSlotted unstarted with ⟨body, nextSlot, declared⟩
  refine ⟨wellSlotted, fun _ => ?_, fun _ => ⟨[], ?_, by simp⟩⟩
  · rw [retains.signature, ← nextSlot]
    exact wellSlotted.hasRoom .root
  · rw [retains.signature, retains.owner, List.append_nil,
      ← (wellSlotted.lockstep.started body).1]
    exact declared

theorem addsLocals (framed : draft.Framed) {call : MethodCall}
    {newer : List (BlockId × Variable JvmType)}
    (added : draft.AddsLocals newer (call.after draft)) : (call.after draft).Framed := by
  have retains := retains_after framed.wellSlotted.lockstep call
  refine ⟨framed.wellSlotted_after call, ?_, ?_⟩
  · rw [added.body, retains.signature]
    intro started
    exact Nat.le_trans (framed.room started) added.maxLocals
  · rw [added.body, retains.signature, retains.owner]
    intro started
    rcases framed.declared started with ⟨locals, declared, areLocal⟩
    refine ⟨locals ++ newer, ?_, List.forall_mem_append.mpr ⟨areLocal, added.areLocal⟩⟩
    rw [added.declared, declared, List.append_assoc]

theorem after (framed : draft.Framed) (call : MethodCall) : (call.after draft).Framed := by
  -- the frame is declared by the first call that starts the body, and by no other
  by_cases starts : call = .startBody ∧ draft.body = none
  · rw [starts.1]
    exact framed.startBody starts.2
  · apply framed.addsLocals
    apply AddsLocals.ofCall framed.wellSlotted.lockstep
    intro isStart unstarted
    exact starts ⟨isStart, unstarted⟩

theorem ofCalls (isNew : draft.IsNew) (calls : List MethodCall) :
    (MethodRun.ofCalls draft calls).draft.Framed := by
  induction calls using List.reverseRecOn with
  | nil => exact .ofIsNew isNew
  | append_singleton calls call ih =>
      rw [MethodRun.ofCalls_append]
      exact ih.after call

/-- A body stays started, and a call to start it leaves it started whatever it answers. -/
theorem started_of_mem (isNew : draft.IsNew) {calls : List MethodCall}
    (begun : .startBody ∈ calls) : (MethodRun.ofCalls draft calls).draft.body ≠ none := by
  induction calls using List.reverseRecOn with
  | nil => cases begun
  | append_singleton calls call ih =>
      have framed := Framed.ofCalls isNew calls
      rw [MethodRun.ofCalls_append, MethodRun.record]
      by_cases unstarted : (MethodRun.ofCalls draft calls).draft.body = none
      · have isLast : call = .startBody := by
          rcases List.mem_append.mp begun with earlier | last
          · exact absurd unstarted (ih earlier)
          · exact (List.mem_singleton.mp last).symm
        have starts := (frame_of_startBody framed.wellSlotted unstarted).1
        rw [isLast]
        exact Option.ne_none_iff_exists'.mpr ⟨_, starts⟩
      · have added : AddsLocals _ _ (call.after (MethodRun.ofCalls draft calls).draft) :=
          .ofCall framed.wellSlotted.lockstep fun _ => unstarted
        rw [added.body]
        exact unstarted

end Framed

/-! ## Finished methods -/

theorem entry?_of_found (found : draft.blocks[id.index]? = some home)
    (declared : Variable JvmType) : draft.entry? id declared = home.entryOf? declared := by
  unfold entry?
  rw [found, Block.entryOf?]
  cases declared.name <;> rfl

/-- The receiver has no name, so the entries begin with those of the parameters. -/
theorem filterMap_frame (home : Block) (signature : MethodSignature) (owner : ClassName) :
    (signature.frame owner).filterMap home.entryOf? =
      (Parameter.argumentsFrom signature.receiverSlots signature.declaredParameters).filterMap
        home.entryOf? := by
  rw [MethodSignature.frame, List.filterMap_append, MethodSignature.receivers]
  cases signature.isInstance <;> rfl

/--
In every run that has started the body, with an error or without, and whose method is completed, the
finished method has room for the receiver and the parameters before the first clash of names. These
were declared, one behind the other, and nothing else but local variables behind them, and the
debugger's entries agree. These are all parameters of the signature if their names are different, and
only then.
-/
theorem completed_method_has_parameters_before_clash {handedOut : MethodDraft}
    {calls : List MethodCall} {left : ClassDraft} (isNew : handedOut.IsNew)
    (begun : .startBody ∈ calls)
    (completed : (MethodRun.ofCalls handedOut calls).draft.complete = .ok () left) :
    let draft := (MethodRun.ofCalls handedOut calls).draft
    let signature := handedOut.signature
    (signature.declaredParameters = signature.parameters ↔
      (signature.parameters.filterMap Parameter.name).Nodup) ∧
    ∃ method home locals,
      left.methods = handedOut.owner.methods ++ [method] ∧ method.signature = signature ∧
      signature.receiverSlots + Parameter.slotsOf signature.declaredParameters ≤
        method.maxLocals ∧
      draft.blocks[0]? = some home ∧
      draft.declared.toList =
        (signature.frame handedOut.owner.header.name).map (Prod.mk ⟨0⟩) ++ locals ∧
      (∀ added ∈ locals, added.2.role = .localVariable) ∧
      (handedOut.owner.options.localVariableTable = true →
        method.localVariables =
          (Parameter.argumentsFrom signature.receiverSlots signature.declaredParameters).filterMap
            home.entryOf? ++ locals.filterMap fun (id, declared) => draft.entry? id declared) := by
  intro draft signature
  refine ⟨Parameter.beforeClash_eq_self_iff List.nodup_nil, ?_⟩
  have framed : draft.Framed := .ofCalls isNew calls
  have lockstep := framed.wellSlotted.lockstep
  have started : draft.body ≠ none := Framed.started_of_mem isNew begun
  have retains : handedOut.Retains draft := (path_ofCalls (.ofIsNew isNew) calls).retains
  have finished := closed_of_complete lockstep completed
  have room := framed.room started
  rcases framed.declared started with ⟨locals, declared, areLocal⟩
  rcases Option.ne_none_iff_exists'.mp started with ⟨body, isBody⟩
  rcases lockstep.body_found isBody with ⟨home, found, _⟩
  rw [(lockstep.started isBody).1] at found
  rw [retains.signature] at room
  rw [retains.signature, retains.owner] at declared
  refine ⟨draft.finished, home, locals, ?_, retains.signature, room, found, declared, areLocal, ?_⟩
  · rw [finished.1, retains.owner]
  · intro listed
    have options : draft.owner.options = handedOut.owner.options := by rw [retains.owner]
    have inBody : draft.entry? ⟨0⟩ = home.entryOf? := funext (entry?_of_found found)
    rw [MethodDraft.finished, options, if_pos listed, entries, declared, List.filterMap_append,
      List.filterMap_map, ← filterMap_frame home signature handedOut.owner.header.name]
    exact congrArg (fun entryOf => (signature.frame _).filterMap entryOf ++ _) inBody

/-- An instance method with a wide parameter and one that has no name. -/
def instanceMethod : MethodDraft :=
  ofSignature { name := ⟨"", "A"⟩ } {
    name := "f"
    parameters := [⟨some "a", .long⟩, ⟨none, .int⟩, ⟨some "b", .int⟩] }

/-- A local variable is declared behind the parameters, and the body is left. -/
def frameCalls : List MethodCall :=
  [.startBody, .addVariable ⟨0⟩ .double (some "c"), .leaveBlock ⟨0⟩]

/-- The frame has room for the receiver and all parameters, of which two have entries. -/
theorem completed_method_has_parameters_of_different_names :
    instanceMethod.IsNew ∧ .startBody ∈ frameCalls ∧
      ∃ left method,
        (MethodRun.ofCalls instanceMethod frameCalls).draft.complete = .ok () left ∧
        left.methods = [method] ∧
        instanceMethod.signature.declaredParameters = instanceMethod.signature.parameters ∧
        1 + 4 ≤ method.maxLocals ∧
        method.localVariables.map (fun entry => (entry.name, entry.slot)) =
          [("a", 1), ("b", 4), ("c", 5)] := by
  have isNew : instanceMethod.IsNew := isNew_ofSignature _ _
  have begun : MethodCall.startBody ∈ frameCalls := by decide
  have completed : Outcome.toExcept (MethodRun.ofCalls instanceMethod frameCalls).draft.complete =
      .ok () := by
    decide +kernel
  have entries :
      (Outcome.state (MethodRun.ofCalls instanceMethod frameCalls).draft.complete).methods.map
        (fun method => method.localVariables.map fun entry => (entry.name, entry.slot)) =
      [[("a", 1), ("b", 4), ("c", 5)]] := by
    decide +kernel
  rcases completed_method_has_parameters_before_clash isNew begun
    (Outcome.eq_ok_of_toExcept completed) with ⟨distinct, method, _, _, methods, _, room, _⟩
  have onlyMethod : _ = [method] := methods
  rw [onlyMethod, List.map_singleton] at entries
  exact ⟨isNew, begun, _, method, Outcome.eq_ok_of_toExcept completed, onlyMethod,
    distinct.mpr (by decide), room, List.singleton_inj.mp entries⟩

/-- A static method two of whose parameters have one name, and a wide one behind them. -/
def clashingMethod : MethodDraft :=
  ofSignature { name := ⟨"", "A"⟩ } {
    name := "f"
    modifiers := .staticMethod
    parameters := [⟨some "a", .int⟩, ⟨some "a", .int⟩, ⟨some "b", .long⟩] }

/-- The body is left as if it had been started without an error. -/
def unheedingCalls : List MethodCall :=
  [.startBody, .leaveBlock ⟨0⟩]

/-- The finished method has all three parameters, but its frame only has room for the first one. -/
theorem parameters_behind_clash_are_lost :
    clashingMethod.IsNew ∧ .startBody ∈ unheedingCalls ∧
      ∃ left method,
        (MethodRun.ofCalls clashingMethod unheedingCalls).draft.complete = .ok () left ∧
        left.methods = [method] ∧ method.signature = clashingMethod.signature ∧
        clashingMethod.owner.options.localVariableTable = true ∧
        ¬ method.signature.receiverSlots + Parameter.slotsOf method.signature.parameters ≤
          method.maxLocals ∧
        ¬ ∃ entry ∈ method.localVariables, entry.name = "b" := by
  have completed :
      Outcome.toExcept (MethodRun.ofCalls clashingMethod unheedingCalls).draft.complete = .ok () := by
    decide +kernel
  refine ⟨isNew_ofSignature _ _, by decide, _,
    (MethodRun.ofCalls clashingMethod unheedingCalls).draft.finished,
    Outcome.eq_ok_of_toExcept completed, ?_, ?_, rfl, ?_, ?_⟩
  · decide +kernel
  · decide +kernel
  · decide +kernel
  · decide +kernel

end MethodDraft

end JvmEmit
