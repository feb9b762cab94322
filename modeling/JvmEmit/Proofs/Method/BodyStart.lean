import JvmEmit.Proofs.Method.CodeInBlocks
import JvmEmit.Proofs.Method.SignatureFrame
import Mathlib.Data.Nat.Bitwise
import Mathlib.Order.Bounds.Basic

/-!
# What starting the body leaves behind

Starting the body enters its block, declares the receiver and then one parameter after another until
a name is taken. What it leaves behind is known for every signature, and it is the same whether the
call succeeds or fails: the parameters in front of the first clash, side by side behind the receiver,
a frame that ends with them, and the code with the start label of the body. The call fails exactly if
there is a clash, with the name of the parameter that meets it.

No call before it can have changed the draft, since every other call needs a block.
-/

namespace JvmEmit

/-! ## The parameters in front of the first clash -/

/-- A method takes a receiver unless the bit for static methods is set. -/
theorem Modifiers.isInstance_iff (modifiers : MethodModifiers) :
    modifiers.isInstance = true ↔ modifiers.bits &&& 0x0008 = 0 := by
  have bit : (modifiers.bits &&& 0x0008).toNat = (modifiers.bits.toNat.testBit 3).toNat * 2 ^ 3 :=
    Nat.and_two_pow _ 3
  cases set : modifiers.bits.toNat.testBit 3 with
  | false =>
      have unset : modifiers.bits &&& 0x0008 = 0 := UInt16.toNat_inj.mp (by simpa [set] using bit)
      simp [isInstance, contains, staticMethod, unset]
  | true =>
      have isSet : modifiers.bits &&& 0x0008 = 0x0008 :=
        UInt16.toNat_inj.mp (by simpa [set] using bit)
      simp [isInstance, contains, staticMethod, isSet]

namespace Parameter

variable {parameters rest : List Parameter} {refused : Parameter}

/-- Each argument begins behind the parameters in front of it. -/
theorem argumentsFrom_take (slot : Nat) (parameters : List Parameter) (count : Nat) :
    argumentsFrom slot (parameters.take count) =
      (parameters.take count).mapIdx fun position parameter =>
        { name := parameter.name
          type := parameter.type
          scope := .root
          slot := slot + slotsOf (parameters.take position)
          role := .argument } := by
  induction parameters generalizing slot count with
  | nil => simp [argumentsFrom]
  | cons parameter parameters ih =>
      cases count with
      | zero => simp [argumentsFrom]
      | succ count => simp [argumentsFrom, slotsOf, List.mapIdx_cons, ih, Nat.add_assoc]

/-- The parameters before the clash are as many as can be without one. -/
theorem isGreatest_length_beforeClash (parameters : List Parameter) :
    IsGreatest {count | count ≤ parameters.length ∧
        ((parameters.take count).filterMap Parameter.name).Nodup}
      (beforeClash [] parameters).length := by
  have front := beforeClash_isPrefix [] parameters
  constructor
  · refine ⟨front.length_le, ?_⟩
    rw [← List.prefix_iff_eq_take.mp front]
    exact nodup_beforeClash List.nodup_nil parameters
  · rintro count ⟨within, distinct⟩
    have accepted : parameters.take count <+: beforeClash [] parameters :=
      isPrefix_beforeClash (List.take_prefix count parameters) distinct
    simpa [within] using accepted.length_le

theorem exists_take_eq_beforeClash (parameters : List Parameter) :
    ∃ count, beforeClash [] parameters = parameters.take count ∧
      IsGreatest {count | count ≤ parameters.length ∧
        ((parameters.take count).filterMap Parameter.name).Nodup} count := by
  refine ⟨_, ?_, isGreatest_length_beforeClash parameters⟩
  exact List.prefix_iff_eq_take.mp (beforeClash_isPrefix [] parameters)

/-- Only a parameter that has a name can clash. -/
theorem isSome_name_of_refused (split : parameters = beforeClash [] parameters ++ refused :: rest) :
    ∃ name, refused.name = some name := by
  apply Option.ne_none_iff_exists'.mp
  intro unnamed
  have greatest := (isGreatest_length_beforeClash parameters).2
  have distinct := nodup_beforeClash List.nodup_nil parameters
  generalize beforeClash [] parameters = accepted at *
  have longer : accepted.length + 1 ≤ accepted.length := by
    apply greatest
    rw [split]
    simpa [List.take_append, List.take_of_length_le, unnamed] using distinct
  omega

end Parameter

namespace MethodSignature

variable (signature : MethodSignature) (owner : ClassName)

theorem receivers_eq :
    signature.receivers owner =
      if signature.modifiers.bits &&& 0x0008 = 0 then
        [{ name := none, type := .reference owner, scope := .root, slot := 0, role := .receiver }]
      else [] := by
  simp [receivers, isInstance, Modifiers.isInstance_iff]

/-- The receiver, if there is one, takes a single slot. -/
theorem receiverSlots_eq : signature.receiverSlots = (signature.receivers owner).length := by
  rw [receiverSlots, receivers]
  cases signature.isInstance <;> rfl

end MethodSignature

namespace MethodDraft

variable {draft after : MethodDraft} {permitted : MethodDraft → Label → Prop}

/-! ## Before the body is started -/

theorem Step.body_ne_none (step : Step permitted draft after) (lockstep : draft.Lockstep) :
    after.body ≠ none := by
  cases step with
  | startBody unstarted usable => simp [withBody]
  | declare found accepted unnamed type =>
      exact lockstep.body_ne_none (Array.mem_of_getElem? found)
  | _ => exact lockstep.body_ne_none (by assumption)

/-- Nothing changes a draft before its body is started. -/
theorem Path.eq_of_unstarted (path : Path permitted draft after) (lockstep : draft.Lockstep)
    (unstarted : after.body = none) : after = draft := by
  cases path with
  | refl => rfl
  | tail earlier last =>
      have lockstepThere := Path.keeps Lockstep Lockstep.step earlier lockstep
      exact absurd unstarted (last.body_ne_none lockstepThere)

theorem ofCalls_eq_of_not_mem (isNew : draft.IsNew) {calls : List MethodCall}
    (first : .startBody ∉ calls) : (MethodRun.ofCalls draft calls).draft = draft := by
  have lockstep := Lockstep.ofIsNew isNew
  have unstarted : (MethodRun.ofCalls draft calls).draft.body = none := by
    induction calls using List.reverseRecOn with
    | nil => exact isNew.body_eq
    | append_singleton calls call ih =>
        simp only [List.mem_append, List.mem_singleton, not_or] at first
        have before := (path_ofCalls lockstep calls).keeps Lockstep Lockstep.step lockstep
        have added : AddsLocals _ _ (call.after (MethodRun.ofCalls draft calls).draft) :=
          .ofCall before fun starts => absurd starts.symm first.2
        rw [MethodRun.ofCalls_append]
        exact added.body.trans (ih first.1)
  exact (path_ofCalls lockstep calls).eq_of_unstarted lockstep unstarted

/-! ## The declarations of the body -/

/-- Variables were added to one block, and the frame still ends with its scope. -/
structure AddsTo (id : BlockId) (home : Block) (before after : MethodDraft) : Prop where
  pathName : after.slots.scopes.pathName = before.slots.scopes.pathName
  declared : ∃ added, after.declared.toList = before.declared.toList ++ added.map (Prod.mk id) ∧
    after.slots.declaredIn home.slotScope = before.slots.declaredIn home.slotScope ++ added
  maxLocals : before.maxLocals = before.slots.nextSlot home.slotScope →
    after.maxLocals = after.slots.nextSlot home.slotScope

theorem Declares.addsTo {id : BlockId} {home : Block} (declares : Declares id home draft after) :
    AddsTo id home draft after := by
  cases declares with
  | declare found accepted unnamed type =>
      rename_i role name
      have usable := ((SlotTable.requireDeclarable_eq_ok_iff _ _ _ _).mp accepted).1
      have known := ((NestedScopes.requireUsable_eq_ok_iff _ _).mp usable).1
      have ends := SlotTable.nextSlot_adding known role type name
      refine ⟨?_, ⟨[draft.slots.nextVariable home.slotScope role type name], ?_, ?_⟩, ?_⟩
      · funext scope
        exact NestedScopes.pathName_modifyPayload _ _ _ _
      · simp [declaring]
      · exact SlotTable.declaredIn_adding known role type name
      · intro endsThere
        have room : draft.maxLocals ≤ draft.slots.nextSlot home.slotScope + Slotted.slotCount type := by
          omega
        exact (Nat.max_eq_right room).trans ends.symm

theorem addsTo_of_declares {id : BlockId} {home : Block}
    (declares : Relation.ReflTransGen (Declares id home) draft after) :
    AddsTo id home draft after := by
  induction declares with
  | refl => exact ⟨rfl, ⟨[], by simp⟩, fun ends => ends⟩
  | tail _ last ih =>
      have next := last.addsTo
      rcases ih.declared with ⟨front, listedFront, scopeFront⟩
      rcases next.declared with ⟨back, listedBack, scopeBack⟩
      refine ⟨next.pathName.trans ih.pathName, ⟨front ++ back, ?_, ?_⟩,
        fun ends => next.maxLocals (ih.maxLocals ends)⟩
      · simp [listedBack, listedFront]
      · simp [scopeBack, scopeFront]

/-- The body begins with the frame of the signature, and with the mark of its start label. -/
theorem begun_of_startBody (isNew : draft.IsNew) :
    let after := Outcome.state (startBody draft)
    after.slots.scopes.pathName .root = draft.signature.name ∧
    ∃ home : Block, home.slotScope = .root ∧
      after.body = some ⟨0⟩ ∧ after.blocks = #[home] ∧ after.code = #[.mark home.start] ∧
      after.slots.declaredIn .root = draft.signature.frame draft.owner.header.name ∧
      after.maxLocals =
        draft.signature.receiverSlots + Parameter.slotsOf draft.signature.declaredParameters := by
  intro after
  have wellSlotted : draft.WellSlotted := .ofIsNew isNew
  have lockstep := wellSlotted.lockstep
  rcases lockstep.unstarted isNew.body_eq with ⟨noBlocks, noSlots⟩
  have noCode := (WithinBody.ofIsNew isNew).unstarted isNew.body_eq
  have noneDeclared := wellSlotted.recorded.declared_of_unstarted lockstep isNew.body_eq
  rcases frame_of_startBody wellSlotted isNew.body_eq with ⟨body, nextSlot, declared⟩
  rcases declares_startBody lockstep isNew.body_eq with
    ⟨home, outermost, _, start, _, blocks, declares⟩
  have same : draft.withBody.SameCode after := sameCode_of_declares declares
  have added : AddsTo ⟨draft.blocks.size⟩ home draft.withBody after := addsTo_of_declares declares
  have slots : draft.withBody.slots = .ofRoot (some draft.signature.name) := noSlots
  rw [noBlocks] at body
  refine ⟨?_, home, outermost, body, ?_, ?_, ?_, ?_⟩
  · rw [added.pathName, slots]
    rfl
  · rw [same.blocks, blocks, noBlocks]
    rfl
  · have code : draft.withBody.code =
        draft.code.push (.mark (draft.nextLabel draft.nameScope (some "start"))) := rfl
    rw [same.code, code, noCode, start]
    rfl
  · rcases added.declared with ⟨news, listed, inScope⟩
    have listedBefore : draft.withBody.declared.toList = [] := noneDeclared
    rw [listedBefore, List.nil_append] at listed
    rw [outermost, slots] at inScope
    have isFrame : news = draft.signature.frame draft.owner.header.name :=
      List.map_injective_iff.mpr (Prod.mk_right_injective _) (listed.symm.trans declared)
    rw [← isFrame]
    exact inScope
  · rw [← nextSlot, ← outermost]
    apply added.maxLocals
    rw [maxLocals, slots, outermost]
    rfl

theorem startBody_of_all_declared (lockstep : draft.Lockstep) (unstarted : draft.body = none)
    (all : draft.signature.declaredParameters = draft.signature.parameters) :
    startBody draft = .ok ⟨draft.blocks.size⟩ (Outcome.state (startBody draft)) := by
  rcases startBody_eq lockstep unstarted with
    ⟨home, begun, outermost, _, begunLockstep, found, ready, started⟩
  rcases addParameters_cases begunLockstep found outermost ready draft.signature.parameters with
    ⟨_, added⟩ | ⟨_, refused, rest, _, split, _⟩
  · rw [started.trans (bind_of_ok added)]
    rfl
  · have longer := congrArg List.length split
    have same := congrArg List.length all
    simp only [MethodSignature.declaredParameters] at same
    simp [same] at longer

/-- The error names the first parameter that was not declared. -/
theorem startBody_of_clash (isNew : draft.IsNew) {refused : Parameter} {rest : List Parameter}
    (split : draft.signature.parameters = draft.signature.declaredParameters ++ refused :: rest) :
    ∃ name, refused.name = some name ∧
      startBody draft =
        .error (.scope (.nameTaken name draft.signature.name)) (Outcome.state (startBody draft)) := by
  rcases Parameter.isSome_name_of_refused split with ⟨name, named⟩
  have pathName := (begun_of_startBody isNew).1
  rcases startBody_eq (.ofIsNew isNew) isNew.body_eq with
    ⟨home, begun, outermost, _, begunLockstep, found, ready, started⟩
  refine ⟨name, named, ?_⟩
  rcases addParameters_cases begunLockstep found outermost ready draft.signature.parameters with
    ⟨all, _⟩ | ⟨declared, first, behind, _, firstSplit, stopped⟩
  · rw [MethodSignature.declaredParameters, all] at split
    simp at split
  · have result := started.trans (bind_of_error stopped)
    rw [result, Outcome.state_error] at pathName
    rw [MethodSignature.declaredParameters] at split
    have same : refused = first := by
      have both := split.symm.trans firstSplit
      simp at both
      exact both.1
    rw [result, ← same, named, Outcome.state_error, pathName]
    rfl

/-- Once a call has tried to start the body, no later call starts it. -/
theorem startBody_again (isNew : draft.IsNew) (more : List MethodCall) :
    let later := (MethodRun.ofCalls (Outcome.state (startBody draft)) more).draft
    startBody later = .error (.bodyStarted draft.signature.name) later := by
  intro later
  have isLater : later = (MethodRun.ofCalls draft (.startBody :: more)).draft := rfl
  have retains := (path_ofCalls (.ofIsNew isNew) (.startBody :: more)).retains
  have started := Framed.started_of_mem isNew (List.mem_cons_self (a := .startBody) (l := more))
  rcases Option.ne_none_iff_exists'.mp started with ⟨body, isBody⟩
  rw [isLater, startBody_of_started isBody, retains.signature]

/--
The first call that starts the body, whatever calls came before it, declares as many parameters as can
be without a clash of names. They stand side by side behind the receiver, the frame ends with them, and
the code has the start label of the body. The call succeeds if these are all parameters; otherwise it
fails with the name of the next one, and everything declared so far stays. No later call starts the
body again or changes anything in trying.
-/
theorem startBody_declares_up_to_clash {handedOut : MethodDraft} {calls : List MethodCall}
    (isNew : handedOut.IsNew) (first : .startBody ∉ calls) :
    let draft := (MethodRun.ofCalls handedOut calls).draft
    let after := Outcome.state (startBody draft)
    let signature := handedOut.signature
    let parameters := signature.parameters
    let receivers : List (Variable JvmType) :=
      if signature.modifiers.bits &&& 0x0008 = 0 then
        [{ name := none, type := .reference handedOut.owner.header.name, scope := .root, slot := 0,
           role := .receiver }]
      else []
    ∃ count home,
      IsGreatest {count | count ≤ parameters.length ∧
        ((parameters.take count).filterMap Parameter.name).Nodup} count ∧
      after.body = some ⟨0⟩ ∧ after.blocks = #[home] ∧ home.slotScope = .root ∧
      after.code = #[.mark home.start] ∧
      after.slots.declaredIn .root = receivers ++
        (parameters.take count).mapIdx (fun position parameter =>
          { name := parameter.name
            type := parameter.type
            scope := .root
            slot := receivers.length + Parameter.slotsOf (parameters.take position)
            role := .argument }) ∧
      after.maxLocals = receivers.length + Parameter.slotsOf (parameters.take count) ∧
      (count = parameters.length → startBody draft = .ok ⟨0⟩ after) ∧
      (∀ refused, parameters[count]? = some refused → ∃ name, refused.name = some name ∧
        startBody draft = .error (.scope (.nameTaken name signature.name)) after) ∧
      ∀ more, let later := (MethodRun.ofCalls after more).draft
        startBody later = .error (.bodyStarted signature.name) later := by
  intro draft after signature parameters receivers
  have lockstep : handedOut.Lockstep := .ofIsNew isNew
  have unchanged : draft = handedOut := ofCalls_eq_of_not_mem isNew first
  have isReceivers : signature.receivers handedOut.owner.header.name = receivers :=
    signature.receivers_eq _
  have isReceiverSlots : signature.receiverSlots = receivers.length := by
    rw [← isReceivers]
    exact signature.receiverSlots_eq _
  rcases Parameter.exists_take_eq_beforeClash parameters with ⟨count, accepted, greatest⟩
  have declared : signature.declaredParameters = parameters.take count := accepted
  have started : startBody draft = startBody handedOut := congrArg startBody unchanged
  have afterStart : after = Outcome.state (startBody handedOut) := congrArg Outcome.state started
  rcases begun_of_startBody isNew with
    ⟨_, home, outermost, body, blocks, code, inScope, maxLocals⟩
  rw [← afterStart] at body blocks code inScope maxLocals
  refine ⟨count, home, greatest, body, blocks, outermost, code, ?_, ?_, ?_, ?_, ?_⟩
  · rw [inScope, MethodSignature.frame, isReceivers, isReceiverSlots, declared]
    exact congrArg _ (Parameter.argumentsFrom_take _ _ _)
  · rw [maxLocals, isReceiverSlots, declared]
  · intro all
    have allDeclared : signature.declaredParameters = parameters := by simp [declared, all]
    have answered := startBody_of_all_declared lockstep isNew.body_eq allDeclared
    rwa [← started, (lockstep.unstarted isNew.body_eq).1] at answered
  · intro refused atClash
    rcases List.getElem?_eq_some_iff.mp atClash with ⟨below, isRefused⟩
    have split : parameters = signature.declaredParameters ++ refused :: parameters.drop (count + 1) := by
      simp [declared, ← isRefused]
    rcases startBody_of_clash isNew split with ⟨name, named, failed⟩
    rw [← started] at failed
    exact ⟨name, named, failed⟩
  · rw [afterStart]
    exact startBody_again isNew

/-- An instance method whose third parameter has the name of the first one, which is wide. -/
def repeatingMethod : MethodDraft :=
  ofSignature { name := ⟨"", "A"⟩ } {
    name := "f"
    parameters := [⟨some "a", .long⟩, ⟨none, .int⟩, ⟨some "a", .int⟩, ⟨some "b", .int⟩] }

/-- The receiver and two parameters take four slots, and the third parameter is refused. -/
theorem startBody_declares_up_to_repeated_name :
    repeatingMethod.IsNew ∧ .startBody ∉ [MethodCall.isBlockClosed ⟨0⟩] ∧
      let draft := (MethodRun.ofCalls repeatingMethod [.isBlockClosed ⟨0⟩]).draft
      let after := Outcome.state (startBody draft)
      (after.slots.declaredIn .root).map (fun declared => (declared.name, declared.slot)) =
        [(none, 0), (some "a", 1), (none, 3)] ∧
      after.maxLocals = 4 ∧ startBody draft = .error (.scope (.nameTaken "a" "f")) after := by
  have isNew : repeatingMethod.IsNew := isNew_ofSignature _ _
  have first : MethodCall.startBody ∉ [MethodCall.isBlockClosed ⟨0⟩] := by decide
  refine ⟨isNew, first, ?_⟩
  intro draft after
  rcases startBody_declares_up_to_clash isNew first with
    ⟨count, home, greatest, _, _, _, _, inScope, maxLocals, _, refused, _⟩
  have two : count = 2 := by
    apply greatest.unique
    refine ⟨⟨by decide, by decide⟩, ?_⟩
    rintro more ⟨within, distinct⟩
    by_contra beyond
    have atClash : more = 3 ∨ more = 4 := by
      have : repeatingMethod.signature.parameters.length = 4 := rfl
      omega
    rcases atClash with rfl | rfl
    · exact absurd distinct (by decide)
    · exact absurd distinct (by decide)
  subst two
  rcases refused ⟨some "a", .int⟩ rfl with ⟨name, named, failed⟩
  cases named
  refine ⟨?_, maxLocals, failed⟩
  rw [inScope]
  rfl

end MethodDraft

end JvmEmit
