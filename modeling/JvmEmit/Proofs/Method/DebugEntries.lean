import JvmEmit.Proofs.Method.CodeInBlocks
import JvmEmit.Proofs.Method.Options
import JvmEmit.Proofs.Method.SignatureFrame

/-!
# The debugger's entries of a finished method

A draft lists the variables that its calls declare, and when the method is completed each of them that
has a name gets an entry. An entry has to fit what is kept elsewhere: the labels of its block have to
stand in the code, and its slots have to lie in the frame. They do because a method is only completed
once all its blocks have been left.

The entries are made at the very end, if the class asks for them. So they are all that its options
decide about a finished method.
-/

namespace JvmEmit

/-- What is selected, and has an image, is related to its image in the same order. -/
theorem forall₂_filter_filterMap {α β : Type} {related : α → β → Prop} {selected : α → Bool}
    {image : α → Option β} {elements : List α}
    (found : ∀ element ∈ elements, selected element = true →
      ∃ value, image element = some value ∧ related element value)
    (missing : ∀ element ∈ elements, selected element = false → image element = none) :
    List.Forall₂ related (elements.filter selected) (elements.filterMap image) := by
  induction elements with
  | nil => exact .nil
  | cons element elements ih =>
      have rest := ih (fun other member => found other (List.mem_cons_of_mem _ member))
        fun other member => missing other (List.mem_cons_of_mem _ member)
      cases isSelected : selected element with
      | true =>
          rcases found element List.mem_cons_self isSelected with ⟨value, isValue, holds⟩
          simpa [isSelected, isValue] using rest.cons holds
      | false =>
          have noValue := missing element List.mem_cons_self isSelected
          simpa [isSelected, noValue] using rest

namespace MethodDraft

variable {draft : MethodDraft}

/-! ## What a run declares -/

theorem declared_after (framed : draft.Framed) (call : MethodCall) :
    (call.after draft).declared.toList = draft.declared.toList ++ call.declarations draft := by
  have wellSlotted := framed.wellSlotted
  by_cases starts : call = .startBody ∧ draft.body = none
  · rcases starts with ⟨rfl, unstarted⟩
    have noBlocks := (wellSlotted.lockstep.unstarted unstarted).1
    have noneDeclared :=
      wellSlotted.recorded.declared_of_unstarted wellSlotted.lockstep unstarted
    have declared := (frame_of_startBody wellSlotted unstarted).2.2
    rw [noBlocks] at declared
    simpa [MethodCall.declarations, MethodCall.after, unstarted, noneDeclared] using declared
  · apply (AddsLocals.ofCall wellSlotted.lockstep _).declared
    intro isStart unstarted
    exact starts ⟨isStart, unstarted⟩

end MethodDraft

namespace MethodRun

/-- The variables that the calls of a run declare, each with its block, in the order of the calls. -/
def declarations : MethodRun → List MethodCall → List (BlockId × Variable JvmType)
  | _, [] => []
  | run, call :: rest => call.declarations run.draft ++ (run.record call).declarations rest

theorem declared_foldl {run : MethodRun} (framed : run.draft.Framed) (calls : List MethodCall) :
    (calls.foldl record run).draft.declared.toList =
      run.draft.declared.toList ++ run.declarations calls := by
  induction calls generalizing run with
  | nil => simp [declarations]
  | cons call calls ih =>
      have next : (run.record call).draft.Framed := framed.after call
      have declared : (run.record call).draft.declared.toList =
          run.draft.declared.toList ++ call.declarations run.draft :=
        MethodDraft.declared_after framed call
      simp [declarations, ih next, declared]

theorem declared_ofCalls {handedOut : MethodDraft} (isNew : handedOut.IsNew)
    (calls : List MethodCall) :
    (ofCalls handedOut calls).draft.declared.toList =
      (MethodRun.mk handedOut []).declarations calls := by
  have framed : (MethodRun.mk handedOut []).draft.Framed := .ofIsNew isNew
  have noneDeclared := framed.wellSlotted.recorded.declared_of_unstarted
    framed.wellSlotted.lockstep isNew.body_eq
  have declared := declared_foldl framed calls
  rw [noneDeclared, List.nil_append] at declared
  exact declared

end MethodRun

namespace MethodDraft

variable {draft : MethodDraft}

/-! ## The entry of a variable -/

/-- The entry describes a variable of a block, and agrees with the code and the frame of a method. -/
structure EntryOf (draft : MethodDraft) (method : FinishedMethod)
    (declared : BlockId × Variable JvmType) (entry : LocalVariableEntry) : Prop where
  name : declared.2.name = some entry.name
  type : entry.type = declared.2.type
  slot : entry.slot = declared.2.slot
  ends : ∃ home, draft.blocks[declared.1.index]? = some home ∧
    entry.start = home.start ∧ entry.stop = home.stop
  start_once : method.code.count (.mark entry.start) = 1
  stop_once : method.code.count (.mark entry.stop) = 1
  ordered : method.position entry.start < method.position entry.stop
  room : entry.slot + Slotted.slotCount entry.type ≤ method.maxLocals

/-- A variable is declared in a block that has been entered. -/
theorem WellSlotted.home_found (wellSlotted : draft.WellSlotted)
    {declared : BlockId × Variable JvmType} (member : declared ∈ draft.declared.toList) :
    ∃ home, draft.blocks[declared.1.index]? = some home := by
  have recorded := wellSlotted.recorded
  have lockstep := wellSlotted.lockstep
  have inTable := recorded.inOrder.declared declared.2 (List.mem_map_of_mem member)
  have known := SlotTable.known_of_mem_declaredIn inTable
  rw [recorded.scope_eq (Array.mem_toList_iff.mp member)] at known
  have started : draft.body ≠ none := by
    intro unstarted
    rw [recorded.declared_of_unstarted lockstep unstarted] at member
    cases member
  rcases Option.ne_none_iff_exists'.mp started with ⟨body, isBody⟩
  have below : declared.1.index < draft.blocks.size := by
    rw [(lockstep.started isBody).2]
    exact known
  exact ⟨_, Array.getElem?_eq_getElem below⟩

theorem WellSlotted.endSlot_le (wellSlotted : draft.WellSlotted)
    {declared : BlockId × Variable JvmType} (member : declared ∈ draft.declared.toList) :
    declared.2.endSlot ≤ draft.maxLocals := by
  have recorded := wellSlotted.recorded
  have inTable := recorded.inOrder.declared declared.2 (List.mem_map_of_mem member)
  have ends := ((recorded.laidOut.own declared.2.scope).bounds.2 declared.2 inTable).2
  exact Nat.le_trans ends (wellSlotted.hasRoom _)

theorem MarkedOnce.count_eq_one (markedOnce : draft.MarkedOnce) {label : Label}
    (isMarked : .mark label ∈ draft.code) : draft.finished.code.count (.mark label) = 1 := by
  have once := markedOnce.once label
  have positive : 0 < draft.code.count (.mark label) := Array.count_pos_iff.mpr isMarked
  have same : draft.finished.code.count (.mark label) = draft.code.count (.mark label) :=
    Array.count_toList
  omega

/-- Once all blocks have been left, every named variable has an entry. -/
theorem exists_entryOf (wellBracketed : draft.WellBracketed) (wellSlotted : draft.WellSlotted)
    (closed : ∀ home ∈ draft.blocks, draft.slots.scopes.isClosed home.slotScope = true)
    {declared : BlockId × Variable JvmType} (member : declared ∈ draft.declared.toList)
    (named : declared.2.name.isSome = true) :
    ∃ entry, draft.entry? declared.1 declared.2 = some entry ∧
      draft.EntryOf draft.finished declared entry := by
  have blocksApart := wellBracketed.wellMarked.blocksApart
  have markedOnce := wellBracketed.markedOnce
  rcases Option.isSome_iff_exists.mp named with ⟨name, isName⟩
  rcases wellSlotted.home_found member with ⟨home, found⟩
  have entered := Array.mem_of_getElem? found
  have started := blocksApart.started entered
  have stopped := blocksApart.stopped entered (closed home entered)
  refine ⟨_, entry?_eq_some_iff.mpr ⟨name, home, isName, found, rfl⟩, ?_⟩
  constructor
  · exact isName
  · rfl
  · rfl
  · exact ⟨home, found, rfl, rfl⟩
  · exact markedOnce.count_eq_one started
  · exact markedOnce.count_eq_one stopped.1
  · exact stopped.2
  · exact wellSlotted.endSlot_le member

/-! ## The entries of a method -/

/--
After every run that passes its own labels and whose method is completed, the finished method lists one
entry for each named variable that the run has declared, in the order of declaration, and no others,
provided that the class asks for entries. Each entry has the name, the type and the slot of its
variable and the labels of its block, which the code marks once, the start before the end, and the
frame has room for it. A class that does not ask for entries gets none, and the same method otherwise.
-/
theorem entries_list_named_declarations {handedOut : MethodDraft} {calls : List MethodCall}
    {left : ClassDraft} (isNew : handedOut.IsNew)
    (own : (MethodRun.mk handedOut []).passesOwnLabels calls = true)
    (completed : (MethodRun.ofCalls handedOut calls).draft.complete = .ok () left) :
    let draft := (MethodRun.ofCalls handedOut calls).draft
    let declarations := (MethodRun.mk handedOut []).declarations calls
    let members := handedOut.owner.methods
    ∃ method, left.methods = members ++ [method] ∧
      (handedOut.owner.options.localVariableTable = true →
        List.Forall₂ (draft.EntryOf method)
          (declarations.filter fun declared => declared.2.name.isSome) method.localVariables) ∧
      (handedOut.owner.options.localVariableTable = false → method.localVariables = []) ∧
      ∀ options : ClassOptions, options.localVariableTable = false →
        (handedOut.withOptions options).IsNew ∧
        ∃ twin, (MethodRun.ofCalls (handedOut.withOptions options) calls).draft.complete =
            .ok () twin ∧
          twin.methods = members ++ [{ method with localVariables := [] }] := by
  intro draft declarations members
  have path : Path MayPass handedOut draft := MethodRun.Sound.path_foldl (.initial isNew) own
  have wellBracketed : draft.WellBracketed :=
    path.keeps WellBracketed WellBracketed.step (.ofIsNew isNew)
  have wellSlotted : draft.WellSlotted := path.keeps WellSlotted WellSlotted.step (.ofIsNew isNew)
  have lockstep := wellSlotted.lockstep
  have owner := path.retains.owner
  have sameOptions : draft.owner.options = handedOut.owner.options := by rw [owner]
  have sameMethods : draft.owner.methods = members := by rw [owner]
  rcases closed_of_complete lockstep completed with ⟨finished, closed⟩
  refine ⟨draft.finished, ?_, ?_, ?_, ?_⟩
  · rw [finished, sameMethods]
  · intro listed
    have entries : draft.finished.localVariables = draft.entries := by
      rw [MethodDraft.finished, sameOptions, if_pos listed]
    have declared : draft.declared.toList = declarations :=
      MethodRun.declared_ofCalls isNew calls
    rw [entries, MethodDraft.entries, ← declared]
    apply forall₂_filter_filterMap
    · intro declared member named
      exact exists_entryOf wellBracketed wellSlotted closed member named
    · intro declared _ unnamed
      have noName : declared.2.name = none := by simpa using unnamed
      unfold entry?
      simp [noName]
  · intro unlisted
    simp [MethodDraft.finished, sameOptions, unlisted]
  · intro options unlisted
    refine ⟨isNew.withOptions options, ?_⟩
    rcases complete_withOptions options lockstep completed with ⟨twin, result, methods⟩
    rw [ofCalls_withOptions]
    refine ⟨twin, result, ?_⟩
    rw [methods, sameMethods, finished_withOptions]
    simp [unlisted]

/-- In an inner block one declaration fails, one has no name, and one has a fresh name. -/
def debuggedCalls : List MethodCall :=
  [.startBody, .enterBlock ⟨0⟩ none, .addVariable ⟨1⟩ .int (some "i"),
    .addVariable ⟨1⟩ .int (some "a"), .addVariable ⟨1⟩ .int none,
    .addTemporary ⟨1⟩ .double (some "t"), .leaveBlock ⟨1⟩, .leaveBlock ⟨0⟩]

/-- Two parameters and two variables of the inner block have entries, if entries are asked for. -/
theorem entries_list_variables_of_inner_block :
    instanceMethod.IsNew ∧ (MethodRun.mk instanceMethod []).passesOwnLabels debuggedCalls = true ∧
      instanceMethod.owner.options.localVariableTable = true ∧
      let draft := (MethodRun.ofCalls instanceMethod debuggedCalls).draft
      let declarations := (MethodRun.mk instanceMethod []).declarations debuggedCalls
      ∃ left method twin, draft.complete = .ok () left ∧ left.methods = [method] ∧
        method.localVariables.map (fun entry => (entry.name, entry.slot)) =
          [("a", 1), ("b", 4), ("i", 5), ("t", 7)] ∧
        List.Forall₂ (draft.EntryOf method)
          (declarations.filter fun declared => declared.2.name.isSome) method.localVariables ∧
        (MethodRun.ofCalls (instanceMethod.withOptions { localVariableTable := false })
          debuggedCalls).draft.complete = .ok () twin ∧
        twin.methods = [{ method with localVariables := [] }] := by
  have isNew : instanceMethod.IsNew := isNew_ofSignature _ _
  have own : (MethodRun.mk instanceMethod []).passesOwnLabels debuggedCalls = true := by
    decide +kernel
  have completed :
      Outcome.toExcept (MethodRun.ofCalls instanceMethod debuggedCalls).draft.complete = .ok () := by
    decide +kernel
  have entries :
      (Outcome.state (MethodRun.ofCalls instanceMethod debuggedCalls).draft.complete).methods.map
        (fun method => method.localVariables.map fun entry => (entry.name, entry.slot)) =
      [[("a", 1), ("b", 4), ("i", 5), ("t", 7)]] := by
    decide +kernel
  refine ⟨isNew, own, rfl, ?_⟩
  rcases entries_list_named_declarations isNew own (Outcome.eq_ok_of_toExcept completed) with
    ⟨method, methods, listed, _, twins⟩
  rcases twins { localVariableTable := false } rfl with ⟨_, twin, twinCompleted, twinMethods⟩
  have onlyMethod : _ = [method] := methods
  rw [onlyMethod, List.map_singleton] at entries
  exact ⟨_, method, twin, Outcome.eq_ok_of_toExcept completed, onlyMethod,
    List.singleton_inj.mp entries, listed rfl, twinCompleted, twinMethods⟩

end MethodDraft

end JvmEmit
