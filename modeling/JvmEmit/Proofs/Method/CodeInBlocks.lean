import JvmEmit.Proofs.Method.Brackets

/-!
# The code of finished methods

A finished method that has a body has its whole code in the brackets of the body, and each of its
blocks is one pair of brackets, around those of the blocks inside it and of no others. What is added
through a block stands between its brackets, and behind or before those of the blocks inside it: the
block could be used, so the blocks inside it had been left or were entered later.
-/

namespace JvmEmit

namespace MethodDraft

variable {draft middle after : MethodDraft} {permitted : MethodDraft → Label → Prop}

/-! ## The body around the code -/

theorem Lockstep.found_of_mem (lockstep : draft.Lockstep) {home : Block}
    (entered : home ∈ draft.blocks) : draft.blocks[home.slotScope.index]? = some home := by
  rcases Array.getElem?_of_mem entered with ⟨index, found⟩
  rw [lockstep.slotScope_eq found]
  exact found

/-- While any block can be used, the body is open. -/
theorem Lockstep.body_isOpen_of_usable (lockstep : draft.Lockstep) {home body : Block}
    (entered : home ∈ draft.blocks)
    (usable : draft.slots.scopes.requireUsable home.slotScope = .ok ())
    (first : draft.blocks[0]? = some body) :
    draft.slots.scopes.isClosed body.slotScope = false := by
  have isOpen := ((NestedScopes.requireUsable_eq_ok_iff _ _).mp usable).2.1
  apply lockstep.wellNested.open_of_mem_path isOpen
  rw [lockstep.slotScope_eq first]
  exact lockstep.wellNested.root_mem_path (lockstep.known entered)

theorem Step.body_eq (step : Step permitted draft after) (started : draft.body ≠ none) :
    after.body = draft.body := by
  cases step with
  | startBody unstarted usable => exact absurd unstarted started
  | _ => rfl

theorem Step.first_block (step : Step permitted draft after) {home : Block}
    (entered : home ∈ draft.blocks) : after.blocks[0]? = draft.blocks[0]? := by
  have nonempty : 0 < draft.blocks.size := Array.size_pos_of_mem entered
  cases step with
  | startBody unstarted usable =>
      exact (Array.getElem?_push_lt nonempty).trans (Array.getElem?_eq_getElem nonempty).symm
  | enterBlock outerEntered usable slotsEntered namesEntered =>
      exact (Array.getElem?_push_lt nonempty).trans (Array.getElem?_eq_getElem nonempty).symm
  | _ => rfl

/-- The code begins where the body begins, and once the body is left, it ends there. -/
structure WithinBody (draft : MethodDraft) : Prop where
  unstarted : draft.body = none → draft.code = #[]
  first : ∀ {body : Block}, draft.blocks[0]? = some body →
    draft.code[0]? = some (.mark body.start)
  last : ∀ {body : Block}, draft.blocks[0]? = some body →
    draft.slots.scopes.isClosed body.slotScope = true → draft.code.back? = some (.mark body.stop)

namespace WithinBody

theorem ofIsNew (isNew : draft.IsNew) : draft.WithinBody := by
  rcases isNew.entered with ⟨owner, signature, nameScope, scopes, entered, rfl⟩
  constructor
  · intro _
    rfl
  · intro body first
    simp at first
  · intro body first
    simp at first

theorem unchanged (withinBody : draft.WithinBody) (code : after.code = draft.code)
    (blocks : after.blocks = draft.blocks) (body : after.body = draft.body)
    (isClosed : ∀ scope,
      after.slots.scopes.isClosed scope = draft.slots.scopes.isClosed scope) :
    after.WithinBody := by
  rcases withinBody with ⟨unstarted, first, last⟩
  simp only [← code, ← blocks, ← body, ← isClosed] at unstarted first last
  exact ⟨unstarted, first, last⟩

/-- An instruction behind the code of the body can only be the mark of its end. -/
theorem push (withinBody : draft.WithinBody) (lockstep : draft.Lockstep)
    (step : Step permitted draft after) {home : Block} (entered : home ∈ draft.blocks)
    {instruction : Instruction} (code : after.code = draft.code.push instruction)
    (last : ∀ {body : Block}, draft.blocks[0]? = some body →
      after.slots.scopes.isClosed body.slotScope = true → instruction = .mark body.stop) :
    after.WithinBody := by
  have same := step.first_block entered
  constructor
  · intro unstarted
    rw [step.body_eq (lockstep.body_ne_none entered)] at unstarted
    exact absurd unstarted (lockstep.body_ne_none entered)
  · intro body found
    rw [same] at found
    have first := withinBody.first found
    have nonempty := (Array.getElem?_eq_some_iff.mp first).1
    rw [code, Array.getElem?_push_lt nonempty, ← Array.getElem?_eq_getElem nonempty]
    exact first
  · intro body found closed
    rw [same] at found
    rw [code, Array.back?_push, last found closed]

theorem step (step : Step permitted draft after) (lockstep : draft.Lockstep)
    (withinBody : draft.WithinBody) : after.WithinBody := by
  have taken := step
  cases step with
  | issueName entered usable hint => exact withinBody.unchanged rfl rfl rfl fun _ => rfl
  | takeName entered usable name => exact withinBody.unchanged rfl rfl rfl fun _ => rfl
  | createLabel entered usable hint => exact withinBody.unchanged rfl rfl rfl fun _ => rfl
  | declare found accepted unnamed type =>
      exact withinBody.unchanged rfl rfl rfl
        fun scope => NestedScopes.isClosed_modifyPayload _ _ scope _
  | bindLabel entered usable unbound allowed =>
      apply withinBody.push lockstep taken entered rfl
      intro body found closed
      have isOpen := lockstep.body_isOpen_of_usable entered usable found
      exact absurd (isOpen.symm.trans closed) Bool.false_ne_true
  | append entered usable noMark allowed =>
      apply withinBody.push lockstep taken entered rfl
      intro body found closed
      have isOpen := lockstep.body_isOpen_of_usable entered usable found
      exact absurd (isOpen.symm.trans closed) Bool.false_ne_true
  | enterBlock entered usable slotsEntered namesEntered =>
      apply withinBody.push lockstep taken entered rfl
      intro body found closed
      have isOpen := (NestedScopes.isClosed_of_enter slotsEntered _).trans
        (lockstep.body_isOpen_of_usable entered usable found)
      exact absurd (isOpen.symm.trans closed) Bool.false_ne_true
  | @leaveBlock closing entered usable =>
      apply withinBody.push lockstep taken entered rfl
      intro body found closed
      have isOpen := lockstep.body_isOpen_of_usable entered usable found
      change (draft.slots.scopes.closedAt closing.slotScope).isClosed body.slotScope = true
        at closed
      rw [NestedScopes.isClosed_closedAt _ _ _ (lockstep.known entered), isOpen, Bool.or_false,
        decide_eq_true_iff] at closed
      rw [lockstep.eq_of_slotScope_eq entered (Array.mem_of_getElem? found) closed]
  | startBody unstarted usable =>
      have noBlocks := (lockstep.unstarted unstarted).1
      have noCode := withinBody.unstarted unstarted
      constructor
      · intro stillUnstarted
        cases stillUnstarted
      · intro body found
        change (draft.blocks.push _)[0]? = some body at found
        change (draft.code.push _)[0]? = some _
        rw [noBlocks] at found
        rw [noCode]
        cases found
        rfl
      · intro body found closed
        change (draft.blocks.push _)[0]? = some body at found
        rw [noBlocks] at found
        cases found
        change draft.slots.scopes.isClosed .root = true at closed
        rw [(lockstep.unstarted unstarted).2] at closed
        cases closed

end WithinBody

/-! ## Each block is one pair of brackets -/

/-- An edge that the code marks is marked there once. -/
theorem WellBracketed.count_codeEdges (wellBracketed : draft.WellBracketed) {edge : BlockEdge}
    (isEdge : edge ∈ draft.edges) (marked : .mark edge.label ∈ draft.code) :
    draft.codeEdges.count edge = 1 := by
  have sameCount : draft.codeEdges.count edge = draft.code.count (.mark edge.label) := by
    rw [codeEdges, List.count, List.countP_filterMap, ← Array.count_toList, List.count]
    apply List.countP_congr
    intro instruction _
    have isMark : draft.edge? instruction = some edge ↔ instruction = .mark edge.label :=
      wellBracketed.wellMarked.edge?_eq_some_iff.trans (and_iff_right isEdge)
    rw [beq_iff_eq, ← isMark]
    cases draft.edge? instruction with
    | none => simp
    | some other => simp
  have positive : 0 < draft.code.count (.mark edge.label) := Array.count_pos_iff.mpr marked
  have once := wellBracketed.markedOnce.once edge.label
  omega

/-- Once all blocks have been left, one is inside another if its brackets are, and only then. -/
theorem WellMarked.mem_enclosing_iff (wellMarked : draft.WellMarked)
    (closed : ∀ home ∈ draft.blocks, draft.slots.scopes.isClosed home.slotScope = true)
    {outer inner : Block} (outerEntered : outer ∈ draft.blocks)
    (innerEntered : inner ∈ draft.blocks) :
    outer.slotScope ∈ draft.slots.scopes.enclosing inner.slotScope ↔
      markPosition draft.code outer.start < markPosition draft.code inner.start ∧
        markPosition draft.code inner.stop < markPosition draft.code outer.stop := by
  rcases wellMarked with ⟨lockstep, recorded, labels, blocksApart⟩
  constructor
  · intro inside
    have before := lockstep.wellNested.earlier_of_mem_enclosing inside
    exact ⟨blocksApart.ordered outerEntered innerEntered before,
      blocksApart.nested outerEntered innerEntered inside (closed outer outerEntered)⟩
  · rintro ⟨startsBefore, stopsAfter⟩
    by_contra notInside
    rcases Nat.lt_trichotomy outer.slotScope.index inner.slotScope.index with
      before | same | behind
    · have apart := (blocksApart.apart outerEntered innerEntered before notInside).2
      have innerStops := (blocksApart.stopped innerEntered (closed inner innerEntered)).2
      omega
    · cases lockstep.eq_of_slotScope_eq outerEntered innerEntered (congrArg ScopeId.mk same)
      omega
    · have ordered := blocksApart.ordered innerEntered outerEntered behind
      omega

/-! ## What is added through a block -/

/-- An instruction that is added through a usable block is the next one of the code. -/
structure Emits (draft middle : MethodDraft) (home : Block) (instruction : Instruction) : Prop where
  entered : home ∈ draft.blocks
  usable : draft.slots.scopes.requireUsable home.slotScope = .ok ()
  code : middle.code = draft.code.push instruction
  blocks : middle.blocks = draft.blocks
  slots : middle.slots = draft.slots

end MethodDraft

/-- The instruction that a call adds to the code, and the block that it is added through. -/
def MethodCall.emitted? : MethodCall → Option (BlockId × Instruction)
  | .bindLabel block label => some (block, .mark label)
  | .append block instruction => some (block, instruction)
  | _ => none

namespace MethodDraft

variable {draft middle after : MethodDraft}

theorem emits_bindLabel {id : BlockId} {label : Label}
    (bound : bindLabel id label draft = .ok ⟨⟩ middle) :
    ∃ home, draft.blocks[id.index]? = some home ∧ draft.Emits middle home (.mark label) := by
  rcases bindLabel_cases draft id label with
    ⟨home, found, usable, unbound, result⟩ | ⟨cause, refused⟩
  · rw [result] at bound
    cases bound
    exact ⟨home, found, Array.mem_of_getElem? found, usable, rfl, rfl, rfl⟩
  · rw [refused] at bound
    cases bound

theorem emits_append {id : BlockId} {instruction : Instruction}
    (appended : append id instruction draft = .ok ⟨⟩ middle) :
    ∃ home, draft.blocks[id.index]? = some home ∧ draft.Emits middle home instruction := by
  rcases append_cases draft id instruction with
    ⟨label, rfl, same⟩ | ⟨home, found, usable, noMark, result⟩ | ⟨cause, refused⟩
  · rw [same] at appended
    exact emits_bindLabel appended
  · rw [result] at appended
    cases appended
    exact ⟨home, found, Array.mem_of_getElem? found, usable, rfl, rfl, rfl⟩
  · rw [refused] at appended
    cases appended

theorem emits_of_run {call : MethodCall} {id : BlockId} {instruction : Instruction}
    (emitted : call.emitted? = some (id, instruction)) (ran : call.run draft = .ok () middle) :
    ∃ home, draft.blocks[id.index]? = some home ∧ draft.Emits middle home instruction := by
  cases call with
  | bindLabel block label =>
      cases emitted
      exact emits_bindLabel ran
  | append block instruction =>
      cases emitted
      exact emits_append ran
  | _ => cases emitted

/-- While a block can be used, the blocks entered after it have been left. -/
theorem WellMarked.closed_of_behind_usable (wellMarked : draft.WellMarked) {home inner : Block}
    (usable : draft.slots.scopes.requireUsable home.slotScope = .ok ())
    (innerEntered : inner ∈ draft.blocks)
    (behind : home.slotScope.index < inner.slotScope.index) :
    draft.slots.scopes.isClosed inner.slotScope = true := by
  have lockstep := wellMarked.lockstep
  by_contra stillOpen
  rw [Bool.not_eq_true] at stillOpen
  have isOpen := (NestedScopes.requireOpen_eq_ok_iff _ _).mpr
    ⟨lockstep.known innerEntered, stillOpen⟩
  have onPath := wellMarked.recorded.singlePath.mem_path_of_usable lockstep.wellNested usable isOpen
  rcases List.mem_cons.mp onPath with same | around
  · rw [same] at behind
    exact Nat.lt_irrefl _ behind
  · have before := lockstep.wellNested.earlier_of_mem_enclosing around
    omega

/--
What is added through a block stays between its brackets, and outside those of the blocks inside it,
whatever is added and entered later.
-/
theorem Emits.between {home : Block} {instruction : Instruction}
    (emits : draft.Emits middle home instruction) (wellMarked : draft.WellMarked)
    (middleMarked : middle.WellMarked) (afterNested : after.slots.scopes.WellNested)
    (grows : middle.Grows after) :
    after.code[draft.code.size]? = some instruction ∧
    markPosition after.code home.start < draft.code.size ∧
    draft.code.size < markPosition after.code home.stop ∧
    ∀ inner ∈ after.blocks, home.slotScope ∈ after.slots.scopes.enclosing inner.slotScope →
      draft.code.size < markPosition after.code inner.start ∨
        markPosition after.code inner.stop < draft.code.size := by
  have size : middle.code.size = draft.code.size + 1 := by
    rw [emits.code, Array.size_push]
  have begins : draft.code.toList <+: after.code.toList := by
    apply List.IsPrefix.trans _ grows.code
    rw [emits.code, Array.toList_push]
    exact List.prefix_append _ _
  refine ⟨?_, ?_, ?_, ?_⟩
  · have there : draft.code.size < middle.code.toList.length := by
      rw [Array.length_toList, size]
      exact Nat.lt_succ_self _
    rw [← Array.getElem?_toList, List.prefix_iff_getElem?.mp grows.code _ there]
    simp [emits.code]
  · have started := wellMarked.blocksApart.started emits.entered
    rw [markPosition_longer begins started]
    exact markPosition_lt_size started
  · have isOpen := ((NestedScopes.requireUsable_eq_ok_iff _ _).mp emits.usable).2.1
    have unmarked : .mark home.stop ∉ middle.code := by
      apply middleMarked.labels.stop_not_mem
      · rw [emits.blocks]
        exact emits.entered
      · rw [emits.slots]
        exact isOpen
    have behind := size_le_markPosition_longer grows.code unmarked
    omega
  · intro inner innerEntered inside
    rcases grows.entered innerEntered with older | unmarked
    · right
      rw [emits.blocks] at older
      have closed := wellMarked.closed_of_behind_usable emits.usable older
        (afterNested.earlier_of_mem_enclosing inside)
      have stopped := (wellMarked.blocksApart.stopped older closed).1
      rw [markPosition_longer begins stopped]
      exact markPosition_lt_size stopped
    · left
      have behind := size_le_markPosition_longer grows.code unmarked
      omega

end MethodDraft

namespace MethodRun

/-- What a call of a run adds through a block stands between the brackets of the block in the end. -/
theorem emitted_between {handedOut middle : MethodDraft} {before rest : List MethodCall}
    {call : MethodCall} {id : BlockId} {instruction : Instruction} (isNew : handedOut.IsNew)
    (own : (MethodRun.mk handedOut []).passesOwnLabels (before ++ call :: rest) = true)
    (emitted : call.emitted? = some (id, instruction))
    (ran : call.run (ofCalls handedOut before).draft = .ok () middle) :
    let draft := (ofCalls handedOut (before ++ call :: rest)).draft
    let position := (ofCalls handedOut before).draft.code.size
    ∃ home, draft.blocks[id.index]? = some home ∧
      draft.code[position]? = some instruction ∧
      markPosition draft.code home.start < position ∧
      position < markPosition draft.code home.stop ∧
      ∀ inner ∈ draft.blocks, home.slotScope ∈ draft.slots.scopes.enclosing inner.slotScope →
        position < markPosition draft.code inner.start ∨
          markPosition draft.code inner.stop < position := by
  intro draft position
  rw [passesOwnLabels_append] at own
  rcases Bool.and_eq_true_iff.mp own with ⟨ownBefore, ownAfter⟩
  rcases Bool.and_eq_true_iff.mp ownAfter with ⟨ownCall, ownRest⟩
  have sound : (ofCalls handedOut before).Sound := .ofCalls isNew ownBefore
  have soundMiddle := sound.record ownCall
  have path := soundMiddle.path_foldl ownRest
  have atMiddle : ((ofCalls handedOut before).record call).draft = middle := by
    rw [record, ← MethodCall.state_run, ran, Outcome.state_ok]
  have atEnd : (rest.foldl record ((ofCalls handedOut before).record call)).draft = draft := by
    simp only [draft, ofCalls, List.foldl_append, List.foldl_cons]
  change MethodDraft.Path MethodDraft.MayPass _
    (rest.foldl record ((ofCalls handedOut before).record call)).draft at path
  rw [atMiddle, atEnd] at path
  have middleMarked := soundMiddle.wellMarked
  rw [atMiddle] at middleMarked
  have wellMarked := path.keeps MethodDraft.WellMarked MethodDraft.WellMarked.step middleMarked
  rcases MethodDraft.emits_of_run emitted ran with ⟨home, found, emits⟩
  refine ⟨home, ?_, emits.between sound.wellMarked middleMarked wellMarked.lockstep.wellNested
    (.path path middleMarked)⟩
  have entered : home ∈ draft.blocks := by
    apply path.retains.blocks
    rw [emits.blocks]
    exact emits.entered
  have foundThere := wellMarked.lockstep.found_of_mem entered
  rw [sound.wellMarked.lockstep.slotScope_eq found] at foundThere
  exact foundThere

end MethodRun

namespace MethodDraft

/--
The code of a finished method with a body begins and ends with the marks of the body, after every run
that passes its own labels. The marks of blocks bracket the code: each block is one pair, and one
pair is around another if the one block is around the other, and only then. What a call has added
through a block, be it an instruction or the mark of a label, stands between the marks of the block
and not between those of a block inside it.
-/
theorem code_bracketed_by_blocks {handedOut : MethodDraft} {calls : List MethodCall}
    {left : ClassDraft} {body : BlockId} (isNew : handedOut.IsNew)
    (own : (MethodRun.mk handedOut []).passesOwnLabels calls = true)
    (completed : (MethodRun.ofCalls handedOut calls).draft.complete = .ok () left)
    (started : (MethodRun.ofCalls handedOut calls).draft.body = some body) :
    let draft := (MethodRun.ofCalls handedOut calls).draft
    ∃ method outermost, left.methods = draft.owner.methods ++ [method] ∧
      draft.blocks[body.index]? = some outermost ∧
      method.code.head? = some (.mark outermost.start) ∧
      method.code.getLast? = some (.mark outermost.stop) ∧
      Bracketed (method.code.filterMap draft.edge?) ∧
      (∀ home ∈ draft.blocks,
        (method.code.filterMap draft.edge?).count (.opening home) = 1 ∧
        (method.code.filterMap draft.edge?).count (.closing home) = 1) ∧
      (∀ outer ∈ draft.blocks, ∀ inner ∈ draft.blocks,
        outer.slotScope ∈ draft.slots.scopes.enclosing inner.slotScope ↔
          method.position outer.start < method.position inner.start ∧
            method.position inner.stop < method.position outer.stop) ∧
      ∀ before call rest id instruction middle, calls = before ++ call :: rest →
        call.emitted? = some (id, instruction) →
        call.run (MethodRun.ofCalls handedOut before).draft = .ok () middle →
        let position := (MethodRun.ofCalls handedOut before).draft.code.size
        ∃ home, draft.blocks[id.index]? = some home ∧
          method.code[position]? = some instruction ∧
          method.position home.start < position ∧ position < method.position home.stop ∧
          ∀ inner ∈ draft.blocks, home.slotScope ∈ draft.slots.scopes.enclosing inner.slotScope →
            position < method.position inner.start ∨ method.position inner.stop < position := by
  intro draft
  have path : Path MayPass handedOut draft := MethodRun.Sound.path_foldl (.initial isNew) own
  have wellBracketed : draft.WellBracketed :=
    path.keeps WellBracketed WellBracketed.step (.ofIsNew isNew)
  have wellMarked := wellBracketed.wellMarked
  have withinBody : draft.WithinBody := (path.keeps (fun draft => draft.WithinBody ∧ draft.Lockstep)
    (fun step kept => ⟨kept.1.step step kept.2, kept.2.step step⟩)
    ⟨.ofIsNew isNew, .ofIsNew isNew⟩).1
  rcases closed_of_complete wellMarked.lockstep completed with ⟨methods, closed⟩
  rcases wellMarked.lockstep.body_found started with ⟨outermost, found, _⟩
  have first : draft.blocks[0]? = some outermost := by
    rw [(wellMarked.lockstep.started started).1] at found
    exact found
  refine ⟨draft.finished, outermost, methods, found, ?_, ?_, ?_, ?_, ?_, ?_⟩
  · rw [List.head?_eq_getElem?]
    exact (Array.getElem?_toList ..).trans (withinBody.first first)
  · have last := withinBody.last first (closed _ (Array.mem_of_getElem? found))
    rw [← Array.getLast?_toList] at last
    exact last
  · have noneOpen : draft.openBlocks = [] := by
      apply List.filter_eq_nil_iff.mpr
      intro home member
      simp [closed home (Array.mem_toList_iff.mp member)]
    have brackets := wellBracketed.brackets
    rw [noneOpen] at brackets
    exact brackets.bracketed
  · intro home entered
    constructor
    · exact wellBracketed.count_codeEdges ((mem_edges_iff _ _).mpr entered)
        (wellMarked.blocksApart.started entered)
    · exact wellBracketed.count_codeEdges ((mem_edges_iff _ _).mpr entered)
        (wellMarked.blocksApart.stopped entered (closed home entered)).1
  · intro outer outerEntered inner innerEntered
    exact wellMarked.mem_enclosing_iff closed outerEntered innerEntered
  · rintro before call rest id instruction middle rfl emitted ran
    rcases MethodRun.emitted_between isNew own emitted ran with ⟨home, homeFound, there, between⟩
    refine ⟨home, homeFound, ?_, between⟩
    rw [← Array.getElem?_toList] at there
    exact there

/-- The first label made in a body behind those at its ends. -/
def placedLabel : Label :=
  ⟨⟨2⟩, "label"⟩

/-- An inner block is entered; while it is open the body refuses an instruction. -/
def callsInInnerBlock : List MethodCall :=
  [.startBody, .createLabel ⟨0⟩ none, .enterBlock ⟨0⟩ none, .append ⟨0⟩ (.simple 2),
    .append ⟨1⟩ (.simple 1), .leaveBlock ⟨1⟩]

/-- When the inner block has been left, the label of the body is placed behind it. -/
def callsAroundInnerBlock : List MethodCall :=
  callsInInnerBlock ++ .bindLabel ⟨0⟩ placedLabel :: [.leaveBlock ⟨0⟩]

theorem label_placed_behind_inner_block :
    let draft := (MethodRun.ofCalls staticMethod callsAroundInnerBlock).draft
    ∃ (method : FinishedMethod) (outermost : Block), draft.blocks[0]? = some outermost ∧
      method.code.map Instruction.text = ["start:", "start1:", "op 0x01", "end1:", "label:", "end:"] ∧
      method.code.head? = some (.mark outermost.start) ∧
      method.code.getLast? = some (.mark outermost.stop) ∧
      Bracketed (method.code.filterMap draft.edge?) ∧
      ∃ home, draft.blocks[0]? = some home ∧ method.code[4]? = some (.mark placedLabel) ∧
        method.position home.start < 4 ∧ 4 < method.position home.stop := by
  intro draft
  have completed : Outcome.toExcept draft.complete = .ok () := by
    decide +kernel
  have code : (Outcome.state draft.complete).methods.getLast?.map
      (fun method => method.code.map Instruction.text) =
        some ["start:", "start1:", "op 0x01", "end1:", "label:", "end:"] := by
    decide +kernel
  have placed : Outcome.toExcept ((MethodCall.bindLabel ⟨0⟩ placedLabel).run
      (MethodRun.ofCalls staticMethod callsInInnerBlock).draft) = .ok () := by
    decide +kernel
  have size : (MethodRun.ofCalls staticMethod callsInInnerBlock).draft.code.size = 4 := by
    decide +kernel
  have own : (MethodRun.mk staticMethod []).passesOwnLabels callsAroundInnerBlock = true := by
    decide +kernel
  have started : draft.body = some ⟨0⟩ := by
    decide +kernel
  have isNew : staticMethod.IsNew := isNew_ofSignature _ _
  rcases code_bracketed_by_blocks isNew own (Outcome.eq_ok_of_toExcept completed) started with
    ⟨method, outermost, last, found, starts, ends, bracketed, _, _, between⟩
  rcases between callsInInnerBlock _ [.leaveBlock ⟨0⟩] _ _ _ rfl rfl
    (Outcome.eq_ok_of_toExcept placed) with ⟨home, homeFound, there, behindStart, beforeStop, _⟩
  rw [size] at there behindStart beforeStop
  rw [last, List.getLast?_concat] at code
  exact ⟨method, outermost, found, Option.some.inj code, starts, ends, bracketed, home, homeFound,
    there, behindStart, beforeStop⟩

end MethodDraft

end JvmEmit
