import JvmEmit.Proofs.Method.CodeInBlocks

/-!
# Labels are placed at most once

A label gets a position in three ways: a call places it, or it begins a block that is entered, or it
ends a block that is left. Only the first way asks whether the label has a position already. The
other two need no check, because a start label has just been made, and nobody can get hold of the end
label of an open block.

Labels are told apart by the order in which they are made, and a run that passes its own labels passes
labels of this list only. The code marks each of them at most once, and the numbers of those that it
marks are exactly those that are noted as bound.

Numbers are 32-bit words. As long as there are no more labels than words, they count the labels and
have one label each, so what is noted for a number holds of its label, and whatever is known about the
place of a label in the code holds of the place of its number. One label more shares the number of the
first one, and counts as bound before it has a position.
-/

namespace JvmEmit

/-- An element is found by its image if no other element of the row has it. -/
theorem idxOf_map_of_unique {α β : Type} [BEq α] [LawfulBEq α] [BEq β] [LawfulBEq β]
    {image : α → β} {row : List α} {wanted : α}
    (unique : ∀ element ∈ row, image element = image wanted → element = wanted) :
    (row.map image).idxOf (image wanted) = row.idxOf wanted := by
  induction row with
  | nil => rfl
  | cons first row ih =>
      have later := ih fun element member => unique element (List.mem_cons_of_mem _ member)
      rw [List.map_cons, List.idxOf_cons, List.idxOf_cons, later]
      congr 1
      rw [Bool.eq_iff_iff, beq_iff_eq, beq_iff_eq]
      exact ⟨unique first List.mem_cons_self, congrArg image⟩

/-! ## The marks of code -/

/-- The label that an instruction gives a position. -/
def Instruction.marked? : Instruction → Option Label
  | .mark label => some label
  | _ => none

@[simp]
theorem Instruction.marked?_eq_some_iff {instruction : Instruction} {label : Label} :
    instruction.marked? = some label ↔ instruction = .mark label := by
  cases instruction <;> simp [marked?]

/-- The number of the label that an instruction gives a position. -/
def Instruction.markedNumber? (instruction : Instruction) : Option UInt32 :=
  instruction.marked?.map Label.number

namespace MethodDraft

variable {draft after : MethodDraft} {label : Label}

/-- The labels that have a position, in the order of the code. -/
def marked (draft : MethodDraft) : List Label :=
  draft.code.toList.filterMap Instruction.marked?

theorem mem_marked_iff : label ∈ draft.marked ↔ .mark label ∈ draft.code := by
  simp [marked]

theorem marked_of_push {instruction : Instruction}
    (code : after.code = draft.code.push instruction) :
    after.marked = draft.marked ++ instruction.marked?.toList := by
  cases isMark : instruction.marked? <;> simp [marked, code, isMark]

theorem MarkedOnce.nodup_marked (markedOnce : draft.MarkedOnce) : draft.marked.Nodup := by
  apply List.nodup_iff_count_le_one.mpr
  intro label
  have sameCount : draft.marked.count label = draft.code.count (.mark label) := by
    rw [marked, List.count, List.countP_filterMap, ← Array.count_toList, List.count]
    apply List.countP_congr
    intro instruction _
    cases instruction <;> simp [Instruction.marked?]
  rw [sameCount]
  exact markedOnce.once label

end MethodDraft

/-! ## What a call writes -/

/-- The labels that a call makes: the one that it answers, and those of the blocks that it enters. -/
def MethodCall.minted (call : MethodCall) (draft : MethodDraft) : List Label :=
  (call.made? draft).toList ++
    ((call.after draft).blocks.toList.drop draft.blocks.size).flatMap fun home =>
      [home.start, home.stop]

namespace MethodDraft

/--
What a call with a passed label does to the blocks, the labels and the code, and the labels that it
makes.
-/
inductive Writes (draft : MethodDraft) (passed : Option Label) :
    List Label → MethodDraft → Prop where
  | nothing {after : MethodDraft} (same : draft.SameCode after) : Writes draft passed [] after
  | label {after : MethodDraft} {label : Label} (isNext : label.id = ⟨draft.bound.size⟩)
      (blocks : after.blocks = draft.blocks) (bound : after.bound = draft.bound.push false)
      (code : after.code = draft.code) : Writes draft passed [label] after
  | start {after : MethodDraft} {home : Block} (start : home.start.id = ⟨draft.bound.size⟩)
      (stop : home.stop.id = ⟨draft.bound.size + 1⟩)
      (blocks : after.blocks = draft.blocks.push home)
      (bound : after.bound =
        ((draft.bound.push false).push false).setIfInBounds home.start.number.toNat true)
      (code : after.code = draft.code.push (.mark home.start)) :
      Writes draft passed [home.start, home.stop] after
  | stop {after : MethodDraft} {home : Block} (entered : home ∈ draft.blocks)
      (blocks : after.blocks = draft.blocks)
      (bound : after.bound = draft.bound.setIfInBounds home.stop.number.toNat true)
      (code : after.code = draft.code.push (.mark home.stop)) : Writes draft passed [] after
  | place {after : MethodDraft} {label : Label} (isPassed : passed = some label)
      (blocks : after.blocks = draft.blocks)
      (bound : after.bound = draft.bound.setIfInBounds label.number.toNat true)
      (code : after.code = draft.code.push (.mark label)) : Writes draft passed [] after
  | instruction {after : MethodDraft} {instruction : Instruction}
      (noMark : instruction.marked? = none) (shows : instruction.label? = passed)
      (blocks : after.blocks = draft.blocks) (bound : after.bound = draft.bound)
      (code : after.code = draft.code.push instruction) : Writes draft passed [] after

variable {draft after : MethodDraft} {call : MethodCall}

theorem minted_of_same (unmade : call.made? draft = none)
    (blocks : (call.after draft).blocks = draft.blocks) : call.minted draft = [] := by
  simp [MethodCall.minted, unmade, blocks, List.drop_of_length_le]

theorem minted_of_push (unmade : call.made? draft = none) {home : Block}
    (blocks : (call.after draft).blocks = draft.blocks.push home) :
    call.minted draft = [home.start, home.stop] := by
  simp [MethodCall.minted, unmade, blocks]

theorem Writes.blocks_eq {passed : Option Label}
    (writes : draft.Writes passed [] after) : after.blocks = draft.blocks := by
  cases writes with
  | nothing same => exact same.blocks
  | stop entered blocks bound code => exact blocks
  | place isPassed blocks bound code => exact blocks
  | instruction noMark shows blocks bound code => exact blocks

/-- A call that makes no label and enters no block. -/
theorem writes_of_unminted {passed : Option Label} (unmade : call.made? draft = none)
    (writes : draft.Writes passed [] (call.after draft)) :
    draft.Writes passed (call.minted draft) (call.after draft) := by
  rw [minted_of_same unmade writes.blocks_eq]
  exact writes

theorem writes_of_same {passed : Option Label} (unmade : call.made? draft = none)
    (same : draft.SameCode (call.after draft)) :
    draft.Writes passed (call.minted draft) (call.after draft) :=
  writes_of_unminted unmade (.nothing same)

theorem sameCode_of_refused {α : Type} {program : MethodM α} {cause : DraftError}
    (refused : program draft = .error cause draft) :
    draft.SameCode (Outcome.state (program draft)) := by
  rw [refused]
  exact .refl draft

theorem sameCode_issueName (draft : MethodDraft) (id : BlockId) (hint : Option String) :
    draft.SameCode (Outcome.state (issueName id hint draft)) := by
  rcases issueName_cases draft id hint with ⟨home, _, _, result⟩ | ⟨cause, refused⟩
  · rw [result]
    exact ⟨rfl, rfl, rfl, rfl⟩
  · exact sameCode_of_refused refused

theorem sameCode_addVariable (lockstep : draft.Lockstep) (id : BlockId) (type : JvmType)
    (name : Option String) :
    draft.SameCode (Outcome.state (addVariable id type name draft)) := by
  rcases addVariable_cases lockstep id type name with ⟨home, _, _, result⟩ | ⟨cause, refused⟩
  · rw [result]
    exact ⟨rfl, rfl, rfl, rfl⟩
  · exact sameCode_of_refused refused

theorem sameCode_addTemporary (lockstep : draft.Lockstep) (id : BlockId) (type : JvmType)
    (hint : Option String) :
    draft.SameCode (Outcome.state (addTemporary id type hint draft)) := by
  rcases addTemporary_split lockstep id type hint with
    ⟨name, named, issued, lockstepThere, result⟩ | ⟨cause, refused⟩
  · have first := sameCode_issueName draft id hint
    rw [issued] at first
    rw [result]
    exact first.trans (sameCode_addVariable lockstepThere id type _)
  · exact sameCode_of_refused refused

theorem writes_startBody (lockstep : draft.Lockstep) {passed : Option Label} :
    draft.Writes passed (MethodCall.startBody.minted draft) (MethodCall.startBody.after draft) := by
  cases started : draft.body with
  | some body => exact writes_of_same rfl (sameCode_of_refused (startBody_of_started started))
  | none =>
      rcases declares_startBody lockstep started with
        ⟨home, _, _, start, stop, blocks, declares⟩
      have same : draft.withBody.SameCode (MethodCall.startBody.after draft) :=
        sameCode_of_declares declares
      have entered := same.blocks.trans blocks
      rw [minted_of_push rfl entered]
      refine .start ?_ ?_ entered (same.bound.trans ?_) (same.code.trans ?_)
      · rw [start]
        rfl
      · rw [stop, nextStop_id]
      · rw [start]
        rfl
      · rw [start]
        rfl

theorem writes_enterBlock (lockstep : draft.Lockstep) (parent : BlockId) (label : Option String)
    {passed : Option Label} :
    draft.Writes passed ((MethodCall.enterBlock parent label).minted draft)
      ((MethodCall.enterBlock parent label).after draft) := by
  rcases usableBlock_cases parent draft with ⟨outer, found, usable, _⟩ | ⟨cause, refused⟩
  · rcases enterBlock_of_usable lockstep found usable label with
      ⟨slotScope, nameScope, slotScopes, nameScopes, _, _, result⟩
    have after : (MethodCall.enterBlock parent label).after draft =
        draft.entering outer slotScope nameScope slotScopes nameScopes := by
      rw [MethodCall.after, result, Outcome.state_ok]
    rw [minted_of_push rfl (congrArg MethodDraft.blocks after), after]
    exact .start rfl (nextStop_id draft _) rfl rfl rfl
  · exact writes_of_same rfl (sameCode_of_refused (enterBlock_of_refused refused label))

theorem writes_leaveBlock (lockstep : draft.Lockstep) (id : BlockId) {passed : Option Label} :
    draft.Writes passed ((MethodCall.leaveBlock id).minted draft)
      ((MethodCall.leaveBlock id).after draft) := by
  rcases leaveBlock_cases lockstep id with ⟨closing, found, _, result⟩ | same | ⟨cause, refused⟩
  · apply writes_of_unminted rfl
    rw [MethodCall.after, result]
    exact .stop (Array.mem_of_getElem? found) rfl rfl rfl
  · apply writes_of_same rfl
    rw [MethodCall.after, same]
    exact .refl draft
  · exact writes_of_same rfl (sameCode_of_refused refused)

theorem writes_createLabel (id : BlockId) (hint : Option String) {passed : Option Label} :
    draft.Writes passed ((MethodCall.createLabel id hint).minted draft)
      ((MethodCall.createLabel id hint).after draft) := by
  rcases createLabel_cases draft id hint with ⟨home, _, _, result⟩ | ⟨cause, refused⟩
  · have minted : (MethodCall.createLabel id hint).minted draft =
        [draft.nextLabel home.nameScope (some (hint.getD labelHint))] := by
      simp [MethodCall.minted, MethodCall.made?, MethodCall.after, result, withLabel, withNames,
        List.drop_of_length_le]
    rw [minted, MethodCall.after, result]
    exact .label rfl rfl rfl rfl
  · apply writes_of_same
    · rw [MethodCall.made?, refused]
    · exact sameCode_of_refused refused

theorem writes_bindLabel (id : BlockId) (label : Label) :
    draft.Writes (some label) [] (Outcome.state (bindLabel id label draft)) := by
  rcases bindLabel_cases draft id label with ⟨home, _, _, _, result⟩ | ⟨cause, refused⟩
  · rw [result]
    exact .place rfl rfl rfl rfl
  · exact .nothing (sameCode_of_refused refused)

theorem writes_append (id : BlockId) (instruction : Instruction) :
    draft.Writes instruction.label? [] (Outcome.state (append id instruction draft)) := by
  rcases append_cases draft id instruction with
    ⟨label, rfl, same⟩ | ⟨home, _, _, noMark, result⟩ | ⟨cause, refused⟩
  · rw [same]
    exact writes_bindLabel id label
  · rw [result]
    refine .instruction ?_ rfl rfl rfl rfl
    apply Option.eq_none_iff_forall_ne_some.mpr
    intro label isMark
    exact noMark label (Instruction.marked?_eq_some_iff.mp isMark)
  · exact .nothing (sameCode_of_refused refused)

theorem writes_after (lockstep : draft.Lockstep) (call : MethodCall) :
    draft.Writes call.passed? (call.minted draft) (call.after draft) := by
  cases call with
  | startBody => exact writes_startBody lockstep
  | enterBlock parent label => exact writes_enterBlock lockstep parent label
  | isBlockClosed id =>
      apply writes_of_same rfl
      rw [MethodCall.after, state_isBlockClosed]
      exact .refl draft
  | leaveBlock id => exact writes_leaveBlock lockstep id
  | addVariable id type name => exact writes_of_same rfl (sameCode_addVariable lockstep id type name)
  | addTemporary id type hint => exact writes_of_same rfl (sameCode_addTemporary lockstep id type hint)
  | issueName id hint => exact writes_of_same rfl (sameCode_issueName draft id hint)
  | takeName id name =>
      apply writes_of_same rfl
      rcases takeName_cases draft id name with ⟨home, _, _, result⟩ | ⟨cause, refused⟩
      · rw [MethodCall.after, result]
        exact ⟨rfl, rfl, rfl, rfl⟩
      · exact sameCode_of_refused refused
  | visibleVariable id name =>
      apply writes_of_same rfl
      rw [MethodCall.after, state_visibleVariable]
      exact .refl draft
  | createLabel id hint => exact writes_createLabel id hint
  | bindLabel id label => exact writes_of_unminted rfl (writes_bindLabel id label)
  | append id instruction => exact writes_of_unminted rfl (writes_append id instruction)

/-! ## What the calls keep -/

/--
The labels made so far have been made in order, all labels of the draft are among them, and for every
number that is noted as bound the code marks a label.
-/
structure Placed (draft : MethodDraft) (minted : List Label) : Prop where
  inTurn : minted.map (·.id.index) = List.range draft.bound.size
  inCode : ∀ instruction ∈ draft.code, ∀ label, instruction.label? = some label → label ∈ minted
  ends : ∀ home ∈ draft.blocks, home.start ∈ minted ∧ home.stop ∈ minted
  marked_of_bound : ∀ number : UInt32, draft.bound[number.toNat]? = some true →
    number ∈ draft.marked.map Label.number

namespace Placed

variable {minted newer : List Label}

theorem ofIsNew (isNew : draft.IsNew) : draft.Placed [] := by
  rcases isNew.entered with ⟨owner, signature, nameScope, scopes, entered, rfl⟩
  constructor <;> simp

theorem eq_of_id_eq (placed : draft.Placed minted) {label other : Label} (isLabel : label ∈ minted)
    (isOther : other ∈ minted) (same : label.id = other.id) : label = other := by
  have distinct : (minted.map (·.id.index)).Nodup := by
    rw [placed.inTurn]
    exact List.nodup_range
  exact List.inj_on_of_nodup_map distinct isLabel isOther (congrArg LabelId.index same)

/-- A flag that is set was set before, or has just been set. -/
theorem bound_cases {bound : Array Bool} {newest number : UInt32}
    (isBound : (bound.setIfInBounds newest.toNat true)[number.toNat]? = some true) :
    number = newest ∨ bound[number.toNat]? = some true := by
  rw [Array.getElem?_setIfInBounds] at isBound
  split at isBound
  · exact .inl (UInt32.toNat_inj.mp (by symm; assumption))
  · exact .inr isBound

theorem bound_of_push {bound : Array Bool} {index : Nat}
    (isBound : (bound.push false)[index]? = some true) : bound[index]? = some true := by
  rw [Array.getElem?_push] at isBound
  split at isBound
  · cases isBound
  · exact isBound

theorem inCode_of_push (placed : draft.Placed minted) {instruction : Instruction}
    (code : after.code = draft.code.push instruction)
    (shows : ∀ label, instruction.label? = some label → label ∈ minted ++ newer) :
    ∀ other ∈ after.code, ∀ label, other.label? = some label → label ∈ minted ++ newer := by
  intro other member label shown
  rw [code] at member
  rcases Array.mem_push.mp member with before | rfl
  · exact List.mem_append_left _ (placed.inCode other before label shown)
  · exact shows label shown

theorem ends_append (placed : draft.Placed minted) (newer : List Label) :
    ∀ home ∈ draft.blocks, home.start ∈ minted ++ newer ∧ home.stop ∈ minted ++ newer := by
  intro home entered
  have ends := placed.ends home entered
  exact ⟨List.mem_append_left _ ends.1, List.mem_append_left _ ends.2⟩

/-- A mark at the end of the code gives its label a position, and the label is one of those made. -/
theorem mark (placed : draft.Placed minted) {label : Label} {bound : Array Bool}
    (isMinted : label ∈ minted ++ newer)
    (inTurn : (minted ++ newer).map (·.id.index) = List.range bound.size)
    (ends : ∀ home ∈ after.blocks, home.start ∈ minted ++ newer ∧ home.stop ∈ minted ++ newer)
    (isBound : after.bound = bound.setIfInBounds label.number.toNat true)
    (older : ∀ index : Nat, bound[index]? = some true → draft.bound[index]? = some true)
    (code : after.code = draft.code.push (.mark label)) : after.Placed (minted ++ newer) := by
  constructor
  · simp [isBound, inTurn]
  · apply placed.inCode_of_push code
    rintro _ ⟨⟩
    exact isMinted
  · exact ends
  · intro number given
    rw [isBound] at given
    rw [marked_of_push code]
    rcases bound_cases given with rfl | before
    · simp [Instruction.marked?]
    · have marked := placed.marked_of_bound number (older _ before)
      simp only [List.map_append, List.mem_append]
      exact .inl marked

theorem step (placed : draft.Placed minted) {passed : Option Label}
    (writes : draft.Writes passed newer after)
    (own : ∀ label, passed = some label → label ∈ minted) : after.Placed (minted ++ newer) := by
  have inTurn := placed.inTurn
  cases writes with
  | nothing same =>
      rw [List.append_nil]
      rcases same with ⟨blocks, _, bound, code⟩
      have sameMarked : after.marked = draft.marked := by simp only [marked, code]
      rcases placed with ⟨_, inCode, ends, isMarked⟩
      simp only [← blocks, ← bound, ← code, ← sameMarked] at inTurn inCode ends isMarked
      exact ⟨inTurn, inCode, ends, isMarked⟩
  | label isNext blocks bound code =>
      constructor
      · simp [bound, inTurn, isNext, List.range_succ]
      · rw [code]
        intro instruction member label shown
        exact List.mem_append_left _ (placed.inCode instruction member label shown)
      · rw [blocks]
        exact placed.ends_append _
      · rw [bound, marked, code]
        intro number given
        exact placed.marked_of_bound number (bound_of_push given)
  | start start stop blocks bound code =>
      apply placed.mark _ _ _ bound _ code
      · simp
      · simp [inTurn, start, stop, List.range_succ]
      · rw [blocks]
        intro other member
        rcases Array.mem_push.mp member with older | rfl
        · exact placed.ends_append _ other older
        · simp
      · intro index given
        exact bound_of_push (bound_of_push given)
  | stop entered blocks bound code =>
      apply placed.mark _ _ _ bound _ code
      · exact (placed.ends_append [] _ entered).2
      · simp [inTurn]
      · rw [blocks]
        exact placed.ends_append []
      · exact fun _ given => given
  | place isPassed blocks bound code =>
      apply placed.mark _ _ _ bound _ code
      · simpa using own _ isPassed
      · simp [inTurn]
      · rw [blocks]
        exact placed.ends_append []
      · exact fun _ given => given
  | instruction noMark shows blocks bound code =>
      constructor
      · simp [bound, inTurn]
      · apply placed.inCode_of_push code
        intro label shown
        simpa using own label (shows.symm.trans shown)
      · rw [blocks]
        exact placed.ends_append []
      · rw [bound, marked_of_push code, noMark]
        simpa using placed.marked_of_bound

theorem isBound_iff (placed : draft.Placed minted) (markedOnce : draft.MarkedOnce) (label : Label) :
    draft.isBound label = true ↔ label.number ∈ draft.marked.map Label.number := by
  constructor
  · intro bound
    apply placed.marked_of_bound
    cases known : draft.bound[label.number.toNat]? <;> simp_all [isBound]
  · intro member
    rcases List.mem_map.mp member with ⟨other, isMarked, same⟩
    have bound := markedOnce.bound (mem_marked_iff.mp isMarked)
    rwa [isBound, same] at bound

/-! ### Few labels -/

theorem toNat_number (placed : draft.Placed minted) (few : draft.FewLabels) {label : Label}
    (isMinted : label ∈ minted) : label.number.toNat = label.id.index := by
  have listed : label.id.index ∈ List.range draft.bound.size := by
    rw [← placed.inTurn]
    exact List.mem_map_of_mem isMinted
  exact LabelId.toNat_number (Nat.lt_of_lt_of_le (List.mem_range.mp listed) few)

theorem numbers (placed : draft.Placed minted) (few : draft.FewLabels) :
    minted.map (·.number.toNat) = List.range draft.bound.size := by
  rw [← placed.inTurn]
  exact List.map_congr_left fun _ => placed.toNat_number few

theorem eq_of_number_eq (placed : draft.Placed minted) (few : draft.FewLabels) {label other : Label}
    (isLabel : label ∈ minted) (isOther : other ∈ minted) (same : label.number = other.number) :
    label = other := by
  apply placed.eq_of_id_eq isLabel isOther
  apply congrArg LabelId.mk
  rw [← placed.toNat_number few isLabel, same, placed.toNat_number few isOther]

/-- The labels made have different numbers, so a number with a position has it under their name. -/
theorem number_mem_marked_iff (placed : draft.Placed minted) (few : draft.FewLabels) {label : Label}
    (isMinted : label ∈ minted) :
    label.number ∈ draft.marked.map Label.number ↔ label ∈ draft.marked := by
  constructor
  · intro member
    rcases List.mem_map.mp member with ⟨other, isMarked, same⟩
    have otherMinted := placed.inCode _ (mem_marked_iff.mp isMarked) other rfl
    rwa [placed.eq_of_number_eq few isMinted otherMinted same.symm]
  · exact List.mem_map_of_mem

theorem nodup_numbers (placed : draft.Placed minted) (few : draft.FewLabels)
    (markedOnce : draft.MarkedOnce) : (draft.marked.map Label.number).Nodup := by
  apply List.Nodup.map_on _ markedOnce.nodup_marked
  intro label isMarked other otherMarked same
  have isMinted := placed.inCode _ (mem_marked_iff.mp isMarked) label rfl
  have otherMinted := placed.inCode _ (mem_marked_iff.mp otherMarked) other rfl
  exact placed.eq_of_number_eq few isMinted otherMinted same

/-- The first mark with the number of a label is the first mark of the label. -/
theorem markPosition_eq (placed : draft.Placed minted) (few : draft.FewLabels) {label : Label}
    (isMinted : label ∈ minted) :
    markPosition draft.code label =
      (draft.code.toList.map Instruction.markedNumber?).idxOf (some label.number) := by
  have unique : ∀ instruction ∈ draft.code.toList,
      instruction.markedNumber? = (Instruction.mark label).markedNumber? →
        instruction = .mark label := by
    intro instruction member same
    rcases Option.map_eq_some_iff.mp same with ⟨other, isMark, sameNumber⟩
    rw [Instruction.marked?_eq_some_iff] at isMark
    subst isMark
    have otherMinted := placed.inCode _ (Array.mem_toList_iff.mp member) other rfl
    rw [placed.eq_of_number_eq few otherMinted isMinted sameNumber]
  exact (idxOf_map_of_unique unique).symm

end Placed

/-- A call that gives a label a position fails if the label has one, and only then. -/
theorem run_of_mark {id : BlockId} {home : Block} {label : Label}
    (found : draft.blocks[id.index]? = some home)
    (usable : draft.slots.scopes.requireUsable home.slotScope = .ok ())
    (emitted : call.emitted? = some (id, .mark label)) :
    call.run draft =
      if draft.isBound label then .error (.labelBound label.name) draft
      else .ok () (draft.marking label) := by
  have bind : call.run draft = bindLabel id label draft := by
    cases call with
    | bindLabel block given =>
        cases emitted
        rfl
    | append block instruction =>
        cases emitted
        rfl
    | _ => cases emitted
  rw [bind]
  split
  · exact bindLabel_of_bound found usable (by assumption)
  · exact bindLabel_of_usable found usable (by simpa using ‹¬draft.isBound label = true›)

end MethodDraft

/-! ## Runs -/

namespace MethodRun

/-- The labels that the calls of a run make, in the order in which they are made. -/
def minted : MethodRun → List MethodCall → List Label
  | _, [] => []
  | run, call :: rest => call.minted run.draft ++ (run.record call).minted rest

/-- All labels that are known to the run are among those made so far. -/
structure Mints (run : MethodRun) (minted : List Label) : Prop where
  placed : run.draft.Placed minted
  made : ∀ label ∈ run.labels, label ∈ minted

namespace Mints

variable {run : MethodRun} {minted : List Label}

theorem mem_of_knows (mints : run.Mints minted) {label : Label} (known : run.knows label = true) :
    label ∈ minted := by
  rcases Bool.or_eq_true_iff.mp known with made | shown
  · exact mints.made label (List.contains_iff_mem.mp made)
  · rcases Array.any_eq_true'.mp shown with ⟨instruction, member, same⟩
    exact mints.placed.inCode instruction member label (beq_iff_eq.mp same)

theorem record (mints : run.Mints minted) (lockstep : run.draft.Lockstep) {call : MethodCall}
    (own : call.passed?.all run.knows = true) :
    (run.record call).Mints (minted ++ call.minted run.draft) := by
  constructor
  · apply mints.placed.step (MethodDraft.writes_after lockstep call)
    intro label passed
    rw [passed] at own
    exact mints.mem_of_knows own
  · intro label member
    rcases List.mem_append.mp member with newest | older
    · exact List.mem_append_right _ (List.mem_append_left _ newest)
    · exact List.mem_append_left _ (mints.made label older)

theorem foldl (mints : run.Mints minted) (sound : run.Sound) {calls : List MethodCall}
    (own : run.passesOwnLabels calls = true) :
    (calls.foldl MethodRun.record run).Mints (minted ++ run.minted calls) := by
  induction calls generalizing run minted with
  | nil => simpa [MethodRun.minted] using mints
  | cons call calls ih =>
      rcases Bool.and_eq_true_iff.mp own with ⟨first, rest⟩
      have next := ih (mints.record sound.wellMarked.lockstep first) (sound.record first) rest
      rwa [List.append_assoc] at next

theorem ofCalls {handedOut : MethodDraft} {calls : List MethodCall} (isNew : handedOut.IsNew)
    (own : (MethodRun.mk handedOut []).passesOwnLabels calls = true) :
    (MethodRun.ofCalls handedOut calls).Mints ((MethodRun.mk handedOut []).minted calls) := by
  have initial : (MethodRun.mk handedOut []).Mints [] := ⟨.ofIsNew isNew, by simp⟩
  exact initial.foldl (.initial isNew) own

end Mints

end MethodRun

namespace MethodDraft

/--
As long as a run makes no more labels than there are numbers, its labels are told apart by number, and
the place of a label in the code is that of the first mark with its number.
-/
theorem labels_found_by_number {handedOut : MethodDraft} {calls : List MethodCall}
    (isNew : handedOut.IsNew)
    (own : (MethodRun.mk handedOut []).passesOwnLabels calls = true)
    (few : (MethodRun.ofCalls handedOut calls).draft.FewLabels) :
    let code := (MethodRun.ofCalls handedOut calls).draft.code
    let minted := (MethodRun.mk handedOut []).minted calls
    (∀ label ∈ minted, ∀ other ∈ minted, label.number = other.number → label = other) ∧
    ∀ label ∈ minted, markPosition code label =
      (code.toList.map Instruction.markedNumber?).idxOf (some label.number) := by
  intro code minted
  have placed := (MethodRun.Mints.ofCalls isNew own).placed
  constructor
  · intro label isLabel other isOther same
    exact placed.eq_of_number_eq few isLabel isOther same
  · intro label isMinted
    exact placed.markPosition_eq few isMinted

/--
After every run that passes its own labels and makes no more of them than there are numbers, the code
marks each number at most once, and those that it marks are noted as bound. The labels that the run
has made are numbered in order, and they are all that the run knows or the blocks have. The start of
every block is marked, and its end exactly if the block has been left. So a call that places a label in
a usable block fails exactly if the code marks the label, and a block that is left gives a position to
a label without one.
-/
theorem labels_placed_at_most_once {handedOut : MethodDraft} {calls : List MethodCall}
    (isNew : handedOut.IsNew)
    (own : (MethodRun.mk handedOut []).passesOwnLabels calls = true)
    (few : (MethodRun.ofCalls handedOut calls).draft.FewLabels) :
    let run := MethodRun.ofCalls handedOut calls
    let draft := run.draft
    let minted := (MethodRun.mk handedOut []).minted calls
    (draft.marked.map Label.number).Nodup ∧
    (∀ label, draft.isBound label = true ↔ label.number ∈ draft.marked.map Label.number) ∧
    minted.map (·.number.toNat) = List.range draft.bound.size ∧
    (∀ label, run.knows label = true → label ∈ minted) ∧
    (∀ home ∈ draft.blocks, home.start ∈ minted ∧ home.stop ∈ minted ∧ home.start ∈ draft.marked ∧
      (home.stop ∈ draft.marked ↔ draft.slots.scopes.isClosed home.slotScope = true)) ∧
    (∀ call id label home, MethodCall.emitted? call = some (id, .mark label) →
      run.knows label = true → draft.blocks[id.index]? = some home →
      draft.slots.scopes.requireUsable home.slotScope = .ok () →
      call.run draft =
        if label ∈ draft.marked then .error (.labelBound label.name) draft
        else .ok () (draft.marking label)) ∧
    ∀ id after, leaveBlock id draft = .ok true after →
      ∃ home, draft.blocks[id.index]? = some home ∧
        after.code = draft.code.push (.mark home.stop) ∧
        home.stop.number ∉ draft.marked.map Label.number := by
  intro run draft minted
  have mints : run.Mints minted := .ofCalls isNew own
  have placed := mints.placed
  have path : Path MayPass handedOut draft := MethodRun.Sound.path_foldl (.initial isNew) own
  have wellBracketed : draft.WellBracketed :=
    path.keeps WellBracketed WellBracketed.step (.ofIsNew isNew)
  rcases wellBracketed with ⟨⟨lockstep, _, labels, blocksApart⟩, markedOnce, _⟩
  have isBound_iff := placed.isBound_iff markedOnce
  refine ⟨placed.nodup_numbers few markedOnce, isBound_iff, placed.numbers few, ?_, ?_, ?_, ?_⟩
  · exact fun label => mints.mem_of_knows
  · intro home entered
    have ends := placed.ends home entered
    refine ⟨ends.1, ends.2, mem_marked_iff.mpr (blocksApart.started entered), ?_, ?_⟩
    · intro isMarked
      by_contra stillOpen
      rw [Bool.not_eq_true] at stillOpen
      exact labels.stop_not_mem entered stillOpen (mem_marked_iff.mp isMarked)
    · intro closed
      exact mem_marked_iff.mpr (blocksApart.stopped entered closed).1
  · intro call id label home emitted known found usable
    have same := (isBound_iff label).trans
      (placed.number_mem_marked_iff few (mints.mem_of_knows known))
    rw [run_of_mark found usable emitted]
    exact if_congr same rfl rfl
  · intro id after left
    rcases leaveBlock_cases lockstep id with ⟨home, found, usable, result⟩ | idle | ⟨_, refused⟩
    · have entered := Array.mem_of_getElem? found
      have isOpen := ((NestedScopes.requireUsable_eq_ok_iff _ _).mp usable).2.1
      rw [result] at left
      cases left
      refine ⟨home, found, rfl, ?_⟩
      rw [placed.number_mem_marked_iff few (placed.ends home entered).2, mem_marked_iff]
      exact labels.stop_not_mem entered isOpen
    · rw [idle] at left
      cases left
    · rw [refused] at left
      cases left

/-- A label is placed in the body and is the target of a branch in an inner block. -/
def placingCalls : List MethodCall :=
  [.startBody, .createLabel ⟨0⟩ none, .bindLabel ⟨0⟩ placedLabel, .enterBlock ⟨0⟩ none,
    .append ⟨1⟩ (.branch 0xa7 placedLabel), .leaveBlock ⟨1⟩]

/-- Five labels are made, of which all but the end of the body are marked, each once. -/
theorem label_placed_before_inner_block :
    staticMethod.IsNew ∧ (MethodRun.mk staticMethod []).passesOwnLabels placingCalls = true ∧
      let draft := (MethodRun.ofCalls staticMethod placingCalls).draft
      draft.FewLabels ∧
      ((MethodRun.mk staticMethod []).minted placingCalls).map (fun label =>
        (label.number.toNat, label.name)) =
          [(0, "start"), (1, "end"), (2, "label"), (3, "start1"), (4, "end1")] ∧
      draft.marked.map (·.name) = ["start", "label", "start1", "end1"] ∧
      (draft.marked.map Label.number).Nodup ∧
      (MethodCall.append ⟨0⟩ (.mark placedLabel)).run draft = .error (.labelBound "label") draft := by
  have isNew : staticMethod.IsNew := isNew_ofSignature _ _
  have own : (MethodRun.mk staticMethod []).passesOwnLabels placingCalls = true := by
    decide +kernel
  refine ⟨isNew, own, ?_⟩
  intro draft
  have few : draft.FewLabels := by
    change draft.bound.size ≤ UInt32.size
    decide +kernel
  have labels : ((MethodRun.mk staticMethod []).minted placingCalls).map (fun label =>
      (label.number.toNat, label.name)) =
        [(0, "start"), (1, "end"), (2, "label"), (3, "start1"), (4, "end1")] := by
    decide +kernel
  have markedNames : draft.marked.map (·.name) = ["start", "label", "start1", "end1"] := by
    decide +kernel
  have isMarked : placedLabel ∈ draft.marked := by
    decide +kernel
  have known : (MethodRun.ofCalls staticMethod placingCalls).knows placedLabel = true := by
    decide +kernel
  have found : draft.blocks[(BlockId.mk 0).index]? =
      some ⟨.root, ⟨1⟩, ⟨⟨0⟩, "start"⟩, ⟨⟨1⟩, "end"⟩⟩ := by
    decide +kernel
  have usable : draft.slots.scopes.requireUsable .root = .ok () := by
    decide +kernel
  rcases labels_placed_at_most_once isNew own few with ⟨distinct, _, _, _, _, placing, _⟩
  have placed := placing (.append ⟨0⟩ (.mark placedLabel)) ⟨0⟩ placedLabel _ rfl known found usable
  rw [if_pos isMarked] at placed
  exact ⟨few, labels, markedNames, distinct, placed⟩

end MethodDraft

end JvmEmit
