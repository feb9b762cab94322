import JvmEmit.Proofs.Method.Calls

/-!
# The labels of a draft

The label at the end of a block is made when the block is entered and gets its position when the
block is left. Until then it stands nowhere in the code, so whoever drives the draft does not know it
and cannot give it a position too early: the calls of a run pass labels that a call has made or that
the code shows.

`MethodDraft.MayPass` is the condition on labels that such runs keep to. It only speaks of the draft,
and so it can stand as the permission under which steps are taken.
-/

namespace JvmEmit

/-! ## Numbers of labels -/

namespace LabelId

theorem toNat_number_le (id : LabelId) : id.number.toNat ≤ id.index := by
  rw [number, UInt32.toNat_ofNat']
  exact Nat.mod_le _ _

/-- The first labels are numbered in the order in which they are made. -/
theorem toNat_number {id : LabelId} (inWord : id.index < UInt32.size) :
    id.number.toNat = id.index :=
  UInt32.toNat_ofNat_of_lt' inWord

example : number ⟨UInt32.size - 1⟩ = 4294967295 := by decide

example : number ⟨UInt32.size⟩ = 0 := by decide

end LabelId

namespace MethodDraft

variable {draft after : MethodDraft} {permitted : MethodDraft → Label → Prop}

/-- No more labels have been made than there are numbers for labels. -/
def FewLabels (draft : MethodDraft) : Prop :=
  draft.bound.size ≤ UInt32.size

/-- The label has been made, and does not wait for the end of an open block. -/
def MayPass (draft : MethodDraft) (label : Label) : Prop :=
  label.id.index < draft.bound.size ∧
    ∀ home ∈ draft.blocks, draft.slots.scopes.isClosed home.slotScope = false →
      label.id ≠ home.stop.id

/-! ## What steps do to labels and blocks -/

theorem size_withEnds (draft : MethodDraft) (scope : ScopeId) :
    (draft.withEnds scope).bound.size = draft.bound.size + 2 := by
  simp [withEnds, withLabel]

theorem nextStop_id (draft : MethodDraft) (scope : ScopeId) :
    (draft.nextStop scope).id = ⟨draft.bound.size + 1⟩ := by
  simp [nextStop, nextLabel, withLabel]

theorem Step.size_bound_le (step : Step permitted draft after) :
    draft.bound.size ≤ after.bound.size := by
  cases step with
  | issueName entered usable hint => exact Nat.le_refl _
  | takeName entered usable name => exact Nat.le_refl _
  | createLabel entered usable hint => simp [withLabel]
  | startBody unstarted usable => simp [withBody, beginning, marking, size_withEnds]
  | enterBlock entered usable slotsEntered namesEntered =>
      simp [beginning, marking, withNames, size_withEnds]
  | leaveBlock entered usable => simp [marking, withNames]
  | declare found accepted unnamed type => exact Nat.le_refl _
  | bindLabel entered usable unbound allowed => simp [marking]
  | append entered usable noMark allowed => exact Nat.le_refl _

/-- A block that a step enters comes last and has the label after next at its end. -/
theorem Step.block_cases (step : Step permitted draft after) {home : Block}
    (entered : home ∈ after.blocks) :
    home ∈ draft.blocks ∨
      after.blocks = draft.blocks.push home ∧ home.stop.id = ⟨draft.bound.size + 1⟩ ∧
        draft.bound.size + 1 < after.bound.size := by
  cases step with
  | startBody unstarted usable =>
      rcases Array.mem_push.mp entered with older | newest
      · exact .inl older
      · right
        rw [newest]
        exact ⟨rfl, nextStop_id draft _, by simp [withBody, beginning, marking, size_withEnds]⟩
  | enterBlock outerEntered usable slotsEntered namesEntered =>
      rcases Array.mem_push.mp entered with older | newest
      · exact .inl older
      · right
        rw [newest]
        exact ⟨rfl, nextStop_id draft _, by simp [beginning, marking, withNames, size_withEnds]⟩
  | issueName => exact .inl entered
  | takeName => exact .inl entered
  | createLabel => exact .inl entered
  | leaveBlock => exact .inl entered
  | declare => exact .inl entered
  | bindLabel => exact .inl entered
  | append => exact .inl entered

theorem Step.closed_stays (step : Step permitted draft after) (lockstep : draft.Lockstep)
    {scope : ScopeId} (closed : draft.slots.scopes.isClosed scope = true) :
    after.slots.scopes.isClosed scope = true := by
  cases step with
  | enterBlock entered usable slotsEntered namesEntered =>
      exact (NestedScopes.isClosed_of_enter slotsEntered scope).trans closed
  | leaveBlock entered usable =>
      apply (NestedScopes.isClosed_closedAt _ _ scope (lockstep.known entered)).trans
      rw [closed, Bool.or_true]
  | declare found accepted unnamed type =>
      exact (NestedScopes.isClosed_modifyPayload _ _ _ _).trans closed
  | issueName => exact closed
  | takeName => exact closed
  | createLabel => exact closed
  | startBody => exact closed
  | bindLabel => exact closed
  | append => exact closed

theorem MayPass.step {label : Label} (mayPass : draft.MayPass label)
    (step : Step permitted draft after) (lockstep : draft.Lockstep) : after.MayPass label := by
  refine ⟨Nat.lt_of_lt_of_le mayPass.1 step.size_bound_le, ?_⟩
  intro home entered stillOpen
  rcases step.block_cases entered with older | ⟨_, newest, _⟩
  · apply mayPass.2 home older
    apply Bool.eq_false_iff.mpr
    intro closed
    rw [step.closed_stays lockstep closed] at stillOpen
    cases stillOpen
  · intro same
    have known := mayPass.1
    rw [same, newest] at known
    exact absurd known (Nat.not_lt.mpr (Nat.le_succ _))

/-! ## The labels in the code -/

/-- The code shows only labels that may be passed, and the blocks have different end labels. -/
structure LabelsApart (draft : MethodDraft) : Prop where
  inCode : ∀ {instruction : Instruction} {label : Label}, instruction ∈ draft.code →
    instruction.label? = some label → draft.MayPass label
  stop_known : ∀ {home : Block}, home ∈ draft.blocks → home.stop.id.index < draft.bound.size
  stop_inj : ∀ {home other : Block}, home ∈ draft.blocks → other ∈ draft.blocks →
    home.stop.id = other.stop.id → home.slotScope = other.slotScope

namespace LabelsApart

theorem stop_not_mem (labels : draft.LabelsApart) {home : Block} (entered : home ∈ draft.blocks)
    (isOpen : draft.slots.scopes.isClosed home.slotScope = false) :
    .mark home.stop ∉ draft.code := by
  intro marked
  exact (labels.inCode marked rfl).2 home entered isOpen rfl

theorem next_not_mem (labels : draft.LabelsApart) (scope : ScopeId) (hint : Option String) :
    .mark (draft.nextLabel scope hint) ∉ draft.code := by
  intro marked
  exact Nat.lt_irrefl _ (labels.inCode marked rfl).1

theorem ofIsNew (isNew : draft.IsNew) : draft.LabelsApart := by
  rcases isNew.entered with ⟨owner, signature, nameScope, scopes, entered, rfl⟩
  constructor
  · intro instruction label member
    simp at member
  · intro home member
    simp at member
  · intro home other member
    simp at member

/-- A new label that no block keeps for its end may be passed. -/
theorem mayPass_next (labels : draft.LabelsApart) {label : Label}
    (isNext : label.id = ⟨draft.bound.size⟩) (step : Step permitted draft after)
    (grown : draft.bound.size < after.bound.size) : after.MayPass label := by
  rw [MayPass, isNext]
  refine ⟨grown, ?_⟩
  intro home entered _ same
  rcases step.block_cases entered with older | ⟨_, newest, _⟩
  · have known := labels.stop_known older
    rw [← same] at known
    exact Nat.lt_irrefl _ known
  · rw [newest, LabelId.mk.injEq] at same
    omega

theorem mayPass_stop (labels : draft.LabelsApart) (lockstep : draft.Lockstep) {closing : Block}
    (entered : closing ∈ draft.blocks) {code : Array Instruction} {owner : ClassDraft} :
    MayPass {
      draft.marking closing.stop with
      owner
      code
      slots := { draft.slots with scopes := draft.slots.scopes.closedAt closing.slotScope } }
      closing.stop := by
  refine ⟨?_, ?_⟩
  · simp only [marking, Array.size_setIfInBounds]
    exact labels.stop_known entered
  · intro home homeEntered stillOpen same
    have sameScope := labels.stop_inj entered homeEntered same
    change (draft.slots.scopes.closedAt closing.slotScope).isClosed home.slotScope = false
      at stillOpen
    rw [NestedScopes.isClosed_closedAt _ _ _ (lockstep.known entered), sameScope] at stillOpen
    simp at stillOpen

/-- Code that grows by one instruction shows what it showed before and what the instruction shows. -/
theorem mayPass_of_mem_push (labels : draft.LabelsApart) (lockstep : draft.Lockstep)
    (step : Step permitted draft after) {instruction newest : Instruction} {label : Label}
    (newestShows : ∀ label, newest.label? = some label → after.MayPass label)
    (member : instruction ∈ draft.code.push newest) (shown : instruction.label? = some label) :
    after.MayPass label := by
  rcases Array.mem_push.mp member with before | same
  · exact (labels.inCode before shown).step step lockstep
  · rw [same] at shown
    exact newestShows label shown

theorem step (step : Step MayPass draft after) (lockstep : draft.Lockstep)
    (labels : draft.LabelsApart) : after.LabelsApart := by
  have taken := step
  have older : ∀ {instruction : Instruction} {label : Label}, instruction ∈ draft.code →
      instruction.label? = some label → after.MayPass label := fun member shown =>
    (labels.inCode member shown).step step lockstep
  constructor
  · intro instruction label member shown
    cases step with
    | issueName => exact older member shown
    | takeName => exact older member shown
    | createLabel => exact older member shown
    | declare => exact older member shown
    | startBody unstarted usable =>
        apply labels.mayPass_of_mem_push lockstep taken _ member shown
        rintro _ ⟨⟩
        apply labels.mayPass_next rfl taken
        simp [withBody, beginning, marking, size_withEnds]
    | enterBlock entered usable slotsEntered namesEntered =>
        apply labels.mayPass_of_mem_push lockstep taken _ member shown
        rintro _ ⟨⟩
        apply labels.mayPass_next rfl taken
        simp [beginning, marking, withNames, size_withEnds]
    | leaveBlock entered usable =>
        apply labels.mayPass_of_mem_push lockstep taken _ member shown
        rintro _ ⟨⟩
        exact labels.mayPass_stop lockstep entered
    | bindLabel entered usable unbound allowed =>
        apply labels.mayPass_of_mem_push lockstep taken _ member shown
        rintro _ ⟨⟩
        exact allowed.step taken lockstep
    | append entered usable noMark allowed =>
        apply labels.mayPass_of_mem_push lockstep taken _ member shown
        intro label newest
        exact (allowed label newest).step taken lockstep
  · intro home entered
    rcases step.block_cases entered with before | ⟨_, newest, known⟩
    · exact Nat.lt_of_lt_of_le (labels.stop_known before) step.size_bound_le
    · rw [newest]
      exact known
  · intro home other homeEntered otherEntered same
    rcases step.block_cases homeEntered with homeOlder | ⟨homePushed, homeNewest, _⟩
    · rcases step.block_cases otherEntered with otherOlder | ⟨_, otherNewest, _⟩
      · exact labels.stop_inj homeOlder otherOlder same
      · have known := labels.stop_known homeOlder
        rw [same, otherNewest] at known
        exact absurd known (Nat.not_lt.mpr (Nat.le_succ _))
    · rcases step.block_cases otherEntered with otherOlder | ⟨otherPushed, _, _⟩
      · have known := labels.stop_known otherOlder
        rw [← same, homeNewest] at known
        exact absurd known (Nat.not_lt.mpr (Nat.le_succ _))
      · rw [homePushed, Array.push_eq_push] at otherPushed
        rw [otherPushed.1]

end LabelsApart

end MethodDraft

end JvmEmit
