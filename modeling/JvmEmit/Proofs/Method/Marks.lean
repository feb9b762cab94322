import JvmEmit.Proofs.Method.OwnLabels

/-!
# Marks

A mark gives its label a position. As long as only labels are passed that may be, a label that the
code marks counts as bound, so no label is marked twice. The labels at the ends of blocks are all
different, and code that grows neither moves a mark nor puts one before its end.
-/

namespace JvmEmit

section Position

variable {code longer : Array Instruction} {label : Label}

theorem markPosition_longer (begins : code.toList <+: longer.toList)
    (marked : .mark label ∈ code) : markPosition longer label = markPosition code label := by
  rcases begins with ⟨rest, same⟩
  rw [markPosition, ← same, List.idxOf_append_of_mem (Array.mem_toList_iff.mpr marked)]
  rfl

theorem size_le_markPosition_longer (begins : code.toList <+: longer.toList)
    (unmarked : .mark label ∉ code) : code.size ≤ markPosition longer label := by
  have absent : .mark label ∉ code.toList := fun member =>
    unmarked (Array.mem_toList_iff.mp member)
  rcases begins with ⟨rest, same⟩
  rw [markPosition, ← same, List.idxOf_append_of_notMem absent, ← Array.length_toList]
  exact Nat.le_add_right _ _

end Position

namespace MethodDraft

variable {draft after : MethodDraft} {label : Label}

/-! ## No label is marked twice -/

theorem isBound_marking (known : label.id.index < draft.bound.size) (other : Label) :
    (draft.marking label).isBound other =
      (decide (label.number = other.number) || draft.isBound other) := by
  have flagged : label.number.toNat < draft.bound.size :=
    Nat.lt_of_le_of_lt label.id.toNat_number_le known
  rw [isBound, marking, Array.getElem?_setIfInBounds]
  by_cases same : label.number = other.number
  · simp [same, same ▸ flagged]
  · have apart : label.number.toNat ≠ other.number.toNat := fun equal =>
      same (UInt32.toNat_inj.mp equal)
    simp [same, apart, isBound]

theorem isBound_withLabel (draft : MethodDraft) (scope : ScopeId) (hint : Option String)
    (other : Label) : (draft.withLabel scope hint).isBound other = draft.isBound other := by
  rw [isBound, withLabel, Array.getElem?_push]
  split
  · rename_i newest
    rw [isBound, newest, Array.getElem?_eq_none (Nat.le_refl _)]
    rfl
  · rfl

/-- A label that the code marks counts as bound, and is marked once. -/
structure MarkedOnce (draft : MethodDraft) : Prop where
  bound : ∀ {label : Label}, .mark label ∈ draft.code → draft.isBound label = true
  once : ∀ label, draft.code.count (.mark label) ≤ 1

namespace MarkedOnce

theorem ofIsNew (isNew : draft.IsNew) : draft.MarkedOnce := by
  rcases isNew.entered with ⟨owner, signature, nameScope, scopes, entered, rfl⟩
  constructor
  · intro label member
    simp at member
  · intro label
    exact Nat.zero_le 1

theorem unchanged (markedOnce : draft.MarkedOnce) (code : after.code = draft.code)
    (isBound : ∀ label, after.isBound label = draft.isBound label) : after.MarkedOnce := by
  constructor
  · intro label marked
    rw [code] at marked
    rw [isBound]
    exact markedOnce.bound marked
  · rw [code]
    exact markedOnce.once

/-- The names and the variables do not matter. -/
theorem recast (markedOnce : draft.MarkedOnce) (names : NameSupply) (slots : SlotTable JvmType) :
    ({ draft with slots }.withNames names).MarkedOnce :=
  ⟨markedOnce.bound, markedOnce.once⟩

theorem withLabel (markedOnce : draft.MarkedOnce) (scope : ScopeId) (hint : Option String) :
    (draft.withLabel scope hint).MarkedOnce :=
  markedOnce.unchanged rfl (draft.isBound_withLabel scope hint)

theorem withEnds (markedOnce : draft.MarkedOnce) (scope : ScopeId) :
    (draft.withEnds scope).MarkedOnce :=
  (markedOnce.withLabel scope _).withLabel scope _

theorem marking (markedOnce : draft.MarkedOnce) (known : label.id.index < draft.bound.size)
    (unmarked : .mark label ∉ draft.code) : (draft.marking label).MarkedOnce := by
  constructor
  · intro other marked
    rw [isBound_marking known, Bool.or_eq_true, decide_eq_true_iff]
    rcases Array.mem_push.mp marked with before | same
    · exact .inr (markedOnce.bound before)
    · cases same
      exact .inl rfl
  · intro other
    change (draft.code.push (.mark label)).count (.mark other) ≤ 1
    rw [Array.count_push]
    by_cases same : label = other
    · rw [← same, Array.count_eq_zero.mpr unmarked]
      simp
    · simpa [same] using markedOnce.once other

/-- A block that is entered begins with the mark of its start. -/
theorem beginning (markedOnce : draft.MarkedOnce) {entered : Block}
    (known : entered.start.id.index < draft.bound.size)
    (unmarked : .mark entered.start ∉ draft.code) : (draft.beginning entered).MarkedOnce := by
  have added : MarkedOnce { draft with blocks := draft.blocks.push entered } :=
    markedOnce.unchanged rfl fun _ => rfl
  exact added.marking known unmarked

theorem append (markedOnce : draft.MarkedOnce) {instruction : Instruction}
    (noMark : ∀ label, instruction ≠ .mark label) :
    MarkedOnce { draft with code := draft.code.push instruction } := by
  constructor
  · intro label marked
    rcases Array.mem_push.mp marked with before | same
    · exact markedOnce.bound before
    · exact absurd same.symm (noMark label)
  · intro label
    dsimp only
    rw [Array.count_push]
    simpa [noMark label] using markedOnce.once label

theorem step (step : Step MayPass draft after) (labels : draft.LabelsApart)
    (markedOnce : draft.MarkedOnce) : after.MarkedOnce := by
  cases step with
  | issueName entered usable hint => exact markedOnce.unchanged rfl fun _ => rfl
  | takeName entered usable name => exact markedOnce.unchanged rfl fun _ => rfl
  | createLabel entered usable hint => exact markedOnce.withLabel _ hint
  | declare found accepted unnamed type => exact markedOnce.unchanged rfl fun _ => rfl
  | startBody unstarted usable =>
      have ends := markedOnce.withEnds draft.nameScope
      refine (ends.beginning ?_ ?_).unchanged rfl fun _ => rfl
      · simp [size_withEnds, nextLabel]
      · exact labels.next_not_mem _ _
  | @enterBlock outer _ _ _ _ _ entered usable slotsEntered namesEntered =>
      have ends := markedOnce.withEnds outer.nameScope
      apply MarkedOnce.beginning
      · exact ends.recast _ _
      · simp [withNames, size_withEnds, nextLabel]
      · exact labels.next_not_mem _ _
  | leaveBlock entered usable =>
      have isOpen := ((NestedScopes.requireUsable_eq_ok_iff _ _).mp usable).2.1
      have left := markedOnce.marking (labels.stop_known entered) (labels.stop_not_mem entered isOpen)
      exact left.unchanged rfl fun _ => rfl
  | bindLabel entered usable unbound allowed =>
      apply markedOnce.marking allowed.1
      intro marked
      rw [markedOnce.bound marked] at unbound
      cases unbound
  | append entered usable noMark allowed => exact markedOnce.append noMark

end MarkedOnce

/-! ## The labels of blocks -/

theorem LabelsApart.nextStop_not_mem (labels : draft.LabelsApart) (scope : ScopeId) :
    .mark (draft.nextStop scope) ∉ draft.code := by
  intro marked
  have known := (labels.inCode marked rfl).1
  rw [nextStop_id] at known
  exact absurd known (Nat.not_lt.mpr (Nat.le_succ _))

namespace WellMarked

variable {home other : Block}

theorem eq_of_start_eq (wellMarked : draft.WellMarked) (homeEntered : home ∈ draft.blocks)
    (otherEntered : other ∈ draft.blocks) (same : home.start = other.start) : home = other := by
  apply wellMarked.lockstep.eq_of_slotScope_eq homeEntered otherEntered
  apply congrArg ScopeId.mk
  rcases Nat.lt_trichotomy home.slotScope.index other.slotScope.index with before | equal | behind
  · have ordered := wellMarked.blocksApart.ordered homeEntered otherEntered before
    rw [same] at ordered
    exact absurd ordered (Nat.lt_irrefl _)
  · exact equal
  · have ordered := wellMarked.blocksApart.ordered otherEntered homeEntered behind
    rw [same] at ordered
    exact absurd ordered (Nat.lt_irrefl _)

theorem eq_of_stop_eq (wellMarked : draft.WellMarked) (homeEntered : home ∈ draft.blocks)
    (otherEntered : other ∈ draft.blocks) (same : home.stop = other.stop) : home = other := by
  apply wellMarked.lockstep.eq_of_slotScope_eq homeEntered otherEntered
  exact wellMarked.labels.stop_inj homeEntered otherEntered (congrArg Label.id same)

/-- The end of an open block has no mark, and that of a closed one another place than any start. -/
theorem start_ne_stop (wellMarked : draft.WellMarked) (homeEntered : home ∈ draft.blocks)
    (otherEntered : other ∈ draft.blocks) : home.start ≠ other.stop := by
  rcases wellMarked with ⟨lockstep, recorded, labels, blocksApart⟩
  intro same
  cases closed : draft.slots.scopes.isClosed other.slotScope with
  | false =>
      apply labels.stop_not_mem otherEntered closed
      rw [← same]
      exact blocksApart.started homeEntered
  | true =>
      have position : markPosition draft.code home.start = markPosition draft.code other.stop :=
        congrArg _ same
      have stopped := (blocksApart.stopped otherEntered closed).2
      rcases Nat.lt_trichotomy home.slotScope.index other.slotScope.index with
        before | equal | behind
      · have ordered := blocksApart.ordered homeEntered otherEntered before
        omega
      · cases lockstep.eq_of_slotScope_eq homeEntered otherEntered (congrArg ScopeId.mk equal)
        omega
      · by_cases inside : other.slotScope ∈ draft.slots.scopes.enclosing home.slotScope
        · have homeClosed := BlocksApart.closed_of_mem_enclosing lockstep inside closed
          have homeStopped := (blocksApart.stopped homeEntered homeClosed).2
          have nested := blocksApart.nested otherEntered homeEntered inside closed
          omega
        · have apart := (blocksApart.apart otherEntered homeEntered behind inside).2
          omega

end WellMarked

/-! ## Code that grows -/

/-- The code has been continued, and blocks that were entered meanwhile begin behind it. -/
structure Grows (draft after : MethodDraft) : Prop where
  code : draft.code.toList <+: after.code.toList
  entered : ∀ {home : Block}, home ∈ after.blocks →
    home ∈ draft.blocks ∨ .mark home.start ∉ draft.code

namespace Grows

theorem refl (draft : MethodDraft) : draft.Grows draft :=
  ⟨List.prefix_rfl, .inl⟩

theorem trans {middle : MethodDraft} (first : draft.Grows middle) (second : middle.Grows after) :
    draft.Grows after := by
  refine ⟨first.code.trans second.code, ?_⟩
  intro home entered
  rcases second.entered entered with earlier | unmarked
  · exact first.entered earlier
  · refine .inr fun marked => unmarked ?_
    exact Array.mem_toList_iff.mp (first.code.subset (Array.mem_toList_iff.mpr marked))

theorem ofPush {instruction : Instruction} (code : after.code = draft.code.push instruction)
    (entered : ∀ {home : Block}, home ∈ after.blocks →
      home ∈ draft.blocks ∨ .mark home.start ∉ draft.code) : draft.Grows after := by
  refine ⟨?_, entered⟩
  rw [code, Array.toList_push]
  exact List.prefix_append _ _

theorem step (step : Step MayPass draft after) (labels : draft.LabelsApart) :
    draft.Grows after := by
  cases step with
  | issueName entered usable hint => exact ⟨List.prefix_rfl, .inl⟩
  | takeName entered usable name => exact ⟨List.prefix_rfl, .inl⟩
  | createLabel entered usable hint => exact ⟨List.prefix_rfl, .inl⟩
  | declare found accepted unnamed type => exact ⟨List.prefix_rfl, .inl⟩
  | startBody unstarted usable =>
      apply ofPush rfl
      intro home entered
      refine (Array.mem_push.mp entered).imp_right ?_
      rintro rfl
      exact labels.next_not_mem _ _
  | enterBlock entered usable slotsEntered namesEntered =>
      apply ofPush rfl
      intro home entered
      refine (Array.mem_push.mp entered).imp_right ?_
      rintro rfl
      exact labels.next_not_mem _ _
  | leaveBlock entered usable => exact ofPush rfl .inl
  | bindLabel entered usable unbound allowed => exact ofPush rfl .inl
  | append entered usable noMark allowed => exact ofPush rfl .inl

theorem path (path : Path MayPass draft after) (wellMarked : draft.WellMarked) :
    draft.Grows after := by
  have kept : after.WellMarked ∧ draft.Grows after := by
    apply path.keeps fun middle => middle.WellMarked ∧ draft.Grows middle
    · intro middle next step holds
      exact ⟨holds.1.step step, holds.2.trans (.step step holds.1.labels)⟩
    · exact ⟨wellMarked, .refl draft⟩
  exact kept.2

end Grows

end MethodDraft

end JvmEmit
