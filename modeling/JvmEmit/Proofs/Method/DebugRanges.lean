import JvmEmit.Proofs.Method.Completion
import JvmEmit.Proofs.Method.OwnLabels

/-!
# What a debugger is told about slots

A finished method tells a debugger for each named variable in which slot it lives and in which range
of the code. The range is that of the variable's block, also for a variable that is declared when a
block inside its own has been left. Such a variable may share slots and name with a variable of the
inner block, although its range covers the code of that block.

This is the only clash. Of two entries whose ranges have a position in common, the later one has
other slots and another name, unless its block lies around the block of the earlier one.
-/

namespace JvmEmit

namespace LocalVariableEntry

/-- The slot behind those of an entry's variable. -/
def endSlot (entry : LocalVariableEntry) : Nat :=
  entry.slot + Slotted.slotCount entry.type

/-- The variables of two entries share no slot. -/
def SlotsApart (entry other : LocalVariableEntry) : Prop :=
  entry.endSlot ≤ other.slot ∨ other.endSlot ≤ entry.slot

instance (entry other : LocalVariableEntry) : Decidable (entry.SlotsApart other) :=
  inferInstanceAs (Decidable (_ ∨ _))

end LocalVariableEntry

namespace FinishedMethod

/-- The position of the mark of a label in the code. -/
def position (method : FinishedMethod) (label : Label) : Nat :=
  method.code.idxOf (.mark label)

/-- A position lies in the code range of an entry. -/
def Covers (method : FinishedMethod) (entry : LocalVariableEntry) (position : Nat) : Prop :=
  method.position entry.start ≤ position ∧ position < method.position entry.stop

instance (method : FinishedMethod) (entry : LocalVariableEntry) (position : Nat) :
    Decidable (method.Covers entry position) :=
  inferInstanceAs (Decidable (_ ∧ _))

/-- Two entries have a position in common. -/
def Overlap (method : FinishedMethod) (entry other : LocalVariableEntry) : Prop :=
  ∃ position, method.Covers entry position ∧ method.Covers other position

/-- The code range of an entry lies around that of another one. -/
def Encloses (method : FinishedMethod) (outer inner : LocalVariableEntry) : Prop :=
  method.position outer.start < method.position inner.start ∧
    method.position inner.stop < method.position outer.stop

end FinishedMethod

namespace MethodDraft

variable {draft : MethodDraft}

/-! ## Finished methods -/

/-- An entry is that of a declared variable, with the labels of the variable's block. -/
theorem entry?_eq_some_iff {id : BlockId} {declared : Variable JvmType}
    {entry : LocalVariableEntry} :
    draft.entry? id declared = some entry ↔
      ∃ name home, declared.name = some name ∧ draft.blocks[id.index]? = some home ∧
        { name, type := declared.type, start := home.start, stop := home.stop
          slot := declared.slot } = entry := by
  unfold entry?
  simp only [Option.bind_eq_some_iff, Option.map_eq_some_iff]
  constructor
  · rintro ⟨name, named, home, found, same⟩
    exact ⟨name, home, named, found, same⟩
  · rintro ⟨name, home, named, found, same⟩
    exact ⟨name, named, home, found, same⟩

/-- Two blocks whose code has a position in common lie one around the other. -/
theorem BlocksApart.nested_of_overlap (blocksApart : draft.BlocksApart) (lockstep : draft.Lockstep)
    {home other : Block} (homeEntered : home ∈ draft.blocks) (otherEntered : other ∈ draft.blocks)
    {position : Nat}
    (inHome : markPosition draft.code home.start ≤ position ∧
      position < markPosition draft.code home.stop)
    (inOther : markPosition draft.code other.start ≤ position ∧
      position < markPosition draft.code other.stop) :
    home.slotScope ∈ draft.slots.scopes.path other.slotScope ∨
      other.slotScope ∈ draft.slots.scopes.enclosing home.slotScope := by
  by_contra unrelated
  rw [not_or] at unrelated
  rcases Nat.lt_trichotomy home.slotScope.index other.slotScope.index with before | same | behind
  · have apart := blocksApart.apart homeEntered otherEntered before
      fun inside => unrelated.1 (List.mem_cons_of_mem _ inside)
    omega
  · apply unrelated.1
    rw [lockstep.eq_of_slotScope_eq homeEntered otherEntered (congrArg ScopeId.mk same)]
    exact List.mem_cons_self
  · have apart := blocksApart.apart otherEntered homeEntered behind unrelated.2
    omega

/-- The entries of a finished method clash only around the code of an earlier block. -/
theorem WellMarked.entries_pairwise (wellMarked : draft.WellMarked)
    (closed : ∀ home ∈ draft.blocks, draft.slots.scopes.isClosed home.slotScope = true) :
    draft.entries.Pairwise fun earlier later =>
      draft.finished.Overlap earlier later →
        (earlier.SlotsApart later ∧ earlier.name ≠ later.name) ∨
          draft.finished.Encloses later earlier := by
  rcases wellMarked with ⟨lockstep, recorded, labels, blocksApart⟩
  have ordered := List.pairwise_map.mp recorded.inOrder.ordered
  apply List.pairwise_filterMap.mpr
  apply ordered.imp_of_mem
  rintro ⟨earlierId, earlier⟩ ⟨laterId, later⟩ earlierMember laterMember behind
  intro earlierEntry earlierShown laterEntry laterShown
  rcases entry?_eq_some_iff.mp earlierShown with ⟨earlierName, home, earlierNamed, found, rfl⟩
  rcases entry?_eq_some_iff.mp laterShown with ⟨laterName, other, laterNamed, otherFound, rfl⟩
  rintro ⟨position, inHome, inOther⟩
  have entered := Array.mem_of_getElem? found
  have otherEntered := Array.mem_of_getElem? otherFound
  have earlierScope : earlier.scope = home.slotScope := by
    rw [recorded.scope_eq (Array.mem_toList_iff.mp earlierMember), lockstep.slotScope_eq found]
  have laterScope : later.scope = other.slotScope := by
    rw [recorded.scope_eq (Array.mem_toList_iff.mp laterMember), lockstep.slotScope_eq otherFound]
  rcases blocksApart.nested_of_overlap lockstep entered otherEntered inHome inOther with
    onPath | around
  · left
    rw [← earlierScope, ← laterScope] at onPath
    have clear := behind onPath
    refine ⟨.inl clear.1, ?_⟩
    rintro sameName
    apply clear.2 earlierName earlierNamed
    rw [laterNamed]
    exact congrArg some sameName.symm
  · right
    have before := lockstep.wellNested.earlier_of_mem_enclosing around
    exact ⟨blocksApart.ordered otherEntered entered before,
      blocksApart.nested otherEntered entered around (closed other otherEntered)⟩

/-! ## The entries of a run -/

/--
After every run that passes its own labels, of two entries of the finished method whose code ranges
have a position in common, either the variables have different slots and different names, or the one
declared later belongs to a block around the block of the other.
-/
theorem entries_clash_around_earlier_blocks_only {handedOut : MethodDraft}
    {calls : List MethodCall} {left : ClassDraft} (isNew : handedOut.IsNew)
    (own : (MethodRun.mk handedOut []).passesOwnLabels calls = true)
    (completed : (MethodRun.ofCalls handedOut calls).draft.complete = .ok () left) :
    ∃ method, left.methods = (MethodRun.ofCalls handedOut calls).draft.owner.methods ++ [method] ∧
      method.localVariables.Pairwise fun earlier later =>
        method.Overlap earlier later →
          (earlier.SlotsApart later ∧ earlier.name ≠ later.name) ∨
            method.Encloses later earlier := by
  have sound := MethodRun.Sound.ofCalls isNew own
  have finished := closed_of_complete sound.wellMarked.lockstep completed
  refine ⟨_, finished.1, ?_⟩
  rw [MethodDraft.finished]
  split
  · exact sound.wellMarked.entries_pairwise finished.2
  · exact .nil

/-- A static method without parameters, as its class has just handed it out. -/
def staticMethod : MethodDraft :=
  ofSignature { name := ⟨"", "A"⟩ } { name := "f", modifiers := .staticMethod }

/-- A variable in the body, and two blocks inside it that declare variables of the same name. -/
def siblingCalls : List MethodCall :=
  [.startBody, .addVariable ⟨0⟩ .long (some "a"), .enterBlock ⟨0⟩ none,
    .addVariable ⟨1⟩ .int (some "b"), .append ⟨1⟩ (.simple 0), .leaveBlock ⟨1⟩,
    .enterBlock ⟨0⟩ none, .addVariable ⟨2⟩ .int (some "b"), .append ⟨2⟩ (.simple 0),
    .leaveBlock ⟨2⟩, .leaveBlock ⟨0⟩]

/-- Sibling blocks share slots and names, and their ranges have no position in common. -/
theorem entries_of_sibling_blocks_do_not_clash :
    (MethodRun.mk staticMethod []).passesOwnLabels siblingCalls = true ∧
      ∃ method : FinishedMethod, method.localVariables.map (·.slot) = [0, 2, 2] ∧
        method.localVariables.Pairwise fun earlier later =>
          method.Overlap earlier later →
            (earlier.SlotsApart later ∧ earlier.name ≠ later.name) ∨
              method.Encloses later earlier := by
  have own : (MethodRun.mk staticMethod []).passesOwnLabels siblingCalls = true := by
    decide +kernel
  have completed : Outcome.toExcept (MethodRun.ofCalls staticMethod siblingCalls).draft.complete =
      .ok () := by
    decide +kernel
  have slots :
      (Outcome.state (MethodRun.ofCalls staticMethod siblingCalls).draft.complete).methods.getLast?.map
        (fun method => method.localVariables.map (·.slot)) = some [0, 2, 2] := by
    decide +kernel
  have isNew : staticMethod.IsNew := isNew_ofSignature _ _
  rcases entries_clash_around_earlier_blocks_only isNew own
    (Outcome.eq_ok_of_toExcept completed) with ⟨method, last, pairwise⟩
  refine ⟨own, method, ?_, pairwise⟩
  rw [last, List.getLast?_concat] at slots
  exact Option.some.inj slots

/-- A variable that is declared around a block after the block was left. -/
def reusingCalls : List MethodCall :=
  [.startBody, .enterBlock ⟨0⟩ none, .addVariable ⟨1⟩ .int (some "a"), .append ⟨1⟩ (.simple 0),
    .leaveBlock ⟨1⟩, .addVariable ⟨0⟩ .int (some "b"), .leaveBlock ⟨0⟩]

/-- It shares a slot with the variable of that block, and both ranges cover the block's code. -/
theorem slot_shared_around_left_block :
    staticMethod.IsNew ∧ (MethodRun.mk staticMethod []).passesOwnLabels reusingCalls = true ∧
      ∃ left method earlier later,
        (MethodRun.ofCalls staticMethod reusingCalls).draft.complete = .ok () left ∧
        left.methods = [method] ∧ method.localVariables = [earlier, later] ∧
        method.Overlap earlier later ∧ ¬earlier.SlotsApart later := by
  have completed : Outcome.toExcept (MethodRun.ofCalls staticMethod reusingCalls).draft.complete =
      .ok () := by
    decide +kernel
  refine ⟨isNew_ofSignature _ _, ?_, _, (MethodRun.ofCalls staticMethod reusingCalls).draft.finished,
    ⟨"a", .int, ⟨⟨2⟩, "start1"⟩, ⟨⟨3⟩, "end1"⟩, 0⟩, ⟨"b", .int, ⟨⟨0⟩, "start"⟩, ⟨⟨1⟩, "end"⟩, 0⟩,
    Outcome.eq_ok_of_toExcept completed, ?_, ?_, ⟨2, ?_, ?_⟩, ?_⟩
  · decide +kernel
  · decide +kernel
  · decide +kernel
  · decide +kernel
  · decide +kernel
  · decide +kernel

end MethodDraft

end JvmEmit
