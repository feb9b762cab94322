import JvmEmit.Proofs.Method.Declarations
import JvmEmit.Proofs.Scope.OpenPath
import JvmEmit.Proofs.Slot.Visible

/-!
# The open blocks of a draft

A block is entered only inside a usable block. So the blocks that have not been left form one path
from the body inwards, and code can be added to the last of them only. The variables of these blocks
are the ones that the last block sees. They lie side by side from slot zero on, within the slots that
the frame has, and have different names.
-/

namespace JvmEmit

namespace MethodDraft

variable {draft after : MethodDraft} {permitted : MethodDraft → Label → Prop}

/-- The blocks that have not been left, in the order of entering. -/
def openBlocks (draft : MethodDraft) : List Block :=
  draft.blocks.toList.filter fun home => !draft.slots.scopes.isClosed home.slotScope

/-- The blocks that can be used, in the order of entering. -/
def usableBlocks (draft : MethodDraft) : List Block :=
  draft.blocks.toList.filter fun home =>
    draft.slots.scopes.requireUsable home.slotScope = .ok ()

/-- The variables declared in the blocks that have not been left. -/
def liveVariables (draft : MethodDraft) : List (Variable JvmType) :=
  draft.openBlocks.flatMap fun home => draft.slots.declaredIn home.slotScope

/-! ## Blocks and their scopes -/

namespace Lockstep

theorem map_slotScope_blocks (lockstep : draft.Lockstep) {body : BlockId}
    (started : draft.body = some body) :
    draft.blocks.toList.map Block.slotScope =
      (List.range draft.slots.scopes.size).map ScopeId.mk := by
  rw [← (lockstep.started started).2]
  apply List.ext_getElem
  · rw [List.length_map, List.length_map, List.length_range, Array.length_toList]
  · intro index known inRange
    rw [List.getElem_map, List.getElem_map, List.getElem_range, Array.getElem_toList]
    exact lockstep.slotScope_eq (Array.getElem?_eq_getElem _)

theorem map_slotScope_openBlocks (lockstep : draft.Lockstep) {body : BlockId}
    (started : draft.body = some body) :
    draft.openBlocks.map Block.slotScope = draft.slots.scopes.openScopes := by
  rw [NestedScopes.openScopes, ← lockstep.map_slotScope_blocks started, List.filter_map]
  rfl

theorem getLast?_openBlocks_iff (lockstep : draft.Lockstep) {body : BlockId}
    (started : draft.body = some body) {home : Block} (entered : home ∈ draft.blocks) :
    draft.openBlocks.getLast? = some home ↔
      draft.slots.scopes.openScopes.getLast? = some home.slotScope := by
  rw [← lockstep.map_slotScope_openBlocks started, List.getLast?_map, Option.map_eq_some_iff]
  constructor
  · intro last
    exact ⟨home, last, rfl⟩
  · rintro ⟨other, last, same⟩
    have otherEntered : other ∈ draft.blocks :=
      Array.mem_toList_iff.mp (List.mem_of_mem_filter (List.mem_of_getLast? last))
    rw [lockstep.eq_of_slotScope_eq entered otherEntered same.symm]
    exact last

theorem nodup_blocks (lockstep : draft.Lockstep) {body : BlockId}
    (started : draft.body = some body) : draft.blocks.toList.Nodup := by
  apply List.Nodup.of_map Block.slotScope
  rw [lockstep.map_slotScope_blocks started]
  apply List.Nodup.map
  · intro index other same
    exact congrArg ScopeId.index same
  · exact List.nodup_range

end Lockstep

theorem Recorded.usable_iff_getLast?_openBlocks (recorded : draft.Recorded)
    (lockstep : draft.Lockstep) {body : BlockId} (started : draft.body = some body) {home : Block}
    (entered : home ∈ draft.blocks) :
    draft.slots.scopes.requireUsable home.slotScope = .ok () ↔
      draft.openBlocks.getLast? = some home := by
  rw [lockstep.getLast?_openBlocks_iff started entered]
  exact recorded.singlePath.requireUsable_iff_getLast? lockstep.wellNested _

/-! ## What the steps keep -/

/-- The slot table is in order, and so is what an open block sees of it. -/
structure WellSlotted (draft : MethodDraft) : Prop where
  lockstep : draft.Lockstep
  recorded : draft.Recorded
  namesApart : draft.slots.NamesApart
  hasRoom : draft.slots.HasRoom

namespace WellSlotted

theorem ofIsNew (isNew : draft.IsNew) : draft.WellSlotted := by
  refine ⟨.ofIsNew isNew, .ofIsNew isNew, ?_, ?_⟩
  · rcases isNew.entered with ⟨owner, signature, nameScope, scopes, entered, rfl⟩
    exact SlotTable.NamesApart.initial _
  · rcases isNew.entered with ⟨owner, signature, nameScope, scopes, entered, rfl⟩
    exact SlotTable.HasRoom.initial _

theorem step (step : Step permitted draft after) (wellSlotted : draft.WellSlotted) :
    after.WellSlotted := by
  rcases wellSlotted with ⟨lockstep, recorded, namesApart, hasRoom⟩
  refine ⟨lockstep.step step, recorded.step step lockstep, ?_, hasRoom.step step.slots⟩
  exact namesApart.step lockstep.wellNested recorded.indexed step.slots

/-- A block can be used if it is the last of the open ones, and only then. -/
theorem usable_iff_getLast? (wellSlotted : draft.WellSlotted) {body : BlockId}
    (started : draft.body = some body) {home : Block} (entered : home ∈ draft.blocks) :
    draft.slots.scopes.requireUsable home.slotScope = .ok () ↔
      draft.openBlocks.getLast? = some home :=
  wellSlotted.recorded.usable_iff_getLast?_openBlocks wellSlotted.lockstep started entered

theorem usableBlocks_eq (wellSlotted : draft.WellSlotted) {body : BlockId}
    (started : draft.body = some body) :
    draft.usableBlocks = draft.openBlocks.getLast?.toList := by
  have usable_iff : ∀ home ∈ draft.blocks.toList,
      draft.slots.scopes.requireUsable home.slotScope = .ok () ↔
        draft.openBlocks.getLast? = some home := by
    intro home member
    exact wellSlotted.usable_iff_getLast? started (Array.mem_toList_iff.mp member)
  cases last : draft.openBlocks.getLast? with
  | none =>
      apply List.filter_eq_nil_iff.mpr
      intro home member
      simp [usable_iff home member, last]
  | some home =>
      have entered : home ∈ draft.blocks.toList :=
        List.mem_of_mem_filter (List.mem_of_getLast? last)
      have onlyLast : draft.usableBlocks = draft.blocks.toList.filter (· = home) := by
        apply List.filter_congr
        intro other member
        simp [usable_iff other member, last, eq_comm]
      have nodup := wellSlotted.lockstep.nodup_blocks started
      rw [onlyLast, List.filter_eq, List.count_eq_one_of_mem nodup entered]
      rfl

theorem openBlocks_isChain (wellSlotted : draft.WellSlotted) {body : BlockId}
    (started : draft.body = some body) :
    draft.openBlocks.IsChain fun outer inner =>
      draft.slots.scopes.parent? inner.slotScope = some outer.slotScope := by
  have lockstep := wellSlotted.lockstep
  have onScopes := wellSlotted.recorded.singlePath.openScopes_isChain lockstep.wellNested
  rw [← lockstep.map_slotScope_openBlocks started] at onScopes
  exact (List.isChain_map _).mp onScopes

/-- While the body is open, the open blocks begin with it; afterwards none is open. -/
theorem head?_openBlocks (wellSlotted : draft.WellSlotted) {body : BlockId}
    (started : draft.body = some body) :
    ∃ outermost, draft.blocks[body.index]? = some outermost ∧
      draft.openBlocks.head? =
        if draft.slots.scopes.isClosed outermost.slotScope then none else some outermost := by
  have lockstep := wellSlotted.lockstep
  rcases lockstep.body_found started with ⟨home, found, outermost⟩
  refine ⟨home, found, ?_⟩
  have head := lockstep.wellNested.head?_openScopes lockstep.slotScopes_nonempty
  rw [← lockstep.map_slotScope_openBlocks started, List.head?_map] at head
  rw [outermost]
  cases closed : draft.slots.scopes.isClosed .root with
  | true =>
      rw [closed] at head
      exact Option.map_eq_none_iff.mp head
  | false =>
      rw [closed] at head
      rcases Option.map_eq_some_iff.mp head with ⟨other, first, isRoot⟩
      have entered : other ∈ draft.blocks :=
        Array.mem_toList_iff.mp (List.mem_of_mem_filter (List.mem_of_head? first))
      rw [first]
      exact congrArg some (lockstep.eq_of_slotScope_eq entered (Array.mem_of_getElem? found)
        (isRoot.trans outermost.symm))

/-- The variables of the open blocks are those that the last of these blocks sees. -/
theorem liveVariables_eq_visible (wellSlotted : draft.WellSlotted) {body : BlockId}
    (started : draft.body = some body) {home : Block}
    (last : draft.openBlocks.getLast? = some home) :
    draft.liveVariables = draft.slots.visible home.slotScope := by
  have lockstep := wellSlotted.lockstep
  have entered : home ∈ draft.blocks :=
    Array.mem_toList_iff.mp (List.mem_of_mem_filter (List.mem_of_getLast? last))
  have usable := (wellSlotted.usable_iff_getLast? started entered).mpr last
  rw [SlotTable.visible_eq_flatMap_path,
    ← wellSlotted.recorded.singlePath.openScopes_eq_reverse_path lockstep.wellNested usable,
    ← lockstep.map_slotScope_openBlocks started, List.flatMap_map]
  rfl

/-- The live variables lie side by side from slot zero on, and have different names. -/
theorem liveVariables_tile (wellSlotted : draft.WellSlotted) {body : BlockId}
    (started : draft.body = some body) :
    (∃ slotCount ≤ draft.maxLocals, Tiles draft.liveVariables 0 slotCount) ∧
      draft.liveVariables.Pairwise fun earlier later =>
        ∀ name, earlier.name = some name → later.name ≠ some name := by
  cases last : draft.openBlocks.getLast? with
  | none =>
      have nothing : draft.liveVariables = [] := by
        rw [liveVariables, List.getLast?_eq_none_iff.mp last]
        rfl
      rw [nothing]
      exact ⟨⟨0, Nat.zero_le _, rfl⟩, .nil⟩
  | some home =>
      have entered : home ∈ draft.blocks :=
        Array.mem_toList_iff.mp (List.mem_of_mem_filter (List.mem_of_getLast? last))
      have usable := (wellSlotted.usable_iff_getLast? started entered).mpr last
      have isOpen := ((NestedScopes.requireUsable_eq_ok_iff _ _).mp usable).2.1
      rw [wellSlotted.liveVariables_eq_visible started last]
      exact ⟨⟨_, wellSlotted.hasRoom _, wellSlotted.recorded.laidOut.visible_tiles isOpen⟩,
        wellSlotted.namesApart isOpen⟩

end WellSlotted

theorem IsReachable.wellSlotted (reachable : draft.IsReachable) : draft.WellSlotted := by
  rcases reachable.path with ⟨handedOut, isNew, path⟩
  exact path.keeps WellSlotted WellSlotted.step (.ofIsNew isNew)

/-! ## One path of open blocks -/

/--
In every draft with a body that calls can lead to, the open blocks form one path that begins with the
body, as long as the body is open, and the last of them is the only block that can be used. The
variables of the open blocks take up each slot up to some number within the frame exactly once, and
have different names.
-/
theorem open_blocks_form_one_path (reachable : draft.IsReachable) {body : BlockId}
    (started : draft.body = some body) :
    (draft.openBlocks.IsChain fun outer inner =>
      draft.slots.scopes.parent? inner.slotScope = some outer.slotScope) ∧
    (∃ outermost, draft.blocks[body.index]? = some outermost ∧
      draft.openBlocks.head? =
        if draft.slots.scopes.isClosed outermost.slotScope then none else some outermost) ∧
    draft.usableBlocks = draft.openBlocks.getLast?.toList ∧
    (∃ slotCount ≤ draft.maxLocals, ∀ slot, slot < slotCount ↔
      ∃ declared ∈ draft.liveVariables, declared.slot ≤ slot ∧ slot < declared.endSlot) ∧
    draft.liveVariables.Pairwise (fun earlier later => earlier.endSlot ≤ later.slot) ∧
    draft.liveVariables.Pairwise fun earlier later =>
      ∀ name, earlier.name = some name → later.name ≠ some name := by
  have wellSlotted := reachable.wellSlotted
  rcases wellSlotted.liveVariables_tile started with ⟨⟨slotCount, room, tiles⟩, namesApart⟩
  refine ⟨wellSlotted.openBlocks_isChain started, wellSlotted.head?_openBlocks started,
    wellSlotted.usableBlocks_eq started, ⟨slotCount, room, ?_⟩, tiles.pairwise, namesApart⟩
  intro slot
  constructor
  · exact tiles.covers (Nat.zero_le slot)
  · rintro ⟨declared, member, _, before⟩
    exact Nat.lt_of_lt_of_le before (tiles.bounds.2 declared member).2

/-- A block with a variable was left, and two blocks were entered one inside the other after it. -/
def reenteringCalls : List MethodCall :=
  [.startBody, .addVariable ⟨0⟩ .long (some "a"), .enterBlock ⟨0⟩ none,
    .addVariable ⟨1⟩ .int (some "b"), .leaveBlock ⟨1⟩, .enterBlock ⟨0⟩ none,
    .addVariable ⟨2⟩ .int (some "b"), .enterBlock ⟨2⟩ none]

/-- The receiver and two variables are live, and the innermost block is the usable one. -/
theorem open_blocks_form_one_path_beside_left_block :
    ∃ draft : MethodDraft, draft.IsReachable ∧ draft.body = some ⟨0⟩ ∧
      draft.openBlocks.map Block.slotScope = [⟨0⟩, ⟨2⟩, ⟨3⟩] ∧
      draft.liveVariables.map Variable.slot = [0, 1, 3] ∧
      draft.usableBlocks = draft.openBlocks.getLast?.toList ∧
      draft.liveVariables.Pairwise fun earlier later => earlier.endSlot ≤ later.slot := by
  let draft := (MethodRun.ofCalls (ofSignature { name := ⟨"", "A"⟩ } { name := "f" })
    reenteringCalls).draft
  have reachable : draft.IsReachable := ⟨_, _, isNew_ofSignature _ _, rfl⟩
  have started : draft.body = some ⟨0⟩ := by decide +kernel
  have onePath := open_blocks_form_one_path reachable started
  refine ⟨draft, reachable, started, ?_, ?_, onePath.2.2.1, onePath.2.2.2.2.1⟩
  · decide +kernel
  · decide +kernel

end MethodDraft

end JvmEmit
