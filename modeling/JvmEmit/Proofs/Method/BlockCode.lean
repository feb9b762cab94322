import JvmEmit.Proofs.Method.Declarations
import JvmEmit.Proofs.Method.Labels
import Mathlib.Data.List.Basic

/-!
# Where the code of a block lies

The code of a block reaches from the mark of its start label to the mark of its end label. Blocks are
entered one after another, so their starts are in the order of entering. A block inside another one
ends before it. A block that is entered without being inside an earlier block starts behind the end
of that block, because the open blocks lie on a single path.
-/

namespace JvmEmit

/-- The position of the first mark of a label, or the length of code without one. -/
def markPosition (code : Array Instruction) (label : Label) : Nat :=
  code.toList.idxOf (.mark label)

section Position

variable {code : Array Instruction} {label : Label} {instruction : Instruction}

theorem markPosition_lt_size (marked : .mark label ∈ code) :
    markPosition code label < code.size := by
  rw [markPosition, ← Array.length_toList]
  exact List.idxOf_lt_length_of_mem (Array.mem_toList_iff.mpr marked)

theorem markPosition_push (marked : .mark label ∈ code) :
    markPosition (code.push instruction) label = markPosition code label := by
  rw [markPosition, Array.toList_push, List.idxOf_append_of_mem (Array.mem_toList_iff.mpr marked)]
  rfl

theorem markPosition_push_lt_size (marked : .mark label ∈ code) :
    markPosition (code.push instruction) label < code.size := by
  rw [markPosition_push marked]
  exact markPosition_lt_size marked

theorem markPosition_push_mark (unmarked : .mark label ∉ code) :
    markPosition (code.push (.mark label)) label = code.size := by
  have absent : .mark label ∉ code.toList := fun member =>
    unmarked (Array.mem_toList_iff.mp member)
  rw [markPosition, Array.toList_push, List.idxOf_append_of_notMem absent, List.idxOf_cons_self,
    Array.length_toList, Nat.add_zero]

end Position

namespace MethodDraft

variable {draft after : MethodDraft}

/-- Where the code of the blocks begins and ends, as far as they have been left. -/
structure BlocksApart (draft : MethodDraft) : Prop where
  started : ∀ {home : Block}, home ∈ draft.blocks → .mark home.start ∈ draft.code
  stopped : ∀ {home : Block}, home ∈ draft.blocks →
    draft.slots.scopes.isClosed home.slotScope = true →
      .mark home.stop ∈ draft.code ∧
        markPosition draft.code home.start < markPosition draft.code home.stop
  ordered : ∀ {earlier later : Block}, earlier ∈ draft.blocks → later ∈ draft.blocks →
    earlier.slotScope.index < later.slotScope.index →
      markPosition draft.code earlier.start < markPosition draft.code later.start
  nested : ∀ {outer inner : Block}, outer ∈ draft.blocks → inner ∈ draft.blocks →
    outer.slotScope ∈ draft.slots.scopes.enclosing inner.slotScope →
    draft.slots.scopes.isClosed outer.slotScope = true →
      markPosition draft.code inner.stop < markPosition draft.code outer.stop
  /-- An earlier block that is not around a later one was left before the later one was entered. -/
  apart : ∀ {earlier later : Block}, earlier ∈ draft.blocks → later ∈ draft.blocks →
    earlier.slotScope.index < later.slotScope.index →
    earlier.slotScope ∉ draft.slots.scopes.enclosing later.slotScope →
      draft.slots.scopes.isClosed earlier.slotScope = true ∧
        markPosition draft.code earlier.stop < markPosition draft.code later.start

namespace BlocksApart

theorem ofIsNew (isNew : draft.IsNew) : draft.BlocksApart := by
  rcases isNew.entered with ⟨owner, signature, nameScope, scopes, entered, rfl⟩
  constructor
  · intro home member
    simp at member
  · intro home member
    simp at member
  · intro earlier later member
    simp at member
  · intro outer inner member
    simp at member
  · intro earlier later member
    simp at member

/-- The names and the labels do not matter, and the variables of a scope do not. -/
theorem unchanged (blocksApart : draft.BlocksApart) (code : after.code = draft.code)
    (blocks : after.blocks = draft.blocks)
    (isClosed : ∀ scope,
      after.slots.scopes.isClosed scope = draft.slots.scopes.isClosed scope)
    (enclosing : ∀ scope,
      after.slots.scopes.enclosing scope = draft.slots.scopes.enclosing scope) :
    after.BlocksApart := by
  rcases blocksApart with ⟨started, stopped, ordered, nested, apart⟩
  simp only [← code, ← blocks, ← isClosed, ← enclosing] at started stopped ordered nested apart
  exact ⟨started, stopped, ordered, nested, apart⟩

theorem closed_of_mem_enclosing (lockstep : draft.Lockstep) {outer inner : ScopeId}
    (inside : outer ∈ draft.slots.scopes.enclosing inner)
    (closed : draft.slots.scopes.isClosed outer = true) :
    draft.slots.scopes.isClosed inner = true := by
  by_contra stillOpen
  rw [Bool.not_eq_true] at stillOpen
  have outerOpen := lockstep.wellNested.open_of_mem_path stillOpen (List.mem_cons_of_mem _ inside)
  rw [closed] at outerOpen
  cases outerOpen

theorem push (blocksApart : draft.BlocksApart) (lockstep : draft.Lockstep)
    (instruction : Instruction) (bound : Array Bool) :
    BlocksApart { draft with bound, code := draft.code.push instruction } := by
  have start : ∀ {home : Block}, home ∈ draft.blocks →
      markPosition (draft.code.push instruction) home.start = markPosition draft.code home.start :=
    fun entered => markPosition_push (blocksApart.started entered)
  have stop : ∀ {home : Block}, home ∈ draft.blocks →
      draft.slots.scopes.isClosed home.slotScope = true →
        markPosition (draft.code.push instruction) home.stop =
          markPosition draft.code home.stop :=
    fun entered closed => markPosition_push (blocksApart.stopped entered closed).1
  constructor
  · intro home entered
    exact Array.mem_push_of_mem _ (blocksApart.started entered)
  · intro home entered closed
    have stopped := blocksApart.stopped entered closed
    rw [start entered, stop entered closed]
    exact ⟨Array.mem_push_of_mem _ stopped.1, stopped.2⟩
  · intro earlier later earlierEntered laterEntered before
    rw [start earlierEntered, start laterEntered]
    exact blocksApart.ordered earlierEntered laterEntered before
  · intro outer inner outerEntered innerEntered inside closed
    rw [stop outerEntered closed,
      stop innerEntered (closed_of_mem_enclosing lockstep inside closed)]
    exact blocksApart.nested outerEntered innerEntered inside closed
  · intro earlier later earlierEntered laterEntered before outside
    have apart := blocksApart.apart earlierEntered laterEntered before outside
    rw [stop earlierEntered apart.1, start laterEntered]
    exact apart

/-- A block that begins at the end of the code, around which every open block lies. -/
theorem begin (blocksApart : draft.BlocksApart) (lockstep : draft.Lockstep) {entered : Block}
    (blocks : after.blocks = draft.blocks.push entered)
    (code : after.code = draft.code.push (.mark entered.start))
    (unmarked : .mark entered.start ∉ draft.code) (wellNested : after.slots.scopes.WellNested)
    (isOpen : after.slots.scopes.isClosed entered.slotScope = false)
    (kept : ∀ home ∈ draft.blocks, home.slotScope.index < entered.slotScope.index ∧
      after.slots.scopes.isClosed home.slotScope = draft.slots.scopes.isClosed home.slotScope ∧
      after.slots.scopes.enclosing home.slotScope = draft.slots.scopes.enclosing home.slotScope)
    (outside : ∀ home ∈ draft.blocks,
      home.slotScope ∉ after.slots.scopes.enclosing entered.slotScope →
        draft.slots.scopes.isClosed home.slotScope = true) :
    after.BlocksApart := by
  have pushed := blocksApart.push lockstep (.mark entered.start) draft.bound
  have atEnd : markPosition after.code entered.start = draft.code.size := by
    rw [code]
    exact markPosition_push_mark unmarked
  have cases : ∀ {home : Block}, home ∈ after.blocks → home ∈ draft.blocks ∨ home = entered := by
    intro home member
    rw [blocks] at member
    exact Array.mem_push.mp member
  constructor
  · intro home member
    rw [code]
    rcases cases member with older | rfl
    · exact pushed.started older
    · exact Array.mem_push_self
  · intro home member closed
    rcases cases member with older | rfl
    · rw [(kept home older).2.1] at closed
      rw [code]
      exact pushed.stopped older closed
    · rw [isOpen] at closed
      cases closed
  · intro earlier later earlierMember laterMember smaller
    rcases cases laterMember with laterOlder | rfl
    · rcases cases earlierMember with earlierOlder | rfl
      · rw [code]
        exact pushed.ordered earlierOlder laterOlder smaller
      · exact absurd smaller (Nat.lt_asymm (kept later laterOlder).1)
    · rcases cases earlierMember with earlierOlder | rfl
      · rw [atEnd, code]
        exact markPosition_push_lt_size (blocksApart.started earlierOlder)
      · exact absurd smaller (Nat.lt_irrefl _)
  · intro outer inner outerMember innerMember inside closed
    rcases cases outerMember with outerOlder | rfl
    · rcases cases innerMember with innerOlder | rfl
      · rw [(kept outer outerOlder).2.1] at closed
        rw [(kept inner innerOlder).2.2] at inside
        rw [code]
        exact pushed.nested outerOlder innerOlder inside closed
      · have outerOpen := wellNested.open_of_mem_path isOpen (List.mem_cons_of_mem _ inside)
        rw [outerOpen] at closed
        cases closed
    · rw [isOpen] at closed
      cases closed
  · intro earlier later earlierMember laterMember smaller notInside
    rcases cases earlierMember with earlierOlder | rfl
    · rw [(kept earlier earlierOlder).2.1]
      rcases cases laterMember with laterOlder | rfl
      · rw [(kept later laterOlder).2.2] at notInside
        rw [code]
        exact pushed.apart earlierOlder laterOlder smaller notInside
      · have closed := outside earlier earlierOlder notInside
        refine ⟨closed, ?_⟩
        rw [atEnd, code]
        exact markPosition_push_lt_size (blocksApart.stopped earlierOlder closed).1
    · rcases cases laterMember with laterOlder | rfl
      · exact absurd smaller (Nat.lt_asymm (kept later laterOlder).1)
      · exact absurd smaller (Nat.lt_irrefl _)

/-- A usable block that is left ends behind all the code so far. -/
theorem leave (blocksApart : draft.BlocksApart) (lockstep : draft.Lockstep) {closing : Block}
    (entered : closing ∈ draft.blocks)
    (usable : draft.slots.scopes.requireUsable closing.slotScope = .ok ())
    (unmarked : .mark closing.stop ∉ draft.code)
    (blocks : after.blocks = draft.blocks)
    (code : after.code = draft.code.push (.mark closing.stop))
    (slots : after.slots.scopes = draft.slots.scopes.closedAt closing.slotScope) :
    after.BlocksApart := by
  have pushed := blocksApart.push lockstep (.mark closing.stop) draft.bound
  have atEnd : markPosition after.code closing.stop = draft.code.size := by
    rw [code]
    exact markPosition_push_mark unmarked
  have closedCases : ∀ {home : Block}, home ∈ draft.blocks →
      after.slots.scopes.isClosed home.slotScope = true →
        home = closing ∨ draft.slots.scopes.isClosed home.slotScope = true := by
    intro home member closed
    rw [slots, NestedScopes.isClosed_closedAt _ _ _ (lockstep.known entered),
      Bool.or_eq_true, decide_eq_true_iff] at closed
    exact closed.imp_left fun same => lockstep.eq_of_slotScope_eq member entered same.symm
  constructor
  · intro home member
    rw [blocks] at member
    rw [code]
    exact pushed.started member
  · intro home member closed
    rw [blocks] at member
    rcases closedCases member closed with rfl | closedBefore
    · rw [atEnd, code]
      exact ⟨Array.mem_push_self, markPosition_push_lt_size (blocksApart.started member)⟩
    · rw [code]
      exact pushed.stopped member closedBefore
  · intro earlier later earlierMember laterMember smaller
    rw [blocks] at earlierMember laterMember
    rw [code]
    exact pushed.ordered earlierMember laterMember smaller
  · intro outer inner outerMember innerMember inside closed
    rw [blocks] at outerMember innerMember
    rw [slots, NestedScopes.enclosing_closedAt] at inside
    rcases closedCases outerMember closed with rfl | closedBefore
    · have innerClosed : draft.slots.scopes.isClosed inner.slotScope = true := by
        by_contra stillOpen
        rw [Bool.not_eq_true] at stillOpen
        exact lockstep.wellNested.not_mem_enclosing_of_usable usable stillOpen inside
      rw [atEnd, code]
      exact markPosition_push_lt_size (blocksApart.stopped innerMember innerClosed).1
    · rw [code]
      exact pushed.nested outerMember innerMember inside closedBefore
  · intro earlier later earlierMember laterMember smaller notInside
    rw [blocks] at earlierMember laterMember
    rw [slots, NestedScopes.enclosing_closedAt] at notInside
    have apart := pushed.apart earlierMember laterMember smaller notInside
    rw [code, slots, NestedScopes.isClosed_closedAt _ _ _ (lockstep.known entered)]
    refine ⟨?_, apart.2⟩
    rw [Bool.or_eq_true]
    exact .inr apart.1

theorem step (step : Step MayPass draft after) (lockstep : draft.Lockstep)
    (recorded : draft.Recorded) (labels : draft.LabelsApart) (blocksApart : draft.BlocksApart) :
    after.BlocksApart := by
  have afterLockstep := lockstep.step step
  cases step with
  | issueName entered usable hint =>
      exact blocksApart.unchanged rfl rfl (fun _ => rfl) fun _ => rfl
  | takeName entered usable name =>
      exact blocksApart.unchanged rfl rfl (fun _ => rfl) fun _ => rfl
  | createLabel entered usable hint =>
      exact blocksApart.unchanged rfl rfl (fun _ => rfl) fun _ => rfl
  | declare found accepted unnamed type =>
      exact blocksApart.unchanged rfl rfl
        (fun scope => NestedScopes.isClosed_modifyPayload _ _ scope _)
        fun scope => NestedScopes.enclosing_modifyPayload _ _ scope _
  | bindLabel entered usable unbound allowed => exact blocksApart.push lockstep _ _
  | append entered usable noMark allowed => exact blocksApart.push lockstep _ _
  | leaveBlock entered usable =>
      have isOpen := ((NestedScopes.requireUsable_eq_ok_iff _ _).mp usable).2.1
      exact blocksApart.leave lockstep entered usable (labels.stop_not_mem entered isOpen)
        rfl rfl rfl
  | startBody unstarted usable =>
      have noBlocks := (lockstep.unstarted unstarted).1
      have noHome : ∀ home : Block, home ∉ draft.blocks := by
        rw [noBlocks]
        simp
      apply blocksApart.begin lockstep rfl rfl (labels.next_not_mem _ _) afterLockstep.wellNested
      · change draft.slots.scopes.isClosed .root = false
        rw [(lockstep.unstarted unstarted).2]
        rfl
      · intro home member
        exact absurd member (noHome home)
      · intro home member
        exact absurd member (noHome home)
  | enterBlock entered usable slotsEntered namesEntered =>
      have unknown := NestedScopes.size_le_child_of_enter slotsEntered
      apply blocksApart.begin lockstep rfl rfl (labels.next_not_mem _ _) afterLockstep.wellNested
      · apply (NestedScopes.isClosed_of_enter slotsEntered _).trans
        exact NestedScopes.isClosed_eq_false_of_unknown unknown
      · intro home member
        have known := lockstep.known member
        refine ⟨Nat.lt_of_lt_of_le known unknown, ?_, ?_⟩
        · exact NestedScopes.isClosed_of_enter slotsEntered _
        · apply (NestedScopes.enclosing_of_enter slotsEntered _).trans
          apply if_neg
          rintro same
          rw [same] at known
          exact absurd known (Nat.not_lt.mpr unknown)
      · intro home member notAround
        by_contra stillOpen
        rw [Bool.not_eq_true] at stillOpen
        apply notAround
        have isOpen := (NestedScopes.requireOpen_eq_ok_iff _ _).mpr
          ⟨lockstep.known member, stillOpen⟩
        have onPath := recorded.singlePath.mem_path_of_usable lockstep.wellNested usable isOpen
        have around := (NestedScopes.enclosing_of_enter slotsEntered _).trans (if_pos rfl)
        rw [← around] at onPath
        exact onPath

end BlocksApart

end MethodDraft

end JvmEmit
