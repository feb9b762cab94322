import JvmEmit.Proofs.Method.DebugRanges
import JvmEmit.Proofs.Method.Failures
import JvmEmit.Proofs.Method.Marks
import JvmEmit.Proofs.Method.OpenBlocks

/-!
# Code bracketed by blocks

The marks at the ends of blocks divide the code like brackets. While a method is under construction,
some brackets lack their closing part: those of the open blocks, the innermost last. A block is
entered behind all that is there, and only the last open block can be left, so what has been opened
last is closed first. Instructions are added through the last open block, and so they lie in its
brackets and in those of no block inside it.
-/

namespace JvmEmit

/-! ## Brackets -/

/-- One end of a block in the code. -/
inductive BlockEdge where
  | opening (home : Block)
  | closing (home : Block)
deriving DecidableEq

namespace BlockEdge

/-- The block that an edge belongs to. -/
def home : BlockEdge → Block
  | .opening home | .closing home => home

/-- The label at an edge of a block. -/
def label : BlockEdge → Label
  | .opening home => home.start
  | .closing home => home.stop

end BlockEdge

/-- Blocks side by side, each with such edges between its own. -/
inductive Bracketed : List BlockEdge → Prop where
  | nil : Bracketed []
  | block {home : Block} {inner rest : List BlockEdge} (inside : Bracketed inner)
      (behind : Bracketed rest) : Bracketed (.opening home :: (inner ++ .closing home :: rest))

/-- Edges of which those of some blocks still lack the closing one; the innermost comes first. -/
inductive OpenBracketed : List Block → List BlockEdge → Prop where
  | outside {edges : List BlockEdge} (bracketed : Bracketed edges) : OpenBracketed [] edges
  | inside {home : Block} {stack : List Block} {before inner : List BlockEdge}
      (around : OpenBracketed stack before) (bracketed : Bracketed inner) :
      OpenBracketed (home :: stack) (before ++ .opening home :: inner)

namespace Bracketed

theorem append {edges more : List BlockEdge} (first : Bracketed edges) (second : Bracketed more) :
    Bracketed (edges ++ more) := by
  induction first with
  | nil => exact second
  | block inside _ _ ih =>
      rw [List.cons_append, List.append_assoc, List.cons_append]
      exact .block inside ih

theorem single (home : Block) {inner : List BlockEdge} (inside : Bracketed inner) :
    Bracketed (.opening home :: (inner ++ [.closing home])) :=
  .block inside .nil

end Bracketed

namespace OpenBracketed

variable {home : Block} {stack : List Block} {edges : List BlockEdge}

theorem append {more : List BlockEdge} (bracketed : OpenBracketed stack edges)
    (closed : Bracketed more) : OpenBracketed stack (edges ++ more) := by
  cases bracketed with
  | outside before => exact .outside (before.append closed)
  | inside around inner =>
      rw [List.append_assoc, List.cons_append]
      exact .inside around (inner.append closed)

theorem enter (bracketed : OpenBracketed stack edges) (home : Block) :
    OpenBracketed (home :: stack) (edges ++ [.opening home]) :=
  .inside bracketed .nil

theorem leave (bracketed : OpenBracketed (home :: stack) edges) :
    OpenBracketed stack (edges ++ [.closing home]) := by
  cases bracketed with
  | inside around inner =>
      rw [List.append_assoc, List.cons_append]
      exact around.append (.single home inner)

theorem bracketed (bracketed : OpenBracketed [] edges) : Bracketed edges := by
  cases bracketed with
  | outside closed => exact closed

end OpenBracketed

namespace MethodDraft

variable {draft after : MethodDraft}

/-! ## The edges in the code -/

/-- The two edges of every block of a draft, block by block. -/
def edges (draft : MethodDraft) : List BlockEdge :=
  draft.blocks.toList.flatMap fun home => [.opening home, .closing home]

/-- The end of a block that an instruction marks. -/
def edge? (draft : MethodDraft) : Instruction → Option BlockEdge
  | .mark label => draft.edges.find? fun edge => edge.label = label
  | .simple _ | .onSlot .. | .branch .. => none

/-- What is left of the code when only the marks at the ends of blocks are kept. -/
def codeEdges (draft : MethodDraft) : List BlockEdge :=
  draft.code.toList.filterMap draft.edge?

theorem mem_edges_iff (draft : MethodDraft) (edge : BlockEdge) :
    edge ∈ draft.edges ↔ edge.home ∈ draft.blocks := by
  rw [edges, List.mem_flatMap, ← Array.mem_toList_iff]
  constructor
  · rintro ⟨home, entered, isEnd⟩
    simp only [List.mem_cons, List.not_mem_nil, or_false] at isEnd
    rcases isEnd with rfl | rfl
    · exact entered
    · exact entered
  · intro entered
    refine ⟨edge.home, entered, ?_⟩
    cases edge with
    | opening home => exact List.mem_cons_self
    | closing home => exact List.mem_cons_of_mem _ List.mem_cons_self

theorem isEdge_of_edge?_mark {label : Label} {edge : BlockEdge}
    (found : draft.edge? (.mark label) = some edge) : edge ∈ draft.edges ∧ edge.label = label := by
  have sameLabel := List.find?_some found
  rw [decide_eq_true_iff] at sameLabel
  exact ⟨List.mem_of_find?_eq_some found, sameLabel⟩

namespace WellMarked

theorem edge_eq_of_label_eq (wellMarked : draft.WellMarked) {edge other : BlockEdge}
    (member : edge ∈ draft.edges) (otherMember : other ∈ draft.edges)
    (same : edge.label = other.label) : edge = other := by
  rw [mem_edges_iff] at member otherMember
  cases edge with
  | opening home =>
      cases other with
      | opening second => exact congrArg _ (wellMarked.eq_of_start_eq member otherMember same)
      | closing second => exact absurd same (wellMarked.start_ne_stop member otherMember)
  | closing home =>
      cases other with
      | opening second => exact absurd same.symm (wellMarked.start_ne_stop otherMember member)
      | closing second => exact congrArg _ (wellMarked.eq_of_stop_eq member otherMember same)

theorem edge?_mark_eq_some_iff (wellMarked : draft.WellMarked) {label : Label} {edge : BlockEdge} :
    draft.edge? (.mark label) = some edge ↔ edge ∈ draft.edges ∧ edge.label = label := by
  constructor
  · exact isEdge_of_edge?_mark
  · rintro ⟨member, rfl⟩
    cases found : draft.edge? (.mark edge.label) with
    | none =>
        have differs := List.find?_eq_none.mp found edge member
        simp at differs
    | some other =>
        have isEdge := isEdge_of_edge?_mark found
        rw [wellMarked.edge_eq_of_label_eq isEdge.1 member isEdge.2]

theorem edge?_eq_some_iff (wellMarked : draft.WellMarked) {instruction : Instruction}
    {edge : BlockEdge} :
    draft.edge? instruction = some edge ↔
      edge ∈ draft.edges ∧ instruction = .mark edge.label := by
  cases instruction with
  | mark label =>
      rw [wellMarked.edge?_mark_eq_some_iff, Instruction.mark.injEq]
      exact and_congr_right fun _ => eq_comm
  | simple opcode => simp [edge?]
  | onSlot opcode slot => simp [edge?]
  | branch opcode target => simp [edge?]

end WellMarked

theorem codeEdges_of_unchanged (code : after.code = draft.code)
    (blocks : after.blocks = draft.blocks) : after.codeEdges = draft.codeEdges := by
  have edges : after.edges = draft.edges := by
    rw [MethodDraft.edges, blocks]
    rfl
  have edge? : after.edge? = draft.edge? := by
    funext instruction
    cases instruction with
    | mark label => simp only [MethodDraft.edge?, edges]
    | simple opcode => rfl
    | onSlot opcode slot => rfl
    | branch opcode target => rfl
  rw [codeEdges, code, edge?, codeEdges]

/-- One more instruction does not change what the code before it marks, if new blocks are new. -/
theorem codeEdges_of_push (wellMarked : draft.WellMarked) (wellMarkedAfter : after.WellMarked)
    {instruction : Instruction} (code : after.code = draft.code.push instruction)
    (edges : ∀ {edge : BlockEdge}, .mark edge.label ∈ draft.code →
      (edge ∈ after.edges ↔ edge ∈ draft.edges)) :
    after.codeEdges = draft.codeEdges ++ (after.edge? instruction).toList := by
  rw [codeEdges, code, Array.toList_push, List.filterMap_append]
  congr 1
  · apply List.filterMap_congr
    intro earlier member
    apply Option.ext
    intro edge
    rw [wellMarkedAfter.edge?_eq_some_iff, wellMarked.edge?_eq_some_iff]
    constructor
    · rintro ⟨isEdge, rfl⟩
      exact ⟨(edges (Array.mem_toList_iff.mp member)).mp isEdge, rfl⟩
    · rintro ⟨isEdge, rfl⟩
      exact ⟨(edges (Array.mem_toList_iff.mp member)).mpr isEdge, rfl⟩

/-! ## The open blocks -/

theorem openBlocks_of_unchanged (blocks : after.blocks = draft.blocks)
    (isClosed : ∀ scope,
      after.slots.scopes.isClosed scope = draft.slots.scopes.isClosed scope) :
    after.openBlocks = draft.openBlocks := by
  simp only [openBlocks, blocks, isClosed]

theorem openBlocks_of_enter {home : Block} (blocks : after.blocks = draft.blocks.push home)
    (isClosed : ∀ scope,
      after.slots.scopes.isClosed scope = draft.slots.scopes.isClosed scope)
    (isOpen : draft.slots.scopes.isClosed home.slotScope = false) :
    after.openBlocks = draft.openBlocks ++ [home] := by
  simp [openBlocks, blocks, isClosed, isOpen]

/-- The block that is left was the last open one. -/
theorem openBlocks_of_leave (lockstep : draft.Lockstep) {body : BlockId}
    (started : draft.body = some body) {closing : Block}
    (last : draft.openBlocks.getLast? = some closing) (blocks : after.blocks = draft.blocks)
    (scopes : after.slots.scopes = draft.slots.scopes.closedAt closing.slotScope) :
    draft.openBlocks = after.openBlocks ++ [closing] := by
  rcases List.getLast?_eq_some_iff.mp last with ⟨outer, split⟩
  have entered : ∀ {home : Block}, home ∈ draft.openBlocks → home ∈ draft.blocks := fun member =>
    Array.mem_toList_iff.mp (List.mem_of_mem_filter member)
  have closingEntered := entered (List.mem_of_getLast? last)
  have stillOpen : after.openBlocks =
      draft.openBlocks.filter fun home => closing.slotScope ≠ home.slotScope := by
    rw [openBlocks, openBlocks, List.filter_filter, blocks, scopes]
    apply List.filter_congr
    intro home member
    rw [NestedScopes.isClosed_closedAt _ _ _ (lockstep.known closingEntered)]
    simp
  have nodup : draft.openBlocks.Nodup := (lockstep.nodup_blocks started).filter _
  rw [split, List.nodup_append] at nodup
  rw [stillOpen, split, List.filter_append]
  have kept : outer.filter (fun home => closing.slotScope ≠ home.slotScope) = outer := by
    apply List.filter_eq_self.mpr
    intro home member
    rw [decide_eq_true_iff]
    intro same
    have homeEntered : home ∈ draft.blocks := by
      apply entered
      rw [split]
      exact List.mem_append_left _ member
    have equal := lockstep.eq_of_slotScope_eq closingEntered homeEntered same
    exact nodup.2.2 home member closing (List.mem_singleton_self _) equal.symm
  rw [kept]
  simp

/-! ## What a step adds to the code -/

namespace WellMarked

/-- An instruction that marks no end of a block leaves the brackets as they are. -/
theorem codeEdges_of_noEdge (wellMarked : draft.WellMarked) (wellMarkedAfter : after.WellMarked)
    {instruction : Instruction} (code : after.code = draft.code.push instruction)
    (blocks : after.blocks = draft.blocks)
    (noEdge : ∀ edge ∈ draft.edges, instruction ≠ .mark edge.label) :
    after.codeEdges = draft.codeEdges := by
  have edges : ∀ edge, edge ∈ after.edges ↔ edge ∈ draft.edges := by
    intro edge
    rw [mem_edges_iff, mem_edges_iff, blocks]
  have nothing : after.edge? instruction = none := by
    apply Option.eq_none_iff_forall_ne_some.mpr
    intro edge found
    rcases wellMarkedAfter.edge?_eq_some_iff.mp found with ⟨isEdge, same⟩
    exact noEdge edge ((edges edge).mp isEdge) same
  rw [codeEdges_of_push wellMarked wellMarkedAfter code fun _ => edges _, nothing]
  exact List.append_nil _

/-- A label that a call binds is not that of a block. -/
theorem noEdge_of_unbound (wellMarked : draft.WellMarked) (markedOnce : draft.MarkedOnce)
    {label : Label} (unbound : draft.isBound label = false) (allowed : draft.MayPass label) :
    ∀ edge ∈ draft.edges, Instruction.mark label ≠ .mark edge.label := by
  intro edge isEdge same
  rw [mem_edges_iff] at isEdge
  cases same
  have unmarked : .mark edge.label ∉ draft.code := by
    intro marked
    rw [markedOnce.bound marked] at unbound
    cases unbound
  cases edge with
  | opening home => exact unmarked (wellMarked.blocksApart.started isEdge)
  | closing home =>
      cases closed : draft.slots.scopes.isClosed home.slotScope with
      | true => exact unmarked (wellMarked.blocksApart.stopped isEdge closed).1
      | false => exact allowed.2 home isEdge closed rfl

theorem codeEdges_of_enter (wellMarked : draft.WellMarked) (wellMarkedAfter : after.WellMarked)
    {home : Block} (code : after.code = draft.code.push (.mark home.start))
    (blocks : after.blocks = draft.blocks.push home) (startNew : .mark home.start ∉ draft.code)
    (stopNew : .mark home.stop ∉ draft.code) :
    after.codeEdges = draft.codeEdges ++ [.opening home] := by
  have newest : after.edge? (.mark home.start) = some (.opening home) := by
    apply wellMarkedAfter.edge?_mark_eq_some_iff.mpr
    refine ⟨?_, rfl⟩
    rw [mem_edges_iff, blocks]
    exact Array.mem_push_self
  rw [codeEdges_of_push wellMarked wellMarkedAfter code, newest]
  · rfl
  · intro edge marked
    rw [mem_edges_iff, mem_edges_iff, blocks, Array.mem_push, or_iff_left]
    rintro rfl
    cases edge with
    | opening home => exact startNew marked
    | closing home => exact stopNew marked

theorem codeEdges_of_leave (wellMarked : draft.WellMarked) (wellMarkedAfter : after.WellMarked)
    {closing : Block} (entered : closing ∈ draft.blocks)
    (code : after.code = draft.code.push (.mark closing.stop))
    (blocks : after.blocks = draft.blocks) :
    after.codeEdges = draft.codeEdges ++ [.closing closing] := by
  have newest : after.edge? (.mark closing.stop) = some (.closing closing) := by
    apply wellMarkedAfter.edge?_mark_eq_some_iff.mpr
    refine ⟨?_, rfl⟩
    rw [mem_edges_iff, blocks]
    exact entered
  rw [codeEdges_of_push wellMarked wellMarkedAfter code, newest]
  · rfl
  · intro edge _
    rw [mem_edges_iff, mem_edges_iff, blocks]

end WellMarked

/-! ## What the steps keep -/

/-- The code is bracketed by blocks, of which the open ones lack their closing marks. -/
structure WellBracketed (draft : MethodDraft) : Prop where
  wellMarked : draft.WellMarked
  markedOnce : draft.MarkedOnce
  brackets : OpenBracketed draft.openBlocks.reverse draft.codeEdges

namespace WellBracketed

theorem ofIsNew (isNew : draft.IsNew) : draft.WellBracketed := by
  refine ⟨.ofIsNew isNew, .ofIsNew isNew, ?_⟩
  rcases isNew.entered with ⟨owner, signature, nameScope, scopes, entered, rfl⟩
  exact .outside .nil

theorem brackets_unchanged (wellBracketed : draft.WellBracketed)
    (openBlocks : after.openBlocks = draft.openBlocks)
    (codeEdges : after.codeEdges = draft.codeEdges) :
    OpenBracketed after.openBlocks.reverse after.codeEdges := by
  rw [openBlocks, codeEdges]
  exact wellBracketed.brackets

theorem brackets_enter (wellBracketed : draft.WellBracketed) (wellMarkedAfter : after.WellMarked)
    {home : Block} (blocks : after.blocks = draft.blocks.push home)
    (code : after.code = draft.code.push (.mark home.start))
    (stopNew : .mark home.stop ∉ draft.code) (startNew : .mark home.start ∉ draft.code)
    (isClosed : ∀ scope,
      after.slots.scopes.isClosed scope = draft.slots.scopes.isClosed scope)
    (isOpen : draft.slots.scopes.isClosed home.slotScope = false) :
    OpenBracketed after.openBlocks.reverse after.codeEdges := by
  rw [openBlocks_of_enter blocks isClosed isOpen, List.reverse_append,
    wellBracketed.wellMarked.codeEdges_of_enter wellMarkedAfter code blocks startNew stopNew]
  exact wellBracketed.brackets.enter home

theorem brackets_leave (wellBracketed : draft.WellBracketed) {closing : Block}
    (openBlocks : draft.openBlocks = after.openBlocks ++ [closing])
    (codeEdges : after.codeEdges = draft.codeEdges ++ [.closing closing]) :
    OpenBracketed after.openBlocks.reverse after.codeEdges := by
  have brackets := wellBracketed.brackets
  rw [openBlocks, List.reverse_append] at brackets
  rw [codeEdges]
  exact brackets.leave

theorem step (step : Step MayPass draft after) (wellBracketed : draft.WellBracketed) :
    after.WellBracketed := by
  have wellMarked := wellBracketed.wellMarked
  have labels := wellMarked.labels
  have wellMarkedAfter := wellMarked.step step
  refine ⟨wellMarkedAfter, wellBracketed.markedOnce.step step labels, ?_⟩
  cases step with
  | issueName entered usable hint => exact wellBracketed.brackets
  | takeName entered usable name => exact wellBracketed.brackets
  | createLabel entered usable hint => exact wellBracketed.brackets
  | declare found accepted unnamed type =>
      apply wellBracketed.brackets_unchanged
      · refine openBlocks_of_unchanged ?_ ?_
        · rfl
        · exact fun scope => NestedScopes.isClosed_modifyPayload _ _ scope _
      · exact codeEdges_of_unchanged rfl rfl
  | bindLabel entered usable unbound allowed =>
      have noEdge := wellMarked.noEdge_of_unbound wellBracketed.markedOnce unbound allowed
      exact wellBracketed.brackets_unchanged rfl
        (wellMarked.codeEdges_of_noEdge wellMarkedAfter rfl rfl noEdge)
  | append entered usable noMark allowed =>
      exact wellBracketed.brackets_unchanged rfl
        (wellMarked.codeEdges_of_noEdge wellMarkedAfter rfl rfl fun edge _ => noMark edge.label)
  | leaveBlock entered usable =>
      have lockstep := wellMarked.lockstep
      rcases Option.ne_none_iff_exists'.mp (lockstep.body_ne_none entered) with ⟨body, started⟩
      have last := (wellMarked.recorded.usable_iff_getLast?_openBlocks lockstep started
        entered).mp usable
      exact wellBracketed.brackets_leave (openBlocks_of_leave lockstep started last rfl rfl)
        (wellMarked.codeEdges_of_leave wellMarkedAfter entered rfl rfl)
  | startBody unstarted usable =>
      have noSlots := (wellMarked.lockstep.unstarted unstarted).2
      apply wellBracketed.brackets_enter wellMarkedAfter rfl rfl (labels.nextStop_not_mem _)
        (labels.next_not_mem _ _)
      · exact fun _ => rfl
      · rw [noSlots]
        rfl
  | enterBlock entered usable slotsEntered namesEntered =>
      apply wellBracketed.brackets_enter wellMarkedAfter rfl rfl (labels.nextStop_not_mem _)
        (labels.next_not_mem _ _)
      · exact NestedScopes.isClosed_of_enter slotsEntered
      · exact NestedScopes.isClosed_eq_false_of_unknown
          (NestedScopes.size_le_child_of_enter slotsEntered)

end WellBracketed

end MethodDraft

end JvmEmit
