import JvmEmit.Proofs.Class.LostMethods

/-!
# Methods that can be completed

An open body is the only reason why a method cannot be completed, and it can always be closed. A
block is entered after the block around it and has a greater number. So if the blocks are left from
the latest to the first, each of them has nothing open inside when its turn comes, and is left unless
it was left before. After the last one, which is the body, the method is completed and its class can
be used again.
-/

namespace JvmEmit

/-! ## Scopes closed from a number on -/

namespace NestedScopes

variable {α : Type}

/-- All scopes that have at least this number are closed. -/
def ClosedFrom (nested : NestedScopes α) (number : Nat) : Prop :=
  ∀ scope : ScopeId, number ≤ scope.index → scope.index < nested.size →
    nested.isClosed scope = true

namespace ClosedFrom

variable {nested : NestedScopes α} {number : Nat}

theorem size (nested : NestedScopes α) : nested.ClosedFrom nested.size := by
  intro scope behind known
  omega

/-- One more scope is closed, because it was or because it is closed now. -/
theorem extend (closed : nested.ClosedFrom (number + 1))
    (last : nested.isClosed ⟨number⟩ = true) : nested.ClosedFrom number := by
  intro scope behind known
  rcases Nat.eq_or_lt_of_le behind with same | further
  · have isLast : scope = ⟨number⟩ := congrArg ScopeId.mk same.symm
    rw [isLast]
    exact last
  · exact closed scope further known

theorem closedAt (closed : nested.ClosedFrom (number + 1)) (known : number < nested.size) :
    (nested.closedAt ⟨number⟩).ClosedFrom number := by
  apply extend
  · intro scope behind inside
    rw [size_closedAt] at inside
    rw [isClosed_closedAt nested ⟨number⟩ scope known, closed scope behind inside, Bool.or_true]
  · rw [isClosed_closedAt nested ⟨number⟩ ⟨number⟩ known]
    simp

/-- What lies inside a scope has a greater number. -/
theorem requireUsable (closed : nested.ClosedFrom (number + 1)) (wellNested : nested.WellNested)
    (isOpen : nested.requireOpen ⟨number⟩ = .ok ()) : nested.requireUsable ⟨number⟩ = .ok () := by
  rw [wellNested.requireUsable_iff_inner_closed isOpen]
  intro inner inside
  exact closed inner (wellNested.parent_earlier inside) (known_of_parent? inside)

end ClosedFrom

end NestedScopes

/-! ## Leaving all blocks -/

namespace MethodDraft

variable {draft : MethodDraft} {number : Nat}

/-- Leaves the blocks below a number, the latest first. -/
def leaveBlocks (number : Nat) : MethodM (List Bool) :=
  (List.range number).reverse.mapM fun index => leaveBlock ⟨index⟩

theorem leaveBlocks_succ (number : Nat) :
    leaveBlocks (number + 1) = do
      let wasOpen ← leaveBlock ⟨number⟩
      let earlier ← leaveBlocks number
      return wasOpen :: earlier := by
  rw [leaveBlocks, List.range_succ, List.reverse_append]
  exact List.mapM_cons

/-- A block is left, or was left before, if all later ones were. -/
theorem leaveBlock_of_closedFrom (lockstep : draft.Lockstep) (known : number < draft.blocks.size)
    (closed : draft.slots.scopes.ClosedFrom (number + 1)) :
    ∃ wasOpen left, leaveBlock ⟨number⟩ draft = .ok wasOpen left ∧ left.blocks = draft.blocks ∧
      left.slots.scopes.ClosedFrom number := by
  have found : draft.blocks[number]? = some draft.blocks[number] := Array.getElem?_eq_getElem known
  have slotScope := lockstep.slotScope_eq found
  have slotKnown := lockstep.known (Array.mem_of_getElem? found)
  rw [slotScope] at slotKnown
  cases wasClosed : draft.slots.scopes.isClosed ⟨number⟩ with
  | true =>
      refine ⟨false, draft, ?_, rfl, closed.extend wasClosed⟩
      rw [leaveBlock, bind_of_ok (isBlockClosed_of_some found), slotScope, wasClosed]
      rfl
  | false =>
      have isOpen := (NestedScopes.requireOpen_eq_ok_iff _ _).mpr ⟨slotKnown, wasClosed⟩
      have usable := closed.requireUsable lockstep.wellNested isOpen
      rw [← slotScope] at usable
      refine ⟨true, _, leaveBlock_of_usable lockstep found usable, rfl, ?_⟩
      dsimp only
      rw [slotScope]
      exact closed.closedAt slotKnown

theorem leaveBlocks_of_closedFrom (lockstep : draft.Lockstep) (known : number ≤ draft.blocks.size)
    (closed : draft.slots.scopes.ClosedFrom number) :
    ∃ answers left, leaveBlocks number draft = .ok answers left ∧
      Path (fun _ _ => True) draft left ∧ left.slots.scopes.ClosedFrom 0 := by
  induction number generalizing draft with
  | zero => exact ⟨[], draft, rfl, .refl, closed⟩
  | succ number ih =>
      rcases leaveBlock_of_closedFrom lockstep known closed with
        ⟨wasOpen, middle, leftLast, blocks, closedMiddle⟩
      have step : Path (fun _ _ => True) draft (Outcome.state (leaveBlock ⟨number⟩ draft)) :=
        path_leaveBlock lockstep ⟨number⟩
      rw [leftLast, Outcome.state_ok] at step
      have lockstepMiddle := step.keeps Lockstep Lockstep.step lockstep
      have knownMiddle : number ≤ middle.blocks.size := by
        rw [blocks]
        exact Nat.le_of_succ_le known
      rcases ih lockstepMiddle knownMiddle closedMiddle with
        ⟨answers, left, leftEarlier, path, closedAll⟩
      refine ⟨wasOpen :: answers, left, ?_, step.trans path, closedAll⟩
      rw [leaveBlocks_succ, bind_of_ok leftLast, bind_of_ok leftEarlier]
      rfl

theorem leaveBlocks_of_started (lockstep : draft.Lockstep) (started : draft.body ≠ none) :
    ∃ answers left, leaveBlocks draft.blocks.size draft = .ok answers left ∧
      Path (fun _ _ => True) draft left ∧ left.bodyClosed = true := by
  rcases Option.ne_none_iff_exists'.mp started with ⟨body, started⟩
  have size := (lockstep.started started).2
  have closed : draft.slots.scopes.ClosedFrom draft.blocks.size := by
    rw [size]
    exact .size _
  rcases leaveBlocks_of_closedFrom lockstep (Nat.le_refl _) closed with
    ⟨answers, left, result, path, closedAll⟩
  have lockstepLeft := path.keeps Lockstep Lockstep.step lockstep
  refine ⟨answers, left, result, path, ?_⟩
  rw [lockstepLeft.bodyClosed_eq, ← Lockstep.shifted_root left, lockstepLeft.mirrors.isClosed_eq]
  exact closedAll .root (Nat.le_refl 0) lockstepLeft.slotScopes_nonempty

end MethodDraft

namespace Workbench

/-- The method that is at work, if the class is in its hands. -/
def method? : Workbench → Option MethodDraft
  | .ofClass _ => none
  | .ofMethod draft => some draft

theorem ofMethod_of_method? {bench : Workbench} {draft : MethodDraft}
    (atWork : bench.method? = some draft) : bench = .ofMethod draft := by
  cases bench with
  | ofClass owner => cases atWork
  | ofMethod method =>
      cases atWork
      rfl

end Workbench

namespace ClassRun

/--
In every run, the method at work fails to be completed if its body was started and is open, and
only then; the failure says so. As soon as the body was started, all blocks can be left from the
latest to the first. Then the method is completed, comes last in its class, and the class hands out
names again.
-/
theorem started_method_can_be_completed (header : ClassHeader) (options : ClassOptions)
    (calls : List ClassCall) {draft : MethodDraft}
    (atWork : (ofCalls header options calls).bench = .ofMethod draft) :
    ((∃ cause owner, draft.complete = .error cause owner) ↔
      draft.body ≠ none ∧ draft.bodyClosed = false) ∧
    (∀ cause owner, draft.complete = .error cause owner →
      cause = .bodyOpen draft.signature.name) ∧
    (draft.body ≠ none →
      ∃ answers left owner,
        MethodDraft.leaveBlocks draft.blocks.size draft = .ok answers left ∧
        left.complete = .ok () owner ∧
        owner.methods = draft.owner.methods ++ [left.finished] ∧
        owner.names.scopes.requireUsable .root = .ok () ∧
        ∀ hint, ∃ name after, ClassDraft.issueName hint owner = .ok name after) := by
  have lockstep := (isReachable_of_ofMethod atWork).lockstep
  have accounts := accounts_ofMethod atWork
  refine ⟨?_, ?_, ?_⟩
  · simp only [MethodDraft.complete_eq_error_iff lockstep]
    constructor
    · rintro ⟨_, _, bodyOpen, _⟩
      exact bodyOpen
    · intro bodyOpen
      exact ⟨_, _, bodyOpen, rfl, rfl⟩
  · intro cause owner failed
    exact ((MethodDraft.complete_eq_error_iff lockstep).mp failed).2.1
  · intro started
    rcases MethodDraft.leaveBlocks_of_started lockstep started with
      ⟨answers, left, allLeft, path, bodyClosed⟩
    have lockstepLeft := path.keeps MethodDraft.Lockstep MethodDraft.Lockstep.step lockstep
    have accountsLeft := accounts.alongPath lockstep path
    rcases MethodDraft.complete_cases lockstepLeft with ⟨_, bodyOpen, _⟩ | ⟨names, completed, _⟩
    · rw [bodyClosed] at bodyOpen
      cases bodyOpen
    · have accountsOwner := accountsLeft.complete lockstepLeft completed
      have lostClosed := lostClosed_append_completed accounts.lostClosed left.finished
      have usable := accountsOwner.usable_iff.mpr lostClosed
      refine ⟨answers, left, _, allLeft, completed, ?_, usable, ?_⟩
      · dsimp only
        rw [path.retains.owner]
      · intro hint
        exact ⟨_, _, ClassDraft.issueName_of_usable usable hint⟩

/-- The body is started without success and has two open blocks inside. -/
def unfinishedCalls : List ClassCall :=
  [.startMethod { name := "f", parameters := [⟨some "a", .int⟩, ⟨some "a", .int⟩] },
    .inMethod .startBody, .inMethod (.enterBlock ⟨0⟩ none), .inMethod (.enterBlock ⟨1⟩ none)]

theorem method_completed_after_failed_start :
    ∃ draft answers left owner,
      (ofCalls { name := ⟨"", "A"⟩ } {} unfinishedCalls).bench = .ofMethod draft ∧
      (∃ abandoned, draft.complete = .error (.bodyOpen "f") abandoned) ∧
      MethodDraft.leaveBlocks 3 draft = .ok answers left ∧ left.complete = .ok () owner ∧
      owner.methods = draft.owner.methods ++ [left.finished] := by
  have unfinished : ((ofCalls { name := ⟨"", "A"⟩ } {} unfinishedCalls).bench.method?.any
      fun draft => draft.body.isSome && !draft.bodyClosed && draft.signature.name == "f" &&
        draft.blocks.size == 3) = true := by
    decide +kernel
  cases method : (ofCalls { name := ⟨"", "A"⟩ } {} unfinishedCalls).bench.method? with
  | none =>
      rw [method] at unfinished
      cases unfinished
  | some draft =>
      rw [method] at unfinished
      simp only [Option.any_some, Bool.and_eq_true, Bool.not_eq_true', beq_iff_eq] at unfinished
      rcases unfinished with ⟨⟨⟨isSome, bodyOpen⟩, named⟩, threeBlocks⟩
      have atWork := Workbench.ofMethod_of_method? method
      have started : draft.body ≠ none := Option.isSome_iff_ne_none.mp isSome
      rcases started_method_can_be_completed _ _ _ atWork with ⟨fails_iff, cause_eq, completable⟩
      rcases fails_iff.mpr ⟨started, bodyOpen⟩ with ⟨cause, abandoned, failed⟩
      rcases completable started with ⟨answers, left, owner, allLeft, completed, methods, _⟩
      rw [cause_eq cause abandoned failed, named] at failed
      rw [threeBlocks] at allLeft
      exact ⟨draft, answers, left, owner, atWork, ⟨abandoned, failed⟩, allLeft, completed, methods⟩

end ClassRun

end JvmEmit
