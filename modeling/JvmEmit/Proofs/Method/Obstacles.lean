import JvmEmit.Proofs.Method.Calls

/-!
# What keeps a block from being used

A block cannot be used once it is closed, nor while a block inside it is open. Instructions and
labels ask the slot table about this, names and labels to be made ask the name supply, and entering a
block asks both. The answers are the same, because the two scopes of the block are in lockstep.
-/

namespace JvmEmit

/-- What keeps a scope from being used. -/
inductive Obstacle where
  | closed
  | openInside
deriving DecidableEq

/-- The obstacle that an error reports, if it is about one. -/
def ScopeError.obstacle? : ScopeError → Option Obstacle
  | .closed _ => some .closed
  | .openInside .. => some .openInside
  | _ => none

/-- An operation succeeds if there is no obstacle, and otherwise fails with an error about it. -/
def Outcome.Meets {σ α : Type} : Option Obstacle → Outcome DraftError σ α → Prop
  | none, outcome => ∃ answer after, outcome = .ok answer after
  | some obstacle, outcome =>
      ∃ cause after, outcome = .error (.scope cause) after ∧ cause.obstacle? = some obstacle

namespace NestedScopes

variable {α β : Type}

/-- What keeps a scope from being used, if anything does. -/
def obstacle? (nested : NestedScopes α) (scope : ScopeId) : Option Obstacle :=
  if nested.isClosed scope then some .closed
  else if nested.openInner scope = [] then none
  else some .openInside

theorem requireUsable_cases {nested : NestedScopes α} {scope : ScopeId}
    (known : scope.index < nested.size) :
    (nested.obstacle? scope = none ∧ nested.requireUsable scope = .ok ()) ∨
    (∃ cause obstacle, nested.obstacle? scope = some obstacle ∧
      nested.requireUsable scope = .error cause ∧ cause.obstacle? = some obstacle) := by
  rw [obstacle?, requireUsable, requireOpen, (requireKnown_eq_ok_iff nested scope).mpr known,
    requireInnermost]
  cases nested.isClosed scope with
  | true => exact .inr ⟨_, .closed, rfl, rfl, rfl⟩
  | false =>
      by_cases noneInside : nested.openInner scope = []
      · exact .inl ⟨if_pos noneInside, if_pos noneInside⟩
      · exact .inr ⟨.openInside _ _, .openInside, if_neg noneInside, if_neg noneInside, rfl⟩

theorem Mirrors.obstacle?_eq {shift : Nat} {image : NestedScopes β} {nested : NestedScopes α}
    (mirrors : Mirrors shift image nested) (scope : ScopeId) :
    image.obstacle? (scope.shifted shift) = nested.obstacle? scope := by
  rw [obstacle?, mirrors.isClosed_eq, mirrors.openInner_eq, obstacle?]
  simp only [List.map_eq_nil_iff]

end NestedScopes

namespace MethodDraft

variable {draft : MethodDraft} {id : BlockId} {home : Block}

/-- The calls on a block that ask whether it can be used all give the same answer. -/
structure CallsMeet (draft : MethodDraft) (id : BlockId) (obstacle : Option Obstacle) : Prop where
  append : ∀ {instruction : Instruction}, (∀ label, instruction ≠ .mark label) →
    Outcome.Meets obstacle (append id instruction draft)
  bindLabel : ∀ {label : Label}, draft.isBound label = false →
    Outcome.Meets obstacle (bindLabel id label draft)
  enterBlock : ∀ label : Option String, Outcome.Meets obstacle (enterBlock id label draft)
  issueName : ∀ hint : Option String, Outcome.Meets obstacle (issueName id hint draft)
  takeName : ∀ name : String, Outcome.Meets obstacle (takeName id name draft)
  createLabel : ∀ hint : Option String, Outcome.Meets obstacle (createLabel id hint draft)

theorem callsMeet_of_usable (lockstep : draft.Lockstep)
    (found : draft.blocks[id.index]? = some home)
    (usable : draft.slots.scopes.requireUsable home.slotScope = .ok ()) :
    draft.CallsMeet id none := by
  have namesUsable := (lockstep.usable_iff (Array.mem_of_getElem? found)).mpr usable
  constructor
  · intro instruction noMark
    exact ⟨_, _, append_of_usable found usable noMark⟩
  · intro label unbound
    exact ⟨_, _, bindLabel_of_usable found usable unbound⟩
  · intro label
    rcases enterBlock_of_usable lockstep found usable label with ⟨_, _, _, _, _, _, result⟩
    exact ⟨_, _, result⟩
  · intro hint
    rw [issueName_of_some found]
    exact ⟨_, _, onNames_fresh_of_usable namesUsable hint⟩
  · intro name
    rw [takeName_of_some found]
    exact ⟨_, _, onNames_reserve_of_usable namesUsable name⟩
  · intro hint
    rw [createLabel_of_some found]
    exact ⟨_, _, issueLabel_of_usable namesUsable _⟩

theorem callsMeet_of_unusable {obstacle : Obstacle} {slotsCause namesCause : ScopeError}
    (found : draft.blocks[id.index]? = some home)
    (unusable : draft.slots.scopes.requireUsable home.slotScope = .error slotsCause)
    (namesUnusable : draft.owner.names.scopes.requireUsable home.nameScope = .error namesCause)
    (aboutSlots : slotsCause.obstacle? = some obstacle)
    (aboutNames : namesCause.obstacle? = some obstacle) :
    draft.CallsMeet id (some obstacle) := by
  have refused := usableBlock_of_unusable found unusable
  constructor
  · intro instruction _
    exact ⟨_, _, append_of_refused refused, aboutSlots⟩
  · intro label _
    exact ⟨_, _, bind_of_error refused, aboutSlots⟩
  · intro label
    exact ⟨_, _, enterBlock_of_refused refused label, aboutSlots⟩
  · intro hint
    rw [issueName_of_some found]
    exact ⟨_, _, onNames_fresh_of_unusable namesUnusable hint, aboutNames⟩
  · intro name
    rw [takeName_of_some found]
    exact ⟨_, _, onNames_reserve_of_unusable namesUnusable name, aboutNames⟩
  · intro hint
    rw [createLabel_of_some found]
    exact ⟨_, _, issueLabel_of_unusable namesUnusable _, aboutNames⟩

theorem callsMeet_obstacle (lockstep : draft.Lockstep)
    (found : draft.blocks[id.index]? = some home) :
    draft.CallsMeet id (draft.slots.scopes.obstacle? home.slotScope) := by
  have entered := Array.mem_of_getElem? found
  have known := lockstep.known entered
  have namesKnown := (lockstep.mirrors.known_iff home.slotScope).mpr known
  have sameObstacle := lockstep.mirrors.obstacle?_eq home.slotScope
  rw [← lockstep.nameScope_eq entered] at namesKnown sameObstacle
  rcases NestedScopes.requireUsable_cases known with
    ⟨none, usable⟩ | ⟨slotsCause, obstacle, some, unusable, aboutSlots⟩
  · rw [none]
    exact callsMeet_of_usable lockstep found usable
  · rw [some]
    rw [some] at sameObstacle
    rcases NestedScopes.requireUsable_cases namesKnown with
      ⟨none, _⟩ | ⟨namesCause, other, same, namesUnusable, aboutNames⟩
    · rw [none] at sameObstacle
      cases sameObstacle
    · rw [same] at sameObstacle
      rw [sameObstacle] at aboutNames
      exact callsMeet_of_unusable found unusable namesUnusable aboutSlots aboutNames

/--
In every draft that calls can lead to, the variable scopes and the name scopes of the blocks are
nested, closed and usable alike, and the calls that need a usable block all succeed, or all fail for
the same obstacle.
-/
theorem blocks_in_lockstep (reachable : draft.IsReachable) :
    (∀ outer ∈ draft.blocks, ∀ inner ∈ draft.blocks,
      (draft.slots.scopes.parent? inner.slotScope = some outer.slotScope ↔
        draft.owner.names.scopes.parent? inner.nameScope = some outer.nameScope)) ∧
    (∀ home ∈ draft.blocks,
      draft.slots.scopes.isClosed home.slotScope =
        draft.owner.names.scopes.isClosed home.nameScope ∧
      (draft.slots.scopes.requireUsable home.slotScope = .ok () ↔
        draft.owner.names.scopes.requireUsable home.nameScope = .ok ())) ∧
    ∀ (id : BlockId) (home : Block), draft.blocks[id.index]? = some home →
      draft.CallsMeet id (draft.slots.scopes.obstacle? home.slotScope) := by
  have lockstep := reachable.lockstep
  refine ⟨?_, ?_, ?_⟩
  · intro outer outerEntered inner innerEntered
    exact (lockstep.parent_iff outerEntered innerEntered).symm
  · intro home entered
    refine ⟨?_, (lockstep.usable_iff entered).symm⟩
    rw [lockstep.nameScope_eq entered, lockstep.mirrors.isClosed_eq]
  · intro id home found
    exact callsMeet_obstacle lockstep found

/-- The body around an open block, a block that was left, and the open block itself. -/
theorem blocks_in_lockstep_after_two_blocks :
    ∃ draft : MethodDraft, draft.IsReachable ∧ draft.CallsMeet ⟨0⟩ (some .openInside) ∧
      draft.CallsMeet ⟨1⟩ (some .closed) ∧ draft.CallsMeet ⟨2⟩ none := by
  let draft := (MethodRun.ofCalls (ofSignature { name := ⟨"", "A"⟩ } { name := "f" })
    [.startBody, .enterBlock ⟨0⟩ none, .leaveBlock ⟨1⟩, .enterBlock ⟨0⟩ none]).draft
  have reachable : draft.IsReachable := ⟨_, _, isNew_ofSignature _ _, rfl⟩
  have meets : ∀ id obstacle,
      draft.blocks[id.index]?.map (fun home => draft.slots.scopes.obstacle? home.slotScope) =
        some obstacle → draft.CallsMeet id obstacle := by
    intro id obstacle evaluated
    rcases Option.map_eq_some_iff.mp evaluated with ⟨home, found, rfl⟩
    exact (blocks_in_lockstep reachable).2.2 id home found
  refine ⟨draft, reachable, meets ⟨0⟩ _ ?_, meets ⟨1⟩ _ ?_, meets ⟨2⟩ _ ?_⟩
  · decide +kernel
  · decide +kernel
  · decide +kernel

end MethodDraft

end JvmEmit
