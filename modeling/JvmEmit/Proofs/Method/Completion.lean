import JvmEmit.Proofs.Method.Calls

/-!
# The end of a method's draft

Whether a method can be completed is a matter of its body alone: there must be no body, or it must
be closed. The name scope of the method is closed together with the body, so a closed body leaves
nothing for the completion to close, and the name scope stays open if there is no body to close.
-/

namespace JvmEmit

namespace MethodDraft

variable {draft : MethodDraft}

/-- The body has been started and left again. -/
def bodyClosed (draft : MethodDraft) : Bool :=
  draft.body.any fun body =>
    draft.blocks[body.index]?.any fun home => draft.slots.scopes.isClosed home.slotScope

theorem Lockstep.bodyClosed_eq (lockstep : draft.Lockstep) :
    draft.bodyClosed = draft.owner.names.scopes.isClosed draft.nameScope := by
  rw [← Lockstep.shifted_root draft, lockstep.mirrors.isClosed_eq]
  cases started : draft.body with
  | none =>
      rw [bodyClosed, started, (lockstep.unstarted started).2]
      rfl
  | some body =>
      rcases lockstep.body_found started with ⟨home, found, outermost⟩
      simp [bodyClosed, started, found, outermost]

theorem requireBodyClosed_of_unstarted (unstarted : draft.body = none) :
    requireBodyClosed draft = .ok ⟨⟩ draft := by
  rw [requireBodyClosed, get_bind]
  simp only [unstarted]
  rfl

theorem requireBodyClosed_of_started {body : BlockId} {home : Block}
    (started : draft.body = some body) (found : draft.blocks[body.index]? = some home) :
    requireBodyClosed draft =
      if draft.slots.scopes.isClosed home.slotScope then .ok ⟨⟩ draft
      else .error (.bodyOpen draft.signature.name) draft := by
  rw [requireBodyClosed, get_bind]
  simp only [started]
  rw [bind_of_ok (isBlockClosed_of_some found)]
  cases draft.slots.scopes.isClosed home.slotScope <;> rfl

/-- A method is completed unless its body is open, and then its name scope is closed. -/
theorem complete_cases (lockstep : draft.Lockstep) :
    (draft.body ≠ none ∧ draft.bodyClosed = false ∧
      draft.complete = .error (.bodyOpen draft.signature.name) draft.owner) ∨
    ∃ names : NameSupply,
      draft.complete = .ok () {
        draft.owner with
        names
        methods := draft.owner.methods ++ [draft.finished] } ∧
      (draft.bodyClosed = true ∧ names = draft.owner.names ∨
        draft.body = none ∧ draft.owner.names.scopes.requireUsable draft.nameScope = .ok () ∧
          names = ⟨draft.owner.names.scopes.closedAt draft.nameScope⟩) := by
  rw [complete]
  cases started : draft.body with
  | none =>
      have usable := lockstep.usable_of_unstarted started
      rw [requireBodyClosed_of_unstarted started]
      refine .inr ⟨_, ?_, .inr ⟨rfl, usable, rfl⟩⟩
      simp only [NameSupply.close, NestedScopes.close_of_requireUsable usable]
      rfl
  | some body =>
      rcases lockstep.body_found started with ⟨home, found, outermost⟩
      rw [requireBodyClosed_of_started started found]
      cases closed : draft.slots.scopes.isClosed home.slotScope with
      | false =>
          refine .inl ⟨Option.some_ne_none body, ?_, rfl⟩
          simp [bodyClosed, started, found, closed]
      | true =>
          have bodyClosed : draft.bodyClosed = true := by
            simp [bodyClosed, started, found, closed]
          have namesClosed := lockstep.bodyClosed_eq.symm.trans bodyClosed
          refine .inr ⟨draft.owner.names, ?_, .inl ⟨bodyClosed, rfl⟩⟩
          simp only [if_true, NameSupply.close, NestedScopes.close_of_isClosed namesClosed]
          rfl

theorem owner_of_complete (lockstep : draft.Lockstep) {left : ClassDraft}
    (completed : draft.complete = .ok () left) :
    ∃ names : NameSupply,
      left = {
        draft.owner with
        names
        methods := draft.owner.methods ++ [draft.finished] } ∧
      (draft.bodyClosed = true ∧ names = draft.owner.names ∨
        draft.body = none ∧ draft.owner.names.scopes.requireUsable draft.nameScope = .ok () ∧
          names = ⟨draft.owner.names.scopes.closedAt draft.nameScope⟩) := by
  rcases complete_cases lockstep with ⟨_, _, failed⟩ | ⟨names, result, bodyLeft⟩
  · rw [failed] at completed
    cases completed
  · rw [result] at completed
    cases completed
    exact ⟨names, rfl, bodyLeft⟩

theorem isClosed_of_complete (lockstep : draft.Lockstep) {left : ClassDraft}
    (completed : draft.complete = .ok () left) :
    left.names.scopes.isClosed draft.nameScope = true := by
  rcases owner_of_complete lockstep completed with ⟨names, rfl, ⟨closed, rfl⟩ | ⟨_, _, rfl⟩⟩
  · exact lockstep.bodyClosed_eq.symm.trans closed
  · have known := NestedScopes.known_of_parent? lockstep.inClass
    simp [NestedScopes.isClosed_closedAt _ _ _ known]

/-- The completion fails only because of an open body, and says so. -/
theorem complete_eq_error_iff (lockstep : draft.Lockstep) {cause : DraftError}
    {left : ClassDraft} :
    draft.complete = .error cause left ↔
      (draft.body ≠ none ∧ draft.bodyClosed = false) ∧
        cause = .bodyOpen draft.signature.name ∧ left = draft.owner := by
  rcases complete_cases lockstep with ⟨started, bodyOpen, refused⟩ | ⟨names, result, bodyLeft⟩
  · rw [refused]
    constructor
    · intro failed
      cases failed
      exact ⟨⟨started, bodyOpen⟩, rfl, rfl⟩
    · rintro ⟨_, rfl, rfl⟩
      rfl
  · rw [result]
    refine iff_of_false nofun ?_
    rintro ⟨⟨started, bodyOpen⟩, _⟩
    rcases bodyLeft with ⟨bodyClosed, _⟩ | ⟨unstarted, _⟩
    · rw [bodyOpen] at bodyClosed
      cases bodyClosed
    · exact started unstarted

theorem owner_of_failed_complete (lockstep : draft.Lockstep) {cause : DraftError}
    {left : ClassDraft} (failed : draft.complete = .error cause left) :
    draft.bodyClosed = false ∧ left = draft.owner := by
  rcases (complete_eq_error_iff lockstep).mp failed with ⟨⟨_, bodyOpen⟩, _, same⟩
  exact ⟨bodyOpen, same⟩

/-- A method is completed when all its blocks have been left, and then comes last in its class. -/
theorem closed_of_complete (lockstep : draft.Lockstep) {left : ClassDraft}
    (completed : draft.complete = .ok () left) :
    left.methods = draft.owner.methods ++ [draft.finished] ∧
      ∀ home ∈ draft.blocks, draft.slots.scopes.isClosed home.slotScope = true := by
  rcases owner_of_complete lockstep completed with ⟨names, rfl, bodyLeft⟩
  refine ⟨rfl, ?_⟩
  intro home entered
  rcases bodyLeft with ⟨bodyClosed, _⟩ | ⟨unstarted, _, _⟩
  · have rootClosed := lockstep.mirrors.isClosed_eq .root
    rw [Lockstep.shifted_root, ← lockstep.bodyClosed_eq, bodyClosed] at rootClosed
    by_contra stillOpen
    rw [Bool.not_eq_true] at stillOpen
    have rootOpen := lockstep.wellNested.open_of_mem_path stillOpen
      (lockstep.wellNested.root_mem_path (lockstep.known entered))
    rw [← rootClosed] at rootOpen
    cases rootOpen
  · exact absurd unstarted (lockstep.body_ne_none entered)

end MethodDraft

end JvmEmit
