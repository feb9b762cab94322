import JvmEmit.Proofs.Method.Calls
import JvmEmit.Proofs.Scope.SinglePath
import JvmEmit.Proofs.Slot.Order

/-!
# The declared variables of a draft

Each step changes the slot table of a draft by one of the steps that slot tables are known to take,
so the laws of slot tables hold of every draft that calls can reach. The draft also lists all its
variables in the order of declaration, each with its block, and the list agrees with the table.
-/

namespace JvmEmit

namespace MethodDraft

variable {draft after : MethodDraft} {permitted : MethodDraft → Label → Prop}

theorem Step.slots (step : Step permitted draft after) : draft.slots.Step after.slots := by
  cases step with
  | issueName entered usable hint => exact .idle _
  | takeName entered usable name => exact .idle _
  | createLabel entered usable hint => exact .idle _
  | startBody unstarted usable => exact .idle _
  | enterBlock entered usable slotsEntered namesEntered => exact .enter slotsEntered
  | leaveBlock entered usable => exact .close usable
  | declare found accepted unnamed type => exact .declare accepted type unnamed
  | bindLabel entered usable unbound allowed => exact .idle _
  | append entered usable noMark allowed => exact .idle _

/-- The slot table keeps its laws, and the list of declared variables agrees with it. -/
structure Recorded (draft : MethodDraft) : Prop where
  laidOut : draft.slots.LaidOut
  indexed : draft.slots.Indexed
  singlePath : draft.slots.scopes.SinglePath
  inOrder : draft.slots.InOrder (draft.declared.toList.map Prod.snd)
  scope_eq : ∀ {id : BlockId} {declared : Variable JvmType}, (id, declared) ∈ draft.declared →
    declared.scope = ⟨id.index⟩

namespace Recorded

theorem ofIsNew (isNew : draft.IsNew) : draft.Recorded := by
  rcases isNew.entered with ⟨owner, signature, nameScope, scopes, entered, rfl⟩
  constructor
  · exact .initial _
  · exact .initial _
  · exact .ofRoot _ _
  · exact .nil _
  · intro id declared member
    simp at member

/-- The names, the labels and the code do not matter. -/
theorem unchanged (recorded : draft.Recorded) (slots : after.slots = draft.slots)
    (declared : after.declared = draft.declared) : after.Recorded := by
  rcases recorded with ⟨laidOut, indexed, singlePath, inOrder, scope_eq⟩
  rw [← slots] at laidOut indexed singlePath inOrder
  rw [← declared] at inOrder scope_eq
  exact ⟨laidOut, indexed, singlePath, inOrder, scope_eq⟩

theorem step (step : Step permitted draft after) (lockstep : draft.Lockstep)
    (recorded : draft.Recorded) : after.Recorded := by
  have laidOut := recorded.laidOut.step step.slots
  have indexed := recorded.indexed.step step.slots
  cases step with
  | issueName entered usable hint => exact recorded.unchanged rfl rfl
  | takeName entered usable name => exact recorded.unchanged rfl rfl
  | createLabel entered usable hint => exact recorded.unchanged rfl rfl
  | startBody unstarted usable => exact recorded.unchanged rfl rfl
  | enterBlock entered usable slotsEntered namesEntered =>
      refine ⟨laidOut, indexed, ?_, recorded.inOrder.enter slotsEntered, recorded.scope_eq⟩
      exact recorded.singlePath.enter lockstep.wellNested usable slotsEntered
  | leaveBlock entered usable =>
      refine ⟨laidOut, indexed, ?_, recorded.inOrder.close _, recorded.scope_eq⟩
      exact recorded.singlePath.closedAt (lockstep.known entered)
  | declare found accepted unnamed type =>
      rename_i id home role name
      refine ⟨laidOut, indexed, recorded.singlePath.modifyPayload _ _, ?_, ?_⟩
      · have inOrder :=
          recorded.inOrder.declare recorded.laidOut recorded.indexed accepted type
        simpa [declaring] using inOrder
      · intro other declared member
        rcases Array.mem_push.mp member with older | newest
        · exact recorded.scope_eq older
        · cases newest
          exact lockstep.slotScope_eq found
  | bindLabel entered usable unbound allowed => exact recorded.unchanged rfl rfl
  | append entered usable noMark allowed => exact recorded.unchanged rfl rfl

theorem declared_of_unstarted (recorded : draft.Recorded) (lockstep : draft.Lockstep)
    (unstarted : draft.body = none) : draft.declared.toList = [] := by
  apply List.eq_nil_iff_forall_not_mem.mpr
  rintro ⟨id, declared⟩ member
  have inTable := recorded.inOrder.declared declared
    (List.mem_map.mpr ⟨(id, declared), member, rfl⟩)
  rw [(lockstep.unstarted unstarted).2] at inTable
  rcases scope : declared.scope with ⟨_ | index⟩
  · rw [scope] at inTable
    cases inTable
  · rw [scope] at inTable
    cases inTable

end Recorded

end MethodDraft

end JvmEmit
