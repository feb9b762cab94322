import JvmEmit.Proofs.Class.LostMethods
import JvmEmit.Proofs.Scope.Descendants

/-!
# Classes frozen by a lost method

A draft that is lost while its body is open, or before it was started, leaves its name scope open
inside that of the class. The class has no call that reaches this scope. Its calls work at the
outermost scope and ask first whether it can be used, so each of them is refused from then on, and
the class stays as the lost draft left it.
-/

namespace JvmEmit

/-! ## Classes that refuse every name -/

namespace ClassDraft

/--
The class refuses for one reason whatever needs a name of its own, and also its completion. Only a
field that it has already is refused for that.
-/
structure Refuses (draft : ClassDraft) (cause : DraftError) : Prop where
  issueName : ∀ hint, issueName hint draft = .error cause draft
  startMethod : ∀ signature, startMethod signature draft = .error cause draft
  startSyntheticMethod : ∀ hint modifiers parameters returnType,
    startSyntheticMethod hint modifiers parameters returnType draft = .error cause draft
  declareNewField : ∀ name type modifiers, (∀ field ∈ draft.fields, field.name ≠ name) →
    declareField name type modifiers draft = .error cause draft
  declareKnownField : ∀ name type modifiers, (∃ field ∈ draft.fields, field.name = name) →
    declareField name type modifiers draft =
      .error (.memberExists draft.header.name.sourceName name) draft
  complete : draft.complete = .error cause

theorem refuses_of_unusable {draft : ClassDraft} {cause : ScopeError}
    (rootOpen : draft.names.scopes.isClosed .root = false)
    (unusable : draft.names.scopes.requireUsable .root = .error cause) :
    draft.Refuses (.scope cause) := by
  constructor
  · exact issueName_of_unusable unusable
  · intro signature
    exact bind_of_error (takeName_of_unusable unusable signature.name)
  · intro hint modifiers parameters returnType
    exact bind_of_error (issueName_of_unusable unusable (some hint))
  · intro name type modifiers unused
    have noField : (draft.fields.any fun field => field.name == name) = false := by
      simpa using unused
    rw [declareField, get_bind, noField]
    exact bind_of_error (takeName_of_unusable unusable name)
  · intro name type modifiers used
    have hasField : (draft.fields.any fun field => field.name == name) = true := by
      simpa using used
    rw [declareField, get_bind, hasField]
    rfl
  · rw [ClassDraft.complete, NameSupply.close, NestedScopes.close, rootOpen, unusable]
    rfl

end ClassDraft

/-! ## The scope of a lost method -/

namespace NestedScopes.HeldBy

/-- The scope that holds the nesting is the first in the list of what keeps the outermost open. -/
theorem requireUsable_root {α : Type} {nested : NestedScopes α} {holder : ScopeId}
    (held : nested.HeldBy holder) (directly : nested.parent? holder = some .root)
    (isOpen : nested.isClosed holder = false) :
    ∃ listed, nested.requireUsable .root = .error (.openInside (nested.pathName .root) listed) ∧
      listed.head? = some (nested.pathName holder) := by
  have rootOpen := held.rootOpen
  have listed := held.wellNested.mem_openInner_iff.mpr ⟨directly, isOpen⟩
  rcases List.exists_cons_of_ne_nil (List.ne_nil_of_mem listed) with ⟨first, rest, openInner⟩
  refine ⟨(nested.firstOpenWithin listedScopes .root).map nested.pathName, ?_, ?_⟩
  · rw [requireUsable, rootOpen]
    exact if_neg (List.ne_nil_of_mem listed)
  · have firstListed : first ∈ nested.openInner .root := by
      rw [openInner]
      exact List.mem_cons_self
    rcases held.wellNested.mem_openInner_iff.mp firstListed with ⟨firstInside, firstOpen⟩
    rw [firstOpenWithin, openInner, held.alone first firstInside firstOpen]
    rfl

end NestedScopes.HeldBy

namespace MethodEnd

/-- The draft of a method that was not completed. -/
def lost? : MethodEnd → Option MethodDraft
  | .completed _ => none
  | .lost draft => some draft

theorem mem_of_mem_lost? {ends : List MethodEnd} {lost : MethodDraft}
    (member : lost ∈ ends.filterMap lost?) : .lost lost ∈ ends := by
  rcases List.mem_filterMap.mp member with ⟨ending, ended, isLost⟩
  cases ending with
  | completed method => cases isLost
  | lost draft =>
      cases isLost
      exact ended

end MethodEnd

namespace ClassRun

/-- A method that was lost without a closed body has left the workbench as it is. -/
def LeftByLost (run : ClassRun) : Prop :=
  ∀ lost, .lost lost ∈ run.ends → lost.bodyClosed = false →
    run.bench = .ofClass lost.owner ∧ lost.Lockstep ∧ lost.HoldsClass

namespace LeftByLost

theorem of_lostClosed {run : ClassRun} (lostClosed : LostClosed run.ends) : run.LeftByLost := by
  intro lost member bodyOpen
  rw [lostClosed lost member] at bodyOpen
  cases bodyOpen

/-- The draft that is lost now is the only one that may have an open body. -/
theorem of_lost {draft : MethodDraft} {started : List MethodSignature} {ends : List MethodEnd}
    (accounts : draft.Accounts started ends) (lockstep : draft.Lockstep) (namings : List Naming) :
    LeftByLost ⟨.ofClass draft.owner, namings, started, ends ++ [.lost draft]⟩ := by
  intro lost member bodyOpen
  rcases List.mem_append.mp member with earlier | last
  · rw [accounts.lostClosed lost earlier] at bodyOpen
    cases bodyOpen
  · cases List.mem_singleton.mp last
    exact ⟨rfl, lockstep, accounts.holds⟩

theorem step {run after : ClassRun}
    (lockstep : ∀ draft, run.bench = .ofMethod draft → draft.Lockstep) (accounted : run.Accounted)
    (step : Step run after) (left : run.LeftByLost) : after.LeftByLost := by
  cases step with
  | idle => exact left
  | declareField names =>
      exact of_lostClosed (ClassDraft.Accounts.lostClosed_of_names accounted names)
  | issueName names =>
      exact of_lostClosed (ClassDraft.Accounts.lostClosed_of_names accounted names)
  | startMethod names sameName entered isNew =>
      exact of_lostClosed (ClassDraft.Accounts.lostClosed_of_names accounted names)
  | inMethod call => exact of_lostClosed (MethodDraft.Accounts.lostClosed accounted)
  | complete completed =>
      exact of_lostClosed
        (lostClosed_append_completed (MethodDraft.Accounts.lostClosed accounted) _)
  | failToComplete failed =>
      rw [(MethodDraft.owner_of_failed_complete (lockstep _ rfl) failed).2]
      exact of_lost accounted (lockstep _ rfl) _
  | abandon => exact of_lost accounted (lockstep _ rfl) _

end LeftByLost

theorem leftByLost (header : ClassHeader) (options : ClassOptions) (calls : List ClassCall) :
    (ofCalls header options calls).LeftByLost := by
  have both := ofCalls_keeps (fun run => run.Accounted ∧ run.LeftByLost)
    (fun lockstep step holds =>
      ⟨holds.1.step lockstep step, holds.2.step lockstep holds.1 step⟩)
    ⟨.initial header options, fun _ member _ => nomatch member⟩ calls
  exact both.2

/-! ## Runs that stand still -/

/-- No call leaves a trace in a run while the class refuses every name. -/
theorem record_of_refuses {run : ClassRun} {draft : ClassDraft} {cause : DraftError}
    (atRest : run.bench = .ofClass draft) (refuses : draft.Refuses cause) (call : ClassCall) :
    run.record call = run := by
  rcases run with ⟨bench, namings, started, ends⟩
  cases atRest
  cases call with
  | declareField name type modifiers =>
      have refused : ∃ cause,
          ClassDraft.declareField name type modifiers draft = .error cause draft := by
        by_cases known : ∃ field ∈ draft.fields, field.name = name
        · exact ⟨_, refuses.declareKnownField name type modifiers known⟩
        · refine ⟨_, refuses.declareNewField name type modifiers ?_⟩
          intro field member same
          exact known ⟨field, member, same⟩
      rcases refused with ⟨cause, refused⟩
      exact record_of_refused (Workbench.onClass_of_error refused _)
        (by simp only [ClassCall.namings, refused])
  | issueName hint =>
      have refused := refuses.issueName hint
      exact record_of_refused (Workbench.onClass_of_error refused _)
        (by simp only [ClassCall.namings, refused])
  | startMethod signature =>
      have refused := refuses.startMethod signature
      exact record_of_refused (Workbench.onClass_of_error refused _)
        (by simp only [ClassCall.namings, refused])
  | startSyntheticMethod hint modifiers parameters returnType =>
      have refused := refuses.startSyntheticMethod hint modifiers parameters returnType
      exact record_of_refused (Workbench.onClass_of_error refused _)
        (by simp only [ClassCall.namings, refused])
  | inMethod call => exact record_of_idle rfl rfl rfl rfl
  | completeMethod => exact record_of_idle rfl rfl rfl rfl
  | abandonMethod => exact record_of_idle rfl rfl rfl rfl

theorem ofCalls_of_refuses {header : ClassHeader} {options : ClassOptions}
    {calls : List ClassCall} {draft : ClassDraft} {cause : DraftError}
    (atRest : (ofCalls header options calls).bench = .ofClass draft)
    (refuses : draft.Refuses cause) (later : List ClassCall) :
    ofCalls header options (calls ++ later) = ofCalls header options calls := by
  induction later using List.reverseRecOn with
  | nil => rw [List.append_nil]
  | append_singleton later call ih =>
      rw [← List.append_assoc, ofCalls_append, ih]
      exact record_of_refuses atRest refuses call

/--
A class that has lost the draft of a method whose body was not begun, or was still open, is frozen.
It refuses every name and its completion because of the name scope of the lost method, which is the
first that the refusal lists; only a field that it has already is refused for that. Whatever is
called later, the class stays as it was when the draft was lost, and nothing is added to the run.
-/
theorem lost_open_method_freezes_class (header : ClassHeader) (options : ClassOptions)
    (calls : List ClassCall) {lost : MethodDraft}
    (isLost : .lost lost ∈ (ofCalls header options calls).ends)
    (bodyOpen : lost.bodyClosed = false) :
    let run := ofCalls header options calls
    let scopes := lost.owner.names.scopes
    run.bench = .ofClass lost.owner ∧
    (∃ listed, listed.head? = some (scopes.pathName lost.nameScope) ∧
      lost.owner.Refuses (.scope (.openInside (scopes.pathName .root) listed))) ∧
    ∀ later, ofCalls header options (calls ++ later) = run := by
  intro run scopes
  rcases leftByLost header options calls lost isLost bodyOpen with ⟨atRest, lockstep, holds⟩
  have nameScopeOpen := lockstep.bodyClosed_eq.symm.trans bodyOpen
  rcases holds.requireUsable_root lockstep.inClass nameScopeOpen with ⟨listed, unusable, first⟩
  have rootOpen := ((NestedScopes.requireOpen_eq_ok_iff _ _).mp holds.rootOpen).2
  have refuses := ClassDraft.refuses_of_unusable rootOpen unusable
  exact ⟨atRest, ⟨listed, first, refuses⟩, ofCalls_of_refuses atRest refuses⟩

/-- A method is abandoned while a block inside its body is open. -/
def losingOpenCalls : List ClassCall :=
  [.declareField "x" .int .empty, .startMethod { name := "f" }, .inMethod .startBody,
    .inMethod (.enterBlock ⟨0⟩ none), .abandonMethod]

theorem abandoned_open_method_freezes_class :
    ∃ lost, .lost lost ∈ (ofCalls { name := ⟨"", "A"⟩ } {} losingOpenCalls).ends ∧
      lost.bodyClosed = false ∧
      ofCalls { name := ⟨"", "A"⟩ } {}
          (losingOpenCalls ++ [.startMethod { name := "g" }, .declareField "y" .int .empty]) =
        ofCalls { name := ⟨"", "A"⟩ } {} losingOpenCalls ∧
      ClassDraft.declareField "x" .int .empty lost.owner =
        .error (.memberExists "A" "x") lost.owner := by
  have leftOpen : (((ofCalls { name := ⟨"", "A"⟩ } {} losingOpenCalls).ends.filterMap
      MethodEnd.lost?).any fun lost =>
        !lost.bodyClosed && lost.owner.header.name.sourceName == "A" &&
          lost.owner.fields.any fun field => field.name == "x") = true := by
    decide +kernel
  rcases List.any_eq_true.mp leftOpen with ⟨lost, member, leftOpen⟩
  have isLost := MethodEnd.mem_of_mem_lost? member
  simp only [Bool.and_eq_true, Bool.not_eq_true', beq_iff_eq, List.any_eq_true] at leftOpen
  rcases leftOpen with ⟨⟨bodyOpen, named⟩, hasField⟩
  rcases lost_open_method_freezes_class _ _ _ isLost bodyOpen with
    ⟨_, ⟨listed, _, refuses⟩, frozen⟩
  refine ⟨lost, isLost, bodyOpen, frozen _, ?_⟩
  rw [refuses.declareKnownField "x" .int .empty hasField, named]

end ClassRun

end JvmEmit
