import JvmEmit.Proofs.Class.Runs
import JvmEmit.Proofs.Method.Completion
import JvmEmit.Proofs.Scope.Held

/-!
# Methods that a class loses

A method that was started becomes part of its class when it is completed. If its draft is lost, being
abandoned or failing to be completed, then the name scope of the method may still be open, and as long
as it is, the class cannot be completed. But the body of a method shares this scope, and closes it. So
a draft that is lost after its body was left goes unnoticed: the class is completed without the
method. A class that is completed has lost no other methods.
-/

namespace JvmEmit

/-! ## The name scope of a method -/

namespace MethodDraft

variable {draft : MethodDraft}

theorem Lockstep.outermost_ne_root (lockstep : draft.Lockstep) : draft.nameScope ≠ .root := by
  intro same
  have behindClass := lockstep.behindClass
  rw [same] at behindClass
  exact Nat.lt_irrefl 0 behindClass

/-- The name scope of the method at work is what keeps the class from being completed. -/
def HoldsClass (draft : MethodDraft) : Prop :=
  draft.owner.names.scopes.HeldBy draft.nameScope

namespace HoldsClass

/-- What a method changes in the name supply, it changes at scopes inside that of the class. -/
theorem nameSteps {scopes after : NestedScopes NameFrame} {nameScope : ScopeId}
    (behindClass : 0 < nameScope.index)
    (steps : Relation.ReflTransGen (NameStep nameScope) scopes after)
    (held : scopes.HeldBy nameScope) : after.HeldBy nameScope := by
  have inner : ∀ scope : ScopeId, nameScope.index ≤ scope.index → scope ≠ .root := by
    rintro scope inside rfl
    exact Nat.lt_irrefl 0 (Nat.lt_of_lt_of_le behindClass inside)
  induction steps with
  | refl => exact held
  | tail _ last ih =>
      cases last with
      | modify inside change => exact ih.modifyPayload _ change
      | enter inside entered => exact ih.enter entered (inner _ inside)
      | close inside usable => exact ih.closedAt usable (inner _ inside)

theorem alongPath {permitted : MethodDraft → Label → Prop} {after : MethodDraft}
    (holds : draft.HoldsClass) (lockstep : draft.Lockstep) (path : Path permitted draft after) :
    after.HoldsClass := by
  rw [HoldsClass, path.retains.nameScope]
  exact nameSteps lockstep.behindClass (path.nameSteps lockstep) holds

end HoldsClass

end MethodDraft

/-! ## What a class knows of its methods -/

/-- Each of the drafts that were lost had a body, and the body had been left. -/
def LostClosed (ends : List MethodEnd) : Prop :=
  ∀ lost, .lost lost ∈ ends → lost.bodyClosed = true

/-- The class has the methods that were completed, and can be used if the lost ones were closed. -/
structure ClassDraft.Accounts (draft : ClassDraft) (started : List MethodSignature)
    (ends : List MethodEnd) : Prop where
  wellNested : draft.names.scopes.WellNested
  rootOpen : draft.names.scopes.requireOpen .root = .ok ()
  methods : draft.methods = ends.filterMap MethodEnd.completed?
  started : started = ends.map MethodEnd.signature
  usable_iff : draft.names.scopes.requireUsable .root = .ok () ↔ LostClosed ends

/-- The method at work was started last, and any method lost before it was closed. -/
structure MethodDraft.Accounts (draft : MethodDraft) (started : List MethodSignature)
    (ends : List MethodEnd) : Prop where
  holds : draft.HoldsClass
  methods : draft.owner.methods = ends.filterMap MethodEnd.completed?
  started : started = ends.map MethodEnd.signature ++ [draft.signature]
  lostClosed : LostClosed ends

theorem lostClosed_append_lost {ends : List MethodEnd} (lostClosed : LostClosed ends)
    (draft : MethodDraft) :
    LostClosed (ends ++ [.lost draft]) ↔ draft.bodyClosed = true := by
  constructor
  · intro closed
    exact closed draft (List.mem_append_right _ (List.mem_singleton_self _))
  · intro closed lost member
    rcases List.mem_append.mp member with earlier | last
    · exact lostClosed lost earlier
    · cases List.mem_singleton.mp last
      exact closed

theorem lostClosed_append_completed {ends : List MethodEnd} (lostClosed : LostClosed ends)
    (method : FinishedMethod) : LostClosed (ends ++ [.completed method]) := by
  intro lost member
  rcases List.mem_append.mp member with earlier | last
  · exact lostClosed lost earlier
  · cases List.mem_singleton.mp last

theorem map_signature_completed {ends : List MethodEnd} (noneLost : ∀ lost, .lost lost ∉ ends) :
    (ends.filterMap MethodEnd.completed?).map FinishedMethod.signature =
      ends.map MethodEnd.signature := by
  rw [List.map_filterMap]
  rw [← List.filterMap_eq_map]
  apply List.filterMap_congr
  intro finished member
  cases finished with
  | completed method => rfl
  | lost draft => exact absurd member (noneLost draft)

namespace ClassDraft.Accounts

variable {draft named : ClassDraft} {naming : Naming} {started : List MethodSignature}
  {ends : List MethodEnd}

theorem initial (header : ClassHeader) (options : ClassOptions) :
    (ClassDraft.ofHeader header options).Accounts [] [] := by
  refine ⟨.ofRoot _ _, rfl, rfl, rfl, ?_⟩
  refine iff_of_true rfl ?_
  intro lost member
  cases member

theorem withFrame (accounts : draft.Accounts started ends) (change : NameFrame → NameFrame) :
    (draft.withNames (draft.names.modifyFrame .root change)).Accounts started ends := by
  refine ⟨accounts.wellNested.modifyPayload _ _, ?_, accounts.methods, accounts.started, ?_⟩
  · exact (NestedScopes.requireOpen_modifyPayload_iff _ _ _ _).mpr accounts.rootOpen
  · exact (NestedScopes.requireUsable_modifyPayload_iff _ _ _ _).trans accounts.usable_iff

theorem afterNaming (accounts : draft.Accounts started ends) (names : draft.Names naming named) :
    named.Accounts started ends := by
  cases names with
  | issue usable hint => exact accounts.withFrame _
  | take usable name => exact accounts.withFrame _

theorem lostClosed_of_names (accounts : draft.Accounts started ends)
    (names : draft.Names naming named) : LostClosed ends := by
  apply accounts.usable_iff.mp
  cases names with
  | issue usable hint => exact usable
  | take usable name => exact usable

/-- A method is started only if the class is usable, that is, if any lost method was closed. -/
theorem startMethod (accounts : draft.Accounts started ends) (names : draft.Names naming named)
    {signature : MethodSignature} {nameScope : ScopeId} {scopes : NestedScopes NameFrame}
    (entered : named.names.scopes.enter .root (some signature.name) .empty =
      .ok nameScope scopes) :
    (named.handingOut signature nameScope scopes).Accounts (started ++ [signature]) ends := by
  have lostClosed := accounts.lostClosed_of_names names
  have accountsNamed := accounts.afterNaming names
  have usable := accountsNamed.usable_iff.mpr lostClosed
  refine ⟨.of_enter accountsNamed.wellNested usable entered, accountsNamed.methods, ?_, lostClosed⟩
  rw [accounts.started]
  rfl

theorem complete_cases (accounts : draft.Accounts started ends) :
    (LostClosed ends ∧ ∃ finished, draft.complete = .ok finished ∧
      finished.methods = ends.filterMap MethodEnd.completed?) ∨
    ¬ LostClosed ends ∧ ∃ cause, draft.complete = .error cause := by
  rw [complete, NameSupply.close, ← accounts.methods, ← accounts.usable_iff]
  have isOpen := ((NestedScopes.requireOpen_eq_ok_iff _ _).mp accounts.rootOpen).2
  rcases draft.names.scopes.close_cases .root with
    ⟨usable, closed⟩ | ⟨closed, _⟩ | ⟨cause, unusable, refused⟩
  · rw [closed]
    exact .inl ⟨usable, _, rfl, rfl⟩
  · rw [isOpen] at closed
    cases closed
  · rw [refused, unusable]
    exact .inr ⟨by simp, _, rfl⟩

end ClassDraft.Accounts

namespace MethodDraft.Accounts

variable {draft : MethodDraft} {started : List MethodSignature} {ends : List MethodEnd}

theorem alongPath {permitted : MethodDraft → Label → Prop} {after : MethodDraft}
    (accounts : draft.Accounts started ends) (lockstep : draft.Lockstep)
    (path : Path permitted draft after) : after.Accounts started ends := by
  have retains := path.retains
  refine ⟨accounts.holds.alongPath lockstep path, ?_, ?_, accounts.lostClosed⟩
  · rw [retains.owner]
    exact accounts.methods
  · rw [retains.signature]
    exact accounts.started

theorem after (accounts : draft.Accounts started ends) (lockstep : draft.Lockstep)
    (call : MethodCall) : (call.after draft).Accounts started ends := by
  have path : Path (fun _ _ => True) draft (call.after draft) :=
    path_after lockstep call fun _ _ => trivial
  exact accounts.alongPath lockstep path

/-- The class can be used again if the body of the lost draft was closed, and only then. -/
theorem lost (accounts : draft.Accounts started ends) (lockstep : draft.Lockstep) :
    draft.owner.Accounts started (ends ++ [.lost draft]) := by
  refine ⟨accounts.holds.wellNested, accounts.holds.rootOpen, ?_, ?_, ?_⟩
  · rw [accounts.methods, List.filterMap_append]
    exact (List.append_nil _).symm
  · rw [accounts.started, List.map_append]
    rfl
  · rw [lostClosed_append_lost accounts.lostClosed, lockstep.bodyClosed_eq]
    exact accounts.holds.requireUsable_root_iff lockstep.inClass

/-- A completed method leaves its name scope closed, so the class can be used again. -/
theorem complete (accounts : draft.Accounts started ends) (lockstep : draft.Lockstep)
    {owner : ClassDraft} (completed : draft.complete = .ok () owner) :
    owner.Accounts started (ends ++ [.completed draft.finished]) := by
  have closed := isClosed_of_complete lockstep completed
  rcases owner_of_complete lockstep completed with ⟨names, rfl, bodyLeft⟩
  have held : names.scopes.HeldBy draft.nameScope ∧
      names.scopes.parent? draft.nameScope = some .root := by
    rcases bodyLeft with ⟨_, rfl⟩ | ⟨_, usable, rfl⟩
    · exact ⟨accounts.holds, lockstep.inClass⟩
    · refine ⟨accounts.holds.closedAt usable lockstep.outermost_ne_root, ?_⟩
      rw [NestedScopes.parent?_closedAt]
      exact lockstep.inClass
  have usable := (held.1.requireUsable_root_iff held.2).mpr closed
  have lostClosed := lostClosed_append_completed accounts.lostClosed draft.finished
  refine ⟨held.1.wellNested, held.1.rootOpen, ?_, ?_, iff_of_true usable lostClosed⟩
  · dsimp only
    rw [accounts.methods, List.filterMap_append]
    rfl
  · rw [accounts.started, List.map_append]
    rfl

end MethodDraft.Accounts

namespace Workbench

/-- The class on the workbench as it would be completed, if it can be. -/
def completed? : Workbench → Option FinishedClass
  | .ofClass draft => draft.complete.toOption
  | .ofMethod _ => none

theorem ofClass_of_completed? {bench : Workbench} {finished : FinishedClass}
    (result : bench.completed? = some finished) :
    ∃ draft, bench = .ofClass draft ∧ draft.complete = .ok finished := by
  cases bench with
  | ofMethod draft => cases result
  | ofClass draft =>
      refine ⟨draft, rfl, ?_⟩
      cases complete : draft.complete with
      | ok known =>
          rw [completed?, complete] at result
          cases result
          rfl
      | error cause =>
          rw [completed?, complete] at result
          cases result

end Workbench

namespace ClassRun

/-- What lies on the workbench accounts for the methods that were started and how they ended. -/
def Accounted (run : ClassRun) : Prop :=
  match run.bench with
  | .ofClass draft => draft.Accounts run.started run.ends
  | .ofMethod draft => draft.Accounts run.started run.ends

theorem Accounted.step {run after : ClassRun}
    (lockstep : ∀ draft, run.bench = .ofMethod draft → draft.Lockstep) (step : Step run after)
    (accounted : run.Accounted) : after.Accounted := by
  cases step with
  | idle => exact accounted
  | declareField names =>
      have named := ClassDraft.Accounts.afterNaming accounted names
      exact ⟨named.wellNested, named.rootOpen, named.methods, named.started, named.usable_iff⟩
  | issueName names => exact ClassDraft.Accounts.afterNaming accounted names
  | startMethod names sameName entered isNew =>
      exact ClassDraft.Accounts.startMethod accounted names entered
  | inMethod call => exact MethodDraft.Accounts.after accounted (lockstep _ rfl) call
  | complete completed => exact MethodDraft.Accounts.complete accounted (lockstep _ rfl) completed
  | failToComplete failed =>
      rw [(MethodDraft.owner_of_failed_complete (lockstep _ rfl) failed).2]
      exact MethodDraft.Accounts.lost accounted (lockstep _ rfl)
  | abandon => exact MethodDraft.Accounts.lost accounted (lockstep _ rfl)

theorem accounted (header : ClassHeader) (options : ClassOptions) (calls : List ClassCall) :
    (ofCalls header options calls).Accounted := by
  apply ofCalls_keeps Accounted Accounted.step
  exact ClassDraft.Accounts.initial header options

section Bench

variable {header : ClassHeader} {options : ClassOptions} {calls : List ClassCall}

theorem accounts_ofClass {draft : ClassDraft}
    (atRest : (ofCalls header options calls).bench = .ofClass draft) :
    draft.Accounts (ofCalls header options calls).started (ofCalls header options calls).ends := by
  have accounted := accounted header options calls
  rw [Accounted, atRest] at accounted
  exact accounted

theorem accounts_ofMethod {draft : MethodDraft}
    (atWork : (ofCalls header options calls).bench = .ofMethod draft) :
    draft.Accounts (ofCalls header options calls).started (ofCalls header options calls).ends := by
  have accounted := accounted header options calls
  rw [Accounted, atWork] at accounted
  exact accounted

end Bench

/--
In every run, a class can be completed if all drafts of methods that were lost had been begun and had
a closed body, and only then. A completed class has the methods that were completed, in this order;
these are all that were started, unless a lost draft had a closed body.
-/
theorem completed_class_lacks_closed_methods_only (header : ClassHeader) (options : ClassOptions)
    (calls : List ClassCall) {draft : ClassDraft}
    (atRest : (ofCalls header options calls).bench = .ofClass draft) :
    let run := ofCalls header options calls
    run.started = run.ends.map MethodEnd.signature ∧
    ((∃ finished, draft.complete = .ok finished) ↔
      ∀ lost, .lost lost ∈ run.ends → lost.bodyClosed = true) ∧
    ∀ finished, draft.complete = .ok finished →
      finished.methods = run.ends.filterMap MethodEnd.completed? ∧
      ((∀ lost, .lost lost ∈ run.ends → lost.bodyClosed = false) →
        finished.methods.map FinishedMethod.signature = run.started) := by
  intro run
  have accounts := accounts_ofClass atRest
  refine ⟨accounts.started, ?_, ?_⟩
  · rcases accounts.complete_cases with ⟨closed, finished, result, _⟩ | ⟨notClosed, cause, refused⟩
    · exact iff_of_true ⟨finished, result⟩ closed
    · rw [refused]
      exact iff_of_false (by simp) notClosed
  · intro finished result
    rcases accounts.complete_cases with ⟨closed, same, known, methods⟩ | ⟨_, cause, refused⟩
    · rw [known] at result
      cases result
      refine ⟨methods, ?_⟩
      intro lostOpen
      have noneLost : ∀ lost, .lost lost ∉ run.ends := by
        intro lost member
        have closed := closed lost member
        rw [lostOpen lost member] at closed
        cases closed
      rw [methods, accounts.started]
      exact map_signature_completed noneLost
    · rw [refused] at result
      cases result

/-- One method is completed, and another one is abandoned although its body was left. -/
def losingCalls : List ClassCall :=
  [.startMethod { name := "f" }, .inMethod .startBody, .inMethod (.leaveBlock ⟨0⟩), .completeMethod,
    .startMethod { name := "g" }, .inMethod .startBody, .inMethod (.leaveBlock ⟨0⟩), .abandonMethod]

theorem completed_class_lacks_abandoned_method :
    ∃ draft finished,
      (ofCalls { name := ⟨"", "A"⟩ } {} losingCalls).bench = .ofClass draft ∧
      draft.complete = .ok finished ∧
      finished.methods =
        (ofCalls { name := ⟨"", "A"⟩ } {} losingCalls).ends.filterMap MethodEnd.completed? ∧
      finished.methods.map (fun method => method.signature.name) = ["f"] := by
  have completed : (ofCalls { name := ⟨"", "A"⟩ } {} losingCalls).bench.completed?.map
      (fun finished => finished.methods.map fun method => method.signature.name) = some ["f"] := by
    decide +kernel
  rcases Option.map_eq_some_iff.mp completed with ⟨finished, result, names⟩
  rcases Workbench.ofClass_of_completed? result with ⟨draft, atRest, complete⟩
  have accounts := completed_class_lacks_closed_methods_only _ _ _ atRest
  exact ⟨draft, finished, atRest, complete, (accounts.2.2 finished complete).1, names⟩

/-- The only method of a class is abandoned after its body was left. -/
def unnoticedCalls : List ClassCall :=
  [.startMethod { name := "f", modifiers := .staticMethod }, .inMethod .startBody,
    .inMethod (.leaveBlock ⟨0⟩), .abandonMethod]

theorem abandoned_method_goes_unnoticed :
    ∃ draft finished,
      (ofCalls { name := ⟨"", "A"⟩ } {} unnoticedCalls).bench = .ofClass draft ∧
      draft.complete = .ok finished ∧ finished.methods = [] ∧
      (ofCalls { name := ⟨"", "A"⟩ } {} unnoticedCalls).started.map MethodSignature.name =
        ["f"] := by
  have completed : (ofCalls { name := ⟨"", "A"⟩ } {} unnoticedCalls).bench.completed?.map
      FinishedClass.methods = some [] := by
    decide +kernel
  rcases Option.map_eq_some_iff.mp completed with ⟨finished, result, methods⟩
  rcases Workbench.ofClass_of_completed? result with ⟨draft, atRest, complete⟩
  refine ⟨draft, finished, atRest, complete, methods, ?_⟩
  decide +kernel

end ClassRun

end JvmEmit
