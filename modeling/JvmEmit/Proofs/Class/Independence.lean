import JvmEmit.Proofs.Class.Detour
import JvmEmit.Proofs.Class.LostMethods
import JvmEmit.Proofs.Scope.Departure

/-!
# Methods do not influence each other

All names of a class come from one supply, so what one method does could be felt in the methods after
it. It is not: once a method is completed, its name scope is closed, and nobody looks into it or asks
how many scopes were entered inside. Whatever two runs have done inside a method, each of them differs
by a detour from the run that does nothing there. So the two cannot be told apart afterwards, except by
the form of the method itself.
-/

namespace JvmEmit

namespace MethodDraft

variable {draft next : MethodDraft} {permitted : MethodDraft → Label → Prop}

/-- A method leaves the names of the class and of the methods before it as they were. -/
theorem keptBelow_of_nameSteps {scopes after : NestedScopes NameFrame} {nameScope : ScopeId}
    (steps : Relation.ReflTransGen (NameStep nameScope) scopes after) :
    NestedScopes.KeptBelow nameScope scopes after := by
  induction steps with
  | refl => exact .refl _ _
  | tail _ last kept =>
      cases last with
      | modify inside change => exact kept.modifyPayload inside change
      | enter inside entered => exact kept.enter inside entered
      | close inside usable => exact kept.closedAt inside

/-- The name scope of a new draft is the last one that the class has entered. -/
theorem IsNew.size_names (isNew : draft.IsNew) :
    draft.owner.names.scopes.size = draft.nameScope.index + 1 := by
  rcases isNew.entered with ⟨owner, signature, nameScope, scopes, entered, rfl⟩
  change scopes.size = nameScope.index + 1
  rw [NestedScopes.child_eq_of_enter entered, NestedScopes.size_of_enter entered]

/-- The class after a method that is completed without a body. -/
def completedAtOnce (draft : MethodDraft) : ClassDraft :=
  { draft.owner with
    names := ⟨draft.owner.names.scopes.closedAt draft.nameScope⟩
    methods := draft.owner.methods ++ [draft.finished] }

theorem IsNew.complete_eq (isNew : draft.IsNew) :
    draft.complete = .ok () draft.completedAtOnce := by
  have usable := (Lockstep.ofIsNew isNew).usable_of_unstarted isNew.body_eq
  rw [complete, requireBodyClosed_of_unstarted isNew.body_eq]
  simp only [NameSupply.close, NestedScopes.close_of_requireUsable usable]
  rfl

/-- Whatever a method did before it was completed was a detour. -/
theorem exists_detour (isNew : draft.IsNew) (wellNested : draft.owner.names.scopes.WellNested)
    (path : Path permitted draft next) {left : ClassDraft}
    (completed : next.complete = .ok () left) :
    ∃ detour : MethodDetour, detour.earlier = draft.owner.methods ∧
      detour.detoured = next.finished ∧
      detour.SeparatesClass draft.completedAtOnce left := by
  have lockstep := Lockstep.ofIsNew isNew
  have lockstepAfter := path.keeps Lockstep Lockstep.step lockstep
  have usable := lockstep.usable_of_unstarted isNew.body_eq
  have retains := path.retains
  have kept := keptBelow_of_nameSteps (path.nameSteps lockstep)
  have closed := isClosed_of_complete lockstepAfter completed
  have nameScope := retains.nameScope
  rw [nameScope] at closed
  rcases owner_of_complete lockstepAfter completed with ⟨names, rfl, bodyLeft⟩
  -- Without a body it is the completion that closes the name scope, otherwise leaving the body has.
  have keptAfter :
      NestedScopes.KeptBelow draft.nameScope draft.owner.names.scopes names.scopes := by
    rcases bodyLeft with ⟨_, rfl⟩ | ⟨_, _, rfl⟩
    · exact kept
    · rw [nameScope]
      exact kept.closedAt (Nat.le_refl _)
  let detour : MethodDetour := {
    closed := draft.nameScope
    gap := names.scopes.size - draft.owner.names.scopes.size
    inside := lockstep.outermost_ne_root
    earlier := draft.owner.methods
    direct := draft.finished
    detoured := next.finished }
  have grown : names.scopes.size = draft.owner.names.scopes.size + detour.gap :=
    (Nat.add_sub_of_le keptAfter.size_le).symm
  have separates : detour.Separates (draft.owner.names.scopes.closedAt draft.nameScope)
      names.scopes :=
    .of_keptBelow wellNested isNew.size_names usable keptAfter grown closed
  refine ⟨detour, rfl, rfl, ?_⟩
  have owner := retains.owner
  refine ⟨?_, ?_, ?_, separates, [], rfl, ?_⟩
  · change next.owner.header = draft.owner.header
    rw [owner]
  · change next.owner.options = draft.owner.options
    rw [owner]
  · change next.owner.fields = draft.owner.fields
    rw [owner]
  · change next.owner.methods ++ [next.finished] = draft.owner.methods ++ [next.finished]
    rw [owner]

end MethodDraft

namespace MethodDetour

variable {detour : MethodDetour} {one two : Workbench}

/-! ## What can be seen beside a detour -/

theorem SeparatesBench.after (separates : detour.SeparatesBench one two) (calls : List ClassCall) :
    detour.SeparatesBench (one.after calls) (two.after calls) := by
  induction calls using List.reverseRecOn with
  | nil => exact separates
  | append_singleton calls call ih =>
      have related := (agree_answering call ih).related_state
      rw [ClassCall.state_answering, ClassCall.state_answering] at related
      rw [Workbench.after_append, Workbench.after_append]
      exact related

theorem SeparatesBench.owner (separates : detour.SeparatesBench one two) :
    detour.SeparatesClass one.owner two.owner := by
  cases separates with
  | ofClass separates => exact separates
  | ofMethod separates => exact separates.classes

theorem SeparatesBench.view_eq (separates : detour.SeparatesBench one two) :
    two.view = one.view := by
  cases separates with
  | ofClass separates =>
      rw [Workbench.view, Workbench.view, separates.header, separates.options, separates.fields]
  | ofMethod separates =>
      cases separates
      rfl

theorem SeparatesBench.answer_eq (separates : detour.SeparatesBench one two) (call : ClassCall) :
    Outcome.toExcept (call.answering two) = Outcome.toExcept (call.answering one) :=
  (agree_answering call separates).toExcept_eq.symm

/-- A class is refused its completion for the same cause, or only its methods are others. -/
theorem SeparatesClass.complete_eq {one two : ClassDraft}
    (separates : detour.SeparatesClass one two) :
    two.complete = one.complete.map fun finished => { finished with methods := two.methods } := by
  have closing := Detour.agree_closeNames separates.names separates.besideRoot
  rw [Detour.moved_root] at closing
  rw [ClassDraft.complete, ClassDraft.complete, separates.header, separates.options,
    separates.fields]
  generalize one.names.close .root = closed at closing ⊢
  generalize two.names.close .root = twinClosed at closing ⊢
  cases closing with
  | ok same related grown => rfl
  | error related grown => rfl

end MethodDetour

theorem ClassDraft.Names.methods_eq {draft named : ClassDraft} {naming : Naming}
    (names : draft.Names naming named) : named.methods = draft.methods := by
  cases names with
  | issue usable hint => rfl
  | take usable name => rfl

namespace ClassRun

/-- A call that starts a method hands out a new draft, and the class keeps its methods. -/
theorem isNew_of_started {run : ClassRun} {call : ClassCall} {owner : ClassDraft}
    {method : MethodDraft} (atRest : run.bench = .ofClass owner)
    (started : (run.record call).bench = .ofMethod method) :
    method.IsNew ∧ method.owner.methods = owner.methods := by
  have step := step_record run call
  generalize run.record call = after at started step
  cases step with
  | idle =>
      rw [atRest] at started
      cases started
  | declareField names => cases started
  | issueName names => cases started
  | startMethod names sameName entered isNew =>
      cases atRest
      cases started
      exact ⟨isNew, names.methods_eq⟩
  | inMethod call => cases atRest
  | complete completed => cases started
  | failToComplete failed => cases started
  | abandon => cases started

/-- The calls of a run that starts a method, works on it and completes it, and then goes on. -/
def callsAround (before : List ClassCall) (start : ClassCall) (inside : List MethodCall)
    (later : List ClassCall) : List ClassCall :=
  before ++ [start] ++ inside.map .inMethod ++ [.completeMethod] ++ later

theorem bench_callsAround {header : ClassHeader} {options : ClassOptions}
    {before : List ClassCall} {start : ClassCall} {method : MethodDraft} {left : ClassDraft}
    {inside : List MethodCall}
    (started : (ofCalls header options (before ++ [start])).bench = .ofMethod method)
    (completed : (MethodRun.ofCalls method inside).draft.complete = .ok () left)
    (later : List ClassCall) :
    (ofCalls header options (callsAround before start inside later)).bench =
      (Workbench.ofClass left).after later := by
  rw [bench_ofCalls] at started
  rw [callsAround, bench_ofCalls, Workbench.after_append, Workbench.after_append,
    Workbench.after_append, started, Workbench.after_inMethod,
    Workbench.after_completeMethod completed]

/--
Two runs that differ only in what they do inside one method, which both of them complete, cannot be
told apart afterwards. After any later calls, every call has the same answer in both or fails for the
same cause, and the same can be read off the workbench. Of the methods completed so far only the one
in question may differ, and the class can be completed in both runs or in none, for the same cause,
with the same header, version and fields.
-/
theorem later_calls_ignore_completed_method {header : ClassHeader} {options : ClassOptions}
    {before : List ClassCall} {start : ClassCall} {owner : ClassDraft} {method : MethodDraft}
    (atRest : (ofCalls header options before).bench = .ofClass owner)
    (started : (ofCalls header options (before ++ [start])).bench = .ofMethod method)
    {first second : List MethodCall} {firstLeft secondLeft : ClassDraft}
    (firstCompleted : (MethodRun.ofCalls method first).draft.complete = .ok () firstLeft)
    (secondCompleted : (MethodRun.ofCalls method second).draft.complete = .ok () secondLeft)
    (later : List ClassCall) :
    let one := (ofCalls header options (callsAround before start first later)).bench
    let two := (ofCalls header options (callsAround before start second later)).bench
    one.view = two.view ∧
    (∀ call : ClassCall,
      Outcome.toExcept (call.answering one) = Outcome.toExcept (call.answering two)) ∧
    (∃ others : List FinishedMethod,
      one.owner.methods =
        owner.methods ++ (MethodRun.ofCalls method first).draft.finished :: others ∧
      two.owner.methods =
        owner.methods ++ (MethodRun.ofCalls method second).draft.finished :: others) ∧
    two.owner.complete = one.owner.complete.map fun finished =>
      { finished with methods := two.owner.methods } := by
  intro one two
  rcases isNew_of_started atRest (by rw [← ofCalls_append, started]) with ⟨isNew, methods⟩
  have wellNested := (accounts_ofMethod started).holds.wellNested
  -- Neither run is compared with the other one. Both differ by a detour from a third run, in which
  -- the method is completed at once.
  have atOnce : ∀ {inside : List MethodCall} {left : ClassDraft},
      (MethodRun.ofCalls method inside).draft.complete = .ok () left →
      ∃ detour : MethodDetour, detour.earlier = owner.methods ∧
        detour.detoured = (MethodRun.ofCalls method inside).draft.finished ∧
        detour.SeparatesBench ((Workbench.ofClass method.completedAtOnce).after later)
          (ofCalls header options (callsAround before start inside later)).bench := by
    intro inside left completed
    have path := MethodDraft.path_ofCalls (.ofIsNew isNew) inside
    rcases MethodDraft.exists_detour isNew wellNested path completed with
      ⟨detour, earlier, detoured, separates⟩
    refine ⟨detour, earlier.trans methods, detoured, ?_⟩
    rw [bench_callsAround started completed]
    exact (MethodDetour.SeparatesBench.ofClass separates).after later
  rcases atOnce firstCompleted with ⟨detour, earlier, finished, separates⟩
  rcases atOnce secondCompleted with ⟨twinDetour, twinEarlier, twinFinished, twinSeparates⟩
  refine ⟨?_, ?_, ?_, ?_⟩
  · exact separates.view_eq.trans twinSeparates.view_eq.symm
  · intro call
    exact (separates.answer_eq call).trans (twinSeparates.answer_eq call).symm
  · rcases separates.owner.methods with ⟨others, direct, oneMethods⟩
    rcases twinSeparates.owner.methods with ⟨twinOthers, twinDirect, twoMethods⟩
    rw [earlier] at direct oneMethods
    rw [twinEarlier] at twinDirect twoMethods
    have sameOthers : others = twinOthers := by
      have same := List.append_cancel_left (direct.symm.trans twinDirect)
      exact (List.cons.inj same).2
    rw [finished] at oneMethods
    rw [twinFinished, ← sameOthers] at twoMethods
    exact ⟨others, oneMethods, twoMethods⟩
  · rw [separates.owner.complete_eq, twinSeparates.owner.complete_eq]
    cases ClassDraft.complete _ <;> rfl

/-- Calls inside a method that issue a name, enter a block, fail, and leave all blocks again. -/
def namingCalls : List MethodCall :=
  [.startBody, .issueName ⟨0⟩ (some "x"), .enterBlock ⟨0⟩ none, .issueName ⟨0⟩ (some "x"),
    .leaveBlock ⟨1⟩, .leaveBlock ⟨0⟩]

/-- A method `f` is completed, and then a method `g` has a body with a block in it. -/
def siblingCalls (inside : List MethodCall) : List ClassCall :=
  callsAround [] (.startMethod { name := "f" }) inside
    [.startMethod { name := "g" }, .inMethod .startBody, .inMethod (.enterBlock ⟨0⟩ none)]

theorem names_stay_out_of_sibling_methods :
    let answerAfter (inside : List MethodCall) :=
      Outcome.toExcept ((ClassCall.inMethod (.issueName ⟨1⟩ (some "x"))).answering
        (ofCalls { name := ⟨"", "A"⟩ } {} (siblingCalls inside)).bench)
    answerAfter [] = .ok (.ofName "x") ∧ answerAfter namingCalls = .ok (.ofName "x") := by
  intro answerAfter
  have direct : answerAfter [] = .ok (.ofName "x") := by
    decide +kernel
  let method := MethodDraft.ofSignature { name := ⟨"", "A"⟩ } { name := "f" }
  have started : (ofCalls { name := ⟨"", "A"⟩ } {} ([] ++ [.startMethod { name := "f" }])).bench =
      .ofMethod method :=
    rfl
  have completed : ∀ inside ∈ [[], namingCalls],
      Outcome.toExcept (MethodRun.ofCalls method inside).draft.complete = .ok () := by
    decide +kernel
  have independent := later_calls_ignore_completed_method rfl started
    (Outcome.eq_ok_of_toExcept (completed namingCalls (by simp)))
    (Outcome.eq_ok_of_toExcept (completed [] (by simp)))
    [.startMethod { name := "g" }, .inMethod .startBody, .inMethod (.enterBlock ⟨0⟩ none)]
  exact ⟨direct, (independent.2.1 _).trans direct⟩

end ClassRun

end JvmEmit
