import JvmEmit.Proofs.Class.Programs
import JvmEmit.Proofs.Method.Failures

/-!
# Runs of a class's draft

A class under construction is worked on in turns with its methods: the draft of a method takes over
the class when it is started, and gives the class back when it is completed or abandoned. So what
lies on the workbench is the draft of the class or the draft of one of its methods, which has the
class in it. A run is a list of calls on the workbench. It keeps, beside the workbench, the names
that came into use, the methods that were started and how they ended.

`ClassRun.Step` lists what one call can do to a run. Every property of runs is proved by cases on it.
-/

namespace JvmEmit

/-- A class under construction, alone or in the hands of one of its methods. -/
inductive Workbench where
  | ofClass (draft : ClassDraft)
  | ofMethod (draft : MethodDraft)

namespace Workbench

/-- The class that lies on a workbench, whoever has it in hand. -/
def owner : Workbench → ClassDraft
  | .ofClass draft => draft
  | .ofMethod draft => draft.owner

/-- What a program on the class leaves on the workbench; if it succeeds, its answer may take over. -/
def onClass {α : Type} (program : ClassM α) (next : α → ClassDraft → Workbench)
    (draft : ClassDraft) : Outcome DraftError Workbench Unit :=
  match program draft with
  | .ok answer left => .ok () (next answer left)
  | .error cause left => .error cause (.ofClass left)

section OnClass

variable {α : Type} {program : ClassM α} {draft left : ClassDraft}

theorem onClass_of_ok {answer : α} (ran : program draft = .ok answer left)
    (next : α → ClassDraft → Workbench) :
    onClass program next draft = .ok () (next answer left) := by
  rw [onClass, ran]

theorem onClass_of_error {cause : DraftError} (failed : program draft = .error cause left)
    (next : α → ClassDraft → Workbench) :
    onClass program next draft = .error cause (.ofClass left) := by
  rw [onClass, failed]

end OnClass

end Workbench

/-- The calls on a class and, while one of its methods is at work, on that method. -/
inductive ClassCall where
  | declareField (name : String) (type : JvmType) (modifiers : FieldModifiers)
  | issueName (hint : Option String)
  | startMethod (signature : MethodSignature)
  | startSyntheticMethod (hint : String) (modifiers : MethodModifiers)
      (parameters : List Parameter) (returnType : JvmType)
  | inMethod (call : MethodCall)
  | completeMethod
  | abandonMethod
deriving DecidableEq

/-- How a method ended that was started: as a part of its class, or not. -/
inductive MethodEnd where
  | completed (method : FinishedMethod)
  | lost (draft : MethodDraft)

namespace MethodEnd

/-- The signature under which a method was started, however it has ended. -/
def signature : MethodEnd → MethodSignature
  | .completed method => method.signature
  | .lost draft => draft.signature

/-- The method that was added to its class. -/
def completed? : MethodEnd → Option FinishedMethod
  | .completed method => some method
  | .lost _ => none

end MethodEnd

namespace ClassCall

/-- What a call does to the workbench. A call that does not fit what lies there does nothing. -/
def run (call : ClassCall) (bench : Workbench) : Outcome DraftError Workbench Unit :=
  match call, bench with
  | .declareField name type modifiers, .ofClass draft =>
      Workbench.onClass (ClassDraft.declareField name type modifiers) (fun _ => .ofClass) draft
  | .issueName hint, .ofClass draft =>
      Workbench.onClass (ClassDraft.issueName hint) (fun _ => .ofClass) draft
  | .startMethod signature, .ofClass draft =>
      Workbench.onClass (ClassDraft.startMethod signature) (fun method _ => .ofMethod method) draft
  | .startSyntheticMethod hint modifiers parameters returnType, .ofClass draft =>
      Workbench.onClass (ClassDraft.startSyntheticMethod hint modifiers parameters returnType)
        (fun method _ => .ofMethod method) draft
  | .inMethod call, .ofMethod draft => Outcome.lift id .ofMethod (call.run draft)
  | .completeMethod, .ofMethod draft => Outcome.lift id .ofClass draft.complete
  | .abandonMethod, .ofMethod draft => .ok () (.ofClass draft.abandon)
  | _, _ => .ok () bench

/-- The names that come into use by a call, the latest first. -/
def namings (call : ClassCall) (bench : Workbench) : List Naming :=
  match call, bench with
  | .declareField name type modifiers, .ofClass draft =>
      match ClassDraft.declareField name type modifiers draft with
      | .ok field _ => [.given .root field.name]
      | .error .. => []
  | .issueName hint, .ofClass draft =>
      match ClassDraft.issueName hint draft with
      | .ok name _ => [.handedOut .root name]
      | .error .. => []
  | .startMethod signature, .ofClass draft =>
      match ClassDraft.startMethod signature draft with
      | .ok method _ => [.given .root method.signature.name]
      | .error .. => []
  | .startSyntheticMethod hint modifiers parameters returnType, .ofClass draft =>
      match ClassDraft.startSyntheticMethod hint modifiers parameters returnType draft with
      | .ok method _ => [.handedOut .root method.signature.name]
      | .error .. => []
  | .inMethod call, .ofMethod draft => call.namings draft
  | _, _ => []

/-- The signature of the method that a call starts. -/
def started? (call : ClassCall) (bench : Workbench) : Option MethodSignature :=
  match bench, call.run bench with
  | .ofClass _, .ok _ (.ofMethod method) => some method.signature
  | _, _ => none

/-- How a call ends a method. A failed completion uses up the draft as well. -/
def ended? (call : ClassCall) (bench : Workbench) : Option MethodEnd :=
  match call, bench with
  | .completeMethod, .ofMethod draft =>
      match draft.complete with
      | .ok .. => some (.completed draft.finished)
      | .error .. => some (.lost draft)
  | .abandonMethod, .ofMethod draft => some (.lost draft)
  | _, _ => none

end ClassCall

/-- A workbench together with what the calls on it have done. -/
structure ClassRun where
  bench : Workbench
  /-- The names that came into use, the latest first. -/
  namings : List Naming
  started : List MethodSignature
  ends : List MethodEnd

namespace ClassRun

/-- The run with one more call. -/
def record (run : ClassRun) (call : ClassCall) : ClassRun where
  bench := Outcome.state (call.run run.bench)
  namings := call.namings run.bench ++ run.namings
  started := run.started ++ (call.started? run.bench).toList
  ends := run.ends ++ (call.ended? run.bench).toList

/-- The run without calls, which has the class without members on the workbench. -/
def initial (header : ClassHeader) (options : ClassOptions) : ClassRun where
  bench := .ofClass (.ofHeader header options)
  namings := []
  started := []
  ends := []

/-- The run of a row of calls on a class without members. -/
def ofCalls (header : ClassHeader) (options : ClassOptions) (calls : List ClassCall) : ClassRun :=
  calls.foldl record (initial header options)

theorem ofCalls_append (header : ClassHeader) (options : ClassOptions) (calls : List ClassCall)
    (call : ClassCall) :
    ofCalls header options (calls ++ [call]) = (ofCalls header options calls).record call := by
  rw [ofCalls, List.foldl_append]
  rfl

end ClassRun

/-! ## What a call can do -/

/-- A name comes into use at the level of the class. -/
inductive ClassDraft.Names (draft : ClassDraft) : Naming → ClassDraft → Prop where
  | issue (usable : draft.names.scopes.requireUsable .root = .ok ()) (hint : Option String) :
      Names draft (.handedOut .root (draft.names.freshName .root hint))
        (draft.withNames (draft.names.afterFresh .root hint))
  | take (usable : draft.names.scopes.requireUsable .root = .ok ()) (name : String) :
      Names draft (.given .root name) (draft.withNames (draft.names.afterReserve .root name))

namespace ClassRun

/-- The changes that one call can make to a run. -/
inductive Step : ClassRun → ClassRun → Prop where
  | idle (run : ClassRun) : Step run run
  | declareField {draft named : ClassDraft} {field : Field} {namings : List Naming}
      {started : List MethodSignature} {ends : List MethodEnd}
      (names : draft.Names (.given .root field.name) named) :
      Step ⟨.ofClass draft, namings, started, ends⟩
        ⟨.ofClass { named with fields := draft.fields ++ [field] },
          .given .root field.name :: namings, started, ends⟩
  | issueName {draft named : ClassDraft} {naming : Naming} {namings : List Naming}
      {started : List MethodSignature} {ends : List MethodEnd}
      (names : draft.Names naming named) :
      Step ⟨.ofClass draft, namings, started, ends⟩
        ⟨.ofClass named, naming :: namings, started, ends⟩
  | startMethod {draft named : ClassDraft} {naming : Naming} {signature : MethodSignature}
      {nameScope : ScopeId} {scopes : NestedScopes NameFrame} {namings : List Naming}
      {started : List MethodSignature} {ends : List MethodEnd}
      (names : draft.Names naming named) (sameName : naming.name = signature.name)
      (entered : named.names.scopes.enter .root (some signature.name) .empty =
        .ok nameScope scopes)
      (isNew : (named.handingOut signature nameScope scopes).IsNew) :
      Step ⟨.ofClass draft, namings, started, ends⟩
        ⟨.ofMethod (named.handingOut signature nameScope scopes), naming :: namings,
          started ++ [signature], ends⟩
  | inMethod {draft : MethodDraft} {namings : List Naming} {started : List MethodSignature}
      {ends : List MethodEnd} (call : MethodCall) :
      Step ⟨.ofMethod draft, namings, started, ends⟩
        ⟨.ofMethod (call.after draft), call.namings draft ++ namings, started, ends⟩
  | complete {draft : MethodDraft} {owner : ClassDraft} {namings : List Naming}
      {started : List MethodSignature} {ends : List MethodEnd}
      (completed : draft.complete = .ok () owner) :
      Step ⟨.ofMethod draft, namings, started, ends⟩
        ⟨.ofClass owner, namings, started, ends ++ [.completed draft.finished]⟩
  | failToComplete {draft : MethodDraft} {cause : DraftError} {owner : ClassDraft}
      {namings : List Naming} {started : List MethodSignature} {ends : List MethodEnd}
      (failed : draft.complete = .error cause owner) :
      Step ⟨.ofMethod draft, namings, started, ends⟩
        ⟨.ofClass owner, namings, started, ends ++ [.lost draft]⟩
  | abandon {draft : MethodDraft} {namings : List Naming} {started : List MethodSignature}
      {ends : List MethodEnd} :
      Step ⟨.ofMethod draft, namings, started, ends⟩
        ⟨.ofClass draft.abandon, namings, started, ends ++ [.lost draft]⟩

section Record

variable {namings : List Naming} {started : List MethodSignature} {ends : List MethodEnd}

theorem record_of_idle {run : ClassRun} {call : ClassCall}
    (same : Outcome.state (call.run run.bench) = run.bench)
    (unnamed : call.namings run.bench = []) (notStarted : call.started? run.bench = none)
    (notEnded : call.ended? run.bench = none) : run.record call = run := by
  simp only [record, same, unnamed, notStarted, notEnded, List.nil_append, Option.toList_none,
    List.append_nil]

theorem step_of_idle {run : ClassRun} {call : ClassCall}
    (same : Outcome.state (call.run run.bench) = run.bench)
    (unnamed : call.namings run.bench = []) (notStarted : call.started? run.bench = none)
    (notEnded : call.ended? run.bench = none) : Step run (run.record call) := by
  rw [record_of_idle same unnamed notStarted notEnded]
  exact .idle run

theorem ended?_ofClass (call : ClassCall) (draft : ClassDraft) :
    call.ended? (.ofClass draft) = none := by
  cases call <;> rfl

/-- A call that the class refuses leaves no trace in the run. -/
theorem record_of_refused {draft : ClassDraft} {call : ClassCall} {cause : DraftError}
    (refused : call.run (.ofClass draft) = .error cause (.ofClass draft))
    (unnamed : call.namings (.ofClass draft) = []) :
    record ⟨.ofClass draft, namings, started, ends⟩ call =
      ⟨.ofClass draft, namings, started, ends⟩ := by
  apply record_of_idle
  · rw [refused, Outcome.state_error]
  · exact unnamed
  · simp only [ClassCall.started?, refused]
  · exact ended?_ofClass call draft

theorem step_of_refused {draft : ClassDraft} {call : ClassCall} {cause : DraftError}
    (refused : call.run (.ofClass draft) = .error cause (.ofClass draft))
    (unnamed : call.namings (.ofClass draft) = []) :
    Step ⟨.ofClass draft, namings, started, ends⟩
      (record ⟨.ofClass draft, namings, started, ends⟩ call) := by
  rw [record_of_refused refused unnamed]
  exact .idle _

theorem step_ofClass (draft : ClassDraft) (call : ClassCall) :
    Step ⟨.ofClass draft, namings, started, ends⟩
      (record ⟨.ofClass draft, namings, started, ends⟩ call) := by
  cases call with
  | declareField name type modifiers =>
      rcases draft.declareField_cases name type modifiers with ⟨usable, result⟩ | ⟨cause, refused⟩
      · simp only [record, ClassCall.run, ClassCall.namings, ClassCall.started?, ClassCall.ended?,
          Workbench.onClass_of_ok result, result, Outcome.state_ok, Option.toList_none,
          List.append_nil]
        exact .declareField (.take usable name)
      · exact step_of_refused (Workbench.onClass_of_error refused _)
          (by simp only [ClassCall.namings, refused])
  | issueName hint =>
      rcases draft.issueName_cases hint with ⟨usable, result⟩ | ⟨cause, refused⟩
      · simp only [record, ClassCall.run, ClassCall.namings, ClassCall.started?, ClassCall.ended?,
          Workbench.onClass_of_ok result, result, Outcome.state_ok, Option.toList_none,
          List.append_nil]
        exact .issueName (.issue usable hint)
      · exact step_of_refused (Workbench.onClass_of_error refused _)
          (by simp only [ClassCall.namings, refused])
  | startMethod signature =>
      rcases draft.startMethod_cases signature with
        ⟨usable, nameScope, scopes, entered, result⟩ | ⟨cause, refused⟩
      · simp only [record, ClassCall.run, ClassCall.namings, ClassCall.started?, ClassCall.ended?,
          Workbench.onClass_of_ok result, result, Outcome.state_ok, Option.toList_none,
          Option.toList_some, List.append_nil]
        exact .startMethod (.take usable signature.name) rfl entered (.declared result)
      · exact step_of_refused (Workbench.onClass_of_error refused _)
          (by simp only [ClassCall.namings, refused])
  | startSyntheticMethod hint modifiers parameters returnType =>
      rcases draft.startSyntheticMethod_cases hint modifiers parameters returnType with
        ⟨usable, nameScope, scopes, entered, result⟩ | ⟨cause, refused⟩
      · simp only [record, ClassCall.run, ClassCall.namings, ClassCall.started?, ClassCall.ended?,
          Workbench.onClass_of_ok result, result, Outcome.state_ok, Option.toList_none,
          Option.toList_some, List.append_nil]
        exact .startMethod (.issue usable (some hint)) rfl entered (.synthetic result)
      · exact step_of_refused (Workbench.onClass_of_error refused _)
          (by simp only [ClassCall.namings, refused])
  | inMethod call => exact step_of_idle rfl rfl rfl rfl
  | completeMethod => exact step_of_idle rfl rfl rfl rfl
  | abandonMethod => exact step_of_idle rfl rfl rfl rfl

theorem step_ofMethod (draft : MethodDraft) (call : ClassCall) :
    Step ⟨.ofMethod draft, namings, started, ends⟩
      (record ⟨.ofMethod draft, namings, started, ends⟩ call) := by
  cases call with
  | declareField name type modifiers => exact step_of_idle rfl rfl rfl rfl
  | issueName hint => exact step_of_idle rfl rfl rfl rfl
  | startMethod signature => exact step_of_idle rfl rfl rfl rfl
  | startSyntheticMethod hint modifiers parameters returnType =>
      exact step_of_idle rfl rfl rfl rfl
  | inMethod call =>
      simp only [record, ClassCall.run, ClassCall.namings, ClassCall.started?, ClassCall.ended?,
        Outcome.state_lift, MethodCall.state_run, Option.toList_none, List.append_nil]
      exact .inMethod call
  | completeMethod =>
      cases result : draft.complete with
      | ok answer owner =>
          simp only [record, ClassCall.run, ClassCall.namings, ClassCall.started?,
            ClassCall.ended?, Outcome.state_lift, result, Outcome.state_ok, Option.toList_none,
            Option.toList_some, List.append_nil]
          exact .complete result
      | error cause owner =>
          simp only [record, ClassCall.run, ClassCall.namings, ClassCall.started?,
            ClassCall.ended?, Outcome.state_lift, result, Outcome.state_error, Option.toList_none,
            Option.toList_some, List.append_nil]
          exact .failToComplete result
  | abandonMethod =>
      simp only [record, ClassCall.run, ClassCall.namings, ClassCall.started?, ClassCall.ended?,
        Outcome.state_ok, Option.toList_none, Option.toList_some, List.append_nil]
      exact .abandon

end Record

theorem step_record (run : ClassRun) (call : ClassCall) : Step run (run.record call) := by
  rcases run with ⟨draft | draft, namings, started, ends⟩
  · exact step_ofClass draft call
  · exact step_ofMethod draft call

/-- The draft of a method on the workbench has been handed out and then led there by calls. -/
theorem isReachable_of_ofMethod {header : ClassHeader} {options : ClassOptions}
    {calls : List ClassCall} {draft : MethodDraft}
    (live : (ofCalls header options calls).bench = .ofMethod draft) : draft.IsReachable := by
  induction calls using List.reverseRecOn generalizing draft with
  | nil => cases live
  | append_singleton calls call ih =>
      rw [ofCalls_append] at live
      have step := step_record (ofCalls header options calls) call
      generalize ofCalls header options calls = run at ih live step
      generalize run.record call = after at live step
      cases step with
      | idle => exact ih live
      | declareField names => cases live
      | issueName names => cases live
      | startMethod names sameName entered isNew =>
          cases live
          exact isNew.isReachable
      | inMethod call =>
          cases live
          exact (ih rfl).after call
      | complete completed => cases live
      | failToComplete failed => cases live
      | abandon => cases live

/-- What every call keeps holds of all runs. The scopes of a method at work are in lockstep. -/
theorem ofCalls_keeps (invariant : ClassRun → Prop)
    (kept : ∀ {run after : ClassRun},
      (∀ draft, run.bench = .ofMethod draft → draft.Lockstep) → Step run after →
        invariant run → invariant after)
    {header : ClassHeader} {options : ClassOptions} (holds : invariant (initial header options))
    (calls : List ClassCall) : invariant (ofCalls header options calls) := by
  induction calls using List.reverseRecOn with
  | nil => exact holds
  | append_singleton calls call ih =>
      rw [ofCalls_append]
      apply kept _ (step_record _ call) ih
      intro draft live
      exact (isReachable_of_ofMethod live).lockstep

end ClassRun

end JvmEmit
