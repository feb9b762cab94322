import JvmEmit.Proofs.Class.Runs

/-!
# What callers see of a class

The calls of a run have answers of different kinds. Here all of them are answers of one type, so that
the answers in two runs can be compared call by call. Beside the answers, a caller can read off some
parts of what lies on the workbench.
-/

namespace JvmEmit

/-- What a call answers with. A method that is handed out is known by its signature. -/
inductive Answer where
  | done
  | ofBlock (id : BlockId)
  | ofBool (holds : Bool)
  | ofName (name : String)
  | ofLabel (label : Label)
  | ofVariable (found : Variable JvmType)
  | ofField (field : Field)
  | ofMethod (signature : MethodSignature)
deriving DecidableEq

theorem state_map {ε σ α β : Type} (change : α → β) (program : EStateM ε σ α) (before : σ) :
    Outcome.state ((change <$> program) before) = Outcome.state (program before) := by
  change Outcome.state (EStateM.map change program before) = _
  rw [EStateM.map]
  cases program before <;> rfl

namespace MethodCall

/-- A call on the draft of a method, with its answer. -/
def answering (call : MethodCall) : MethodM Answer :=
  match call with
  | .startBody => Answer.ofBlock <$> MethodDraft.startBody
  | .enterBlock parent label => Answer.ofBlock <$> MethodDraft.enterBlock parent label
  | .isBlockClosed id => Answer.ofBool <$> MethodDraft.isBlockClosed id
  | .leaveBlock id => Answer.ofBool <$> MethodDraft.leaveBlock id
  | .addVariable id type name => Answer.ofVariable <$> MethodDraft.addVariable id type name
  | .addTemporary id type hint => Answer.ofVariable <$> MethodDraft.addTemporary id type hint
  | .issueName id hint => Answer.ofName <$> MethodDraft.issueName id hint
  | .takeName id name => (fun _ => Answer.done) <$> MethodDraft.takeName id name
  | .visibleVariable id name => Answer.ofVariable <$> MethodDraft.visibleVariable id name
  | .createLabel id hint => Answer.ofLabel <$> MethodDraft.createLabel id hint
  | .bindLabel id label => (fun _ => Answer.done) <$> MethodDraft.bindLabel id label
  | .append id instruction => (fun _ => Answer.done) <$> MethodDraft.append id instruction

theorem state_answering (call : MethodCall) (draft : MethodDraft) :
    Outcome.state (call.answering draft) = call.after draft := by
  cases call <;> exact state_map _ _ _

end MethodCall

namespace Workbench

/-- An outcome as a caller sees it, and what it leaves on the workbench. -/
def answered {σ α : Type} (answer : α → Answer) (next : α → σ → Workbench)
    (failed : σ → Workbench) : Outcome DraftError σ α → Outcome DraftError Workbench Answer
  | .ok value left => .ok (answer value) (next value left)
  | .error cause left => .error cause (failed left)

theorem state_answered {α : Type} (answer : α → Answer) (next : α → ClassDraft → Workbench)
    (program : ClassM α) (draft : ClassDraft) :
    Outcome.state (answered answer next .ofClass (program draft)) =
      Outcome.state (onClass program next draft) := by
  rw [onClass]
  cases program draft <;> rfl

theorem state_answered_of_embed {σ α : Type} (answer : α → Answer) (embed : σ → Workbench)
    (outcome : Outcome DraftError σ α) :
    Outcome.state (answered answer (fun _ => embed) embed outcome) =
      embed (Outcome.state outcome) := by
  cases outcome <;> rfl

/-- What can be read off a workbench, apart from the methods completed so far. -/
inductive View where
  | ofClass (header : ClassHeader) (options : ClassOptions) (fields : List Field)
  | ofMethod (signature : MethodSignature) (body : Option BlockId) (code : Array Instruction)
      (maxLocals : Nat) (receiver : Option (Variable JvmType))
deriving DecidableEq

/-- What can be read off a workbench, be it a class or a method. -/
def view : Workbench → View
  | .ofClass draft => .ofClass draft.header draft.options draft.fields
  | .ofMethod draft =>
      .ofMethod draft.signature draft.body draft.code draft.maxLocals draft.receiver?

end Workbench

namespace ClassCall

/-- A call with its answer. A call that does not fit what lies on the workbench does nothing. -/
def answering (call : ClassCall) (bench : Workbench) : Outcome DraftError Workbench Answer :=
  match call, bench with
  | .declareField name type modifiers, .ofClass draft =>
      Workbench.answered .ofField (fun _ => .ofClass) .ofClass
        (ClassDraft.declareField name type modifiers draft)
  | .issueName hint, .ofClass draft =>
      Workbench.answered .ofName (fun _ => .ofClass) .ofClass (ClassDraft.issueName hint draft)
  | .startMethod signature, .ofClass draft =>
      Workbench.answered (fun method => .ofMethod method.signature)
        (fun method _ => .ofMethod method) .ofClass
        (ClassDraft.startMethod signature draft)
  | .startSyntheticMethod hint modifiers parameters returnType, .ofClass draft =>
      Workbench.answered (fun method => .ofMethod method.signature)
        (fun method _ => .ofMethod method) .ofClass
        (ClassDraft.startSyntheticMethod hint modifiers parameters returnType draft)
  | .inMethod call, .ofMethod draft =>
      Workbench.answered id (fun _ => .ofMethod) .ofMethod (call.answering draft)
  | .completeMethod, .ofMethod draft =>
      Workbench.answered (fun _ => .done) (fun _ => .ofClass) .ofClass draft.complete
  | .abandonMethod, .ofMethod draft => .ok .done (.ofClass draft.abandon)
  | _, _ => .ok .done bench

theorem state_answering (call : ClassCall) (bench : Workbench) :
    Outcome.state (call.answering bench) = Outcome.state (call.run bench) := by
  cases bench with
  | ofClass draft =>
      cases call with
      | declareField name type modifiers => exact Workbench.state_answered _ _ _ _
      | issueName hint => exact Workbench.state_answered _ _ _ _
      | startMethod signature => exact Workbench.state_answered _ _ _ _
      | startSyntheticMethod hint modifiers parameters returnType =>
          exact Workbench.state_answered _ _ _ _
      | inMethod call => rfl
      | completeMethod => rfl
      | abandonMethod => rfl
  | ofMethod draft =>
      cases call with
      | declareField name type modifiers => rfl
      | issueName hint => rfl
      | startMethod signature => rfl
      | startSyntheticMethod hint modifiers parameters returnType => rfl
      | inMethod call =>
          rw [run, Outcome.state_lift, MethodCall.state_run]
          exact (Workbench.state_answered_of_embed _ _ _).trans
            (congrArg Workbench.ofMethod (call.state_answering draft))
      | completeMethod =>
          rw [run, Outcome.state_lift]
          exact Workbench.state_answered_of_embed _ _ _
      | abandonMethod => rfl

end ClassCall

/-! ## Calls in a row -/

namespace Workbench

/-- The workbench after a list of calls, whether they succeed or fail. -/
def after (bench : Workbench) (calls : List ClassCall) : Workbench :=
  calls.foldl (fun bench call => Outcome.state (call.run bench)) bench

theorem after_append (bench : Workbench) (calls more : List ClassCall) :
    bench.after (calls ++ more) = (bench.after calls).after more :=
  List.foldl_append

theorem after_inMethod (draft : MethodDraft) (calls : List MethodCall) :
    (ofMethod draft).after (calls.map .inMethod) =
      .ofMethod (MethodRun.ofCalls draft calls).draft := by
  induction calls using List.reverseRecOn with
  | nil => rfl
  | append_singleton calls call ih =>
      rw [List.map_append, after_append, ih, MethodRun.ofCalls_append]
      change Outcome.state (Outcome.lift id ofMethod _) = _
      rw [Outcome.state_lift, MethodCall.state_run]
      rfl

theorem after_completeMethod {draft : MethodDraft} {left : ClassDraft}
    (completed : draft.complete = .ok () left) :
    (ofMethod draft).after [.completeMethod] = .ofClass left := by
  change Outcome.state (Outcome.lift id ofClass draft.complete) = _
  rw [completed]
  rfl

end Workbench

/-- What lies on the workbench does not depend on what a run keeps beside it. -/
theorem ClassRun.bench_ofCalls (header : ClassHeader) (options : ClassOptions)
    (calls : List ClassCall) :
    (ofCalls header options calls).bench =
      (Workbench.ofClass (.ofHeader header options)).after calls := by
  induction calls using List.reverseRecOn with
  | nil => rfl
  | append_singleton calls call ih =>
      rw [ofCalls_append, Workbench.after_append, ← ih]
      rfl

end JvmEmit
