import JvmEmit.Proofs.Class.Namings

/-!
# Failed calls change nothing

A call on a class under construction, or on the method that has taken it over, either does all it is
meant to do or leaves everything as it was: members, names, variables, blocks, positions and code.
The exception is the first start of a body whose parameters share a name. What a failed completion of
a method leaves is no exception, since completing uses up the draft of the method.
-/

namespace JvmEmit

theorem Outcome.eq_error_of_isOk_eq_false {ε σ α : Type} {outcome : Outcome ε σ α}
    (fails : outcome.toExcept.isOk = false) : ∃ cause left, outcome = .error cause left := by
  cases outcome with
  | ok answer left => cases fails
  | error cause left => exact ⟨cause, left, rfl⟩

namespace ClassDraft

variable {draft : ClassDraft}

theorem declareField_failsClean (name : String) (type : JvmType) (modifiers : FieldModifiers) :
    FailsClean (declareField name type modifiers) draft := by
  rcases draft.declareField_cases name type modifiers with ⟨_, result⟩ | ⟨cause, refused⟩
  · exact .of_ok result
  · exact .of_error refused

theorem issueName_failsClean (hint : Option String) : FailsClean (issueName hint) draft := by
  rcases draft.issueName_cases hint with ⟨_, result⟩ | ⟨cause, refused⟩
  · exact .of_ok result
  · exact .of_error refused

theorem startMethod_failsClean (signature : MethodSignature) :
    FailsClean (startMethod signature) draft := by
  rcases draft.startMethod_cases signature with ⟨_, _, _, _, result⟩ | ⟨cause, refused⟩
  · exact .of_ok result
  · exact .of_error refused

theorem startSyntheticMethod_failsClean (hint : String) (modifiers : MethodModifiers)
    (parameters : List Parameter) (returnType : JvmType) :
    FailsClean (startSyntheticMethod hint modifiers parameters returnType) draft := by
  rcases draft.startSyntheticMethod_cases hint modifiers parameters returnType with
    ⟨_, _, _, _, result⟩ | ⟨cause, refused⟩
  · exact .of_ok result
  · exact .of_error refused

end ClassDraft

namespace Workbench

variable {draft : ClassDraft} {cause : DraftError} {left : Workbench}

theorem eq_of_onClass_error {α : Type} {program : ClassM α} (clean : FailsClean program draft)
    {next : α → ClassDraft → Workbench}
    (failed : onClass program next draft = .error cause left) : left = .ofClass draft := by
  cases result : program draft with
  | ok answer after =>
      rw [onClass_of_ok result] at failed
      cases failed
  | error cause after =>
      rw [onClass_of_error result] at failed
      cases failed
      rw [clean cause after result]

end Workbench

namespace ClassCall

variable {call : ClassCall} {cause : DraftError} {left : Workbench}

theorem eq_of_error_ofClass {draft : ClassDraft}
    (failed : call.run (.ofClass draft) = .error cause left) : left = .ofClass draft := by
  cases call with
  | declareField name type modifiers =>
      exact Workbench.eq_of_onClass_error (ClassDraft.declareField_failsClean _ _ _) failed
  | issueName hint => exact Workbench.eq_of_onClass_error (ClassDraft.issueName_failsClean _) failed
  | startMethod signature =>
      exact Workbench.eq_of_onClass_error (ClassDraft.startMethod_failsClean _) failed
  | startSyntheticMethod hint modifiers parameters returnType =>
      exact Workbench.eq_of_onClass_error (ClassDraft.startSyntheticMethod_failsClean _ _ _ _) failed
  | inMethod call => cases failed
  | completeMethod => cases failed
  | abandonMethod => cases failed

theorem eq_of_error_inMethod {draft : MethodDraft} {call : MethodCall}
    (clean : FailsClean call.run draft)
    (failed : ClassCall.run (.inMethod call) (.ofMethod draft) = .error cause left) :
    left = .ofMethod draft := by
  rw [run] at failed
  cases result : call.run draft with
  | ok answer after =>
      rw [result] at failed
      cases failed
  | error cause after =>
      rw [result] at failed
      cases failed
      rw [clean cause after result]

end ClassCall

namespace ClassRun

/--
In every run, a call that fails leaves the class and the method at work as they were. This leaves
aside the completion of a method, which uses up its draft, and the first start of a body whose
parameters share a name. For a temporary, indices must be left to make a fresh name with.
-/
theorem failed_call_changes_nothing (header : ClassHeader) (options : ClassOptions)
    (calls : List ClassCall) (call : ClassCall) {cause : DraftError} {left : Workbench}
    (failed : call.run (ofCalls header options calls).bench = .error cause left)
    (notCompletion : call ≠ .completeMethod)
    (distinct : ∀ draft, call = .inMethod .startBody →
      (ofCalls header options calls).bench = .ofMethod draft → draft.body = none →
      (draft.signature.parameters.filterMap Parameter.name).Nodup)
    (few : ∀ id type hint, call = .inMethod (.addTemporary id type hint) →
      (ofCalls header options calls).namings.length < UInt64.size) :
    left = (ofCalls header options calls).bench := by
  cases atWork : (ofCalls header options calls).bench with
  | ofClass draft =>
      rw [atWork] at failed
      exact ClassCall.eq_of_error_ofClass failed
  | ofMethod draft =>
      rw [atWork] at failed
      have lockstep := (isReachable_of_ofMethod atWork).lockstep
      cases call with
      | inMethod call =>
          refine ClassCall.eq_of_error_inMethod (call.failsClean lockstep ?_ ?_) failed
          · rintro rfl
            exact distinct draft rfl atWork
          · rintro id type hint rfl
            have fewNamings := Nat.le_pred_of_lt (few id type hint rfl)
            have wellNamed := wellNamed header options calls fewNamings
            rw [atWork] at wellNamed
            exact ⟨_, wellNamed, fewNamings⟩
      | completeMethod => exact absurd rfl notCompletion
      | declareField name type modifiers => cases failed
      | issueName hint => cases failed
      | startMethod signature => cases failed
      | startSyntheticMethod hint modifiers parameters returnType => cases failed
      | abandonMethod => cases failed

/-- The body of a method is frozen by a block inside it. -/
def freezingCalls : List ClassCall :=
  [.startMethod { name := "f" }, .inMethod .startBody, .inMethod (.enterBlock ⟨0⟩ none)]

theorem failed_call_changes_nothing_in_frozen_body :
    ∃ cause left,
      ClassCall.run (.inMethod (.addTemporary ⟨0⟩ .int none))
        (ofCalls { name := ⟨"", "A"⟩ } {} freezingCalls).bench = .error cause left ∧
      left = (ofCalls { name := ⟨"", "A"⟩ } {} freezingCalls).bench := by
  have fails : (Outcome.toExcept (ClassCall.run (.inMethod (.addTemporary ⟨0⟩ .int none))
      (ofCalls { name := ⟨"", "A"⟩ } {} freezingCalls).bench)).isOk = false := by
    decide +kernel
  have few : (ofCalls { name := ⟨"", "A"⟩ } {} freezingCalls).namings.length < UInt64.size := by
    decide +kernel
  rcases Outcome.eq_error_of_isOk_eq_false fails with ⟨cause, left, failed⟩
  refine ⟨cause, left, failed, failed_call_changes_nothing _ _ _ _ failed ?_ ?_ ?_⟩
  · simp
  · intro draft same
    cases same
  · intro _ _ _ _
    exact few

end ClassRun

end JvmEmit
