import JvmEmit.Proofs.Method.Namings
import JvmEmit.Proofs.Method.Parameters

/-!
# Failed calls on a method's draft

Some calls on a draft are several operations in a row, on the two trees of scopes of the method. A
failed call leaves nothing of them behind: what can fail is asked first, and what comes behind it
cannot fail, because the scopes are in lockstep and fresh names are not those of variables in sight.
Only the first start of the body may come to a stop in the middle, at a parameter whose name is taken.
-/

namespace JvmEmit

/-! ## Programs without their answers -/

section Discard

variable {ε σ α : Type} {program : EStateM ε σ α} {before after : σ}

theorem discard_of_ok {answer : α} (ran : program before = .ok answer after) :
    discard program before = .ok ⟨⟩ after := by
  change EStateM.map _ program before = _
  rw [EStateM.map, ran]

theorem discard_of_error {cause : ε} (failed : program before = .error cause after) :
    discard program before = .error cause after := by
  change EStateM.map _ program before = _
  rw [EStateM.map, failed]

@[simp]
theorem state_discard (program : EStateM ε σ α) (before : σ) :
    Outcome.state (discard program before) = Outcome.state (program before) := by
  cases result : program before with
  | ok answer after => rw [discard_of_ok result, Outcome.state_ok, Outcome.state_ok]
  | error cause after => rw [discard_of_error result, Outcome.state_error, Outcome.state_error]

/-- If the program fails, it leaves the state as it was. -/
def FailsClean (program : EStateM ε σ α) (before : σ) : Prop :=
  ∀ cause after, program before = .error cause after → after = before

namespace FailsClean

theorem of_ok {answer : α} (ran : program before = .ok answer after) :
    FailsClean program before := by
  intro cause left failed
  rw [ran] at failed
  cases failed

theorem of_error {cause : ε} (refused : program before = .error cause before) :
    FailsClean program before := by
  intro other left failed
  rw [refused] at failed
  cases failed
  rfl

theorem of_state (same : Outcome.state (program before) = before) :
    FailsClean program before := by
  intro cause left failed
  rw [failed] at same
  exact same

theorem discard (clean : FailsClean program before) :
    FailsClean (Functor.discard program) before := by
  intro cause left failed
  cases result : program before with
  | ok answer after =>
      rw [discard_of_ok result] at failed
      cases failed
  | error cause after =>
      rw [discard_of_error result] at failed
      cases failed
      exact clean cause left result

end FailsClean

end Discard

namespace MethodCall

/-- A call without its answer. -/
def run (call : MethodCall) : MethodM Unit :=
  match call with
  | .startBody => discard MethodDraft.startBody
  | .enterBlock parent label => discard (MethodDraft.enterBlock parent label)
  | .isBlockClosed id => discard (MethodDraft.isBlockClosed id)
  | .leaveBlock id => discard (MethodDraft.leaveBlock id)
  | .addVariable id type name => discard (MethodDraft.addVariable id type name)
  | .addTemporary id type hint => discard (MethodDraft.addTemporary id type hint)
  | .issueName id hint => discard (MethodDraft.issueName id hint)
  | .takeName id name => MethodDraft.takeName id name
  | .visibleVariable id name => discard (MethodDraft.visibleVariable id name)
  | .createLabel id hint => discard (MethodDraft.createLabel id hint)
  | .bindLabel id label => MethodDraft.bindLabel id label
  | .append id instruction => MethodDraft.append id instruction

theorem state_run (call : MethodCall) (draft : MethodDraft) :
    Outcome.state (call.run draft) = call.after draft := by
  cases call <;> simp [run, after]

end MethodCall

/-! ## Calls that fail -/

namespace MethodDraft

variable {draft : MethodDraft}

theorem startBody_failsClean (lockstep : draft.Lockstep)
    (distinct : draft.body = none →
      (draft.signature.parameters.filterMap Parameter.name).Nodup) :
    FailsClean startBody draft := by
  cases started : draft.body with
  | some body => exact .of_error (startBody_of_started started)
  | none =>
      rcases startBody_of_distinct lockstep started (distinct started) with ⟨body, after, result⟩
      exact .of_ok result

theorem enterBlock_failsClean (lockstep : draft.Lockstep) (id : BlockId) (label : Option String) :
    FailsClean (enterBlock id label) draft := by
  rcases usableBlock_cases id draft with ⟨outer, found, usable, _⟩ | ⟨cause, refused⟩
  · rcases enterBlock_of_usable lockstep found usable label with ⟨_, _, _, _, _, _, result⟩
    exact .of_ok result
  · exact .of_error (enterBlock_of_refused refused label)

theorem leaveBlock_failsClean (lockstep : draft.Lockstep) (id : BlockId) :
    FailsClean (leaveBlock id) draft := by
  rcases leaveBlock_cases lockstep id with ⟨_, _, _, result⟩ | same | ⟨cause, refused⟩
  · exact .of_ok result
  · exact .of_ok same
  · exact .of_error refused

theorem addVariable_failsClean (lockstep : draft.Lockstep) (id : BlockId) (type : JvmType)
    (name : Option String) : FailsClean (addVariable id type name) draft := by
  rcases addVariable_cases lockstep id type name with ⟨_, _, _, result⟩ | ⟨cause, refused⟩
  · exact .of_ok result
  · exact .of_error refused

theorem addTemporary_failsClean {namings : List Naming} (wellNamed : draft.WellNamed namings)
    (few : namings.length ≤ NameSupply.maxIndex) (id : BlockId) (type : JvmType)
    (hint : Option String) : FailsClean (addTemporary id type hint) draft := by
  rcases wellNamed.addTemporary_cases few id type hint with ⟨_, _, _, result⟩ | ⟨cause, refused⟩
  · exact .of_ok result
  · exact .of_error refused

theorem issueName_failsClean (id : BlockId) (hint : Option String) :
    FailsClean (issueName id hint) draft := by
  rcases issueName_cases draft id hint with ⟨_, _, _, result⟩ | ⟨cause, refused⟩
  · exact .of_ok result
  · exact .of_error refused

theorem takeName_failsClean (id : BlockId) (name : String) :
    FailsClean (takeName id name) draft := by
  rcases takeName_cases draft id name with ⟨_, _, _, result⟩ | ⟨cause, refused⟩
  · exact .of_ok result
  · exact .of_error refused

theorem createLabel_failsClean (id : BlockId) (hint : Option String) :
    FailsClean (createLabel id hint) draft := by
  rcases createLabel_cases draft id hint with ⟨_, _, _, result⟩ | ⟨cause, refused⟩
  · exact .of_ok result
  · exact .of_error refused

theorem bindLabel_failsClean (id : BlockId) (label : Label) :
    FailsClean (bindLabel id label) draft := by
  rcases bindLabel_cases draft id label with ⟨_, _, _, _, result⟩ | ⟨cause, refused⟩
  · exact .of_ok result
  · exact .of_error refused

theorem append_failsClean (id : BlockId) (instruction : Instruction) :
    FailsClean (append id instruction) draft := by
  rcases append_cases draft id instruction with
    ⟨label, rfl, _⟩ | ⟨_, _, _, _, result⟩ | ⟨cause, refused⟩
  · exact bindLabel_failsClean id label
  · exact .of_ok result
  · exact .of_error refused

end MethodDraft

namespace MethodCall

variable {draft : MethodDraft}

/--
A failed call changes nothing. For starting the body this holds if it has been started before or if
the parameters have different names, and for a temporary as long as indices are left to make fresh
names with.
-/
theorem failsClean (lockstep : draft.Lockstep) (call : MethodCall)
    (distinct : call = .startBody → draft.body = none →
      (draft.signature.parameters.filterMap Parameter.name).Nodup)
    (named : ∀ id type hint, call = .addTemporary id type hint →
      ∃ namings, draft.WellNamed namings ∧ namings.length ≤ NameSupply.maxIndex) :
    FailsClean call.run draft := by
  cases call with
  | startBody => exact (MethodDraft.startBody_failsClean lockstep (distinct rfl)).discard
  | enterBlock parent label =>
      exact (MethodDraft.enterBlock_failsClean lockstep parent label).discard
  | isBlockClosed id => exact (FailsClean.of_state (MethodDraft.state_isBlockClosed id draft)).discard
  | leaveBlock id => exact (MethodDraft.leaveBlock_failsClean lockstep id).discard
  | addVariable id type name =>
      exact (MethodDraft.addVariable_failsClean lockstep id type name).discard
  | addTemporary id type hint =>
      rcases named id type hint rfl with ⟨namings, wellNamed, few⟩
      exact (MethodDraft.addTemporary_failsClean wellNamed few id type hint).discard
  | issueName id hint => exact (MethodDraft.issueName_failsClean id hint).discard
  | takeName id name => exact MethodDraft.takeName_failsClean id name
  | visibleVariable id name =>
      exact (FailsClean.of_state (MethodDraft.state_visibleVariable id name draft)).discard
  | createLabel id hint => exact (MethodDraft.createLabel_failsClean id hint).discard
  | bindLabel id label => exact MethodDraft.bindLabel_failsClean id label
  | append id instruction => exact MethodDraft.append_failsClean id instruction

end MethodCall

end JvmEmit
