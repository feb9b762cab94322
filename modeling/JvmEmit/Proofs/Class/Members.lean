import JvmEmit.Proofs.Class.LostMethods
import JvmEmit.Proofs.Class.Namings

/-!
# The names of members

The members of a class are its fields and its methods, and the name of a synthetic method is one that
the class hands out. Such a name differs from those of all members before it. It is not kept for the
synthetic method, though: a field is compared with the other fields only, and a method with nothing,
so a member that is declared later may have the name of a synthetic method.
-/

namespace JvmEmit

open NameSupply (maxIndex)

/-- A field or a method that a call has added to a class. -/
inductive Member where
  | field (declared : Field)
  | method (signature : MethodSignature) (synthetic : Bool)
deriving DecidableEq

namespace Member

/-- The name of a member, which a field and a method may share. -/
def name : Member → String
  | .field declared => declared.name
  | .method signature _ => signature.name

/-- The name of the member has been handed out by the class. -/
def isSynthetic : Member → Bool
  | .field _ => false
  | .method _ synthetic => synthetic

/-- The member as a field. -/
def field? : Member → Option Field
  | .field declared => some declared
  | .method .. => none

/-- The signature of the member as a method. -/
def signature? : Member → Option MethodSignature
  | .field _ => none
  | .method signature _ => some signature

/-- How the name of a member has come into use in the class. -/
def naming (member : Member) : Naming :=
  ⟨.root, member.name, member.isSynthetic⟩

end Member

namespace ClassCall

/-- The member that a call adds to the class. -/
def member? (call : ClassCall) (bench : Workbench) : Option Member :=
  match call, bench, call.run bench with
  | .declareField name type modifiers, .ofClass _, .ok .. => some (.field { name, type, modifiers })
  | .startMethod signature, .ofClass _, .ok .. => some (.method signature false)
  | .startSyntheticMethod .., .ofClass _, .ok _ (.ofMethod method) =>
      some (.method method.signature true)
  | _, _, _ => none

theorem member?_ofMethod (call : ClassCall) (draft : MethodDraft) :
    call.member? (.ofMethod draft) = none := by
  cases call <;> rfl

theorem member?_of_refused {call : ClassCall} {bench left : Workbench} {cause : DraftError}
    (refused : call.run bench = .error cause left) : call.member? bench = none := by
  cases call <;> simp [member?, refused]

end ClassCall

namespace ClassRun

/-- The members that calls add to the class, in this order. -/
def members (run : ClassRun) : List ClassCall → List Member
  | [] => []
  | call :: rest => (call.member? run.bench).toList ++ (run.record call).members rest

theorem members_append (run : ClassRun) (calls : List ClassCall) (call : ClassCall) :
    run.members (calls ++ [call]) =
      run.members calls ++ (call.member? (calls.foldl record run).bench).toList := by
  induction calls generalizing run with
  | nil => exact List.append_nil _
  | cons first calls ih =>
      rw [List.cons_append, members, members, ih, List.append_assoc]
      rfl

/-! ## The members of a run -/

/-- The members have come into use under their names, and make up the fields and the methods. -/
structure Lists (run : ClassRun) (members : List Member) : Prop where
  namings : (members.map Member.naming).reverse.Sublist run.namings
  fields : run.bench.owner.fields = members.filterMap Member.field?
  started : run.started = members.filterMap Member.signature?

namespace Lists

variable {run after : ClassRun} {members : List Member}

theorem initial (header : ClassHeader) (options : ClassOptions) :
    (ClassRun.initial header options).Lists [] :=
  ⟨.slnil, rfl, rfl⟩

/-- A call that adds no member may still bring names into use. -/
theorem unlisted (lists : run.Lists members) (later : List Naming)
    (namings : after.namings = later ++ run.namings)
    (fields : after.bench.owner.fields = run.bench.owner.fields)
    (started : after.started = run.started) : after.Lists members := by
  constructor
  · rw [namings]
    exact lists.namings.trans (List.sublist_append_right _ _)
  · rw [fields]
    exact lists.fields
  · rw [started]
    exact lists.started

theorem listed (lists : run.Lists members) (member : Member)
    (namings : after.namings = member.naming :: run.namings)
    (fields : after.bench.owner.fields = run.bench.owner.fields ++ member.field?.toList)
    (started : after.started = run.started ++ member.signature?.toList) :
    after.Lists (members ++ [member]) := by
  constructor
  · rw [namings, List.map_append, List.reverse_append]
    exact lists.namings.cons_cons _
  · rw [fields, lists.fields, List.filterMap_append]
    cases member <;> rfl
  · rw [started, lists.started, List.filterMap_append]
    cases member <;> rfl

section OfClass

variable {draft : ClassDraft} {namings : List Naming} {started : List MethodSignature}
  {ends : List MethodEnd}

theorem refused (lists : Lists ⟨.ofClass draft, namings, started, ends⟩ members)
    {call : ClassCall} {cause : DraftError}
    (refused : call.run (.ofClass draft) = .error cause (.ofClass draft))
    (unnamed : call.namings (.ofClass draft) = []) :
    (record ⟨.ofClass draft, namings, started, ends⟩ call).Lists
      (members ++ (call.member? (.ofClass draft)).toList) := by
  rw [ClassCall.member?_of_refused refused, Option.toList_none, List.append_nil]
  apply lists.unlisted []
  · rw [record, unnamed]
  · rw [record, refused, Outcome.state_error]
  · simp only [record, ClassCall.started?, refused, Option.toList_none, List.append_nil]

theorem record_ofClass (lists : Lists ⟨.ofClass draft, namings, started, ends⟩ members)
    (call : ClassCall) :
    (record ⟨.ofClass draft, namings, started, ends⟩ call).Lists
      (members ++ (call.member? (.ofClass draft)).toList) := by
  cases call with
  | declareField name type modifiers =>
      rcases draft.declareField_cases name type modifiers with ⟨_, result⟩ | ⟨cause, refused⟩
      · simp only [record, ClassCall.member?, ClassCall.run, ClassCall.namings,
          ClassCall.started?, Workbench.onClass_of_ok result, result, Outcome.state_ok]
        exact lists.listed (.field { name, type, modifiers }) rfl rfl rfl
      · exact lists.refused (Workbench.onClass_of_error refused _)
          (by simp only [ClassCall.namings, refused])
  | issueName hint =>
      rcases draft.issueName_cases hint with ⟨_, result⟩ | ⟨cause, refused⟩
      · simp only [record, ClassCall.member?, ClassCall.run, ClassCall.namings,
          ClassCall.started?, Workbench.onClass_of_ok result, result, Outcome.state_ok,
          Option.toList_none, List.append_nil]
        exact lists.unlisted [_] rfl rfl rfl
      · exact lists.refused (Workbench.onClass_of_error refused _)
          (by simp only [ClassCall.namings, refused])
  | startMethod signature =>
      rcases draft.startMethod_cases signature with
        ⟨_, nameScope, scopes, _, result⟩ | ⟨cause, refused⟩
      · simp only [record, ClassCall.member?, ClassCall.run, ClassCall.namings,
          ClassCall.started?, Workbench.onClass_of_ok result, result, Outcome.state_ok]
        exact lists.listed (.method signature false) rfl (List.append_nil _).symm rfl
      · exact lists.refused (Workbench.onClass_of_error refused _)
          (by simp only [ClassCall.namings, refused])
  | startSyntheticMethod hint modifiers parameters returnType =>
      rcases draft.startSyntheticMethod_cases hint modifiers parameters returnType with
        ⟨_, nameScope, scopes, _, result⟩ | ⟨cause, refused⟩
      · simp only [record, ClassCall.member?, ClassCall.run, ClassCall.namings,
          ClassCall.started?, Workbench.onClass_of_ok result, result, Outcome.state_ok]
        exact lists.listed (.method _ true) rfl (List.append_nil _).symm rfl
      · exact lists.refused (Workbench.onClass_of_error refused _)
          (by simp only [ClassCall.namings, refused])
  | inMethod call =>
      exact (List.append_nil members).symm ▸ lists.unlisted [] rfl rfl (List.append_nil _)
  | completeMethod =>
      exact (List.append_nil members).symm ▸ lists.unlisted [] rfl rfl (List.append_nil _)
  | abandonMethod =>
      exact (List.append_nil members).symm ▸ lists.unlisted [] rfl rfl (List.append_nil _)

end OfClass

/-- A call on a method, and one that ends it, adds no member. -/
theorem step_ofMethod {draft : MethodDraft} {namings : List Naming}
    {started : List MethodSignature} {ends : List MethodEnd}
    (lists : Lists ⟨.ofMethod draft, namings, started, ends⟩ members) (lockstep : draft.Lockstep)
    (step : Step ⟨.ofMethod draft, namings, started, ends⟩ after) : after.Lists members := by
  cases step with
  | idle => exact lists
  | inMethod call =>
      have owner := (MethodDraft.retains_after lockstep call).owner
      have fields := congrArg ClassDraft.fields owner
      exact lists.unlisted _ rfl fields rfl
  | complete completed =>
      rcases MethodDraft.owner_of_complete lockstep completed with ⟨names, rfl, _⟩
      exact lists.unlisted [] rfl rfl rfl
  | failToComplete failed =>
      have same := (MethodDraft.owner_of_failed_complete lockstep failed).2
      exact lists.unlisted [] rfl (congrArg ClassDraft.fields same) rfl
  | abandon => exact lists.unlisted [] rfl rfl rfl

end Lists

theorem lists (header : ClassHeader) (options : ClassOptions) (calls : List ClassCall) :
    (ofCalls header options calls).Lists ((initial header options).members calls) := by
  induction calls using List.reverseRecOn with
  | nil => exact .initial header options
  | append_singleton calls call ih =>
      have step := step_record (ofCalls header options calls) call
      have lockstep : ∀ draft, (ofCalls header options calls).bench = .ofMethod draft →
          draft.Lockstep :=
        fun draft atWork => (isReachable_of_ofMethod atWork).lockstep
      rw [ofCalls_append, members_append]
      change Lists _ (_ ++ (call.member? (ofCalls header options calls).bench).toList)
      generalize ofCalls header options calls = run at ih step lockstep ⊢
      rcases run with ⟨draft | draft, namings, started, ends⟩
      · exact ih.record_ofClass call
      · rw [ClassCall.member?_ofMethod, Option.toList_none, List.append_nil]
        exact ih.step_ofMethod (lockstep draft rfl) step

/-! ## Members of completed classes -/

theorem completed_signature_sublist (ends : List MethodEnd) :
    ((ends.filterMap MethodEnd.completed?).map FinishedMethod.signature).Sublist
      (ends.map MethodEnd.signature) := by
  induction ends with
  | nil => exact .slnil
  | cons last ends ih =>
      cases last with
      | completed method => exact ih.cons_cons _
      | lost draft => exact ih.cons _

/-- A synthetic method has a name that no member before it has. -/
theorem Lists.synthetic_names_new {run : ClassRun} {members : List Member}
    (lists : run.Lists members) (wellNamed : run.WellNamed)
    (few : run.namings.length ≤ maxIndex) :
    members.Pairwise fun earlier later =>
      later.isSynthetic = true → earlier.name ≠ later.name := by
  have remembers := (wellNamed few).remembers
  have isNew := remembers.issuedNew.sublist lists.namings
  rw [List.pairwise_reverse, List.pairwise_map] at isNew
  apply isNew.imp
  intro earlier later differs synthetic
  exact (differs synthetic List.mem_cons_self).symm

end ClassRun

/-! ## Members behind a synthetic method -/

namespace ClassDraft

variable {draft : ClassDraft}

theorem fields_of_complete {finished : FinishedClass} (result : draft.complete = .ok finished) :
    finished.fields = draft.fields := by
  unfold complete at result
  split at result
  · cases result
  · cases result
    rfl

/-- A field is compared with the other fields only. -/
theorem declareField_of_usable (usable : draft.names.scopes.requireUsable .root = .ok ())
    {name : String} (unused : ∀ field ∈ draft.fields, field.name ≠ name) (type : JvmType)
    (modifiers : FieldModifiers) :
    ∃ after, declareField name type modifiers draft = .ok { name, type, modifiers } after := by
  have noField : (draft.fields.any fun field => field.name == name) = false := by
    simpa using unused
  rw [declareField, get_bind, noField]
  exact ⟨_, bind_of_ok (takeName_of_usable usable name)⟩

/-- A method is compared with nothing. -/
theorem startMethod_of_usable (usable : draft.names.scopes.requireUsable .root = .ok ())
    (signature : MethodSignature) :
    ∃ method after, startMethod signature draft = .ok method after ∧
      method.signature = signature := by
  have isOpen : (draft.withNames
      (draft.names.afterReserve .root signature.name)).names.scopes.requireOpen .root = .ok () :=
    (NestedScopes.requireOpen_modifyPayload_iff _ _ _ _).mpr
      (NestedScopes.requireOpen_of_requireUsable usable)
  rcases draftMethod_of_open isOpen signature with ⟨nameScope, scopes, _, drafted⟩
  exact ⟨_, _, (bind_of_ok (takeName_of_usable usable signature.name)).trans drafted, rfl⟩

end ClassDraft

namespace ClassRun

/--
The name of a synthetic method differs from those of all members before it. A completed class has
the fields that were declared and those of the methods that were not lost, each in the order of its
declaration. But such a class takes any further field whose name no field has, and any further
method, so a member may still be declared under the name of a synthetic method. Since names are
numbered by 64-bit indices, a run is supposed to have fewer names than there are indices.
-/
theorem synthetic_methods_differ_from_earlier_members (header : ClassHeader)
    (options : ClassOptions) (calls : List ClassCall)
    (few : (ofCalls header options calls).namings.length < UInt64.size) :
    let members := (initial header options).members calls
    (members.Pairwise fun earlier later =>
      later.isSynthetic = true → earlier.name ≠ later.name) ∧
    ∀ draft finished, (ofCalls header options calls).bench = .ofClass draft →
      draft.complete = .ok finished →
        finished.fields = members.filterMap Member.field? ∧
        (finished.methods.map FinishedMethod.signature).Sublist
          (members.filterMap Member.signature?) ∧
        (∀ name, (∀ field ∈ finished.fields, field.name ≠ name) → ∀ type modifiers, ∃ after,
          ClassDraft.declareField name type modifiers draft =
            .ok { name, type, modifiers } after) ∧
        ∀ signature, ∃ method after,
          ClassDraft.startMethod signature draft = .ok method after ∧
            method.signature = signature := by
  intro members
  have lists : (ofCalls header options calls).Lists members := lists header options calls
  have isNew := lists.synthetic_names_new (wellNamed header options calls) (Nat.le_pred_of_lt few)
  refine ⟨isNew, ?_⟩
  intro draft finished atRest result
  have accounts := accounts_ofClass atRest
  rcases accounts.complete_cases with ⟨lostClosed, same, known, methods⟩ | ⟨_, cause, refused⟩
  · have usable := accounts.usable_iff.mpr lostClosed
    have fields := ClassDraft.fields_of_complete result
    cases result.symm.trans known
    refine ⟨?_, ?_, ?_, ?_⟩
    · rw [fields, ← lists.fields, atRest]
      rfl
    · rw [methods, ← lists.started, accounts.started]
      exact completed_signature_sublist _
    · intro name unused type modifiers
      rw [fields] at unused
      exact ClassDraft.declareField_of_usable usable unused type modifiers
    · exact ClassDraft.startMethod_of_usable usable
  · cases result.symm.trans refused

/-- A field is declared, and then a synthetic method is started under the name of the field. -/
def fieldFirstCalls : List ClassCall :=
  [.declareField "lambda$" .int .empty, .startSyntheticMethod "lambda$" .staticMethod [] .void,
    .inMethod .startBody, .inMethod (.leaveBlock ⟨0⟩), .completeMethod]

theorem synthetic_method_differs_from_earlier_field :
    ∃ draft finished,
      (ofCalls { name := ⟨"", "A"⟩ } {} fieldFirstCalls).bench = .ofClass draft ∧
      draft.complete = .ok finished ∧
      finished.fields.map Field.name = ["lambda$"] ∧
      finished.methods.map (fun method => method.signature.name) = ["lambda$1"] ∧
      ((initial { name := ⟨"", "A"⟩ } {}).members fieldFirstCalls).Pairwise
        (fun earlier later => later.isSynthetic = true → earlier.name ≠ later.name) ∧
      ∃ after, ClassDraft.declareField "lambda$1" .int .empty draft =
        .ok { name := "lambda$1", type := .int, modifiers := .empty } after := by
  have completed : (ofCalls { name := ⟨"", "A"⟩ } {} fieldFirstCalls).bench.completed?.map
      (fun finished => (finished.fields.map Field.name,
        finished.methods.map fun method => method.signature.name)) =
        some (["lambda$"], ["lambda$1"]) := by
    decide +kernel
  rcases Option.map_eq_some_iff.mp completed with ⟨finished, result, names⟩
  rcases Prod.mk.inj names with ⟨fields, methods⟩
  rcases Workbench.ofClass_of_completed? result with ⟨draft, atRest, complete⟩
  rcases synthetic_methods_differ_from_earlier_members { name := ⟨"", "A"⟩ } {} fieldFirstCalls
    (by decide +kernel) with ⟨differ, completes⟩
  rcases completes draft finished atRest complete with ⟨_, _, takesField, _⟩
  refine ⟨draft, finished, atRest, complete, fields, methods, differ, ?_⟩
  apply takesField
  intro field member same
  have named : field.name ∈ finished.fields.map Field.name := List.mem_map_of_mem member
  rw [fields, same] at named
  simp at named

/-- A synthetic method is completed, and then a field is declared under the name of the method. -/
def fieldLastCalls : List ClassCall :=
  [.startSyntheticMethod "lambda$" .staticMethod [] .void, .inMethod .startBody,
    .inMethod (.leaveBlock ⟨0⟩), .completeMethod, .declareField "lambda$" .int .empty]

theorem later_field_has_name_of_synthetic_method :
    ∃ draft finished signature,
      (ofCalls { name := ⟨"", "A"⟩ } {} fieldLastCalls).bench = .ofClass draft ∧
      draft.complete = .ok finished ∧
      .method signature true ∈ (initial { name := ⟨"", "A"⟩ } {}).members fieldLastCalls ∧
      signature ∈ finished.methods.map FinishedMethod.signature ∧
      signature.name ∈ finished.fields.map Field.name := by
  let synthetic : MethodSignature :=
    { name := "lambda$", modifiers := (.union .staticMethod .syntheticMethod) }
  have completed : (ofCalls { name := ⟨"", "A"⟩ } {} fieldLastCalls).bench.completed?.map
      (fun finished => (finished.fields.map Field.name,
        finished.methods.map FinishedMethod.signature)) = some (["lambda$"], [synthetic]) := by
    decide +kernel
  have added : .method synthetic true ∈
      (initial { name := ⟨"", "A"⟩ } {}).members fieldLastCalls := by
    decide +kernel
  rcases Option.map_eq_some_iff.mp completed with ⟨finished, result, names⟩
  rcases Prod.mk.inj names with ⟨fields, methods⟩
  rcases Workbench.ofClass_of_completed? result with ⟨draft, atRest, complete⟩
  refine ⟨draft, finished, synthetic, atRest, complete, added, ?_, ?_⟩
  · rw [methods]
    exact List.mem_singleton_self _
  · rw [fields]
    exact List.mem_singleton_self _

end ClassRun

end JvmEmit
