import JvmEmit.Proofs.Method.Programs

/-!
# The programs of a class's draft

Everything that a class under construction does goes through its outermost name scope. While that
scope can be used, a call does all it is meant to do, and otherwise it is refused and leaves the
class as it was. In particular, a class that has reserved the name of a method can also enter the
scope for the method's names.
-/

namespace JvmEmit

namespace ClassDraft

variable (draft : ClassDraft)

/-- The class with another name supply. -/
def withNames (names : NameSupply) : ClassDraft :=
  { draft with names }

/-- The draft of a method with a scope for its names and nothing else. -/
def handingOut (signature : MethodSignature) (nameScope : ScopeId)
    (scopes : NestedScopes NameFrame) : MethodDraft where
  owner := draft.withNames ⟨scopes⟩
  signature
  nameScope
  slots := .ofRoot (some signature.name)
  blocks := #[]
  body := none
  bound := #[]
  code := #[]
  declared := #[]

section Naming

variable {draft} {cause : ScopeError}

theorem issueName_of_usable (usable : draft.names.scopes.requireUsable .root = .ok ())
    (hint : Option String) :
    issueName hint draft =
      .ok (draft.names.freshName .root hint)
        (draft.withNames (draft.names.afterFresh .root hint)) := by
  rw [issueName, onNames, NameSupply.fresh_of_usable usable]
  rfl

theorem issueName_of_unusable (unusable : draft.names.scopes.requireUsable .root = .error cause)
    (hint : Option String) : issueName hint draft = .error (.scope cause) draft := by
  rw [issueName, onNames, NameSupply.fresh_of_unusable unusable]
  rfl

theorem takeName_of_usable (usable : draft.names.scopes.requireUsable .root = .ok ())
    (name : String) :
    takeName name draft = .ok () (draft.withNames (draft.names.afterReserve .root name)) := by
  rw [takeName, onNames, NameSupply.reserve_of_usable usable]
  rfl

theorem takeName_of_unusable (unusable : draft.names.scopes.requireUsable .root = .error cause)
    (name : String) : takeName name draft = .error (.scope cause) draft := by
  rw [takeName, onNames, NameSupply.reserve_of_unusable unusable]
  rfl

end Naming

theorem issueName_cases (hint : Option String) :
    (draft.names.scopes.requireUsable .root = .ok () ∧
      issueName hint draft =
        .ok (draft.names.freshName .root hint)
          (draft.withNames (draft.names.afterFresh .root hint))) ∨
    ∃ cause, issueName hint draft = .error cause draft := by
  cases check : draft.names.scopes.requireUsable .root with
  | ok => exact .inl ⟨rfl, issueName_of_usable check hint⟩
  | error cause => exact .inr ⟨.scope cause, issueName_of_unusable check hint⟩

theorem takeName_cases (name : String) :
    (draft.names.scopes.requireUsable .root = .ok () ∧
      takeName name draft = .ok () (draft.withNames (draft.names.afterReserve .root name))) ∨
    ∃ cause, takeName name draft = .error cause draft := by
  cases check : draft.names.scopes.requireUsable .root with
  | ok => exact .inl ⟨rfl, takeName_of_usable check name⟩
  | error cause => exact .inr ⟨.scope cause, takeName_of_unusable check name⟩

theorem declareField_cases (name : String) (type : JvmType) (modifiers : FieldModifiers) :
    (draft.names.scopes.requireUsable .root = .ok () ∧
      declareField name type modifiers draft =
        .ok { name, type, modifiers } {
          draft.withNames (draft.names.afterReserve .root name) with
          fields := draft.fields ++ [{ name, type, modifiers }] }) ∨
    ∃ cause, declareField name type modifiers draft = .error cause draft := by
  rw [declareField, get_bind]
  cases draft.fields.any fun field => field.name == name with
  | true => exact .inr ⟨.memberExists draft.header.name.sourceName name, rfl⟩
  | false =>
      rcases draft.takeName_cases name with ⟨usable, taken⟩ | ⟨cause, refused⟩
      · exact .inl ⟨usable, bind_of_ok taken⟩
      · exact .inr ⟨cause, bind_of_error refused⟩

variable {draft}

/-- The scope for a method's names can be entered whatever was just named. -/
theorem draftMethod_of_open (isOpen : draft.names.scopes.requireOpen .root = .ok ())
    (signature : MethodSignature) :
    ∃ nameScope scopes,
      draft.names.scopes.enter .root (some signature.name) .empty = .ok nameScope scopes ∧
      draftMethod signature draft =
        .ok (draft.handingOut signature nameScope scopes) (draft.withNames ⟨scopes⟩) := by
  rcases draft.names.scopes.enter_cases .root (some signature.name) NameFrame.empty with
    ⟨_, scopes, entered⟩ | ⟨cause, refused, _⟩
  · refine ⟨_, scopes, entered, bind_of_ok ?_⟩
    rw [onNames, NameSupply.enter, entered]
    rfl
  · rw [isOpen] at refused
    cases refused

variable (draft)

theorem startMethod_cases (signature : MethodSignature) :
    (draft.names.scopes.requireUsable .root = .ok () ∧
      let named := draft.withNames (draft.names.afterReserve .root signature.name)
      ∃ nameScope scopes,
        named.names.scopes.enter .root (some signature.name) .empty = .ok nameScope scopes ∧
        startMethod signature draft =
          .ok (named.handingOut signature nameScope scopes) (named.withNames ⟨scopes⟩)) ∨
    ∃ cause, startMethod signature draft = .error cause draft := by
  rcases draft.takeName_cases signature.name with ⟨usable, taken⟩ | ⟨cause, refused⟩
  · have isOpen := NestedScopes.requireOpen_of_requireUsable usable
    have stillOpen : (draft.withNames (draft.names.afterReserve .root
        signature.name)).names.scopes.requireOpen .root = .ok () :=
      (NestedScopes.requireOpen_modifyPayload_iff _ _ _ _).mpr isOpen
    rcases draftMethod_of_open stillOpen signature with ⟨nameScope, scopes, entered, drafted⟩
    exact .inl ⟨usable, nameScope, scopes, entered, (bind_of_ok taken).trans drafted⟩
  · exact .inr ⟨cause, bind_of_error refused⟩

theorem startSyntheticMethod_cases (hint : String) (modifiers : MethodModifiers)
    (parameters : List Parameter) (returnType : JvmType) :
    (draft.names.scopes.requireUsable .root = .ok () ∧
      let name := draft.names.freshName .root (some hint)
      let named := draft.withNames (draft.names.afterFresh .root (some hint))
      let signature : MethodSignature :=
        { name, modifiers := modifiers.union .syntheticMethod, parameters, returnType }
      ∃ nameScope scopes,
        named.names.scopes.enter .root (some name) .empty = .ok nameScope scopes ∧
        startSyntheticMethod hint modifiers parameters returnType draft =
          .ok (named.handingOut signature nameScope scopes) (named.withNames ⟨scopes⟩)) ∨
    ∃ cause, startSyntheticMethod hint modifiers parameters returnType draft =
      .error cause draft := by
  rcases draft.issueName_cases (some hint) with ⟨usable, issued⟩ | ⟨cause, refused⟩
  · have isOpen := NestedScopes.requireOpen_of_requireUsable usable
    have stillOpen : (draft.withNames (draft.names.afterFresh .root
        (some hint))).names.scopes.requireOpen .root = .ok () :=
      (NestedScopes.requireOpen_modifyPayload_iff _ _ _ _).mpr isOpen
    let signature : MethodSignature := {
      name := draft.names.freshName .root (some hint)
      modifiers := modifiers.union .syntheticMethod
      parameters
      returnType }
    rcases draftMethod_of_open stillOpen signature with ⟨nameScope, scopes, entered, drafted⟩
    refine .inl ⟨usable, nameScope, scopes, entered, ?_⟩
    rw [startSyntheticMethod, bind_of_ok issued]
    exact drafted
  · exact .inr ⟨cause, bind_of_error refused⟩

end ClassDraft

end JvmEmit
