import JvmEmit.Proofs.Class.Answers
import JvmEmit.Proofs.Method.Completion
import JvmEmit.Proofs.Method.Detour

/-!
# Classes beside a detour

Two runs of a class that differ by a detour inside a completed method cannot be told apart any more by
calls, whatever methods they start and complete later. Only the completed methods can be looked at, and
there the two differ in one place.
-/

namespace JvmEmit

namespace MethodDetour

variable {detour : MethodDetour}

/-! ## Members -/

section Members

open ClassDraft

variable {one two : ClassDraft}

theorem SeparatesClass.besideRoot (separates : detour.SeparatesClass one two) :
    detour.Beside one.names.scopes .root :=
  ⟨detour.inside.symm, Nat.lt_of_le_of_lt (Nat.zero_le _) separates.names.known⟩

theorem agree_onClassNames {α α' : Type} {matching : α → α' → Prop}
    {operation : NameSupply → Outcome ScopeError NameSupply α}
    {twin : NameSupply → Outcome ScopeError NameSupply α'}
    (separates : detour.SeparatesClass one two)
    (agree : detour.supplies.Agree matching one.names (operation one.names) (twin two.names)) :
    detour.classes.Agree matching one (onNames operation one) (onNames twin two) := by
  apply agree.lift
  intro left right related grown
  exact ⟨separates.withNames related, grown⟩

theorem agree_issueMember (hint : Option String) (separates : detour.SeparatesClass one two) :
    detour.classes.Agree (· = ·) one (ClassDraft.issueName hint one)
      (ClassDraft.issueName hint two) := by
  have agree := Detour.agree_fresh separates.names separates.besideRoot hint
  rw [Detour.moved_root] at agree
  exact agree_onClassNames separates agree

theorem agree_takeMember (name : String) (separates : detour.SeparatesClass one two) :
    detour.classes.Agree (· = ·) one (ClassDraft.takeName name one)
      (ClassDraft.takeName name two) := by
  have agree := Detour.agree_reserve separates.names separates.besideRoot name
  rw [Detour.moved_root] at agree
  exact agree_onClassNames separates agree

theorem SeparatesClass.withField (separates : detour.SeparatesClass one two) (field : Field) :
    detour.SeparatesClass { one with fields := one.fields ++ [field] }
      { two with fields := two.fields ++ [field] } :=
  ⟨separates.header, separates.options, congrArg (· ++ [field]) separates.fields, separates.names,
    separates.methods⟩

theorem agree_declareField (name : String) (type : JvmType) (modifiers : FieldModifiers)
    (separates : detour.SeparatesClass one two) :
    detour.classes.Agree (· = ·) one (declareField name type modifiers one)
      (declareField name type modifiers two) := by
  rw [declareField, get_bind, get_bind, separates.fields, separates.header]
  split
  · exact .throw separates _
  · apply (agree_takeMember name separates).bind
    rintro _ _ left right _ related _
    exact .ok rfl (related.withField _) (Nat.le_refl _)

/-! ## Methods that are started -/

theorem agree_draftMethod (signature : MethodSignature)
    (separates : detour.SeparatesClass one two) :
    detour.classes.Agree detour.SeparatesMethod one (draftMethod signature one)
      (draftMethod signature two) := by
  have entering := Detour.agree_enterNames separates.names separates.besideRoot
    (some signature.name)
  rw [Detour.moved_root] at entering
  apply (agree_onClassNames separates entering).bind_ran
  rintro nameScope _ left right rfl related grown entered
  rcases Outcome.lift_eq_ok entered with ⟨names, ran, rfl⟩
  have beside := separates.names.beside_of_enterNames ran
  rw [get_bind, get_bind]
  apply Correspondence.Agree.pure related
  -- The new draft has no blocks, so there are no name scopes to move but its own.
  have moved := @SeparatesMethod.moved detour {
    owner := { one with names }
    signature
    nameScope
    slots := .ofRoot (some signature.name)
    blocks := #[]
    body := none
    bound := #[]
    code := #[]
    declared := #[] } right related beside (by simp)
  rw [movedMethod, Array.map_empty] at moved
  exact moved

theorem agree_startMethod (signature : MethodSignature)
    (separates : detour.SeparatesClass one two) :
    detour.classes.Agree detour.SeparatesMethod one (startMethod signature one)
      (startMethod signature two) := by
  apply (agree_takeMember signature.name separates).bind
  rintro _ _ left right _ related _
  exact agree_draftMethod signature related

theorem agree_startSyntheticMethod (hint : String) (modifiers : MethodModifiers)
    (parameters : List Parameter) (returnType : JvmType)
    (separates : detour.SeparatesClass one two) :
    detour.classes.Agree detour.SeparatesMethod one
      (startSyntheticMethod hint modifiers parameters returnType one)
      (startSyntheticMethod hint modifiers parameters returnType two) := by
  apply (agree_issueMember (some hint) separates).bind
  rintro name _ left right rfl related _
  exact agree_draftMethod _ related

end Members

/-! ## Methods that are completed -/

section Completion

open MethodDraft

theorem SeparatesClass.withMethod {one two : ClassDraft}
    (separates : detour.SeparatesClass one two) (method : FinishedMethod) :
    detour.SeparatesClass { one with methods := one.methods ++ [method] }
      { two with methods := two.methods ++ [method] } := by
  refine ⟨separates.header, separates.options, separates.fields, separates.names, ?_⟩
  rcases separates.methods with ⟨later, methods, twinMethods⟩
  exact ⟨later ++ [method], by simp [methods], by simp [twinMethods]⟩

variable {one two : MethodDraft}

theorem SeparatesMethod.finished_eq (separates : detour.SeparatesMethod one two) :
    two.finished = one.finished := by
  cases separates with
  | @moved owner classes beside blocksBeside =>
      have sameEntry : ∀ id declared,
          MethodDraft.entry? (detour.movedMethod one owner) id declared =
            MethodDraft.entry? one id declared := by
        intro id declared
        simp only [MethodDraft.entry?, movedMethod, Array.getElem?_map]
        cases one.blocks[id.index]? <;> rfl
      have entries : (detour.movedMethod one owner).entries = one.entries := by
        rw [MethodDraft.entries, MethodDraft.entries]
        simp only [sameEntry]
        rfl
      have options : (detour.movedMethod one owner).owner.options = one.owner.options :=
        classes.options
      rw [finished, finished, options, entries]
      rfl

theorem agree_requireBodyClosed (separates : detour.SeparatesMethod one two) :
    detour.drafts.Agree (· = ·) one (requireBodyClosed one) (requireBodyClosed two) := by
  rw [requireBodyClosed, get_bind, get_bind, separates.body_eq, separates.signature_eq]
  cases one.body with
  | none => exact .pure separates rfl
  | some body =>
      apply (agree_isBlockClosed body separates).bind
      rintro closed _ left right rfl related _
      cases closed with
      | true => exact .pure related rfl
      | false => exact .throw related _

theorem agree_complete (separates : detour.SeparatesMethod one two) :
    detour.classes.Agree (· = ·) one.owner one.complete two.complete := by
  have required := agree_requireBodyClosed separates
  have closing := Detour.agree_closeNames separates.names separates.beside
  rw [← separates.nameScope_eq] at closing
  rw [complete, complete, separates.finished_eq]
  generalize requireBodyClosed one = check at required ⊢
  generalize requireBodyClosed two = twinCheck at required ⊢
  cases required with
  | error related grown => exact .error separates.classes (Nat.le_refl _)
  | ok same related grown =>
      generalize one.owner.names.close one.nameScope = closed at closing ⊢
      generalize two.owner.names.close two.nameScope = twinClosed at closing ⊢
      cases closing with
      | error related grown => exact .error (separates.classes.withNames related) grown
      | ok same related grown =>
          exact .ok rfl ((separates.classes.withNames related).withMethod one.finished) grown

end Completion

/-! ## Calls on the workbench -/

/-- The same part of the class is at work in both runs. -/
inductive SeparatesBench (detour : MethodDetour) : Workbench → Workbench → Prop where
  | ofClass {one two : ClassDraft} (separates : detour.SeparatesClass one two) :
      SeparatesBench detour (.ofClass one) (.ofClass two)
  | ofMethod {one two : MethodDraft} (separates : detour.SeparatesMethod one two) :
      SeparatesBench detour (.ofMethod one) (.ofMethod two)

/-- Workbenches correspond if the same part of the class is at work on them. -/
def benches (detour : MethodDetour) : Correspondence Workbench where
  related := detour.SeparatesBench
  grown _ _ := True
  grown_refl _ := trivial
  grown_trans _ _ := trivial

theorem agree_answered {σ α α' : Type} {part : Correspondence σ} {matching : α → α' → Prop}
    {partBefore : σ} {bench : Workbench} {first : Outcome DraftError σ α}
    {second : Outcome DraftError σ α'} {answer : α → Answer} {twinAnswer : α' → Answer}
    {next : α → σ → Workbench} {twinNext : α' → σ → Workbench} {failed twinFailed : σ → Workbench}
    (agree : part.Agree matching partBefore first second)
    (succeeding : ∀ {value twin left right}, matching value twin → part.related left right →
      answer value = twinAnswer twin ∧
        detour.SeparatesBench (next value left) (twinNext twin right))
    (failing : ∀ {left right}, part.related left right →
      detour.SeparatesBench (failed left) (twinFailed right)) :
    detour.benches.Agree (· = ·) bench (Workbench.answered answer next failed first)
      (Workbench.answered twinAnswer twinNext twinFailed second) := by
  cases agree with
  | ok same related grown =>
      exact .ok (succeeding same related).1 (succeeding same related).2 trivial
  | error related grown => exact .error (failing related) trivial

theorem agree_inMethod (call : MethodCall) {one two : MethodDraft}
    (separates : detour.SeparatesMethod one two) :
    detour.drafts.Agree (· = ·) one (call.answering one) (call.answering two) := by
  cases call with
  | startBody => exact (agree_startBody separates).map _ _ fun _ _ => congrArg _
  | enterBlock parent label =>
      exact (agree_enterBlock parent label separates).map _ _ fun _ _ => congrArg _
  | isBlockClosed id => exact (agree_isBlockClosed id separates).map _ _ fun _ _ => congrArg _
  | leaveBlock id => exact (agree_leaveBlock id separates).map _ _ fun _ _ => congrArg _
  | addVariable id type name =>
      exact (agree_addVariable id type name separates).map _ _ fun _ _ => congrArg _
  | addTemporary id type hint =>
      exact (agree_addTemporary id type hint separates).map _ _ fun _ _ => congrArg _
  | issueName id hint => exact (agree_issueName id hint separates).map _ _ fun _ _ => congrArg _
  | takeName id name => exact (agree_takeName id name separates).map _ _ fun _ _ _ => rfl
  | visibleVariable id name =>
      exact (agree_visibleVariable id name separates).map _ _ fun _ _ => congrArg _
  | createLabel id hint => exact (agree_createLabel id hint separates).map _ _ fun _ _ => congrArg _
  | bindLabel id label => exact (agree_bindLabel id label separates).map _ _ fun _ _ _ => rfl
  | append id instruction => exact (agree_append id instruction separates).map _ _ fun _ _ _ => rfl

theorem agree_answering (call : ClassCall) {one two : Workbench}
    (separates : detour.SeparatesBench one two) :
    detour.benches.Agree (· = ·) one (call.answering one) (call.answering two) := by
  have idle : detour.benches.Agree (ε := DraftError) (· = ·) one (.ok Answer.done one)
      (.ok Answer.done two) := .ok rfl separates trivial
  cases separates with
  | @ofClass one two separates =>
      cases call with
      | declareField name type modifiers =>
          apply agree_answered (agree_declareField name type modifiers separates)
          · rintro field _ left right rfl related
            exact ⟨rfl, .ofClass related⟩
          · exact .ofClass
      | issueName hint =>
          apply agree_answered (agree_issueMember hint separates)
          · rintro name _ left right rfl related
            exact ⟨rfl, .ofClass related⟩
          · exact .ofClass
      | startMethod signature =>
          apply agree_answered (agree_startMethod signature separates)
          · intro method twin left right same _
            exact ⟨congrArg _ same.signature_eq.symm, .ofMethod same⟩
          · exact .ofClass
      | startSyntheticMethod hint modifiers parameters returnType =>
          apply agree_answered
            (agree_startSyntheticMethod hint modifiers parameters returnType separates)
          · intro method twin left right same _
            exact ⟨congrArg _ same.signature_eq.symm, .ofMethod same⟩
          · exact .ofClass
      | inMethod call => exact idle
      | completeMethod => exact idle
      | abandonMethod => exact idle
  | @ofMethod one two separates =>
      cases call with
      | declareField name type modifiers => exact idle
      | issueName hint => exact idle
      | startMethod signature => exact idle
      | startSyntheticMethod hint modifiers parameters returnType => exact idle
      | inMethod call =>
          apply agree_answered (agree_inMethod call separates)
          · rintro answer _ left right rfl related
            exact ⟨rfl, .ofMethod related⟩
          · exact .ofMethod
      | completeMethod =>
          apply agree_answered (agree_complete separates)
          · rintro _ _ left right _ related
            exact ⟨rfl, .ofClass related⟩
          · exact .ofClass
      | abandonMethod => exact .ok rfl (.ofClass separates.classes) trivial

end MethodDetour

end JvmEmit
