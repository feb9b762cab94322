import JvmEmit.Proofs.Method.Completion

/-!
# The options of the class

No call on the draft of a method looks at the options of its class. With other options the same calls
have the same answers and lead to the same draft, up to the options. Only the finished method differs,
and only in the debugger's entries.
-/

namespace JvmEmit

/-! ## Programs that ignore a change -/

section Ignores

variable {ε σ α β : Type} {change : σ → σ}

/-- A program does the same in a changed state, and leaves the change in place. -/
def Ignores (change : σ → σ) (program : EStateM ε σ α) : Prop :=
  ∀ state, program (change state) = Outcome.lift id change (program state)

namespace Ignores

theorem pure (answer : α) : Ignores change (Pure.pure answer : EStateM ε σ α) :=
  fun _ => rfl

theorem throw (cause : ε) : Ignores change (MonadExcept.throw cause : EStateM ε σ α) :=
  fun _ => rfl

theorem bind {program : EStateM ε σ α} {next : α → EStateM ε σ β} (first : Ignores change program)
    (second : ∀ answer, Ignores change (next answer)) : Ignores change (program >>= next) := by
  intro state
  have ran := first state
  cases result : program state with
  | ok answer after =>
      rw [result] at ran
      rw [bind_of_ok result, bind_of_ok ran]
      exact second answer after
  | error cause after =>
      rw [result] at ran
      rw [bind_of_error result, bind_of_error ran]
      rfl

/-- What is read from the state may decide what comes next, as long as the change does not touch it. -/
theorem read {next : σ → EStateM ε σ β} (same : ∀ state, next (change state) = next state)
    (ignores : ∀ state, Ignores change (next state)) : Ignores change (get >>= next) := by
  intro state
  rw [get_bind, get_bind, same]
  exact ignores state state

theorem modify {update : σ → σ} (same : ∀ state, update (change state) = change (update state)) :
    Ignores change (modify update : EStateM ε σ PUnit) := by
  intro state
  exact congrArg (EStateM.Result.ok PUnit.unit) (same state)

theorem forM {body : α → EStateM ε σ PUnit} (ignores : ∀ element, Ignores change (body element))
    (elements : List α) : Ignores change (elements.forM body) := by
  induction elements with
  | nil => exact pure _
  | cons element elements ih => exact (ignores element).bind fun _ => ih

end Ignores

end Ignores

namespace ClassDraft

variable (options : ClassOptions)

/-- The class with other options. -/
def withOptions (draft : ClassDraft) : ClassDraft :=
  { draft with options }

theorem ignores_onNames {α : Type} (operation : NameSupply → Outcome ScopeError NameSupply α) :
    Ignores (withOptions options) (onNames operation) := by
  intro draft
  change (operation draft.names).lift _ _ = ((operation draft.names).lift _ _).lift _ _
  cases operation draft.names <;> rfl

end ClassDraft

namespace MethodDraft

variable (options : ClassOptions)

/-- The draft of the same method in a class with other options. -/
def withOptions (draft : MethodDraft) : MethodDraft :=
  { draft with owner := draft.owner.withOptions options }

/-! ## The programs of a method's draft -/

theorem ignores_onNames {α : Type} (operation : NameSupply → Outcome ScopeError NameSupply α) :
    Ignores (withOptions options) (onNames operation) := by
  intro draft
  change (operation draft.owner.names).lift _ _ = ((operation draft.owner.names).lift _ _).lift _ _
  cases operation draft.owner.names <;> rfl

theorem ignores_onSlots {α : Type}
    (operation : SlotTable JvmType → Outcome ScopeError (SlotTable JvmType) α) :
    Ignores (withOptions options) (onSlots operation) := by
  intro draft
  change (operation draft.slots).lift _ _ = ((operation draft.slots).lift _ _).lift _ _
  cases operation draft.slots <;> rfl

theorem ignores_block (id : BlockId) : Ignores (withOptions options) (block id) := by
  intro draft
  have blocks : (draft.withOptions options).blocks = draft.blocks := rfl
  cases found : draft.blocks[id.index]? with
  | none =>
      rw [block_of_none found, block_of_none (blocks ▸ found)]
      rfl
  | some home =>
      rw [block_of_some found, block_of_some (blocks ▸ found)]
      rfl

theorem ignores_usableBlock (id : BlockId) : Ignores (withOptions options) (usableBlock id) :=
  (ignores_block options id).bind fun _ => (ignores_onSlots options _).bind fun _ => .pure _

theorem ignores_issueLabel (scope : ScopeId) (hint : Option String) :
    Ignores (withOptions options) (issueLabel scope hint) :=
  (ignores_onNames options _).bind fun _ _ => rfl

theorem ignores_markHere (label : Label) : Ignores (withOptions options) (markHere label) :=
  .modify fun _ => rfl

theorem ignores_addBlock (entered : Block) : Ignores (withOptions options) (addBlock entered) :=
  fun _ => rfl

theorem ignores_recordVariable (id : BlockId) (declared : Variable JvmType) :
    Ignores (withOptions options) (recordVariable id declared) :=
  .modify fun _ => rfl

theorem ignores_addReceiver (body : BlockId) : Ignores (withOptions options) (addReceiver body) :=
  .read (fun _ => rfl) fun _ =>
    (ignores_onSlots options _).bind fun receiver => ignores_recordVariable options body receiver

/-- A name that is given to a variable is reserved, which looks at the names only. -/
theorem ignores_reserved (scope : ScopeId) {α : Type} (name : Option String) {next : MethodM α}
    (ignores : Ignores (withOptions options) next) :
    Ignores (withOptions options) (do
      if let some name := name then
        onNames fun names => names.reserve scope name
      next) := by
  cases name with
  | none => exact ignores
  | some name => exact (ignores_onNames options _).bind fun _ => ignores

theorem ignores_addParameter (body : BlockId) (parameter : Parameter) :
    Ignores (withOptions options) (addParameter body parameter) :=
  .read (fun _ => rfl) fun draft => (ignores_onSlots options _).bind fun argument =>
    ignores_reserved options draft.nameScope parameter.name
      (ignores_recordVariable options body argument)

theorem ignores_startBody : Ignores (withOptions options) startBody := by
  refine Ignores.read ?_ ?_
  · exact fun _ => rfl
  intro draft
  cases draft.body with
  | some body => exact .throw _
  | none =>
      apply (ignores_issueLabel options _ _).bind
      intro start
      apply (ignores_issueLabel options _ _).bind
      intro stop
      apply (ignores_addBlock options _).bind
      intro body
      have parameters := Ignores.forM (ignores_addParameter options body)
        draft.signature.parameters
      have begins : Ignores (withOptions options)
          (modify fun draft => { draft with body := some body } : MethodM Unit) :=
        .modify fun _ => rfl
      apply begins.bind
      intro _
      cases draft.signature.isInstance with
      | false => exact parameters.bind fun _ => .pure _
      | true =>
          apply (ignores_addReceiver options body).bind
          intro _
          exact parameters.bind fun _ => .pure _

theorem ignores_enterBlock (parent : BlockId) (label : Option String) :
    Ignores (withOptions options) (enterBlock parent label) := by
  apply (ignores_usableBlock options parent).bind
  intro outer
  apply (ignores_issueLabel options _ _).bind
  intro start
  apply (ignores_issueLabel options _ _).bind
  intro stop
  apply (ignores_onSlots options _).bind
  intro slotScope
  apply (ignores_onNames options _).bind
  intro nameScope
  exact ignores_addBlock options _

theorem ignores_isBlockClosed (id : BlockId) : Ignores (withOptions options) (isBlockClosed id) :=
  (ignores_block options id).bind fun _ => .read (fun _ => rfl) fun _ => .pure _

theorem ignores_leaveBlock (id : BlockId) : Ignores (withOptions options) (leaveBlock id) := by
  apply (ignores_isBlockClosed options id).bind
  intro closed
  cases closed with
  | true => exact .pure _
  | false =>
      apply (ignores_usableBlock options id).bind
      intro closing
      apply (ignores_markHere options _).bind
      intro _
      apply (ignores_onSlots options _).bind
      intro _
      apply (ignores_onNames options _).bind
      intro _
      exact .pure _

theorem ignores_addVariable (id : BlockId) (type : JvmType) (name : Option String) :
    Ignores (withOptions options) (addVariable id type name) := by
  apply (ignores_block options id).bind
  intro home
  apply (ignores_onSlots options _).bind
  intro declared
  apply ignores_reserved options home.nameScope name
  exact (ignores_recordVariable options id declared).bind fun _ => .pure _

theorem ignores_issueName (id : BlockId) (hint : Option String) :
    Ignores (withOptions options) (issueName id hint) :=
  (ignores_block options id).bind fun _ => ignores_onNames options _

theorem ignores_takeName (id : BlockId) (name : String) :
    Ignores (withOptions options) (takeName id name) :=
  (ignores_block options id).bind fun _ => ignores_onNames options _

theorem ignores_addTemporary (id : BlockId) (type : JvmType) (hint : Option String) :
    Ignores (withOptions options) (addTemporary id type hint) :=
  (ignores_issueName options id hint).bind fun name => ignores_addVariable options id type (some name)

theorem ignores_visibleVariable (id : BlockId) (name : String) :
    Ignores (withOptions options) (visibleVariable id name) :=
  (ignores_block options id).bind fun _ => ignores_onSlots options _

theorem ignores_createLabel (id : BlockId) (hint : Option String) :
    Ignores (withOptions options) (createLabel id hint) :=
  (ignores_block options id).bind fun _ => ignores_issueLabel options _ _

theorem ignores_bindLabel (id : BlockId) (label : Label) :
    Ignores (withOptions options) (bindLabel id label) := by
  apply (ignores_usableBlock options id).bind
  intro _
  refine Ignores.read ?_ ?_
  · exact fun _ => rfl
  intro draft
  cases draft.isBound label with
  | true => exact .throw _
  | false => exact ignores_markHere options label

theorem ignores_append (id : BlockId) (instruction : Instruction) :
    Ignores (withOptions options) (append id instruction) := by
  cases instruction with
  | mark label => exact ignores_bindLabel options id label
  | _ => exact (ignores_usableBlock options id).bind fun _ => .modify fun _ => rfl

/-! ## Calls and completion -/

theorem after_withOptions (call : MethodCall) (draft : MethodDraft) :
    call.after (draft.withOptions options) = (call.after draft).withOptions options := by
  have state : ∀ {α : Type} {program : MethodM α}, Ignores (withOptions options) program →
      Outcome.state (program (draft.withOptions options)) =
        (Outcome.state (program draft)).withOptions options := by
    intro α program ignores
    rw [ignores draft, Outcome.state_lift]
  cases call with
  | startBody => exact state (ignores_startBody options)
  | enterBlock parent label => exact state (ignores_enterBlock options parent label)
  | isBlockClosed id => exact state (ignores_isBlockClosed options id)
  | leaveBlock id => exact state (ignores_leaveBlock options id)
  | addVariable id type name => exact state (ignores_addVariable options id type name)
  | addTemporary id type hint => exact state (ignores_addTemporary options id type hint)
  | issueName id hint => exact state (ignores_issueName options id hint)
  | takeName id name => exact state (ignores_takeName options id name)
  | visibleVariable id name => exact state (ignores_visibleVariable options id name)
  | createLabel id hint => exact state (ignores_createLabel options id hint)
  | bindLabel id label => exact state (ignores_bindLabel options id label)
  | append id instruction => exact state (ignores_append options id instruction)

theorem ofCalls_withOptions (draft : MethodDraft) (calls : List MethodCall) :
    (MethodRun.ofCalls (draft.withOptions options) calls).draft =
      (MethodRun.ofCalls draft calls).draft.withOptions options := by
  induction calls using List.reverseRecOn with
  | nil => rfl
  | append_singleton calls call ih =>
      rw [MethodRun.ofCalls_append, MethodRun.ofCalls_append, MethodRun.record, MethodRun.record, ih]
      exact after_withOptions options call _

/-- The options decide about the debugger's entries of a finished method, and about nothing else. -/
theorem finished_withOptions (draft : MethodDraft) :
    (draft.withOptions options).finished =
      { draft.finished with
        localVariables := if options.localVariableTable then draft.entries else [] } :=
  rfl

theorem Lockstep.withOptions {draft : MethodDraft} (lockstep : draft.Lockstep) :
    (draft.withOptions options).Lockstep :=
  ⟨lockstep.wellNested, lockstep.mirrors, lockstep.inClass, lockstep.behindClass,
    lockstep.slotScope_eq, lockstep.nameScope_eq, lockstep.unstarted, lockstep.started⟩

theorem complete_withOptions {draft : MethodDraft} (lockstep : draft.Lockstep) {left : ClassDraft}
    (completed : draft.complete = .ok () left) :
    ∃ twin, (draft.withOptions options).complete = .ok () twin ∧
      twin.methods = draft.owner.methods ++ [(draft.withOptions options).finished] := by
  rcases complete_cases (lockstep.withOptions options) with ⟨started, bodyOpen, _⟩ | ⟨_, result, _⟩
  · have refused := (complete_eq_error_iff lockstep).mpr ⟨⟨started, bodyOpen⟩, rfl, rfl⟩
    rw [refused] at completed
    cases completed
  · exact ⟨_, result, rfl⟩

/-! ## New drafts -/

theorem draftMethod_withOptions {signature : MethodSignature} {owner left : ClassDraft}
    {draft : MethodDraft} (drafted : ClassDraft.draftMethod signature owner = .ok draft left) :
    ClassDraft.draftMethod signature (owner.withOptions options) =
      .ok (draft.withOptions options) (left.withOptions options) := by
  rcases bind_eq_ok drafted with ⟨nameScope, middle, entering, returned⟩
  have entered := ClassDraft.ignores_onNames options
    (fun names => names.enter .root (some signature.name)) owner
  rw [entering] at entered
  cases returned
  exact bind_of_ok entered

/-- A class with other options hands out the same draft, up to the options. -/
theorem IsNew.withOptions {draft : MethodDraft} (isNew : draft.IsNew) :
    (draft.withOptions options).IsNew := by
  cases isNew with
  | @declared owner _ signature _ started =>
      rcases bind_eq_ok started with ⟨_, middle, taken, drafted⟩
      have takenToo := ClassDraft.ignores_onNames options
        (fun names => names.reserve .root signature.name) owner
      rw [ClassDraft.takeName] at taken
      rw [taken] at takenToo
      exact .declared ((bind_of_ok takenToo).trans (draftMethod_withOptions options drafted))
  | @synthetic owner _ hint _ _ _ _ started =>
      rcases bind_eq_ok started with ⟨name, middle, issued, drafted⟩
      have issuedToo := ClassDraft.ignores_onNames options
        (fun names => names.fresh .root (some hint)) owner
      rw [ClassDraft.issueName] at issued
      rw [issued] at issuedToo
      exact .synthetic ((bind_of_ok issuedToo).trans (draftMethod_withOptions options drafted))

end MethodDraft

end JvmEmit
