import JvmEmit.Proofs.Method.Lockstep

/-!
# Calls as paths

Every call on a draft is a path of steps. Because the scopes of the draft are in lockstep, a call
that gets past its checks runs to its end: the name supply cannot refuse what the slot table has
accepted. So what the steps keep holds of every draft that calls can reach.
-/

namespace JvmEmit

/-! ## Paths of sequences -/

section Sequence

variable {ε σ α β : Type} {program : EStateM ε σ α} {next : α → EStateM ε σ β}
  {related : σ → σ → Prop} {before : σ}

/-- Two programs in sequence relate what is before the first to what is behind the second. -/
theorem related_bind (first : Relation.ReflTransGen related before (Outcome.state (program before)))
    (second : ∀ answer middle, program before = .ok answer middle →
      Relation.ReflTransGen related middle (Outcome.state (next answer middle))) :
    Relation.ReflTransGen related before (Outcome.state ((program >>= next) before)) := by
  cases result : program before with
  | ok answer middle =>
      rw [result] at first
      rw [bind_of_ok result]
      exact first.trans (second answer middle result)
  | error cause middle =>
      rw [result] at first
      rw [bind_of_error result]
      exact first

end Sequence

namespace MethodDraft

variable {draft : MethodDraft} {permitted : MethodDraft → Label → Prop} {id : BlockId}

theorem path_of_refused {α : Type} {program : MethodM α} {cause : DraftError}
    (refused : program draft = .error cause draft) :
    Path permitted draft (Outcome.state (program draft)) := by
  rw [refused]
  exact .refl

/-! ## Names and labels -/

theorem issueName_of_some {home : Block} (found : draft.blocks[id.index]? = some home)
    (hint : Option String) :
    issueName id hint draft = onNames (fun names => names.fresh home.nameScope hint) draft := by
  rw [issueName, bind_of_ok (block_of_some found)]

theorem takeName_of_some {home : Block} (found : draft.blocks[id.index]? = some home)
    (name : String) :
    takeName id name draft = onNames (fun names => names.reserve home.nameScope name) draft := by
  rw [takeName, bind_of_ok (block_of_some found)]

theorem createLabel_of_some {home : Block} (found : draft.blocks[id.index]? = some home)
    (hint : Option String) :
    createLabel id hint draft =
      issueLabel home.nameScope (some (hint.getD labelHint)) draft := by
  rw [createLabel, bind_of_ok (block_of_some found)]

theorem issueName_cases (draft : MethodDraft) (id : BlockId) (hint : Option String) :
    (∃ home, draft.blocks[id.index]? = some home ∧
      draft.owner.names.scopes.requireUsable home.nameScope = .ok () ∧
      issueName id hint draft =
        .ok (draft.owner.names.freshName home.nameScope hint)
          (draft.withNames (draft.owner.names.afterFresh home.nameScope hint))) ∨
    ∃ cause, issueName id hint draft = .error cause draft := by
  cases found : draft.blocks[id.index]? with
  | none => exact .inr ⟨_, bind_of_error (block_of_none found)⟩
  | some home =>
      rw [issueName_of_some found]
      cases check : draft.owner.names.scopes.requireUsable home.nameScope with
      | ok => exact .inl ⟨home, rfl, check, onNames_fresh_of_usable check hint⟩
      | error cause => exact .inr ⟨_, onNames_fresh_of_unusable check hint⟩

theorem takeName_cases (draft : MethodDraft) (id : BlockId) (name : String) :
    (∃ home, draft.blocks[id.index]? = some home ∧
      draft.owner.names.scopes.requireUsable home.nameScope = .ok () ∧
      takeName id name draft =
        .ok () (draft.withNames (draft.owner.names.afterReserve home.nameScope name))) ∨
    ∃ cause, takeName id name draft = .error cause draft := by
  cases found : draft.blocks[id.index]? with
  | none => exact .inr ⟨_, bind_of_error (block_of_none found)⟩
  | some home =>
      rw [takeName_of_some found]
      cases check : draft.owner.names.scopes.requireUsable home.nameScope with
      | ok => exact .inl ⟨home, rfl, check, onNames_reserve_of_usable check name⟩
      | error cause => exact .inr ⟨_, onNames_reserve_of_unusable check name⟩

theorem createLabel_cases (draft : MethodDraft) (id : BlockId) (hint : Option String) :
    (∃ home, draft.blocks[id.index]? = some home ∧
      draft.owner.names.scopes.requireUsable home.nameScope = .ok () ∧
      createLabel id hint draft =
        .ok (draft.nextLabel home.nameScope (some (hint.getD labelHint)))
          (draft.withLabel home.nameScope (some (hint.getD labelHint)))) ∨
    ∃ cause, createLabel id hint draft = .error cause draft := by
  cases found : draft.blocks[id.index]? with
  | none => exact .inr ⟨_, bind_of_error (block_of_none found)⟩
  | some home =>
      rw [createLabel_of_some found]
      cases check : draft.owner.names.scopes.requireUsable home.nameScope with
      | ok => exact .inl ⟨home, rfl, check, issueLabel_of_usable check _⟩
      | error cause => exact .inr ⟨_, issueLabel_of_unusable check _⟩

theorem path_issueName (id : BlockId) (hint : Option String) :
    Path permitted draft (Outcome.state (issueName id hint draft)) := by
  rcases issueName_cases draft id hint with ⟨home, found, usable, result⟩ | ⟨cause, refused⟩
  · rw [result]
    exact .single (.issueName (Array.mem_of_getElem? found) usable hint)
  · exact path_of_refused refused

theorem path_takeName (id : BlockId) (name : String) :
    Path permitted draft (Outcome.state (takeName id name draft)) := by
  rcases takeName_cases draft id name with ⟨home, found, usable, result⟩ | ⟨cause, refused⟩
  · rw [result]
    exact .single (.takeName (Array.mem_of_getElem? found) usable name)
  · exact path_of_refused refused

theorem path_createLabel (id : BlockId) (hint : Option String) :
    Path permitted draft (Outcome.state (createLabel id hint draft)) := by
  rcases createLabel_cases draft id hint with ⟨home, found, usable, result⟩ | ⟨cause, refused⟩
  · rw [result]
    exact .single (.createLabel (Array.mem_of_getElem? found) usable _)
  · exact path_of_refused refused

/-- A label that is made is the next one, in a usable name scope of a block. -/
theorem createLabel_eq_ok {after : MethodDraft} {hint : Option String} {label : Label}
    (created : createLabel id hint draft = .ok label after) :
    ∃ home ∈ draft.blocks, draft.owner.names.scopes.requireUsable home.nameScope = .ok () ∧
      label = draft.nextLabel home.nameScope (some (hint.getD labelHint)) ∧
      after = draft.withLabel home.nameScope (some (hint.getD labelHint)) := by
  rcases createLabel_cases draft id hint with ⟨home, found, usable, result⟩ | ⟨cause, refused⟩
  · rw [result] at created
    cases created
    exact ⟨home, Array.mem_of_getElem? found, usable, rfl, rfl⟩
  · rw [refused] at created
    cases created

/-! ## Instructions -/

theorem bindLabel_of_usable {home : Block} {label : Label}
    (found : draft.blocks[id.index]? = some home)
    (usable : draft.slots.scopes.requireUsable home.slotScope = .ok ())
    (unbound : draft.isBound label = false) :
    bindLabel id label draft = .ok ⟨⟩ (draft.marking label) := by
  rw [bindLabel, bind_of_ok (usableBlock_of_usable found usable), get_bind, if_neg (by simp [unbound])]
  rfl

theorem bindLabel_of_bound {home : Block} {label : Label}
    (found : draft.blocks[id.index]? = some home)
    (usable : draft.slots.scopes.requireUsable home.slotScope = .ok ())
    (bound : draft.isBound label = true) :
    bindLabel id label draft = .error (.labelBound label.name) draft := by
  rw [bindLabel, bind_of_ok (usableBlock_of_usable found usable), get_bind, if_pos bound]
  rfl

theorem append_of_usable {home : Block} {instruction : Instruction}
    (found : draft.blocks[id.index]? = some home)
    (usable : draft.slots.scopes.requireUsable home.slotScope = .ok ())
    (noMark : ∀ label, instruction ≠ .mark label) :
    append id instruction draft = .ok ⟨⟩ { draft with code := draft.code.push instruction } := by
  have ran := usableBlock_of_usable found usable
  cases instruction with
  | mark label => exact absurd rfl (noMark label)
  | simple opcode => exact bind_of_ok ran
  | onSlot opcode slot => exact bind_of_ok ran
  | branch opcode target => exact bind_of_ok ran

theorem append_of_refused {instruction : Instruction} {cause : DraftError}
    (refused : usableBlock id draft = .error cause draft) :
    append id instruction draft = .error cause draft := by
  cases instruction with
  | mark label => exact bind_of_error refused
  | simple opcode => exact bind_of_error refused
  | onSlot opcode slot => exact bind_of_error refused
  | branch opcode target => exact bind_of_error refused

theorem bindLabel_cases (draft : MethodDraft) (id : BlockId) (label : Label) :
    (∃ home, draft.blocks[id.index]? = some home ∧
      draft.slots.scopes.requireUsable home.slotScope = .ok () ∧
      draft.isBound label = false ∧ bindLabel id label draft = .ok ⟨⟩ (draft.marking label)) ∨
    ∃ cause, bindLabel id label draft = .error cause draft := by
  rcases usableBlock_cases id draft with ⟨home, found, usable, _⟩ | ⟨cause, refused⟩
  · cases bound : draft.isBound label with
    | false => exact .inl ⟨home, found, usable, rfl, bindLabel_of_usable found usable bound⟩
    | true => exact .inr ⟨_, bindLabel_of_bound found usable bound⟩
  · exact .inr ⟨cause, bind_of_error refused⟩

theorem append_cases (draft : MethodDraft) (id : BlockId) (instruction : Instruction) :
    (∃ label, instruction = .mark label ∧ append id instruction draft = bindLabel id label draft) ∨
    (∃ home, draft.blocks[id.index]? = some home ∧
      draft.slots.scopes.requireUsable home.slotScope = .ok () ∧
      (∀ label, instruction ≠ .mark label) ∧
      append id instruction draft =
        .ok ⟨⟩ { draft with code := draft.code.push instruction }) ∨
    ∃ cause, append id instruction draft = .error cause draft := by
  by_cases marks : ∃ label, instruction = .mark label
  · rcases marks with ⟨label, rfl⟩
    exact .inl ⟨label, rfl, rfl⟩
  · have noMark : ∀ label, instruction ≠ .mark label := fun label marked => marks ⟨label, marked⟩
    rcases usableBlock_cases id draft with ⟨home, found, usable, _⟩ | ⟨cause, refused⟩
    · exact .inr (.inl ⟨home, found, usable, noMark, append_of_usable found usable noMark⟩)
    · exact .inr (.inr ⟨cause, append_of_refused refused⟩)

theorem path_bindLabel (id : BlockId) {label : Label} (allowed : permitted draft label) :
    Path permitted draft (Outcome.state (bindLabel id label draft)) := by
  rcases bindLabel_cases draft id label with
    ⟨home, found, usable, unbound, result⟩ | ⟨cause, refused⟩
  · rw [result]
    exact .single (.bindLabel (Array.mem_of_getElem? found) usable unbound allowed)
  · exact path_of_refused refused

theorem path_append (id : BlockId) {instruction : Instruction}
    (allowed : ∀ label, instruction.label? = some label → permitted draft label) :
    Path permitted draft (Outcome.state (append id instruction draft)) := by
  rcases append_cases draft id instruction with
    ⟨label, rfl, same⟩ | ⟨home, found, usable, noMark, result⟩ | ⟨cause, refused⟩
  · rw [same]
    exact path_bindLabel id (allowed label rfl)
  · rw [result]
    exact .single (.append (Array.mem_of_getElem? found) usable noMark allowed)
  · exact path_of_refused refused

/-! ## Blocks -/

theorem onSlots_enter (draft : MethodDraft) {parent child : ScopeId} {label : Option String}
    {scopes : NestedScopes (VariableFrame JvmType)}
    (entered : draft.slots.scopes.enter parent label (draft.slots.innerFrame parent) =
      .ok child scopes) :
    onSlots (fun slots => slots.enter parent label) draft =
      .ok child { draft with slots := { draft.slots with scopes } } := by
  change (((draft.slots.scopes.enter parent label (draft.slots.innerFrame parent)).lift id _).lift
    _ _) = _
  rw [entered]
  rfl

theorem onNames_enter (draft : MethodDraft) {parent child : ScopeId} {label : Option String}
    {scopes : NestedScopes NameFrame}
    (entered : draft.owner.names.scopes.enter parent label .empty = .ok child scopes) :
    onNames (fun names => names.enter parent label) draft = .ok child (draft.withNames ⟨scopes⟩) := by
  rw [onNames, NameSupply.enter, entered]
  rfl

theorem onSlots_close (draft : MethodDraft) {scope : ScopeId}
    (usable : draft.slots.scopes.requireUsable scope = .ok ()) :
    onSlots (fun slots => slots.close scope) draft =
      .ok true { draft with
        slots := { draft.slots with scopes := draft.slots.scopes.closedAt scope } } := by
  rw [onSlots, SlotTable.close, NestedScopes.close_of_requireUsable usable]
  rfl

theorem onNames_close (draft : MethodDraft) {scope : ScopeId}
    (usable : draft.owner.names.scopes.requireUsable scope = .ok ()) :
    onNames (fun names => names.close scope) draft =
      .ok true (draft.withNames ⟨draft.owner.names.scopes.closedAt scope⟩) := by
  rw [onNames, NameSupply.close, NestedScopes.close_of_requireUsable usable]
  rfl

theorem enterBlock_of_usable (lockstep : draft.Lockstep) {outer : Block}
    (found : draft.blocks[id.index]? = some outer)
    (usable : draft.slots.scopes.requireUsable outer.slotScope = .ok ())
    (label : Option String) :
    ∃ (slotScope nameScope : ScopeId) (slotScopes : NestedScopes (VariableFrame JvmType))
      (nameScopes : NestedScopes NameFrame),
      draft.slots.scopes.enter outer.slotScope label (draft.slots.innerFrame outer.slotScope) =
        .ok slotScope slotScopes ∧
      (draft.withEnds outer.nameScope).owner.names.scopes.enter outer.nameScope label .empty =
        .ok nameScope nameScopes ∧
      enterBlock id label draft = .ok ⟨draft.blocks.size⟩
        (draft.entering outer slotScope nameScope slotScopes nameScopes) := by
  have entered := Array.mem_of_getElem? found
  have ends := lockstep.withEnds outer.nameScope
  have namesUsable := (lockstep.usable_iff entered).mpr usable
  rcases draft.slots.scopes.enter_cases outer.slotScope label
      (draft.slots.innerFrame outer.slotScope) with
    ⟨_, slotScopes, slotsEntered⟩ | ⟨cause, closed, _⟩
  · rcases ends.mirrors.enter slotsEntered label NameFrame.empty with ⟨nameScopes, namesEntered, _⟩
    change (draft.withEnds outer.nameScope).owner.names.scopes.enter
      (outer.slotScope.shifted draft.nameScope.index) label .empty = _ at namesEntered
    rw [← lockstep.nameScope_eq entered] at namesEntered
    refine ⟨_, _, slotScopes, nameScopes, slotsEntered, namesEntered, ?_⟩
    rw [enterBlock, bind_of_ok (usableBlock_of_usable found usable),
      issueLabels_of_usable namesUsable,
      bind_of_ok (onSlots_enter (draft.withEnds outer.nameScope) slotsEntered)]
    apply Eq.trans (bind_of_ok (onNames_enter _ ?namesToo))
    case namesToo => exact namesEntered
    rfl
  · rw [NestedScopes.requireOpen_of_requireUsable usable] at closed
    cases closed

theorem enterBlock_of_refused {cause : DraftError}
    (refused : usableBlock id draft = .error cause draft) (label : Option String) :
    enterBlock id label draft = .error cause draft :=
  bind_of_error refused

theorem path_enterBlock (lockstep : draft.Lockstep) (id : BlockId) (label : Option String) :
    Path permitted draft (Outcome.state (enterBlock id label draft)) := by
  rcases usableBlock_cases id draft with ⟨outer, found, usable, _⟩ | ⟨cause, refused⟩
  · rcases enterBlock_of_usable lockstep found usable label with
      ⟨slotScope, nameScope, slotScopes, nameScopes, slotsEntered, namesEntered, result⟩
    rw [result]
    exact .single (.enterBlock (Array.mem_of_getElem? found) usable slotsEntered namesEntered)
  · exact path_of_refused (enterBlock_of_refused refused label)

theorem leaveBlock_of_usable (lockstep : draft.Lockstep) {closing : Block}
    (found : draft.blocks[id.index]? = some closing)
    (usable : draft.slots.scopes.requireUsable closing.slotScope = .ok ()) :
    leaveBlock id draft = .ok true {
      (draft.marking closing.stop).withNames
        ⟨draft.owner.names.scopes.closedAt closing.nameScope⟩ with
      slots := { draft.slots with scopes := draft.slots.scopes.closedAt closing.slotScope } } := by
  have opened := ((NestedScopes.requireUsable_eq_ok_iff _ _).mp usable).2.1
  have namesUsable := (lockstep.usable_iff (Array.mem_of_getElem? found)).mpr usable
  rw [leaveBlock, bind_of_ok (isBlockClosed_of_some found), opened]
  change (usableBlock id >>= _) draft = _
  rw [bind_of_ok (usableBlock_of_usable found usable), bind_of_ok (markHere_eq _ _),
    bind_of_ok (onSlots_close (draft.marking closing.stop) usable)]
  apply Eq.trans (bind_of_ok (onNames_close _ ?namesToo))
  case namesToo => exact namesUsable
  rfl

/-- A block is left, or was left before, or stays as it is. -/
theorem leaveBlock_cases (lockstep : draft.Lockstep) (id : BlockId) :
    (∃ closing, draft.blocks[id.index]? = some closing ∧
      draft.slots.scopes.requireUsable closing.slotScope = .ok () ∧
      leaveBlock id draft = .ok true {
        (draft.marking closing.stop).withNames
          ⟨draft.owner.names.scopes.closedAt closing.nameScope⟩ with
        slots := { draft.slots with scopes := draft.slots.scopes.closedAt closing.slotScope } }) ∨
    leaveBlock id draft = .ok false draft ∨ ∃ cause, leaveBlock id draft = .error cause draft := by
  rcases usableBlock_cases id draft with ⟨closing, found, usable, _⟩ | ⟨cause, refused⟩
  · exact .inl ⟨closing, found, usable, leaveBlock_of_usable lockstep found usable⟩
  · right
    rw [leaveBlock]
    cases found : draft.blocks[id.index]? with
    | none => exact .inr ⟨_, bind_of_error (isBlockClosed_of_none found)⟩
    | some closing =>
        rw [bind_of_ok (isBlockClosed_of_some found)]
        cases draft.slots.scopes.isClosed closing.slotScope with
        | true => exact .inl rfl
        | false => exact .inr ⟨cause, bind_of_error refused⟩

theorem path_leaveBlock (lockstep : draft.Lockstep) (id : BlockId) :
    Path permitted draft (Outcome.state (leaveBlock id draft)) := by
  rcases leaveBlock_cases lockstep id with ⟨closing, found, usable, result⟩ | same | ⟨cause, refused⟩
  · rw [result]
    exact .single (.leaveBlock (Array.mem_of_getElem? found) usable)
  · rw [same]
    exact .refl
  · exact path_of_refused refused

theorem state_isBlockClosed (id : BlockId) (draft : MethodDraft) :
    Outcome.state (isBlockClosed id draft) = draft := by
  cases found : draft.blocks[id.index]? with
  | none => rw [isBlockClosed_of_none found, Outcome.state_error]
  | some home => rw [isBlockClosed_of_some found, Outcome.state_ok]

/-! ## Declarations -/

theorem state_visibleVariable (id : BlockId) (name : String) (draft : MethodDraft) :
    Outcome.state (visibleVariable id name draft) = draft := by
  rw [visibleVariable]
  cases found : draft.blocks[id.index]? with
  | none => rw [bind_of_error (block_of_none found), Outcome.state_error]
  | some home =>
      rw [bind_of_ok (block_of_some found)]
      cases resolved : draft.slots.resolve home.slotScope name with
      | ok declared => rw [askSlots_of_ok _ resolved, Outcome.state_ok]
      | error cause => rw [askSlots_of_error _ resolved, Outcome.state_error]

theorem onSlots_declare_of_accepted {scope : ScopeId} {role : VariableRole} {name : Option String}
    (accepted : draft.slots.requireDeclarable scope role name = .ok ()) (type : JvmType) :
    onSlots (fun slots => slots.declare scope role type name) draft =
      .ok (draft.slots.nextVariable scope role type name)
        { draft with
          slots := draft.slots.adding (draft.slots.nextVariable scope role type name) } := by
  rw [onSlots, SlotTable.declare, accepted]
  rfl

theorem onSlots_declare_of_refused {scope : ScopeId} {role : VariableRole} {name : Option String}
    {cause : ScopeError} (refused : draft.slots.requireDeclarable scope role name = .error cause)
    (type : JvmType) :
    onSlots (fun slots => slots.declare scope role type name) draft =
      .error (.scope cause) draft := by
  rw [onSlots, SlotTable.declare, refused]
  rfl

/-- A block accepts a variable in both of its scopes or in none. -/
theorem usable_of_declarable (lockstep : draft.Lockstep) {home : Block} {role : VariableRole}
    {name : Option String} (entered : home ∈ draft.blocks)
    (accepted : draft.slots.requireDeclarable home.slotScope role name = .ok ()) :
    draft.owner.names.scopes.requireUsable home.nameScope = .ok () := by
  apply (lockstep.usable_iff entered).mpr
  exact ((SlotTable.requireDeclarable_eq_ok_iff _ _ _ _).mp accepted).1

theorem addVariable_of_accepted (lockstep : draft.Lockstep) {home : Block} {name : Option String}
    (found : draft.blocks[id.index]? = some home)
    (accepted : draft.slots.requireDeclarable home.slotScope .localVariable name = .ok ())
    (type : JvmType) :
    addVariable id type name draft =
      .ok (draft.slots.nextVariable home.slotScope .localVariable type name)
        (draft.declaring id home .localVariable type name) := by
  have namesUsable := usable_of_declarable lockstep (Array.mem_of_getElem? found) accepted
  rw [addVariable, bind_of_ok (block_of_some found)]
  change (onSlots (fun slots => slots.declare home.slotScope .localVariable type name) >>= _)
    draft = _
  rw [bind_of_ok (onSlots_declare_of_accepted accepted type)]
  cases name with
  | none => rfl
  | some name =>
      apply Eq.trans (bind_of_ok (onNames_reserve_of_usable ?namesToo name))
      case namesToo => exact namesUsable
      rfl

theorem addVariable_cases (lockstep : draft.Lockstep) (id : BlockId) (type : JvmType)
    (name : Option String) :
    (∃ home, draft.blocks[id.index]? = some home ∧
      draft.slots.requireDeclarable home.slotScope .localVariable name = .ok () ∧
      addVariable id type name draft =
        .ok (draft.slots.nextVariable home.slotScope .localVariable type name)
          (draft.declaring id home .localVariable type name)) ∨
    ∃ cause, addVariable id type name draft = .error cause draft := by
  cases found : draft.blocks[id.index]? with
  | none => exact .inr ⟨_, bind_of_error (block_of_none found)⟩
  | some home =>
      cases check : draft.slots.requireDeclarable home.slotScope .localVariable name with
      | ok => exact .inl ⟨home, rfl, check, addVariable_of_accepted lockstep found check type⟩
      | error cause =>
          rw [addVariable, bind_of_ok (block_of_some found)]
          exact .inr ⟨_, bind_of_error (onSlots_declare_of_refused check type)⟩

theorem path_addVariable (lockstep : draft.Lockstep) (id : BlockId) (type : JvmType)
    (name : Option String) :
    Path permitted draft (Outcome.state (addVariable id type name draft)) := by
  rcases addVariable_cases lockstep id type name with
    ⟨home, found, accepted, result⟩ | ⟨cause, refused⟩
  · rw [result]
    exact .single (.declare found accepted (by simp) type)
  · exact path_of_refused refused

/-- A temporary is a variable under a name that was issued just before. -/
theorem addTemporary_split (lockstep : draft.Lockstep) (id : BlockId) (type : JvmType)
    (hint : Option String) :
    (∃ name named, issueName id hint draft = .ok name named ∧ named.Lockstep ∧
      addTemporary id type hint draft = addVariable id type (some name) named) ∨
    ∃ cause, addTemporary id type hint draft = .error cause draft := by
  rcases issueName_cases draft id hint with ⟨home, _, _, issued⟩ | ⟨cause, refused⟩
  · exact .inl ⟨_, _, issued, lockstep.withFrame home.nameScope _, bind_of_ok issued⟩
  · exact .inr ⟨cause, bind_of_error refused⟩

theorem path_addTemporary (lockstep : draft.Lockstep) (id : BlockId) (type : JvmType)
    (hint : Option String) :
    Path permitted draft (Outcome.state (addTemporary id type hint draft)) := by
  have named : Path permitted draft (Outcome.state (issueName id hint draft)) :=
    path_issueName id hint
  apply related_bind named
  intro name middle issued
  rw [issued] at named
  exact path_addVariable (named.keeps Lockstep Lockstep.step lockstep) id type (some name)

/-! ## The body -/

/-- The declaration of one variable in a block. -/
inductive Declares (id : BlockId) (home : Block) : MethodDraft → MethodDraft → Prop where
  | declare {draft : MethodDraft} {role : VariableRole} {name : Option String}
      (found : draft.blocks[id.index]? = some home)
      (accepted : draft.slots.requireDeclarable home.slotScope role name = .ok ())
      (unnamed : role = .receiver → name = none) (type : JvmType) :
      Declares id home draft (draft.declaring id home role type name)

theorem Declares.step {home : Block} {before after : MethodDraft}
    (declares : Declares id home before after) : Step permitted before after := by
  cases declares with
  | declare found accepted unnamed type => exact .declare found accepted unnamed type

/-- One draft has the blocks, the labels' positions and the code of another one. -/
structure SameCode (before after : MethodDraft) : Prop where
  blocks : after.blocks = before.blocks
  body : after.body = before.body
  bound : after.bound = before.bound
  code : after.code = before.code

namespace SameCode

theorem refl (draft : MethodDraft) : draft.SameCode draft :=
  ⟨rfl, rfl, rfl, rfl⟩

theorem trans {before middle after : MethodDraft} (first : before.SameCode middle)
    (second : middle.SameCode after) : before.SameCode after :=
  ⟨second.blocks.trans first.blocks, second.body.trans first.body,
    second.bound.trans first.bound, second.code.trans first.code⟩

end SameCode

/-- Declarations change the variables and the names only. -/
theorem sameCode_of_declares {home : Block} {before after : MethodDraft}
    (declares : Relation.ReflTransGen (Declares id home) before after) :
    before.SameCode after := by
  induction declares with
  | refl => exact .refl before
  | tail _ last ih =>
      cases last with
      | declare found accepted unnamed type => exact ih.trans ⟨rfl, rfl, rfl, rfl⟩

section Body

variable {home : Block}

theorem addReceiver_of_accepted (outermost : home.slotScope = .root)
    (accepted : draft.slots.requireDeclarable home.slotScope .receiver none = .ok ()) :
    addReceiver id draft =
      .ok ⟨⟩ (draft.declaring id home .receiver (.reference draft.owner.header.name) none) := by
  rw [declaring, outermost]
  rw [outermost] at accepted
  exact bind_of_ok (onSlots_declare_of_accepted accepted _)

theorem addParameter_of_accepted (lockstep : draft.Lockstep)
    (found : draft.blocks[id.index]? = some home) (outermost : home.slotScope = .root)
    {parameter : Parameter}
    (accepted : draft.slots.requireDeclarable home.slotScope .argument parameter.name = .ok ()) :
    addParameter id parameter draft =
      .ok ⟨⟩ (draft.declaring id home .argument parameter.type parameter.name) := by
  have entered := Array.mem_of_getElem? found
  have namesUsable := usable_of_declarable lockstep entered accepted
  have nameScope : home.nameScope = draft.nameScope := by
    rw [lockstep.nameScope_eq entered, outermost]
    rfl
  rw [declaring, outermost, nameScope]
  rw [outermost] at accepted
  rw [nameScope] at namesUsable
  apply Eq.trans (bind_of_ok (onSlots_declare_of_accepted accepted _))
  rcases parameter with ⟨name, type⟩
  cases name with
  | none => rfl
  | some name =>
      apply Eq.trans (bind_of_ok (onNames_reserve_of_usable ?namesToo name))
      case namesToo => exact namesUsable
      rfl

theorem addReceiver_of_refused {cause : ScopeError}
    (refused : draft.slots.requireDeclarable .root .receiver none = .error cause) :
    addReceiver id draft = .error (.scope cause) draft := by
  rw [addReceiver, get_bind]
  exact bind_of_error (onSlots_declare_of_refused refused _)

theorem addParameter_of_refused {parameter : Parameter} {cause : ScopeError}
    (refused : draft.slots.requireDeclarable .root .argument parameter.name = .error cause) :
    addParameter id parameter draft = .error (.scope cause) draft := by
  rw [addParameter, get_bind]
  exact bind_of_error (onSlots_declare_of_refused refused _)

theorem declares_addParameters (lockstep : draft.Lockstep)
    (found : draft.blocks[id.index]? = some home) (outermost : home.slotScope = .root)
    (parameters : List Parameter) :
    Relation.ReflTransGen (Declares id home) draft
      (Outcome.state (parameters.forM (addParameter id) draft)) := by
  induction parameters generalizing draft with
  | nil => exact .refl
  | cons parameter parameters ih =>
      change Relation.ReflTransGen (Declares id home) draft
        (Outcome.state ((addParameter id parameter >>= fun _ => parameters.forM (addParameter id))
          draft))
      cases check : draft.slots.requireDeclarable home.slotScope .argument parameter.name with
      | ok =>
          have declares : Declares id home draft
              (draft.declaring id home .argument parameter.type parameter.name) :=
            .declare found check (by simp) parameter.type
          have step : Step (fun _ _ => True) draft _ := declares.step
          rw [bind_of_ok (addParameter_of_accepted lockstep found outermost check)]
          exact .head declares (ih (.step step lockstep) found)
      | error cause =>
          rw [outermost] at check
          rw [bind_of_error (addParameter_of_refused check)]
          exact .refl

end Body

theorem startBody_of_started {body : BlockId} (started : draft.body = some body) :
    startBody draft = .error (.bodyStarted draft.signature.name) draft := by
  rw [startBody, get_bind]
  simp only [started, Option.isSome_some, if_true]
  rfl

/-- Starting the body enters its block and then declares what the signature says. -/
theorem startBody_of_unstarted (lockstep : draft.Lockstep) (unstarted : draft.body = none) :
    startBody draft =
      (do
        if draft.signature.isInstance then
          addReceiver ⟨draft.blocks.size⟩
        draft.signature.parameters.forM (addParameter ⟨draft.blocks.size⟩)
        return ⟨draft.blocks.size⟩ : MethodM BlockId) draft.withBody := by
  rw [startBody, get_bind]
  simp only [unstarted, Option.isSome_none, Bool.false_eq_true, if_false]
  rw [issueLabels_of_usable (lockstep.usable_of_unstarted unstarted)]
  rfl

/-- Starting the body enters its block first; the rest is a row of declarations in it. -/
theorem declares_startBody (lockstep : draft.Lockstep) (unstarted : draft.body = none) :
    ∃ home : Block, home.slotScope = .root ∧ home.nameScope = draft.nameScope ∧
      home.start = draft.nextLabel draft.nameScope (some "start") ∧
      home.stop = draft.nextStop draft.nameScope ∧
      draft.withBody.blocks = draft.blocks.push home ∧
      Relation.ReflTransGen (Declares ⟨draft.blocks.size⟩ home) draft.withBody
        (Outcome.state (startBody draft)) := by
  let begun := draft.withBody
  have begin : Step (fun _ _ => True) draft begun :=
    .startBody unstarted (lockstep.usable_of_unstarted unstarted)
  have hasBody : ∃ home : Block, home.slotScope = .root ∧ home.nameScope = draft.nameScope ∧
      home.start = draft.nextLabel draft.nameScope (some "start") ∧
      home.stop = draft.nextStop draft.nameScope ∧ begun.blocks = draft.blocks.push home :=
    ⟨_, rfl, rfl, rfl, rfl, rfl⟩
  rcases hasBody with ⟨home, outermost, nameScope, start, stop, blocks⟩
  refine ⟨home, outermost, nameScope, start, stop, blocks, ?_⟩
  have found : begun.blocks[draft.blocks.size]? = some home := by
    rw [blocks, Array.getElem?_push_size]
  have declareParameters : ∀ {middle : MethodDraft}, middle.Lockstep →
      middle.blocks = begun.blocks →
      Relation.ReflTransGen (Declares ⟨draft.blocks.size⟩ home) middle (Outcome.state
        ((draft.signature.parameters.forM (addParameter ⟨draft.blocks.size⟩) >>= fun _ =>
          pure (⟨draft.blocks.size⟩ : BlockId)) middle)) := by
    intro middle lockstep same
    rw [← same] at found
    apply related_bind (declares_addParameters lockstep found outermost _)
    intro answer last _
    exact .refl
  rw [startBody_of_unstarted lockstep unstarted]
  cases draft.signature.isInstance with
  | false => exact declareParameters (.step begin lockstep) rfl
  | true =>
      change Relation.ReflTransGen _ begun
        (Outcome.state ((addReceiver ⟨draft.blocks.size⟩ >>= _) begun))
      cases check : begun.slots.requireDeclarable home.slotScope .receiver none with
      | ok =>
          have declares : Declares ⟨draft.blocks.size⟩ home begun _ :=
            .declare found check (fun _ => rfl) (.reference begun.owner.header.name)
          have step : Step (fun _ _ => True) begun _ := declares.step
          rw [bind_of_ok (addReceiver_of_accepted outermost check)]
          exact .head declares (declareParameters (.step step (.step begin lockstep)) rfl)
      | error cause =>
          rw [outermost] at check
          rw [bind_of_error (addReceiver_of_refused check)]
          exact .refl

theorem path_startBody (lockstep : draft.Lockstep) :
    Path permitted draft (Outcome.state (startBody draft)) := by
  cases started : draft.body with
  | some body => exact path_of_refused (startBody_of_started started)
  | none =>
      rcases declares_startBody lockstep started with ⟨home, _, _, _, _, _, declares⟩
      refine .head (.startBody started (lockstep.usable_of_unstarted started)) ?_
      exact Relation.ReflTransGen.mono (fun _ _ => Declares.step) _ _ declares

/-! ## Reachable drafts -/

theorem path_after (lockstep : draft.Lockstep) (call : MethodCall)
    (allowed : ∀ label, call.passed? = some label → permitted draft label) :
    Path permitted draft (call.after draft) := by
  cases call with
  | startBody => exact path_startBody lockstep
  | enterBlock parent label => exact path_enterBlock lockstep parent label
  | isBlockClosed id => rw [MethodCall.after, state_isBlockClosed]
  | leaveBlock id => exact path_leaveBlock lockstep id
  | addVariable id type name => exact path_addVariable lockstep id type name
  | addTemporary id type hint => exact path_addTemporary lockstep id type hint
  | issueName id hint => exact path_issueName id hint
  | takeName id name => exact path_takeName id name
  | visibleVariable id name => rw [MethodCall.after, state_visibleVariable]
  | createLabel id hint => exact path_createLabel id hint
  | bindLabel id label => exact path_bindLabel id (allowed label rfl)
  | append id instruction => exact path_append id allowed

theorem retains_after (lockstep : draft.Lockstep) (call : MethodCall) :
    draft.Retains (call.after draft) := by
  have path : Path (fun _ _ => True) draft (call.after draft) :=
    path_after lockstep call fun _ _ => trivial
  exact path.retains

/-- A list of calls leads along a path. -/
theorem path_ofCalls {handedOut : MethodDraft} (lockstep : handedOut.Lockstep)
    (calls : List MethodCall) :
    Path (fun _ _ => True) handedOut (MethodRun.ofCalls handedOut calls).draft := by
  induction calls using List.reverseRecOn with
  | nil => exact .refl
  | append_singleton calls call ih =>
      have lockstepThere := ih.keeps Lockstep Lockstep.step lockstep
      rw [MethodRun.ofCalls_append]
      exact ih.trans (path_after lockstepThere call fun _ _ => trivial)

/-- A draft that calls lead to is at the end of a path from a new one. -/
theorem IsReachable.path (reachable : draft.IsReachable) :
    ∃ handedOut : MethodDraft, handedOut.IsNew ∧ Path (fun _ _ => True) handedOut draft := by
  rcases reachable with ⟨handedOut, calls, isNew, rfl⟩
  exact ⟨handedOut, isNew, path_ofCalls (.ofIsNew isNew) calls⟩

theorem IsReachable.lockstep (reachable : draft.IsReachable) : draft.Lockstep := by
  rcases reachable.path with ⟨handedOut, isNew, path⟩
  exact path.keeps Lockstep Lockstep.step (.ofIsNew isNew)

end MethodDraft

end JvmEmit
