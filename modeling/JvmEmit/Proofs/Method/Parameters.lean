import JvmEmit.Proofs.Method.Calls
import JvmEmit.Proofs.Slot.Visible

/-!
# The parameters that a body declares

The body of a method declares the receiver and then one parameter after another, all in the outermost
scope. The order of the roles is right then, so a parameter can only be refused for its name. The
first parameter whose name an earlier one has ends the declarations, and what was declared before it
stays. So the body declares the longest front part of the parameters that has different names, and it
can always be started if all of them have different names.
-/

namespace JvmEmit

/-! ## Parameters before a clash -/

namespace Parameter

variable {taken : List String} {parameter : Parameter} {parameters accepted : List Parameter}

/-- The parameter has a name, and it is one of those taken. -/
def clashesWith (taken : List String) (parameter : Parameter) : Bool :=
  parameter.name.any taken.contains

theorem clashesWith_eq_false_iff :
    parameter.clashesWith taken = false ↔ ∀ name, parameter.name = some name → name ∉ taken := by
  rw [clashesWith]
  cases parameter.name <;> simp

/-- The parameters in front of the first one whose name is taken, be it by one of them. -/
def beforeClash (taken : List String) : List Parameter → List Parameter
  | [] => []
  | parameter :: rest =>
      if parameter.clashesWith taken then []
      else parameter :: beforeClash (taken ++ parameter.name.toList) rest

theorem beforeClash_of_clash (clash : parameter.clashesWith taken = true) :
    beforeClash taken (parameter :: parameters) = [] := by
  rw [beforeClash, if_pos clash]

theorem beforeClash_of_free (free : parameter.clashesWith taken = false) :
    beforeClash taken (parameter :: parameters) =
      parameter :: beforeClash (taken ++ parameter.name.toList) parameters := by
  rw [beforeClash, if_neg (by simp [free])]

theorem names_cons (parameter : Parameter) (parameters : List Parameter) :
    (parameter :: parameters).filterMap Parameter.name =
      parameter.name.toList ++ parameters.filterMap Parameter.name := by
  cases named : parameter.name <;> simp [named]

theorem nodup_names_cons_iff :
    (taken ++ (parameter :: parameters).filterMap Parameter.name).Nodup ↔
      (taken ++ parameter.name.toList ++ parameters.filterMap Parameter.name).Nodup := by
  rw [names_cons, List.append_assoc]

theorem free_of_nodup
    (distinct : (taken ++ (parameter :: parameters).filterMap Parameter.name).Nodup) :
    parameter.clashesWith taken = false := by
  rw [nodup_names_cons_iff] at distinct
  apply clashesWith_eq_false_iff.mpr
  intro name named member
  have apart := (List.nodup_append.mp (List.nodup_append.mp distinct).1).2.2
  exact apart name member name (Option.mem_toList.mpr named) rfl

theorem beforeClash_isPrefix (taken : List String) (parameters : List Parameter) :
    beforeClash taken parameters <+: parameters := by
  induction parameters generalizing taken with
  | nil => exact List.prefix_rfl
  | cons parameter parameters ih =>
      cases clash : parameter.clashesWith taken with
      | true =>
          rw [beforeClash_of_clash clash]
          exact List.nil_prefix
      | false =>
          rw [beforeClash_of_free clash]
          exact (List.prefix_cons_inj parameter).mpr (ih _)

theorem nodup_beforeClash (distinct : taken.Nodup) (parameters : List Parameter) :
    (taken ++ (beforeClash taken parameters).filterMap Parameter.name).Nodup := by
  induction parameters generalizing taken with
  | nil => simpa [beforeClash] using distinct
  | cons parameter parameters ih =>
      cases clash : parameter.clashesWith taken with
      | true =>
          rw [beforeClash_of_clash clash]
          simpa using distinct
      | false =>
          rw [beforeClash_of_free clash, nodup_names_cons_iff]
          apply ih
          have free := clashesWith_eq_false_iff.mp clash
          cases named : parameter.name with
          | none => simpa using distinct
          | some name =>
              refine List.nodup_append.mpr ⟨distinct, List.pairwise_singleton _ name, ?_⟩
              rintro other member given isName rfl
              rw [List.mem_singleton.mp isName] at member
              exact free name named member

/-- No longer front part of the parameters has different names. -/
theorem isPrefix_beforeClash (front : accepted <+: parameters)
    (distinct : (taken ++ accepted.filterMap Parameter.name).Nodup) :
    accepted <+: beforeClash taken parameters := by
  induction parameters generalizing taken accepted with
  | nil =>
      rw [List.prefix_nil.mp front]
      exact List.nil_prefix
  | cons parameter parameters ih =>
      cases accepted with
      | nil => exact List.nil_prefix
      | cons first accepted =>
          rcases List.cons_prefix_cons.mp front with ⟨rfl, frontOfRest⟩
          rw [beforeClash_of_free (free_of_nodup distinct)]
          rw [nodup_names_cons_iff] at distinct
          exact (List.prefix_cons_inj first).mpr (ih frontOfRest distinct)

theorem beforeClash_eq_self_iff (unused : taken.Nodup) :
    beforeClash taken parameters = parameters ↔
      (taken ++ parameters.filterMap Parameter.name).Nodup := by
  constructor
  · intro all
    rw [← all]
    exact nodup_beforeClash unused parameters
  · intro distinct
    have front := isPrefix_beforeClash List.prefix_rfl distinct
    exact (beforeClash_isPrefix taken parameters).eq_of_length_le front.length_le

end Parameter

/-! ## The outermost scope before the first local variable -/

theorem DeclarationPhase.max_ofRole_ne_hasLocals {phase : DeclarationPhase} {role : VariableRole}
    (noLocals : phase ≠ .hasLocals) (notLocal : role ≠ .localVariable) :
    max phase (.ofRole role) ≠ .hasLocals := by
  revert noLocals notLocal
  cases phase <;> cases role <;> decide

namespace SlotTable

variable {τ : Type}

/-- The outermost scope is ready for arguments under all but the taken names. -/
structure ReadyForArguments (table : SlotTable τ) (taken : List String) : Prop where
  wellNested : table.scopes.WellNested
  indexed : table.Indexed
  usable : table.scopes.requireUsable .root = .ok ()
  noLocals : (table.frame .root).phase ≠ .hasLocals
  mem_taken_iff : ∀ name, name ∈ taken ↔ ∃ declared ∈ table.visible .root, declared.name = some name

namespace ReadyForArguments

variable {table : SlotTable τ} {taken : List String}

theorem initial (label : Option String) :
    (SlotTable.ofRoot label : SlotTable τ).ReadyForArguments [] := by
  refine ⟨.ofRoot _ _, .initial label, rfl, ?_, ?_⟩
  · intro hasLocals
    cases hasLocals
  · intro name
    constructor
    · intro member
      cases member
    · rintro ⟨declared, member, _⟩
      cases member

theorem known (ready : table.ReadyForArguments taken) : 0 < table.scopes.size :=
  ((NestedScopes.requireUsable_eq_ok_iff _ _).mp ready.usable).1

theorem phase_eq (ready : table.ReadyForArguments taken) :
    table.phase .root = (table.frame .root).phase := by
  have known : ScopeId.root.index < table.scopes.size := ready.known
  rcases NestedScopes.exists_payload? known with ⟨own, found⟩
  rw [phase, frames, NestedScopes.payloads, ready.wellNested.path_root,
    frame_eq_of_payload? found]
  simp only [List.filterMap_cons, found, List.filterMap_nil, List.foldr_cons, List.foldr_nil]
  cases own.phase <;> rfl

theorem named?_isSome_iff (ready : table.ReadyForArguments taken) (name : String) :
    (table.named? .root name).isSome ↔ name ∈ taken := by
  rw [ready.mem_taken_iff, ← Option.ne_none_iff_isSome, ne_eq, ready.indexed.named?_eq_none_iff]
  push Not
  rfl

/-- An argument is refused for its name only. -/
theorem requireDeclarable_eq (ready : table.ReadyForArguments taken) (parameter : Parameter) :
    table.requireDeclarable .root .argument parameter.name =
      if parameter.clashesWith taken then
        .error (.nameTaken (parameter.name.getD "") (table.scopes.pathName .root))
      else .ok () := by
  have inOrder : table.orderViolation? .root .argument = none := by
    rw [orderViolation?, ready.phase_eq, if_neg ready.noLocals]
  rw [requireDeclarable, ready.usable, inOrder, Parameter.clashesWith]
  cases parameter.name with
  | none => rfl
  | some name =>
      have visible_iff := ready.named?_isSome_iff name
      by_cases visible : name ∈ taken
      · simp [Option.filter, visible_iff.mpr visible, visible]
      · simp [Option.filter, mt visible_iff.mp visible, visible]

theorem declare [Slotted τ] (ready : table.ReadyForArguments taken) {role : VariableRole}
    {name : Option String} (accepted : table.requireDeclarable .root role name = .ok ())
    (unnamed : role = .receiver → name = none) (notLocal : role ≠ .localVariable) (type : τ) :
    (table.adding (table.nextVariable .root role type name)).ReadyForArguments
      (taken ++ name.toList) := by
  refine ⟨wellNested_adding ready.wellNested _, ready.indexed.step (.declare accepted type unnamed),
    ?_, ?_, ?_⟩
  · exact (NestedScopes.requireUsable_modifyPayload_iff _ _ _ _).mpr ready.usable
  · have frame := frame_adding (table.nextVariable .root role type name) ready.known .root
    rw [frame.trans (if_pos rfl), VariableFrame.push]
    exact DeclarationPhase.max_ofRole_ne_hasLocals ready.noLocals notLocal
  · have visible : (table.adding (table.nextVariable .root role type name)).visible .root =
        table.visible .root ++ [table.nextVariable .root role type name] :=
      visible_adding_self ready.wellNested ready.known
    intro given
    simp only [visible, List.mem_append, ready.mem_taken_iff, Option.mem_toList, or_and_right,
      exists_or, List.mem_singleton, exists_eq_left]
    rfl

end ReadyForArguments

end SlotTable

/-! ## Starting the body -/

namespace MethodDraft

variable {draft : MethodDraft}

/-- The draft after parameters were declared in a block, one after another. -/
def withParameters (draft : MethodDraft) (id : BlockId) (home : Block)
    (parameters : List Parameter) : MethodDraft :=
  parameters.foldl
    (fun draft parameter => draft.declaring id home .argument parameter.type parameter.name) draft

/-- Parameters are declared up to the first clash, which is answered by an error. -/
theorem addParameters_cases (lockstep : draft.Lockstep) {id : BlockId} {home : Block}
    (found : draft.blocks[id.index]? = some home) (outermost : home.slotScope = .root)
    {taken : List String} (ready : draft.slots.ReadyForArguments taken)
    (parameters : List Parameter) :
    (Parameter.beforeClash taken parameters = parameters ∧
      parameters.forM (addParameter id) draft =
        .ok ⟨⟩ (draft.withParameters id home parameters)) ∨
    ∃ (declared : MethodDraft) (refused : Parameter) (rest : List Parameter),
      declared = draft.withParameters id home (Parameter.beforeClash taken parameters) ∧
      parameters = Parameter.beforeClash taken parameters ++ refused :: rest ∧
      parameters.forM (addParameter id) draft =
        .error (.scope (.nameTaken (refused.name.getD "") (declared.slots.scopes.pathName .root)))
          declared := by
  -- each parameter that is declared adds its name to the taken ones
  induction parameters generalizing draft taken with
  | nil => exact .inl ⟨rfl, rfl⟩
  | cons parameter parameters ih =>
      have check := ready.requireDeclarable_eq parameter
      cases clash : parameter.clashesWith taken with
      | true =>
          rw [clash, if_pos rfl] at check
          rw [Parameter.beforeClash_of_clash clash]
          exact .inr ⟨draft, parameter, parameters, rfl, rfl,
            bind_of_error (addParameter_of_refused check)⟩
      | false =>
          rw [clash, if_neg Bool.false_ne_true] at check
          have accepted := check
          rw [← outermost] at accepted
          have declares : Declares id home draft
              (draft.declaring id home .argument parameter.type parameter.name) :=
            .declare found accepted (by simp) parameter.type
          have step : Step (fun _ _ => True) draft _ := declares.step
          have readyNext : (draft.declaring id home .argument parameter.type
              parameter.name).slots.ReadyForArguments (taken ++ parameter.name.toList) := by
            rw [declaring, outermost]
            exact ready.declare check (by simp) (by simp) parameter.type
          have added := addParameter_of_accepted lockstep found outermost accepted
          rw [Parameter.beforeClash_of_free clash]
          rcases ih (.step step lockstep) found readyNext with
            ⟨all, rest⟩ | ⟨declared, refused, behind, same, split, rest⟩
          · exact .inl ⟨congrArg _ all, (bind_of_ok added).trans rest⟩
          · exact .inr ⟨declared, refused, behind, same, congrArg _ split,
              (bind_of_ok added).trans rest⟩

/-- The draft after the receiver was declared in a block, if the method takes one. -/
def withReceiver (draft : MethodDraft) (id : BlockId) (home : Block) : MethodDraft :=
  if draft.signature.isInstance then
    draft.declaring id home .receiver (.reference draft.owner.header.name) none
  else draft

/-- The body is entered and the receiver declared without fail, and then come the parameters. -/
theorem startBody_eq (lockstep : draft.Lockstep) (unstarted : draft.body = none) :
    ∃ (home : Block) (begun : MethodDraft), home.slotScope = .root ∧
      begun = draft.withBody.withReceiver ⟨draft.blocks.size⟩ home ∧ begun.Lockstep ∧
      begun.blocks[(BlockId.mk draft.blocks.size).index]? = some home ∧
      begun.slots.ReadyForArguments [] ∧
      startBody draft =
        (draft.signature.parameters.forM (addParameter ⟨draft.blocks.size⟩) >>= fun _ =>
          pure (⟨draft.blocks.size⟩ : BlockId)) begun := by
  have begin : Step (fun _ _ => True) draft draft.withBody :=
    .startBody unstarted (lockstep.usable_of_unstarted unstarted)
  have hasBody : ∃ home : Block, home.slotScope = .root ∧
      draft.withBody.blocks = draft.blocks.push home := ⟨_, rfl, rfl⟩
  rcases hasBody with ⟨home, outermost, blocks⟩
  have found : draft.withBody.blocks[draft.blocks.size]? = some home := by
    rw [blocks, Array.getElem?_push_size]
  have slots : draft.withBody.slots = .ofRoot (some draft.signature.name) :=
    (lockstep.unstarted unstarted).2
  have ready : draft.withBody.slots.ReadyForArguments [] := by
    rw [slots]
    exact .initial _
  refine ⟨home, _, outermost, rfl, ?_⟩
  rw [startBody_of_unstarted lockstep unstarted, withReceiver]
  have signature : draft.withBody.signature = draft.signature := rfl
  rw [signature]
  cases draft.signature.isInstance with
  | false => exact ⟨.step begin lockstep, found, ready, rfl⟩
  | true =>
      have accepted : draft.withBody.slots.requireDeclarable home.slotScope .receiver none =
          .ok () := by
        rw [outermost, slots]
        rfl
      have declares : Declares ⟨draft.blocks.size⟩ home draft.withBody _ :=
        .declare found accepted (fun _ => rfl) (.reference draft.owner.header.name)
      have step : Step (fun _ _ => True) draft.withBody _ := declares.step
      refine ⟨.step step (.step begin lockstep), found, ?_,
        bind_of_ok (addReceiver_of_accepted outermost accepted)⟩
      rw [outermost] at accepted
      rw [if_pos rfl, declaring, outermost]
      exact ready.declare accepted (fun _ => rfl) (by simp) _

/-- Whether the body starts with an error or not, it has the parameters before the first clash. -/
theorem state_startBody (lockstep : draft.Lockstep) (unstarted : draft.body = none) :
    ∃ home : Block, home.slotScope = .root ∧
      Outcome.state (startBody draft) =
        (draft.withBody.withReceiver ⟨draft.blocks.size⟩ home).withParameters
          ⟨draft.blocks.size⟩ home (Parameter.beforeClash [] draft.signature.parameters) := by
  rcases startBody_eq lockstep unstarted with
    ⟨home, begun, outermost, same, begunLockstep, found, ready, started⟩
  refine ⟨home, outermost, ?_⟩
  rw [started, ← same]
  rcases addParameters_cases begunLockstep found outermost ready draft.signature.parameters with
    ⟨all, added⟩ | ⟨declared, _, _, upToClash, _, stopped⟩
  · rw [bind_of_ok added, all]
    rfl
  · rw [bind_of_error stopped, Outcome.state_error, upToClash]

/-- Only a parameter whose name is taken can keep the body from being started. -/
theorem startBody_of_distinct (lockstep : draft.Lockstep) (unstarted : draft.body = none)
    (distinct : (draft.signature.parameters.filterMap Parameter.name).Nodup) :
    ∃ body after, startBody draft = .ok body after := by
  rcases startBody_eq lockstep unstarted with
    ⟨home, begun, outermost, _, begunLockstep, found, ready, started⟩
  rw [started]
  rcases addParameters_cases begunLockstep found outermost ready draft.signature.parameters with
    ⟨_, added⟩ | ⟨_, refused, rest, _, split, _⟩
  · exact ⟨_, _, bind_of_ok added⟩
  · rw [(Parameter.beforeClash_eq_self_iff List.nodup_nil).mpr distinct] at split
    simp at split

end MethodDraft

end JvmEmit
