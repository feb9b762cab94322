import JvmEmit.Proofs.Method.Declarations
import JvmEmit.Proofs.Name.Namings
import JvmEmit.Proofs.Slot.Visible

/-!
# The names of a method's draft

Names come into use in a block by calls of many kinds: labels and fresh names are handed out by the
name supply, while parameters, local variables and reserved names are given. The labels of a block
are named in the block around it, and those of the body in the body itself.

The variables of a method live in the slot table and not in the name supply. Because the scopes are
in lockstep and the name of a variable is reserved where the variable is declared, a name that a
block hands out is not that of a variable in sight either. So a variable can always be declared
under a name that was just handed out.
-/

namespace JvmEmit

open NameSupply (maxIndex)

/-! ## The names that come into use by a call -/

/-- The naming of a declared variable, given from outside if it has a name. -/
def Variable.namings (declared : Variable JvmType) (scope : ScopeId) : List Naming :=
  declared.name.toList.map (.given scope)

/-- The namings of the labels at the ends of a block. -/
def Block.endNamings (home : Block) (scope : ScopeId) : List Naming :=
  [.handedOut scope home.stop.name, .handedOut scope home.start.name]

/-- The namings of declared variables, the latest first. -/
def declaredNamings (declared : List (BlockId × Variable JvmType)) (scope : ScopeId) :
    List Naming :=
  declared.reverse.flatMap fun (_, declared) => declared.namings scope

/-- What a successful call on a block has named, in the name scope of the block. -/
def MethodDraft.namingsIn {α : Type} (draft : MethodDraft) (id : BlockId)
    (outcome : Outcome DraftError MethodDraft α) (named : ScopeId → α → List Naming) :
    List Naming :=
  match draft.blocks[id.index]?, outcome with
  | some home, .ok answer _ => named home.nameScope answer
  | _, _ => []

/--
The names that come into use by a call, the latest first. Starting the body may fail at a parameter,
and then the names of the parameters before it are in use.
-/
def MethodCall.namings (call : MethodCall) (draft : MethodDraft) : List Naming :=
  let after := call.after draft
  match call with
  | .startBody =>
      if draft.body.isSome then []
      else
        declaredNamings after.declared.toList draft.nameScope ++
          after.blocks.toList.flatMap fun body => body.endNamings draft.nameScope
  | .enterBlock parent label =>
      draft.namingsIn parent (MethodDraft.enterBlock parent label draft) fun scope inner =>
        after.blocks[inner.index]?.toList.flatMap fun entered => entered.endNamings scope
  | .addVariable id type name =>
      draft.namingsIn id (MethodDraft.addVariable id type name draft) fun scope declared =>
        declared.namings scope
  | .addTemporary id type hint =>
      draft.namingsIn id (MethodDraft.addTemporary id type hint draft) fun scope declared =>
        declared.namings scope ++ declared.name.toList.map (.handedOut scope)
  | .issueName id hint =>
      draft.namingsIn id (MethodDraft.issueName id hint draft) fun scope name =>
        [.handedOut scope name]
  | .takeName id name =>
      draft.namingsIn id (MethodDraft.takeName id name draft) fun scope _ => [.given scope name]
  | .createLabel id hint =>
      draft.namingsIn id (MethodDraft.createLabel id hint draft) fun scope label =>
        [.handedOut scope label.name]
  | .isBlockClosed .. | .leaveBlock .. | .visibleVariable .. | .bindLabel .. | .append .. => []

namespace MethodDraft

section NamingsIn

variable {α : Type} {draft : MethodDraft} {id : BlockId}

theorem namingsIn_ok {home : Block} (found : draft.blocks[id.index]? = some home) (answer : α)
    (after : MethodDraft) (named : ScopeId → α → List Naming) :
    draft.namingsIn id (.ok answer after) named = named home.nameScope answer := by
  simp only [namingsIn, found]

theorem namingsIn_error (draft : MethodDraft) (id : BlockId) (cause : DraftError)
    (after : MethodDraft) (named : ScopeId → α → List Naming) :
    draft.namingsIn id (.error cause after) named = [] := by
  cases found : draft.blocks[id.index]? with
  | none => simp only [namingsIn, found]
  | some home => simp only [namingsIn, found]

theorem home_of_mem_namingsIn {outcome : Outcome DraftError MethodDraft α}
    {named : ScopeId → α → List Naming} {naming : Naming}
    (member : naming ∈ draft.namingsIn id outcome named)
    (inScope : ∀ scope answer, ∀ naming ∈ named scope answer, naming.scope = scope) :
    ∃ home ∈ draft.blocks, home.nameScope = naming.scope := by
  cases found : draft.blocks[id.index]? with
  | none => simp [namingsIn, found] at member
  | some home =>
      refine ⟨home, Array.mem_of_getElem? found, ?_⟩
      cases outcome with
      | ok answer after =>
          rw [namingsIn_ok found] at member
          exact (inScope _ _ naming member).symm
      | error cause after =>
          rw [namingsIn_error] at member
          cases member

end NamingsIn

end MethodDraft

theorem Variable.scope_of_mem_namings {declared : Variable JvmType} {scope : ScopeId}
    {naming : Naming} (member : naming ∈ declared.namings scope) : naming.scope = scope := by
  rcases List.mem_map.mp member with ⟨name, _, rfl⟩
  rfl

theorem Block.scope_of_mem_endNamings {home : Block} {scope : ScopeId} {naming : Naming}
    (member : naming ∈ home.endNamings scope) : naming.scope = scope := by
  simp only [endNamings, List.mem_cons, List.not_mem_nil, or_false] at member
  rcases member with rfl | rfl
  · rfl
  · rfl

theorem scope_of_mem_declaredNamings {declared : List (BlockId × Variable JvmType)}
    {scope : ScopeId} {naming : Naming} (member : naming ∈ declaredNamings declared scope) :
    naming.scope = scope := by
  rcases List.mem_flatMap.mp member with ⟨⟨_, declared⟩, _, inVariable⟩
  exact Variable.scope_of_mem_namings inVariable

/-- A call on a method names something in one of its blocks only. -/
theorem MethodCall.home_of_mem_namings {draft : MethodDraft} (lockstep : draft.Lockstep)
    {call : MethodCall} {naming : Naming} (member : naming ∈ call.namings draft) :
    ∃ home ∈ (call.after draft).blocks, home.nameScope = naming.scope := by
  have stays : (∃ home ∈ draft.blocks, home.nameScope = naming.scope) →
      ∃ home ∈ (call.after draft).blocks, home.nameScope = naming.scope := by
    rintro ⟨home, entered, same⟩
    exact ⟨home, (MethodDraft.retains_after lockstep call).blocks home entered, same⟩
  cases call with
  | startBody =>
      rw [namings] at member
      split at member
      · cases member
      · rename_i unstarted
        rcases MethodDraft.declares_startBody lockstep (by simpa using unstarted) with
          ⟨home, _, nameScope, _, _, blocks, declares⟩
        refine ⟨home, ?_, ?_⟩
        · rw [after, (MethodDraft.sameCode_of_declares declares).blocks, blocks]
          exact Array.mem_push_self
        · rw [nameScope]
          rcases List.mem_append.mp member with declared | ofBlock
          · exact (scope_of_mem_declaredNamings declared).symm
          · rcases List.mem_flatMap.mp ofBlock with ⟨body, _, atEnd⟩
            exact (Block.scope_of_mem_endNamings atEnd).symm
  | enterBlock parent label =>
      simp only [namings] at member
      refine stays (MethodDraft.home_of_mem_namingsIn member ?_)
      intro scope answer naming ofBlock
      rcases List.mem_flatMap.mp ofBlock with ⟨entered, _, atEnd⟩
      exact Block.scope_of_mem_endNamings atEnd
  | addVariable id type name =>
      simp only [namings] at member
      refine stays (MethodDraft.home_of_mem_namingsIn member ?_)
      intro scope answer naming declared
      exact Variable.scope_of_mem_namings declared
  | addTemporary id type hint =>
      simp only [namings] at member
      refine stays (MethodDraft.home_of_mem_namingsIn member ?_)
      intro scope answer naming member
      rcases List.mem_append.mp member with declared | issued
      · exact Variable.scope_of_mem_namings declared
      · rcases List.mem_map.mp issued with ⟨name, _, rfl⟩
        rfl
  | issueName id hint =>
      simp only [namings] at member
      exact stays (MethodDraft.home_of_mem_namingsIn member (by simp))
  | takeName id name =>
      simp only [namings] at member
      exact stays (MethodDraft.home_of_mem_namingsIn member (by simp))
  | createLabel id hint =>
      simp only [namings] at member
      exact stays (MethodDraft.home_of_mem_namingsIn member (by simp))
  | isBlockClosed id => cases member
  | leaveBlock id => cases member
  | visibleVariable id name => cases member
  | bindLabel id label => cases member
  | append id instruction => cases member

/-! ## The names of variables -/

namespace SlotTable

/-- Each named variable of a scope came into use under its name, in the scope of shifted number. -/
def Mentioned (table : SlotTable JvmType) (shift : Nat) (namings : List Naming) : Prop :=
  ∀ scope, ∀ declared ∈ table.declaredIn scope, ∀ name, declared.name = some name →
    NamedIn namings (scope.shifted shift) name

namespace Mentioned

variable {table : SlotTable JvmType} {shift : Nat} {namings : List Naming}

theorem initial (label : Option String) : (SlotTable.ofRoot label).Mentioned shift namings := by
  intro scope declared member
  rcases scope with ⟨_ | index⟩
  · cases member
  · cases member

theorem append (mentioned : table.Mentioned shift namings) (later : List Naming) :
    table.Mentioned shift (later ++ namings) := by
  intro scope declared member name named
  exact (mentioned scope declared member name named).append later

theorem enter {parent child : ScopeId} {label : Option String}
    {scopes : NestedScopes (VariableFrame JvmType)} (mentioned : table.Mentioned shift namings)
    (entered : table.scopes.enter parent label (table.innerFrame parent) = .ok child scopes) :
    Mentioned { table with scopes } shift namings := by
  intro scope declared member
  rw [declaredIn, frame_of_enter entered] at member
  split at member
  · cases member
  · exact mentioned scope declared member

theorem close (mentioned : table.Mentioned shift namings) (closing : ScopeId) :
    Mentioned { table with scopes := table.scopes.closedAt closing } shift namings := by
  intro scope declared member
  rw [declaredIn, frame_closedAt] at member
  exact mentioned scope declared member

theorem declare {scope : ScopeId} {role : VariableRole} {name : Option String}
    (mentioned : table.Mentioned shift namings)
    (accepted : table.requireDeclarable scope role name = .ok ()) (type : JvmType) :
    (table.adding (table.nextVariable scope role type name)).Mentioned shift
      ((table.nextVariable scope role type name).namings (scope.shifted shift) ++ namings) := by
  have usable := ((requireDeclarable_eq_ok_iff _ _ _ _).mp accepted).1
  have known := ((NestedScopes.requireUsable_eq_ok_iff _ _).mp usable).1
  intro other declared member given named
  rw [declaredIn, frame_adding (table.nextVariable scope role type name) known] at member
  split at member
  · rename_i same
    rw [VariableFrame.push, Array.toList_push] at member
    rcases List.mem_append.mp member with older | newest
    · exact mentioned.append _ other declared older given named
    · rw [List.mem_singleton.mp newest] at named
      refine ⟨.given (scope.shifted shift) given, List.mem_append_left _ ?_, ?_, rfl⟩
      · rw [Variable.namings, named]
        exact List.mem_singleton_self _
      · rw [← same]
        rfl
  · exact mentioned.append _ other declared member given named

end Mentioned

end SlotTable

/-! ## What the steps keep -/

namespace MethodDraft

variable {draft : MethodDraft} {namings : List Naming} {id : BlockId} {home : Block}

/-- Around the names of a block are those of the blocks around it, and those of the class. -/
theorem Lockstep.path_nameScope (lockstep : draft.Lockstep)
    (wellNested : draft.owner.names.scopes.WellNested) (entered : home ∈ draft.blocks) :
    draft.owner.names.scopes.path home.nameScope =
      (draft.slots.scopes.path home.slotScope).map (ScopeId.shifted draft.nameScope.index) ++
        [.root] := by
  have path := lockstep.mirrors.path_eq lockstep.wellNested wellNested (lockstep.known entered)
  rw [shifted_root, wellNested.enclosing_eq_path lockstep.inClass, wellNested.path_root] at path
  rw [lockstep.nameScope_eq entered]
  exact path

/-- The names that came into use are known to the supply, those of the variables among them. -/
structure WellNamed (draft : MethodDraft) (namings : List Naming) : Prop where
  lockstep : draft.Lockstep
  recorded : draft.Recorded
  remembers : draft.owner.names.Remembers namings
  mentioned : draft.slots.Mentioned draft.nameScope.index namings

namespace WellNamed

theorem ofIsNew (isNew : draft.IsNew) (remembers : draft.owner.names.Remembers namings) :
    draft.WellNamed namings := by
  refine ⟨.ofIsNew isNew, .ofIsNew isNew, remembers, ?_⟩
  rcases isNew.entered with ⟨owner, signature, nameScope, scopes, entered, rfl⟩
  exact SlotTable.Mentioned.initial _

theorem issueName (wellNamed : draft.WellNamed namings) (few : namings.length < maxIndex)
    (entered : home ∈ draft.blocks)
    (usable : draft.owner.names.scopes.requireUsable home.nameScope = .ok ())
    (hint : Option String) :
    (draft.withNames (draft.owner.names.afterFresh home.nameScope hint)).WellNamed
      (.handedOut home.nameScope (draft.owner.names.freshName home.nameScope hint) ::
        namings) := by
  have step : Step (fun _ _ => True) draft _ := .issueName entered usable hint
  exact ⟨wellNamed.lockstep.step step, wellNamed.recorded.step step wellNamed.lockstep,
    wellNamed.remembers.issue few usable hint, wellNamed.mentioned.append [_]⟩

theorem takeName (wellNamed : draft.WellNamed namings) (few : namings.length < maxIndex)
    (entered : home ∈ draft.blocks)
    (usable : draft.owner.names.scopes.requireUsable home.nameScope = .ok ()) (name : String) :
    (draft.withNames (draft.owner.names.afterReserve home.nameScope name)).WellNamed
      (.given home.nameScope name :: namings) := by
  have step : Step (fun _ _ => True) draft _ := .takeName entered usable name
  exact ⟨wellNamed.lockstep.step step, wellNamed.recorded.step step wellNamed.lockstep,
    wellNamed.remembers.reserve few usable name, wellNamed.mentioned.append [_]⟩

theorem createLabel (wellNamed : draft.WellNamed namings) (few : namings.length < maxIndex)
    (entered : home ∈ draft.blocks)
    (usable : draft.owner.names.scopes.requireUsable home.nameScope = .ok ())
    (hint : Option String) :
    (draft.withLabel home.nameScope hint).WellNamed
      (.handedOut home.nameScope (draft.nextLabel home.nameScope hint).name :: namings) := by
  have step : Step (fun _ _ => True) draft _ := .createLabel entered usable hint
  refine ⟨wellNamed.lockstep.step step, wellNamed.recorded.step step wellNamed.lockstep, ?_,
    wellNamed.mentioned.append [_]⟩
  rw [names_withLabel, name_nextLabel]
  exact wellNamed.remembers.issue few usable hint

/-- The names after the two labels of a block were made in a scope. -/
theorem remembers_withEnds (wellNamed : draft.WellNamed namings)
    (few : namings.length + 1 < maxIndex) {scope : ScopeId}
    (usable : draft.owner.names.scopes.requireUsable scope = .ok ()) :
    (draft.withEnds scope).owner.names.Remembers
      (.handedOut scope (draft.nextStop scope).name ::
        .handedOut scope (draft.nextLabel scope (some "start")).name :: namings) := by
  have usableStill := (requireUsable_withLabel_iff draft scope (some "start") scope).mpr usable
  have named := wellNamed.remembers.issue (Nat.lt_of_succ_lt few) usable (some "start")
  rw [← names_withLabel] at named
  rw [withEnds, names_withLabel, nextStop, name_nextLabel, name_nextLabel]
  exact named.issue few usableStill (some "end")

theorem withBody (wellNamed : draft.WellNamed namings) (few : namings.length + 1 < maxIndex)
    (unstarted : draft.body = none) :
    draft.withBody.WellNamed
      (.handedOut draft.nameScope (draft.nextStop draft.nameScope).name ::
        .handedOut draft.nameScope (draft.nextLabel draft.nameScope (some "start")).name ::
          namings) := by
  have usable := wellNamed.lockstep.usable_of_unstarted unstarted
  have step : Step (fun _ _ => True) draft _ := .startBody unstarted usable
  exact ⟨wellNamed.lockstep.step step, wellNamed.recorded.step step wellNamed.lockstep,
    wellNamed.remembers_withEnds few usable, wellNamed.mentioned.append [_, _]⟩

theorem enterBlock (wellNamed : draft.WellNamed namings) (few : namings.length + 1 < maxIndex)
    {label : Option String} {slotScope nameScope : ScopeId}
    {slotScopes : NestedScopes (VariableFrame JvmType)} {nameScopes : NestedScopes NameFrame}
    (entered : home ∈ draft.blocks)
    (usable : draft.slots.scopes.requireUsable home.slotScope = .ok ())
    (slotsEntered : draft.slots.scopes.enter home.slotScope label
      (draft.slots.innerFrame home.slotScope) = .ok slotScope slotScopes)
    (namesEntered : (draft.withEnds home.nameScope).owner.names.scopes.enter home.nameScope
      label .empty = .ok nameScope nameScopes) :
    (draft.entering home slotScope nameScope slotScopes nameScopes).WellNamed
      (.handedOut home.nameScope (draft.nextStop home.nameScope).name ::
        .handedOut home.nameScope (draft.nextLabel home.nameScope (some "start")).name ::
          namings) := by
  have namesUsable := (wellNamed.lockstep.usable_iff entered).mpr usable
  have step : Step (fun _ _ => True) draft _ :=
    .enterBlock entered usable slotsEntered namesEntered
  exact ⟨wellNamed.lockstep.step step, wellNamed.recorded.step step wellNamed.lockstep,
    (wellNamed.remembers_withEnds few namesUsable).enter namesEntered,
    (wellNamed.mentioned.enter slotsEntered).append [_, _]⟩

theorem leaveBlock (wellNamed : draft.WellNamed namings) (entered : home ∈ draft.blocks)
    (usable : draft.slots.scopes.requireUsable home.slotScope = .ok ()) :
    WellNamed {
      (draft.marking home.stop).withNames
        ⟨draft.owner.names.scopes.closedAt home.nameScope⟩ with
      slots := { draft.slots with scopes := draft.slots.scopes.closedAt home.slotScope } }
      namings := by
  have namesUsable := (wellNamed.lockstep.usable_iff entered).mpr usable
  have step : Step (fun _ _ => True) draft _ := .leaveBlock entered usable
  exact ⟨wellNamed.lockstep.step step, wellNamed.recorded.step step wellNamed.lockstep,
    wellNamed.remembers.close namesUsable, wellNamed.mentioned.close _⟩

theorem declare (wellNamed : draft.WellNamed namings) {role : VariableRole}
    {name : Option String} {type : JvmType}
    (few : ((draft.slots.nextVariable home.slotScope role type name).namings home.nameScope ++
      namings).length ≤ maxIndex)
    (found : draft.blocks[id.index]? = some home)
    (accepted : draft.slots.requireDeclarable home.slotScope role name = .ok ())
    (unnamed : role = .receiver → name = none) :
    (draft.declaring id home role type name).WellNamed
      ((draft.slots.nextVariable home.slotScope role type name).namings home.nameScope ++
        namings) := by
  have entered := Array.mem_of_getElem? found
  have usable := usable_of_declarable wellNamed.lockstep entered accepted
  have step : Step (fun _ _ => True) draft _ := .declare found accepted unnamed type
  refine ⟨wellNamed.lockstep.step step, wellNamed.recorded.step step wellNamed.lockstep, ?_, ?_⟩
  · cases name with
    | none => exact wellNamed.remembers
    | some name => exact wellNamed.remembers.reserve few usable name
  · rw [wellNamed.lockstep.nameScope_eq entered]
    exact wellNamed.mentioned.declare accepted type

/-- The positions and the code do not matter. -/
theorem recoded (wellNamed : draft.WellNamed namings) (bound : Array Bool)
    (code : Array Instruction) : WellNamed { draft with bound, code } namings :=
  ⟨wellNamed.lockstep.recoded bound code, wellNamed.recorded.unchanged rfl rfl,
    wellNamed.remembers, wellNamed.mentioned⟩

/-! ## Temporaries -/

/-- A name that a block hands out is not that of a variable that the block sees. -/
theorem freshName_unseen (wellNamed : draft.WellNamed namings) (few : namings.length ≤ maxIndex)
    (entered : home ∈ draft.blocks)
    (usable : draft.owner.names.scopes.requireUsable home.nameScope = .ok ())
    (hint : Option String) {declared : Variable JvmType}
    (visible : declared ∈ draft.slots.visible home.slotScope) :
    declared.name ≠ some (draft.owner.names.freshName home.nameScope hint) := by
  intro named
  rw [SlotTable.visible_eq_flatMap_path] at visible
  rcases List.mem_flatMap.mp visible with ⟨outer, onPath, member⟩
  rcases wellNamed.mentioned outer declared member _ named with ⟨naming, isNaming, inScope, sameName⟩
  refine wellNamed.remembers.freshName_ne few usable hint isNaming ?_ sameName.symm
  rw [wellNamed.lockstep.path_nameScope wellNamed.remembers.wellNested entered, inScope]
  exact List.mem_append_left _ (List.mem_map_of_mem (List.mem_reverse.mp onPath))

theorem declarable_freshName (wellNamed : draft.WellNamed namings)
    (few : namings.length ≤ maxIndex) (entered : home ∈ draft.blocks)
    (usable : draft.owner.names.scopes.requireUsable home.nameScope = .ok ())
    (hint : Option String) :
    draft.slots.requireDeclarable home.slotScope .localVariable
      (some (draft.owner.names.freshName home.nameScope hint)) = .ok () := by
  apply (SlotTable.requireDeclarable_eq_ok_iff _ _ _ _).mpr
  refine ⟨(wellNamed.lockstep.usable_iff entered).mp usable, rfl, ?_⟩
  intro given same
  cases same
  apply (wellNamed.recorded.indexed.named?_eq_none_iff _ _).mpr
  intro declared visible
  exact wellNamed.freshName_unseen few entered usable hint visible

/-- In a usable block a temporary is declared under the name that the block hands out. -/
theorem addTemporary_of_usable (wellNamed : draft.WellNamed namings)
    (few : namings.length ≤ maxIndex) (found : draft.blocks[id.index]? = some home)
    (usable : draft.owner.names.scopes.requireUsable home.nameScope = .ok ()) (type : JvmType)
    (hint : Option String) :
    let name := draft.owner.names.freshName home.nameScope hint
    let named := draft.withNames (draft.owner.names.afterFresh home.nameScope hint)
    addTemporary id type hint draft =
      .ok (draft.slots.nextVariable home.slotScope .localVariable type (some name))
        (named.declaring id home .localVariable type (some name)) := by
  intro name named
  have issued : MethodDraft.issueName id hint draft = .ok name named :=
    (issueName_of_some found hint).trans (onNames_fresh_of_usable usable hint)
  have accepted :=
    wellNamed.declarable_freshName few (Array.mem_of_getElem? found) usable hint
  have lockstep : named.Lockstep := wellNamed.lockstep.withFrame home.nameScope _
  rw [addTemporary, bind_of_ok issued]
  exact addVariable_of_accepted lockstep found accepted type

/-- A temporary is declared in a usable block without fail, and nowhere else. -/
theorem addTemporary_cases (wellNamed : draft.WellNamed namings)
    (few : namings.length ≤ maxIndex) (id : BlockId) (type : JvmType) (hint : Option String) :
    (∃ home, draft.blocks[id.index]? = some home ∧
      draft.owner.names.scopes.requireUsable home.nameScope = .ok () ∧
      let name := draft.owner.names.freshName home.nameScope hint
      let named := draft.withNames (draft.owner.names.afterFresh home.nameScope hint)
      addTemporary id type hint draft =
        .ok (draft.slots.nextVariable home.slotScope .localVariable type (some name))
          (named.declaring id home .localVariable type (some name))) ∨
    ∃ cause, addTemporary id type hint draft = .error cause draft := by
  rcases issueName_cases draft id hint with ⟨home, found, usable, _⟩ | ⟨cause, refused⟩
  · exact .inl ⟨home, found, usable, wellNamed.addTemporary_of_usable few found usable type hint⟩
  · exact .inr ⟨cause, bind_of_error refused⟩

/-! ## What the calls keep -/

/-- Declarations in a block bring the names of their variables into use. -/
theorem declarations (wellNamed : draft.WellNamed namings) {after : MethodDraft}
    (declares : Relation.ReflTransGen (Declares id home) draft after) :
    ∃ added, after.declared.toList = draft.declared.toList ++ added ∧
      ((declaredNamings added home.nameScope ++ namings).length ≤ maxIndex →
        after.WellNamed (declaredNamings added home.nameScope ++ namings)) := by
  induction declares with
  | refl => exact ⟨[], (List.append_nil _).symm, fun _ => wellNamed⟩
  | @tail middle _ _ last ih =>
      rcases ih with ⟨added, declared, named⟩
      cases last with
      | declare found accepted unnamed type =>
          rename_i role name
          let newest := middle.slots.nextVariable home.slotScope role type name
          have namings_eq : declaredNamings (added ++ [(id, newest)]) home.nameScope ++ namings =
              newest.namings home.nameScope ++
                (declaredNamings added home.nameScope ++ namings) := by
            simp [declaredNamings]
          refine ⟨added ++ [(id, newest)], ?_, ?_⟩
          · change (middle.declared.push (id, newest)).toList = _
            rw [Array.toList_push, declared, List.append_assoc]
          · rw [namings_eq]
            intro few
            rw [List.length_append] at few
            exact (named (by omega)).declare (by rwa [List.length_append]) found accepted unnamed

theorem namings_startBody (wellNamed : draft.WellNamed namings) (unstarted : draft.body = none)
    (blocks : draft.withBody.blocks = draft.blocks.push home)
    (declares : Relation.ReflTransGen (Declares id home) draft.withBody
      (Outcome.state (MethodDraft.startBody draft))) :
    MethodCall.namings .startBody draft =
      declaredNamings (Outcome.state (MethodDraft.startBody draft)).declared.toList
        draft.nameScope ++ home.endNamings draft.nameScope := by
  rw [(wellNamed.lockstep.unstarted unstarted).1, ← (sameCode_of_declares declares).blocks] at blocks
  simp [MethodCall.namings, MethodCall.after, unstarted, blocks]

theorem startBody (wellNamed : draft.WellNamed namings)
    (few : (MethodCall.namings .startBody draft ++ namings).length ≤ maxIndex) :
    (MethodCall.after .startBody draft).WellNamed
      (MethodCall.namings .startBody draft ++ namings) := by
  cases started : draft.body with
  | some body =>
      simp only [MethodCall.namings, MethodCall.after, started, startBody_of_started started,
        Option.isSome_some, if_true, Outcome.state_error, List.nil_append]
      exact wellNamed
  | none =>
      rcases declares_startBody wellNamed.lockstep started with
        ⟨home, _, nameScope, start, stop, blocks, declares⟩
      rw [wellNamed.namings_startBody started blocks declares, List.append_assoc] at few ⊢
      have ends : draft.withBody.WellNamed (home.endNamings draft.nameScope ++ namings) := by
        rw [Block.endNamings, start, stop]
        refine wellNamed.withBody ?_ started
        simp only [Block.endNamings, List.length_append, List.length_cons] at few
        omega
      rcases ends.declarations declares with ⟨added, declared, named⟩
      have noneDeclared : draft.withBody.declared.toList = [] :=
        wellNamed.recorded.declared_of_unstarted wellNamed.lockstep started
      rw [noneDeclared, List.nil_append] at declared
      rw [declared] at few ⊢
      rw [nameScope] at named
      exact named few

theorem unchanged (wellNamed : draft.WellNamed namings) {call : MethodCall}
    (same : call.after draft = draft) (nothing : call.namings draft = []) :
    (call.after draft).WellNamed (call.namings draft ++ namings) := by
  rw [same, nothing]
  exact wellNamed

theorem after_enterBlock (wellNamed : draft.WellNamed namings) (id : BlockId)
    (label : Option String)
    (few : (MethodCall.namings (.enterBlock id label) draft ++ namings).length ≤ maxIndex) :
    (MethodCall.after (.enterBlock id label) draft).WellNamed
      (MethodCall.namings (.enterBlock id label) draft ++ namings) := by
  rcases usableBlock_cases id draft with ⟨outer, found, usable, _⟩ | ⟨cause, refused⟩
  · rcases enterBlock_of_usable wellNamed.lockstep found usable label with
      ⟨slotScope, nameScope, slotScopes, nameScopes, slotsEntered, namesEntered, result⟩
    have entered := Array.mem_of_getElem? found
    have namings_eq : MethodCall.namings (.enterBlock id label) draft =
        [.handedOut outer.nameScope (draft.nextStop outer.nameScope).name,
          .handedOut outer.nameScope (draft.nextLabel outer.nameScope (some "start")).name] := by
      simp only [MethodCall.namings, MethodCall.after, result, namingsIn_ok found,
        Outcome.state_ok]
      change (draft.blocks.push _)[draft.blocks.size]?.toList.flatMap _ = _
      rw [Array.getElem?_push_size]
      rfl
    rw [namings_eq] at few ⊢
    rw [MethodCall.after, result]
    exact wellNamed.enterBlock few entered usable slotsEntered namesEntered
  · apply wellNamed.unchanged
    · rw [MethodCall.after, enterBlock_of_refused refused, Outcome.state_error]
    · rw [MethodCall.namings, enterBlock_of_refused refused, namingsIn_error]

theorem after_addTemporary (wellNamed : draft.WellNamed namings) (id : BlockId) (type : JvmType)
    (hint : Option String)
    (few : (MethodCall.namings (.addTemporary id type hint) draft ++ namings).length ≤ maxIndex) :
    (MethodCall.after (.addTemporary id type hint) draft).WellNamed
      (MethodCall.namings (.addTemporary id type hint) draft ++ namings) := by
  have fewBefore : namings.length ≤ maxIndex := by
    rw [List.length_append] at few
    omega
  rcases wellNamed.addTemporary_cases fewBefore id type hint with
    ⟨home, found, usable, result⟩ | ⟨cause, refused⟩
  · have entered := Array.mem_of_getElem? found
    have accepted := wellNamed.declarable_freshName fewBefore entered usable hint
    simp only [MethodCall.namings, MethodCall.after, result, namingsIn_ok found, Outcome.state_ok,
      List.append_assoc] at few ⊢
    have fewIssued : namings.length < maxIndex := by
      rw [List.length_append] at few
      exact Nat.le_trans (Nat.le_add_left _ _) few
    have named := wellNamed.issueName fewIssued entered usable hint
    exact named.declare few found accepted (by simp)
  · apply wellNamed.unchanged
    · rw [MethodCall.after, refused, Outcome.state_error]
    · rw [MethodCall.namings, refused, namingsIn_error]

theorem after (wellNamed : draft.WellNamed namings) (call : MethodCall)
    (few : (call.namings draft ++ namings).length ≤ maxIndex) :
    (call.after draft).WellNamed (call.namings draft ++ namings) := by
  have lockstep := wellNamed.lockstep
  cases call with
  | startBody => exact wellNamed.startBody few
  | enterBlock parent label => exact wellNamed.after_enterBlock parent label few
  | isBlockClosed id => exact wellNamed.unchanged (state_isBlockClosed id draft) rfl
  | leaveBlock id =>
      rcases leaveBlock_cases lockstep id with
        ⟨closing, found, usable, result⟩ | same | ⟨cause, refused⟩
      · rw [MethodCall.after, result]
        exact wellNamed.leaveBlock (Array.mem_of_getElem? found) usable
      · exact wellNamed.unchanged (by rw [MethodCall.after, same, Outcome.state_ok]) rfl
      · exact wellNamed.unchanged (by rw [MethodCall.after, refused, Outcome.state_error]) rfl
  | addVariable id type name =>
      rcases addVariable_cases lockstep id type name with
        ⟨home, found, accepted, result⟩ | ⟨cause, refused⟩
      · simp only [MethodCall.namings, MethodCall.after, result, namingsIn_ok found,
          Outcome.state_ok] at few ⊢
        exact wellNamed.declare few found accepted (by simp)
      · apply wellNamed.unchanged
        · rw [MethodCall.after, refused, Outcome.state_error]
        · rw [MethodCall.namings, refused, namingsIn_error]
  | addTemporary id type hint => exact wellNamed.after_addTemporary id type hint few
  | issueName id hint =>
      rcases issueName_cases draft id hint with ⟨home, found, usable, result⟩ | ⟨cause, refused⟩
      · simp only [MethodCall.namings, MethodCall.after, result, namingsIn_ok found,
          Outcome.state_ok] at few ⊢
        exact wellNamed.issueName few (Array.mem_of_getElem? found) usable hint
      · apply wellNamed.unchanged
        · rw [MethodCall.after, refused, Outcome.state_error]
        · rw [MethodCall.namings, refused, namingsIn_error]
  | takeName id name =>
      rcases takeName_cases draft id name with ⟨home, found, usable, result⟩ | ⟨cause, refused⟩
      · simp only [MethodCall.namings, MethodCall.after, result, namingsIn_ok found,
          Outcome.state_ok] at few ⊢
        exact wellNamed.takeName few (Array.mem_of_getElem? found) usable name
      · apply wellNamed.unchanged
        · rw [MethodCall.after, refused, Outcome.state_error]
        · rw [MethodCall.namings, refused, namingsIn_error]
  | visibleVariable id name => exact wellNamed.unchanged (state_visibleVariable id name draft) rfl
  | createLabel id hint =>
      rcases createLabel_cases draft id hint with ⟨home, found, usable, result⟩ | ⟨cause, refused⟩
      · simp only [MethodCall.namings, MethodCall.after, result, namingsIn_ok found,
          Outcome.state_ok] at few ⊢
        exact wellNamed.createLabel few (Array.mem_of_getElem? found) usable _
      · apply wellNamed.unchanged
        · rw [MethodCall.after, refused, Outcome.state_error]
        · rw [MethodCall.namings, refused, namingsIn_error]
  | bindLabel id label =>
      rcases bindLabel_cases draft id label with ⟨home, _, _, _, result⟩ | ⟨cause, refused⟩
      · rw [MethodCall.after, result]
        exact wellNamed.recoded _ _
      · exact wellNamed.unchanged (by rw [MethodCall.after, refused, Outcome.state_error]) rfl
  | append id instruction =>
      rcases append_cases draft id instruction with
        ⟨label, rfl, same⟩ | ⟨home, _, _, _, result⟩ | ⟨cause, refused⟩
      · rw [MethodCall.after, same]
        rcases bindLabel_cases draft id label with ⟨home, _, _, _, result⟩ | ⟨cause, refused⟩
        · rw [result]
          exact wellNamed.recoded _ _
        · rw [refused]
          exact wellNamed
      · rw [MethodCall.after, result]
        exact wellNamed.recoded _ _
      · exact wellNamed.unchanged (by rw [MethodCall.after, refused, Outcome.state_error]) rfl

end WellNamed

end MethodDraft

end JvmEmit
