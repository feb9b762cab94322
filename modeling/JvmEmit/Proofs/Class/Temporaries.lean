import JvmEmit.Proofs.Class.Completable
import JvmEmit.Proofs.Class.Namings
import JvmEmit.Proofs.Method.Obstacles
import JvmEmit.Proofs.Slot.Resolution

/-!
# Temporaries

A temporary takes a name that its block hands out and declares it in the slot table, which compares
it with the variables in sight and knows nothing of the name supply. The comparison never fails,
because the name supply was told of every variable that the block can see, including the parameters
of a body that failed to start. So a temporary fails for the block alone, and does so when its name is
issued, before anything has changed.
-/

namespace JvmEmit

open NameSupply (maxIndex)

namespace MethodDraft

variable {draft after : MethodDraft} {id : BlockId} {home : Block}

/-! ## Usable blocks -/

theorem Lockstep.exists_block (lockstep : draft.Lockstep) (entered : home ∈ draft.blocks)
    {scope : ScopeId} (known : scope.index < draft.slots.scopes.size) :
    ∃ block ∈ draft.blocks, block.slotScope = scope := by
  rw [← lockstep.size_blocks entered] at known
  have found : draft.blocks[scope.index]? = some draft.blocks[scope.index] :=
    Array.getElem?_eq_getElem known
  exact ⟨_, Array.mem_of_getElem? found, lockstep.slotScope_eq found⟩

/-- A block can be used if it is open and no block directly inside it is. -/
theorem Lockstep.usable_iff_inner_closed (lockstep : draft.Lockstep)
    (entered : home ∈ draft.blocks) :
    draft.slots.scopes.requireUsable home.slotScope = .ok () ↔
      draft.slots.scopes.isClosed home.slotScope = false ∧
        ∀ inner ∈ draft.blocks,
          draft.slots.scopes.parent? inner.slotScope = some home.slotScope →
            draft.slots.scopes.isClosed inner.slotScope = true := by
  constructor
  · intro usable
    refine ⟨((NestedScopes.requireUsable_eq_ok_iff _ _).mp usable).2.1, ?_⟩
    intro inner _ inside
    exact lockstep.wellNested.isClosed_of_parent?_usable inside usable
  · rintro ⟨isOpen, innerClosed⟩
    have scopeOpen := (NestedScopes.requireOpen_eq_ok_iff _ _).mpr
      ⟨lockstep.known entered, isOpen⟩
    apply (lockstep.wellNested.requireUsable_iff_inner_closed scopeOpen).mpr
    intro scope inside
    rcases lockstep.exists_block entered (NestedScopes.known_of_parent? inside) with
      ⟨inner, innerEntered, rfl⟩
    exact innerClosed inner innerEntered inside

/-- No variable takes the name from a block that issues one. A failure leaves the draft as it is. -/
theorem issueName_eq_error (lockstep : draft.Lockstep) {hint : Option String} {cause : DraftError}
    (failed : issueName id hint draft = .error cause after) :
    after = draft ∧ ∀ name place, cause ≠ .scope (.nameTaken name place) := by
  constructor
  · rcases issueName_cases draft id hint with ⟨_, _, _, issued⟩ | ⟨_, refused⟩
    · simp [issued] at failed
    · simp only [refused, EStateM.Result.error.injEq] at failed
      exact failed.2.symm
  · cases found : draft.blocks[id.index]? with
    | none =>
        have unknown : issueName id hint draft = .error (.unknownBlock id.index) draft :=
          bind_of_error (block_of_none found)
        simp only [unknown, EStateM.Result.error.injEq] at failed
        simp [← failed.1]
    | some home =>
        have meets := (callsMeet_obstacle lockstep found).issueName hint
        rintro name place rfl
        cases obstacle : draft.slots.scopes.obstacle? home.slotScope with
        | none =>
            rw [obstacle] at meets
            rcases meets with ⟨_, _, issued⟩
            simp [issued] at failed
        | some obstacle =>
            rw [obstacle] at meets
            rcases meets with ⟨scopeCause, _, refused, aboutUse⟩
            simp only [refused, EStateM.Result.error.injEq, DraftError.scope.injEq] at failed
            simp [failed.1, ScopeError.obstacle?] at aboutUse

end MethodDraft

namespace SlotTable.Coherent

/-- A scope resolves a name to the variable that it has just declared under it. -/
theorem resolve_adding {τ : Type} [Slotted τ] {table : SlotTable τ} {scope : ScopeId}
    {role : VariableRole} {name : String} (coherent : table.Coherent)
    (accepted : table.requireDeclarable scope role (some name) = .ok ())
    (notReceiver : role ≠ .receiver) (type : τ) :
    (table.adding (table.nextVariable scope role type (some name))).resolve scope name =
      .ok (table.nextVariable scope role type (some name)) := by
  have usable := ((requireDeclarable_eq_ok_iff _ _ _ _).mp accepted).1
  have known := ((NestedScopes.requireUsable_eq_ok_iff _ _).mp usable).1
  have usableAfter := (NestedScopes.requireUsable_modifyPayload_iff table.scopes scope scope
    fun frame => frame.push (table.nextVariable scope role type (some name))).mpr usable
  have after :=
    coherent.step (.declare accepted type fun isReceiver => absurd isReceiver notReceiver)
  apply (after.resolve_eq_ok_iff (NestedScopes.requireOpen_of_requireUsable usableAfter)).mpr
  have visible : (table.adding (table.nextVariable scope role type (some name))).visible scope =
      table.visible scope ++ [table.nextVariable scope role type (some name)] :=
    visible_adding_self coherent.laidOut.wellNested known
  exact ⟨by simp only [visible, List.mem_append, List.mem_singleton, or_true], rfl⟩

end SlotTable.Coherent

namespace MethodDraft

variable {draft after : MethodDraft} {id : BlockId} {home : Block}

theorem IsReachable.coherent (reachable : draft.IsReachable) : draft.slots.Coherent := by
  rcases reachable.path with ⟨handedOut, isNew, path⟩
  refine path.keeps (fun draft => draft.slots.Coherent)
    (fun step coherent => coherent.step step.slots) ?_
  rcases isNew.entered with ⟨owner, signature, nameScope, scopes, entered, rfl⟩
  exact .initial _

/-- A block finds a variable that was just declared in it under its name. -/
theorem visibleVariable_declaring (coherent : draft.slots.Coherent)
    (found : draft.blocks[id.index]? = some home) {role : VariableRole} {name : String}
    (accepted : draft.slots.requireDeclarable home.slotScope role (some name) = .ok ())
    (notReceiver : role ≠ .receiver) (type : JvmType) :
    visibleVariable id name (draft.declaring id home role type (some name)) =
      .ok (draft.slots.nextVariable home.slotScope role type (some name))
        (draft.declaring id home role type (some name)) := by
  have foundAfter : (draft.declaring id home role type (some name)).blocks[id.index]? =
      some home := found
  rw [visibleVariable, bind_of_ok (block_of_some foundAfter)]
  exact askSlots_of_ok _ (coherent.resolve_adding accepted notReceiver type)

/-- A temporary is found in its block under the name that the block issued for it. -/
theorem WellNamed.visibleVariable_addTemporary {namings : List Naming}
    (wellNamed : draft.WellNamed namings) (few : namings.length ≤ maxIndex)
    (coherent : draft.slots.Coherent) (found : draft.blocks[id.index]? = some home)
    (usable : draft.owner.names.scopes.requireUsable home.nameScope = .ok ()) {type : JvmType}
    {hint : Option String} {declared : Variable JvmType}
    (added : addTemporary id type hint draft = .ok declared after) :
    ∃ name named, MethodDraft.issueName id hint draft = .ok name named ∧ declared.name = some name ∧
      declared.type = type ∧ declared.role = .localVariable ∧
      visibleVariable id name after = .ok declared after := by
  have issued := (issueName_of_some found hint).trans (onNames_fresh_of_usable usable hint)
  have accepted :=
    wellNamed.declarable_freshName few (Array.mem_of_getElem? found) usable hint
  simp only [wellNamed.addTemporary_of_usable few found usable, EStateM.Result.ok.injEq] at added
  rcases added with ⟨rfl, rfl⟩
  -- the variables do not change while the name is issued
  have named :
      (draft.withNames (draft.owner.names.afterFresh home.nameScope hint)).slots.Coherent :=
    coherent
  refine ⟨_, _, issued, rfl, rfl, rfl, ?_⟩
  exact visibleVariable_declaring named found accepted (by simp) type

end MethodDraft

namespace ClassRun

/--
In every method that calls lead to, a temporary can be declared in each block that is open and has
no open block directly inside it, and in no other. It has the name that its block issues, and the
block finds it under this name. It never fails because a name is taken. Since names are numbered by
64-bit indices, a run is supposed to have fewer names than there are indices.
-/
theorem temporaries_never_clash (header : ClassHeader) (options : ClassOptions)
    (calls : List ClassCall) {draft : MethodDraft}
    (atWork : (ofCalls header options calls).bench = .ofMethod draft)
    (few : (ofCalls header options calls).namings.length < UInt64.size) (id : BlockId)
    (type : JvmType) (hint : Option String) :
    ((∃ declared after, MethodDraft.addTemporary id type hint draft = .ok declared after) ↔
      ∃ home, draft.blocks[id.index]? = some home ∧
        draft.slots.scopes.isClosed home.slotScope = false ∧
        ∀ inner ∈ draft.blocks,
          draft.slots.scopes.parent? inner.slotScope = some home.slotScope →
            draft.slots.scopes.isClosed inner.slotScope = true) ∧
    (∀ declared after, MethodDraft.addTemporary id type hint draft = .ok declared after →
      ∃ name named, MethodDraft.issueName id hint draft = .ok name named ∧
        declared.name = some name ∧ declared.type = type ∧ declared.role = .localVariable ∧
        MethodDraft.visibleVariable id name after = .ok declared after) ∧
    ∀ cause after, MethodDraft.addTemporary id type hint draft = .error cause after →
      after = draft ∧ MethodDraft.issueName id hint draft = .error cause draft ∧
        ∀ name place, cause ≠ .scope (.nameTaken name place) := by
  have fewNow := Nat.le_pred_of_lt few
  have wellNamed := wellNamed header options calls fewNow
  rw [atWork] at wellNamed
  change draft.WellNamed _ at wellNamed
  have coherent := (isReachable_of_ofMethod atWork).coherent
  have lockstep := wellNamed.lockstep
  have usable_iff : ∀ home, draft.blocks[id.index]? = some home →
      (draft.owner.names.scopes.requireUsable home.nameScope = .ok () ↔
        draft.slots.scopes.isClosed home.slotScope = false ∧
          ∀ inner ∈ draft.blocks,
            draft.slots.scopes.parent? inner.slotScope = some home.slotScope →
              draft.slots.scopes.isClosed inner.slotScope = true) := by
    intro home found
    have entered := Array.mem_of_getElem? found
    exact (lockstep.usable_iff entered).trans (lockstep.usable_iff_inner_closed entered)
  refine ⟨⟨?_, ?_⟩, ?_, ?_⟩
  · rintro ⟨declared, after, added⟩
    rcases wellNamed.addTemporary_cases fewNow id type hint with
      ⟨home, found, usable, _⟩ | ⟨cause, refused⟩
    · exact ⟨home, found, (usable_iff home found).mp usable⟩
    · simp [refused] at added
  · rintro ⟨home, found, usable⟩
    exact ⟨_, _, wellNamed.addTemporary_of_usable fewNow found ((usable_iff home found).mpr usable)
      type hint⟩
  · intro declared after added
    rcases wellNamed.addTemporary_cases fewNow id type hint with
      ⟨home, found, usable, _⟩ | ⟨cause, refused⟩
    · exact wellNamed.visibleVariable_addTemporary fewNow coherent found usable added
    · simp [refused] at added
  · intro cause after failed
    rcases MethodDraft.issueName_cases draft id hint with
      ⟨home, found, usable, _⟩ | ⟨issueCause, refused⟩
    · simp [wellNamed.addTemporary_of_usable fewNow found usable] at failed
    · have notAdded : MethodDraft.addTemporary id type hint draft = .error issueCause draft :=
        bind_of_error refused
      simp only [notAdded, EStateM.Result.error.injEq] at failed
      rcases failed with ⟨rfl, rfl⟩
      exact ⟨rfl, refused, (MethodDraft.issueName_eq_error lockstep refused).2⟩

/--
The body is started without success after its first parameter. One block inside it declared a
variable and was left, another one is open.
-/
def crowdedCalls : List ClassCall :=
  [.startMethod { name := "f", parameters := [⟨some "a", .int⟩, ⟨some "a", .int⟩] },
    .inMethod .startBody, .inMethod (.enterBlock ⟨0⟩ none),
    .inMethod (.addVariable ⟨1⟩ .long (some "a2")), .inMethod (.leaveBlock ⟨1⟩),
    .inMethod (.takeName ⟨0⟩ "a1"), .inMethod (.enterBlock ⟨0⟩ none)]

/-- The open block passes over the two names around it and uses that of the left block again. -/
theorem temporary_declared_in_crowded_block :
    ∃ draft declared after,
      (ofCalls { name := ⟨"", "A"⟩ } {} crowdedCalls).bench = .ofMethod draft ∧
      MethodDraft.addTemporary ⟨2⟩ .int (some "a") draft = .ok declared after ∧
      declared.name = some "a2" ∧
      MethodDraft.visibleVariable ⟨2⟩ "a2" after = .ok declared after ∧
      ∃ cause, MethodDraft.addTemporary ⟨0⟩ .int (some "a") draft = .error cause draft := by
  have few : (ofCalls { name := ⟨"", "A"⟩ } {} crowdedCalls).namings.length < UInt64.size := by
    decide +kernel
  have evaluated : ((ofCalls { name := ⟨"", "A"⟩ } {} crowdedCalls).bench.method?.map fun draft =>
      ((Outcome.toExcept (MethodDraft.addTemporary ⟨2⟩ .int (some "a") draft)).toOption.map
          Variable.name,
        (Outcome.toExcept (MethodDraft.addTemporary ⟨0⟩ .int (some "a") draft)).toOption.map
          Variable.name)) =
      some (some (some "a2"), none) := by
    decide +kernel
  rcases Option.map_eq_some_iff.mp evaluated with ⟨draft, method, answers⟩
  have atWork := Workbench.ofMethod_of_method? method
  simp only [Prod.mk.injEq] at answers
  rcases answers with ⟨added, refused⟩
  rcases temporaries_never_clash _ _ _ atWork few ⟨2⟩ .int (some "a") with ⟨_, found, _⟩
  rcases temporaries_never_clash _ _ _ atWork few ⟨0⟩ .int (some "a") with ⟨_, _, unchanged⟩
  cases inBlock : MethodDraft.addTemporary ⟨2⟩ .int (some "a") draft with
  | error cause after => simp [inBlock, Except.toOption] at added
  | ok declared after =>
      simp only [inBlock, Outcome.toExcept_ok, Except.toOption, Option.map_some,
        Option.some.injEq] at added
      rcases found declared after inBlock with ⟨name, _, _, named, _, _, visible⟩
      simp only [added, Option.some.injEq] at named
      rw [← named] at visible
      cases inBody : MethodDraft.addTemporary ⟨0⟩ .int (some "a") draft with
      | ok _ _ => simp [inBody, Except.toOption] at refused
      | error cause left =>
          simp only [(unchanged cause left inBody).1] at inBody
          exact ⟨draft, declared, after, atWork, inBlock, added, visible, cause, inBody⟩

end ClassRun

end JvmEmit
