import JvmEmit.Proofs.Method.Runs
import JvmEmit.Proofs.Scope.Mirror

/-!
# The two scopes of a block in lockstep

A block has one scope for its variables, in a table that belongs to the method, and one for its
names, in a supply that belongs to the class. The table counts its scopes from the body on, while
the supply holds the scopes of the class and of earlier methods in front. From the name scope of the
method on, the supply is a copy of the table: the two scopes of a block differ in number by a fixed
shift.

The invariant `MethodDraft.Lockstep` says so. It is what makes the calls on a draft go all the way or
not at all: once the slot table has agreed to a change, the name supply cannot refuse it. It follows
that a method changes the name supply of its class at its own scope and behind it only, by the steps
that `MethodDraft.NameStep` lists.
-/

namespace JvmEmit

namespace MethodDraft

/-- The scopes of the slot table and of the name supply correspond, and each block has both. -/
structure Lockstep (draft : MethodDraft) : Prop where
  wellNested : draft.slots.scopes.WellNested
  mirrors :
    NestedScopes.Mirrors draft.nameScope.index draft.owner.names.scopes draft.slots.scopes
  inClass : draft.owner.names.scopes.parent? draft.nameScope = some .root
  behindClass : 0 < draft.nameScope.index
  slotScope_eq : ∀ {index : Nat} {home : Block}, draft.blocks[index]? = some home →
    home.slotScope = ⟨index⟩
  nameScope_eq : ∀ {home : Block}, home ∈ draft.blocks →
    home.nameScope = home.slotScope.shifted draft.nameScope.index
  unstarted : draft.body = none →
    draft.blocks = #[] ∧ draft.slots = .ofRoot (some draft.signature.name)
  started : ∀ {body : BlockId}, draft.body = some body →
    body = ⟨0⟩ ∧ draft.blocks.size = draft.slots.scopes.size

namespace Lockstep

variable {draft : MethodDraft} {permitted : MethodDraft → Label → Prop}

/-! ## Consequences -/

theorem shifted_root (draft : MethodDraft) :
    ScopeId.root.shifted draft.nameScope.index = draft.nameScope :=
  rfl

theorem slotScopes_nonempty (lockstep : draft.Lockstep) : 0 < draft.slots.scopes.size := by
  have known := NestedScopes.known_of_parent? lockstep.inClass
  rw [lockstep.mirrors.size_eq] at known
  omega

theorem body_ne_none (lockstep : draft.Lockstep) {home : Block} (entered : home ∈ draft.blocks) :
    draft.body ≠ none := by
  intro unstarted
  rw [(lockstep.unstarted unstarted).1] at entered
  simp at entered

/-- The body is the block of the outermost scope. -/
theorem body_found (lockstep : draft.Lockstep) {body : BlockId} (started : draft.body = some body) :
    ∃ home, draft.blocks[body.index]? = some home ∧ home.slotScope = .root := by
  rcases lockstep.started started with ⟨rfl, size⟩
  have nonempty := lockstep.slotScopes_nonempty
  have found : draft.blocks[0]? = some draft.blocks[0] := Array.getElem?_eq_getElem _
  exact ⟨draft.blocks[0], found, lockstep.slotScope_eq found⟩

theorem size_blocks (lockstep : draft.Lockstep) {home : Block} (entered : home ∈ draft.blocks) :
    draft.blocks.size = draft.slots.scopes.size := by
  rcases Option.ne_none_iff_exists'.mp (lockstep.body_ne_none entered) with ⟨body, started⟩
  exact (lockstep.started started).2

theorem known (lockstep : draft.Lockstep) {home : Block} (entered : home ∈ draft.blocks) :
    home.slotScope.index < draft.slots.scopes.size := by
  rcases Array.getElem?_of_mem entered with ⟨index, found⟩
  have below := (Array.getElem?_eq_some_iff.mp found).1
  rw [lockstep.slotScope_eq found, ← lockstep.size_blocks entered]
  exact below

theorem eq_of_slotScope_eq (lockstep : draft.Lockstep) {home other : Block}
    (homeEntered : home ∈ draft.blocks) (otherEntered : other ∈ draft.blocks)
    (same : home.slotScope = other.slotScope) : home = other := by
  rcases Array.getElem?_of_mem homeEntered with ⟨index, found⟩
  rcases Array.getElem?_of_mem otherEntered with ⟨otherIndex, otherFound⟩
  rw [lockstep.slotScope_eq found, lockstep.slotScope_eq otherFound, ScopeId.mk.injEq] at same
  rw [same, otherFound] at found
  exact (Option.some.inj found).symm

theorem parent_iff (lockstep : draft.Lockstep) {outer inner : Block}
    (outerEntered : outer ∈ draft.blocks) (innerEntered : inner ∈ draft.blocks) :
    draft.owner.names.scopes.parent? inner.nameScope = some outer.nameScope ↔
      draft.slots.scopes.parent? inner.slotScope = some outer.slotScope := by
  rw [lockstep.nameScope_eq outerEntered, lockstep.nameScope_eq innerEntered]
  rcases Nat.eq_zero_or_pos inner.slotScope.index with isBody | inside
  · have isRoot : inner.slotScope = .root := congrArg ScopeId.mk isBody
    have outside : ∀ parent : ScopeId, draft.slots.scopes.parent? .root ≠ some parent :=
      fun parent inside => Nat.not_lt_zero _ (lockstep.wellNested.parent_earlier inside)
    rw [isRoot, shifted_root, lockstep.inClass]
    constructor
    · intro same
      have atClass := congrArg (fun scope : Option ScopeId => scope.map ScopeId.index) same
      simp only [Option.map_some, Option.some.injEq, ScopeId.shifted, ScopeId.root] at atClass
      have behind := lockstep.behindClass
      omega
    · intro inside
      exact absurd inside (outside _)
  · rw [lockstep.mirrors.parent?_eq _ inside]
    cases draft.slots.scopes.parent? inner.slotScope with
    | none => simp
    | some parent => simp [ScopeId.shifted_inj]

theorem usable_iff (lockstep : draft.Lockstep) {home : Block} (entered : home ∈ draft.blocks) :
    draft.owner.names.scopes.requireUsable home.nameScope = .ok () ↔
      draft.slots.scopes.requireUsable home.slotScope = .ok () := by
  rw [lockstep.nameScope_eq entered]
  exact lockstep.mirrors.requireUsable_iff home.slotScope

/-- Before the body is started the name scope of the method can be used. -/
theorem usable_of_unstarted (lockstep : draft.Lockstep) (unstarted : draft.body = none) :
    draft.owner.names.scopes.requireUsable draft.nameScope = .ok () := by
  rw [← shifted_root draft, lockstep.mirrors.requireUsable_iff, (lockstep.unstarted unstarted).2]
  rfl

/-! ## What the steps keep -/

theorem ofIsNew (isNew : draft.IsNew) : draft.Lockstep := by
  rcases isNew.entered with ⟨owner, signature, nameScope, scopes, entered, rfl⟩
  have classOpen := NestedScopes.requireOpen_of_enter entered
  have classKnown := ((NestedScopes.requireOpen_eq_ok_iff _ _).mp classOpen).1
  have unknown := NestedScopes.size_le_child_of_enter entered
  constructor
  · exact .ofRoot _ _
  · exact NestedScopes.Mirrors.ofRoot_of_enter entered _ _
  · exact (NestedScopes.parent?_of_enter entered _).trans (if_pos rfl)
  · exact Nat.lt_of_lt_of_le classKnown unknown
  · intro index home found
    simp at found
  · intro home entered
    simp at entered
  · intro _
    exact ⟨rfl, rfl⟩
  · intro body started
    cases started

/-- The positions and the code do not matter. -/
theorem recoded (lockstep : draft.Lockstep) (bound : Array Bool) (code : Array Instruction) :
    Lockstep { draft with bound, code } :=
  ⟨lockstep.wellNested, lockstep.mirrors, lockstep.inClass, lockstep.behindClass,
    lockstep.slotScope_eq, lockstep.nameScope_eq, lockstep.unstarted, lockstep.started⟩

theorem withFrame (lockstep : draft.Lockstep) (scope : ScopeId) (change : NameFrame → NameFrame) :
    (draft.withNames (draft.owner.names.modifyFrame scope change)).Lockstep := by
  refine ⟨lockstep.wellNested, ?_, ?_, lockstep.behindClass, lockstep.slotScope_eq,
    lockstep.nameScope_eq, lockstep.unstarted, lockstep.started⟩
  · exact lockstep.mirrors.modifyPayload_image scope change
  · exact (NestedScopes.parent?_modifyPayload _ _ _ _).trans lockstep.inClass

theorem withLabel (lockstep : draft.Lockstep) (scope : ScopeId) (hint : Option String) :
    (draft.withLabel scope hint).Lockstep := by
  have named : (draft.withNames (draft.owner.names.afterFresh scope hint)).Lockstep :=
    lockstep.withFrame scope _
  exact named.recoded (draft.bound.push false) draft.code

theorem withEnds (lockstep : draft.Lockstep) (scope : ScopeId) :
    (draft.withEnds scope).Lockstep := by
  apply Lockstep.withLabel
  exact lockstep.withLabel scope (some "start")

theorem withBody (lockstep : draft.Lockstep) (unstarted : draft.body = none) :
    draft.withBody.Lockstep := by
  have ends := lockstep.withEnds draft.nameScope
  have noBlocks := (lockstep.unstarted unstarted).1
  have noSlots := (lockstep.unstarted unstarted).2
  have single : ∀ block : Block, draft.blocks.push block = #[block] := by
    intro block
    rw [noBlocks]
    rfl
  constructor
  · exact ends.wellNested
  · exact ends.mirrors
  · exact ends.inClass
  · exact ends.behindClass
  · intro index home found
    change (draft.blocks.push _)[index]? = some home at found
    rw [single] at found
    rcases index with _ | index
    · cases found
      rfl
    · simp at found
  · intro home entered
    change home ∈ draft.blocks.push _ at entered
    rw [single, Array.mem_singleton] at entered
    rw [entered]
    rfl
  · intro started
    cases started
  · intro body started
    cases started
    refine ⟨?_, ?_⟩
    · rw [noBlocks]
      rfl
    · change (draft.blocks.push _).size = draft.slots.scopes.size
      rw [single, noSlots]
      rfl

theorem enterBlock (lockstep : draft.Lockstep) {outer : Block} {label : Option String}
    {slotScope nameScope : ScopeId} {slotScopes : NestedScopes (VariableFrame JvmType)}
    {nameScopes : NestedScopes NameFrame} (entered : outer ∈ draft.blocks)
    (slotsEntered : draft.slots.scopes.enter outer.slotScope label
      (draft.slots.innerFrame outer.slotScope) = .ok slotScope slotScopes)
    (namesEntered : (draft.withEnds outer.nameScope).owner.names.scopes.enter outer.nameScope
      label .empty = .ok nameScope nameScopes) (start stop : Label) :
    Lockstep
      (({ draft.withEnds outer.nameScope with
        slots := { draft.slots with scopes := slotScopes } }.withNames ⟨nameScopes⟩).beginning
          { slotScope, nameScope, start, stop }) := by
  have ends := lockstep.withEnds outer.nameScope
  have size := lockstep.size_blocks entered
  have parent : nameScopes.parent? draft.nameScope = some .root := by
    have known := NestedScopes.known_of_parent? ends.inClass
    have unknown := NestedScopes.size_le_child_of_enter namesEntered
    rw [NestedScopes.parent?_of_enter namesEntered, if_neg]
    · exact ends.inClass
    · rintro rfl
      exact Nat.lt_irrefl _ (Nat.lt_of_lt_of_le known unknown)
  rcases ends.mirrors.enter slotsEntered label NameFrame.empty with ⟨scopes, copied, mirrors⟩
  change (draft.withEnds outer.nameScope).owner.names.scopes.enter
    (outer.slotScope.shifted draft.nameScope.index) label .empty = _ at copied
  rw [← lockstep.nameScope_eq entered, namesEntered] at copied
  cases copied
  have slotScopeEq := NestedScopes.child_eq_of_enter slotsEntered
  constructor
  · exact lockstep.wellNested.enter slotsEntered
  · exact mirrors
  · exact parent
  · exact lockstep.behindClass
  · intro index home found
    change (draft.blocks.push _)[index]? = some home at found
    rw [Array.getElem?_push] at found
    split at found
    · rename_i last
      cases found
      rw [slotScopeEq, ← size, last]
    · exact lockstep.slotScope_eq found
  · intro home member
    rcases Array.mem_push.mp member with older | newest
    · exact lockstep.nameScope_eq older
    · rw [newest]
      rfl
  · intro unstarted
    exact absurd unstarted (lockstep.body_ne_none entered)
  · intro body started
    refine ⟨(lockstep.started started).1, ?_⟩
    change (draft.blocks.push _).size = slotScopes.size
    rw [Array.size_push, size, NestedScopes.size_of_enter slotsEntered]

theorem leaveBlock (lockstep : draft.Lockstep) {closing : Block} (entered : closing ∈ draft.blocks)
    (usable : draft.slots.scopes.requireUsable closing.slotScope = .ok ()) :
    Lockstep {
      (draft.marking closing.stop).withNames
        ⟨draft.owner.names.scopes.closedAt closing.nameScope⟩ with
      slots := { draft.slots with scopes := draft.slots.scopes.closedAt closing.slotScope } } := by
  have known := ((NestedScopes.requireUsable_eq_ok_iff _ _).mp usable).1
  refine ⟨?_, ?_, ?_, lockstep.behindClass, lockstep.slotScope_eq, lockstep.nameScope_eq, ?_, ?_⟩
  · exact lockstep.wellNested.closedAt usable
  · dsimp only [withNames]
    rw [lockstep.nameScope_eq entered]
    exact lockstep.mirrors.closedAt known
  · exact (NestedScopes.parent?_closedAt _ _ _).trans lockstep.inClass
  · intro unstarted
    exact absurd unstarted (lockstep.body_ne_none entered)
  · intro body started
    rw [NestedScopes.size_closedAt]
    exact lockstep.started started

theorem declare (lockstep : draft.Lockstep) {id : BlockId} {home : Block}
    (found : draft.blocks[id.index]? = some home) (role : VariableRole) (type : JvmType)
    (name : Option String) : (draft.declaring id home role type name).Lockstep := by
  have named : (draft.withNames (draft.namesDeclaring home.nameScope name)).Lockstep := by
    cases name with
    | none => exact lockstep
    | some name => exact lockstep.withFrame home.nameScope _
  refine ⟨?_, ?_, named.inClass, named.behindClass, named.slotScope_eq, named.nameScope_eq, ?_, ?_⟩
  · exact SlotTable.wellNested_adding lockstep.wellNested _
  · exact named.mirrors.modifyPayload home.slotScope fun frame =>
      frame.push (draft.slots.nextVariable home.slotScope role type name)
  · intro unstarted
    exact absurd unstarted (lockstep.body_ne_none (Array.mem_of_getElem? found))
  · intro body started
    refine (lockstep.started started).imp_right fun size => ?_
    exact size.trans (NestedScopes.size_modifyPayload _ _ _).symm

theorem step {after : MethodDraft} (step : Step permitted draft after)
    (lockstep : draft.Lockstep) : after.Lockstep := by
  cases step with
  | issueName entered usable hint => exact lockstep.withFrame _ _
  | takeName entered usable name => exact lockstep.withFrame _ _
  | createLabel entered usable hint => exact lockstep.withLabel _ hint
  | startBody unstarted usable => exact lockstep.withBody unstarted
  | enterBlock entered usable slotsEntered namesEntered =>
      exact lockstep.enterBlock entered slotsEntered namesEntered _ _
  | leaveBlock entered usable => exact lockstep.leaveBlock entered usable
  | declare found accepted unnamed type => exact lockstep.declare found _ type _
  | bindLabel entered usable unbound allowed => exact lockstep.recoded _ _
  | append entered usable noMark allowed => exact lockstep.recoded _ _

theorem nameScope_le (lockstep : draft.Lockstep) {home : Block} (entered : home ∈ draft.blocks) :
    draft.nameScope.index ≤ home.nameScope.index := by
  rw [lockstep.nameScope_eq entered]
  exact Nat.le_add_right _ _

end Lockstep

/-! ## What steps change in the name supply -/

/-- A change to the name scopes of a class, made at the scope of a method or at one behind it. -/
inductive NameStep (nameScope : ScopeId) :
    NestedScopes NameFrame → NestedScopes NameFrame → Prop where
  | modify {nested : NestedScopes NameFrame} {scope : ScopeId}
      (inside : nameScope.index ≤ scope.index) (change : NameFrame → NameFrame) :
      NameStep nameScope nested (nested.modifyPayload scope change)
  | enter {nested after : NestedScopes NameFrame} {parent child : ScopeId} {label : Option String}
      (inside : nameScope.index ≤ parent.index)
      (entered : nested.enter parent label .empty = .ok child after) :
      NameStep nameScope nested after
  | close {nested : NestedScopes NameFrame} {scope : ScopeId}
      (inside : nameScope.index ≤ scope.index) (usable : nested.requireUsable scope = .ok ()) :
      NameStep nameScope nested (nested.closedAt scope)

section NameSteps

variable {draft after : MethodDraft} {permitted : MethodDraft → Label → Prop} {scope : ScopeId}

theorem nameStep_fresh (names : NameSupply) {nameScope : ScopeId}
    (inside : nameScope.index ≤ scope.index) (hint : Option String) :
    NameStep nameScope names.scopes (names.afterFresh scope hint).scopes := by
  dsimp only [NameSupply.afterFresh, NameSupply.modifyFrame]
  exact .modify inside _

theorem nameSteps_withEnds (inside : draft.nameScope.index ≤ scope.index) :
    Relation.ReflTransGen (NameStep draft.nameScope) draft.owner.names.scopes
      (draft.withEnds scope).owner.names.scopes :=
  .tail (.single (nameStep_fresh draft.owner.names inside (some "start")))
    (nameStep_fresh _ inside (some "end"))

theorem Step.nameSteps (step : Step permitted draft after) (lockstep : draft.Lockstep) :
    Relation.ReflTransGen (NameStep draft.nameScope) draft.owner.names.scopes
      after.owner.names.scopes := by
  cases step with
  | issueName entered usable hint =>
      exact .single (nameStep_fresh _ (lockstep.nameScope_le entered) hint)
  | takeName entered usable name => exact .single (.modify (lockstep.nameScope_le entered) _)
  | createLabel entered usable hint =>
      exact .single (nameStep_fresh _ (lockstep.nameScope_le entered) hint)
  | startBody unstarted usable => exact nameSteps_withEnds (Nat.le_refl _)
  | enterBlock entered usable slotsEntered namesEntered =>
      have inside := lockstep.nameScope_le entered
      exact (nameSteps_withEnds inside).tail (.enter inside namesEntered)
  | leaveBlock entered usable =>
      exact .single (.close (lockstep.nameScope_le entered) ((lockstep.usable_iff entered).mpr usable))
  | declare found accepted unnamed type =>
      rename_i home _ name
      have inside := lockstep.nameScope_le (Array.mem_of_getElem? found)
      cases name with
      | none => exact .refl
      | some name => exact .single (.modify inside _)
  | bindLabel entered usable unbound allowed => exact .refl
  | append entered usable noMark allowed => exact .refl

theorem Path.nameSteps (path : Path permitted draft after) (lockstep : draft.Lockstep) :
    Relation.ReflTransGen (NameStep draft.nameScope) draft.owner.names.scopes
      after.owner.names.scopes := by
  induction path with
  | refl => exact .refl
  | tail earlier last ih =>
      have steps := last.nameSteps (Path.keeps Lockstep Lockstep.step earlier lockstep)
      rw [(Path.retains earlier).nameScope] at steps
      exact ih.trans steps

end NameSteps

end MethodDraft

end JvmEmit
