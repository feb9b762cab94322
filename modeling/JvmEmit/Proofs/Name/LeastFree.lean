import JvmEmit.Proofs.Name.Runs
import JvmEmit.Proofs.Name.Search
import Mathlib.Order.Bounds.Basic

/-!
# A supply hands out the least free name

A name supply remembers little: one index for each base and scope, and the names that are reserved
ahead of it. Still it answers like a model that remembers every name ever taken. A call for a name
hands out the least name of its base that was never taken in the scope or in the scopes around it.

The invariant `NameHistory.Faithful` says that in every open scope the indices in use are exactly
those of the taken names. It is kept because an open scope sees only itself and scopes that are
frozen, so that each call on a usable scope changes the view of that scope alone.
-/

namespace JvmEmit

open NumberedName (numbered baseOfHint IsBase isBase_baseOfHint numbered_inj)

namespace NameSupply

variable {supply : NameSupply} {scope : ScopeId} {base : String}

/-! ## Indices around the next one -/

theorem inUse_of_lt_nextIndex {index : Nat} (below : index < supply.nextIndex scope base) :
    NameFrame.InUse (supply.frames scope) base index := by
  rw [nextIndex] at below
  cases found : supply.latestIndex? scope base with
  | none => simp [found] at below
  | some latest =>
      simp only [found] at below
      exact .inl ⟨latest, found, by omega⟩

/-- As long as the index has room to grow, the next one is behind every index up to it. -/
theorem lt_nextIndex_of_le_latest {index latest : Nat}
    (found : supply.latestIndex? scope base = some latest) (below : index ≤ latest)
    (room : latest < maxIndex) : index < supply.nextIndex scope base := by
  simp only [nextIndex, found]
  omega

theorem inUse_of_lt_freeIndex {index : Nat} (below : index < supply.freeIndex scope base) :
    NameFrame.InUse (supply.frames scope) base index := by
  rcases Nat.lt_or_ge index (supply.nextIndex scope base) with before | fromNext
  · exact inUse_of_lt_nextIndex before
  · exact .inr (supply.isReserved_of_lt_freeIndex scope fromNext below)

theorem not_inUse_freeIndex (isBase : IsBase base)
    (room : ∀ latest, supply.latestIndex? scope base = some latest → latest < maxIndex) :
    ¬NameFrame.InUse (supply.frames scope) base (supply.freeIndex scope base) := by
  rintro (⟨latest, found, below⟩ | reserved)
  · have before := lt_nextIndex_of_le_latest found below (room latest found)
    rw [freeIndex] at before
    omega
  · rw [← isReserved_eq, isReserved_freeIndex supply scope isBase] at reserved
    simp at reserved

/-! ## What a call adds to the indices in use -/

section Take

variable {own : NameFrame} {outer : List NameFrame} {other : String} {index : Nat}

/-- Handing out a name puts that name in use and no other. -/
theorem inUse_fresh (frames : supply.frames scope = own :: outer) (isBase : IsBase base)
    (room : ∀ latest, supply.latestIndex? scope base = some latest → latest < maxIndex)
    (isBase' : IsBase other) :
    NameFrame.InUse ((own.forget (supply.skippedNames scope base)).withIndex base
        (supply.freeIndex scope base) :: outer) other index ↔
      NameFrame.InUse (own :: outer) other index ∨
        numbered base (supply.freeIndex scope base) = numbered other index := by
  have skipped := supply.mem_skippedNames_iff scope isBase isBase' index
  rw [numbered_inj isBase isBase', NameFrame.InUse, NameFrame.InUse, NameFrame.latestIn_withIndex,
    NameFrame.reservedIn_withIndex, NameFrame.latestIn_forget, NameFrame.reservedIn_forget]
  by_cases same : base = other
  · subst other
    simp only [if_pos, Option.some.injEq, exists_eq_left', true_and] at skipped ⊢
    constructor
    · rintro (upTo | reserved)
      · rcases Nat.lt_or_ge index (supply.freeIndex scope base) with below | atEnd
        · left
          have inUse := inUse_of_lt_freeIndex below
          rwa [frames] at inUse
        · exact .inr (by omega)
      · left
        right
        rw [NameFrame.reservedIn, List.any_cons]
        simp only [Bool.or_eq_true, Bool.and_eq_true] at reserved ⊢
        exact reserved.imp_left And.left
    · rintro ((⟨latest, found, below⟩ | reserved) | atEnd)
      · left
        rw [← frames] at found
        have before := lt_nextIndex_of_le_latest found below (room latest found)
        rw [freeIndex]
        omega
      · rcases Nat.lt_or_ge (supply.freeIndex scope base) index with behind | upTo
        · right
          rw [NameFrame.reservedIn, List.any_cons] at reserved
          have kept : numbered base index ∉ supply.skippedNames scope base := by
            rw [skipped]
            omega
          simpa [kept, NameFrame.reservedIn] using reserved
        · exact .inl upTo
      · exact .inl (by omega)
  · have kept : numbered other index ∉ supply.skippedNames scope base := by
      rw [skipped]
      rintro ⟨rfl, _⟩
      exact same rfl
    simp [same, kept, NameFrame.reservedIn]

theorem inUse_withIndex_next {supply : NameSupply} {scope : ScopeId} {base : String}
    (frames : supply.frames scope = own :: outer)
    (room : ∀ latest, supply.latestIndex? scope base = some latest → latest < maxIndex) :
    NameFrame.InUse (own.withIndex base (supply.nextIndex scope base) :: outer) other index ↔
      NameFrame.InUse (own :: outer) other index ∨
        base = other ∧ supply.nextIndex scope base = index := by
  rw [NameFrame.InUse, NameFrame.InUse, NameFrame.latestIn_withIndex,
    NameFrame.reservedIn_withIndex]
  by_cases same : base = other
  · subst other
    simp only [if_pos, Option.some.injEq, exists_eq_left', true_and]
    constructor
    · rintro (upTo | reserved)
      · rcases Nat.lt_or_ge index (supply.nextIndex scope base) with below | atNext
        · have inUse := inUse_of_lt_nextIndex below
          rw [frames] at inUse
          exact .inl inUse
        · exact .inr (by omega)
      · exact .inl (.inr reserved)
    · rintro ((⟨latest, found, below⟩ | reserved) | atNext)
      · rw [← frames] at found
        have before := lt_nextIndex_of_le_latest found below (room latest found)
        exact .inl (by omega)
      · exact .inr reserved
      · exact .inl (by omega)
  · simp [same]

theorem inUse_withReserved {name : String} :
    NameFrame.InUse (own.withReserved name :: outer) other index ↔
      NameFrame.InUse (own :: outer) other index ∨ name = numbered other index := by
  rw [NameFrame.InUse, NameFrame.InUse, NameFrame.latestIn_withReserved,
    NameFrame.reservedIn_withReserved, Bool.or_eq_true, decide_eq_true_eq]
  constructor
  · rintro (latest | same | reserved)
    · exact .inl (.inl latest)
    · exact .inr same
    · exact .inl (.inr reserved)
  · rintro ((latest | reserved) | same)
    · exact .inl latest
    · exact .inr (.inr reserved)
    · exact .inr (.inl same)

/-- Reserving a name puts that name in use and no other, whichever way it is remembered. -/
theorem inUse_reservation {name : String} (frames : supply.frames scope = own :: outer)
    (room : ∀ base latest, IsBase base → supply.latestIndex? scope base = some latest →
      latest < maxIndex)
    (isBase' : IsBase other) :
    NameFrame.InUse (supply.reservation scope name own :: outer) other index ↔
      NameFrame.InUse (own :: outer) other index ∨ name = numbered other index := by
  simp only [reservation]
  cases unnumbered : NumberedName.isUnnumbered name with
  | true =>
      have differs : name ≠ numbered other index := by
        rintro rfl
        rw [NumberedName.isUnnumbered_numbered isBase'] at unnumbered
        simp at unnumbered
      simp [differs]
  | false =>
      have isBase := NumberedName.isBase_of_not_isUnnumbered unnumbered
      have written := NumberedName.numbered_base_index unnumbered
      have same : name = numbered other index ↔
          NumberedName.base name = other ∧ NumberedName.index name = index := by
        rw [← numbered_inj isBase isBase', written]
      simp only [Bool.false_eq_true, if_false]
      split
      · exact inUse_withReserved
      · split
        · rename_i atNext
          rw [same, atNext]
          exact inUse_withIndex_next frames fun latest => room _ latest isBase
        · split
          · exact inUse_withReserved
          · -- the index is not above the closest one, so the name is in use already
            rename_i notAhead
            have inUse : NameFrame.InUse (own :: outer) (NumberedName.base name)
                (NumberedName.index name) := by
              cases found : supply.latestIndex? scope (NumberedName.base name) with
              | none => simp [found] at notAhead
              | some latest =>
                  rw [latestIndex?_eq, frames] at found
                  refine .inl ⟨latest, found, ?_⟩
                  rw [latestIndex?_eq, frames, found] at notAhead
                  simpa using notAhead
            rw [same]
            constructor
            · exact .inl
            · rintro (before | ⟨rfl, rfl⟩)
              · exact before
              · exact inUse

end Take

end NameSupply

namespace NameHistory

open NameSupply (maxIndex)

/-! ## The invariant -/

/-- In every open scope, the indices in use are those of the names taken there or around it. -/
structure Faithful (history : NameHistory) : Prop where
  wellNested : history.supply.scopes.WellNested
  takings_known : ∀ taking ∈ history.takings,
    taking.scope.index < history.supply.scopes.size
  isTaken_iff : ∀ {scope : ScopeId}, history.supply.scopes.requireOpen scope = .ok () →
    ∀ {base : String}, IsBase base → ∀ index : Nat,
      history.IsTaken scope (numbered base index) ↔
        NameFrame.InUse (history.supply.frames scope) base index

namespace Faithful

variable {history : NameHistory}

theorem initial (label : Option String) : Faithful ⟨.ofRoot label, []⟩ := by
  constructor
  · exact .ofRoot label NameFrame.empty
  · simp
  · intro scope _ base _ index
    have noFrame : ∀ frame ∈ (NameSupply.ofRoot label).frames scope, frame = .empty := by
      intro frame member
      obtain ⟨outer, _, found⟩ := List.mem_filterMap.mp member
      exact NameSupply.eq_empty_of_ofRoot found
    constructor
    · rintro ⟨taking, member, _⟩
      simp at member
    · rintro (⟨latest, found, _⟩ | reserved)
      · obtain ⟨frame, member, found⟩ := List.exists_of_findSome?_eq_some found
        rw [noFrame frame member] at found
        simp [NameFrame.empty] at found
      · obtain ⟨frame, member, contains⟩ := List.any_eq_true.mp reserved
        rw [noFrame frame member] at contains
        simp [NameFrame.empty] at contains

theorem latest_lt_length (faithful : history.Faithful) {scope : ScopeId}
    (opened : history.supply.scopes.requireOpen scope = .ok ()) {base : String}
    (isBase : IsBase base) {latest : Nat}
    (found : history.supply.latestIndex? scope base = some latest) :
    latest < history.takings.length := by
  have allTaken : ∀ index < latest + 1,
      numbered base (0 + index) ∈ history.takings.map Taking.name := by
    intro index below
    have inUse : NameFrame.InUse (history.supply.frames scope) base (0 + index) :=
      .inl ⟨latest, found, by omega⟩
    rcases (faithful.isTaken_iff opened isBase _).mpr inUse with ⟨taking, taken, _, same⟩
    exact List.mem_map.mpr ⟨taking, taken, same⟩
  have room := NumberedName.le_length_of_mem isBase allTaken
  rwa [List.length_map] at room

theorem enter {parent child : ScopeId} {label : Option String} {scopes : NestedScopes NameFrame}
    (faithful : history.Faithful)
    (entered : history.supply.scopes.enter parent label .empty = .ok child scopes) :
    Faithful ⟨⟨scopes⟩, history.takings⟩ := by
  have size := NestedScopes.size_of_enter entered
  have childUnknown := NestedScopes.size_le_child_of_enter entered
  have parentOpen := NestedScopes.requireOpen_of_enter entered
  constructor
  · exact faithful.wellNested.enter entered
  · intro taking member
    have known := faithful.takings_known taking member
    change taking.scope.index < scopes.size
    omega
  · intro scope opened base isBase index
    by_cases atChild : scope = child
    · -- nothing was taken in the new scope yet, so it sees what its parent sees
      subst scope
      have frames := NameSupply.frames_child_of_enter faithful.wellNested entered
      have inUse : NameFrame.InUse (.empty :: history.supply.frames parent) base index ↔
          NameFrame.InUse (history.supply.frames parent) base index := by
        simp [NameFrame.InUse, NameFrame.latestIn, NameFrame.reservedIn, NameFrame.empty]
      rw [frames, inUse, ← faithful.isTaken_iff parentOpen isBase index]
      have path : scopes.path child = child :: history.supply.scopes.path parent := by
        rw [NestedScopes.path_of_enter entered, if_pos rfl]
      constructor
      · rintro ⟨taking, member, inPath, same⟩
        refine ⟨taking, member, ?_, same⟩
        rw [path, List.mem_cons] at inPath
        rcases inPath with atChild | inPath
        · have known := faithful.takings_known taking member
          rw [atChild] at known
          omega
        · exact inPath
      · rintro ⟨taking, member, inPath, same⟩
        refine ⟨taking, member, ?_, same⟩
        rw [path]
        exact List.mem_cons_of_mem _ inPath
    · have frames := NameSupply.frames_of_enter faithful.wellNested entered atChild
      have path : scopes.path scope = history.supply.scopes.path scope := by
        rw [NestedScopes.path_of_enter entered, if_neg atChild]
      have openedBefore := (NestedScopes.requireOpen_after_enter_iff entered atChild).mp opened
      rw [frames, ← faithful.isTaken_iff openedBefore isBase index, IsTaken, IsTaken, path]

theorem close {closing : ScopeId} (faithful : history.Faithful)
    (usable : history.supply.scopes.requireUsable closing = .ok ()) :
    Faithful ⟨⟨history.supply.scopes.closedAt closing⟩, history.takings⟩ := by
  have known := ((NestedScopes.requireUsable_eq_ok_iff _ _).mp usable).1
  constructor
  · exact faithful.wellNested.closedAt usable
  · intro taking member
    simpa using faithful.takings_known taking member
  · intro scope opened base isBase index
    have openedBefore := ((NestedScopes.requireOpen_closedAt_iff _ _ _ known).mp opened).2
    rw [NameSupply.frames_closedAt, ← faithful.isTaken_iff openedBefore isBase index, IsTaken,
      IsTaken]
    simp

/--
Taking a name in a usable scope keeps the invariant if the change to the scope's frame puts exactly
that name in use. No other open scope sees the change.
-/
theorem take {scope : ScopeId} {name : String} {change : NameFrame → NameFrame}
    (faithful : history.Faithful)
    (usable : history.supply.scopes.requireUsable scope = .ok ())
    (inUse : ∀ own outer, history.supply.frames scope = own :: outer →
      ∀ base, IsBase base → ∀ index,
        NameFrame.InUse (change own :: outer) base index ↔
          NameFrame.InUse (own :: outer) base index ∨ name = numbered base index) :
    Faithful ⟨history.supply.modifyFrame scope change, ⟨scope, name⟩ :: history.takings⟩ := by
  have isUsable := (NestedScopes.requireUsable_eq_ok_iff _ _).mp usable
  constructor
  · exact NestedScopes.WellNested.modifyPayload faithful.wellNested scope change
  · intro taking member
    change taking.scope.index < (history.supply.scopes.modifyPayload scope change).size
    rw [NestedScopes.size_modifyPayload]
    rcases List.mem_cons.mp member with rfl | member
    · exact isUsable.1
    · exact faithful.takings_known taking member
  · intro other opened base isBase index
    have openedBefore := (NestedScopes.requireOpen_modifyPayload_iff _ _ _ _).mp opened
    have takenIff : IsTaken ⟨history.supply.modifyFrame scope change,
          ⟨scope, name⟩ :: history.takings⟩ other (numbered base index) ↔
        (scope ∈ history.supply.scopes.path other ∧ name = numbered base index) ∨
          history.IsTaken other (numbered base index) := by
      simp [IsTaken, NameSupply.modifyFrame]
    rw [takenIff, faithful.isTaken_iff openedBefore isBase index]
    by_cases same : other = scope
    · subst other
      obtain ⟨own, found⟩ := NestedScopes.exists_payload? isUsable.1
      have before := NameSupply.frames_of_payload? found
      have after := NameSupply.frames_modifyFrame_self faithful.wellNested found change
      rw [before, after, inUse own _ before base isBase index]
      simp [NestedScopes.path, or_comm]
    · -- another open scope does not have the usable scope around it
      have otherOpen := ((NestedScopes.requireOpen_eq_ok_iff _ _).mp openedBefore).2
      have apart := faithful.wellNested.not_mem_path_of_usable usable otherOpen same
      rw [NameSupply.frames_modifyFrame_of_open faithful.wellNested usable change openedBefore same]
      simp [apart]

theorem step {after : NameHistory} (faithful : history.Faithful) (step : Step history after)
    (few : after.takings.length ≤ maxIndex) : after.Faithful := by
  have room : ∀ {scope : ScopeId}, history.supply.scopes.requireUsable scope = .ok () →
      ∀ base latest, IsBase base → history.supply.latestIndex? scope base = some latest →
        history.takings.length + 1 ≤ maxIndex → latest < maxIndex := by
    intro scope usable base latest isBase found few
    have opened := NestedScopes.requireOpen_of_requireUsable usable
    have below := faithful.latest_lt_length opened isBase found
    omega
  cases step with
  | idle => exact faithful
  | enter entered => exact faithful.enter entered
  | close usable => exact faithful.close usable
  | fresh usable hint =>
      have isBase := isBase_baseOfHint hint
      apply faithful.take usable
      intro own outer frames base isBase' index
      exact NameSupply.inUse_fresh frames isBase
        (fun latest found => room usable _ latest isBase found few) isBase'
  | reserve usable name =>
      apply faithful.take usable
      intro own outer frames base isBase' index
      exact NameSupply.inUse_reservation frames
        (fun base latest isBase found => room usable base latest isBase found few) isBase'

theorem ofCalls (label : Option String) (calls : List NameCall)
    (few : (NameHistory.ofCalls label calls).takings.length ≤ maxIndex) :
    (NameHistory.ofCalls label calls).Faithful := by
  induction calls using List.reverseRecOn with
  | nil => exact initial label
  | append_singleton calls call ih =>
      rw [ofCalls_append] at few ⊢
      have fewBefore := Nat.le_trans (length_takings_le_record _ call) few
      exact (ih fewBefore).step (step_record _ call) few

/-- The index that a usable scope ends its search at is the least one whose name is free. -/
theorem isLeast_freeIndex (faithful : history.Faithful)
    (few : history.takings.length ≤ maxIndex) {scope : ScopeId}
    (usable : history.supply.scopes.requireUsable scope = .ok ()) {base : String}
    (isBase : IsBase base) :
    IsLeast {index | ¬history.IsTaken scope (numbered base index)}
      (history.supply.freeIndex scope base) := by
  have opened := NestedScopes.requireOpen_of_requireUsable usable
  constructor
  · rw [Set.mem_ofPred_eq, faithful.isTaken_iff opened isBase]
    apply NameSupply.not_inUse_freeIndex isBase
    intro latest found
    have below := faithful.latest_lt_length opened isBase found
    omega
  · intro index free
    rw [Set.mem_ofPred_eq, faithful.isTaken_iff opened isBase] at free
    by_contra below
    exact free (NameSupply.inUse_of_lt_freeIndex (by omega))

end Faithful

/-! ## The answer of a supply -/

theorem length_takings_lt_maxIndex (label : Option String) {calls : List NameCall}
    (few : calls.countP NameCall.isForName < UInt64.size - 1) :
    (ofCalls label calls).takings.length < maxIndex := by
  have taken := length_takings_le label calls
  rw [maxIndex]
  omega

/--
After any run with fewer calls for names than there are indices, every usable scope hands out the
name of the hint's base with the least index whose name was never taken in the scope or around it.
-/
theorem fresh_hands_out_least_free_name (label : Option String) (calls : List NameCall)
    (few : calls.countP NameCall.isForName < UInt64.size - 1) (scope : ScopeId)
    (usable : (ofCalls label calls).supply.scopes.requireUsable scope = .ok ())
    (hint : Option String) :
    ∃ index after,
      (ofCalls label calls).supply.fresh scope hint =
        .ok (numbered (baseOfHint hint) index) after ∧
      IsLeast {index | ¬(ofCalls label calls).IsTaken scope (numbered (baseOfHint hint) index)}
        index := by
  have fewTakings := Nat.le_of_lt (length_takings_lt_maxIndex label few)
  have least := (Faithful.ofCalls label calls fewTakings).isLeast_freeIndex fewTakings usable
    (isBase_baseOfHint hint)
  exact ⟨_, _, NameSupply.fresh_of_usable usable hint, least⟩

/-- Names reserved out of order, one of them around the scope that is asked afterwards. -/
def reservingCalls : List NameCall :=
  [.fresh .root (some "foo"), .reserve .root "foo2", .enter .root (some "body"),
    .reserve ⟨1⟩ "foo1"]

theorem fresh_passes_over_reserved_names :
    Outcome.toExcept ((ofCalls none reservingCalls).supply.fresh ⟨1⟩ (some "foo12")) =
      .ok "foo3" ∧
    ∃ index after,
      (ofCalls none reservingCalls).supply.fresh ⟨1⟩ (some "foo12") =
        .ok (numbered "foo" index) after ∧
      IsLeast {index | ¬(ofCalls none reservingCalls).IsTaken ⟨1⟩ (numbered "foo" index)}
        index := by
  refine ⟨by decide +kernel, ?_⟩
  exact fresh_hands_out_least_free_name none reservingCalls (by decide) ⟨1⟩ (by decide)
    (some "foo12")

/--
A supply cannot be asked anything but which names are taken: two runs after which the same names of
a base are taken in two usable scopes hand out the same name there.
-/
theorem fresh_eq_of_taken_iff {label label' : Option String} {calls calls' : List NameCall}
    (few : calls.countP NameCall.isForName < UInt64.size - 1)
    (few' : calls'.countP NameCall.isForName < UInt64.size - 1) {scope scope' : ScopeId}
    (usable : (ofCalls label calls).supply.scopes.requireUsable scope = .ok ())
    (usable' : (ofCalls label' calls').supply.scopes.requireUsable scope' = .ok ())
    (hint : Option String)
    (same : ∀ index, (ofCalls label calls).IsTaken scope (numbered (baseOfHint hint) index) ↔
      (ofCalls label' calls').IsTaken scope' (numbered (baseOfHint hint) index)) :
    Outcome.toExcept ((ofCalls label calls).supply.fresh scope hint) =
      Outcome.toExcept ((ofCalls label' calls').supply.fresh scope' hint) := by
  have fewTakings := Nat.le_of_lt (length_takings_lt_maxIndex label few)
  have fewTakings' := Nat.le_of_lt (length_takings_lt_maxIndex label' few')
  have isBase := isBase_baseOfHint hint
  have least := (Faithful.ofCalls label calls fewTakings).isLeast_freeIndex fewTakings usable
    isBase
  have least' := (Faithful.ofCalls label' calls' fewTakings').isLeast_freeIndex fewTakings' usable'
    isBase
  simp only [same] at least
  rw [NameSupply.fresh_of_usable usable, NameSupply.fresh_of_usable usable',
    NameSupply.freshName, NameSupply.freshName, least.unique least', Outcome.toExcept_ok,
    Outcome.toExcept_ok]

end NameHistory

end JvmEmit
