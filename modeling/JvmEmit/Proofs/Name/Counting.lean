import JvmEmit.Proofs.Name.LeastFree
import Mathlib.Data.List.Dedup

/-!
# Indices and the calls for names

An index in use is never ahead of the calls for names. Whatever a frame keeps, it keeps because of
names that were taken in its scope or around it: every index up to the one in use, and every name
that is reserved ahead. Names of one base with different indices are different, so each of them has
a call of its own, however large the number at the end of a reserved name is.

This holds of closed scopes too, and without a bound on the length of the run. So it tells when
indices outgrow a 64-bit word: not before there were as many calls for names.
-/

namespace JvmEmit

open NumberedName (numbered baseOfHint IsBase isBase_baseOfHint)
open NameSupply (maxIndex)

namespace NameFrame

/-- Every index up to one in use and every name reserved ahead was taken. -/
structure BackedBy (frame : NameFrame) (taken : String → Prop) : Prop where
  isBase : ∀ {base : String} {index : Nat}, frame.latest[base]? = some index → IsBase base
  upTo : ∀ {base : String} {index : Nat}, frame.latest[base]? = some index →
    ∀ earlier ≤ index, taken (numbered base earlier)
  reserved : ∀ {name : String}, frame.reserved.contains name = true → taken name

namespace BackedBy

variable {frame : NameFrame} {taken : String → Prop}

theorem empty (taken : String → Prop) : NameFrame.empty.BackedBy taken := by
  constructor
  · simp [NameFrame.empty]
  · simp [NameFrame.empty]
  · simp [NameFrame.empty]

theorem mono {takenLater : String → Prop} (backed : frame.BackedBy taken)
    (stays : ∀ name, taken name → takenLater name) : frame.BackedBy takenLater :=
  ⟨backed.isBase, fun found earlier below => stays _ (backed.upTo found earlier below),
    fun contains => stays _ (backed.reserved contains)⟩

theorem withIndex (backed : frame.BackedBy taken) {base : String} (isBase : IsBase base)
    {index : Nat} (upTo : ∀ earlier ≤ index, taken (numbered base earlier)) :
    (frame.withIndex base index).BackedBy taken := by
  have found_cases : ∀ {other : String} {latest : Nat},
      (frame.withIndex base index).latest[other]? = some latest →
      (base = other ∧ index = latest) ∨ frame.latest[other]? = some latest := by
    intro other latest found
    simp only [NameFrame.withIndex, Std.TreeMap.getElem?_insert, Std.LawfulEqCmp.compare_eq_iff_eq]
      at found
    split at found
    · rename_i same
      exact .inl ⟨same, Option.some.inj found⟩
    · exact .inr found
  constructor
  · intro other latest found
    rcases found_cases found with ⟨rfl, _⟩ | older
    · exact isBase
    · exact backed.isBase older
  · intro other latest found
    rcases found_cases found with ⟨rfl, rfl⟩ | older
    · exact upTo
    · exact backed.upTo older
  · exact backed.reserved

theorem withReserved (backed : frame.BackedBy taken) {name : String} (isTaken : taken name) :
    (frame.withReserved name).BackedBy taken := by
  refine ⟨backed.isBase, backed.upTo, ?_⟩
  intro other contains
  rcases (contains_withReserved frame name other).mp contains with rfl | older
  · exact isTaken
  · exact backed.reserved older

theorem forget (backed : frame.BackedBy taken) (names : List String) :
    (frame.forget names).BackedBy taken := by
  refine ⟨backed.isBase, backed.upTo, ?_⟩
  intro name contains
  exact backed.reserved ((contains_forget frame names name).mp contains).1

end BackedBy

end NameFrame

namespace NameHistory

/-- How many names of a base were taken in a scope and around it, one for each call. -/
def takenCount (history : NameHistory) (scope : ScopeId) (base : String) : Nat :=
  history.takings.countP fun taking =>
    taking.scope ∈ history.supply.scopes.path scope ∧ NumberedName.base taking.name = base

theorem le_takenCount {history : NameHistory} {scope : ScopeId} {base : String}
    (isBase : IsBase base) {count : Nat}
    (isTaken : ∀ index < count, history.IsTaken scope (numbered base index)) :
    count ≤ history.takenCount scope base := by
  let counted := history.takings.filter fun taking =>
    taking.scope ∈ history.supply.scopes.path scope ∧ NumberedName.base taking.name = base
  have allCounted : ∀ index < count, numbered base (0 + index) ∈ counted.map Taking.name := by
    intro index below
    rcases isTaken index below with ⟨taking, member, onPath, same⟩
    refine List.mem_map.mpr ⟨taking, List.mem_filter.mpr ⟨member, ?_⟩, by simpa using same⟩
    simp [onPath, same, NumberedName.base_numbered isBase]
  have room := NumberedName.le_length_of_mem isBase allCounted
  rwa [List.length_map, ← List.countP_eq_length_filter] at room

theorem takenCount_le (label : Option String) (calls : List NameCall) (scope : ScopeId)
    (base : String) :
    (ofCalls label calls).takenCount scope base ≤ calls.countP NameCall.isForName :=
  Nat.le_trans List.countP_le_length (length_takings_le label calls)

/-! ## The invariant -/

/-- In every scope, what the frame keeps was taken there or around it. -/
structure Backed (history : NameHistory) : Prop where
  wellNested : history.supply.scopes.WellNested
  frames : ∀ {scope : ScopeId} {own : NameFrame},
    history.supply.scopes.payload? scope = some own → own.BackedBy (history.IsTaken scope)

namespace Backed

variable {history : NameHistory} {scope : ScopeId}

theorem isBackedBy (backed : history.Backed) {frame : NameFrame}
    (member : frame ∈ history.supply.frames scope) :
    frame.BackedBy (history.IsTaken scope) := by
  rcases List.mem_filterMap.mp member with ⟨outer, onPath, found⟩
  apply (backed.frames found).mono
  rintro name ⟨taking, taken, around, same⟩
  exact ⟨taking, taken, backed.wellNested.path_subset onPath around, same⟩

theorem isTaken_of_inUse (backed : history.Backed) {base : String} {index : Nat}
    (inUse : NameFrame.InUse (history.supply.frames scope) base index) :
    history.IsTaken scope (numbered base index) := by
  rcases inUse with ⟨latest, found, upTo⟩ | reserved
  · rcases List.exists_of_findSome?_eq_some found with ⟨frame, member, inFrame⟩
    exact (backed.isBackedBy member).upTo inFrame index upTo
  · rcases List.any_eq_true.mp reserved with ⟨frame, member, contains⟩
    exact (backed.isBackedBy member).reserved contains

theorem isBase_of_latestIndex? (backed : history.Backed) {base : String} {index : Nat}
    (found : history.supply.latestIndex? scope base = some index) : IsBase base := by
  rcases List.exists_of_findSome?_eq_some found with ⟨frame, member, inFrame⟩
  exact (backed.isBackedBy member).isBase inFrame

/-! ## What the calls keep -/

theorem initial (label : Option String) : Backed ⟨.ofRoot label, []⟩ := by
  refine ⟨.ofRoot label NameFrame.empty, ?_⟩
  intro scope own found
  rw [NameSupply.eq_empty_of_ofRoot found]
  exact .empty _

theorem enter {parent child : ScopeId} {label : Option String} {scopes : NestedScopes NameFrame}
    (backed : history.Backed)
    (entered : history.supply.scopes.enter parent label .empty = .ok child scopes) :
    Backed ⟨⟨scopes⟩, history.takings⟩ := by
  refine ⟨backed.wellNested.enter entered, ?_⟩
  intro scope own found
  simp only [NestedScopes.payload?_of_enter entered] at found
  split at found
  · cases found
    exact .empty _
  · rename_i older
    apply (backed.frames found).mono
    rintro name ⟨taking, taken, around, same⟩
    refine ⟨taking, taken, ?_, same⟩
    simpa only [NestedScopes.path_of_enter entered, if_neg older] using around

theorem close {closing : ScopeId} (backed : history.Backed)
    (usable : history.supply.scopes.requireUsable closing = .ok ()) :
    Backed ⟨⟨history.supply.scopes.closedAt closing⟩, history.takings⟩ := by
  refine ⟨backed.wellNested.closedAt usable, ?_⟩
  intro scope own found
  simp only [NestedScopes.payload?_closedAt] at found
  apply (backed.frames found).mono
  intro name isTaken
  simpa only [IsTaken, NestedScopes.path_closedAt] using isTaken

/-- A name was taken, and the frame of the scope was changed in a way that this name backs. -/
theorem take {name : String} {change : NameFrame → NameFrame} (backed : history.Backed)
    (kept : ∀ {own : NameFrame} {taken : String → Prop}, own.BackedBy taken →
      (∀ earlier, history.IsTaken scope earlier → taken earlier) → taken name →
        (change own).BackedBy taken) :
    Backed ⟨history.supply.modifyFrame scope change, ⟨scope, name⟩ :: history.takings⟩ := by
  have stays : ∀ other earlier, history.IsTaken other earlier →
      IsTaken ⟨history.supply.modifyFrame scope change, ⟨scope, name⟩ :: history.takings⟩ other
        earlier := by
    rintro other earlier ⟨taking, taken, around, same⟩
    refine ⟨taking, List.mem_cons_of_mem _ taken, ?_, same⟩
    simpa only [NameSupply.modifyFrame, NestedScopes.path_modifyPayload] using around
  refine ⟨backed.wellNested.modifyPayload scope change, ?_⟩
  intro other own found
  simp only [NameSupply.modifyFrame, NestedScopes.payload?_modifyPayload] at found
  split at found
  · rename_i same
    subst other
    rcases Option.map_eq_some_iff.mp found with ⟨before, foundBefore, rfl⟩
    apply kept ((backed.frames foundBefore).mono (stays scope)) (stays scope)
    refine ⟨⟨scope, name⟩, List.mem_cons_self, ?_, rfl⟩
    simp [NameSupply.modifyFrame, NestedScopes.path]
  · exact (backed.frames found).mono (stays other)

theorem fresh (backed : history.Backed) (scope : ScopeId) (hint : Option String) :
    Backed ⟨history.supply.afterFresh scope hint,
      ⟨scope, history.supply.freshName scope hint⟩ :: history.takings⟩ := by
  apply backed.take
  intro own taken ownBacked stays isTaken
  apply (ownBacked.forget _).withIndex (isBase_baseOfHint hint)
  -- what the search has passed over was reserved, perhaps in a scope around, and so was taken
  intro earlier upTo
  rcases Nat.lt_or_eq_of_le upTo with below | rfl
  · exact stays _ (backed.isTaken_of_inUse (NameSupply.inUse_of_lt_freeIndex below))
  · exact isTaken

theorem reserve (backed : history.Backed) (scope : ScopeId) (name : String) :
    Backed ⟨history.supply.afterReserve scope name, ⟨scope, name⟩ :: history.takings⟩ := by
  apply backed.take
  intro own taken ownBacked stays isTaken
  rcases history.supply.reservation_cases scope name own with
    ⟨unchanged, _⟩ | ⟨ahead, _⟩ | ⟨canBeNumbered, atNext, indexed⟩
  · rwa [unchanged]
  · rw [ahead]
    exact ownBacked.withReserved isTaken
  · rw [indexed]
    apply ownBacked.withIndex (NumberedName.isBase_of_not_isUnnumbered canBeNumbered)
    intro earlier upTo
    rcases Nat.lt_or_eq_of_le upTo with below | rfl
    · rw [atNext] at below
      exact stays _ (backed.isTaken_of_inUse (NameSupply.inUse_of_lt_nextIndex below))
    · rwa [NumberedName.numbered_base_index canBeNumbered]

theorem step {after : NameHistory} (step : Step history after) (backed : history.Backed) :
    after.Backed := by
  cases step with
  | idle => exact backed
  | enter entered => exact backed.enter entered
  | close usable => exact backed.close usable
  | fresh usable hint => exact backed.fresh _ hint
  | reserve usable name => exact backed.reserve _ name

theorem ofCalls (label : Option String) (calls : List NameCall) :
    (NameHistory.ofCalls label calls).Backed := by
  induction calls using List.reverseRecOn with
  | nil => exact initial label
  | append_singleton calls call ih =>
      rw [ofCalls_append]
      exact ih.step (step_record _ call)

/-! ## Counting -/

theorem lt_takenCount_of_latestIndex? (backed : history.Backed) {base : String} {index : Nat}
    (found : history.supply.latestIndex? scope base = some index) :
    index + 1 ≤ history.takenCount scope base := by
  apply le_takenCount (backed.isBase_of_latestIndex? found)
  intro earlier below
  exact backed.isTaken_of_inUse (.inl ⟨index, found, by omega⟩)

theorem freeIndex_le_takenCount (backed : history.Backed) (scope : ScopeId)
    {base : String} (isBase : IsBase base) :
    history.supply.freeIndex scope base ≤ history.takenCount scope base := by
  apply le_takenCount isBase
  intro earlier below
  exact backed.isTaken_of_inUse (NameSupply.inUse_of_lt_freeIndex below)

end Backed

end NameHistory

/-! ## The length of a search -/

/-- A search passes over the reserved names in front of a name that is not reserved. -/
theorem NameSupply.fresh_passes_over (supply : NameSupply) {scope : ScopeId}
    (usable : supply.scopes.requireUsable scope = .ok ()) (hint : Option String) :
    ∃ passed after,
      supply.fresh scope hint =
        .ok (numbered (baseOfHint hint) (supply.nextIndex scope (baseOfHint hint) + passed)) after ∧
      (∀ step < passed, supply.isReserved scope
        (numbered (baseOfHint hint) (supply.nextIndex scope (baseOfHint hint) + step)) = true) ∧
      supply.isReserved scope
        (numbered (baseOfHint hint) (supply.nextIndex scope (baseOfHint hint) + passed)) = false ∧
      passed ≤ ((supply.reservedNames scope).filter fun name =>
        NumberedName.base name = baseOfHint hint).dedup.length := by
  have isBase := isBase_baseOfHint hint
  have reserved : ∀ step < (supply.skippedNames scope (baseOfHint hint)).length,
      supply.isReserved scope
        (numbered (baseOfHint hint) (supply.nextIndex scope (baseOfHint hint) + step)) = true := by
    intro step below
    apply supply.isReserved_of_lt_freeIndex scope (Nat.le_add_right _ _)
    rw [freeIndex]
    omega
  refine ⟨_, _, fresh_of_usable usable hint, reserved,
    supply.isReserved_freeIndex scope isBase, ?_⟩
  have counted : ∀ step < (supply.skippedNames scope (baseOfHint hint)).length,
      numbered (baseOfHint hint) (supply.nextIndex scope (baseOfHint hint) + step) ∈
        ((supply.reservedNames scope).filter fun name =>
          NumberedName.base name = baseOfHint hint).dedup := by
    intro step below
    simp [supply.mem_reservedNames_iff, reserved step below, NumberedName.base_numbered isBase]
  exact NumberedName.le_length_of_mem isBase counted

namespace NameHistory

/--
After every run, an index in use for a base is lower than the number of calls that have taken names
of this base in the scope or around it. So in a run with fewer calls for names than there are
indices, no index reaches the largest 64-bit word, neither when the next index is computed nor in a
search. A search passes over reserved names in front of one that is not reserved, and over no more of
them than there are different reserved names of the base in the scope and around it.
-/
theorem indices_stay_below_calls (label : Option String) (calls : List NameCall)
    (scope : ScopeId) :
    let history := ofCalls label calls
    (∀ base index, history.supply.latestIndex? scope base = some index →
      index + 1 ≤ history.takenCount scope base) ∧
    (calls.countP NameCall.isForName < UInt64.size - 1 →
      (∀ base index, history.supply.latestIndex? scope base = some index →
        history.supply.nextIndex scope base = index + 1 ∧ index + 1 < UInt64.size - 1) ∧
      ∀ hint, history.supply.freeIndex scope (baseOfHint hint) < UInt64.size - 1) ∧
    (history.supply.scopes.requireUsable scope = .ok () → ∀ hint,
      ∃ passed after,
        history.supply.fresh scope hint = .ok (numbered (baseOfHint hint)
          (history.supply.nextIndex scope (baseOfHint hint) + passed)) after ∧
        (∀ step < passed, history.supply.isReserved scope (numbered (baseOfHint hint)
          (history.supply.nextIndex scope (baseOfHint hint) + step)) = true) ∧
        history.supply.isReserved scope (numbered (baseOfHint hint)
          (history.supply.nextIndex scope (baseOfHint hint) + passed)) = false ∧
        passed ≤ ((history.supply.reservedNames scope).filter fun name =>
          NumberedName.base name = baseOfHint hint).dedup.length) := by
  intro history
  have backed : history.Backed := .ofCalls label calls
  refine ⟨fun base index => backed.lt_takenCount_of_latestIndex?, ?_, ?_⟩
  · intro few
    constructor
    · intro base index found
      have below := backed.lt_takenCount_of_latestIndex? found
      have taken : history.takenCount scope base ≤ _ := takenCount_le label calls scope base
      have room : index + 1 < UInt64.size - 1 := by omega
      refine ⟨?_, room⟩
      simp only [NameSupply.nextIndex, found, maxIndex]
      omega
    · intro hint
      have below := backed.freeIndex_le_takenCount scope (isBase_baseOfHint hint)
      have taken : history.takenCount scope (baseOfHint hint) ≤ _ :=
        takenCount_le label calls scope (baseOfHint hint)
      omega
  · intro usable hint
    exact history.supply.fresh_passes_over usable hint

/-- Names with a number beyond all indices, ahead of the next one and with a leading zero. -/
def unevenCalls : List NameCall :=
  [.reserve .root "foo18446744073709551616", .reserve .root "foo1", .reserve .root "foo01",
    .fresh .root (some "foo"), .enter .root none, .reserve ⟨1⟩ "foo3", .fresh ⟨1⟩ (some "foo")]

/-- The nested scope is at index two, with six names taken in sight, and passes over one more. -/
theorem index_below_uneven_calls :
    let history := ofCalls none unevenCalls
    history.supply.latestIndex? ⟨1⟩ "foo" = some 2 ∧ 2 + 1 ≤ history.takenCount ⟨1⟩ "foo" ∧
      history.takenCount ⟨1⟩ "foo" = 6 ∧ history.supply.nextIndex ⟨1⟩ "foo" = 2 + 1 ∧
      ∃ passed after,
        history.supply.fresh ⟨1⟩ (some "foo") = .ok (numbered "foo" (3 + passed)) after ∧
        history.supply.isReserved ⟨1⟩ (numbered "foo" (3 + passed)) = false ∧ passed ≤ 3 := by
  intro history
  have found : history.supply.latestIndex? ⟨1⟩ "foo" = some 2 := by decide +kernel
  have next : history.supply.nextIndex ⟨1⟩ (baseOfHint (some "foo")) = 3 := by decide +kernel
  have distinct : ((history.supply.reservedNames ⟨1⟩).filter fun name =>
      NumberedName.base name = baseOfHint (some "foo")).dedup.length = 3 := by decide +kernel
  have base : baseOfHint (some "foo") = "foo" := by decide +kernel
  rcases indices_stay_below_calls none unevenCalls ⟨1⟩ with ⟨below, exact, search⟩
  rcases search (by decide +kernel) (some "foo") with ⟨passed, after, issued, _, free, bound⟩
  refine ⟨found, below "foo" 2 found, by decide +kernel, ?_, ?_⟩
  · exact ((exact (by decide)).1 "foo" 2 found).1
  · rw [next, base] at issued free
    rw [distinct] at bound
    exact ⟨passed, after, issued, free, bound⟩

end NameHistory

end JvmEmit
