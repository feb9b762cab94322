import JvmEmit.Name.Supply
import JvmEmit.Proofs.Name.Decoding
import JvmEmit.Scope.Lemmas
import Mathlib.Data.List.Nodup
import Mathlib.Data.List.Perm.Subperm
import Std.Data.TreeMap.Lemmas
import Std.Data.TreeSet.Lemmas

/-!
# The search for a free name

A supply looks for the first name of a base, from the next index on, that is not reserved ahead in
the scope or around it. The loop forgets the names that it passes over and so changes the supply as it
goes, but it never comes back to a name, so it passes over the names that were reserved at its start.
It is cut off after as many names as are reserved. Names of one base with different indices are
different, so it always ends at a name that is not reserved.

What the search sees of the scopes is a list of frames, the closest first. `InUse` says which indices
of a base those frames exclude: the ones up to the closest index and the ones reserved ahead.
-/

namespace JvmEmit

/-- A list has room for the names of a base that it contains, as they are different. -/
theorem NumberedName.le_length_of_mem {base : String} (isBase : IsBase base) {first count : Nat}
    {names : List String} (member : ∀ step < count, numbered base (first + step) ∈ names) :
    count ≤ names.length := by
  have injective : Function.Injective fun step => numbered base (first + step) := by
    intro step step' same
    have sameIndex := ((numbered_inj isBase isBase).mp same).2
    omega
  have subset : (List.range count).map (fun step => numbered base (first + step)) ⊆ names := by
    intro name isNumbered
    rcases List.mem_map.mp isNumbered with ⟨step, inRange, rfl⟩
    exact member step (List.mem_range.mp inRange)
  have room := (List.Nodup.subperm (List.Nodup.map injective List.nodup_range) subset).length_le
  simpa using room

namespace NameFrame

open NumberedName (numbered IsBase)

/-- The closest index for a base in a row of frames. -/
def latestIn (frames : List NameFrame) (base : String) : Option Nat :=
  frames.findSome? fun frame => frame.latest[base]?

/-- Some frame of a row reserves a name ahead. -/
def reservedIn (frames : List NameFrame) (name : String) : Bool :=
  frames.any fun frame => frame.reserved.contains name

/-- An index of a base that a row of frames excludes from being handed out. -/
def InUse (frames : List NameFrame) (base : String) (index : Nat) : Prop :=
  (∃ latest, latestIn frames base = some latest ∧ index ≤ latest) ∨
    reservedIn frames (numbered base index) = true

/-! ## Changing the closest frame -/

theorem latestIn_withIndex (own : NameFrame) (outer : List NameFrame) (changed base : String)
    (index : Nat) :
    latestIn (own.withIndex changed index :: outer) base =
      if changed = base then some index else latestIn (own :: outer) base := by
  simp only [latestIn, List.findSome?_cons, withIndex, Std.TreeMap.getElem?_insert]
  by_cases same : changed = base
  · simp [same]
  · simp [same]

theorem reservedIn_withIndex (own : NameFrame) (outer : List NameFrame) (changed : String)
    (index : Nat) (name : String) :
    reservedIn (own.withIndex changed index :: outer) name = reservedIn (own :: outer) name :=
  rfl

theorem latestIn_withReserved (own : NameFrame) (outer : List NameFrame) (added base : String) :
    latestIn (own.withReserved added :: outer) base = latestIn (own :: outer) base :=
  rfl

theorem reservedIn_withReserved (own : NameFrame) (outer : List NameFrame) (added name : String) :
    reservedIn (own.withReserved added :: outer) name =
      (decide (added = name) || reservedIn (own :: outer) name) := by
  simp only [reservedIn, List.any_cons, withReserved, Std.TreeSet.contains_insert, Bool.or_assoc]
  congr 1
  by_cases same : added = name
  · simp [same]
  · simp [same]

theorem latestIn_forget (own : NameFrame) (outer : List NameFrame) (forgotten : List String)
    (base : String) :
    latestIn (own.forget forgotten :: outer) base = latestIn (own :: outer) base :=
  rfl

theorem contains_foldl_erase (forgotten : List String) (reserved : Std.TreeSet String)
    (name : String) :
    (forgotten.foldl (fun left name => left.erase name) reserved).contains name =
      (reserved.contains name && !decide (name ∈ forgotten)) := by
  induction forgotten generalizing reserved with
  | nil => simp
  | cons first rest ih =>
      rw [List.foldl_cons, ih, Std.TreeSet.contains_erase]
      by_cases same : first = name
      · simp [same]
      · have differ : (compare first name != .eq) = true := by
          rw [bne_iff_ne, ne_eq, Std.LawfulEqCmp.compare_eq_iff_eq]
          exact same
        simp [differ, Ne.symm same]

theorem contains_withReserved (own : NameFrame) (added name : String) :
    (own.withReserved added).reserved.contains name = true ↔
      added = name ∨ own.reserved.contains name = true := by
  simp only [withReserved, Std.TreeSet.contains_insert, Bool.or_eq_true, beq_iff_eq,
    Std.LawfulEqCmp.compare_eq_iff_eq]

theorem contains_forget (own : NameFrame) (forgotten : List String) (name : String) :
    (own.forget forgotten).reserved.contains name = true ↔
      own.reserved.contains name = true ∧ name ∉ forgotten := by
  simp [forget, contains_foldl_erase]

theorem reservedIn_forget (own : NameFrame) (outer : List NameFrame) (forgotten : List String)
    (name : String) :
    reservedIn (own.forget forgotten :: outer) name =
      ((own.reserved.contains name && !decide (name ∈ forgotten)) || reservedIn outer name) := by
  simp only [reservedIn, List.any_cons, forget, contains_foldl_erase]

end NameFrame

namespace NameSupply

open NumberedName (numbered IsBase baseOfHint isBase_baseOfHint numbered_inj)

variable (supply : NameSupply) (scope : ScopeId)

theorem latestIndex?_eq (base : String) :
    supply.latestIndex? scope base = NameFrame.latestIn (supply.frames scope) base :=
  rfl

theorem isReserved_eq (name : String) :
    supply.isReserved scope name = NameFrame.reservedIn (supply.frames scope) name :=
  rfl

/-! ## What the search passes over -/

/-- The names of a base, from an index on and up to some number, that are reserved without a gap. -/
def reservedRun (base : String) (steps index : Nat) : List String :=
  ((List.range steps).map fun step => numbered base (index + step)).takeWhile
    (supply.isReserved scope)

/--
The names of a base that are passed over, one after another from the next index on, because they are
reserved. No more names can be passed over than are reserved.
-/
def skippedNames (base : String) : List String :=
  supply.reservedRun scope base (supply.reservedCount scope) (supply.nextIndex scope base)

/-- The least index of a base, from the next index on, whose name is not reserved. -/
def freeIndex (base : String) : Nat :=
  supply.nextIndex scope base + (supply.skippedNames scope base).length

theorem reservedRun_succ (base : String) (steps index : Nat) :
    supply.reservedRun scope base (steps + 1) index =
      if supply.isReserved scope (numbered base index) then
        numbered base index :: supply.reservedRun scope base steps (index + 1)
      else [] := by
  have later : (fun step => numbered base (index + step)) ∘ Nat.succ =
      fun step => numbered base (index + 1 + step) := by
    funext step
    rw [Function.comp_apply, Nat.succ_eq_add_one, Nat.add_comm step, Nat.add_assoc]
  rw [reservedRun, List.range_succ_eq_map, List.map_cons, List.map_map, later, List.takeWhile_cons,
    Nat.add_zero]
  cases supply.isReserved scope (numbered base index) <;> rfl

/-- A name that is forgotten in some scope leaves all other names as they were. -/
theorem isReserved_modifyFrame_forget (changed : ScopeId) {forgotten name : String}
    (differ : name ≠ forgotten) :
    (supply.modifyFrame changed fun frame => frame.forget [forgotten]).isReserved scope name =
      supply.isReserved scope name := by
  have kept : ∀ frame : NameFrame,
      (frame.forget [forgotten]).reserved.contains name = frame.reserved.contains name := by
    intro frame
    rw [Bool.eq_iff_iff, NameFrame.contains_forget]
    simp [differ]
  simp only [isReserved, frames, modifyFrame, NestedScopes.payloads,
    NestedScopes.path_modifyPayload, List.any_filterMap, NestedScopes.payload?_modifyPayload]
  congr 1
  funext other
  by_cases same : changed = other
  · rw [if_pos same]
    cases supply.scopes.payload? other with
    | none => rfl
    | some frame => exact kept frame
  · rw [if_neg same]

/-- What is reserved from a later index on is not changed when a name is forgotten. -/
theorem reservedRun_modifyFrame_forget {base : String} (isBase : IsBase base) (steps : Nat)
    {index later : Nat} (behind : index < later) :
    (supply.modifyFrame scope fun frame => frame.forget [numbered base index]).reservedRun scope base
      steps later = supply.reservedRun scope base steps later := by
  induction steps generalizing later with
  | zero => rfl
  | succ steps ih =>
      have differ : numbered base later ≠ numbered base index := by
        intro same
        have sameIndex := ((numbered_inj isBase isBase).mp same).2
        omega
      rw [reservedRun_succ, reservedRun_succ, supply.isReserved_modifyFrame_forget scope scope differ,
        ih (Nat.lt_succ_of_lt behind)]

theorem modifyFrame_forget_nil :
    (supply.modifyFrame scope fun frame => frame.forget []) = supply :=
  congrArg NameSupply.mk (NestedScopes.modifyPayload_id _ _)

/--
The loop stops behind the reserved names that it finds without a gap, and it has forgotten exactly
these in its scope.
-/
theorem search_eq {base : String} (isBase : IsBase base) (steps index : Nat) :
    supply.search scope base steps index =
      (index + (supply.reservedRun scope base steps index).length,
        supply.modifyFrame scope fun frame =>
          frame.forget (supply.reservedRun scope base steps index)) := by
  induction steps generalizing supply index with
  | zero => exact congrArg (Prod.mk index) (supply.modifyFrame_forget_nil scope).symm
  | succ steps ih =>
      rw [search, reservedRun_succ]
      split
      · rw [ih, supply.reservedRun_modifyFrame_forget scope isBase steps (Nat.lt_succ_self index),
          List.length_cons, modifyFrame, modifyFrame, NestedScopes.modifyPayload_modifyPayload,
          Nat.add_assoc, Nat.add_comm 1]
        rfl
      · exact congrArg (Prod.mk index) (supply.modifyFrame_forget_nil scope).symm

/-- A search from the next index on stops at the free index of the base. -/
theorem search_nextIndex {base : String} (isBase : IsBase base) :
    supply.search scope base (supply.reservedCount scope) (supply.nextIndex scope base) =
      (supply.freeIndex scope base,
        supply.modifyFrame scope fun frame => frame.forget (supply.skippedNames scope base)) :=
  supply.search_eq scope isBase _ _

/-! ## The end of the search -/

/-- The names that are reserved ahead in a scope and around it, scope by scope. -/
def reservedNames : List String :=
  (supply.frames scope).flatMap fun frame => frame.reserved.toList

theorem length_reservedNames :
    (supply.reservedNames scope).length = supply.reservedCount scope := by
  rw [reservedNames, reservedCount]
  induction supply.frames scope with
  | nil => rfl
  | cons frame rest ih => simp [List.flatMap_cons, ih, Std.TreeSet.length_toList]

theorem mem_reservedNames_iff (name : String) :
    name ∈ supply.reservedNames scope ↔ supply.isReserved scope name = true := by
  simp [reservedNames, isReserved, Std.TreeSet.mem_toList, Std.TreeSet.contains_iff_mem]

/-- The names of a base that the search may look at. -/
def candidates (base : String) : List String :=
  (List.range (supply.reservedCount scope)).map fun step =>
    numbered base (supply.nextIndex scope base + step)

/-- The search passes over the candidates in front of the first one that is not reserved. -/
theorem skippedNames_eq (base : String) :
    supply.skippedNames scope base =
      (supply.candidates scope base).take
        ((supply.candidates scope base).findIdx fun name => !supply.isReserved scope name) := by
  rw [skippedNames, reservedRun, ← candidates, List.takeWhile_eq_take_findIdx_not]

theorem length_skippedNames (base : String) :
    (supply.skippedNames scope base).length =
      (supply.candidates scope base).findIdx fun name => !supply.isReserved scope name := by
  rw [skippedNames_eq, List.length_take]
  exact Nat.min_eq_left List.findIdx_le_length

theorem isReserved_of_lt_freeIndex {base : String} {index : Nat}
    (fromNext : supply.nextIndex scope base ≤ index)
    (below : index < supply.freeIndex scope base) :
    supply.isReserved scope (numbered base index) = true := by
  rw [freeIndex, length_skippedNames] at below
  have position : index - supply.nextIndex scope base <
      (supply.candidates scope base).findIdx fun name => !supply.isReserved scope name := by
    omega
  have passed := List.not_of_lt_findIdx position
  simp only [candidates, List.getElem_map, List.getElem_range,
    Bool.not_eq_false'] at passed
  rwa [Nat.add_sub_cancel' fromNext] at passed

theorem mem_skippedNames_iff {base : String} (isBase : IsBase base) {other : String}
    (isBase' : IsBase other) (index : Nat) :
    numbered other index ∈ supply.skippedNames scope base ↔
      other = base ∧ supply.nextIndex scope base ≤ index ∧ index < supply.freeIndex scope base := by
  have bound : (supply.candidates scope base).findIdx
      (fun name => !supply.isReserved scope name) ≤ supply.reservedCount scope := by
    have within : (supply.candidates scope base).findIdx
        (fun name => !supply.isReserved scope name) ≤ (supply.candidates scope base).length :=
      List.findIdx_le_length
    simpa [candidates] using within
  rw [skippedNames_eq, freeIndex, length_skippedNames, candidates, ← List.map_take,
    List.take_range, ← candidates, Nat.min_eq_left bound, List.mem_map]
  constructor
  · rintro ⟨step, member, same⟩
    obtain ⟨rfl, rfl⟩ := (numbered_inj isBase isBase').mp same
    rw [List.mem_range] at member
    exact ⟨rfl, by omega, by omega⟩
  · rintro ⟨rfl, fromNext, below⟩
    refine ⟨index - supply.nextIndex scope other, List.mem_range.mpr (by omega), ?_⟩
    rw [Nat.add_sub_cancel' fromNext]

/--
The search ends at a name that is not reserved. Otherwise one more name of the base would be
reserved than there are reserved names.
-/
theorem isReserved_freeIndex {base : String} (isBase : IsBase base) :
    supply.isReserved scope (numbered base (supply.freeIndex scope base)) = false := by
  by_contra reserved
  rw [Bool.not_eq_false] at reserved
  have allReserved : ∀ step < (supply.skippedNames scope base).length + 1,
      numbered base (supply.nextIndex scope base + step) ∈ supply.reservedNames scope := by
    intro step below
    rw [mem_reservedNames_iff]
    rcases Nat.lt_or_ge step (supply.skippedNames scope base).length with before | atEnd
    · apply supply.isReserved_of_lt_freeIndex scope (Nat.le_add_right _ _)
      rw [freeIndex]
      omega
    · have last : step = (supply.skippedNames scope base).length := by omega
      rw [last]
      exact reserved
  have count := NumberedName.le_length_of_mem isBase allReserved
  rw [length_reservedNames] at count
  -- so some candidate is left, and the search would have passed over it as well
  have left : (supply.candidates scope base).findIdx
      (fun name => !supply.isReserved scope name) < (supply.candidates scope base).length := by
    rw [← length_skippedNames, candidates, List.length_map, List.length_range]
    exact count
  have stops := List.findIdx_getElem (w := left)
  simp only [candidates, List.getElem_map, List.getElem_range] at stops
  rw [← candidates, ← length_skippedNames] at stops
  rw [freeIndex] at reserved
  rw [reserved] at stops
  simp at stops

end NameSupply

end JvmEmit
