import JvmEmit.Proofs.Slot.Runs

/-!
# The layout of slots

The variables visible from an open scope lie side by side: the first begins at slot zero, each
begins where the one before it ends, and the last ends at the next free slot of the scope. So no slot
is shared and none is skipped, whatever sibling scopes were filled and closed in between.

A nested scope copies the next free slot of its parent once, when it is entered. The copy stays right
as long as the nested scope is open because its parent declares nothing in that time. It does not
stay right for a closed scope, whose own variables still lie side by side.
-/

namespace JvmEmit

variable {τ : Type} [Slotted τ]

/-- The variables lie side by side, from the first slot up to the last. -/
def Tiles : List (Variable τ) → Nat → Nat → Prop
  | [], first, last => first = last
  | declared :: rest, first, last => declared.slot = first ∧ Tiles rest declared.endSlot last

namespace Tiles

variable {row rest : List (Variable τ)} {first middle last : Nat}

theorem append (front : Tiles row first middle) (back : Tiles rest middle last) :
    Tiles (row ++ rest) first last := by
  induction row generalizing first with
  | nil =>
      simp only [Tiles] at front
      rw [front]
      exact back
  | cons declared row ih => exact ⟨front.1, ih front.2⟩

theorem singleton (declared : Variable τ) : Tiles [declared] declared.slot declared.endSlot :=
  ⟨rfl, rfl⟩

theorem slot_lt_endSlot (declared : Variable τ) : declared.slot < declared.endSlot := by
  have width := Slotted.slotCount_eq_one_or_two declared.type
  rw [Variable.endSlot]
  omega

theorem bounds (tiles : Tiles row first last) :
    first ≤ last ∧ ∀ declared ∈ row, first ≤ declared.slot ∧ declared.endSlot ≤ last := by
  induction row generalizing first with
  | nil =>
      simp only [Tiles] at tiles
      simp [tiles]
  | cons declared row ih =>
      have rest := ih tiles.2
      have nonempty := slot_lt_endSlot declared
      have begins := tiles.1
      constructor
      · omega
      · intro other member
        rcases List.mem_cons.mp member with rfl | member
        · omega
        · have := rest.2 other member
          omega

theorem pairwise (tiles : Tiles row first last) :
    row.Pairwise fun earlier later => earlier.endSlot ≤ later.slot := by
  induction row generalizing first with
  | nil => exact .nil
  | cons declared row ih =>
      refine .cons ?_ (ih tiles.2)
      intro later member
      exact ((bounds tiles.2).2 later member).1

theorem covers (tiles : Tiles row first last) {slot : Nat} (fromFirst : first ≤ slot)
    (beforeLast : slot < last) :
    ∃ declared ∈ row, declared.slot ≤ slot ∧ slot < declared.endSlot := by
  induction row generalizing first with
  | nil =>
      simp only [Tiles] at tiles
      omega
  | cons declared row ih =>
      have begins := tiles.1
      rcases Nat.lt_or_ge slot declared.endSlot with within | behind
      · exact ⟨declared, List.mem_cons_self, by omega, within⟩
      · obtain ⟨other, member, found⟩ := ih tiles.2 behind
        exact ⟨other, List.mem_cons_of_mem _ member, found⟩

end Tiles

namespace SlotTable

/-- Where the variables of each scope lie. -/
structure LaidOut (table : SlotTable τ) : Prop where
  wellNested : table.scopes.WellNested
  own : ∀ scope, Tiles (table.declaredIn scope) (table.firstSlot scope) (table.nextSlot scope)
  outermost : ∀ {scope}, table.scopes.parent? scope = none → table.firstSlot scope = 0
  /-- An open scope begins where its parent ends, because its parent declares nothing. -/
  behindParent : ∀ {scope parent}, table.scopes.parent? scope = some parent →
    table.scopes.isClosed scope = false → table.firstSlot scope = table.nextSlot parent

namespace LaidOut

variable {table : SlotTable τ}

theorem initial (label : Option String) : (SlotTable.ofRoot label : SlotTable τ).LaidOut := by
  have frame : ∀ scope, (SlotTable.ofRoot label : SlotTable τ).frame scope = .startingAt 0 0 := by
    intro scope
    rcases scope with ⟨index⟩
    rcases index with _ | index
    · rfl
    · rfl
  constructor
  · exact .ofRoot label _
  · intro scope
    simp [declaredIn, firstSlot, nextSlot, frame, VariableFrame.startingAt, Tiles]
  · intro scope _
    simp [firstSlot, frame, VariableFrame.startingAt]
  · intro scope parent inside
    simp [SlotTable.ofRoot, NestedScopes.parent?] at inside

theorem enter {parent child : ScopeId} {label : Option String}
    {scopes : NestedScopes (VariableFrame τ)} (laidOut : table.LaidOut)
    (entered : table.scopes.enter parent label (table.innerFrame parent) = .ok child scopes) :
    LaidOut { table with scopes } := by
  have frame := frame_of_enter entered table.slotsNeeded
  have parentApart := NestedScopes.parent_ne_child_of_enter entered
  constructor
  · exact laidOut.wellNested.enter entered
  · intro scope
    simp only [declaredIn, firstSlot, nextSlot, frame]
    split
    · rfl
    · exact laidOut.own scope
  · intro scope outside
    change scopes.parent? scope = none at outside
    rw [NestedScopes.parent?_of_enter entered] at outside
    split at outside
    · simp at outside
    · rename_i other
      rw [firstSlot, frame, if_neg other]
      exact laidOut.outermost outside
  · intro scope outer inside scopeOpen
    change scopes.parent? scope = some outer at inside
    change scopes.isClosed scope = false at scopeOpen
    rw [NestedScopes.parent?_of_enter entered] at inside
    rw [NestedScopes.isClosed_of_enter entered] at scopeOpen
    split at inside
    · rename_i atChild
      cases inside
      rw [firstSlot, nextSlot, frame, frame, if_pos atChild, if_neg parentApart]
      rfl
    · rename_i other
      have known := NestedScopes.known_of_parent? inside
      have earlier := laidOut.wellNested.parent_earlier inside
      have unknown := NestedScopes.size_le_child_of_enter entered
      have outerOld : outer ≠ child := by
        rintro rfl
        omega
      rw [firstSlot, nextSlot, frame, frame, if_neg other, if_neg outerOld]
      exact laidOut.behindParent inside scopeOpen

theorem close {closing : ScopeId} (laidOut : table.LaidOut)
    (usable : table.scopes.requireUsable closing = .ok ()) :
    LaidOut { table with scopes := table.scopes.closedAt closing } := by
  have known := ((NestedScopes.requireUsable_eq_ok_iff _ _).mp usable).1
  have frame := frame_closedAt table closing table.slotsNeeded
  constructor
  · exact laidOut.wellNested.closedAt usable
  · intro scope
    simp only [declaredIn, firstSlot, nextSlot, frame]
    exact laidOut.own scope
  · intro scope outside
    rw [firstSlot, frame]
    exact laidOut.outermost (by simpa using outside)
  · intro scope parent inside scopeOpen
    change (table.scopes.closedAt closing).isClosed scope = false at scopeOpen
    rw [NestedScopes.isClosed_closedAt _ _ _ known, Bool.or_eq_false_iff] at scopeOpen
    rw [firstSlot, nextSlot, frame, frame]
    exact laidOut.behindParent (by simpa using inside) scopeOpen.2

/-- A declaration moves the next free slot of a scope that no open scope begins behind. -/
theorem declare {scope : ScopeId} {role : VariableRole} {name : Option String}
    (laidOut : table.LaidOut) (usable : table.scopes.requireUsable scope = .ok ()) (type : τ) :
    LaidOut (table.adding (table.nextVariable scope role type name)) := by
  have known := ((NestedScopes.requireUsable_eq_ok_iff _ _).mp usable).1
  have frame := frame_adding (table.nextVariable scope role type name) known
  have firstSlot : ∀ other, (table.adding (table.nextVariable scope role type name)).firstSlot
      other = table.firstSlot other := by
    intro other
    rw [SlotTable.firstSlot, frame]
    split
    · rfl
    · rfl
  constructor
  · exact wellNested_adding laidOut.wellNested _
  · intro other
    rw [firstSlot, declaredIn, nextSlot, frame]
    split
    · rename_i same
      rw [← same, VariableFrame.push, Array.toList_push]
      exact (laidOut.own scope).append (Tiles.singleton _)
    · exact laidOut.own other
  · intro other outside
    rw [firstSlot]
    exact laidOut.outermost (by simpa [adding] using outside)
  · intro other parent inside otherOpen
    have insideBefore : table.scopes.parent? other = some parent := by
      simpa [adding] using inside
    have openBefore : table.scopes.isClosed other = false := by
      simpa [adding] using otherOpen
    rw [firstSlot, nextSlot, frame, if_neg]
    · exact laidOut.behindParent insideBefore openBefore
    · rintro rfl
      rw [laidOut.wellNested.isClosed_of_parent?_usable insideBefore usable] at openBefore
      simp at openBefore

theorem step {after : SlotTable τ} (laidOut : table.LaidOut) (step : table.Step after) :
    after.LaidOut := by
  cases step with
  | idle => exact laidOut
  | enter entered => exact laidOut.enter entered
  | close usable => exact laidOut.close usable
  | declare accepted type unnamed =>
      exact laidOut.declare ((requireDeclarable_eq_ok_iff _ _ _ _).mp accepted).1 type

theorem ofCalls (label : Option String) (calls : List (SlotCall τ)) :
    (SlotTable.ofCalls label calls).LaidOut :=
  ofCalls_induction label (initial label) (fun laidOut step => laidOut.step step) calls

/-- The variables visible from an open scope lie side by side from slot zero on. -/
theorem visible_tiles (laidOut : table.LaidOut) {scope : ScopeId}
    (scopeOpen : table.scopes.isClosed scope = false) :
    Tiles (table.visible scope) 0 (table.nextSlot scope) := by
  induction scope using laidOut.wellNested.outward_induction with
  | top scope outside =>
      rw [visible_eq_of_outermost outside, ← laidOut.outermost outside]
      exact laidOut.own scope
  | inside scope parent inside ih =>
      have parentOpen := laidOut.wellNested.parent_open inside scopeOpen
      rw [visible_eq_append laidOut.wellNested inside]
      apply (ih parentOpen).append
      rw [← laidOut.behindParent inside scopeOpen]
      exact laidOut.own scope

end LaidOut

/--
After every run, the variables of each scope lie side by side in the slots of the scope, and the
variables visible from an open scope lie side by side from slot zero to its next free slot, so that
each slot up to there belongs to exactly one of them.
-/
theorem variables_fill_slots (label : Option String) (calls : List (SlotCall τ))
    (scope : ScopeId) :
    Tiles ((ofCalls label calls).declaredIn scope) ((ofCalls label calls).firstSlot scope)
        ((ofCalls label calls).nextSlot scope) ∧
      ((ofCalls label calls).scopes.requireOpen scope = .ok () →
        Tiles ((ofCalls label calls).visible scope) 0 ((ofCalls label calls).nextSlot scope) ∧
        ((ofCalls label calls).visible scope).Pairwise
          (fun earlier later => earlier.endSlot ≤ later.slot) ∧
        ∀ slot < (ofCalls label calls).nextSlot scope,
          ∃ declared ∈ (ofCalls label calls).visible scope,
            declared.slot ≤ slot ∧ slot < declared.endSlot) := by
  have laidOut := LaidOut.ofCalls label calls
  refine ⟨laidOut.own scope, ?_⟩
  intro opened
  have tiles := laidOut.visible_tiles ((NestedScopes.requireOpen_eq_ok_iff _ _).mp opened).2
  refine ⟨tiles, tiles.pairwise, ?_⟩
  intro slot below
  exact tiles.covers (Nat.zero_le slot) below

/-- A scope that is entered after its sibling was filled and closed. -/
def siblingCalls : List (SlotCall StackKind) :=
  [.declareReceiver .root .reference, .declareArgument .root .long (some "a"), .enter .root none,
    .declareLocal ⟨1⟩ .double (some "x"), .close ⟨1⟩, .declareLocal .root .int (some "y"),
    .enter .root none, .declareLocal ⟨2⟩ .int (some "x")]

/-- It shares slots with its sibling, and none with the scope around it. -/
theorem variables_fill_slots_after_sibling :
    (ofCalls none siblingCalls).scopes.requireOpen ⟨2⟩ = .ok () ∧
      Tiles ((ofCalls none siblingCalls).visible ⟨2⟩) 0 5 := by
  have opened : (ofCalls none siblingCalls).scopes.requireOpen ⟨2⟩ = .ok () := by decide
  exact ⟨opened, ((variables_fill_slots none siblingCalls ⟨2⟩).2 opened).1⟩

end SlotTable

end JvmEmit
