import JvmEmit.Scope.Lemmas
import Mathlib.Data.List.Basic

/-!
# The invariant of nested scopes

Scopes that were opened one inside another form a tree that grows at its leaves and closes from its
leaves. `WellNested` states what every sequence of operations keeps: the path of a scope goes on
with the path of the scope around it, a scope is listed exactly inside the scope around it, and
everything around an open scope is open.

The last law is what freezes the scopes around an open scope. An operation that asks for a usable
scope cannot touch a scope with an open scope inside it at any depth, although it looks for open
scopes directly inside only (`not_mem_enclosing_of_usable`).
-/

namespace JvmEmit

namespace NestedScopes

variable {α : Type}

/-! ## Unknown scopes -/

theorem get?_eq_none_of_unknown {nested : NestedScopes α} {scope : ScopeId}
    (unknown : nested.size ≤ scope.index) : nested.get? scope = none := by
  simpa [get?, size] using unknown

theorem enclosing_eq_nil_of_unknown {nested : NestedScopes α} {scope : ScopeId}
    (unknown : nested.size ≤ scope.index) : nested.enclosing scope = [] := by
  simp [enclosing, get?_eq_none_of_unknown unknown]

theorem inner_eq_nil_of_unknown {nested : NestedScopes α} {scope : ScopeId}
    (unknown : nested.size ≤ scope.index) : nested.inner scope = [] := by
  simp [inner, get?_eq_none_of_unknown unknown]

theorem isClosed_eq_false_of_unknown {nested : NestedScopes α} {scope : ScopeId}
    (unknown : nested.size ≤ scope.index) : nested.isClosed scope = false := by
  simp [isClosed, get?_eq_none_of_unknown unknown]

theorem known_of_isClosed {nested : NestedScopes α} {scope : ScopeId}
    (closed : nested.isClosed scope = true) : scope.index < nested.size := by
  by_contra unknown
  rw [isClosed_eq_false_of_unknown (Nat.le_of_not_lt unknown)] at closed
  cases closed

theorem known_of_parent? {nested : NestedScopes α} {scope parent : ScopeId}
    (inside : nested.parent? scope = some parent) : scope.index < nested.size := by
  rcases Nat.lt_or_ge scope.index nested.size with known | unknown
  · exact known
  · rw [parent?, enclosing_eq_nil_of_unknown unknown] at inside
    simp at inside

theorem enclosing_eq_nil_iff (nested : NestedScopes α) (scope : ScopeId) :
    nested.enclosing scope = [] ↔ nested.parent? scope = none := by
  simp [parent?]

theorem path_eq_singleton {nested : NestedScopes α} {scope : ScopeId}
    (outside : nested.parent? scope = none) : nested.path scope = [scope] := by
  rw [path, (enclosing_eq_nil_iff nested scope).mpr outside]

theorem requireOpen_of_requireUsable {nested : NestedScopes α} {scope : ScopeId}
    (usable : nested.requireUsable scope = .ok ()) : nested.requireOpen scope = .ok () := by
  have isUsable := (requireUsable_eq_ok_iff nested scope).mp usable
  exact (requireOpen_eq_ok_iff nested scope).mpr ⟨isUsable.1, isUsable.2.1⟩

/-! ## After entering a scope -/

section Enter

variable {nested after : NestedScopes α} {parent child : ScopeId} {label : Option String}
  {payload : α}

theorem enter_cases (nested : NestedScopes α) (parent : ScopeId) (label : Option String)
    (payload : α) :
    (nested.requireOpen parent = .ok () ∧
      ∃ after, nested.enter parent label payload = .ok ⟨nested.size⟩ after) ∨
    (∃ cause, nested.requireOpen parent = .error cause ∧
      nested.enter parent label payload = .error cause nested) := by
  cases check : nested.requireOpen parent with
  | ok => exact .inl ⟨rfl, by simp [enter, check]⟩
  | error cause => exact .inr ⟨cause, rfl, enter_of_refused label payload check⟩

theorem requireOpen_of_enter (entered : nested.enter parent label payload = .ok child after) :
    nested.requireOpen parent = .ok () := by
  cases check : nested.requireOpen parent with
  | ok => rfl
  | error cause => simp [enter, check] at entered

theorem child_eq_of_enter (entered : nested.enter parent label payload = .ok child after) :
    child = ⟨nested.size⟩ :=
  (get?_enter entered).1

theorem size_le_child_of_enter (entered : nested.enter parent label payload = .ok child after) :
    nested.size ≤ child.index :=
  Nat.le_of_eq (congrArg ScopeId.index (child_eq_of_enter entered)).symm

theorem parent_ne_child_of_enter (entered : nested.enter parent label payload = .ok child after) :
    parent ≠ child := by
  have known := ((requireOpen_eq_ok_iff nested parent).mp (requireOpen_of_enter entered)).1
  have unknown := size_le_child_of_enter entered
  rintro rfl
  omega

/-- Entering adds one scope, lists it in the scope around it and changes nothing else. -/
theorem get?_after_enter (entered : nested.enter parent label payload = .ok child after)
    (scope : ScopeId) :
    after.get? scope =
      if scope = child then
        some { label, enclosing := nested.path parent, inner := [], closed := false, payload }
      else if scope = parent then
        (nested.get? scope).map fun outer => { outer with inner := outer.inner ++ [child] }
      else nested.get? scope := by
  split
  · subst scope
    exact (get?_enter entered).2
  · rename_i other
    have opened := requireOpen_of_enter entered
    have childEq := child_eq_of_enter entered
    simp only [enter, opened, EStateM.Result.ok.injEq] at entered
    rw [← entered.2, get?_modify, childEq]
    rw [childEq] at other
    have notLast : scope.index ≠ nested.nodes.size := by
      intro same
      apply other
      rw [← ScopeId.mk.injEq] at same
      exact same
    have kept : (⟨nested.nodes.push {
        label, enclosing := nested.path parent, inner := [], closed := false, payload }⟩ :
        NestedScopes α).get? scope = nested.get? scope := by
      simp [get?, Array.getElem?_push, notLast]
    rw [kept]
    simp only [eq_comm]

theorem size_of_enter (entered : nested.enter parent label payload = .ok child after) :
    after.size = nested.size + 1 := by
  have opened := requireOpen_of_enter entered
  simp only [enter, opened, EStateM.Result.ok.injEq] at entered
  rw [← entered.2, size_modify]
  simp [size]

theorem enclosing_of_enter (entered : nested.enter parent label payload = .ok child after)
    (scope : ScopeId) :
    after.enclosing scope =
      if scope = child then nested.path parent else nested.enclosing scope := by
  rw [enclosing, get?_after_enter entered]
  split
  · rfl
  · split
    · simp [enclosing, Function.comp_def]
    · rfl

theorem parent?_of_enter (entered : nested.enter parent label payload = .ok child after)
    (scope : ScopeId) :
    after.parent? scope = if scope = child then some parent else nested.parent? scope := by
  rw [parent?, enclosing_of_enter entered]
  split
  · rfl
  · rfl

theorem path_of_enter (entered : nested.enter parent label payload = .ok child after)
    (scope : ScopeId) :
    after.path scope =
      if scope = child then scope :: nested.path parent else nested.path scope := by
  rw [path, enclosing_of_enter entered]
  split
  · rfl
  · rfl

theorem inner_of_enter (entered : nested.enter parent label payload = .ok child after)
    (scope : ScopeId) :
    after.inner scope =
      if scope = parent then nested.inner scope ++ [child] else nested.inner scope := by
  have apart := parent_ne_child_of_enter entered
  have known := ((requireOpen_eq_ok_iff nested parent).mp (requireOpen_of_enter entered)).1
  rw [inner, get?_after_enter entered]
  by_cases atChild : scope = child
  · rw [if_pos atChild, if_neg (by rw [atChild]; exact apart.symm)]
    rw [atChild, inner_eq_nil_of_unknown (size_le_child_of_enter entered)]
    rfl
  · rw [if_neg atChild]
    by_cases atParent : scope = parent
    · rw [if_pos atParent, if_pos atParent]
      obtain ⟨node, found⟩ := Option.isSome_iff_exists.mp
        ((isSome_get?_iff nested scope).mpr (by rw [atParent]; exact known))
      simp [inner, found]
    · rw [if_neg atParent, if_neg atParent]
      rfl

theorem isClosed_of_enter (entered : nested.enter parent label payload = .ok child after)
    (scope : ScopeId) : after.isClosed scope = nested.isClosed scope := by
  rw [isClosed, get?_after_enter entered]
  split
  · rename_i atChild
    rw [atChild, isClosed_eq_false_of_unknown (size_le_child_of_enter entered)]
    rfl
  · split
    · cases found : nested.get? scope <;> simp [isClosed, found]
    · rfl

theorem label?_of_enter (entered : nested.enter parent label payload = .ok child after)
    (scope : ScopeId) :
    after.label? scope = if scope = child then label else nested.label? scope := by
  rw [label?, get?_after_enter entered]
  split
  · rfl
  · split
    · cases found : nested.get? scope <;> simp [label?, found]
    · rfl

theorem payload?_of_enter (entered : nested.enter parent label payload = .ok child after)
    (scope : ScopeId) :
    after.payload? scope = if scope = child then some payload else nested.payload? scope := by
  rw [payload?, get?_after_enter entered]
  split
  · rfl
  · split
    · simp [payload?, Function.comp_def]
    · rfl

theorem requireOpen_after_enter_iff
    (entered : nested.enter parent label payload = .ok child after) {scope : ScopeId}
    (other : scope ≠ child) :
    after.requireOpen scope = .ok () ↔ nested.requireOpen scope = .ok () := by
  have notLast : scope.index ≠ nested.size := by
    intro same
    apply other
    rw [child_eq_of_enter entered, ← same]
  rw [requireOpen_eq_ok_iff, requireOpen_eq_ok_iff, size_of_enter entered,
    isClosed_of_enter entered]
  constructor
  · rintro ⟨known, opened⟩
    exact ⟨by omega, opened⟩
  · rintro ⟨known, opened⟩
    exact ⟨by omega, opened⟩

end Enter

/-! ## After closing a scope -/

/-- The nesting with one scope marked as closed. -/
def closedAt (nested : NestedScopes α) (scope : ScopeId) : NestedScopes α :=
  nested.modify scope fun node => { node with closed := true }

theorem close_cases (nested : NestedScopes α) (scope : ScopeId) :
    (nested.requireUsable scope = .ok () ∧
      nested.close scope = .ok true (nested.closedAt scope)) ∨
    (nested.isClosed scope = true ∧ nested.close scope = .ok false nested) ∨
    (∃ cause, nested.requireUsable scope = .error cause ∧
      nested.close scope = .error cause nested) := by
  cases closed : nested.isClosed scope with
  | true => exact .inr (.inl ⟨rfl, close_of_isClosed closed⟩)
  | false =>
      cases check : nested.requireUsable scope with
      | ok => exact .inl ⟨rfl, close_of_requireUsable check⟩
      | error cause => exact .inr (.inr ⟨cause, rfl, by simp [close, closed, check]⟩)

section Close

variable (nested : NestedScopes α) (scope other : ScopeId)

@[simp]
theorem size_closedAt : (nested.closedAt scope).size = nested.size := by
  simp [closedAt]

theorem get?_closedAt :
    (nested.closedAt scope).get? other =
      if scope = other then (nested.get? other).map fun node => { node with closed := true }
      else nested.get? other := by
  rw [closedAt, get?_modify]

@[simp]
theorem enclosing_closedAt : (nested.closedAt scope).enclosing other = nested.enclosing other := by
  rw [enclosing, get?_closedAt]
  split
  · simp [enclosing, Function.comp_def]
  · rfl

@[simp]
theorem parent?_closedAt : (nested.closedAt scope).parent? other = nested.parent? other := by
  simp [parent?]

@[simp]
theorem path_closedAt : (nested.closedAt scope).path other = nested.path other := by
  simp [path]

@[simp]
theorem inner_closedAt : (nested.closedAt scope).inner other = nested.inner other := by
  rw [inner, get?_closedAt]
  split
  · simp [inner, Function.comp_def]
  · rfl

@[simp]
theorem label?_closedAt : (nested.closedAt scope).label? other = nested.label? other := by
  rw [label?, get?_closedAt]
  split
  · cases found : nested.get? other <;> simp [label?, found]
  · rfl

@[simp]
theorem payload?_closedAt : (nested.closedAt scope).payload? other = nested.payload? other := by
  rw [payload?, get?_closedAt]
  split
  · simp [payload?, Function.comp_def]
  · rfl

theorem isClosed_closedAt (known : scope.index < nested.size) :
    (nested.closedAt scope).isClosed other = (decide (scope = other) || nested.isClosed other) := by
  rw [isClosed, get?_closedAt]
  by_cases same : scope = other
  · obtain ⟨node, found⟩ := Option.isSome_iff_exists.mp ((isSome_get?_iff nested scope).mpr known)
    rw [if_pos same, ← same, found]
    simp
  · rw [if_neg same]
    simp [same, isClosed]

theorem requireOpen_closedAt_iff (known : scope.index < nested.size) :
    (nested.closedAt scope).requireOpen other = .ok () ↔
      scope ≠ other ∧ nested.requireOpen other = .ok () := by
  rw [requireOpen_eq_ok_iff, requireOpen_eq_ok_iff, isClosed_closedAt nested scope other known,
    size_closedAt, Bool.or_eq_false_iff, decide_eq_false_iff_not]
  constructor
  · rintro ⟨otherKnown, apart, opened⟩
    exact ⟨apart, otherKnown, opened⟩
  · rintro ⟨apart, otherKnown, opened⟩
    exact ⟨otherKnown, apart, opened⟩

end Close

/-! ## After a change of payload -/

section Payload

variable (nested : NestedScopes α) (scope other : ScopeId) (change : α → α)

@[simp]
theorem enclosing_modifyPayload :
    (nested.modifyPayload scope change).enclosing other = nested.enclosing other := by
  have paths := path_modifyPayload nested scope other change
  simpa [path] using paths

@[simp]
theorem parent?_modifyPayload :
    (nested.modifyPayload scope change).parent? other = nested.parent? other := by
  simp [parent?]

@[simp]
theorem inner_modifyPayload :
    (nested.modifyPayload scope change).inner other = nested.inner other := by
  rw [inner, modifyPayload, get?_modify]
  split
  · simp [inner, Function.comp_def]
  · rfl

@[simp]
theorem label?_modifyPayload :
    (nested.modifyPayload scope change).label? other = nested.label? other := by
  rw [label?, modifyPayload, get?_modify]
  split
  · cases found : nested.get? other <;> simp [label?, found]
  · rfl

/-- The written name of a scope does not depend on the payloads. -/
theorem pathName_modifyPayload :
    (nested.modifyPayload scope change).pathName other = nested.pathName other := by
  have ownName : (nested.modifyPayload scope change).ownName = nested.ownName := by
    funext scope
    simp [NestedScopes.ownName, position?]
  rw [pathName, pathName, path_modifyPayload, ownName]

@[simp]
theorem isClosed_modifyPayload :
    (nested.modifyPayload scope change).isClosed other = nested.isClosed other := by
  rw [isClosed, modifyPayload, get?_modify]
  split
  · cases found : nested.get? other <;> simp [isClosed, found]
  · rfl

@[simp]
theorem openInner_modifyPayload :
    (nested.modifyPayload scope change).openInner other = nested.openInner other := by
  simp [openInner]

@[simp]
theorem requireOpen_modifyPayload_iff :
    (nested.modifyPayload scope change).requireOpen other = .ok () ↔
      nested.requireOpen other = .ok () := by
  rw [requireOpen_eq_ok_iff, requireOpen_eq_ok_iff, size_modifyPayload, isClosed_modifyPayload]

@[simp]
theorem requireUsable_modifyPayload_iff :
    (nested.modifyPayload scope change).requireUsable other = .ok () ↔
      nested.requireUsable other = .ok () := by
  rw [requireUsable_eq_ok_iff, requireUsable_eq_ok_iff, size_modifyPayload,
    isClosed_modifyPayload, openInner_modifyPayload]

end Payload

/-! ## The invariant -/

/-- The known scopes whose parent is a given scope, in the order of opening. -/
def openedInside (nested : NestedScopes α) (parent : ScopeId) : List ScopeId :=
  ((List.range nested.size).map ScopeId.mk).filter fun scope => nested.parent? scope = some parent

theorem openedInside_of_enter {nested after : NestedScopes α} {parent child : ScopeId}
    {label : Option String} {payload : α}
    (entered : nested.enter parent label payload = .ok child after) (outer : ScopeId) :
    after.openedInside outer =
      if outer = parent then nested.openedInside outer ++ [child]
      else nested.openedInside outer := by
  have inside := parent?_of_enter entered
  have childEq := child_eq_of_enter entered
  have older : ((List.range nested.size).map ScopeId.mk).filter
      (fun scope => after.parent? scope = some outer) = nested.openedInside outer := by
    rw [openedInside]
    apply List.filter_congr
    intro scope member
    rcases List.mem_map.mp member with ⟨index, known, rfl⟩
    rw [inside, if_neg]
    rintro rfl
    exact absurd (size_le_child_of_enter entered) (by simpa using known)
  rw [openedInside, size_of_enter entered, List.range_succ, List.map_append, List.filter_append,
    older]
  by_cases atParent : outer = parent
  · simp [atParent, ← childEq, inside]
  · simp [atParent, ← childEq, inside, Ne.symm atParent]

/-- The scopes form a tree that was grown and closed at its leaves. -/
structure WellNested (nested : NestedScopes α) : Prop where
  /-- A scope is opened after the scope around it. -/
  parent_earlier : ∀ {scope parent : ScopeId}, nested.parent? scope = some parent →
    parent.index < scope.index
  /-- The path of a scope goes on with the path of the scope around it. -/
  enclosing_eq_path : ∀ {scope parent : ScopeId}, nested.parent? scope = some parent →
    nested.enclosing scope = nested.path parent
  /-- A scope lists exactly the scopes it is the parent of, in the order of opening. -/
  inner_eq_openedInside : ∀ parent : ScopeId, nested.inner parent = nested.openedInside parent
  /-- The scope around an open scope is open. -/
  parent_open : ∀ {scope parent : ScopeId}, nested.parent? scope = some parent →
    nested.isClosed scope = false → nested.isClosed parent = false
  /-- Only the outermost scope has no scope around it. -/
  outermost : ∀ {scope : ScopeId}, scope.index < nested.size → nested.parent? scope = none →
    scope = .root

@[simp]
theorem size_ofRoot (label : Option String) (payload : α) :
    (ofRoot label payload).size = 1 :=
  rfl

@[simp]
theorem enclosing_ofRoot (label : Option String) (payload : α) (scope : ScopeId) :
    (ofRoot label payload).enclosing scope = [] := by
  rcases scope with ⟨index⟩
  rcases index with _ | index
  · rfl
  · exact enclosing_eq_nil_of_unknown (by simp)

@[simp]
theorem inner_ofRoot (label : Option String) (payload : α) (scope : ScopeId) :
    (ofRoot label payload).inner scope = [] := by
  rcases scope with ⟨index⟩
  rcases index with _ | index
  · rfl
  · exact inner_eq_nil_of_unknown (by simp)

namespace WellNested

theorem ofRoot (label : Option String) (payload : α) :
    (NestedScopes.ofRoot label payload).WellNested := by
  constructor
  · intro scope parent inside
    simp [parent?] at inside
  · intro scope parent inside
    simp [parent?] at inside
  · intro parent
    simp [openedInside, parent?]
  · intro scope parent inside
    simp [parent?] at inside
  · intro scope known _
    rcases scope with ⟨index⟩
    simp only [size_ofRoot, Nat.lt_one_iff] at known
    rw [known]
    rfl

theorem enter {nested after : NestedScopes α} {parent child : ScopeId} {label : Option String}
    {payload : α} (wellNested : nested.WellNested)
    (entered : nested.enter parent label payload = .ok child after) : after.WellNested := by
  have opened := (requireOpen_eq_ok_iff nested parent).mp (requireOpen_of_enter entered)
  have unknown := size_le_child_of_enter entered
  have inside := parent?_of_enter entered
  constructor
  · intro scope outer outside
    rw [inside] at outside
    split at outside
    · cases outside
      subst scope
      omega
    · exact wellNested.parent_earlier outside
  · intro scope outer outside
    rw [inside] at outside
    rw [enclosing_of_enter entered, path_of_enter entered]
    split at outside
    · cases outside
      subst scope
      rw [if_pos rfl, if_neg (parent_ne_child_of_enter entered)]
    · rename_i other
      have earlier := wellNested.parent_earlier outside
      have known := known_of_parent? outside
      rw [if_neg other, if_neg (by rintro rfl; omega)]
      exact wellNested.enclosing_eq_path outside
  · intro outer
    rw [inner_of_enter entered, openedInside_of_enter entered, wellNested.inner_eq_openedInside]
  · intro scope outer outside scopeOpen
    rw [inside] at outside
    rw [isClosed_of_enter entered] at scopeOpen ⊢
    split at outside
    · cases outside
      exact opened.2
    · exact wellNested.parent_open outside scopeOpen
  · intro scope known outside
    rw [inside] at outside
    split at outside
    · simp at outside
    · rename_i other
      have childEq := child_eq_of_enter entered
      rw [size_of_enter entered] at known
      refine wellNested.outermost ?_ outside
      rcases Nat.lt_or_ge scope.index nested.size with older | newer
      · exact older
      · exact absurd (by rw [childEq, ScopeId.mk.injEq]; omega) other

/-- A scope lists those that it is the parent of. -/
theorem mem_inner_iff {nested : NestedScopes α} (wellNested : nested.WellNested)
    {scope parent : ScopeId} : scope ∈ nested.inner parent ↔ nested.parent? scope = some parent := by
  rw [wellNested.inner_eq_openedInside, openedInside, List.mem_filter, decide_eq_true_iff]
  constructor
  · exact And.right
  · intro inside
    exact ⟨List.mem_map.mpr ⟨scope.index, by simpa using known_of_parent? inside, rfl⟩, inside⟩

/-- The open scopes that a scope lists are those that it is the parent of. -/
theorem mem_openInner_iff {nested : NestedScopes α} (wellNested : nested.WellNested)
    {scope inner : ScopeId} :
    inner ∈ nested.openInner scope ↔
      nested.parent? inner = some scope ∧ nested.isClosed inner = false := by
  rw [openInner, List.mem_filter, Bool.not_eq_true', wellNested.mem_inner_iff]

theorem isClosed_of_parent?_usable {nested : NestedScopes α} (wellNested : nested.WellNested)
    {scope parent : ScopeId} (inside : nested.parent? scope = some parent)
    (usable : nested.requireUsable parent = .ok ()) : nested.isClosed scope = true := by
  have noneOpen := ((requireUsable_eq_ok_iff nested parent).mp usable).2.2
  by_contra isOpen
  rw [Bool.not_eq_true] at isOpen
  have listed := wellNested.mem_openInner_iff.mpr ⟨inside, isOpen⟩
  rw [noneOpen] at listed
  cases listed

/-- An open scope can be used if all scopes directly inside it are closed, and only then. -/
theorem requireUsable_iff_inner_closed {nested : NestedScopes α} (wellNested : nested.WellNested)
    {scope : ScopeId} (isOpen : nested.requireOpen scope = .ok ()) :
    nested.requireUsable scope = .ok () ↔
      ∀ inner, nested.parent? inner = some scope → nested.isClosed inner = true := by
  constructor
  · intro usable inner inside
    exact wellNested.isClosed_of_parent?_usable inside usable
  · intro innerClosed
    rw [requireOpen_eq_ok_iff] at isOpen
    refine (requireUsable_eq_ok_iff nested scope).mpr ⟨isOpen.1, isOpen.2, ?_⟩
    apply List.eq_nil_iff_forall_not_mem.mpr
    intro inner member
    rcases wellNested.mem_openInner_iff.mp member with ⟨inside, innerOpen⟩
    rw [innerClosed inner inside] at innerOpen
    cases innerOpen

theorem closedAt {nested : NestedScopes α} {closing : ScopeId} (wellNested : nested.WellNested)
    (usable : nested.requireUsable closing = .ok ()) : (nested.closedAt closing).WellNested := by
  have known := ((requireUsable_eq_ok_iff nested closing).mp usable).1
  constructor
  · intro scope parent inside
    exact wellNested.parent_earlier (by simpa using inside)
  · intro scope parent inside
    simpa using wellNested.enclosing_eq_path (by simpa using inside)
  · intro parent
    simpa [openedInside] using wellNested.inner_eq_openedInside parent
  · intro scope parent inside scopeOpen
    rw [parent?_closedAt] at inside
    rw [isClosed_closedAt nested closing _ known, Bool.or_eq_false_iff] at scopeOpen ⊢
    refine ⟨?_, wellNested.parent_open inside scopeOpen.2⟩
    -- the parent of an open scope is not the scope that closes, which has none inside it
    apply decide_eq_false
    rintro rfl
    rw [wellNested.isClosed_of_parent?_usable inside usable] at scopeOpen
    simp at scopeOpen
  · intro scope scopeKnown inside
    exact wellNested.outermost (by simpa using scopeKnown) (by simpa using inside)

theorem modifyPayload {nested : NestedScopes α} (wellNested : nested.WellNested) (scope : ScopeId)
    (change : α → α) : (nested.modifyPayload scope change).WellNested := by
  constructor
  · intro inner parent inside
    exact wellNested.parent_earlier (by simpa using inside)
  · intro inner parent inside
    simpa using wellNested.enclosing_eq_path (by simpa using inside)
  · intro parent
    simpa [openedInside] using wellNested.inner_eq_openedInside parent
  · intro inner parent inside innerOpen
    simpa using wellNested.parent_open (by simpa using inside) (by simpa using innerOpen)
  · intro inner known inside
    exact wellNested.outermost (by simpa using known) (by simpa using inside)

/-! ## Along the path of a scope -/

/-- What holds of scopes without a parent and goes over from parent to scope holds of all scopes. -/
theorem outward_induction {nested : NestedScopes α} (wellNested : nested.WellNested)
    {motive : ScopeId → Prop} (top : ∀ scope, nested.parent? scope = none → motive scope)
    (inside : ∀ scope parent, nested.parent? scope = some parent → motive parent → motive scope)
    (scope : ScopeId) : motive scope := by
  generalize size : scope.index = index
  induction index using Nat.strongRecOn generalizing scope with
  | ind index ih =>
      cases outside : nested.parent? scope with
      | none => exact top scope outside
      | some parent =>
          have earlier := wellNested.parent_earlier outside
          exact inside scope parent outside (ih parent.index (by omega) parent rfl)

theorem path_eq_cons {nested : NestedScopes α} (wellNested : nested.WellNested)
    {scope parent : ScopeId} (inside : nested.parent? scope = some parent) :
    nested.path scope = scope :: nested.path parent := by
  rw [path, wellNested.enclosing_eq_path inside]

theorem earlier_of_mem_enclosing {nested : NestedScopes α} (wellNested : nested.WellNested)
    {scope outer : ScopeId} (member : outer ∈ nested.enclosing scope) :
    outer.index < scope.index := by
  induction scope using wellNested.outward_induction with
  | top scope outside =>
      rw [(enclosing_eq_nil_iff nested scope).mpr outside] at member
      simp at member
  | inside scope parent outside ih =>
      have earlier := wellNested.parent_earlier outside
      rw [wellNested.enclosing_eq_path outside, path, List.mem_cons] at member
      rcases member with rfl | member
      · exact earlier
      · have := ih member
        omega

/-- Around a scope on the path of another one lie scopes of that path only. -/
theorem path_subset {nested : NestedScopes α} (wellNested : nested.WellNested)
    {scope outer : ScopeId} (member : outer ∈ nested.path scope) :
    nested.path outer ⊆ nested.path scope := by
  induction scope using wellNested.outward_induction with
  | top scope outside =>
      simp only [path_eq_singleton outside, List.mem_singleton] at member
      rw [member]
      exact List.Subset.refl _
  | inside scope parent outside ih =>
      rw [wellNested.path_eq_cons outside] at member ⊢
      rcases List.mem_cons.mp member with rfl | further
      · rw [wellNested.path_eq_cons outside]
        exact List.Subset.refl _
      · exact List.subset_cons_of_subset _ (ih further)

theorem not_mem_enclosing_self {nested : NestedScopes α} (wellNested : nested.WellNested)
    (scope : ScopeId) : scope ∉ nested.enclosing scope :=
  fun member => absurd (wellNested.earlier_of_mem_enclosing member) (Nat.lt_irrefl _)

theorem path_root {nested : NestedScopes α} (wellNested : nested.WellNested) :
    nested.path .root = [.root] := by
  apply path_eq_singleton
  cases outside : nested.parent? .root with
  | none => rfl
  | some parent => exact absurd (wellNested.parent_earlier outside) (Nat.not_lt_zero _)

theorem root_mem_path {nested : NestedScopes α} (wellNested : nested.WellNested)
    {scope : ScopeId} (known : scope.index < nested.size) : .root ∈ nested.path scope := by
  induction scope using wellNested.outward_induction with
  | top scope outside =>
      rw [wellNested.outermost known outside]
      exact List.mem_cons_self
  | inside scope parent outside ih =>
      have earlier := wellNested.parent_earlier outside
      rw [wellNested.path_eq_cons outside]
      exact List.mem_cons_of_mem _ (ih (Nat.lt_trans earlier known))

theorem open_of_mem_path {nested : NestedScopes α} (wellNested : nested.WellNested)
    {scope outer : ScopeId} (scopeOpen : nested.isClosed scope = false)
    (member : outer ∈ nested.path scope) : nested.isClosed outer = false := by
  induction scope using wellNested.outward_induction with
  | top scope outside =>
      rw [path_eq_singleton outside, List.mem_singleton] at member
      rwa [member]
  | inside scope parent outside ih =>
      rw [wellNested.path_eq_cons outside, List.mem_cons] at member
      rcases member with rfl | member
      · exact scopeOpen
      · exact ih (wellNested.parent_open outside scopeOpen) member

/-- No open scope lies inside a usable one, at any depth. -/
theorem not_mem_enclosing_of_usable {nested : NestedScopes α} (wellNested : nested.WellNested)
    {scope usable : ScopeId} (isUsable : nested.requireUsable usable = .ok ())
    (scopeOpen : nested.isClosed scope = false) : usable ∉ nested.enclosing scope := by
  intro member
  induction scope using wellNested.outward_induction with
  | top scope outside =>
      rw [(enclosing_eq_nil_iff nested scope).mpr outside] at member
      simp at member
  | inside scope parent outside ih =>
      rw [wellNested.enclosing_eq_path outside, path, List.mem_cons] at member
      rcases member with rfl | member
      · rw [wellNested.isClosed_of_parent?_usable outside isUsable] at scopeOpen
        simp at scopeOpen
      · exact ih (wellNested.parent_open outside scopeOpen) member

theorem not_mem_path_of_usable {nested : NestedScopes α} (wellNested : nested.WellNested)
    {scope usable : ScopeId} (isUsable : nested.requireUsable usable = .ok ())
    (scopeOpen : nested.isClosed scope = false) (other : scope ≠ usable) :
    usable ∉ nested.path scope := by
  intro onPath
  rcases List.mem_cons.mp onPath with same | around
  · exact other same.symm
  · exact wellNested.not_mem_enclosing_of_usable isUsable scopeOpen around

end WellNested

/-! ## The payloads along a path -/

/-- The payloads of the scopes around a scope, from the closest to the outermost. -/
def outerPayloads (nested : NestedScopes α) (scope : ScopeId) : List α :=
  (nested.enclosing scope).filterMap nested.payload?

theorem payload?_isSome_iff (nested : NestedScopes α) (scope : ScopeId) :
    (nested.payload? scope).isSome ↔ scope.index < nested.size := by
  rw [← isSome_get?_iff, payload?, Option.isSome_map]

theorem exists_payload? {nested : NestedScopes α} {scope : ScopeId}
    (known : scope.index < nested.size) : ∃ payload, nested.payload? scope = some payload :=
  Option.isSome_iff_exists.mp ((payload?_isSome_iff nested scope).mpr known)

theorem payloads_eq (nested : NestedScopes α) (scope : ScopeId) :
    nested.payloads scope = (nested.payload? scope).toList ++ nested.outerPayloads scope := by
  rw [payloads, path, List.filterMap_cons, outerPayloads]
  cases nested.payload? scope <;> rfl

theorem payloads_of_unknown {nested : NestedScopes α} {scope : ScopeId}
    (unknown : nested.size ≤ scope.index) : nested.payloads scope = [] := by
  simp [payloads, path, payload?, get?_eq_none_of_unknown unknown,
    enclosing_eq_nil_of_unknown unknown]

theorem WellNested.outerPayloads_eq {nested : NestedScopes α} (wellNested : nested.WellNested)
    {scope parent : ScopeId} (inside : nested.parent? scope = some parent) :
    nested.outerPayloads scope = nested.payloads parent := by
  rw [outerPayloads, wellNested.enclosing_eq_path inside, payloads]

theorem payloads_closedAt (nested : NestedScopes α) (scope other : ScopeId) :
    (nested.closedAt scope).payloads other = nested.payloads other := by
  rw [payloads, payloads, path_closedAt]
  exact List.filterMap_congr fun outer _ => payload?_closedAt nested scope outer

theorem payloads_modifyPayload_of_not_mem {nested : NestedScopes α} {scope other : ScopeId}
    (change : α → α) (apart : scope ∉ nested.path other) :
    (nested.modifyPayload scope change).payloads other = nested.payloads other := by
  rw [payloads, payloads, path_modifyPayload]
  apply List.filterMap_congr
  intro outer member
  rw [payload?_modifyPayload, if_neg]
  rintro rfl
  exact apart member

namespace WellNested

/-- A change to a scope's own payload leaves those of the scopes around it. -/
theorem payloads_modifyPayload_self {nested : NestedScopes α} (wellNested : nested.WellNested)
    {scope : ScopeId} {payload : α} (found : nested.payload? scope = some payload)
    (change : α → α) :
    (nested.modifyPayload scope change).payloads scope =
      change payload :: nested.outerPayloads scope := by
  rw [payloads_eq, payload?_modifyPayload, if_pos rfl, found]
  simp only [outerPayloads, enclosing_modifyPayload, Option.map_some, Option.toList_some,
    List.cons_append, List.nil_append, List.cons.injEq, true_and]
  apply List.filterMap_congr
  intro outer member
  rw [payload?_modifyPayload, if_neg]
  rintro rfl
  exact wellNested.not_mem_enclosing_self scope member

section Enter

variable {nested after : NestedScopes α} {parent child : ScopeId} {label : Option String}
  {payload : α}

theorem child_not_mem_path (wellNested : nested.WellNested)
    (entered : nested.enter parent label payload = .ok child after) {scope : ScopeId}
    (other : scope ≠ child) : child ∉ nested.path scope := by
  have unknown := size_le_child_of_enter entered
  rw [path, List.mem_cons]
  rintro (rfl | member)
  · exact other rfl
  · rcases Nat.lt_or_ge scope.index nested.size with known | scopeUnknown
    · have := wellNested.earlier_of_mem_enclosing member
      omega
    · rw [enclosing_eq_nil_of_unknown scopeUnknown] at member
      simp at member

theorem payloads_of_enter (wellNested : nested.WellNested)
    (entered : nested.enter parent label payload = .ok child after) {scope : ScopeId}
    (other : scope ≠ child) : after.payloads scope = nested.payloads scope := by
  rw [payloads, payloads, path_of_enter entered, if_neg other]
  apply List.filterMap_congr
  intro outer member
  rw [payload?_of_enter entered, if_neg]
  rintro rfl
  exact wellNested.child_not_mem_path entered other member

/-- The new scope sees its own payload, and then what its parent sees. -/
theorem payloads_child_of_enter (wellNested : nested.WellNested)
    (entered : nested.enter parent label payload = .ok child after) :
    after.payloads child = payload :: nested.payloads parent := by
  have inside : after.parent? child = some parent := by
    rw [parent?_of_enter entered, if_pos rfl]
  rw [payloads_eq, payload?_of_enter entered, if_pos rfl,
    (wellNested.enter entered).outerPayloads_eq inside,
    wellNested.payloads_of_enter entered (parent_ne_child_of_enter entered)]
  rfl

end Enter

end WellNested

end NestedScopes

end JvmEmit
