import JvmEmit.Proofs.Correspondence
import JvmEmit.Proofs.Scope.Nesting

/-!
# Scopes beside a detour

Two nestings were opened alike, but in the second one something more happened inside one scope before
the scope was closed in both. The scopes entered there have taken numbers, so the scopes entered later
have larger ones in the second nesting. Up to these numbers the nestings look the same from every
other scope: the closed scope is on no other path, its label is still there, and what it contains is
neither open nor asked for. Also the names in a refusal are the same.

The nesting without the detour is the direct one. Numbers are moved from the direct nesting to the
other one.
-/

namespace JvmEmit

/-- What one of two runs did inside a scope and the other one did not; the scope is closed by now. -/
structure Detour where
  closed : ScopeId
  /-- The number of scopes that were entered inside. -/
  gap : Nat
  inside : closed ≠ .root

namespace Detour

variable {detour : Detour} {scope other : ScopeId}

/-- The number that a scope has behind the detour. -/
def moved (detour : Detour) (scope : ScopeId) : ScopeId :=
  if scope.index ≤ detour.closed.index then scope else ⟨scope.index + detour.gap⟩

theorem moved_of_le (earlier : scope.index ≤ detour.closed.index) : detour.moved scope = scope :=
  if_pos earlier

theorem moved_of_lt (later : detour.closed.index < scope.index) :
    detour.moved scope = ⟨scope.index + detour.gap⟩ :=
  if_neg (Nat.not_le.mpr later)

theorem moved_inj : detour.moved scope = detour.moved other ↔ scope = other := by
  rcases scope with ⟨index⟩
  rcases other with ⟨otherIndex⟩
  unfold moved
  split <;> split <;> simp only [ScopeId.mk.injEq] at * <;> omega

theorem moved_root (detour : Detour) : detour.moved .root = .root :=
  moved_of_le (Nat.zero_le _)

theorem moved_eq_closed_iff : detour.moved scope = detour.closed ↔ scope = detour.closed := by
  have fixed : detour.moved detour.closed = detour.closed := moved_of_le (Nat.le_refl _)
  constructor
  · intro same
    exact moved_inj.mp (same.trans fixed.symm)
  · rintro rfl
    exact fixed

/-- A scope with the numbers of the scopes around it and inside it moved. -/
def movedNode {α : Type} (detour : Detour) (node : Scope α) : Scope α :=
  { node with
    enclosing := node.enclosing.map detour.moved
    inner := node.inner.map detour.moved }

/-- The scope is known in the direct nesting, and is not the one that the detour was in. -/
structure Beside {α : Type} (detour : Detour) (direct : NestedScopes α) (scope : ScopeId) :
    Prop where
  other : scope ≠ detour.closed
  known : scope.index < direct.size

namespace Beside

variable {α : Type} {direct after : NestedScopes α}

theorem later (beside : detour.Beside direct scope) (grown : direct.size ≤ after.size) :
    detour.Beside after scope :=
  ⟨beside.other, Nat.lt_of_lt_of_le beside.known grown⟩

end Beside

variable {α : Type}

open NestedScopes

/-- The second nesting differs from the first one by a detour. -/
structure Separates (detour : Detour) (direct detoured : NestedScopes α) : Prop where
  wellNested : direct.WellNested
  known : detour.closed.index < direct.size
  size_eq : detoured.size = direct.size + detour.gap
  get?_eq : ∀ scope, scope ≠ detour.closed →
    detoured.get? (detour.moved scope) = (direct.get? scope).map detour.movedNode
  isClosed : direct.isClosed detour.closed = true
  isClosed_detoured : detoured.isClosed detour.closed = true
  /-- The direct nesting has nothing inside the closed scope. -/
  leaf : ∀ scope, detour.closed ∉ direct.enclosing scope

namespace Separates

variable {direct detoured : NestedScopes α}

/-! ## What is seen from another scope -/

section Seen

theorem known_iff (separates : detour.Separates direct detoured) (scope : ScopeId) :
    (detour.moved scope).index < detoured.size ↔ scope.index < direct.size := by
  have known := separates.known
  rw [separates.size_eq]
  rcases Nat.lt_or_ge detour.closed.index scope.index with later | earlier
  · rw [Detour.moved_of_lt later]
    exact Nat.add_lt_add_iff_right
  · rw [Detour.moved_of_le earlier]
    constructor
    · intro _
      exact Nat.lt_of_le_of_lt earlier known
    · intro below
      exact Nat.lt_add_right _ below

theorem enclosing_eq (separates : detour.Separates direct detoured) (other : scope ≠ detour.closed) :
    detoured.enclosing (detour.moved scope) =
      (direct.enclosing scope).map detour.moved := by
  rw [enclosing, separates.get?_eq scope other, enclosing]
  cases direct.get? scope <;> rfl

theorem path_eq (separates : detour.Separates direct detoured) (other : scope ≠ detour.closed) :
    detoured.path (detour.moved scope) =
      (direct.path scope).map detour.moved := by
  rw [path, separates.enclosing_eq other, path, List.map_cons]

theorem parent?_eq (separates : detour.Separates direct detoured) (other : scope ≠ detour.closed) :
    detoured.parent? (detour.moved scope) =
      (direct.parent? scope).map detour.moved := by
  rw [parent?, separates.enclosing_eq other, List.head?_map, parent?]

theorem inner_eq (separates : detour.Separates direct detoured) (other : scope ≠ detour.closed) :
    detoured.inner (detour.moved scope) =
      (direct.inner scope).map detour.moved := by
  rw [NestedScopes.inner, separates.get?_eq scope other, NestedScopes.inner]
  cases direct.get? scope <;> rfl

theorem label?_eq (separates : detour.Separates direct detoured) (other : scope ≠ detour.closed) :
    detoured.label? (detour.moved scope) = direct.label? scope := by
  rw [label?, separates.get?_eq scope other, label?]
  cases direct.get? scope <;> rfl

theorem payload?_eq (separates : detour.Separates direct detoured) (other : scope ≠ detour.closed) :
    detoured.payload? (detour.moved scope) = direct.payload? scope := by
  rw [payload?, separates.get?_eq scope other, payload?]
  cases direct.get? scope <;> rfl

theorem isClosed_eq (separates : detour.Separates direct detoured) (scope : ScopeId) :
    detoured.isClosed (detour.moved scope) = direct.isClosed scope := by
  by_cases other : scope = detour.closed
  · rw [Detour.moved_eq_closed_iff.mpr other, other, separates.isClosed, separates.isClosed_detoured]
  · rw [NestedScopes.isClosed, separates.get?_eq scope other, NestedScopes.isClosed]
    cases direct.get? scope <;> rfl

theorem openInner_eq (separates : detour.Separates direct detoured) (other : scope ≠ detour.closed) :
    detoured.openInner (detour.moved scope) =
      (direct.openInner scope).map detour.moved := by
  rw [openInner, separates.inner_eq other, openInner, List.filter_map]
  congr 2
  funext child
  rw [Function.comp_apply, separates.isClosed_eq]

theorem ne_closed_of_mem_openInner (separates : detour.Separates direct detoured) {child : ScopeId}
    (inside : child ∈ direct.openInner scope) : child ≠ detour.closed := by
  rintro rfl
  have stillOpen := (List.mem_filter.mp inside).2
  rw [separates.isClosed] at stillOpen
  cases stillOpen

theorem ne_closed_of_mem_path (separates : detour.Separates direct detoured)
    (other : scope ≠ detour.closed) {outer : ScopeId} (onPath : outer ∈ direct.path scope) :
    outer ≠ detour.closed := by
  rintro rfl
  rcases List.mem_cons.mp onPath with same | around
  · exact other same.symm
  · exact separates.leaf scope around

/-- The closed scope does not join a queue. -/
theorem ne_closed_of_mem_queue (separates : detour.Separates direct detoured) {next : ScopeId}
    {queue : List ScopeId} (others : ∀ scope ∈ next :: queue, scope ≠ detour.closed) :
    ∀ scope ∈ queue ++ direct.openInner next, scope ≠ detour.closed := by
  intro scope member
  rcases List.mem_append.mp member with waiting | inside
  · exact others scope (List.mem_cons_of_mem _ waiting)
  · exact separates.ne_closed_of_mem_openInner inside

/-- The walk through the larger nesting finds the same scopes. -/
theorem openQueue_eq (separates : detour.Separates direct detoured) (most : Nat)
    {queue : List ScopeId} (others : ∀ scope ∈ queue, scope ≠ detour.closed) :
    detoured.openQueue most (queue.map detour.moved) =
      (direct.openQueue most queue).map detour.moved := by
  induction most generalizing queue with
  | zero => rfl
  | succ most ih =>
      cases queue with
      | nil => rfl
      | cons next queue =>
          have nextOther := others next List.mem_cons_self
          rw [List.map_cons, openQueue, separates.openInner_eq nextOther, ← List.map_append,
            ih (separates.ne_closed_of_mem_queue others), openQueue, List.map_cons]

theorem ne_closed_of_mem_openQueue (separates : detour.Separates direct detoured) {most : Nat}
    {queue : List ScopeId} (others : ∀ scope ∈ queue, scope ≠ detour.closed)
    (found : scope ∈ direct.openQueue most queue) : scope ≠ detour.closed := by
  induction most generalizing queue with
  | zero => cases found
  | succ most ih =>
      cases queue with
      | nil => cases found
      | cons next queue =>
          rcases List.mem_cons.mp found with rfl | later
          · exact others _ List.mem_cons_self
          · exact ih (separates.ne_closed_of_mem_queue others) later

end Seen

/-! ## Names and payloads -/

theorem position?_eq (separates : detour.Separates direct detoured) (other : scope ≠ detour.closed) :
    detoured.position? (detour.moved scope) = direct.position? scope := by
  rw [position?, separates.parent?_eq other, position?]
  cases inside : direct.parent? scope with
  | none => rfl
  | some parent =>
      have around : parent ∈ direct.path scope :=
        List.mem_cons_of_mem _ (List.mem_of_head? inside)
      simp only [Option.map_some, Option.bind_some]
      rw [separates.inner_eq (separates.ne_closed_of_mem_path other around), List.idxOf?,
        List.findIdx?_map, List.idxOf?]
      congr 1
      funext child
      rw [Function.comp_apply, Bool.eq_iff_iff, beq_iff_eq, beq_iff_eq, Detour.moved_inj]

theorem ownName_eq (separates : detour.Separates direct detoured) (other : scope ≠ detour.closed) :
    detoured.ownName (detour.moved scope) = direct.ownName scope := by
  rw [ownName, separates.label?_eq other, separates.position?_eq other, ownName]

theorem pathName_eq (separates : detour.Separates direct detoured) (other : scope ≠ detour.closed) :
    detoured.pathName (detour.moved scope) = direct.pathName scope := by
  have names : ((direct.path scope).map detour.moved).map detoured.ownName =
      (direct.path scope).map direct.ownName := by
    rw [List.map_map]
    apply List.map_congr_left
    intro outer onPath
    exact separates.ownName_eq (separates.ne_closed_of_mem_path other onPath)
  rw [pathName, separates.path_eq other, names, pathName]

theorem payloads_eq (separates : detour.Separates direct detoured) (other : scope ≠ detour.closed) :
    detoured.payloads (detour.moved scope) = direct.payloads scope := by
  rw [payloads, separates.path_eq other, List.filterMap_map, payloads]
  apply List.filterMap_congr
  intro outer onPath
  exact separates.payload?_eq (separates.ne_closed_of_mem_path other onPath)

/-! ## Requirements -/

theorem requireOpen_eq (separates : detour.Separates direct detoured)
    (beside : detour.Beside direct scope) :
    detoured.requireOpen (detour.moved scope) = direct.requireOpen scope := by
  have knownThere := (separates.known_iff scope).mpr beside.known
  rw [requireOpen, (requireKnown_eq_ok_iff _ _).mpr knownThere, requireOpen,
    (requireKnown_eq_ok_iff _ _).mpr beside.known, separates.isClosed_eq,
    separates.pathName_eq beside.other]

theorem requireInnermost_eq (separates : detour.Separates direct detoured)
    (beside : detour.Beside direct scope) :
    detoured.requireInnermost (detour.moved scope) = direct.requireInnermost scope := by
  have others : ∀ child ∈ direct.openInner scope, child ≠ detour.closed :=
    fun _ inside => separates.ne_closed_of_mem_openInner inside
  have names : (detoured.firstOpenWithin listedScopes (detour.moved scope)).map detoured.pathName =
      (direct.firstOpenWithin listedScopes scope).map direct.pathName := by
    rw [firstOpenWithin, separates.openInner_eq beside.other, separates.openQueue_eq _ others,
      List.map_map, firstOpenWithin]
    apply List.map_congr_left
    intro inner found
    exact separates.pathName_eq (separates.ne_closed_of_mem_openQueue others found)
  rw [requireInnermost, separates.openInner_eq beside.other, separates.pathName_eq beside.other,
    names, requireInnermost]
  simp only [List.map_eq_nil_iff]

theorem requireUsable_eq (separates : detour.Separates direct detoured)
    (beside : detour.Beside direct scope) :
    detoured.requireUsable (detour.moved scope) = direct.requireUsable scope := by
  rw [requireUsable, separates.requireOpen_eq beside, separates.requireInnermost_eq beside,
    requireUsable]

/-! ## Operations -/

theorem moved_next (separates : detour.Separates direct detoured) :
    detour.moved ⟨direct.size⟩ = ⟨detoured.size⟩ := by
  have later : detour.closed.index < (⟨direct.size⟩ : ScopeId).index := separates.known
  rw [moved_of_lt later, separates.size_eq]

/-- A scope that is entered later is not the closed one. -/
theorem beside_of_enter {parent child : ScopeId} {label : Option String} {payload : α}
    {after : NestedScopes α} (separates : detour.Separates direct detoured)
    (entered : direct.enter parent label payload = .ok child after) :
    detour.Beside after child := by
  have childEq := child_eq_of_enter entered
  have known := separates.known
  constructor
  · rintro rfl
    rw [childEq] at known
    exact Nat.lt_irrefl _ known
  · rw [childEq, size_of_enter entered]
    exact Nat.lt_succ_self _

theorem enter {parent child twin : ScopeId} {label : Option String} {payload : α}
    {after twinAfter : NestedScopes α} (separates : detour.Separates direct detoured)
    (beside : detour.Beside direct parent)
    (entered : direct.enter parent label payload = .ok child after)
    (twinEntered : detoured.enter (detour.moved parent) label payload = .ok twin twinAfter) :
    twin = detour.moved child ∧ detour.Separates after twinAfter := by
  have childEq := child_eq_of_enter entered
  have twinEq : twin = detour.moved child := by
    rw [childEq, separates.moved_next]
    exact child_eq_of_enter twinEntered
  refine ⟨twinEq, ?_⟩
  constructor
  · exact separates.wellNested.enter entered
  · rw [size_of_enter entered]
    exact Nat.lt_succ_of_lt separates.known
  · rw [size_of_enter entered, size_of_enter twinEntered, separates.size_eq]
    omega
  · intro scope other
    rw [get?_after_enter entered, get?_after_enter twinEntered, twinEq]
    simp only [moved_inj]
    split
    · rw [separates.path_eq beside.other]
      rfl
    · split
      · rw [separates.get?_eq scope other]
        cases direct.get? scope with
        | none => rfl
        | some node => simp [movedNode]
      · exact separates.get?_eq scope other
  · rw [isClosed_of_enter entered]
    exact separates.isClosed
  · rw [isClosed_of_enter twinEntered]
    exact separates.isClosed_detoured
  · intro scope
    rw [enclosing_of_enter entered]
    split
    · intro onPath
      exact separates.ne_closed_of_mem_path beside.other onPath rfl
    · exact separates.leaf scope

theorem closedAt (separates : detour.Separates direct detoured)
    (beside : detour.Beside direct scope) (usable : direct.requireUsable scope = .ok ()) :
    detour.Separates (direct.closedAt scope) (detoured.closedAt (detour.moved scope)) := by
  have known := beside.known
  have knownThere := (separates.known_iff scope).mpr known
  constructor
  · exact separates.wellNested.closedAt usable
  · rw [size_closedAt]
    exact separates.known
  · rw [size_closedAt, size_closedAt, separates.size_eq]
  · intro other notClosed
    rw [get?_closedAt, get?_closedAt, separates.get?_eq other notClosed]
    simp only [moved_inj]
    split
    · cases direct.get? other <;> rfl
    · rfl
  · rw [isClosed_closedAt _ _ _ known, separates.isClosed, Bool.or_true]
  · rw [isClosed_closedAt _ _ _ knownThere, separates.isClosed_detoured, Bool.or_true]
  · intro other
    rw [enclosing_closedAt]
    exact separates.leaf other

theorem modifyPayload (separates : detour.Separates direct detoured) (scope : ScopeId)
    (change : α → α) :
    detour.Separates (direct.modifyPayload scope change)
      (detoured.modifyPayload (detour.moved scope) change) := by
  constructor
  · exact separates.wellNested.modifyPayload scope change
  · rw [size_modifyPayload]
    exact separates.known
  · rw [size_modifyPayload, size_modifyPayload, separates.size_eq]
  · intro other notClosed
    rw [NestedScopes.modifyPayload, NestedScopes.modifyPayload, get?_modify, get?_modify,
      separates.get?_eq other notClosed]
    simp only [moved_inj]
    split
    · cases direct.get? other <;> rfl
    · rfl
  · rw [isClosed_modifyPayload]
    exact separates.isClosed
  · rw [isClosed_modifyPayload]
    exact separates.isClosed_detoured
  · intro other
    rw [enclosing_modifyPayload]
    exact separates.leaf other

end Separates

/-! ## Operations that agree -/

/-- Nestings that differ by a detour correspond, and a known scope stays known. -/
def scopes (detour : Detour) : Correspondence (NestedScopes α) where
  related := detour.Separates
  grown before after := before.size ≤ after.size
  grown_refl _ := Nat.le_refl _
  grown_trans := Nat.le_trans

variable {detour : Detour} {direct detoured : NestedScopes α} {scope : ScopeId}

theorem agree_enter (separates : detour.Separates direct detoured)
    (beside : detour.Beside direct scope) (label : Option String) (payload : α) :
    detour.scopes.Agree (fun child twin => twin = detour.moved child) direct
      (direct.enter scope label payload) (detoured.enter (detour.moved scope) label payload) := by
  have sameCheck := separates.requireOpen_eq beside
  rcases direct.enter_cases scope label payload with
    ⟨accepted, after, entered⟩ | ⟨cause, refused, result⟩
  · rcases detoured.enter_cases (detour.moved scope) label payload with
      ⟨_, twinAfter, twinEntered⟩ | ⟨cause, twinRefused, _⟩
    · have separatesAfter := separates.enter beside entered twinEntered
      rw [entered, twinEntered]
      refine .ok separatesAfter.1 separatesAfter.2 ?_
      change direct.size ≤ after.size
      rw [size_of_enter entered]
      exact Nat.le_succ _
    · rw [sameCheck, accepted] at twinRefused
      cases twinRefused
  · rw [refused] at sameCheck
    rw [result, enter_of_refused label payload sameCheck]
    exact .error separates (Nat.le_refl _)

theorem agree_close (separates : detour.Separates direct detoured)
    (beside : detour.Beside direct scope) :
    detour.scopes.Agree (· = ·) direct (direct.close scope)
      (detoured.close (detour.moved scope)) := by
  rw [NestedScopes.close, NestedScopes.close, separates.isClosed_eq,
    separates.requireUsable_eq beside]
  cases direct.isClosed scope with
  | true => exact .ok rfl separates (Nat.le_refl _)
  | false =>
      cases usable : direct.requireUsable scope with
      | error cause => exact .error separates (Nat.le_refl _)
      | ok =>
          refine .ok rfl (separates.closedAt beside usable) ?_
          exact Nat.le_of_eq (size_closedAt direct scope).symm

end Detour

end JvmEmit
