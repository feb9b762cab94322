import JvmEmit.Proofs.Scope.Nesting

/-!
# Two nestings in lockstep

A nesting mirrors another one, with its numbers shifted, if it holds a copy of the other's tree from
some number on: as many scopes, opened in the same order inside corresponding scopes, and closed
alike. What lies in front of the copy is of no concern, so the outermost scope of the original may
lie inside some other scope of the mirror.

Entering and closing corresponding scopes on both sides keeps the correspondence, and the second
operation succeeds because the first one did.
-/

namespace JvmEmit

/-- The scope whose number is larger by a shift. -/
def ScopeId.shifted (shift : Nat) (scope : ScopeId) : ScopeId :=
  ⟨shift + scope.index⟩

theorem ScopeId.shifted_inj {shift : Nat} {scope other : ScopeId} :
    scope.shifted shift = other.shifted shift ↔ scope = other := by
  rcases scope with ⟨index⟩
  rcases other with ⟨otherIndex⟩
  simp only [shifted, mk.injEq]
  omega

namespace NestedScopes

variable {α β : Type}

/-- The scopes of `image` from number `shift` on are nested and closed as those of `nested` are. -/
structure Mirrors (shift : Nat) (image : NestedScopes β) (nested : NestedScopes α) : Prop where
  size_eq : image.size = shift + nested.size
  parent?_eq : ∀ scope : ScopeId, 0 < scope.index →
    image.parent? (scope.shifted shift) = (nested.parent? scope).map (ScopeId.shifted shift)
  inner_eq : ∀ scope : ScopeId,
    image.inner (scope.shifted shift) = (nested.inner scope).map (ScopeId.shifted shift)
  isClosed_eq : ∀ scope : ScopeId, image.isClosed (scope.shifted shift) = nested.isClosed scope

namespace Mirrors

variable {shift : Nat} {image : NestedScopes β} {nested : NestedScopes α}

theorem known_iff (mirrors : Mirrors shift image nested) (scope : ScopeId) :
    (scope.shifted shift).index < image.size ↔ scope.index < nested.size := by
  rw [mirrors.size_eq, ScopeId.shifted]
  exact Nat.add_lt_add_iff_left

theorem openInner_eq (mirrors : Mirrors shift image nested) (scope : ScopeId) :
    image.openInner (scope.shifted shift) =
      (nested.openInner scope).map (ScopeId.shifted shift) := by
  rw [openInner, mirrors.inner_eq, openInner, List.filter_map]
  congr 2
  funext inner
  rw [Function.comp_apply, mirrors.isClosed_eq]

theorem requireOpen_iff (mirrors : Mirrors shift image nested) (scope : ScopeId) :
    image.requireOpen (scope.shifted shift) = .ok () ↔ nested.requireOpen scope = .ok () := by
  rw [requireOpen_eq_ok_iff, requireOpen_eq_ok_iff, mirrors.known_iff, mirrors.isClosed_eq]

theorem requireUsable_iff (mirrors : Mirrors shift image nested) (scope : ScopeId) :
    image.requireUsable (scope.shifted shift) = .ok () ↔ nested.requireUsable scope = .ok () := by
  rw [requireUsable_eq_ok_iff, requireUsable_eq_ok_iff, mirrors.known_iff, mirrors.isClosed_eq,
    mirrors.openInner_eq, List.map_eq_nil_iff]

theorem enter {parent child : ScopeId} {label : Option String} {payload : α}
    {after : NestedScopes α} (mirrors : Mirrors shift image nested)
    (entered : nested.enter parent label payload = .ok child after)
    (imageLabel : Option String) (imagePayload : β) :
    ∃ imageAfter,
      image.enter (parent.shifted shift) imageLabel imagePayload =
        .ok (child.shifted shift) imageAfter ∧
      Mirrors shift imageAfter after := by
  have parentOpen := (mirrors.requireOpen_iff parent).mpr (requireOpen_of_enter entered)
  have childEq := child_eq_of_enter entered
  have imageChild : (⟨image.size⟩ : ScopeId) = child.shifted shift := by
    rw [childEq, mirrors.size_eq, ScopeId.shifted]
  rcases image.enter_cases (parent.shifted shift) imageLabel imagePayload with
    ⟨_, imageAfter, imageEntered⟩ | ⟨cause, closed, _⟩
  · rw [imageChild] at imageEntered
    refine ⟨imageAfter, imageEntered, ?_⟩
    constructor
    · rw [size_of_enter imageEntered, size_of_enter entered, mirrors.size_eq]
      omega
    · intro scope nested
      rw [parent?_of_enter imageEntered, parent?_of_enter entered]
      simp only [ScopeId.shifted_inj]
      split
      · rfl
      · exact mirrors.parent?_eq scope nested
    · intro scope
      rw [inner_of_enter imageEntered, inner_of_enter entered]
      simp only [ScopeId.shifted_inj]
      split
      · rw [mirrors.inner_eq, List.map_append, List.map_singleton]
      · exact mirrors.inner_eq scope
    · intro scope
      rw [isClosed_of_enter imageEntered, isClosed_of_enter entered, mirrors.isClosed_eq]
  · rw [parentOpen] at closed
    simp at closed

theorem closedAt (mirrors : Mirrors shift image nested) {scope : ScopeId}
    (known : scope.index < nested.size) :
    Mirrors shift (image.closedAt (scope.shifted shift)) (nested.closedAt scope) := by
  have imageKnown := (mirrors.known_iff scope).mpr known
  constructor
  · rw [size_closedAt, size_closedAt, mirrors.size_eq]
  · intro other inside
    rw [parent?_closedAt, parent?_closedAt, mirrors.parent?_eq other inside]
  · intro other
    rw [inner_closedAt, inner_closedAt, mirrors.inner_eq]
  · intro other
    rw [isClosed_closedAt _ _ _ imageKnown, isClosed_closedAt _ _ _ known, mirrors.isClosed_eq]
    simp only [ScopeId.shifted_inj]

theorem modifyPayload_image (mirrors : Mirrors shift image nested) (scope : ScopeId)
    (change : β → β) : Mirrors shift (image.modifyPayload scope change) nested := by
  constructor
  · rw [size_modifyPayload, mirrors.size_eq]
  · intro other inside
    rw [parent?_modifyPayload, mirrors.parent?_eq other inside]
  · intro other
    rw [inner_modifyPayload, mirrors.inner_eq]
  · intro other
    rw [isClosed_modifyPayload, mirrors.isClosed_eq]

theorem modifyPayload (mirrors : Mirrors shift image nested) (scope : ScopeId) (change : α → α) :
    Mirrors shift image (nested.modifyPayload scope change) := by
  constructor
  · rw [size_modifyPayload, mirrors.size_eq]
  · intro other inside
    rw [parent?_modifyPayload, mirrors.parent?_eq other inside]
  · intro other
    rw [inner_modifyPayload, mirrors.inner_eq]
  · intro other
    rw [isClosed_modifyPayload, mirrors.isClosed_eq]

/-- A path of the mirror goes on outside it behind the image of the outermost scope. -/
theorem path_eq (mirrors : Mirrors shift image nested) (nestedWell : nested.WellNested)
    (imageWell : image.WellNested) {scope : ScopeId} (known : scope.index < nested.size) :
    image.path (scope.shifted shift) =
      (nested.path scope).map (ScopeId.shifted shift) ++
        image.enclosing (ScopeId.root.shifted shift) := by
  induction scope using nestedWell.outward_induction with
  | top scope outside =>
      rw [path_eq_singleton outside, nestedWell.outermost known outside]
      rfl
  | inside scope parent inside ih =>
      have earlier := nestedWell.parent_earlier inside
      have imageInside := mirrors.parent?_eq scope (Nat.zero_lt_of_lt earlier)
      rw [inside] at imageInside
      rw [nestedWell.path_eq_cons inside, imageWell.path_eq_cons imageInside,
        ih (Nat.lt_trans earlier known)]
      rfl

/-- A scope that was just entered mirrors a nesting of the outermost scope alone. -/
theorem ofRoot_of_enter {parent child : ScopeId} {label : Option String} {payload : β}
    {after : NestedScopes β} (entered : image.enter parent label payload = .ok child after)
    (rootLabel : Option String) (rootPayload : α) :
    Mirrors child.index after (ofRoot rootLabel rootPayload) := by
  have childEq := child_eq_of_enter entered
  have unknown : ∀ scope : ScopeId, image.size ≤ (scope.shifted child.index).index := by
    intro scope
    rw [childEq]
    exact Nat.le_add_right _ _
  have parentKnown :=
    ((requireOpen_eq_ok_iff _ _).mp (requireOpen_of_enter entered)).1
  constructor
  · rw [size_of_enter entered, size_ofRoot, childEq]
  · intro scope inside
    have notChild : scope.shifted child.index ≠ child := by
      rintro same
      have := congrArg ScopeId.index same
      rw [ScopeId.shifted] at this
      change child.index + scope.index = child.index at this
      omega
    rw [parent?_of_enter entered, if_neg notChild, parent?,
      enclosing_eq_nil_of_unknown (unknown scope), parent?, enclosing_ofRoot]
    rfl
  · intro scope
    have notParent : scope.shifted child.index ≠ parent := by
      rintro rfl
      have := unknown scope
      omega
    rw [inner_of_enter entered, if_neg notParent, inner_eq_nil_of_unknown (unknown scope),
      inner_ofRoot]
    rfl
  · intro scope
    rw [isClosed_of_enter entered, isClosed_eq_false_of_unknown (unknown scope)]
    rcases scope with ⟨index⟩
    rcases index with _ | index
    · rfl
    · rw [isClosed_eq_false_of_unknown]
      simp

end Mirrors

end NestedScopes

end JvmEmit
