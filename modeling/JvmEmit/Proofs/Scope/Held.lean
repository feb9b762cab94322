import JvmEmit.Proofs.Scope.Nesting

/-!
# Scopes that keep the outermost scope from being used

Of the scopes directly inside the outermost one, at most one is open at a time if each is entered
while the outermost scope can be used. This one holds the nesting: whether the outermost scope can be
used again depends on it alone, whatever goes on further inside.
-/

namespace JvmEmit

namespace NestedScopes

variable {α : Type}

/-- The outermost scope is open, and no other scope than the holder is open directly inside it. -/
structure HeldBy (nested : NestedScopes α) (holder : ScopeId) : Prop where
  wellNested : nested.WellNested
  rootOpen : nested.requireOpen .root = .ok ()
  alone : ∀ scope, nested.parent? scope = some .root → nested.isClosed scope = false →
    scope = holder

namespace HeldBy

variable {nested after : NestedScopes α} {holder : ScopeId}

/-- A scope that is entered in the usable outermost scope holds the nesting. -/
theorem of_enter {label : Option String} {payload : α} (wellNested : nested.WellNested)
    (usable : nested.requireUsable .root = .ok ())
    (entered : nested.enter .root label payload = .ok holder after) : after.HeldBy holder := by
  have apart := parent_ne_child_of_enter entered
  refine ⟨wellNested.enter entered, ?_, ?_⟩
  · exact (requireOpen_after_enter_iff entered apart).mpr (requireOpen_of_enter entered)
  · intro scope inside isOpen
    by_contra other
    rw [parent?_of_enter entered, if_neg other] at inside
    rw [isClosed_of_enter entered, wellNested.isClosed_of_parent?_usable inside usable] at isOpen
    cases isOpen

theorem modifyPayload (held : nested.HeldBy holder) (scope : ScopeId) (change : α → α) :
    (nested.modifyPayload scope change).HeldBy holder := by
  refine ⟨held.wellNested.modifyPayload scope change, ?_, ?_⟩
  · exact (requireOpen_modifyPayload_iff _ _ _ _).mpr held.rootOpen
  · simpa using held.alone

theorem enter {parent child : ScopeId} {label : Option String} {payload : α}
    (held : nested.HeldBy holder) (entered : nested.enter parent label payload = .ok child after)
    (inside : parent ≠ .root) : after.HeldBy holder := by
  have rootKnown := ((requireOpen_eq_ok_iff _ _).mp held.rootOpen).1
  have unknown := size_le_child_of_enter entered
  have older : ScopeId.root ≠ child := by
    rintro rfl
    omega
  refine ⟨held.wellNested.enter entered, ?_, ?_⟩
  · exact (requireOpen_after_enter_iff entered older).mpr held.rootOpen
  · intro scope directly isOpen
    rw [parent?_of_enter entered] at directly
    split at directly
    · exact absurd (Option.some.inj directly) inside
    · rw [isClosed_of_enter entered] at isOpen
      exact held.alone scope directly isOpen

theorem closedAt {closing : ScopeId} (held : nested.HeldBy holder)
    (usable : nested.requireUsable closing = .ok ()) (inside : closing ≠ .root) :
    (nested.closedAt closing).HeldBy holder := by
  have known := ((requireUsable_eq_ok_iff _ _).mp usable).1
  refine ⟨held.wellNested.closedAt usable, ?_, ?_⟩
  · exact (requireOpen_closedAt_iff nested closing .root known).mpr ⟨inside, held.rootOpen⟩
  · intro scope directly isOpen
    rw [parent?_closedAt] at directly
    rw [isClosed_closedAt nested closing scope known, Bool.or_eq_false_iff] at isOpen
    exact held.alone scope directly isOpen.2

/-- The outermost scope can be used again when the holder is closed. -/
theorem requireUsable_root_iff (held : nested.HeldBy holder)
    (directly : nested.parent? holder = some .root) :
    nested.requireUsable .root = .ok () ↔ nested.isClosed holder = true := by
  rw [held.wellNested.requireUsable_iff_inner_closed held.rootOpen]
  constructor
  · intro innerClosed
    exact innerClosed holder directly
  · intro holderClosed scope inside
    by_contra isOpen
    rw [Bool.not_eq_true] at isOpen
    have same := held.alone scope inside isOpen
    rw [same, holderClosed] at isOpen
    cases isOpen

end HeldBy

end NestedScopes

end JvmEmit
