import JvmEmit.Proofs.Scope.OpenPath

/-!
# Scopes at any depth inside a scope

Whether a scope can be used is decided by the open scopes directly inside it. Around an open scope
every scope is open, so the way from a scope to an open one at any depth inside it begins with an
open scope directly inside it. A scope can therefore be used exactly if it is open and everything
inside it is closed.
-/

namespace JvmEmit

namespace NestedScopes

variable {α : Type}

/-- Some scope inside a scope, at any depth, is open. -/
def hasOpenInside (nested : NestedScopes α) (scope : ScopeId) : Bool :=
  nested.openScopes.any fun inner => scope ∈ nested.enclosing inner

theorem known_of_mem_enclosing {nested : NestedScopes α} {scope inner : ScopeId}
    (inside : scope ∈ nested.enclosing inner) : inner.index < nested.size := by
  rcases Nat.lt_or_ge inner.index nested.size with known | unknown
  · exact known
  · rw [enclosing_eq_nil_of_unknown unknown] at inside
    cases inside

theorem hasOpenInside_iff (nested : NestedScopes α) (scope : ScopeId) :
    nested.hasOpenInside scope = true ↔
      ∃ inner, scope ∈ nested.enclosing inner ∧ nested.isClosed inner = false := by
  simp only [hasOpenInside, List.any_eq_true, mem_openScopes_iff, requireOpen_eq_ok_iff,
    decide_eq_true_iff]
  constructor
  · rintro ⟨inner, ⟨_, isOpen⟩, inside⟩
    exact ⟨inner, inside, isOpen⟩
  · rintro ⟨inner, inside, isOpen⟩
    exact ⟨inner, ⟨known_of_mem_enclosing inside, isOpen⟩, inside⟩

namespace WellNested

variable {nested : NestedScopes α} {scope : ScopeId}

/-- An open scope at any depth inside a scope lies in an open one directly inside it, or is one. -/
theorem exists_openInner_of_enclosing (wellNested : nested.WellNested) {inner : ScopeId}
    (inside : scope ∈ nested.enclosing inner) (isOpen : nested.isClosed inner = false) :
    ∃ child, child ∈ nested.openInner scope := by
  induction inner using wellNested.outward_induction with
  | top inner outside =>
      rw [(enclosing_eq_nil_iff nested inner).mpr outside] at inside
      cases inside
  | inside inner parent directly ih =>
      rw [wellNested.enclosing_eq_path directly, path, List.mem_cons] at inside
      rcases inside with rfl | further
      · exact ⟨inner, wellNested.mem_openInner_iff.mpr ⟨directly, isOpen⟩⟩
      · exact ih further (wellNested.parent_open directly isOpen)

theorem openInner_eq_nil_iff (wellNested : nested.WellNested) :
    nested.openInner scope = [] ↔ nested.hasOpenInside scope = false := by
  rw [← Bool.not_eq_true, hasOpenInside_iff, List.eq_nil_iff_forall_not_mem]
  constructor
  · rintro noneDirectly ⟨inner, inside, isOpen⟩
    rcases wellNested.exists_openInner_of_enclosing inside isOpen with ⟨child, member⟩
    exact noneDirectly child member
  · intro noneInside child member
    rcases wellNested.mem_openInner_iff.mp member with ⟨directly, isOpen⟩
    refine noneInside ⟨child, ?_, isOpen⟩
    rw [wellNested.enclosing_eq_path directly]
    exact List.mem_cons_self

end WellNested

end NestedScopes

end JvmEmit
