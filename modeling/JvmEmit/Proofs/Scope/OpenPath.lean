import JvmEmit.Proofs.Scope.SinglePath
import Mathlib.Data.List.Chain
import Mathlib.Data.List.Sort

/-!
# The open scopes of a single path

If the open scopes lie on one path, then listing them in the order of opening walks down that path
from the outermost scope, each scope directly inside the one before it. The walk ends at the only
scope that can be used. So one usable scope is left as long as any scope is open.
-/

namespace JvmEmit

namespace NestedScopes

variable {α : Type} {nested : NestedScopes α}

/-- The scopes that are not closed, in the order of opening. -/
def openScopes (nested : NestedScopes α) : List ScopeId :=
  ((List.range nested.size).map ScopeId.mk).filter fun scope => !nested.isClosed scope

theorem mem_openScopes_iff (nested : NestedScopes α) (scope : ScopeId) :
    scope ∈ nested.openScopes ↔ nested.requireOpen scope = .ok () := by
  rw [requireOpen_eq_ok_iff, openScopes, List.mem_filter, List.mem_map]
  simp only [List.mem_range, Bool.not_eq_true']
  refine and_congr_left fun _ => ?_
  constructor
  · rintro ⟨index, known, rfl⟩
    exact known
  · intro known
    exact ⟨scope.index, known, rfl⟩

theorem openScopes_pairwise (nested : NestedScopes α) :
    nested.openScopes.Pairwise fun scope other => scope.index < other.index := by
  apply List.Pairwise.filter
  apply List.pairwise_map.mpr
  exact List.pairwise_lt_range

namespace WellNested

theorem path_isChain (wellNested : nested.WellNested) (scope : ScopeId) :
    (nested.path scope).IsChain fun inner outer => nested.parent? inner = some outer := by
  induction scope using wellNested.outward_induction with
  | top scope outside =>
      rw [path_eq_singleton outside]
      exact List.isChain_singleton scope
  | inside scope parent inside ih =>
      rw [wellNested.path_eq_cons inside]
      exact List.isChain_cons_cons.mpr ⟨inside, ih⟩

theorem path_pairwise (wellNested : nested.WellNested) (scope : ScopeId) :
    (nested.path scope).Pairwise fun inner outer => outer.index < inner.index := by
  induction scope using wellNested.outward_induction with
  | top scope outside =>
      rw [path_eq_singleton outside]
      exact List.pairwise_singleton _ scope
  | inside scope parent inside ih =>
      apply List.pairwise_cons.mpr
      refine ⟨fun outer member => wellNested.earlier_of_mem_enclosing member, ?_⟩
      rw [wellNested.enclosing_eq_path inside]
      exact ih

theorem known_of_mem_path (wellNested : nested.WellNested) {scope outer : ScopeId}
    (known : scope.index < nested.size) (member : outer ∈ nested.path scope) :
    outer.index < nested.size := by
  rcases List.mem_cons.mp member with rfl | around
  · exact known
  · exact Nat.lt_trans (wellNested.earlier_of_mem_enclosing around) known

/-- The last of the open scopes has no open scope inside it. -/
theorem requireUsable_of_getLast? (wellNested : nested.WellNested) {scope : ScopeId}
    (last : nested.openScopes.getLast? = some scope) : nested.requireUsable scope = .ok () := by
  have isOpen := (mem_openScopes_iff nested scope).mp (List.mem_of_getLast? last)
  apply (wellNested.requireUsable_iff_inner_closed isOpen).mpr
  intro child inside
  by_contra childOpen
  have behind := wellNested.parent_earlier inside
  have childMember : child ∈ nested.openScopes := by
    apply (mem_openScopes_iff nested child).mpr
    apply (requireOpen_eq_ok_iff nested child).mpr
    exact ⟨known_of_parent? inside, by simpa using childOpen⟩
  rcases List.getLast?_eq_some_iff.mp last with ⟨front, split⟩
  have sorted := nested.openScopes_pairwise
  rw [split] at childMember sorted
  rcases List.mem_append.mp childMember with inFront | same
  · have before := (List.pairwise_append.mp sorted).2.2 child inFront scope List.mem_cons_self
    omega
  · rw [List.mem_singleton.mp same] at behind
    exact Nat.lt_irrefl _ behind

end WellNested

namespace SinglePath

/-- The open scopes are the path of the scope that can be used, read from its outer end. -/
theorem openScopes_eq_reverse_path (singlePath : nested.SinglePath)
    (wellNested : nested.WellNested) {scope : ScopeId}
    (usable : nested.requireUsable scope = .ok ()) :
    nested.openScopes = (nested.path scope).reverse := by
  have isUsable := (requireUsable_eq_ok_iff nested scope).mp usable
  have asymmetric : Std.Asymm fun inner outer : ScopeId => inner.index < outer.index :=
    ⟨fun _ _ before behind => Nat.lt_asymm before behind⟩
  apply nested.openScopes_pairwise.eq_of_mem_iff
  · exact List.pairwise_reverse.mpr (wellNested.path_pairwise scope)
  · intro outer
    rw [mem_openScopes_iff, List.mem_reverse]
    constructor
    · exact singlePath.mem_path_of_usable wellNested usable
    · intro member
      apply (requireOpen_eq_ok_iff nested outer).mpr
      exact ⟨wellNested.known_of_mem_path isUsable.1 member,
        wellNested.open_of_mem_path isUsable.2.1 member⟩

theorem requireUsable_iff_getLast? (singlePath : nested.SinglePath)
    (wellNested : nested.WellNested) (scope : ScopeId) :
    nested.requireUsable scope = .ok () ↔ nested.openScopes.getLast? = some scope := by
  constructor
  · intro usable
    rw [singlePath.openScopes_eq_reverse_path wellNested usable, List.getLast?_reverse]
    rfl
  · exact wellNested.requireUsable_of_getLast?

theorem openScopes_isChain (singlePath : nested.SinglePath) (wellNested : nested.WellNested) :
    nested.openScopes.IsChain fun outer inner => nested.parent? inner = some outer := by
  cases last : nested.openScopes.getLast? with
  | none =>
      rw [List.getLast?_eq_none_iff.mp last]
      exact List.isChain_nil
  | some scope =>
      have usable := wellNested.requireUsable_of_getLast? last
      rw [singlePath.openScopes_eq_reverse_path wellNested usable]
      exact List.isChain_reverse.mpr (wellNested.path_isChain scope)

end SinglePath

/-- While the outermost scope is open, the open scopes begin with it; afterwards none is open. -/
theorem WellNested.head?_openScopes (wellNested : nested.WellNested) (nonempty : 0 < nested.size) :
    nested.openScopes.head? = if nested.isClosed .root then none else some .root := by
  cases closed : nested.isClosed .root with
  | true =>
      rw [if_pos rfl, List.head?_eq_none_iff]
      apply List.eq_nil_iff_forall_not_mem.mpr
      intro scope member
      have isOpen := (requireOpen_eq_ok_iff nested scope).mp
        ((mem_openScopes_iff nested scope).mp member)
      have rootOpen := wellNested.open_of_mem_path isOpen.2 (wellNested.root_mem_path isOpen.1)
      rw [closed] at rootOpen
      cases rootOpen
  | false =>
      rw [if_neg Bool.false_ne_true, openScopes, ← Nat.sub_add_cancel nonempty,
        List.range_succ_eq_map, List.map_cons, List.filter_cons_of_pos]
      · rfl
      · rw [← ScopeId.root, closed]
        rfl

end NestedScopes

end JvmEmit
