import JvmEmit.Proofs.Scope.Descendants
import JvmEmit.Proofs.Scope.Runs

/-!
# The open scopes inside a scope, level by level

A scope that cannot be used because scopes inside it are open lists some of these. The walk that
finds them keeps a queue and passes from a scope to the open scopes directly inside it only. It misses
none, because the scopes around an open scope are open.

A queue that begins with a level lists this level, and has the level below it in front by then. So the
walk goes from level to level, and it ends, because no scope lies deeper than there are scopes.

The order of the list is told without the search: by depth first, then by the order of the parents,
and then by the order of opening. A level is in this order if the level above it is.
-/

namespace JvmEmit

namespace NestedScopes

variable {α : Type} {nested : NestedScopes α}

/-- The number of scopes around a scope. -/
def depth (nested : NestedScopes α) (scope : ScopeId) : Nat :=
  (nested.enclosing scope).length

/--
A scope is listed before another one if it lies less deep. Equally deep scopes have the order of
their parents, and scopes of one parent that of opening.
-/
inductive ListedBefore (nested : NestedScopes α) : ScopeId → ScopeId → Prop where
  | lessDeep {scope other : ScopeId} (less : nested.depth scope < nested.depth other) :
      ListedBefore nested scope other
  | byParents {scope other parent otherParent : ScopeId}
      (equallyDeep : nested.depth scope = nested.depth other)
      (inside : nested.parent? scope = some parent)
      (otherInside : nested.parent? other = some otherParent)
      (parents : ListedBefore nested parent otherParent) : ListedBefore nested scope other
  | byOpening {scope other parent : ScopeId} (inside : nested.parent? scope = some parent)
      (otherInside : nested.parent? other = some parent) (earlier : scope.index < other.index) :
      ListedBefore nested scope other

theorem ListedBefore.ne {scope other : ScopeId} (before : nested.ListedBefore scope other) :
    scope ≠ other := by
  induction before with
  | lessDeep less =>
      rintro rfl
      omega
  | byParents equallyDeep inside otherInside parents ih =>
      rintro rfl
      simp only [inside, Option.some.injEq] at otherInside
      exact ih otherInside
  | byOpening inside otherInside earlier =>
      rintro rfl
      omega

namespace WellNested

theorem depth_of_parent? (wellNested : nested.WellNested) {scope parent : ScopeId}
    (inside : nested.parent? scope = some parent) :
    nested.depth scope = nested.depth parent + 1 := by
  simp [depth, wellNested.enclosing_eq_path inside, path]

/-- The order of listing has one direction only, so it arranges the same scopes in one way. -/
theorem listedBefore_asymm (wellNested : nested.WellNested) {scope other : ScopeId}
    (before : nested.ListedBefore scope other) : ¬nested.ListedBefore other scope := by
  induction before with
  | lessDeep less =>
      intro behind
      cases behind with
      | lessDeep more => omega
      | byParents equallyDeep inside otherInside parents => omega
      | byOpening inside otherInside earlier =>
          simp only [wellNested.depth_of_parent? inside,
            wellNested.depth_of_parent? otherInside] at less
          omega
  | byParents equallyDeep inside otherInside parents ih =>
      intro behind
      cases behind with
      | lessDeep more => omega
      | byParents _ isParent isOtherParent reversed =>
          simp only [inside, otherInside, Option.some.injEq] at isParent isOtherParent
          subst isParent isOtherParent
          exact ih reversed
      | byOpening isParent isOtherParent earlier =>
          simp only [inside, otherInside, Option.some.injEq] at isParent isOtherParent
          exact parents.ne (isOtherParent.trans isParent.symm)
  | byOpening inside otherInside earlier =>
      have depth := wellNested.depth_of_parent? inside
      have otherDepth := wellNested.depth_of_parent? otherInside
      intro behind
      cases behind with
      | lessDeep more => omega
      | byParents _ isParent isOtherParent reversed =>
          simp only [inside, otherInside, Option.some.injEq] at isParent isOtherParent
          exact reversed.ne (isParent.symm.trans isOtherParent)
      | byOpening _ _ later => omega

theorem depth_le_index (wellNested : nested.WellNested) (scope : ScopeId) :
    nested.depth scope ≤ scope.index := by
  induction scope using wellNested.outward_induction with
  | top scope outside => simp [depth, (enclosing_eq_nil_iff nested scope).mpr outside]
  | inside scope parent inside ih =>
      have earlier := wellNested.parent_earlier inside
      have deeper := wellNested.depth_of_parent? inside
      omega

/-- The scopes some levels further out are those around the scope at that level. -/
theorem depth_of_getElem?_enclosing (wellNested : nested.WellNested) {scope inner : ScopeId}
    {below : Nat} (around : (nested.enclosing inner)[below]? = some scope) :
    nested.depth inner = nested.depth scope + below + 1 := by
  induction inner using wellNested.outward_induction generalizing below with
  | top inner outside => simp [(enclosing_eq_nil_iff nested inner).mpr outside] at around
  | inside inner parent inside ih =>
      have deeper := wellNested.depth_of_parent? inside
      simp only [wellNested.enclosing_eq_path inside, path] at around
      cases below with
      | zero =>
          simp only [List.getElem?_cons_zero, Option.some.injEq] at around
          subst around
          omega
      | succ below =>
          have further := ih (by simpa using around)
          omega

theorem openInner_pairwise (wellNested : nested.WellNested) (scope : ScopeId) :
    (nested.openInner scope).Pairwise fun inner other => inner.index < other.index := by
  simp only [openInner, wellNested.inner_eq_openedInside]
  apply List.Pairwise.filter
  apply List.Pairwise.filter
  exact nested.ids_pairwise

theorem openInner_inOrder (wellNested : nested.WellNested) (scope : ScopeId) :
    (nested.openInner scope).Pairwise nested.ListedBefore := by
  apply (wellNested.openInner_pairwise scope).imp_of_mem
  intro inner other member otherMember earlier
  exact .byOpening (wellNested.mem_openInner_iff.mp member).1
    (wellNested.mem_openInner_iff.mp otherMember).1 earlier

end WellNested

/-! ## From the queue to levels -/

/-- The open scopes of a level, then those directly inside them, and so on for some levels. -/
def openLevels (nested : NestedScopes α) : (levels : Nat) → List ScopeId → List ScopeId
  | 0, _ => []
  | levels + 1, level =>
      level ++ nested.openLevels levels (level.flatMap nested.openInner)

/--
The open scopes inside a scope at any depth, the shallow ones first. No path is longer than the
number of scopes, which bounds the levels.
-/
def openWithin (nested : NestedScopes α) (scope : ScopeId) : List ScopeId :=
  nested.openLevels nested.size (nested.openInner scope)

/--
A row may be cut off before it is put behind another one, if the whole is cut off at the same length.
-/
theorem take_append_take (front rest : List ScopeId) (most : Nat) :
    (front ++ rest.take most).take most = (front ++ rest).take most := by
  simp only [List.take_append, List.take_take, Nat.min_eq_left (Nat.sub_le ..)]

@[simp]
theorem openQueue_nil (nested : NestedScopes α) (most : Nat) : nested.openQueue most [] = [] := by
  cases most <;> rfl

/-- A walk that may list more scopes begins with what a shorter walk lists. -/
theorem take_openQueue (nested : NestedScopes α) (fewer most : Nat) (queue : List ScopeId) :
    (nested.openQueue most queue).take fewer = nested.openQueue (min fewer most) queue := by
  induction most generalizing fewer queue with
  | zero => simp [openQueue]
  | succ most ih =>
      cases queue with
      | nil => simp
      | cons next queue =>
          cases fewer with
          | zero => simp [openQueue]
          | succ fewer =>
              rw [Nat.succ_min_succ, openQueue, List.take_succ_cons, ih, openQueue]

/--
The walk lists the level at the front of the queue, and then goes on with what was behind it and
with the open scopes directly inside those of the level.
-/
theorem openQueue_append (nested : NestedScopes α) (most : Nat) (level behind : List ScopeId) :
    nested.openQueue most (level ++ behind) =
      (level ++ nested.openQueue most (behind ++ level.flatMap nested.openInner)).take most := by
  induction level generalizing most behind with
  | nil => simp [take_openQueue]
  | cons next level ih =>
      cases most with
      | zero => simp [openQueue]
      | succ most =>
          have shorter (queue : List ScopeId) :
              nested.openQueue most queue = (nested.openQueue (most + 1) queue).take most := by
            rw [take_openQueue, Nat.min_eq_left (Nat.le_succ most)]
          rw [List.cons_append, openQueue, List.append_assoc, ih, shorter, take_append_take,
            List.append_assoc, ← List.flatMap_cons, List.cons_append, List.take_succ_cons]

/-! ## Levels -/

/-- A row has the open scopes that lie inside a scope with some other scopes between, in order. -/
structure IsLevel (nested : NestedScopes α) (scope : ScopeId) (between : Nat)
    (row : List ScopeId) : Prop where
  mem_iff : ∀ inner, inner ∈ row ↔
    (nested.enclosing inner)[between]? = some scope ∧ nested.isClosed inner = false
  inOrder : row.Pairwise nested.ListedBefore

namespace IsLevel

variable {scope : ScopeId} {between : Nat} {row : List ScopeId}

theorem first (wellNested : nested.WellNested) (scope : ScopeId) :
    nested.IsLevel scope 0 (nested.openInner scope) := by
  refine ⟨?_, wellNested.openInner_inOrder scope⟩
  intro inner
  simp [wellNested.mem_openInner_iff, parent?, List.head?_eq_getElem?]

theorem depth_eq (level : nested.IsLevel scope between row) (wellNested : nested.WellNested)
    {inner : ScopeId} (member : inner ∈ row) :
    nested.depth inner = nested.depth scope + between + 1 :=
  wellNested.depth_of_getElem?_enclosing ((level.mem_iff inner).mp member).1

/-- The open scopes directly inside those of a level make up the next level. -/
theorem next (level : nested.IsLevel scope between row) (wellNested : nested.WellNested) :
    nested.IsLevel scope (between + 1) (row.flatMap nested.openInner) := by
  constructor
  · intro inner
    simp only [List.mem_flatMap, level.mem_iff, wellNested.mem_openInner_iff]
    constructor
    · rintro ⟨parent, ⟨around, _⟩, inside, innerOpen⟩
      simp only [wellNested.enclosing_eq_path inside, path, List.getElem?_cons_succ]
      exact ⟨around, innerOpen⟩
    · rintro ⟨around, innerOpen⟩
      cases inside : nested.parent? inner with
      | none => simp [(enclosing_eq_nil_iff nested inner).mpr inside] at around
      | some parent =>
          simp only [wellNested.enclosing_eq_path inside, path, List.getElem?_cons_succ] at around
          exact ⟨parent, ⟨around, wellNested.parent_open inside innerOpen⟩, rfl, innerOpen⟩
  · -- within one parent the order is that of opening, and else that of the parents
    apply List.pairwise_flatMap.mpr
    refine ⟨fun parent _ => wellNested.openInner_inOrder parent, ?_⟩
    apply level.inOrder.imp_of_mem
    intro parent otherParent member otherMember before inner innerMember other otherInner
    have inside := (wellNested.mem_openInner_iff.mp innerMember).1
    have otherInside := (wellNested.mem_openInner_iff.mp otherInner).1
    refine .byParents ?_ inside otherInside before
    have depth := level.depth_eq wellNested member
    have otherDepth := level.depth_eq wellNested otherMember
    have deeper := wellNested.depth_of_parent? inside
    have otherDeeper := wellNested.depth_of_parent? otherInside
    omega

/-- The search from a level on finds what lies that deep or deeper, down to its last level. -/
theorem mem_openLevels_iff (level : nested.IsLevel scope between row)
    (wellNested : nested.WellNested) (levels : Nat) (inner : ScopeId) :
    inner ∈ nested.openLevels levels row ↔
      (∃ further < levels, (nested.enclosing inner)[between + further]? = some scope) ∧
        nested.isClosed inner = false := by
  induction levels generalizing between row with
  | zero => simp [openLevels]
  | succ levels ih =>
      simp only [openLevels, List.mem_append, level.mem_iff, ih (level.next wellNested)]
      constructor
      · rintro (⟨around, innerOpen⟩ | ⟨⟨further, bound, around⟩, innerOpen⟩)
        · exact ⟨⟨0, by omega, around⟩, innerOpen⟩
        · refine ⟨⟨further + 1, by omega, ?_⟩, innerOpen⟩
          simpa [Nat.add_assoc, Nat.add_comm 1] using around
      · rintro ⟨⟨further, bound, around⟩, innerOpen⟩
        cases further with
        | zero => exact .inl ⟨around, innerOpen⟩
        | succ further =>
            refine .inr ⟨⟨further, by omega, ?_⟩, innerOpen⟩
            simpa [Nat.add_assoc, Nat.add_comm 1] using around

theorem openLevels_inOrder (level : nested.IsLevel scope between row)
    (wellNested : nested.WellNested) (levels : Nat) :
    (nested.openLevels levels row).Pairwise nested.ListedBefore := by
  induction levels generalizing between row with
  | zero => exact .nil
  | succ levels ih =>
      have next := level.next wellNested
      refine List.pairwise_append.mpr ⟨level.inOrder, ih next, ?_⟩
      intro inner member other later
      rcases (next.mem_openLevels_iff wellNested levels other).mp later with
        ⟨⟨further, _, around⟩, _⟩
      apply ListedBefore.lessDeep
      have depth := level.depth_eq wellNested member
      have otherDepth := wellNested.depth_of_getElem?_enclosing around
      omega

theorem eq_nil_of_deep (level : nested.IsLevel scope between row) (wellNested : nested.WellNested)
    (deep : nested.size ≤ between) : row = [] := by
  apply List.eq_nil_iff_forall_not_mem.mpr
  intro inner member
  have around := List.mem_of_getElem? ((level.mem_iff inner).mp member).1
  have known := known_of_mem_enclosing around
  have bound := wellNested.depth_le_index inner
  have depth := level.depth_eq wellNested member
  omega

/-- The walk from a level on lists the first scopes of the levels from there on. -/
theorem openQueue_eq (level : nested.IsLevel scope between row) (wellNested : nested.WellNested)
    {levels : Nat} (enough : nested.size ≤ between + levels) (most : Nat) :
    nested.openQueue most row = (nested.openLevels levels row).take most := by
  induction levels generalizing between row with
  | zero =>
      rw [level.eq_nil_of_deep wellNested enough]
      simp [openLevels]
  | succ levels ih =>
      have below := ih (level.next wellNested) (by omega)
      have atFront := nested.openQueue_append most row []
      rw [List.append_nil, List.nil_append, below] at atFront
      rw [atFront, openLevels, take_append_take]

end IsLevel

namespace WellNested

/-- The walk with the queue lists the first of the open scopes inside a scope. -/
theorem firstOpenWithin_eq (wellNested : nested.WellNested) (most : Nat) (scope : ScopeId) :
    nested.firstOpenWithin most scope = (nested.openWithin scope).take most :=
  (IsLevel.first wellNested scope).openQueue_eq wellNested (by omega) most

/-- The search finds the open scopes inside a scope at any depth, and nothing else. -/
theorem mem_openWithin_iff (wellNested : nested.WellNested) (scope inner : ScopeId) :
    inner ∈ nested.openWithin scope ↔
      scope ∈ nested.enclosing inner ∧ nested.isClosed inner = false := by
  simp only [openWithin, (IsLevel.first wellNested scope).mem_openLevels_iff wellNested,
    Nat.zero_add]
  refine and_congr_left fun _ => ?_
  constructor
  · rintro ⟨further, _, around⟩
    exact List.mem_of_getElem? around
  · intro around
    -- as many levels as there are scopes are enough, since a scope has fewer scopes around it
    rcases List.mem_iff_getElem?.mp around with ⟨further, found⟩
    refine ⟨further, ?_, found⟩
    have known := known_of_mem_enclosing around
    have bound := wellNested.depth_le_index inner
    have deep := wellNested.depth_of_getElem?_enclosing found
    omega

theorem openWithin_inOrder (wellNested : nested.WellNested) (scope : ScopeId) :
    (nested.openWithin scope).Pairwise nested.ListedBefore :=
  (IsLevel.first wellNested scope).openLevels_inOrder wellNested _

/-- No other row has the same scopes in the order of listing. -/
theorem eq_openWithin (wellNested : nested.WellNested) {scope : ScopeId} {row : List ScopeId}
    (mem_iff : ∀ inner, inner ∈ row ↔
      scope ∈ nested.enclosing inner ∧ nested.isClosed inner = false)
    (inOrder : row.Pairwise nested.ListedBefore) : row = nested.openWithin scope := by
  have asymmetric : Std.Asymm nested.ListedBefore :=
    ⟨fun _ _ before => wellNested.listedBefore_asymm before⟩
  apply inOrder.eq_of_mem_iff (wellNested.openWithin_inOrder scope)
  intro inner
  simp only [mem_iff, wellNested.mem_openWithin_iff]

theorem nodup_openWithin (wellNested : nested.WellNested) (scope : ScopeId) :
    (nested.openWithin scope).Nodup :=
  (wellNested.openWithin_inOrder scope).imp ListedBefore.ne

/-- What keeps a known scope from being used is that it is closed, or else an open scope inside. -/
theorem requireUsable_eq (wellNested : nested.WellNested) {scope : ScopeId}
    (known : scope.index < nested.size) :
    nested.requireUsable scope =
      if nested.isClosed scope then .error (.closed (nested.pathName scope))
      else if nested.hasOpenInside scope then
        .error (.openInside (nested.pathName scope)
          (((nested.openWithin scope).take listedScopes).map nested.pathName))
      else .ok () := by
  rw [requireUsable, requireOpen, (requireKnown_eq_ok_iff nested scope).mpr known]
  cases nested.isClosed scope with
  | true => rfl
  | false =>
      simp only [Bool.false_eq_true, if_false, requireInnermost, wellNested.openInner_eq_nil_iff,
        wellNested.firstOpenWithin_eq]
      cases nested.hasOpenInside scope <;> rfl

/-- A known scope can be used if it is open and all scopes inside it are closed, and only then. -/
theorem requireUsable_iff (wellNested : nested.WellNested) {scope : ScopeId}
    (known : scope.index < nested.size) :
    nested.requireUsable scope = .ok () ↔
      nested.isClosed scope = false ∧
        ∀ inner, scope ∈ nested.enclosing inner → nested.isClosed inner = true := by
  have noneOpen : nested.hasOpenInside scope = false ↔
      ∀ inner, scope ∈ nested.enclosing inner → nested.isClosed inner = true := by
    simp [← Bool.not_eq_true, hasOpenInside_iff]
  simp only [requireUsable_eq_ok_iff, known, true_and, wellNested.openInner_eq_nil_iff, noneOpen]

/-- An open scope with an open scope inside it, at any depth, says so and lists what is open. -/
theorem requireUsable_of_open_inside (wellNested : nested.WellNested) {scope inner : ScopeId}
    (known : scope.index < nested.size) (isOpen : nested.isClosed scope = false)
    (inside : scope ∈ nested.enclosing inner) (innerOpen : nested.isClosed inner = false) :
    nested.requireUsable scope = .error (.openInside (nested.pathName scope)
      (((nested.openWithin scope).take listedScopes).map nested.pathName)) := by
  have someOpen := (hasOpenInside_iff nested scope).mpr ⟨inner, inside, innerOpen⟩
  simp [wellNested.requireUsable_eq known, isOpen, someOpen]

end WellNested

theorem close_of_refused {scope : ScopeId} {cause : ScopeError}
    (isOpen : nested.isClosed scope = false) (refused : nested.requireUsable scope = .error cause) :
    nested.close scope = .error cause nested := by
  simp [close, isOpen, refused]

theorem eq_of_enter_eq_error {after : NestedScopes α} {parent : ScopeId} {label : Option String}
    {payload : α} {cause : ScopeError}
    (failed : nested.enter parent label payload = .error cause after) : after = nested := by
  rcases nested.enter_cases parent label payload with ⟨_, left, entered⟩ | ⟨_, _, refused⟩
  · simp [entered] at failed
  · simp only [refused, EStateM.Result.error.injEq] at failed
    exact failed.2.symm

theorem eq_of_close_eq_error {after : NestedScopes α} {scope : ScopeId} {cause : ScopeError}
    (failed : nested.close scope = .error cause after) : after = nested := by
  rcases nested.close_cases scope with ⟨_, closed⟩ | ⟨_, closed⟩ | ⟨_, _, refused⟩
  · simp [closed] at failed
  · simp [closed] at failed
  · simp only [refused, EStateM.Result.error.injEq] at failed
    exact failed.2.symm

end NestedScopes

namespace ScopeRun

variable {α : Type}

/--
After every run, a scope can be used if it is open and every scope inside it, at any depth, is
closed, and only then. If it is open and a scope inside it is open as well, it can be neither used nor
closed. The refusal has the name of the scope and the names of the first ten open scopes inside it,
each of them once, the less deep ones first, equally deep ones in the order of their parents, and
those of one parent in the order of opening. So it names at least one scope, and all of them if there
are no more than ten. A call that fails changes nothing.
-/
theorem refusal_lists_open_scopes_inside (label : Option String) (payload : α)
    (calls : List (ScopeCall α)) {scope : ScopeId}
    (known : scope.index < (ofCalls label payload calls).nested.size) :
    let nested := (ofCalls label payload calls).nested
    (nested.requireUsable scope = .ok () ↔
      nested.isClosed scope = false ∧
        ∀ inner, scope ∈ nested.enclosing inner → nested.isClosed inner = true) ∧
    (nested.isClosed scope = false →
      (∃ inner, scope ∈ nested.enclosing inner ∧ nested.isClosed inner = false) →
      ∃! row : List ScopeId,
        ((∀ inner, inner ∈ row ↔
          scope ∈ nested.enclosing inner ∧ nested.isClosed inner = false) ∧
        row.Pairwise nested.ListedBefore) ∧
        row.Nodup ∧
        (let cause : ScopeError :=
          .openInside (nested.pathName scope) ((row.take 10).map nested.pathName)
        nested.requireUsable scope = .error cause ∧
          nested.close scope = .error cause nested) ∧
        row.take 10 ≠ [] ∧ (row.length ≤ 10 → row.take 10 = row)) ∧
    (∀ cause after, nested.close scope = .error cause after → after = nested) ∧
    ∀ label payload cause after,
      nested.enter scope label payload = .error cause after → after = nested := by
  intro nested
  have wellNested : nested.WellNested := (Grown.ofCalls label payload calls).wellNested
  refine ⟨wellNested.requireUsable_iff known, ?_, fun _ _ => NestedScopes.eq_of_close_eq_error,
    fun _ _ _ _ => NestedScopes.eq_of_enter_eq_error⟩
  rintro isOpen ⟨inner, inside, innerOpen⟩
  have refused := wellNested.requireUsable_of_open_inside known isOpen inside innerOpen
  have listed := (wellNested.mem_openWithin_iff scope inner).mpr ⟨inside, innerOpen⟩
  refine ⟨nested.openWithin scope, ⟨⟨wellNested.mem_openWithin_iff scope,
    wellNested.openWithin_inOrder scope⟩, wellNested.nodup_openWithin scope,
    ⟨refused, NestedScopes.close_of_refused isOpen refused⟩, ?_, List.take_of_length_le⟩, ?_⟩
  · intro nothing
    simp only [List.take_eq_nil_iff, Nat.reduceEqDiff, false_or] at nothing
    simp [nothing] at listed
  · rintro row ⟨⟨mem_iff, inOrder⟩, _⟩
    exact wellNested.eq_openWithin mem_iff inOrder

/-- Two scopes with scopes inside them, the second one filled first, and one that is closed. -/
def branchingCalls : List (ScopeCall Nat) :=
  [.enter .root (some "a") 1, .enter .root (some "b") 2, .enter ⟨2⟩ none 3, .enter ⟨1⟩ none 4,
    .close ⟨4⟩, .enter ⟨1⟩ none 5, .enter ⟨3⟩ (some "c") 6]

/-- The scope inside the first one comes before the one inside the second, though opened later. -/
theorem refusal_lists_open_scopes_of_two_branches :
    let nested := (ofCalls none 0 branchingCalls).nested
    ∃ row : List ScopeId,
      (∀ inner, inner ∈ row ↔
        .root ∈ nested.enclosing inner ∧ nested.isClosed inner = false) ∧
      row.Pairwise nested.ListedBefore ∧
      (row.take 10).map nested.pathName =
        ["root/a", "root/b", "root/a/1", "root/b/0", "root/b/0/c"] ∧
      nested.close .root = .error (.openInside "root"
        ["root/a", "root/b", "root/a/1", "root/b/0", "root/b/0/c"]) nested := by
  intro nested
  have known : ScopeId.root.index < nested.size := by decide +kernel
  have isOpen : nested.isClosed .root = false := by decide +kernel
  have innerOpen : .root ∈ nested.enclosing ⟨6⟩ ∧ nested.isClosed ⟨6⟩ = false := by decide +kernel
  have refusal : nested.requireUsable .root = .error (.openInside "root"
      ["root/a", "root/b", "root/a/1", "root/b/0", "root/b/0/c"]) := by decide +kernel
  rcases refusal_lists_open_scopes_inside none 0 branchingCalls known with ⟨_, lists, _⟩
  rcases lists isOpen ⟨_, innerOpen⟩ with
    ⟨row, ⟨⟨mem_iff, inOrder⟩, _, ⟨refused, notClosed⟩, _⟩, _⟩
  have same := refusal.symm.trans refused
  simp only [Except.error.injEq, ScopeError.openInside.injEq] at same
  refine ⟨row, mem_iff, inOrder, same.2.symm, ?_⟩
  simp only [same.1, same.2]
  exact notClosed

end ScopeRun

end JvmEmit
