import JvmEmit.Proofs.Scope.Extension
import JvmEmit.Proofs.Scope.OpenPath
import Mathlib.Data.List.Induction

/-!
# Runs of nested scopes

A run is a list of calls that enter scopes, close them and replace payloads, from the outermost scope
alone. Calls may fail, and then change nothing. The run keeps, beside the scopes, which scopes were
entered and which closings were answered with the news that the scope was open before.

Whatever the calls are, the scopes form a tree that grows at the end of the numbering and closes from
its leaves. A call to close looks at the scopes directly inside a scope only, and a call to enter at
the scope around the new one only. That all scopes around an open scope are open follows over the
run, and with it that no scope is closed twice or opened again.
-/

namespace JvmEmit

/-- The calls that change nested scopes. -/
inductive ScopeCall (α : Type) where
  | enter (parent : ScopeId) (label : Option String) (payload : α)
  | close (scope : ScopeId)
  | replacePayload (scope : ScopeId) (payload : α)

namespace ScopeCall

variable {α : Type}

/-- The scopes after a call, whether the call succeeds or fails. -/
def after (call : ScopeCall α) (nested : NestedScopes α) : NestedScopes α :=
  match call with
  | .enter parent label payload => Outcome.state (nested.enter parent label payload)
  | .close scope => Outcome.state (nested.close scope)
  | .replacePayload scope payload => Outcome.state (nested.replacePayload scope payload)

/-- The scope that a call enters, if it is a call to enter one and succeeds. -/
def entered? (call : ScopeCall α) (nested : NestedScopes α) : Option ScopeId :=
  match call with
  | .enter parent label payload =>
      match nested.enter parent label payload with
      | .ok child _ => some child
      | .error .. => none
  | .close .. | .replacePayload .. => none

/-- The scope that a call closes, if the call answers that the scope was open before. -/
def closed? (call : ScopeCall α) (nested : NestedScopes α) : Option ScopeId :=
  match call with
  | .close scope =>
      match nested.close scope with
      | .ok true _ => some scope
      | .ok false _ | .error .. => none
  | .enter .. | .replacePayload .. => none

end ScopeCall

/-- Nested scopes together with what the calls on them have done. -/
structure ScopeRun (α : Type) where
  nested : NestedScopes α
  /-- The scopes that were entered, in this order. -/
  entered : List ScopeId
  /-- The scopes whose closing was answered with the news that they were open, in this order. -/
  closed : List ScopeId

namespace NestedScopes

variable {α : Type}

/-- The scopes that have been opened so far, closed ones included, in the order of opening. -/
def ids (nested : NestedScopes α) : List ScopeId :=
  (List.range nested.size).map ScopeId.mk

theorem mem_ids_iff (nested : NestedScopes α) (scope : ScopeId) :
    scope ∈ nested.ids ↔ scope.index < nested.size := by
  rw [ids, List.mem_map]
  constructor
  · rintro ⟨index, inRange, rfl⟩
    exact List.mem_range.mp inRange
  · intro known
    exact ⟨scope.index, List.mem_range.mpr known, rfl⟩

theorem ids_pairwise (nested : NestedScopes α) :
    nested.ids.Pairwise fun scope other => scope.index < other.index := by
  apply List.pairwise_map.mpr
  exact List.pairwise_lt_range

theorem nodup_ids (nested : NestedScopes α) : nested.ids.Nodup := by
  apply nested.ids_pairwise.imp
  rintro scope other before rfl
  exact Nat.lt_irrefl _ before

theorem ids_of_enter {nested after : NestedScopes α} {parent child : ScopeId}
    {label : Option String} {payload : α}
    (entered : nested.enter parent label payload = .ok child after) :
    after.ids = nested.ids ++ [child] := by
  rw [ids, size_of_enter entered, List.range_succ, List.map_append, child_eq_of_enter entered]
  rfl

theorem replacePayload_cases (nested : NestedScopes α) (scope : ScopeId) (payload : α) :
    (∃ old, nested.replacePayload scope payload =
      .ok old (nested.modifyPayload scope fun _ => payload)) ∨
    ∃ cause, nested.replacePayload scope payload = .error cause nested := by
  cases found : nested.payload? scope with
  | none => exact .inr ⟨_, by rw [replacePayload, found]⟩
  | some old => exact .inl ⟨old, by rw [replacePayload, found]⟩

namespace WellNested

variable {nested : NestedScopes α}

/-- A scope is listed once by its parent and by no other scope. -/
theorem count_inner (wellNested : nested.WellNested) {scope parent : ScopeId}
    (inside : nested.parent? scope = some parent) (outer : ScopeId) :
    (nested.inner outer).count scope = if outer = parent then 1 else 0 := by
  have known := (nested.mem_ids_iff scope).mpr (known_of_parent? inside)
  have listed : nested.inner outer =
      nested.ids.filter fun scope => nested.parent? scope = some outer :=
    wellNested.inner_eq_openedInside outer
  rw [listed, (nested.nodup_ids.filter _).count]
  simp [known, inside, eq_comm]

/-- Every path ends at the outermost scope. -/
theorem getLast?_path (wellNested : nested.WellNested) {scope : ScopeId}
    (known : scope.index < nested.size) : (nested.path scope).getLast? = some .root := by
  induction scope using wellNested.outward_induction with
  | top scope outside =>
      rw [wellNested.outermost known outside, wellNested.path_root]
      rfl
  | inside scope parent inside ih =>
      have earlier := wellNested.parent_earlier inside
      rw [wellNested.path_eq_cons inside, List.getLast?_cons, ih (Nat.lt_trans earlier known)]
      rfl

end WellNested

end NestedScopes

namespace ScopeRun

variable {α : Type}

/-- The run with one more call. -/
def record (run : ScopeRun α) (call : ScopeCall α) : ScopeRun α where
  nested := call.after run.nested
  entered := run.entered ++ (call.entered? run.nested).toList
  closed := run.closed ++ (call.closed? run.nested).toList

/-- The run without calls, which has the outermost scope alone. -/
def initial (label : Option String) (payload : α) : ScopeRun α where
  nested := .ofRoot label payload
  entered := []
  closed := []

/-- The run of a row of calls on the outermost scope alone. -/
def ofCalls (label : Option String) (payload : α) (calls : List (ScopeCall α)) : ScopeRun α :=
  calls.foldl record (initial label payload)

theorem ofCalls_append (label : Option String) (payload : α) (calls : List (ScopeCall α))
    (call : ScopeCall α) :
    ofCalls label payload (calls ++ [call]) = (ofCalls label payload calls).record call := by
  rw [ofCalls, List.foldl_append]
  rfl

/-! ## What a call can do -/

/-- The changes that one call can make to a run. -/
inductive Step : ScopeRun α → ScopeRun α → Prop where
  | idle (run : ScopeRun α) : Step run run
  | enter {nested after : NestedScopes α} {parent child : ScopeId} {label : Option String}
      {payload : α} {entered closed : List ScopeId}
      (accepted : nested.enter parent label payload = .ok child after) :
      Step ⟨nested, entered, closed⟩ ⟨after, entered ++ [child], closed⟩
  | close {nested : NestedScopes α} {scope : ScopeId} {entered closed : List ScopeId}
      (usable : nested.requireUsable scope = .ok ()) :
      Step ⟨nested, entered, closed⟩ ⟨nested.closedAt scope, entered, closed ++ [scope]⟩
  | replacePayload {nested : NestedScopes α} {entered closed : List ScopeId} (scope : ScopeId)
      (payload : α) :
      Step ⟨nested, entered, closed⟩
        ⟨nested.modifyPayload scope fun _ => payload, entered, closed⟩

theorem step_record (run : ScopeRun α) (call : ScopeCall α) : Step run (run.record call) := by
  rcases run with ⟨nested, entered, closed⟩
  cases call with
  | enter parent label payload =>
      rcases nested.enter_cases parent label payload with
        ⟨_, after, accepted⟩ | ⟨cause, _, refused⟩
      · simp only [record, ScopeCall.after, ScopeCall.entered?, ScopeCall.closed?, accepted,
          Outcome.state_ok, Option.toList_some, Option.toList_none, List.append_nil]
        exact .enter accepted
      · simp only [record, ScopeCall.after, ScopeCall.entered?, ScopeCall.closed?, refused,
          Outcome.state_error, Option.toList_none, List.append_nil]
        exact .idle _
  | close scope =>
      rcases nested.close_cases scope with
        ⟨usable, result⟩ | ⟨_, result⟩ | ⟨cause, _, result⟩
      · simp only [record, ScopeCall.after, ScopeCall.entered?, ScopeCall.closed?, result,
          Outcome.state_ok, Option.toList_some, Option.toList_none, List.append_nil]
        exact .close usable
      · simp only [record, ScopeCall.after, ScopeCall.entered?, ScopeCall.closed?, result,
          Outcome.state_ok, Option.toList_none, List.append_nil]
        exact .idle _
      · simp only [record, ScopeCall.after, ScopeCall.entered?, ScopeCall.closed?, result,
          Outcome.state_error, Option.toList_none, List.append_nil]
        exact .idle _
  | replacePayload scope payload =>
      rcases nested.replacePayload_cases scope payload with ⟨old, result⟩ | ⟨cause, refused⟩
      · simp only [record, ScopeCall.after, ScopeCall.entered?, ScopeCall.closed?, result,
          Outcome.state_ok, Option.toList_none, List.append_nil]
        exact .replacePayload scope payload
      · simp only [record, ScopeCall.after, ScopeCall.entered?, ScopeCall.closed?, refused,
          Outcome.state_error, Option.toList_none, List.append_nil]
        exact .idle _

/-- What holds of a run and is kept by every step still holds when the run goes on. -/
theorem continued_induction {motive : ScopeRun α → Prop} (label : Option String) (payload : α)
    (calls : List (ScopeCall α)) (start : motive (ofCalls label payload calls))
    (kept : ∀ {run after : ScopeRun α}, motive run → Step run after → motive after)
    (more : List (ScopeCall α)) : motive (ofCalls label payload (calls ++ more)) := by
  induction more using List.reverseRecOn with
  | nil => simpa using start
  | append_singleton more call ih =>
      rw [← List.append_assoc, ofCalls_append]
      exact kept ih (step_record _ call)

theorem Step.nested_extends {run after : ScopeRun α} (step : Step run after) :
    run.nested.Extends after.nested := by
  cases step with
  | idle => exact .refl _
  | enter accepted => exact .enter accepted
  | close usable => exact .closedAt ((NestedScopes.requireUsable_eq_ok_iff _ _).mp usable).1
  | replacePayload scope payload => exact .modifyPayload _ scope fun _ => payload

theorem extends_ofCalls_append (label : Option String) (payload : α)
    (calls more : List (ScopeCall α)) :
    (ofCalls label payload calls).nested.Extends
      (ofCalls label payload (calls ++ more)).nested := by
  let first := ofCalls label payload calls
  apply continued_induction (motive := fun run => first.nested.Extends run.nested) _ _ _ (.refl _)
  intro run after extended next
  exact extended.trans next.nested_extends

/-! ## What the calls keep -/

/-- The scopes form a tree, and the run has all that were entered and all that were closed. -/
structure Grown (run : ScopeRun α) : Prop where
  wellNested : run.nested.WellNested
  root_cons_entered : .root :: run.entered = run.nested.ids
  count_closed : ∀ scope, run.closed.count scope = if run.nested.isClosed scope then 1 else 0

namespace Grown

variable {run after : ScopeRun α}

theorem initial (label : Option String) (payload : α) :
    (ScopeRun.initial label payload).Grown := by
  refine ⟨.ofRoot label payload, rfl, ?_⟩
  intro scope
  rcases scope with ⟨index⟩
  cases index with
  | zero => rfl
  | succ index =>
      rw [ScopeRun.initial, NestedScopes.isClosed_eq_false_of_unknown (by simp)]
      rfl

theorem step (step : Step run after) (grown : run.Grown) : after.Grown := by
  cases step with
  | idle => exact grown
  | enter accepted =>
      refine ⟨grown.wellNested.enter accepted, ?_, ?_⟩
      · rw [NestedScopes.ids_of_enter accepted, ← List.cons_append, grown.root_cons_entered]
      · intro scope
        rw [NestedScopes.isClosed_of_enter accepted]
        exact grown.count_closed scope
  | close usable =>
      rename_i nested closing entered closed
      have isUsable := (NestedScopes.requireUsable_eq_ok_iff _ _).mp usable
      refine ⟨grown.wellNested.closedAt usable, ?_, ?_⟩
      · rw [NestedScopes.ids, NestedScopes.size_closedAt]
        exact grown.root_cons_entered
      · intro scope
        rw [NestedScopes.isClosed_closedAt _ _ _ isUsable.1, List.count_append,
          grown.count_closed scope]
        by_cases same : closing = scope
        · subst same
          simp [isUsable.2.1]
        · simp [same]
  | replacePayload scope payload =>
      refine ⟨grown.wellNested.modifyPayload scope fun _ => payload, ?_, ?_⟩
      · rw [NestedScopes.ids, NestedScopes.size_modifyPayload]
        exact grown.root_cons_entered
      · intro other
        rw [NestedScopes.isClosed_modifyPayload]
        exact grown.count_closed other

theorem ofCalls (label : Option String) (payload : α) (calls : List (ScopeCall α)) :
    (ScopeRun.ofCalls label payload calls).Grown := by
  apply continued_induction (motive := Grown) label payload [] (.initial label payload)
  intro run after grown next
  exact grown.step next

theorem parent?_root (grown : run.Grown) : run.nested.parent? .root = none := by
  have path := grown.wellNested.path_root
  apply (NestedScopes.enclosing_eq_nil_iff _ _).mp
  exact (List.cons.inj path).2

theorem exists_parent (grown : run.Grown) {scope : ScopeId}
    (known : scope.index < run.nested.size) (inner : scope ≠ .root) :
    ∃ parent, run.nested.parent? scope = some parent := by
  apply Option.ne_none_iff_exists'.mp
  intro outside
  exact inner (grown.wellNested.outermost known outside)

end Grown

/-! ## What lasts -/

/-- A later state of a run: closed scopes are still closed, and more scopes may have been entered. -/
structure Outlives (earlier later : ScopeRun α) : Prop where
  closed : ∀ scope, earlier.nested.isClosed scope = true → later.nested.isClosed scope = true
  entered : earlier.entered <+: later.entered

namespace Outlives

variable {earlier later : ScopeRun α}

theorem refl (run : ScopeRun α) : run.Outlives run :=
  ⟨fun _ => id, List.prefix_refl _⟩

theorem trans {middle : ScopeRun α} (first : earlier.Outlives middle)
    (second : middle.Outlives later) : earlier.Outlives later :=
  ⟨fun scope closed => second.closed scope (first.closed scope closed),
    first.entered.trans second.entered⟩

theorem step (step : Step earlier later) : earlier.Outlives later := by
  refine ⟨fun _ => step.nested_extends.isClosed_stays, ?_⟩
  cases step with
  | idle => exact List.prefix_refl _
  | enter accepted => exact List.prefix_append _ _
  | close usable => exact List.prefix_refl _
  | replacePayload scope payload => exact List.prefix_refl _

theorem ofCalls_append (label : Option String) (payload : α) (calls more : List (ScopeCall α)) :
    (ofCalls label payload calls).Outlives (ofCalls label payload (calls ++ more)) := by
  apply continued_induction (motive := (ofCalls label payload calls).Outlives) _ _ _ (.refl _)
  intro run after outlives next
  exact outlives.trans (.step next)

end Outlives

/--
After every run, each scope but the outermost one has a parent with a smaller number, and is listed
once by its parent and by no other scope; every scope lists those it is the parent of, in the order
of opening. The path of a scope goes from parent to parent, to ever smaller numbers, and ends at the
outermost scope. All scopes around an open scope are open. The scopes that were entered have all
different numbers, and a scope was reported as closed once if it is closed, and never if it is open.
However the run goes on, a closed scope stays closed and the scopes entered so far remain the first.
-/
theorem scopes_form_tree_closed_from_leaves (label : Option String) (payload : α)
    (calls : List (ScopeCall α)) :
    let run := ofCalls label payload calls
    let nested := run.nested
    nested.parent? .root = none ∧
    (∀ scope ∈ nested.ids, scope ≠ .root → ∃ parent, nested.parent? scope = some parent ∧
      parent.index < scope.index ∧
      ∀ outer, (nested.inner outer).count scope = if outer = parent then 1 else 0) ∧
    (∀ outer,
      nested.inner outer = nested.ids.filter fun scope => nested.parent? scope = some outer) ∧
    (∀ scope ∈ nested.ids,
      (nested.path scope).IsChain (fun inner outer => nested.parent? inner = some outer) ∧
      (nested.path scope).Pairwise (fun inner outer => outer.index < inner.index) ∧
      (nested.path scope).getLast? = some .root) ∧
    (∀ scope, nested.isClosed scope = false →
      ∀ outer ∈ nested.enclosing scope, nested.isClosed outer = false) ∧
    (.root :: run.entered = nested.ids ∧ nested.ids.Nodup) ∧
    (∀ scope, run.closed.count scope = if nested.isClosed scope then 1 else 0) ∧
    ∀ more, let later := ofCalls label payload (calls ++ more)
      (∀ scope, nested.isClosed scope = true → later.nested.isClosed scope = true) ∧
        run.entered <+: later.entered := by
  intro run nested
  have grown : run.Grown := .ofCalls label payload calls
  refine ⟨grown.parent?_root, ?_, grown.wellNested.inner_eq_openedInside, ?_, ?_,
    ⟨grown.root_cons_entered, nested.nodup_ids⟩, grown.count_closed, ?_⟩
  · intro scope member inside
    have known := (nested.mem_ids_iff scope).mp member
    rcases grown.exists_parent known inside with ⟨parent, isParent⟩
    exact ⟨parent, isParent, grown.wellNested.parent_earlier isParent,
      grown.wellNested.count_inner isParent⟩
  · intro scope member
    have known := (nested.mem_ids_iff scope).mp member
    exact ⟨grown.wellNested.path_isChain scope, grown.wellNested.path_pairwise scope,
      grown.wellNested.getLast?_path known⟩
  · intro scope isOpen outer around
    exact grown.wellNested.open_of_mem_path isOpen (List.mem_cons_of_mem _ around)
  · intro more
    have outlives : run.Outlives _ := .ofCalls_append label payload calls more
    exact ⟨outlives.closed, outlives.entered⟩

/-- Two scopes one inside the other, closed from the inner one on, and another one beside them. -/
def nestedCalls : List (ScopeCall Nat) :=
  [.enter .root none 1, .enter ⟨1⟩ none 2, .close ⟨1⟩, .close ⟨2⟩, .close ⟨1⟩, .close ⟨1⟩,
    .replacePayload ⟨2⟩ 5, .enter ⟨2⟩ none 3, .enter .root none 4]

/-- The inner scope keeps its place, and stays closed while the outermost scope is closed as well. -/
theorem scopes_form_tree_closed_from_leaves_with_sibling :
    let run := ofCalls none 0 nestedCalls
    (run.entered = [⟨1⟩, ⟨2⟩, ⟨3⟩] ∧ run.closed = [⟨2⟩, ⟨1⟩]) ∧
    (run.nested.path ⟨2⟩).Pairwise (fun inner outer => outer.index < inner.index) ∧
    (∀ outer, (run.nested.inner outer).count ⟨2⟩ = if outer = ⟨1⟩ then 1 else 0) ∧
    (ofCalls none 0 (nestedCalls ++ [.close ⟨3⟩, .close .root])).nested.isClosed ⟨2⟩ = true := by
  intro run
  have tree := scopes_form_tree_closed_from_leaves none 0 nestedCalls
  have member : ⟨2⟩ ∈ run.nested.ids := by decide +kernel
  have closed : run.nested.isClosed ⟨2⟩ = true := by decide +kernel
  have inside : run.nested.parent? ⟨2⟩ = some ⟨1⟩ := by decide +kernel
  rcases tree.2.1 ⟨2⟩ member (by decide) with ⟨parent, isParent, _, listed⟩
  cases isParent.symm.trans inside
  refine ⟨?_, (tree.2.2.2.1 ⟨2⟩ member).2.1, listed, ?_⟩
  · decide +kernel
  · exact (tree.2.2.2.2.2.2.2 [.close ⟨3⟩, .close .root]).1 ⟨2⟩ closed

end ScopeRun

end JvmEmit
