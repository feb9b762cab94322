import JvmEmit.Proofs.Scope.Extension
import JvmEmit.Proofs.Slot.Resolution

/-!
# The lasting view of an open scope

As long as a scope is open, nothing is declared in the scopes around it, whatever other scopes are
opened there, filled and closed. So the frames around the scope stay as they are, and what the scope
sees can only grow by its own variables, behind the others. A look-up that once found a variable from
the scope finds the same variable until the scope is closed.

A scope is checked only for open scopes directly inside it before a variable is declared. That this
protects the scopes around an open scope at any distance is the law of nesting that a closed scope
has no open scope inside it.
-/

namespace JvmEmit

variable {τ : Type}

theorem getElem?_of_prefix {row longer : List (Variable τ)} (begins : row <+: longer) {index : Nat}
    {declared : Variable τ} (found : row[index]? = some declared) :
    longer[index]? = some declared := by
  rcases List.getElem?_eq_some_iff.mp found with ⟨inRange, rfl⟩
  exact List.prefix_iff_getElem?.mp begins index inRange

namespace SlotTable

/-- The scope sees in the later table what it sees in the earlier one, and perhaps more of its own. -/
structure KeepsView (earlier later : SlotTable τ) (scope : ScopeId) : Prop where
  enclosing : later.scopes.enclosing scope = earlier.scopes.enclosing scope
  around : ∀ outer ∈ earlier.scopes.enclosing scope,
    later.frame outer = earlier.frame outer ∧ later.frames outer = earlier.frames outer
  visible : earlier.visible scope <+: later.visible scope

namespace KeepsView

variable {earlier middle later : SlotTable τ} {scope : ScopeId}

theorem refl (table : SlotTable τ) (scope : ScopeId) : table.KeepsView table scope :=
  ⟨rfl, fun _ _ => ⟨rfl, rfl⟩, List.prefix_refl _⟩

theorem trans (first : earlier.KeepsView middle scope) (second : middle.KeepsView later scope) :
    earlier.KeepsView later scope := by
  refine ⟨second.enclosing.trans first.enclosing, ?_, first.visible.trans second.visible⟩
  intro outer around
  have before := first.around outer around
  rw [← first.enclosing] at around
  have behind := second.around outer around
  exact ⟨behind.1.trans before.1, behind.2.trans before.2⟩

theorem resolveAmong (keeps : earlier.KeepsView later scope)
    (isOpen : earlier.scopes.requireOpen scope = .ok ())
    (laterOpen : later.scopes.requireOpen scope = .ok ()) {role : VariableRole}
    {count laterCount index : Nat} {declared : Variable τ}
    (resolved : earlier.resolveAmong scope role count index = .ok declared) :
    later.resolveAmong scope role laterCount index = .ok declared := by
  rw [resolveAmong_eq_ok_iff isOpen] at resolved
  rw [resolveAmong_eq_ok_iff laterOpen]
  exact getElem?_of_prefix (keeps.visible.filter _) resolved

end KeepsView

/-! ## One step -/

variable [Slotted τ]

section Step

variable {table after : SlotTable τ} {scope : ScopeId}

theorem Step.scopes_extend (step : table.Step after) : table.scopes.Extends after.scopes := by
  cases step with
  | idle => exact .refl _
  | enter entered => exact .enter entered
  | close usable => exact .closedAt ((NestedScopes.requireUsable_eq_ok_iff _ _).mp usable).1
  | declare accepted type unnamed =>
      simp only [adding]
      apply NestedScopes.Extends.modifyPayload

/-- No step changes a frame around an open scope, because no variable is declared there. -/
theorem Step.frames_eq_of_around (wellNested : table.scopes.WellNested) (step : table.Step after)
    (known : scope.index < table.scopes.size) (scopeOpen : after.scopes.isClosed scope = false)
    {outer : ScopeId} (around : outer ∈ table.scopes.enclosing scope)
    (outerOpen : after.scopes.isClosed outer = false) :
    after.frames outer = table.frames outer := by
  have outerEarlier := wellNested.earlier_of_mem_enclosing around
  rcases step.frames_cases wellNested outerOpen with
    ⟨_, kept⟩ | ⟨_, unknown, _⟩ | ⟨role, name, type, accepted, _⟩
  · exact kept
  · omega
  · -- a scope that declares has no open scope inside it
    have usable := ((requireDeclarable_eq_ok_iff _ _ _ _).mp accepted).1
    have openBefore := step.scopes_extend.open_before scopeOpen
    exact absurd around (wellNested.not_mem_enclosing_of_usable usable openBefore)

theorem Step.visible_prefix (wellNested : table.scopes.WellNested) (step : table.Step after)
    (known : scope.index < table.scopes.size) (scopeOpen : after.scopes.isClosed scope = false) :
    table.visible scope <+: after.visible scope := by
  rcases step.frames_cases wellNested scopeOpen with
    ⟨_, kept⟩ | ⟨_, unknown, _⟩ | ⟨role, name, type, _, _, grown⟩
  · exact ⟨[], (List.append_nil _).trans (congrArg variablesOf kept).symm⟩
  · omega
  · rw [visible_eq_variablesOf, visible_eq_variablesOf, grown, frames_eq_cons known]
    simp [VariableFrame.push, ← List.append_assoc]

theorem Step.keepsView (wellNested : table.scopes.WellNested) (step : table.Step after)
    (afterNested : after.scopes.WellNested) (known : scope.index < table.scopes.size)
    (scopeOpen : after.scopes.isClosed scope = false) : table.KeepsView after scope := by
  have enclosing := step.scopes_extend.enclosing_eq known
  refine ⟨enclosing, ?_, step.visible_prefix wellNested known scopeOpen⟩
  intro outer around
  have outerKnown := Nat.lt_trans (wellNested.earlier_of_mem_enclosing around) known
  have outerOpen : after.scopes.isClosed outer = false := by
    apply afterNested.open_of_mem_path scopeOpen
    rw [NestedScopes.path, enclosing]
    exact List.mem_cons_of_mem _ around
  have frames := step.frames_eq_of_around wellNested known scopeOpen around outerOpen
  refine ⟨?_, frames⟩
  have stillKnown := Nat.lt_of_lt_of_le outerKnown step.scopes_extend.size_le
  rw [frames_eq_cons outerKnown, frames_eq_cons stillKnown] at frames
  exact (List.cons.inj frames).1

end Step

/-! ## Runs -/

theorem extends_ofCalls_append (label : Option String) (calls more : List (SlotCall τ)) :
    (ofCalls label calls).scopes.Extends (ofCalls label (calls ++ more)).scopes := by
  induction more using List.reverseRecOn with
  | nil => simpa using NestedScopes.Extends.refl _
  | append_singleton more call ih =>
      rw [← List.append_assoc, ofCalls_append]
      exact ih.trans (call.step_after _).scopes_extend

/-- A scope that is open after further calls was open before them and keeps its view. -/
theorem keepsView_ofCalls_append (label : Option String) (calls more : List (SlotCall τ))
    {scope : ScopeId} (known : scope.index < (ofCalls label calls).scopes.size)
    (scopeOpen : (ofCalls label (calls ++ more)).scopes.isClosed scope = false) :
    (ofCalls label calls).scopes.isClosed scope = false ∧
      (ofCalls label calls).KeepsView (ofCalls label (calls ++ more)) scope := by
  induction more using List.reverseRecOn with
  | nil =>
      rw [List.append_nil] at scopeOpen ⊢
      exact ⟨scopeOpen, .refl _ _⟩
  | append_singleton more call ih =>
      have step := call.step_after (ofCalls label (calls ++ more))
      have extended := extends_ofCalls_append label calls more
      have knownBefore := Nat.lt_of_lt_of_le known extended.size_le
      have nested := (Coherent.ofCalls label (calls ++ more)).laidOut.wellNested
      have nestedAfter := ((Coherent.ofCalls label (calls ++ more)).step step).laidOut.wellNested
      rw [← List.append_assoc, ofCalls_append] at scopeOpen ⊢
      -- the scope is never opened again, so it was open in front of the last call
      rcases ih (step.scopes_extend.open_before scopeOpen) with ⟨openFirst, keeps⟩
      exact ⟨openFirst, keeps.trans (step.keepsView nested nestedAfter knownBefore scopeOpen)⟩

/-! ## Look-ups that last -/

namespace KeepsView

variable {earlier later : SlotTable τ} {scope : ScopeId} {declared : Variable τ}

theorem resolve (keeps : earlier.KeepsView later scope) (coherent : earlier.Coherent)
    (laterCoherent : later.Coherent) (isOpen : earlier.scopes.requireOpen scope = .ok ())
    (laterOpen : later.scopes.requireOpen scope = .ok ()) {name : String}
    (resolved : earlier.resolve scope name = .ok declared) :
    later.resolve scope name = .ok declared := by
  rw [coherent.resolve_eq_ok_iff isOpen] at resolved
  rw [laterCoherent.resolve_eq_ok_iff laterOpen]
  exact ⟨keeps.visible.subset resolved.1, resolved.2⟩

theorem resolveIndex (keeps : earlier.KeepsView later scope) (coherent : earlier.Coherent)
    (laterCoherent : later.Coherent) (isOpen : earlier.scopes.requireOpen scope = .ok ())
    (laterOpen : later.scopes.requireOpen scope = .ok ()) {index : Nat}
    (resolved : earlier.resolveIndex scope index = .ok declared) :
    later.resolveIndex scope index = .ok declared := by
  rw [coherent.resolveIndex_eq_ok_iff isOpen] at resolved
  rw [laterCoherent.resolveIndex_eq_ok_iff laterOpen]
  exact getElem?_of_prefix keeps.visible resolved

theorem receiver? (keeps : earlier.KeepsView later scope) (coherent : earlier.Coherent)
    (laterCoherent : later.Coherent) (scopeOpen : earlier.scopes.isClosed scope = false)
    (laterOpen : later.scopes.isClosed scope = false)
    (found : earlier.receiver? scope = some declared) : later.receiver? scope = some declared := by
  rw [coherent.receiver?_eq_some_iff scopeOpen] at found
  rw [laterCoherent.receiver?_eq_some_iff laterOpen]
  exact ⟨keeps.visible.subset found.1, found.2⟩

end KeepsView

/--
Take any run and any continuation of it, and a scope that exists by then and is still open at the
end. The scopes around it are the same, with the same variables, slots, indices and phases; the
variables in sight at first are a front part of those in sight at the end; and each look-up from the
scope that found a variable finds the same one at the end.
-/
theorem view_lasts_while_scope_is_open (label : Option String) (calls more : List (SlotCall τ))
    {scope : ScopeId} (known : scope.index < (ofCalls label calls).scopes.size)
    (isOpen : (ofCalls label (calls ++ more)).scopes.requireOpen scope = .ok ()) :
    (ofCalls label (calls ++ more)).scopes.enclosing scope =
      (ofCalls label calls).scopes.enclosing scope ∧
    (∀ outer ∈ (ofCalls label calls).scopes.enclosing scope,
      (ofCalls label (calls ++ more)).declaredIn outer = (ofCalls label calls).declaredIn outer ∧
      (ofCalls label (calls ++ more)).firstSlot outer = (ofCalls label calls).firstSlot outer ∧
      (ofCalls label (calls ++ more)).nextSlot outer = (ofCalls label calls).nextSlot outer ∧
      (ofCalls label (calls ++ more)).visibleCount outer =
        (ofCalls label calls).visibleCount outer ∧
      (ofCalls label (calls ++ more)).phase outer = (ofCalls label calls).phase outer) ∧
    (ofCalls label calls).visible scope <+: (ofCalls label (calls ++ more)).visible scope ∧
    (∀ name declared, (ofCalls label calls).resolve scope name = .ok declared →
      (ofCalls label (calls ++ more)).resolve scope name = .ok declared) ∧
    (∀ index declared, (ofCalls label calls).resolveIndex scope index = .ok declared →
      (ofCalls label (calls ++ more)).resolveIndex scope index = .ok declared) ∧
    (∀ index declared, (ofCalls label calls).resolveArgument scope index = .ok declared →
      (ofCalls label (calls ++ more)).resolveArgument scope index = .ok declared) ∧
    (∀ index declared, (ofCalls label calls).resolveLocal scope index = .ok declared →
      (ofCalls label (calls ++ more)).resolveLocal scope index = .ok declared) ∧
    ∀ receiver, (ofCalls label calls).receiver? scope = some receiver →
      (ofCalls label (calls ++ more)).receiver? scope = some receiver := by
  have coherent := Coherent.ofCalls label calls
  have laterCoherent := Coherent.ofCalls label (calls ++ more)
  have laterOpen := ((NestedScopes.requireOpen_eq_ok_iff _ _).mp isOpen).2
  rcases keepsView_ofCalls_append label calls more known laterOpen with ⟨openBefore, keeps⟩
  have isOpenBefore := (NestedScopes.requireOpen_eq_ok_iff _ _).mpr ⟨known, openBefore⟩
  refine ⟨keeps.enclosing, ?_, keeps.visible, ?_, ?_, ?_, ?_, ?_⟩
  · intro outer around
    rcases keeps.around outer around with ⟨frame, frames⟩
    rw [declaredIn, firstSlot, nextSlot, visibleCount, phase, frame, frames]
    exact ⟨rfl, rfl, rfl, rfl, rfl⟩
  · intro name declared resolved
    exact keeps.resolve coherent laterCoherent isOpenBefore isOpen resolved
  · intro index declared resolved
    exact keeps.resolveIndex coherent laterCoherent isOpenBefore isOpen resolved
  · intro index declared resolved
    exact keeps.resolveAmong isOpenBefore isOpen resolved
  · intro index declared resolved
    exact keeps.resolveAmong isOpenBefore isOpen resolved
  · intro receiver found
    exact keeps.receiver? coherent laterCoherent openBefore laterOpen found

/-- A scope around a scope, with a variable each. -/
def openScope : List (SlotCall StackKind) :=
  [.declareReceiver .root .reference, .enter .root none, .declareLocal ⟨1⟩ .long (some "x")]

/-- Another scope is opened around the scope and filled, and calls fail. -/
def callsAround : List (SlotCall StackKind) :=
  [.enter .root none, .declareLocal ⟨2⟩ .double (some "x"), .declareLocal .root .int (some "y"),
    .close .root, .close ⟨2⟩, .declareLocal ⟨1⟩ .int (some "z"), .declareLocal ⟨1⟩ .int (some "x")]

theorem view_lasts_beside_sibling :
    ((⟨1⟩ : ScopeId).index < (ofCalls none openScope).scopes.size ∧
      (ofCalls none (openScope ++ callsAround)).scopes.requireOpen ⟨1⟩ = .ok ()) ∧
      (ofCalls none (openScope ++ callsAround)).nextSlot .root =
        (ofCalls none openScope).nextSlot .root ∧
      (ofCalls none (openScope ++ callsAround)).resolve ⟨1⟩ "x" =
        .ok ⟨some "x", .long, ⟨1⟩, 1, .localVariable⟩ := by
  have known : (⟨1⟩ : ScopeId).index < (ofCalls none openScope).scopes.size := by decide
  have isOpen : (ofCalls none (openScope ++ callsAround)).scopes.requireOpen ⟨1⟩ = .ok () := by
    decide
  rcases view_lasts_while_scope_is_open none openScope callsAround known isOpen with
    ⟨_, around, _, resolves, _⟩
  refine ⟨⟨known, isOpen⟩, (around .root (by decide)).2.2.1, resolves "x" _ (by decide)⟩

end SlotTable

end JvmEmit
