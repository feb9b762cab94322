import JvmEmit.Proofs.Name.Search
import JvmEmit.Proofs.Scope.Nesting
import Mathlib.Data.List.Induction

/-!
# Runs of a name supply

A run is a list of calls on a supply that starts with its outermost scope alone. Calls may fail, and
then change nothing. The history of a run keeps, beside the supply, the names that successful calls
took out of it; this is the whole of what a plain model of the supply remembers.

`NameHistory.Step` lists what one call can do to a history. Every property of runs is proved by
cases on it.
-/

namespace JvmEmit

namespace NameSupply

/-! ## What the calls on a usable scope do -/

/-- The name that a usable scope hands out next for a hint. -/
def freshName (supply : NameSupply) (scope : ScopeId) (hint : Option String) : String :=
  NumberedName.numbered (NumberedName.baseOfHint hint)
    (supply.freeIndex scope (NumberedName.baseOfHint hint))

/-- The supply after a usable scope has handed out a name for a hint. -/
def afterFresh (supply : NameSupply) (scope : ScopeId) (hint : Option String) : NameSupply :=
  supply.modifyFrame scope fun frame =>
    (frame.forget (supply.skippedNames scope (NumberedName.baseOfHint hint))).withIndex
      (NumberedName.baseOfHint hint) (supply.freeIndex scope (NumberedName.baseOfHint hint))

/-- The supply after a usable scope has reserved a name. -/
def afterReserve (supply : NameSupply) (scope : ScopeId) (name : String) : NameSupply :=
  supply.modifyFrame scope (supply.reservation scope name)

/-- At the beginning of a run nothing is in use. -/
theorem eq_empty_of_ofRoot {label : Option String} {scope : ScopeId} {own : NameFrame}
    (found : (NameSupply.ofRoot label).scopes.payload? scope = some own) : own = .empty := by
  rcases scope with ⟨_ | index⟩
  · cases found
    rfl
  · cases found

variable {supply : NameSupply} {scope : ScopeId}

theorem fresh_of_usable (usable : supply.scopes.requireUsable scope = .ok ())
    (hint : Option String) :
    supply.fresh scope hint = .ok (supply.freshName scope hint) (supply.afterFresh scope hint) := by
  simp only [fresh, usable, supply.search_nextIndex scope (NumberedName.isBase_baseOfHint hint),
    modifyFrame, NestedScopes.modifyPayload_modifyPayload]
  rfl

theorem fresh_of_unusable {cause : ScopeError}
    (unusable : supply.scopes.requireUsable scope = .error cause) (hint : Option String) :
    supply.fresh scope hint = .error cause supply := by
  rw [fresh, unusable]

theorem reserve_of_usable (usable : supply.scopes.requireUsable scope = .ok ()) (name : String) :
    supply.reserve scope name = .ok () (supply.afterReserve scope name) := by
  rw [reserve, usable]
  rfl

theorem reserve_of_unusable {cause : ScopeError}
    (unusable : supply.scopes.requireUsable scope = .error cause) (name : String) :
    supply.reserve scope name = .error cause supply := by
  rw [reserve, unusable]

/-! ## The frames that a scope sees -/

section Frames

variable {own : NameFrame}

theorem exists_own (usable : supply.scopes.requireUsable scope = .ok ()) :
    ∃ own, supply.scopes.payload? scope = some own :=
  NestedScopes.exists_payload? ((NestedScopes.requireUsable_eq_ok_iff _ _).mp usable).1

theorem frames_of_payload? (found : supply.scopes.payload? scope = some own) :
    supply.frames scope = own :: supply.scopes.outerPayloads scope := by
  rw [frames, NestedScopes.payloads_eq, found]
  rfl

theorem frames_modifyFrame_self (wellNested : supply.scopes.WellNested)
    (found : supply.scopes.payload? scope = some own) (change : NameFrame → NameFrame) :
    (supply.modifyFrame scope change).frames scope =
      change own :: supply.scopes.outerPayloads scope :=
  wellNested.payloads_modifyPayload_self found change

/-- No other open scope sees the frame of a usable scope. -/
theorem frames_modifyFrame_of_open (wellNested : supply.scopes.WellNested)
    (usable : supply.scopes.requireUsable scope = .ok ()) (change : NameFrame → NameFrame)
    {other : ScopeId} (opened : supply.scopes.requireOpen other = .ok ()) (differ : other ≠ scope) :
    (supply.modifyFrame scope change).frames other = supply.frames other := by
  have otherOpen := ((NestedScopes.requireOpen_eq_ok_iff _ _).mp opened).2
  exact NestedScopes.payloads_modifyPayload_of_not_mem change
    (wellNested.not_mem_path_of_usable usable otherOpen differ)

theorem frames_closedAt (supply : NameSupply) (closing other : ScopeId) :
    NameSupply.frames ⟨supply.scopes.closedAt closing⟩ other = supply.frames other :=
  NestedScopes.payloads_closedAt _ _ _

section Enter

variable {parent child : ScopeId} {label : Option String} {scopes : NestedScopes NameFrame}

theorem frames_of_enter (wellNested : supply.scopes.WellNested)
    (entered : supply.scopes.enter parent label .empty = .ok child scopes) {other : ScopeId}
    (older : other ≠ child) : NameSupply.frames ⟨scopes⟩ other = supply.frames other :=
  wellNested.payloads_of_enter entered older

theorem frames_child_of_enter (wellNested : supply.scopes.WellNested)
    (entered : supply.scopes.enter parent label .empty = .ok child scopes) :
    NameSupply.frames ⟨scopes⟩ child = .empty :: supply.frames parent :=
  wellNested.payloads_child_of_enter entered

end Enter

end Frames

/-! ## What a reservation does to a frame -/

theorem nextIndex_le_maxIndex (supply : NameSupply) (scope : ScopeId) (base : String) :
    supply.nextIndex scope base ≤ maxIndex := by
  rw [nextIndex]
  split
  · exact Nat.zero_le _
  · exact Nat.min_le_right _ _

/--
A name is passed over in silence, reserved ahead, or uses up the next index of its base, which it
does if and only if its index is the next one.
-/
theorem reservation_cases (supply : NameSupply) (scope : ScopeId) (name : String)
    (own : NameFrame) :
    (supply.reservation scope name own = own ∧
      (NumberedName.isUnnumbered name = true ∨
        NumberedName.index name ≠ supply.nextIndex scope (NumberedName.base name))) ∨
      (supply.reservation scope name own = own.withReserved name ∧
        NumberedName.isUnnumbered name = false ∧
        NumberedName.index name ≠ supply.nextIndex scope (NumberedName.base name) ∧
        (maxIndex < NumberedName.index name ∨
          ∀ latest, supply.latestIndex? scope (NumberedName.base name) = some latest →
            latest < NumberedName.index name)) ∨
      NumberedName.isUnnumbered name = false ∧
        NumberedName.index name = supply.nextIndex scope (NumberedName.base name) ∧
        supply.reservation scope name own =
          own.withIndex (NumberedName.base name) (NumberedName.index name) := by
  have inWord := supply.nextIndex_le_maxIndex scope (NumberedName.base name)
  simp only [reservation]
  split
  · rename_i unnumbered
    exact .inl ⟨rfl, .inl unnumbered⟩
  · rename_i canBeNumbered
    have isNumbered : NumberedName.isUnnumbered name = false := by simpa using canBeNumbered
    split
    · exact .inr (.inl ⟨rfl, isNumbered, by omega, .inl ‹_›⟩)
    · split
      · rename_i atNext
        exact .inr (.inr ⟨isNumbered, atNext, rfl⟩)
      · rename_i offNext
        split
        · rename_i ahead
          refine .inr (.inl ⟨rfl, isNumbered, offNext, .inr ?_⟩)
          intro latest found
          simpa [found] using ahead
        · exact .inl ⟨rfl, .inr offNext⟩

end NameSupply

/-- The calls on a name supply. -/
inductive NameCall where
  | enter (parent : ScopeId) (label : Option String)
  | close (scope : ScopeId)
  | fresh (scope : ScopeId) (hint : Option String)
  | reserve (scope : ScopeId) (name : String)
deriving DecidableEq

/-- A name that a successful call handed out or reserved, with the scope of the call. -/
structure Taking where
  scope : ScopeId
  name : String
deriving DecidableEq

namespace NameCall

/-- The supply after a call, whether the call succeeds or fails. -/
def after (call : NameCall) (supply : NameSupply) : NameSupply :=
  match call with
  | .enter parent label => Outcome.state (supply.enter parent label)
  | .close scope => Outcome.state (supply.close scope)
  | .fresh scope hint => Outcome.state (supply.fresh scope hint)
  | .reserve scope name => Outcome.state (supply.reserve scope name)

/-- What a call takes out of a supply, if it is a call for a name and succeeds. -/
def taking? (call : NameCall) (supply : NameSupply) : Option Taking :=
  match call with
  | .enter .. | .close .. => none
  | .fresh scope hint =>
      match supply.fresh scope hint with
      | .ok name _ => some ⟨scope, name⟩
      | .error .. => none
  | .reserve scope name =>
      match supply.reserve scope name with
      | .ok .. => some ⟨scope, name⟩
      | .error .. => none

/-- The call is one that takes a name when it succeeds. -/
def isForName : NameCall → Bool
  | .enter .. | .close .. => false
  | .fresh .. | .reserve .. => true

end NameCall

/-- A supply together with what was taken out of it. -/
structure NameHistory where
  supply : NameSupply
  takings : List Taking

namespace NameHistory

/-- The history with one more call. -/
def record (history : NameHistory) (call : NameCall) : NameHistory where
  supply := call.after history.supply
  takings := (call.taking? history.supply).toList ++ history.takings

/-- The history of a row of calls on a supply in which no name is in use. -/
def ofCalls (label : Option String) (calls : List NameCall) : NameHistory :=
  calls.foldl record ⟨.ofRoot label, []⟩

/-- A name was handed out or reserved in a scope or in one of the scopes around it. -/
def IsTaken (history : NameHistory) (scope : ScopeId) (name : String) : Prop :=
  ∃ taking ∈ history.takings, taking.scope ∈ history.supply.scopes.path scope ∧ taking.name = name

theorem ofCalls_append (label : Option String) (calls : List NameCall) (call : NameCall) :
    ofCalls label (calls ++ [call]) = (ofCalls label calls).record call := by
  rw [ofCalls, ofCalls, List.foldl_append]
  rfl

theorem length_takings_le_record (history : NameHistory) (call : NameCall) :
    history.takings.length ≤ (history.record call).takings.length := by
  simp [record]

theorem length_takings_le (label : Option String) (calls : List NameCall) :
    (ofCalls label calls).takings.length ≤ calls.countP NameCall.isForName := by
  induction calls using List.reverseRecOn with
  | nil => exact Nat.le_refl _
  | append_singleton calls call ih =>
      rw [ofCalls_append, List.countP_append, List.countP_singleton, record, List.length_append]
      have one : (call.taking? (ofCalls label calls).supply).toList.length ≤
          if call.isForName then 1 else 0 := by
        cases call with
        | enter parent label => simp [NameCall.taking?]
        | close scope => simp [NameCall.taking?]
        | fresh scope hint => simp [NameCall.isForName, Option.length_toList_le]
        | reserve scope name => simp [NameCall.isForName, Option.length_toList_le]
      omega

/-! ## What a call can do -/

/-- The changes that one call can make to a history. -/
inductive Step : NameHistory → NameHistory → Prop where
  | idle (history : NameHistory) : Step history history
  | enter {history : NameHistory} {parent child : ScopeId} {label : Option String}
      {scopes : NestedScopes NameFrame}
      (entered : history.supply.scopes.enter parent label .empty = .ok child scopes) :
      Step history ⟨⟨scopes⟩, history.takings⟩
  | close {history : NameHistory} {scope : ScopeId}
      (usable : history.supply.scopes.requireUsable scope = .ok ()) :
      Step history ⟨⟨history.supply.scopes.closedAt scope⟩, history.takings⟩
  | fresh {history : NameHistory} {scope : ScopeId}
      (usable : history.supply.scopes.requireUsable scope = .ok ()) (hint : Option String) :
      Step history
        ⟨history.supply.afterFresh scope hint,
          ⟨scope, history.supply.freshName scope hint⟩ :: history.takings⟩
  | reserve {history : NameHistory} {scope : ScopeId}
      (usable : history.supply.scopes.requireUsable scope = .ok ()) (name : String) :
      Step history
        ⟨history.supply.afterReserve scope name, ⟨scope, name⟩ :: history.takings⟩

theorem step_record (history : NameHistory) (call : NameCall) :
    Step history (history.record call) := by
  cases call with
  | enter parent label =>
      rcases history.supply.scopes.enter_cases parent label .empty with
        ⟨_, scopes, entered⟩ | ⟨cause, _, refused⟩
      · simp only [record, NameCall.after, NameCall.taking?, NameSupply.enter, entered]
        exact .enter entered
      · simp only [record, NameCall.after, NameCall.taking?, NameSupply.enter, refused]
        exact .idle history
  | close scope =>
      rcases history.supply.scopes.close_cases scope with
        ⟨usable, closed⟩ | ⟨_, closed⟩ | ⟨cause, _, refused⟩
      · simp only [record, NameCall.after, NameCall.taking?, NameSupply.close, closed]
        exact .close usable
      · simp only [record, NameCall.after, NameCall.taking?, NameSupply.close, closed]
        exact .idle history
      · simp only [record, NameCall.after, NameCall.taking?, NameSupply.close, refused]
        exact .idle history
  | fresh scope hint =>
      cases check : history.supply.scopes.requireUsable scope with
      | ok =>
          simp only [record, NameCall.after, NameCall.taking?, NameSupply.fresh_of_usable check]
          exact .fresh check hint
      | error cause =>
          simp only [record, NameCall.after, NameCall.taking?, NameSupply.fresh_of_unusable check]
          exact .idle history
  | reserve scope name =>
      cases check : history.supply.scopes.requireUsable scope with
      | ok =>
          simp only [record, NameCall.after, NameCall.taking?, NameSupply.reserve_of_usable check]
          exact .reserve check name
      | error cause =>
          simp only [record, NameCall.after, NameCall.taking?,
            NameSupply.reserve_of_unusable check]
          exact .idle history

end NameHistory

end JvmEmit
