import JvmEmit.Proofs.Scope.Runs
import JvmEmit.Proofs.Slot.Order
import JvmEmit.Proofs.Slot.Visible

/-!
# The slots that a table needs

A slot table keeps a single number of slots for all of its scopes, and moves it only if the variable
that is declared ends behind it. Scopes that are closed keep their variables, empty scopes begin where
their parents end, and siblings use the same slots again. All the same the number is the highest end
of all variables ever declared, in whatever scope, and also the highest next free slot of all scopes
ever entered.

It is not too small because every declaration takes the end of its variable into account. It is not
too large because a scope keeps its variables, closed or not, so the variable that has moved the
number stays where it is.
-/

namespace JvmEmit

variable {τ : Type}

namespace SlotTable

/-- A new scope has no variables, and there were none under its number before. -/
theorem declaredIn_of_enter {table : SlotTable τ} {parent child : ScopeId} {label : Option String}
    {scopes : NestedScopes (VariableFrame τ)}
    (entered : table.scopes.enter parent label (table.innerFrame parent) = .ok child scopes)
    (scope : ScopeId) : declaredIn { table with scopes } scope = table.declaredIn scope := by
  rw [declaredIn, frame_of_enter entered]
  split
  · rename_i newest
    have unknown := NestedScopes.size_le_child_of_enter entered
    apply Eq.symm
    apply List.eq_nil_iff_forall_not_mem.mpr
    intro declared member
    have known := known_of_mem_declaredIn member
    rw [newest] at known
    omega
  · rfl

variable [Slotted τ]

theorem mem_declaredIn_adding_iff {table : SlotTable τ} {declared : Variable τ}
    (known : declared.scope.index < table.scopes.size) (other : Variable τ) :
    (∃ scope, other ∈ (table.adding declared).declaredIn scope) ↔
      (∃ scope, other ∈ table.declaredIn scope) ∨ other = declared := by
  have inScope : ∀ scope, other ∈ (table.adding declared).declaredIn scope ↔
      other ∈ table.declaredIn scope ∨ declared.scope = scope ∧ other = declared := by
    intro scope
    simp only [declaredIn, frame_adding declared known]
    split
    · simp [VariableFrame.push, *]
    · simp [*]
  simp [inScope, exists_or]

end SlotTable

/-! ## What the calls of a run declare -/

namespace SlotCall

variable [Slotted τ]

/-- The variable that a call has declared, if it is a declaration, or why the call has failed. -/
def answer (call : SlotCall τ) (table : SlotTable τ) :
    Except ScopeError (Option (Variable τ)) :=
  match call with
  | .enter parent label => (Outcome.toExcept (table.enter parent label)).map fun _ => none
  | .close scope => (Outcome.toExcept (table.close scope)).map fun _ => none
  | .declareReceiver scope type =>
      (Outcome.toExcept (table.declareReceiver scope type)).map some
  | .declareArgument scope type name =>
      (Outcome.toExcept (table.declareArgument scope type name)).map some
  | .declareLocal scope type name =>
      (Outcome.toExcept (table.declareLocal scope type name)).map some

/-- The variable that a call declares when it succeeds. -/
def declared? (call : SlotCall τ) (table : SlotTable τ) : Option (Variable τ) :=
  (call.answer table).toOption.join

theorem declared?_enter (parent : ScopeId) (label : Option String) (table : SlotTable τ) :
    (SlotCall.enter parent label).declared? table = none := by
  rw [declared?, answer]
  cases Outcome.toExcept (table.enter parent label) <;> rfl

theorem declared?_close (scope : ScopeId) (table : SlotTable τ) :
    (SlotCall.close scope).declared? table = none := by
  rw [declared?, answer]
  cases Outcome.toExcept (table.close scope) <;> rfl

/-- A call has failed, or left all variables as they are, or declared one. -/
inductive Answered (table : SlotTable τ) :
    Except ScopeError (Option (Variable τ)) → SlotTable τ → Prop where
  | failed (cause : ScopeError) : Answered table (.error cause) table
  | kept {after : SlotTable τ} (slotsNeeded : after.slotsNeeded = table.slotsNeeded)
      (declaredIn : ∀ scope, after.declaredIn scope = table.declaredIn scope) :
      Answered table (.ok none) after
  | declared {scope : ScopeId} {role : VariableRole} {name : Option String}
      (accepted : table.requireDeclarable scope role name = .ok ()) (type : τ) :
      Answered table (.ok (some (table.nextVariable scope role type name)))
        (table.adding (table.nextVariable scope role type name))

theorem answered_declare (table : SlotTable τ) (scope : ScopeId) (role : VariableRole) (type : τ)
    (name : Option String) :
    Answered table ((Outcome.toExcept (table.declare scope role type name)).map some)
      (Outcome.state (table.declare scope role type name)) := by
  rcases table.declare_cases scope role type name with ⟨accepted, result⟩ | ⟨cause, _, result⟩
  · rw [result]
    exact .declared accepted type
  · rw [result]
    exact .failed cause

theorem answered (call : SlotCall τ) (table : SlotTable τ) :
    Answered table (call.answer table) (call.after table) := by
  cases call with
  | enter parent label =>
      rw [answer, after]
      rcases table.enter_cases parent label with ⟨scopes, entered, result⟩ | ⟨cause, _, result⟩
      · rw [result]
        exact .kept rfl (SlotTable.declaredIn_of_enter entered)
      · rw [result]
        exact .failed cause
  | close scope =>
      rw [answer, after]
      rcases table.close_cases scope with ⟨usable, result⟩ | ⟨_, result⟩ | ⟨cause, _, result⟩
      · rw [result]
        refine .kept rfl fun other => ?_
        simp [SlotTable.declaredIn, SlotTable.frame_closedAt]
      · rw [result]
        exact .kept rfl fun _ => rfl
      · rw [result]
        exact .failed cause
  | declareReceiver scope type => exact answered_declare table scope .receiver type none
  | declareArgument scope type name => exact answered_declare table scope .argument type name
  | declareLocal scope type name => exact answered_declare table scope .localVariable type name

end SlotCall

namespace SlotTable

variable [Slotted τ]

/-- The variables that calls declare one after another, from a table on. -/
def declarationsFrom (table : SlotTable τ) : List (SlotCall τ) → List (Variable τ)
  | [] => []
  | call :: rest => (call.declared? table).toList ++ declarationsFrom (call.after table) rest

/-- The variables that a run declares, in the order of declaration. -/
def declarations (label : Option String) (calls : List (SlotCall τ)) : List (Variable τ) :=
  declarationsFrom (.ofRoot label) calls

theorem declarationsFrom_append (table : SlotTable τ) (calls more : List (SlotCall τ)) :
    table.declarationsFrom (calls ++ more) =
      table.declarationsFrom calls ++
        (calls.foldl (fun table call => call.after table) table).declarationsFrom more := by
  induction calls generalizing table with
  | nil => rfl
  | cons call calls ih => simp [declarationsFrom, ih]

theorem declarations_append (label : Option String) (calls : List (SlotCall τ))
    (call : SlotCall τ) :
    declarations label (calls ++ [call]) =
      declarations label calls ++ (call.declared? (ofCalls label calls)).toList := by
  simp [declarations, declarationsFrom_append, declarationsFrom, ofCalls]

/-! ## The highest end -/

/-- The slots that the table needs are those up to the highest end of a declared variable. -/
structure HighWater (table : SlotTable τ) (history : List (Variable τ)) : Prop where
  mem_iff : ∀ declared, declared ∈ history ↔ ∃ scope, declared ∈ table.declaredIn scope
  highest : table.slotsNeeded = (history.map Variable.endSlot).foldl max 0

namespace HighWater

variable {table after : SlotTable τ} {history : List (Variable τ)}

theorem initial (label : Option String) : (SlotTable.ofRoot label : SlotTable τ).HighWater [] := by
  refine ⟨fun declared => ?_, rfl⟩
  constructor
  · intro member
    cases member
  · rintro ⟨⟨_ | index⟩, member⟩
    · cases member
    · cases member

theorem call (highWater : table.HighWater history) (call : SlotCall τ) :
    (call.after table).HighWater (history ++ (call.declared? table).toList) := by
  have answered := call.answered table
  rw [SlotCall.declared?]
  generalize call.answer table = answer at answered
  generalize call.after table = after at answered
  cases answered with
  | failed cause => simpa [Except.toOption] using highWater
  | kept slotsNeeded declaredIn =>
      constructor
      · simpa [Except.toOption, declaredIn] using highWater.mem_iff
      · simpa [Except.toOption, slotsNeeded] using highWater.highest
  | declared accepted type =>
      have usable := ((requireDeclarable_eq_ok_iff _ _ _ _).mp accepted).1
      have known := ((NestedScopes.requireUsable_eq_ok_iff _ _).mp usable).1
      constructor
      · intro declared
        rw [mem_declaredIn_adding_iff (by exact known)]
        simp [Except.toOption, highWater.mem_iff]
      · simp [Except.toOption, adding, highWater.highest]

end HighWater

theorem highWater_ofCalls (label : Option String) (calls : List (SlotCall τ)) :
    (ofCalls label calls).HighWater (declarations label calls) := by
  induction calls using List.reverseRecOn with
  | nil => exact .initial label
  | append_singleton calls call ih =>
      rw [declarations_append, ofCalls_append]
      exact ih.call call

/-! ## The highest next free slot -/

/-- The slots that the table needs end where those of some scope end. -/
def Reached (table : SlotTable τ) : Prop :=
  ∃ scope, scope.index < table.scopes.size ∧ table.nextSlot scope = table.slotsNeeded

namespace Reached

variable {table after : SlotTable τ}

theorem step (reached : table.Reached) (step : table.Step after) : after.Reached := by
  rcases reached with ⟨scope, known, ends⟩
  cases step with
  | idle => exact ⟨scope, known, ends⟩
  | enter entered =>
      have unknown := NestedScopes.size_le_child_of_enter entered
      refine ⟨scope, ?_, ?_⟩
      · simp only [NestedScopes.size_of_enter entered]
        omega
      · rw [nextSlot, frame_of_enter entered, if_neg]
        · exact ends
        · rintro rfl
          omega
  | close usable =>
      refine ⟨scope, ?_, ?_⟩
      · simpa using known
      · simpa [nextSlot, frame_closedAt] using ends
  | declare accepted type unnamed =>
      rename_i home role name
      have usable := ((requireDeclarable_eq_ok_iff _ _ _ _).mp accepted).1
      have homeKnown := ((NestedScopes.requireUsable_eq_ok_iff _ _).mp usable).1
      have grown := nextSlot_adding homeKnown role type name
      have size : (table.adding (table.nextVariable home role type name)).scopes.size =
          table.scopes.size := NestedScopes.size_modifyPayload _ _ _
      rcases Nat.le_total table.slotsNeeded (table.nextVariable home role type name).endSlot with
        moved | within
      · refine ⟨home, ?_, ?_⟩
        · rwa [size]
        · rw [grown]
          exact (Nat.max_eq_right moved).symm
      · -- the scope that reached so far has not declared, since it would end further behind
        have apart : home ≠ scope := by
          rintro rfl
          have nonempty := Tiles.slot_lt_endSlot (table.nextVariable home role type name)
          have begins : (table.nextVariable home role type name).slot = table.nextSlot home := rfl
          omega
        refine ⟨scope, ?_, ?_⟩
        · rwa [size]
        · rw [nextSlot, frame_adding (table.nextVariable home role type name) homeKnown, if_neg]
          · exact ends.trans (Nat.max_eq_left within).symm
          · exact apart

theorem ofCalls (label : Option String) (calls : List (SlotCall τ)) :
    (SlotTable.ofCalls label calls).Reached :=
  ofCalls_induction label ⟨.root, Nat.zero_lt_one, rfl⟩ step calls

end Reached

theorem max?_nextSlot {table : SlotTable τ} (hasRoom : table.HasRoom) (reached : table.Reached) :
    (table.scopes.ids.map table.nextSlot).max? = some table.slotsNeeded := by
  apply List.max?_eq_some_iff.mpr
  constructor
  · rcases reached with ⟨scope, known, ends⟩
    exact List.mem_map.mpr ⟨scope, (NestedScopes.mem_ids_iff _ _).mpr known, ends⟩
  · intro slot member
    rcases List.mem_map.mp member with ⟨scope, _, rfl⟩
    exact hasRoom scope

/-! ## Along a run -/

theorem slotsNeeded_after (call : SlotCall τ) (table : SlotTable τ) :
    table.slotsNeeded ≤ (call.after table).slotsNeeded ∧
      (call.declared? table = none → (call.after table).slotsNeeded = table.slotsNeeded) := by
  have answered := call.answered table
  rw [SlotCall.declared?]
  generalize call.answer table = answer at answered
  generalize call.after table = after at answered
  cases answered with
  | failed cause => simp
  | kept slotsNeeded declaredIn => simp [slotsNeeded]
  | declared accepted type => simp [adding, Except.toOption]

theorem slotsNeeded_le_append (label : Option String) (calls more : List (SlotCall τ)) :
    (ofCalls label calls).slotsNeeded ≤ (ofCalls label (calls ++ more)).slotsNeeded := by
  induction more using List.reverseRecOn with
  | nil => simp
  | append_singleton more call ih =>
      rw [← List.append_assoc, ofCalls_append]
      exact Nat.le_trans ih (slotsNeeded_after call _).1

/--
After every run, the slots that the table needs are those up to the highest end of the variables that
the run has declared, which are the variables of all its scopes, and none without variables. They are
also those up to the highest next free slot of all scopes. Further calls never need fewer slots, and
entering a scope, closing one and calls that fail leave the number as it is.
-/
theorem slotsNeeded_is_highest_end (label : Option String) (calls : List (SlotCall τ)) :
    let table := ofCalls label calls
    let history := declarations label calls
    (∀ declared, declared ∈ history ↔ ∃ scope, declared ∈ table.declaredIn scope) ∧
    table.slotsNeeded = (history.map Variable.endSlot).max?.getD 0 ∧
    (table.scopes.ids.map table.nextSlot).max? = some table.slotsNeeded ∧
    (∀ more, table.slotsNeeded ≤ (ofCalls label (calls ++ more)).slotsNeeded) ∧
    (∀ parent inner, (Outcome.state (table.enter parent inner)).slotsNeeded = table.slotsNeeded) ∧
    (∀ scope, (Outcome.state (table.close scope)).slotsNeeded = table.slotsNeeded) ∧
    ∀ call cause, SlotCall.answer call table = .error cause →
      (call.after table).slotsNeeded = table.slotsNeeded := by
  intro table history
  have highWater : table.HighWater history := highWater_ofCalls label calls
  have hasRoom : table.HasRoom := ofCalls_induction label (.initial label) HasRoom.step calls
  have reached : table.Reached := .ofCalls label calls
  refine ⟨highWater.mem_iff, ?_, max?_nextSlot hasRoom reached, slotsNeeded_le_append label calls,
    ?_, ?_, ?_⟩
  · rw [highWater.highest, List.foldl_max, Nat.zero_max]
  · intro parent inner
    exact (slotsNeeded_after (.enter parent inner) table).2 (SlotCall.declared?_enter _ _ _)
  · intro scope
    exact (slotsNeeded_after (.close scope) table).2 (SlotCall.declared?_close _ _)
  · intro call cause failed
    apply (slotsNeeded_after call table).2
    rw [SlotCall.declared?, failed]
    rfl

/-- A wide variable is declared in a scope that is then closed, and another scope is left empty. -/
def wideInClosedScope : List (SlotCall StackKind) :=
  [.declareReceiver .root .reference, .declareArgument .root .long (some "a"), .enter .root none,
    .declareLocal ⟨1⟩ .double (some "x"), .close ⟨1⟩, .declareLocal .root .int (some "y"),
    .enter .root none]

/-- The slots up to the end of the wide variable stay needed, also when its scope refuses a call. -/
theorem slotsNeeded_is_highest_end_in_closed_scope :
    let table := ofCalls none wideInClosedScope
    (SlotCall.declareLocal ⟨1⟩ .int none).answer table = .error (.closed "root/0") ∧
    table.slotsNeeded = 5 ∧
    ((declarations none wideInClosedScope).map Variable.endSlot).max? = some 5 ∧
    (table.scopes.ids.map table.nextSlot).max? = some table.slotsNeeded ∧
    ((SlotCall.declareLocal ⟨1⟩ .int none).after table).slotsNeeded = 5 := by
  intro table
  have refused : (SlotCall.declareLocal ⟨1⟩ .int none).answer table = .error (.closed "root/0") := by
    decide +kernel
  have ends : ((declarations none wideInClosedScope).map Variable.endSlot).max? = some 5 := by
    decide +kernel
  rcases slotsNeeded_is_highest_end none wideInClosedScope with
    ⟨_, highest, nextSlots, _, _, _, failing⟩
  rw [ends] at highest
  exact ⟨refused, highest, ends, nextSlots, (failing _ _ refused).trans highest⟩

end SlotTable

end JvmEmit
