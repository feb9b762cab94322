import JvmEmit.Proofs.Name.Growth

/-!
# Reserved names that were reached

A frame keeps the names that are reserved ahead of its own index. A search forgets the reserved names
that it comes up to. A reservation does not: if a name is reserved again when its turn has come, the
index moves on to it, and the name stays among the reserved ones. Such a name is stale, and it stays
stale as long as the run goes on.

Stale names aside, frames are orderly. Every reserved name is a numbered base, and in an open scope
it is stale or ahead of the closest index. So a reserved name that a call comes up to is the next one
of its base: searches begin there and forget it, and only reserving this very name makes it stale.
No search in sight of a stale name looks at it, because searches begin behind the closest index.
-/

namespace JvmEmit

open NumberedName (numbered baseOfHint IsBase isBase_baseOfHint isUnnumbered)
open NameSupply (maxIndex)

namespace NameFrame

/-- The name is reserved although the frame's own index has come up to it. -/
def IsStale (frame : NameFrame) (name : String) : Prop :=
  frame.reserved.contains name = true ∧
    ∃ latest, frame.latest[NumberedName.base name]? = some latest ∧
      NumberedName.index name ≤ latest

/-- The index of a name is above the closest one that a row of frames has in use for its base. -/
def AheadOf (frames : List NameFrame) (name : String) : Prop :=
  ∀ latest, latestIn frames (NumberedName.base name) = some latest →
    latest < NumberedName.index name

section Own

variable {own : NameFrame} {outer : List NameFrame} {name : String}

theorem latestIn_cons_of_some {base : String} {latest : Nat}
    (found : own.latest[base]? = some latest) : latestIn (own :: outer) base = some latest := by
  simp [latestIn, found]

theorem IsStale.exists_latestIn (stale : own.IsStale name) (outer : List NameFrame) :
    ∃ latest, latestIn (own :: outer) (NumberedName.base name) = some latest ∧
      NumberedName.index name ≤ latest := by
  rcases stale.2 with ⟨latest, found, reached⟩
  exact ⟨latest, latestIn_cons_of_some found, reached⟩

theorem isStale_forget (forgotten : List String) :
    (own.forget forgotten).IsStale name ↔ own.IsStale name ∧ name ∉ forgotten := by
  rw [IsStale, contains_forget]
  exact and_right_comm

/-- An index that comes up to reserved names of its base makes them stale. -/
theorem isStale_withIndex {base : String} {index : Nat} :
    (own.withIndex base index).IsStale name ↔
      own.reserved.contains name = true ∧
        if base = NumberedName.base name then NumberedName.index name ≤ index
        else own.IsStale name := by
  rw [IsStale, withIndex, Std.TreeMap.getElem?_insert]
  by_cases same : base = NumberedName.base name
  · simp [same]
  · simp [same, IsStale]

/-- A name that is ahead when it is reserved does not become stale by it. -/
theorem isStale_withReserved {added : String} (ahead : AheadOf (own :: outer) added) :
    (own.withReserved added).IsStale name ↔ own.IsStale name := by
  rw [IsStale, contains_withReserved]
  constructor
  · rintro ⟨rfl | reserved, latest, found, reached⟩
    · have above := ahead latest (latestIn_cons_of_some found)
      omega
    · exact ⟨reserved, latest, found, reached⟩
  · rintro ⟨reserved, reached⟩
    exact ⟨.inr reserved, reached⟩

end Own

/-! ## Orderly frames -/

/-- What a frame has reserved is numbered, and stale or ahead of the frames in sight. -/
def Orderly (frames : List NameFrame) (own : NameFrame) : Prop :=
  ∀ ⦃name : String⦄, own.reserved.contains name = true →
    isUnnumbered name = false ∧ (own.IsStale name ∨ AheadOf frames name)

namespace Orderly

variable {own : NameFrame} {outer : List NameFrame}

theorem empty (frames : List NameFrame) : Orderly frames .empty := by
  intro name reserved
  simp [NameFrame.empty] at reserved

theorem forget (orderly : Orderly (own :: outer) own) (forgotten : List String) :
    Orderly (own.forget forgotten :: outer) (own.forget forgotten) := by
  intro name reserved
  rcases (contains_forget own forgotten name).mp reserved with ⟨reservedBefore, kept⟩
  rcases orderly reservedBefore with ⟨isNumbered, stale | ahead⟩
  · exact ⟨isNumbered, .inl ((isStale_forget forgotten).mpr ⟨stale, kept⟩)⟩
  · exact ⟨isNumbered, .inr ahead⟩

/-- The names of a base that its new index has not come up to are ahead of it. -/
theorem withIndex (orderly : Orderly (own :: outer) own) (base : String) (index : Nat) :
    Orderly (own.withIndex base index :: outer) (own.withIndex base index) := by
  intro name reserved
  rcases orderly reserved with ⟨isNumbered, staleOrAhead⟩
  refine ⟨isNumbered, ?_⟩
  rw [isStale_withIndex, AheadOf, latestIn_withIndex]
  by_cases same : base = NumberedName.base name
  · simp only [if_pos same, Option.some.injEq, forall_eq']
    rcases Nat.lt_or_ge index (NumberedName.index name) with above | reached
    · exact .inr above
    · exact .inl ⟨reserved, reached⟩
  · simp only [if_neg same]
    exact staleOrAhead.imp_left fun stale => ⟨reserved, stale⟩

theorem withReserved (orderly : Orderly (own :: outer) own) {added : String}
    (isNumbered : isUnnumbered added = false) (ahead : AheadOf (own :: outer) added) :
    Orderly (own.withReserved added :: outer) (own.withReserved added) := by
  intro name reserved
  rw [isStale_withReserved ahead, AheadOf, latestIn_withReserved, ← AheadOf]
  rcases (contains_withReserved own added name).mp reserved with rfl | reservedBefore
  · exact ⟨isNumbered, .inr ahead⟩
  · exact orderly reservedBefore

end Orderly

end NameFrame

namespace NameSupply

/-- The name is reserved in the scope itself although the scope's own index has come up to it. -/
def StaleIn (supply : NameSupply) (scope : ScopeId) (name : String) : Prop :=
  ∃ own, supply.scopes.payload? scope = some own ∧ own.IsStale name

/-- A usable scope has the name reserved, and the name's turn has come. -/
def IsDue (supply : NameSupply) (scope : ScopeId) (name : String) : Prop :=
  supply.scopes.requireUsable scope = .ok () ∧
    (∃ own, supply.scopes.payload? scope = some own ∧ own.reserved.contains name = true) ∧
    NumberedName.index name = supply.nextIndex scope (NumberedName.base name)

/-- Reserved names are numbered, and in an open scope they are stale or ahead. -/
structure Orderly (supply : NameSupply) : Prop where
  isNumbered : ∀ {scope : ScopeId} {own : NameFrame}, supply.scopes.payload? scope = some own →
    ∀ ⦃name : String⦄, own.reserved.contains name = true → isUnnumbered name = false
  ofOpen : ∀ {scope : ScopeId} {own : NameFrame}, supply.scopes.requireOpen scope = .ok () →
    supply.scopes.payload? scope = some own → NameFrame.Orderly (supply.frames scope) own

/-- Every index in use is below the largest 64-bit word. -/
def HasRoom (supply : NameSupply) : Prop :=
  ∀ scope base latest, supply.latestIndex? scope base = some latest → latest < maxIndex

variable {supply : NameSupply} {scope : ScopeId} {own : NameFrame} {name : String}

theorem nextIndex_le_of_aheadOf (ahead : NameFrame.AheadOf (supply.frames scope) name) :
    supply.nextIndex scope (NumberedName.base name) ≤ NumberedName.index name := by
  rw [nextIndex]
  cases found : supply.latestIndex? scope (NumberedName.base name) with
  | none => exact Nat.zero_le _
  | some latest =>
      have above := ahead latest found
      dsimp only
      omega

theorem lt_nextIndex_of_isStale (room : supply.HasRoom)
    (found : supply.scopes.payload? scope = some own) (stale : own.IsStale name) :
    NumberedName.index name < supply.nextIndex scope (NumberedName.base name) := by
  rcases stale.exists_latestIn (supply.scopes.outerPayloads scope) with ⟨latest, inUse, reached⟩
  rw [← frames_of_payload? found] at inUse
  exact lt_nextIndex_of_le_latest inUse reached (room _ _ _ inUse)

theorem mem_skippedNames_iff_of_isNumbered (isNumbered : isUnnumbered name = false)
    {base : String} (isBase : IsBase base) :
    name ∈ supply.skippedNames scope base ↔ NumberedName.base name = base ∧
      supply.nextIndex scope base ≤ NumberedName.index name ∧
      NumberedName.index name < supply.freeIndex scope base := by
  have member := supply.mem_skippedNames_iff scope isBase
    (NumberedName.isBase_of_not_isUnnumbered isNumbered) (NumberedName.index name)
  rwa [NumberedName.numbered_base_index isNumbered] at member

/-! ## What becomes stale in a call -/

/-- Nothing becomes stale when a name is handed out, and what is stale is not forgotten. -/
theorem isStale_fresh (orderly : NameFrame.Orderly (supply.frames scope) own)
    (room : supply.HasRoom) (found : supply.scopes.payload? scope = some own) {base : String}
    (isBase : IsBase base) :
    ((own.forget (supply.skippedNames scope base)).withIndex base
        (supply.freeIndex scope base)).IsStale name ↔ own.IsStale name := by
  rw [NameFrame.isStale_withIndex, NameFrame.contains_forget, NameFrame.isStale_forget]
  constructor
  · rintro ⟨⟨reserved, kept⟩, reached⟩
    rcases orderly reserved with ⟨isNumbered, staleOrAhead⟩
    split at reached
    · rename_i same
      subst same
      rcases staleOrAhead with stale | ahead
      · exact stale
      · -- a name from the next index on was passed over and forgotten, or was the free one
        have fromNext := nextIndex_le_of_aheadOf ahead
        rcases Nat.lt_or_eq_of_le reached with below | atFree
        · have skipped := (mem_skippedNames_iff_of_isNumbered isNumbered isBase).mpr
            ⟨rfl, fromNext, below⟩
          exact absurd skipped kept
        · have free := supply.isReserved_freeIndex scope isBase
          rw [← atFree, NumberedName.numbered_base_index isNumbered, isReserved,
            frames_of_payload? found, List.any_cons, reserved, Bool.true_or] at free
          cases free
    · exact reached.1
  · intro stale
    have below := lt_nextIndex_of_isStale room found stale
    have kept : name ∉ supply.skippedNames scope base := by
      rw [mem_skippedNames_iff_of_isNumbered (orderly stale.1).1 isBase]
      rintro ⟨rfl, fromNext, _⟩
      omega
    refine ⟨⟨stale.1, kept⟩, ?_⟩
    split
    · rename_i same
      subst same
      rw [freeIndex]
      omega
    · exact ⟨stale, kept⟩

/-- Using up the next index makes the name with this index stale, if it is reserved, and no other. -/
theorem isStale_withNextIndex (orderly : NameFrame.Orderly (supply.frames scope) own)
    (room : supply.HasRoom) (found : supply.scopes.payload? scope = some own) {taken : String}
    (isNumbered : isUnnumbered taken = false)
    (atNext : NumberedName.index taken = supply.nextIndex scope (NumberedName.base taken)) :
    (own.withIndex (NumberedName.base taken) (NumberedName.index taken)).IsStale name ↔
      own.IsStale name ∨ taken = name ∧ own.reserved.contains name = true := by
  rw [NameFrame.isStale_withIndex]
  constructor
  · rintro ⟨reserved, reached⟩
    split at reached
    · rename_i same
      rcases orderly reserved with ⟨nameNumbered, stale | ahead⟩
      · exact .inl stale
      · -- a reserved name that was ahead and is reached is the next one of its base
        have fromNext := nextIndex_le_of_aheadOf ahead
        rw [← same, ← atNext] at fromNext
        have sameIndex := Nat.le_antisymm fromNext reached
        have sameName := NumberedName.eq_of_base_eq_of_index_eq isNumbered nameNumbered same
          sameIndex
        exact .inr ⟨sameName, reserved⟩
    · exact .inl reached
  · rintro (stale | ⟨rfl, reserved⟩)
    · refine ⟨stale.1, ?_⟩
      split
      · rename_i same
        rw [atNext, same]
        exact Nat.le_of_lt (lt_nextIndex_of_isStale room found stale)
      · exact stale
    · exact ⟨reserved, by simp⟩

theorem aheadOf_of_reservation (room : supply.HasRoom)
    (higher : maxIndex < NumberedName.index name ∨
      ∀ latest, supply.latestIndex? scope (NumberedName.base name) = some latest →
        latest < NumberedName.index name) :
    NameFrame.AheadOf (supply.frames scope) name := by
  intro latest inUse
  rcases higher with tooLarge | above
  · exact Nat.lt_trans (room _ _ _ inUse) tooLarge
  · exact above latest inUse

/-- A reservation makes a name stale if it is that name's turn and the name is reserved already. -/
theorem isStale_reservation (orderly : NameFrame.Orderly (supply.frames scope) own)
    (room : supply.HasRoom) (found : supply.scopes.payload? scope = some own) (taken : String) :
    (supply.reservation scope taken own).IsStale name ↔
      own.IsStale name ∨ taken = name ∧ own.reserved.contains name = true ∧
        NumberedName.index name = supply.nextIndex scope (NumberedName.base name) := by
  rcases supply.reservation_cases scope taken own with
    ⟨unchanged, notItsTurn⟩ | ⟨ahead, _, offNext, higher⟩ | ⟨takenNumbered, atNext, indexed⟩
  · rw [unchanged]
    constructor
    · exact .inl
    · rintro (stale | ⟨rfl, reserved, atNext⟩)
      · exact stale
      · rcases notItsTurn with unnumbered | offNext
        · rw [(orderly reserved).1] at unnumbered
          cases unnumbered
        · exact absurd atNext offNext
  · have aheadOf := aheadOf_of_reservation room higher
    rw [frames_of_payload? found] at aheadOf
    rw [ahead, NameFrame.isStale_withReserved aheadOf]
    constructor
    · exact .inl
    · rintro (stale | ⟨rfl, _, atNext⟩)
      · exact stale
      · exact absurd atNext offNext
  · rw [indexed, isStale_withNextIndex orderly room found takenNumbered atNext]
    apply or_congr_right
    constructor
    · rintro ⟨rfl, reserved⟩
      exact ⟨rfl, reserved, atNext⟩
    · rintro ⟨same, reserved, _⟩
      exact ⟨same, reserved⟩

/-! ## Calls -/

theorem staleIn_modifyFrame (change : NameFrame → NameFrame) (other : ScopeId) :
    (supply.modifyFrame scope change).StaleIn other name ↔
      if scope = other then
        ∃ own, supply.scopes.payload? scope = some own ∧ (change own).IsStale name
      else supply.StaleIn other name := by
  rw [StaleIn, modifyFrame, NestedScopes.payload?_modifyPayload]
  split
  · rename_i same
    subst same
    simp
  · rfl

theorem staleIn_closedAt_iff (closing other : ScopeId) :
    StaleIn ⟨supply.scopes.closedAt closing⟩ other name ↔ supply.StaleIn other name := by
  rw [StaleIn, NestedScopes.payload?_closedAt, StaleIn]

/-- A new scope has nothing reserved. -/
theorem staleIn_enter_iff {parent child : ScopeId} {label : Option String}
    {scopes : NestedScopes NameFrame}
    (entered : supply.scopes.enter parent label .empty = .ok child scopes) (other : ScopeId) :
    StaleIn ⟨scopes⟩ other name ↔ supply.StaleIn other name := by
  rw [StaleIn, StaleIn, NestedScopes.payload?_of_enter entered]
  split
  · rename_i isNew
    have unknown : supply.scopes.payload? other = none := by
      rw [isNew, NestedScopes.payload?,
        NestedScopes.get?_eq_none_of_unknown (NestedScopes.size_le_child_of_enter entered)]
      rfl
    simp [unknown, NameFrame.IsStale, NameFrame.empty]
  · rfl

/-- Nothing but reserving a name that is due makes a name stale, and nothing undoes it. -/
theorem staleIn_after_iff (orderly : supply.Orderly) (room : supply.HasRoom) (call : NameCall) :
    (call.after supply).StaleIn scope name ↔
      supply.StaleIn scope name ∨
        call = .reserve scope name ∧ supply.IsDue scope name := by
  cases call with
  | enter parent label =>
      rcases supply.scopes.enter_cases parent label .empty with
        ⟨_, scopes, entered⟩ | ⟨cause, _, refused⟩
      · simp [NameCall.after, enter, entered, staleIn_enter_iff entered]
      · simp [NameCall.after, enter, refused]
  | close closing =>
      rcases supply.scopes.close_cases closing with
        ⟨_, closed⟩ | ⟨_, closed⟩ | ⟨cause, _, refused⟩
      · simp [NameCall.after, close, closed, staleIn_closedAt_iff]
      · simp [NameCall.after, close, closed]
      · simp [NameCall.after, close, refused]
  | fresh asked hint =>
      cases check : supply.scopes.requireUsable asked with
      | error cause => simp [NameCall.after, fresh_of_unusable check]
      | ok =>
          rcases exists_own check with ⟨own, found⟩
          have ofAsked := orderly.ofOpen (NestedScopes.requireOpen_of_requireUsable check) found
          simp only [NameCall.after, fresh_of_usable check, Outcome.state_ok, afterFresh,
            staleIn_modifyFrame, reduceCtorEq, false_and, or_false]
          split
          · rename_i same
            subst same
            simp [StaleIn, found, isStale_fresh ofAsked room found (isBase_baseOfHint hint)]
          · rfl
  | reserve asked taken =>
      cases check : supply.scopes.requireUsable asked with
      | error cause =>
          simp only [NameCall.after, reserve_of_unusable check, Outcome.state_error, IsDue,
            NameCall.reserve.injEq]
          constructor
          · exact .inl
          · rintro (stale | ⟨⟨rfl, _⟩, usable, _⟩)
            · exact stale
            · simp [check] at usable
      | ok =>
          rcases exists_own check with ⟨own, found⟩
          have ofAsked := orderly.ofOpen (NestedScopes.requireOpen_of_requireUsable check) found
          simp only [NameCall.after, reserve_of_usable check, Outcome.state_ok, afterReserve,
            staleIn_modifyFrame, NameCall.reserve.injEq, IsDue]
          split
          · rename_i same
            subst same
            simp [StaleIn, found, check, isStale_reservation ofAsked room found]
          · rename_i differ
            simp [differ]

/-! ## What the calls keep -/

namespace Orderly

theorem initial (label : Option String) : Orderly (.ofRoot label) := by
  constructor
  · intro scope own found name reserved
    rw [eq_empty_of_ofRoot found] at reserved
    exact (NameFrame.Orderly.empty [] reserved).1
  · intro scope own _ found
    rw [eq_empty_of_ofRoot found]
    exact .empty _

theorem enter (orderly : supply.Orderly) (wellNested : supply.scopes.WellNested)
    {parent child : ScopeId} {label : Option String} {scopes : NestedScopes NameFrame}
    (entered : supply.scopes.enter parent label .empty = .ok child scopes) :
    Orderly ⟨scopes⟩ := by
  constructor
  · intro scope own found name reserved
    simp only [NestedScopes.payload?_of_enter entered] at found
    split at found
    · cases found
      exact (NameFrame.Orderly.empty [] reserved).1
    · exact orderly.isNumbered found reserved
  · intro scope own opened found
    simp only [NestedScopes.payload?_of_enter entered] at found
    split at found
    · cases found
      exact .empty _
    · rename_i older
      rw [frames_of_enter wellNested entered older]
      exact orderly.ofOpen ((NestedScopes.requireOpen_after_enter_iff entered older).mp opened)
        found

theorem close (orderly : supply.Orderly) {closing : ScopeId}
    (usable : supply.scopes.requireUsable closing = .ok ()) :
    Orderly ⟨supply.scopes.closedAt closing⟩ := by
  have known := ((NestedScopes.requireUsable_eq_ok_iff _ _).mp usable).1
  constructor
  · intro scope own found
    rw [NestedScopes.payload?_closedAt] at found
    exact orderly.isNumbered found
  · intro scope own opened found
    rw [NestedScopes.payload?_closedAt] at found
    rw [frames_closedAt]
    exact orderly.ofOpen ((NestedScopes.requireOpen_closedAt_iff _ _ _ known).mp opened).2 found

/-- A change to the frame of a usable scope has to keep this frame orderly. -/
theorem modifyFrame (orderly : supply.Orderly) (wellNested : supply.scopes.WellNested)
    (usable : supply.scopes.requireUsable scope = .ok ()) {change : NameFrame → NameFrame}
    (kept : ∀ own outer, supply.frames scope = own :: outer →
      NameFrame.Orderly (own :: outer) own → NameFrame.Orderly (change own :: outer) (change own)) :
    (supply.modifyFrame scope change).Orderly := by
  have scopeOpen := NestedScopes.requireOpen_of_requireUsable usable
  have keptAt : ∀ {own : NameFrame}, supply.scopes.payload? scope = some own →
      NameFrame.Orderly ((supply.modifyFrame scope change).frames scope) (change own) := by
    intro own found
    have before := frames_of_payload? found
    rw [frames_modifyFrame_self wellNested found]
    apply kept own _ before
    rw [← before]
    exact orderly.ofOpen scopeOpen found
  constructor
  · intro other own found
    simp only [NameSupply.modifyFrame, NestedScopes.payload?_modifyPayload] at found
    split at found
    · rcases Option.map_eq_some_iff.mp found with ⟨before, foundBefore, rfl⟩
      rename_i same
      subst same
      intro name reserved
      exact (keptAt foundBefore reserved).1
    · exact orderly.isNumbered found
  · intro other own opened found
    have openedBefore := (NestedScopes.requireOpen_modifyPayload_iff _ _ _ _).mp opened
    simp only [NameSupply.modifyFrame, NestedScopes.payload?_modifyPayload] at found
    split at found
    · rcases Option.map_eq_some_iff.mp found with ⟨before, foundBefore, rfl⟩
      rename_i same
      subst same
      exact keptAt foundBefore
    · rename_i differ
      rw [frames_modifyFrame_of_open wellNested usable change openedBefore (Ne.symm differ)]
      exact orderly.ofOpen openedBefore found

theorem afterFresh (orderly : supply.Orderly) (wellNested : supply.scopes.WellNested)
    (usable : supply.scopes.requireUsable scope = .ok ()) (hint : Option String) :
    (supply.afterFresh scope hint).Orderly := by
  apply orderly.modifyFrame wellNested usable
  intro own outer _ ownOrderly
  exact (ownOrderly.forget _).withIndex _ _

theorem afterReserve (orderly : supply.Orderly) (wellNested : supply.scopes.WellNested)
    (room : supply.HasRoom) (usable : supply.scopes.requireUsable scope = .ok ())
    (name : String) : (supply.afterReserve scope name).Orderly := by
  apply orderly.modifyFrame wellNested usable
  intro own outer frames ownOrderly
  rcases supply.reservation_cases scope name own with
    ⟨unchanged, _⟩ | ⟨ahead, isNumbered, _, higher⟩ | ⟨_, _, indexed⟩
  · rwa [unchanged]
  · have aheadOf := aheadOf_of_reservation room higher
    rw [frames] at aheadOf
    rw [ahead]
    exact ownOrderly.withReserved isNumbered aheadOf
  · rw [indexed]
    exact ownOrderly.withIndex _ _

end Orderly

end NameSupply

namespace NameHistory

/-! ## Runs -/

theorem hasRoom {history : NameHistory} (backed : history.Backed)
    (few : history.takings.length ≤ maxIndex) : history.supply.HasRoom :=
  fun _ _ _ => latest_lt_maxIndex backed few

theorem orderly_step {history after : NameHistory} (backed : history.Backed)
    (few : history.takings.length ≤ maxIndex) (step : Step history after)
    (orderly : history.supply.Orderly) : after.supply.Orderly := by
  have wellNested := backed.wellNested
  cases step with
  | idle => exact orderly
  | enter entered => exact orderly.enter wellNested entered
  | close usable => exact orderly.close usable
  | fresh usable hint => exact orderly.afterFresh wellNested usable hint
  | reserve usable name => exact orderly.afterReserve wellNested (hasRoom backed few) usable name

theorem orderly_ofCalls (label : Option String) (calls : List NameCall)
    (few : (ofCalls label calls).takings.length ≤ maxIndex) :
    (ofCalls label calls).supply.Orderly := by
  induction calls using List.reverseRecOn with
  | nil => exact .initial label
  | append_singleton calls call ih =>
      rw [ofCalls_append] at few ⊢
      have fewBefore := Nat.le_trans (length_takings_le_record _ call) few
      exact orderly_step (.ofCalls label calls) fewBefore (step_record _ call) (ih fewBefore)

/-- At some point of a run, a call reserved a name that was due. -/
def ReservedWhenDue (label : Option String) (calls : List NameCall) (scope : ScopeId)
    (name : String) : Prop :=
  ∃ before behind, calls = before ++ .reserve scope name :: behind ∧
    (ofCalls label before).supply.IsDue scope name

theorem reservedWhenDue_append_iff (label : Option String) (calls : List NameCall)
    (call : NameCall) (scope : ScopeId) (name : String) :
    ReservedWhenDue label (calls ++ [call]) scope name ↔
      ReservedWhenDue label calls scope name ∨
        call = .reserve scope name ∧ (ofCalls label calls).supply.IsDue scope name := by
  constructor
  · rintro ⟨before, behind, split, due⟩
    rcases List.eq_nil_or_concat behind with rfl | ⟨more, last, rfl⟩
    · rcases List.append_inj' split rfl with ⟨rfl, same⟩
      exact .inr ⟨List.singleton_inj.mp same, due⟩
    · have split : calls ++ [call] = (before ++ .reserve scope name :: more) ++ [last] := by
        simpa using split
      exact .inl ⟨before, more, (List.append_inj' split rfl).1, due⟩
  · rintro (⟨before, behind, rfl, due⟩ | ⟨rfl, due⟩)
    · exact ⟨before, behind ++ [call], by simp, due⟩
    · exact ⟨calls, [], rfl, due⟩

/-- A name is stale if and only if it was reserved when it was due, however long ago. -/
theorem staleIn_ofCalls_iff (label : Option String) (calls : List NameCall)
    (few : (ofCalls label calls).takings.length ≤ maxIndex) (scope : ScopeId) (name : String) :
    (ofCalls label calls).supply.StaleIn scope name ↔ ReservedWhenDue label calls scope name := by
  induction calls using List.reverseRecOn with
  | nil =>
      constructor
      · rintro ⟨own, found, reserved, _⟩
        rw [NameSupply.eq_empty_of_ofRoot found] at reserved
        simp [NameFrame.empty] at reserved
      · rintro ⟨before, behind, split, _⟩
        simp at split
  | append_singleton calls call ih =>
      rw [ofCalls_append] at few
      have fewBefore := Nat.le_trans (length_takings_le_record _ call) few
      rw [reservedWhenDue_append_iff, ← ih fewBefore, ofCalls_append]
      exact NameSupply.staleIn_after_iff (orderly_ofCalls label calls fewBefore)
        (hasRoom (.ofCalls label calls) fewBefore) call

/-- A stale name is behind the next index of every open scope that sees it. -/
theorem lt_nextIndex_of_staleIn {history : NameHistory} (descending : history.OpenlyDescending)
    (room : history.supply.HasRoom) {scope inner : ScopeId} {name : String}
    (stale : history.supply.StaleIn scope name)
    (opened : history.supply.scopes.requireOpen inner = .ok ())
    (around : scope ∈ history.supply.scopes.path inner) :
    NumberedName.index name < history.supply.nextIndex inner (NumberedName.base name) := by
  rcases stale with ⟨own, found, _, latest, inUse, reached⟩
  have inSight : own ∈ history.supply.frames inner := List.mem_filterMap.mpr ⟨scope, around, found⟩
  have onRow : latest ∈ NameFrame.indicesIn (history.supply.frames inner)
      (NumberedName.base name) :=
    List.mem_filterMap.mpr ⟨own, inSight, inUse⟩
  rcases (descending inner opened).le_latestIn onRow with ⟨closest, foundClosest, upTo⟩
  exact NameSupply.lt_nextIndex_of_le_latest foundClosest (Nat.le_trans reached upTo)
    (room _ _ _ foundClosest)

/--
After every run, what a scope has reserved are numbered bases, and their indices are above the one
that the scope itself has in use for the base, except for the names that were reserved when they were
due, that is, at their turn and although they were reserved already. So searches leave no reserved
name behind. A name that was reserved when it was due stays among the reserved ones for the rest of
the run, at or behind the scope's own index. It is then behind the next index of every open scope in
sight, so no search looks at it again. Since indices are 64-bit words, a run is supposed to have
fewer calls for names than there are indices.
-/
theorem reserved_names_are_ahead_unless_reserved_when_due (label : Option String)
    (calls : List NameCall) (few : calls.countP NameCall.isForName < UInt64.size) :
    let supply := (ofCalls label calls).supply
    (∀ scope own, supply.scopes.payload? scope = some own →
      ∀ name, own.reserved.contains name = true →
        ∃ base index, IsBase base ∧ numbered base index = name ∧
          ((∀ latest, own.latest[base]? = some latest → latest < index) ↔
            ¬ReservedWhenDue label calls scope name)) ∧
    ∀ scope name, ReservedWhenDue label calls scope name →
      (∃ own latest, supply.scopes.payload? scope = some own ∧
        own.reserved.contains name = true ∧
        own.latest[NumberedName.base name]? = some latest ∧ NumberedName.index name ≤ latest) ∧
      ∀ inner, supply.scopes.requireOpen inner = .ok () → scope ∈ supply.scopes.path inner →
        NumberedName.index name < supply.nextIndex inner (NumberedName.base name) := by
  intro supply
  have fewTakings : (ofCalls label calls).takings.length ≤ maxIndex :=
    Nat.le_trans (length_takings_le label calls) (Nat.le_pred_of_lt few)
  have staleIff := staleIn_ofCalls_iff label calls fewTakings
  constructor
  · intro scope own found name reserved
    have isNumbered := (orderly_ofCalls label calls fewTakings).isNumbered found reserved
    refine ⟨NumberedName.base name, NumberedName.index name,
      NumberedName.isBase_of_not_isUnnumbered isNumbered,
      NumberedName.numbered_base_index isNumbered, ?_⟩
    rw [← staleIff]
    constructor
    · rintro ahead ⟨other, foundOther, _, latest, inUse, reached⟩
      cases found.symm.trans foundOther
      have above := ahead latest inUse
      omega
    · intro notStale latest inUse
      by_contra reached
      exact notStale ⟨own, found, reserved, latest, inUse, Nat.le_of_not_lt reached⟩
  · intro scope name reservedWhenDue
    have stale := (staleIff scope name).mpr reservedWhenDue
    constructor
    · rcases stale with ⟨own, found, reserved, latest, inUse, reached⟩
      exact ⟨own, latest, found, reserved, inUse, reached⟩
    · intro inner opened around
      exact lt_nextIndex_of_staleIn (.ofCalls label calls fewTakings)
        (hasRoom (.ofCalls label calls) fewTakings) stale opened around

/-- A name is reserved ahead, and then again when its turn has come. -/
def repeatingCalls : List NameCall :=
  [.reserve .root "foo1", .reserve .root "foo", .reserve .root "foo1"]

/-- One name stays behind where it was reserved when due, and another one is still ahead. -/
theorem repeated_name_is_behind_and_other_ahead :
    let calls := repeatingCalls ++ [.reserve .root "foo3", .enter .root none]
    let supply := (ofCalls none calls).supply
    calls.countP NameCall.isForName < UInt64.size ∧
    (∃ own, supply.scopes.payload? .root = some own ∧
      own.reserved.contains "foo3" = true ∧ own.latest["foo"]? = some 1 ∧
      ¬ReservedWhenDue none calls .root "foo3") ∧
    ReservedWhenDue none calls .root "foo1" ∧
    (∃ own latest, supply.scopes.payload? .root = some own ∧
      own.reserved.contains "foo1" = true ∧ own.latest["foo"]? = some latest ∧ 1 ≤ latest) ∧
    supply.scopes.requireOpen ⟨1⟩ = .ok () ∧ ScopeId.root ∈ supply.scopes.path ⟨1⟩ ∧
    1 < supply.nextIndex ⟨1⟩ "foo" := by
  intro calls supply
  have few : calls.countP NameCall.isForName < UInt64.size := by decide
  have opened : supply.scopes.requireOpen ⟨1⟩ = .ok () := by decide +kernel
  have around : ScopeId.root ∈ supply.scopes.path ⟨1⟩ := by decide +kernel
  have kept : (supply.scopes.payload? .root).map (fun own =>
      (own.reserved.contains "foo3", own.latest["foo"]?)) = some (true, some 1) := by
    decide +kernel
  rcases Option.map_eq_some_iff.mp kept with ⟨own, found, view⟩
  simp only [Prod.mk.injEq] at view
  have due : ReservedWhenDue none calls .root "foo1" := by
    have reservedBefore : ((ofCalls none [.reserve .root "foo1", .reserve .root "foo"]).supply
        |>.scopes.payload? .root).map (fun own => own.reserved.contains "foo1") = some true := by
      decide +kernel
    exact ⟨[.reserve .root "foo1", .reserve .root "foo"], _, rfl, by decide +kernel,
      Option.map_eq_some_iff.mp reservedBefore, by decide +kernel⟩
  rcases reserved_names_are_ahead_unless_reserved_when_due none calls few with ⟨ahead, behind⟩
  rcases ahead .root own found "foo3" view.1 with ⟨base, index, isBase, same, aheadIff⟩
  have readBack : base = "foo" ∧ index = 3 :=
    (NumberedName.numbered_inj isBase ⟨by decide, by decide⟩).mp same
  rcases readBack with ⟨rfl, rfl⟩
  have isAhead : ∀ latest, own.latest["foo"]? = some latest → latest < 3 := by
    simp [view.2]
  rcases behind .root "foo1" due with ⟨stale, unseen⟩
  have ofFoo : NumberedName.base "foo1" = "foo" ∧ NumberedName.index "foo1" = 1 := by decide
  rw [ofFoo.1, ofFoo.2] at stale unseen
  exact ⟨few, ⟨own, found, view.1, view.2, aheadIff.mp isAhead⟩, due, stale, opened, around,
    unseen ⟨1⟩ opened around⟩

/-- The scope's own index is one, and the name with index one is still reserved there. -/
theorem name_reserved_again_stays_behind :
    ¬∀ scope own, (ofCalls none repeatingCalls).supply.scopes.payload? scope = some own →
      ∀ name, own.reserved.contains name = true →
        ∃ base index, IsBase base ∧ numbered base index = name ∧
          ∀ latest, own.latest[base]? = some latest → latest < index := by
  intro allAhead
  have kept : ((ofCalls none repeatingCalls).supply.scopes.payload? .root).map (fun own =>
      (own.reserved.contains "foo1", own.latest["foo"]?)) = some (true, some 1) := by
    decide +kernel
  rcases Option.map_eq_some_iff.mp kept with ⟨own, found, view⟩
  simp only [Prod.mk.injEq] at view
  rcases allAhead .root own found "foo1" view.1 with ⟨base, index, isBase, same, ahead⟩
  have readBack : base = "foo" ∧ index = 1 :=
    (NumberedName.numbered_inj isBase ⟨by decide, by decide⟩).mp same
  rcases readBack with ⟨rfl, rfl⟩
  exact Nat.lt_irrefl 1 (ahead 1 view.2)

end NameHistory

end JvmEmit
