import JvmEmit.Proofs.Name.Counting

/-!
# Indices grow inwards and in time

The index in use for a base is that of the closest scope that has one. While a scope is open nothing
around it can take names, so a scope that gets an index gets a higher one than the scopes around it
have, and the closest index is the highest. This is no longer so once the scope is closed, since the
scopes around it go on.

In time, the index of a scope only grows, even that of a closed scope that sees one of a scope
around it. Indices are 64-bit words, and the next one is not higher once the largest is in use, so
this is told of runs with fewer calls for names than there are indices.
-/

namespace JvmEmit

open NumberedName (numbered baseOfHint IsBase isBase_baseOfHint)
open NameSupply (maxIndex)

namespace NameFrame

/-- The indices that a row of frames has in use for a base, the closest first. -/
def indicesIn (frames : List NameFrame) (base : String) : List Nat :=
  frames.filterMap fun frame => frame.latest[base]?

theorem head?_indicesIn (frames : List NameFrame) (base : String) :
    (indicesIn frames base).head? = latestIn frames base :=
  List.head?_filterMap

/-- In a row of frames, the indices in use for a base are the higher the closer. -/
def Descending (frames : List NameFrame) : Prop :=
  ∀ base, (indicesIn frames base).Pairwise (· > ·)

theorem Descending.max?_indicesIn {frames : List NameFrame} (descending : Descending frames)
    (base : String) : (indicesIn frames base).max? = latestIn frames base := by
  rw [← head?_indicesIn]
  apply List.max?_eq_head?
  apply (descending base).imp
  intro closer further higher
  exact Nat.max_eq_left (Nat.le_of_lt higher)

theorem Descending.le_latestIn {frames : List NameFrame} (descending : Descending frames)
    {base : String} {index : Nat} (member : index ∈ indicesIn frames base) :
    ∃ closest, latestIn frames base = some closest ∧ index ≤ closest := by
  have ordered := descending base
  rw [← head?_indicesIn]
  cases row : indicesIn frames base with
  | nil => simp [row] at member
  | cons closest further =>
      rw [row, List.pairwise_cons] at ordered
      rw [row] at member
      refine ⟨closest, rfl, ?_⟩
      rcases List.mem_cons.mp member with rfl | isFurther
      · exact Nat.le_refl _
      · exact Nat.le_of_lt (ordered.1 index isFurther)

theorem indicesIn_cons (own : NameFrame) (outer : List NameFrame) (base : String) :
    indicesIn (own :: outer) base = own.latest[base]?.toList ++ indicesIn outer base := by
  rw [indicesIn, List.filterMap_cons]
  cases own.latest[base]? <;> rfl

theorem descending_cons_iff {own : NameFrame} {outer : List NameFrame} :
    Descending (own :: outer) ↔
      Descending outer ∧ ∀ base index, own.latest[base]? = some index →
        ∀ further ∈ indicesIn outer base, further < index := by
  simp only [Descending, indicesIn_cons, List.pairwise_append, forall_and, Option.mem_toList]
  constructor
  · rintro ⟨_, outerDescending, above⟩
    exact ⟨outerDescending, above⟩
  · rintro ⟨outerDescending, above⟩
    refine ⟨fun base => ?_, outerDescending, above⟩
    cases own.latest[base]? <;> simp

/-- In front of other frames, a frame gets no other indices than one above the closest one. -/
inductive Raised (outer : List NameFrame) (own : NameFrame) : NameFrame → Prop where
  | same {after : NameFrame} (latest : after.latest = own.latest) : Raised outer own after
  | higher {after : NameFrame} {base : String} {index : Nat}
      (latest : after.latest = own.latest.insert base index)
      (above : ∀ closest, latestIn (own :: outer) base = some closest → closest < index) :
      Raised outer own after

namespace Raised

variable {own after : NameFrame} {outer : List NameFrame}

theorem latestIn_cases (raised : Raised outer own after) (base : String) :
    latestIn (after :: outer) base = latestIn (own :: outer) base ∨
      ∃ index, latestIn (after :: outer) base = some index ∧
        ∀ closest, latestIn (own :: outer) base = some closest → closest < index := by
  cases raised with
  | same latest => exact .inl (by simp only [latestIn, List.findSome?_cons, latest])
  | @higher changed index latest above =>
      have inserted : latestIn (after :: outer) base =
          if changed = base then some index else latestIn (own :: outer) base := by
        rw [← latestIn_withIndex]
        simp only [latestIn, List.findSome?_cons, latest, withIndex]
      by_cases same : changed = base
      · subst base
        exact .inr ⟨index, by simp [inserted], above⟩
      · exact .inl (by simp [inserted, same])

/-- The closest index does not get lower. -/
theorem latestIn_le (raised : Raised outer own after) {base : String} {index : Nat}
    (found : latestIn (own :: outer) base = some index) :
    ∃ later, latestIn (after :: outer) base = some later ∧ index ≤ later := by
  rcases raised.latestIn_cases base with same | ⟨later, foundLater, above⟩
  · exact ⟨index, same.trans found, Nat.le_refl _⟩
  · exact ⟨later, foundLater, Nat.le_of_lt (above index found)⟩

theorem descending (raised : Raised outer own after) (descending : Descending (own :: outer)) :
    Descending (after :: outer) := by
  rcases descending_cons_iff.mp descending with ⟨outerDescending, ownAbove⟩
  refine descending_cons_iff.mpr ⟨outerDescending, ?_⟩
  intro base index inUse further member
  cases raised with
  | same latest => exact ownAbove base index (latest ▸ inUse) further member
  | @higher changed raisedTo latest above =>
      simp only [latest, Std.TreeMap.getElem?_insert, Std.LawfulEqCmp.compare_eq_iff_eq] at inUse
      split at inUse
      · rename_i same
        subst same
        have onRow : further ∈ indicesIn (own :: outer) changed := by
          simp [indicesIn_cons, member]
        rcases descending.le_latestIn onRow with ⟨closest, found, upTo⟩
        have below := above closest found
        simp only [Option.some.injEq] at inUse
        omega
      · exact ownAbove base index inUse further member

end Raised

end NameFrame

namespace NameSupply

variable {supply : NameSupply} {scope : ScopeId} {own : NameFrame} {outer : List NameFrame}

theorem lt_nextIndex {base : String} {closest : Nat}
    (room : ∀ latest, supply.latestIndex? scope base = some latest → latest < maxIndex)
    (found : supply.latestIndex? scope base = some closest) :
    closest < supply.nextIndex scope base :=
  lt_nextIndex_of_le_latest found (Nat.le_refl _) (room closest found)

theorem lt_freeIndex {base : String} {closest : Nat}
    (room : ∀ latest, supply.latestIndex? scope base = some latest → latest < maxIndex)
    (found : supply.latestIndex? scope base = some closest) :
    closest < supply.freeIndex scope base :=
  Nat.lt_of_lt_of_le (lt_nextIndex room found) (Nat.le_add_right _ _)

theorem raised_fresh (found : supply.scopes.payload? scope = some own)
    (room : ∀ base latest, supply.latestIndex? scope base = some latest → latest < maxIndex)
    (base : String) :
    NameFrame.Raised (supply.scopes.outerPayloads scope) own
      ((own.forget (supply.skippedNames scope base)).withIndex base
        (supply.freeIndex scope base)) := by
  apply NameFrame.Raised.higher rfl
  intro closest inUse
  rw [← frames_of_payload? found] at inUse
  exact lt_freeIndex (room base) inUse

theorem raised_reservation (found : supply.scopes.payload? scope = some own)
    (room : ∀ base latest, supply.latestIndex? scope base = some latest → latest < maxIndex)
    (name : String) :
    NameFrame.Raised (supply.scopes.outerPayloads scope) own
      (supply.reservation scope name own) := by
  rcases supply.reservation_cases scope name own with
    ⟨unchanged, _⟩ | ⟨ahead, _⟩ | ⟨_, atNext, indexed⟩
  · exact .same (by rw [unchanged])
  · exact .same (by rw [ahead, NameFrame.withReserved])
  · rw [indexed]
    apply NameFrame.Raised.higher rfl
    intro closest inUse
    rw [← frames_of_payload? found] at inUse
    rw [atNext]
    exact lt_nextIndex (room _) inUse

theorem latestIndex?_afterFresh (wellNested : supply.scopes.WellNested)
    (found : supply.scopes.payload? scope = some own) (hint : Option String) :
    (supply.afterFresh scope hint).latestIndex? scope (baseOfHint hint) =
      some (supply.freeIndex scope (baseOfHint hint)) := by
  rw [latestIndex?_eq, afterFresh, frames_modifyFrame_self wellNested found,
    NameFrame.latestIn_withIndex, if_pos rfl]

/-- The index in use for a base in any scope is not lower later, and in use there at all. -/
def GrowsTo (before after : NameSupply) : Prop :=
  ∀ scope base index, before.latestIndex? scope base = some index →
    ∃ later, after.latestIndex? scope base = some later ∧ index ≤ later

namespace GrowsTo

theorem refl (supply : NameSupply) : supply.GrowsTo supply :=
  fun _ _ index found => ⟨index, found, Nat.le_refl _⟩

theorem trans {before middle after : NameSupply} (first : before.GrowsTo middle)
    (second : middle.GrowsTo after) : before.GrowsTo after := by
  intro scope base index found
  rcases first scope base index found with ⟨between, foundBetween, notLower⟩
  rcases second scope base between foundBetween with ⟨later, foundLater, notLowerStill⟩
  exact ⟨later, foundLater, Nat.le_trans notLower notLowerStill⟩

theorem of_frames_eq {before after : NameSupply}
    (same : ∀ scope, before.frames scope = after.frames scope ∨ before.frames scope = []) :
    before.GrowsTo after := by
  intro scope base index found
  rcases same scope with same | nothing
  · rw [latestIndex?, same] at found
    exact ⟨index, found, Nat.le_refl _⟩
  · simp [latestIndex?, nothing] at found

end GrowsTo

/-- The look-up of an index goes on in the parent if the scope has none of its own. -/
theorem latestIndex?_of_parent? (wellNested : supply.scopes.WellNested) {parent : ScopeId}
    (inside : supply.scopes.parent? scope = some parent) (base : String) :
    supply.latestIndex? scope base =
      ((supply.scopes.payload? scope).bind fun own => own.latest[base]?).or
        (supply.latestIndex? parent base) := by
  rcases NestedScopes.exists_payload? (NestedScopes.known_of_parent? inside) with ⟨own, found⟩
  rw [latestIndex?, frames_of_payload? found, wellNested.outerPayloads_eq inside, found,
    List.findSome?_cons, Option.bind_some]
  cases own.latest[base]? <;> rfl

/-- A raised frame lets no index get lower, neither in its own scope nor in the scopes inside it. -/
theorem growsTo_modifyFrame (wellNested : supply.scopes.WellNested)
    {change : NameFrame → NameFrame} (found : supply.scopes.payload? scope = some own)
    (raised : NameFrame.Raised (supply.scopes.outerPayloads scope) own (change own)) :
    supply.GrowsTo (supply.modifyFrame scope change) := by
  have before := frames_of_payload? found
  have after := frames_modifyFrame_self wellNested found change
  have wellNestedAfter : (supply.modifyFrame scope change).scopes.WellNested :=
    wellNested.modifyPayload scope change
  intro other base index inUse
  have atScope : supply.latestIndex? scope base = some index →
      ∃ later, (supply.modifyFrame scope change).latestIndex? scope base = some later ∧
        index ≤ later := by
    rw [latestIndex?_eq, before, latestIndex?_eq, after]
    exact raised.latestIn_le
  -- inwards from there, because a scope without an index of its own has that of its parent
  induction other using wellNested.outward_induction with
  | top other outside =>
      by_cases same : other = scope
      · subst other
        exact atScope inUse
      · have apart : scope ∉ supply.scopes.path other := by
          simp [NestedScopes.path_eq_singleton outside, Ne.symm same]
        have unchanged : (supply.modifyFrame scope change).frames other = supply.frames other :=
          NestedScopes.payloads_modifyPayload_of_not_mem change apart
        exact ⟨index, by rwa [latestIndex?, unchanged], Nat.le_refl _⟩
  | inside other parent inside ih =>
      by_cases same : other = scope
      · subst other
        exact atScope inUse
      · have insideAfter :
            (supply.modifyFrame scope change).scopes.parent? other = some parent := by
          simpa [modifyFrame] using inside
        have sameOwn : (supply.modifyFrame scope change).scopes.payload? other =
            supply.scopes.payload? other := by
          simp [modifyFrame, NestedScopes.payload?_modifyPayload, Ne.symm same]
        rw [latestIndex?_of_parent? wellNested inside] at inUse
        rw [latestIndex?_of_parent? wellNestedAfter insideAfter, sameOwn]
        cases ownIndex : (supply.scopes.payload? other).bind fun own => own.latest[base]? with
        | some closest =>
            rw [ownIndex] at inUse
            exact ⟨index, inUse, Nat.le_refl _⟩
        | none =>
            rw [ownIndex] at inUse
            exact ih inUse

end NameSupply

namespace NameHistory

/-! ## Runs -/

theorem latest_lt_maxIndex {history : NameHistory} (backed : history.Backed)
    (few : history.takings.length ≤ maxIndex) {scope : ScopeId} {base : String} {latest : Nat}
    (found : history.supply.latestIndex? scope base = some latest) : latest < maxIndex := by
  have below := backed.lt_takenCount_of_latestIndex? found
  have counted : history.takenCount scope base ≤ history.takings.length := List.countP_le_length
  omega

theorem growsTo_step {history after : NameHistory} (backed : history.Backed)
    (few : history.takings.length ≤ maxIndex) (step : Step history after) :
    history.supply.GrowsTo after.supply := by
  have wellNested := backed.wellNested
  have room : ∀ scope base latest, history.supply.latestIndex? scope base = some latest →
      latest < maxIndex := fun _ _ _ => latest_lt_maxIndex backed few
  cases step with
  | idle => exact .refl _
  | @enter parent child label scopes entered =>
      apply NameSupply.GrowsTo.of_frames_eq
      intro scope
      by_cases isNew : scope = child
      · right
        rw [isNew]
        exact NestedScopes.payloads_of_unknown (NestedScopes.size_le_child_of_enter entered)
      · exact .inl (NameSupply.frames_of_enter wellNested entered isNew).symm
  | close usable =>
      apply NameSupply.GrowsTo.of_frames_eq
      intro scope
      exact .inl (NameSupply.frames_closedAt _ _ _).symm
  | fresh usable hint =>
      rcases NameSupply.exists_own usable with ⟨own, found⟩
      exact NameSupply.growsTo_modifyFrame wellNested found
        (NameSupply.raised_fresh found (room _) (baseOfHint hint))
  | reserve usable name =>
      rcases NameSupply.exists_own usable with ⟨own, found⟩
      exact NameSupply.growsTo_modifyFrame wellNested found
        (NameSupply.raised_reservation found (room _) name)

/-- In every open scope, the indices in use for a base are the higher the closer. -/
def OpenlyDescending (history : NameHistory) : Prop :=
  ∀ scope, history.supply.scopes.requireOpen scope = .ok () →
    NameFrame.Descending (history.supply.frames scope)

namespace OpenlyDescending

variable {history : NameHistory} {scope : ScopeId}

theorem initial (label : Option String) : OpenlyDescending ⟨.ofRoot label, []⟩ := by
  rintro ⟨_ | index⟩ _ base
  · change (NameFrame.indicesIn [.empty] base).Pairwise _
    simp [NameFrame.indicesIn, NameFrame.empty]
  · exact .nil

theorem enter {parent child : ScopeId} {label : Option String} {scopes : NestedScopes NameFrame}
    (descending : history.OpenlyDescending) (wellNested : history.supply.scopes.WellNested)
    (entered : history.supply.scopes.enter parent label .empty = .ok child scopes) :
    OpenlyDescending ⟨⟨scopes⟩, history.takings⟩ := by
  intro scope opened
  by_cases isNew : scope = child
  · subst scope
    rw [NameSupply.frames_child_of_enter wellNested entered]
    apply NameFrame.descending_cons_iff.mpr
    refine ⟨descending parent (NestedScopes.requireOpen_of_enter entered), ?_⟩
    simp [NameFrame.empty]
  · rw [NameSupply.frames_of_enter wellNested entered isNew]
    exact descending scope ((NestedScopes.requireOpen_after_enter_iff entered isNew).mp opened)

theorem close {closing : ScopeId} (descending : history.OpenlyDescending)
    (usable : history.supply.scopes.requireUsable closing = .ok ()) :
    OpenlyDescending ⟨⟨history.supply.scopes.closedAt closing⟩, history.takings⟩ := by
  have known := ((NestedScopes.requireUsable_eq_ok_iff _ _).mp usable).1
  intro scope opened
  rw [NameSupply.frames_closedAt]
  exact descending scope ((NestedScopes.requireOpen_closedAt_iff _ _ _ known).mp opened).2

/-- No other open scope sees the frame of a usable scope. -/
theorem take {taking : Taking} {change : NameFrame → NameFrame} {own : NameFrame}
    (descending : history.OpenlyDescending) (wellNested : history.supply.scopes.WellNested)
    (usable : history.supply.scopes.requireUsable scope = .ok ())
    (found : history.supply.scopes.payload? scope = some own)
    (raised : NameFrame.Raised (history.supply.scopes.outerPayloads scope) own (change own)) :
    OpenlyDescending ⟨history.supply.modifyFrame scope change, taking :: history.takings⟩ := by
  intro other opened
  have openedBefore := (NestedScopes.requireOpen_modifyPayload_iff _ _ _ _).mp opened
  have before := descending other openedBefore
  by_cases same : other = scope
  · subst other
    rw [NameSupply.frames_modifyFrame_self wellNested found]
    rw [NameSupply.frames_of_payload? found] at before
    exact raised.descending before
  · rwa [NameSupply.frames_modifyFrame_of_open wellNested usable change openedBefore same]

theorem step {after : NameHistory} (descending : history.OpenlyDescending)
    (backed : history.Backed) (few : history.takings.length ≤ maxIndex)
    (step : Step history after) : after.OpenlyDescending := by
  have wellNested := backed.wellNested
  have room : ∀ scope base latest, history.supply.latestIndex? scope base = some latest →
      latest < maxIndex := fun _ _ _ => latest_lt_maxIndex backed few
  cases step with
  | idle => exact descending
  | enter entered => exact descending.enter wellNested entered
  | close usable => exact descending.close usable
  | fresh usable hint =>
      rcases NameSupply.exists_own usable with ⟨own, found⟩
      exact descending.take wellNested usable found
        (NameSupply.raised_fresh found (room _) (baseOfHint hint))
  | reserve usable name =>
      rcases NameSupply.exists_own usable with ⟨own, found⟩
      exact descending.take wellNested usable found
        (NameSupply.raised_reservation found (room _) name)

theorem ofCalls (label : Option String) (calls : List NameCall)
    (few : (NameHistory.ofCalls label calls).takings.length ≤ maxIndex) :
    (NameHistory.ofCalls label calls).OpenlyDescending := by
  induction calls using List.reverseRecOn with
  | nil => exact initial label
  | append_singleton calls call ih =>
      rw [ofCalls_append] at few ⊢
      have fewBefore := Nat.le_trans (length_takings_le_record _ call) few
      exact (ih fewBefore).step (.ofCalls label calls) fewBefore (step_record _ call)

end OpenlyDescending

theorem growsTo_ofCalls_append (label : Option String) (calls more : List NameCall)
    (few : (ofCalls label (calls ++ more)).takings.length ≤ maxIndex) :
    (ofCalls label calls).supply.GrowsTo (ofCalls label (calls ++ more)).supply := by
  induction more using List.reverseRecOn with
  | nil =>
      rw [List.append_nil]
      exact .refl _
  | append_singleton more call ih =>
      rw [← List.append_assoc, ofCalls_append] at few ⊢
      have fewBefore := Nat.le_trans (length_takings_le_record _ call) few
      exact (ih fewBefore).trans (growsTo_step (.ofCalls label _) fewBefore (step_record _ call))

/--
After every run, the index in use for a base in an open scope is the maximum of the indices that the
scope and the scopes around it have for the base, and these are the lower the further out. As the
run goes on, the index in use in a scope never gets lower, whether the scope is open or closed. A
name that is handed out has an index above the one in use before, and this is then the index in use.
Since indices are 64-bit words, a run is supposed to have fewer calls for names than there are
indices.
-/
theorem closest_index_is_highest (label : Option String) (calls more : List NameCall)
    (few : (calls ++ more).countP NameCall.isForName < UInt64.size) :
    let supply := (ofCalls label calls).supply
    let later := (ofCalls label (calls ++ more)).supply
    (∀ scope, supply.scopes.requireOpen scope = .ok () → ∀ base,
      let indices := (supply.frames scope).filterMap fun frame => frame.latest[base]?
      supply.latestIndex? scope base = indices.max? ∧ indices.Pairwise (· > ·)) ∧
    (∀ scope base index, supply.latestIndex? scope base = some index →
      ∃ higher, later.latestIndex? scope base = some higher ∧ index ≤ higher) ∧
    ∀ scope hint name after, supply.fresh scope hint = .ok name after →
      NumberedName.base name = baseOfHint hint ∧
      after.latestIndex? scope (baseOfHint hint) = some (NumberedName.index name) ∧
      ∀ index, supply.latestIndex? scope (baseOfHint hint) = some index →
        index < NumberedName.index name := by
  intro supply later
  have fewLater : (ofCalls label (calls ++ more)).takings.length ≤ maxIndex :=
    Nat.le_trans (length_takings_le label (calls ++ more)) (Nat.le_pred_of_lt few)
  have fewNow : (ofCalls label calls).takings.length ≤ maxIndex := by
    have counted := length_takings_le label calls
    rw [List.countP_append] at few
    rw [maxIndex]
    omega
  refine ⟨?_, growsTo_ofCalls_append label calls more fewLater, ?_⟩
  · intro scope opened base
    have descending := OpenlyDescending.ofCalls label calls fewNow scope opened
    exact ⟨(descending.max?_indicesIn base).symm, descending base⟩
  · intro scope hint name after issued
    cases check : supply.scopes.requireUsable scope with
    | error cause => simp [NameSupply.fresh_of_unusable check] at issued
    | ok =>
        have backed : (ofCalls label calls).Backed := .ofCalls label calls
        simp only [NameSupply.fresh_of_usable check, EStateM.Result.ok.injEq] at issued
        rcases issued with ⟨rfl, rfl⟩
        rcases NameSupply.exists_own check with ⟨own, found⟩
        simp only [NameSupply.freshName, NumberedName.base_numbered (isBase_baseOfHint hint),
          NumberedName.index_numbered (isBase_baseOfHint hint), true_and]
        refine ⟨NameSupply.latestIndex?_afterFresh backed.wellNested found hint, ?_⟩
        intro index inUse
        exact NameSupply.lt_freeIndex (fun _ => latest_lt_maxIndex backed fewNow) inUse

/-- The nested scope goes on with the index of the outermost one. -/
def continuingCalls : List NameCall :=
  [.fresh .root (some "foo"), .fresh .root (some "foo"), .enter .root none,
    .fresh ⟨1⟩ (some "foo")]

/-- The nested scope is closed, and the outermost one overtakes it. -/
def overtakingCalls : List NameCall :=
  [.close ⟨1⟩, .fresh .root (some "foo"), .fresh .root (some "foo")]

theorem closest_index_is_highest_until_overtaken :
    let supply := (ofCalls none continuingCalls).supply
    let later := (ofCalls none (continuingCalls ++ overtakingCalls)).supply
    (continuingCalls ++ overtakingCalls).countP NameCall.isForName < UInt64.size ∧
    supply.scopes.requireOpen ⟨1⟩ = .ok () ∧
    ((supply.frames ⟨1⟩).filterMap fun frame => frame.latest["foo"]?) = [2, 1] ∧
    supply.latestIndex? ⟨1⟩ "foo" = some 2 ∧
    later.scopes.isClosed ⟨1⟩ = true ∧
    ((later.frames ⟨1⟩).filterMap fun frame => frame.latest["foo"]?) = [2, 3] ∧
    ∃ higher, later.latestIndex? ⟨1⟩ "foo" = some higher ∧ 2 ≤ higher := by
  intro supply later
  have few : (continuingCalls ++ overtakingCalls).countP NameCall.isForName < UInt64.size := by
    decide
  have opened : supply.scopes.requireOpen ⟨1⟩ = .ok () := by decide +kernel
  have indices : ((supply.frames ⟨1⟩).filterMap fun frame => frame.latest["foo"]?) = [2, 1] := by
    decide +kernel
  rcases closest_index_is_highest none continuingCalls overtakingCalls few with ⟨highest, grows, _⟩
  have closest : supply.latestIndex? ⟨1⟩ "foo" = some 2 := by
    rw [(highest ⟨1⟩ opened "foo").1, indices]
    rfl
  exact ⟨few, opened, indices, closest, by decide +kernel, by decide +kernel,
    grows ⟨1⟩ "foo" 2 closest⟩

end NameHistory

end JvmEmit
