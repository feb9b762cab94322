import JvmEmit.Proofs.Slot.Frames
import Std.Data.TreeMap.Lemmas

/-!
# The names of variables

A frame finds its variables by name through a map from names to positions. The map is exact, because
no scope declares a name that is visible already. So a look-up that finds nothing speaks for all
variables that are visible, and a new variable differs in name from all of them.
-/

namespace JvmEmit

variable {τ : Type}

namespace VariableFrame

/-- The positions of a frame are exactly those of its named variables. -/
def Indexed (frame : VariableFrame τ) : Prop :=
  ∀ (name : String) (position : Nat),
    frame.positions[name]? = some position ↔
      frame.contents[position]?.bind Variable.name = some name

theorem indexed_startingAt (slot index : Nat) :
    (startingAt slot index : VariableFrame τ).Indexed := by
  intro name position
  simp [startingAt]

theorem Indexed.named?_eq_none_iff {frame : VariableFrame τ} (indexed : frame.Indexed)
    (name : String) :
    frame.named? name = none ↔
      ∀ declared ∈ frame.contents.toList, declared.name ≠ some name := by
  rw [named?]
  constructor
  · intro missing declared member named
    rcases Array.getElem?_of_mem (Array.mem_toList_iff.mp member) with ⟨position, found⟩
    have position? : frame.positions[name]? = some position := by
      rw [indexed, found]
      exact named
    rw [position?, Option.bind_some, found] at missing
    cases missing
  · intro noneNamed
    cases position? : frame.positions[name]? with
    | none => rfl
    | some position =>
        rw [indexed] at position?
        rcases Option.bind_eq_some_iff.mp position? with ⟨declared, found, named⟩
        exact absurd named
          (noneNamed declared (Array.mem_toList_iff.mpr (Array.mem_of_getElem? found)))

theorem Indexed.push [Slotted τ] {frame : VariableFrame τ} {declared : Variable τ}
    (indexed : frame.Indexed)
    (isNew : ∀ given, declared.name = some given → frame.named? given = none) :
    (frame.push declared).Indexed := by
  intro name position
  have contents : (frame.push declared).contents[position]?.bind Variable.name =
      if position = frame.contents.size then declared.name
      else frame.contents[position]?.bind Variable.name := by
    rw [VariableFrame.push, Array.getElem?_push]
    split
    · rfl
    · rfl
  have positions : (frame.push declared).positions[name]? =
      if declared.name = some name then some frame.contents.size else frame.positions[name]? := by
    rw [VariableFrame.push]
    cases declared.name with
    | none => rfl
    | some given => simp [Std.TreeMap.getElem?_insert]
  rw [contents, positions]
  by_cases last : position = frame.contents.size
  · rw [if_pos last]
    split
    · rename_i named
      simp [named, last]
    · rename_i other
      rw [indexed, last]
      simp [other]
  · rw [if_neg last]
    split
    · rename_i named
      have missing := (indexed.named?_eq_none_iff name).mp (isNew name named)
      constructor
      · intro same
        exact absurd (Option.some.inj same).symm last
      · intro older
        rcases Option.bind_eq_some_iff.mp older with ⟨other, found, sameName⟩
        exact absurd sameName
          (missing other (Array.mem_toList_iff.mpr (Array.mem_of_getElem? found)))
    · exact indexed name position

end VariableFrame

namespace SlotTable

/-- Every frame of the table knows the positions of its named variables. -/
def Indexed (table : SlotTable τ) : Prop :=
  ∀ scope, (table.frame scope).Indexed

namespace Indexed

variable {table : SlotTable τ}

theorem initial (label : Option String) : (SlotTable.ofRoot label : SlotTable τ).Indexed := by
  intro scope
  rcases scope with ⟨index⟩
  rcases index with _ | index
  · exact VariableFrame.indexed_startingAt 0 0
  · exact VariableFrame.indexed_startingAt 0 0

theorem frame_indexed (indexed : table.Indexed) {scope : ScopeId} {frame : VariableFrame τ}
    (member : frame ∈ table.frames scope) : frame.Indexed := by
  rcases frame_of_mem_frames member with ⟨outer, _, rfl⟩
  exact indexed outer

/-- The table finds no variable with a name exactly if none is visible. -/
theorem named?_eq_none_iff (indexed : table.Indexed) (scope : ScopeId) (name : String) :
    table.named? scope name = none ↔
      ∀ declared ∈ table.visible scope, declared.name ≠ some name := by
  rw [named?, List.findSome?_eq_none_iff, visible]
  constructor
  · intro missing declared member
    rcases List.mem_flatMap.mp member with ⟨frame, frameMember, contained⟩
    rw [List.mem_reverse] at frameMember
    exact ((indexed.frame_indexed frameMember).named?_eq_none_iff name).mp
      (missing frame frameMember) declared contained
  · intro noneNamed frame frameMember
    apply ((indexed.frame_indexed frameMember).named?_eq_none_iff name).mpr
    intro declared contained
    apply noneNamed declared
    exact List.mem_flatMap.mpr ⟨frame, List.mem_reverse.mpr frameMember, contained⟩

theorem step [Slotted τ] {after : SlotTable τ} (indexed : table.Indexed)
    (step : table.Step after) : after.Indexed := by
  intro scope
  rcases step.frame_cases scope with
    kept | ⟨parent, _, entered⟩ | ⟨role, name, type, accepted, _, grown⟩
  · rw [kept]
    exact indexed scope
  · rw [entered]
    exact VariableFrame.indexed_startingAt _ _
  · have accepts := (requireDeclarable_eq_ok_iff _ _ _ _).mp accepted
    have known := ((NestedScopes.requireUsable_eq_ok_iff _ _).mp accepts.1).1
    rw [grown]
    apply (indexed scope).push
    intro given named
    have missing := accepts.2.2 given named
    rw [named?, List.findSome?_eq_none_iff, frames_eq_cons known] at missing
    exact missing _ List.mem_cons_self

end Indexed

end SlotTable

end JvmEmit
