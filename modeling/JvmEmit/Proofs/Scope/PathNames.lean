import JvmEmit.Proofs.Scope.Runs

/-!
# The names of paths

A scope is called by its label, or else by its position among the scopes inside its parent, and its
path name goes from the outermost scope to it. A scope that has been opened stays in its place, for
its parent lists new scopes behind it and goes on listing those that were closed. So its path name
never changes.

Two scopes inside the same parent have different names if labels tell them apart and no label looks
like a position. If moreover no label has a slash in it, then the names on the path can be read off
the path name, and the path name tells which scope it is.
-/

namespace JvmEmit

/-! ## Numerals -/

theorem isDigit_of_mem_toString {number : Nat} {c : Char}
    (member : c ∈ (toString number).toList) : c.isDigit = true := by
  rw [Nat.toString_eq_ofList_toDigits, String.toList_ofList] at member
  exact Nat.isDigit_of_mem_toDigits (by decide) (by decide) member

theorem toString_inj {number other : Nat} : toString number = toString other ↔ number = other := by
  constructor
  · intro same
    simp only [Nat.toString_eq_ofList_toDigits, String.ofList_inj] at same
    rw [← Nat.ofDigitChars_ten_toDigits (n := number), same, Nat.ofDigitChars_ten_toDigits]
  · exact congrArg toString

namespace NestedScopes

variable {α : Type}

/-! ## Names inside a parent -/

section Inside

variable {nested : NestedScopes α} {scope parent : ScopeId}

theorem position?_eq_idxOf? (inside : nested.parent? scope = some parent) :
    nested.position? scope = (nested.inner parent).idxOf? scope := by
  simp [position?, inside]

theorem getElem?_inner_of_position? (inside : nested.parent? scope = some parent) {position : Nat}
    (placed : nested.position? scope = some position) :
    (nested.inner parent)[position]? = some scope := by
  rw [position?_eq_idxOf? inside] at placed
  have inPlace := List.idxOf?_eq_some_iff.mp placed
  exact List.getElem?_eq_some_iff.mpr ⟨inPlace.1, inPlace.2.1⟩

theorem WellNested.exists_position (wellNested : nested.WellNested)
    (inside : nested.parent? scope = some parent) :
    ∃ position, nested.position? scope = some position := by
  rw [position?_eq_idxOf? inside]
  apply Option.isSome_iff_exists.mp
  exact List.isSome_idxOf?.mpr (wellNested.mem_inner_iff.mpr inside)

/-- A scope inside another one is called by its label, or else by its place in the other's list. -/
theorem WellNested.ownName_cases (wellNested : nested.WellNested)
    (inside : nested.parent? scope = some parent) :
    (∃ label, nested.label? scope = some label ∧ nested.ownName scope = label) ∨
    ∃ position, nested.position? scope = some position ∧
      nested.ownName scope = toString position := by
  cases labelled : nested.label? scope with
  | some label => exact .inl ⟨label, rfl, by simp [ownName, labelled]⟩
  | none =>
      rcases wellNested.exists_position inside with ⟨position, placed⟩
      exact .inr ⟨position, placed, by simp [ownName, labelled, placed]⟩

/-- The path name of a scope goes on from that of its parent. -/
theorem WellNested.pathName_eq (wellNested : nested.WellNested)
    (inside : nested.parent? scope = some parent) :
    nested.pathName scope = nested.pathName parent ++ "/" ++ nested.ownName scope := by
  have outerNames : ((nested.path parent).map nested.ownName).reverse ≠ [] := by
    simp [path]
  simp [pathName, wellNested.path_eq_cons inside,
    String.intercalate_append_of_ne_nil outerNames (List.cons_ne_nil _ [])]

end Inside

/-! ## Names last -/

namespace Extends

variable {earlier later : NestedScopes α}

/-- A scope that is listed by its parent is found in the same place when the list has grown. -/
theorem position?_eq (extended : earlier.Extends later) (wellNested : earlier.WellNested)
    {scope : ScopeId} (known : scope.index < earlier.size) :
    later.position? scope = earlier.position? scope := by
  have parents := extended.parent?_eq known
  cases inside : earlier.parent? scope with
  | none => simp [position?, parents, inside]
  | some parent =>
      rcases wellNested.exists_position inside with ⟨position, placed⟩
      rcases extended.inner_prefix parent with ⟨further, grown⟩
      rw [position?_eq_idxOf? (parents.trans inside), ← grown, List.idxOf?, List.findIdx?_append,
        placed]
      rw [position?_eq_idxOf? inside, List.idxOf?] at placed
      simp [placed]

theorem ownName_eq (extended : earlier.Extends later) (wellNested : earlier.WellNested)
    {scope : ScopeId} (known : scope.index < earlier.size) :
    later.ownName scope = earlier.ownName scope := by
  simp [ownName, extended.label?_eq known, extended.position?_eq wellNested known]

theorem pathName_eq (extended : earlier.Extends later) (wellNested : earlier.WellNested)
    {scope : ScopeId} (known : scope.index < earlier.size) :
    later.pathName scope = earlier.pathName scope := by
  have names : (earlier.path scope).map later.ownName =
      (earlier.path scope).map earlier.ownName := by
    apply List.map_congr_left
    intro outer onPath
    exact extended.ownName_eq wellNested (wellNested.known_of_mem_path known onPath)
  simp [pathName, extended.path_eq known, names]

end Extends

/-! ## Names tell scopes apart -/

/-- Labels without slashes, none of them a numeral, that tell scopes inside one parent apart. -/
structure PlainLabels (nested : NestedScopes α) : Prop where
  noSlash : ∀ {scope : ScopeId} {label : String}, nested.label? scope = some label →
    '/' ∉ label.toList
  notNumeral : ∀ {scope : ScopeId} {label : String}, nested.label? scope = some label →
    ∀ number : Nat, label ≠ toString number
  differ : ∀ {scope other parent : ScopeId} {label : String},
    nested.parent? scope = some parent → nested.parent? other = some parent →
    nested.label? scope = some label → nested.label? other = some label → scope = other

theorem PlainLabels.of_unlabelled {nested : NestedScopes α}
    (unlabelled : ∀ scope : ScopeId, nested.label? scope = none) : nested.PlainLabels := by
  refine ⟨?_, ?_, ?_⟩ <;> simp [unlabelled]

theorem mem_ids_of_label? {nested : NestedScopes α} {scope : ScopeId} {label : String}
    (labelled : nested.label? scope = some label) : scope ∈ nested.ids := by
  apply (nested.mem_ids_iff scope).mpr
  apply (nested.isSome_get?_iff scope).mp
  apply Option.isSome_of_isSome_bind
  exact Option.isSome_of_eq_some labelled

/-- Labels are plain if not all their characters are digits; this can be checked scope by scope. -/
theorem PlainLabels.of_ids {nested : NestedScopes α}
    (plain : ∀ scope ∈ nested.ids, ∀ label ∈ nested.label? scope,
      '/' ∉ label.toList ∧ label.toList.all Char.isDigit = false)
    (differ : ∀ scope ∈ nested.ids, ∀ other ∈ nested.ids,
      nested.parent? scope = nested.parent? other → nested.label? scope = nested.label? other →
      nested.label? scope = none ∨ scope = other) : nested.PlainLabels := by
  refine ⟨?_, ?_, ?_⟩
  · intro scope label labelled
    exact (plain scope (mem_ids_of_label? labelled) label labelled).1
  · rintro scope label labelled number rfl
    have someOther := (plain scope (mem_ids_of_label? labelled) _ labelled).2
    rcases List.all_eq_false.mp someOther with ⟨c, member, notDigit⟩
    exact notDigit (isDigit_of_mem_toString member)
  · intro scope other parent label inside otherInside labelled otherLabelled
    have same := differ scope (mem_ids_of_label? labelled) other
      (mem_ids_of_label? otherLabelled) (inside.trans otherInside.symm)
      (labelled.trans otherLabelled.symm)
    simpa [labelled] using same

namespace PlainLabels

variable {nested : NestedScopes α} {scope other parent : ScopeId}

theorem slash_not_mem_ownName (plain : nested.PlainLabels) (scope : ScopeId) :
    '/' ∉ (nested.ownName scope).toList := by
  rw [ownName]
  split
  · rename_i label labelled
    exact plain.noSlash labelled
  · cases nested.position? scope with
    | none => decide
    | some position =>
        intro member
        exact absurd (isDigit_of_mem_toString member) (by decide)

/-- Scopes inside one parent have different names. -/
theorem eq_of_ownName_eq (plain : nested.PlainLabels) (wellNested : nested.WellNested)
    (inside : nested.parent? scope = some parent) (otherInside : nested.parent? other = some parent)
    (same : nested.ownName scope = nested.ownName other) : scope = other := by
  rcases wellNested.ownName_cases inside with
    ⟨label, labelled, named⟩ | ⟨position, placed, named⟩
  · rcases wellNested.ownName_cases otherInside with
      ⟨label', labelled', named'⟩ | ⟨position', _, named'⟩
    · apply plain.differ inside otherInside labelled
      rw [labelled', ← named', ← same, named]
    · exact absurd (named.symm.trans (same.trans named')) (plain.notNumeral labelled position')
  · rcases wellNested.ownName_cases otherInside with
      ⟨label', labelled', named'⟩ | ⟨position', placed', named'⟩
    · exact absurd (named'.symm.trans (same.symm.trans named)) (plain.notNumeral labelled' position)
    · have positions : position = position' := toString_inj.mp (by rw [← named, same, named'])
      have inPlace := getElem?_inner_of_position? inside placed
      rw [positions, getElem?_inner_of_position? otherInside placed'] at inPlace
      exact (Option.some.inj inPlace).symm

/-- The names on its path tell which scope it is. -/
theorem eq_of_names_eq (plain : nested.PlainLabels) (wellNested : nested.WellNested)
    (known : scope.index < nested.size) (otherKnown : other.index < nested.size)
    (same : (nested.path scope).map nested.ownName = (nested.path other).map nested.ownName) :
    scope = other := by
  induction scope using wellNested.outward_induction generalizing other with
  | top scope outside =>
      cases otherOutside : nested.parent? other with
      | none => rw [wellNested.outermost known outside, wellNested.outermost otherKnown otherOutside]
      | some otherParent =>
          rw [path_eq_singleton outside, wellNested.path_eq_cons otherOutside] at same
          simp [path] at same
  | inside scope parent inside ih =>
      cases otherInside : nested.parent? other with
      | none =>
          rw [wellNested.path_eq_cons inside, path_eq_singleton otherInside] at same
          simp [path] at same
      | some otherParent =>
          have earlier := wellNested.parent_earlier inside
          have otherEarlier := wellNested.parent_earlier otherInside
          simp only [wellNested.path_eq_cons inside, wellNested.path_eq_cons otherInside,
            List.map_cons, List.cons.injEq] at same
          rcases same with ⟨ownNames, outerNames⟩
          have parents := ih (by omega) (by omega) outerNames
          rw [parents] at inside
          exact plain.eq_of_ownName_eq wellNested inside otherInside ownNames

/-- The names on a path are the parts of the path name between the slashes. -/
theorem splitOn_pathName (plain : nested.PlainLabels) (scope : ScopeId) :
    (nested.pathName scope).toList.splitOn '/' =
      (((nested.path scope).map nested.ownName).reverse).map String.toList := by
  rw [pathName, String.toList_intercalate]
  apply List.splitOn_intercalate
  · intro name member
    simp only [List.mem_map, List.mem_reverse] at member
    rcases member with ⟨_, ⟨outer, _, rfl⟩, rfl⟩
    exact plain.slash_not_mem_ownName outer
  · simp [path]

theorem eq_of_pathName_eq (plain : nested.PlainLabels) (wellNested : nested.WellNested)
    (known : scope.index < nested.size) (otherKnown : other.index < nested.size)
    (same : nested.pathName scope = nested.pathName other) : scope = other := by
  apply plain.eq_of_names_eq wellNested known otherKnown
  have parts := plain.splitOn_pathName scope
  rw [same, plain.splitOn_pathName other] at parts
  apply List.reverse_injective
  apply List.map_injective_iff.mpr (fun _ _ => String.toList_injective)
  exact parts.symm

end PlainLabels

end NestedScopes

/-! ## Along runs -/

namespace ScopeRun

variable {α : Type}

/--
However a run goes on, the path name of a scope that has been opened stays the same. The path name
of every scope but the outermost one is that of its parent, a slash and its own name. If no label has
a slash in it or is the numeral of a number, and labels of scopes inside one parent differ, then no
two scopes have the same path name; in particular if there are no labels at all.
-/
theorem path_names_last_and_tell_scopes_apart (label : Option String) (payload : α)
    (calls : List (ScopeCall α)) :
    let nested := (ofCalls label payload calls).nested
    (∀ more, ∀ scope ∈ nested.ids,
      (ofCalls label payload (calls ++ more)).nested.pathName scope = nested.pathName scope) ∧
    (∀ scope ∈ nested.ids, scope ≠ .root → ∃ parent, nested.parent? scope = some parent ∧
      nested.pathName scope = nested.pathName parent ++ "/" ++ nested.ownName scope) ∧
    (nested.PlainLabels → (nested.ids.map nested.pathName).Nodup) ∧
    ((∀ scope, nested.label? scope = none) → (nested.ids.map nested.pathName).Nodup) := by
  intro nested
  have grown : (ofCalls label payload calls).Grown := .ofCalls label payload calls
  have apart : nested.PlainLabels → (nested.ids.map nested.pathName).Nodup := by
    intro plain
    apply nested.nodup_ids.map_on
    intro scope member other otherMember same
    have known := (nested.mem_ids_iff scope).mp member
    have otherKnown := (nested.mem_ids_iff other).mp otherMember
    exact plain.eq_of_pathName_eq grown.wellNested known otherKnown same
  refine ⟨?_, ?_, apart, fun unlabelled => apart (.of_unlabelled unlabelled)⟩
  · intro more scope member
    have known := (nested.mem_ids_iff scope).mp member
    exact (extends_ofCalls_append label payload calls more).pathName_eq grown.wellNested known
  · intro scope member inside
    have known := (nested.mem_ids_iff scope).mp member
    rcases grown.exists_parent known inside with ⟨parent, isParent⟩
    exact ⟨parent, isParent, grown.wellNested.pathName_eq isParent⟩

/-- Labelled scopes of one label inside different parents, with scopes beside them that have none. -/
def labelledCalls : List (ScopeCall Nat) :=
  [.enter .root (some "body") 1, .enter .root none 2, .enter ⟨1⟩ (some "body") 3, .close ⟨3⟩,
    .enter ⟨1⟩ none 4]

/-- The labels are plain, and a scope without a label keeps its name when it has been closed. -/
theorem path_names_last_and_tell_scopes_apart_under_labels :
    let nested := (ofCalls none 0 labelledCalls).nested
    nested.PlainLabels ∧ (nested.ids.map nested.pathName).Nodup ∧
    (ofCalls none 0 (labelledCalls ++ [.close ⟨4⟩, .enter ⟨1⟩ none 5])).nested.pathName ⟨4⟩ =
      "root/body/1" := by
  intro nested
  have names := path_names_last_and_tell_scopes_apart none 0 labelledCalls
  have plain : nested.PlainLabels := .of_ids (by decide +kernel) (by decide +kernel)
  refine ⟨plain, names.2.2.1 plain, ?_⟩
  rw [names.1 [.close ⟨4⟩, .enter ⟨1⟩ none 5] ⟨4⟩ (by decide +kernel)]
  decide +kernel

end ScopeRun

end JvmEmit
