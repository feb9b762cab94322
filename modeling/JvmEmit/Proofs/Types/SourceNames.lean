import JvmEmit.Types.ClassName
import Mathlib.Data.List.TakeWhile

/-!
# Source names of classes

Writing a class name as a source name and reading it back gives the class name again, provided its
simple name has no dot, for the last dot of the source name is then the one behind the package. In
the other direction a source name is lost in one case: a dot in front of a simple name is read as
the end of an empty package, and an empty package is written without a dot.
-/

namespace JvmEmit

namespace ClassName

/-! ## The last dot -/

theorem splitAtLastDot?_of_not_mem {text : List Char} (noDot : '.' ∉ text) :
    splitAtLastDot? text = none := by
  have dropped : text.reverse.dropWhile (· != '.') = [] := by
    apply List.dropWhile_eq_nil_iff.mpr
    intro c member
    simp only [bne_iff_ne, ne_eq]
    rintro rfl
    exact noDot (List.mem_reverse.mp member)
  simp [splitAtLastDot?, dropped]

theorem splitAtLastDot?_append (package : List Char) {name : List Char} (noDot : '.' ∉ name) :
    splitAtLastDot? (package ++ '.' :: name) = some (package, name) := by
  have behind : ∀ c ∈ name.reverse, (c != '.') = true := by
    intro c member
    simp only [bne_iff_ne, ne_eq]
    rintro rfl
    exact noDot (List.mem_reverse.mp member)
  simp [splitAtLastDot?, List.dropWhile_append_of_pos behind, List.takeWhile_append_of_pos behind]

theorem exists_last_dot {text : List Char} (dotted : '.' ∈ text) :
    ∃ package name, text = package ++ '.' :: name ∧ '.' ∉ name := by
  rcases List.eq_append_cons_of_mem (List.mem_reverse.mpr dotted) with
    ⟨behind, before, split, noDot⟩
  refine ⟨before.reverse, behind.reverse, ?_, by simpa using noDot⟩
  apply List.reverse_inj.mp
  simp [split]

/-! ## Reading and writing -/

theorem ofSourceName_of_not_mem {text : String} (noDot : '.' ∉ text.toList) :
    ofSourceName text = ⟨"", text⟩ := by
  rw [ofSourceName, splitAtLastDot?_of_not_mem noDot]

theorem ofSourceName_append (package : String) {name : String} (noDot : '.' ∉ name.toList) :
    ofSourceName (package ++ "." ++ name) = ⟨package, name⟩ := by
  have chars : (package ++ "." ++ name).toList = package.toList ++ '.' :: name.toList := by
    simp
  rw [ofSourceName, chars, splitAtLastDot?_append _ noDot]
  simp

/-- A text is read as a simple name without a package, or is divided at its last dot. -/
theorem ofSourceName_cases (text : String) :
    ('.' ∉ text.toList ∧ ofSourceName text = ⟨"", text⟩) ∨
    ∃ package name, text = package ++ "." ++ name ∧ '.' ∉ name.toList ∧
      ofSourceName text = ⟨package, name⟩ := by
  by_cases dotted : '.' ∈ text.toList
  · rcases exists_last_dot dotted with ⟨package, name, split, noDot⟩
    have halves : text = String.ofList package ++ "." ++ String.ofList name := by
      apply String.toList_injective
      simp [split]
    have noDotInName : '.' ∉ (String.ofList name).toList := by
      simpa using noDot
    exact .inr ⟨_, _, halves, noDotInName, by rw [halves, ofSourceName_append _ noDotInName]⟩
  · exact .inl ⟨dotted, ofSourceName_of_not_mem dotted⟩

theorem dot_not_mem_name_ofSourceName (text : String) :
    '.' ∉ (ofSourceName text).name.toList := by
  rcases ofSourceName_cases text with ⟨noDot, read⟩ | ⟨package, name, _, noDot, read⟩
  · simpa [read] using noDot
  · simpa [read] using noDot

theorem ofSourceName_sourceName {className : ClassName} (noDot : '.' ∉ className.name.toList) :
    ofSourceName className.sourceName = className := by
  rw [sourceName]
  split
  · rename_i inDefault
    rw [ofSourceName_of_not_mem noDot, ← inDefault]
  · exact ofSourceName_append _ noDot

/-- A dot in front of a simple name, and no other. -/
def OnlyDotLeads (text : String) : Prop :=
  ∃ name, text = "." ++ name ∧ '.' ∉ name.toList

theorem sourceName_ofSourceName_of_leading_dot {name : String} (noDot : '.' ∉ name.toList) :
    (ofSourceName ("." ++ name)).sourceName = name := by
  have read := ofSourceName_append "" noDot
  rw [String.empty_append] at read
  simp [read, sourceName]

theorem sourceName_ofSourceName_iff (text : String) :
    (ofSourceName text).sourceName = text ↔ ¬OnlyDotLeads text := by
  constructor
  · rintro same ⟨name, rfl, noDot⟩
    rw [sourceName_ofSourceName_of_leading_dot noDot] at same
    have lengths := congrArg String.length same
    simp at lengths
  · intro notLed
    rcases ofSourceName_cases text with ⟨_, read⟩ | ⟨package, name, split, noDot, read⟩
    · simp [read, sourceName]
    · have packaged : package ≠ "" := by
        rintro rfl
        exact notLed ⟨name, by simpa using split, noDot⟩
      simp [read, sourceName, packaged, ← split]

/-! ## The class-file name -/

theorem dot_not_mem_internalForm (className : ClassName) :
    '.' ∉ className.internalForm.toList := by
  rw [internalForm, String.toList_map, List.mem_map]
  rintro ⟨c, _, isDot⟩
  by_cases dot : c = '.'
  · simp [dot] at isDot
  · rw [if_neg dot] at isDot
    exact dot isDot

/-- Slashes can be turned back into dots if there were none before. -/
theorem map_internalForm {className : ClassName}
    (noSlash : '/' ∉ className.sourceName.toList) :
    className.internalForm.map (fun c => if c = '/' then '.' else c) = className.sourceName := by
  have turnedBack : ∀ c ∈ className.sourceName.toList,
      (if (if c = '.' then '/' else c) = '/' then '.' else if c = '.' then '/' else c) = c := by
    intro c member
    by_cases dot : c = '.'
    · simp [dot]
    · have notSlash : c ≠ '/' := by
        rintro rfl
        exact noSlash member
      simp [dot, notSlash]
  apply String.toList_injective
  simp only [internalForm, String.toList_map, List.map_map]
  exact (List.map_congr_left turnedBack).trans (List.map_id _)

theorem sourceName_eq_of_internalForm_eq {className other : ClassName}
    (noSlash : '/' ∉ className.sourceName.toList) (otherNoSlash : '/' ∉ other.sourceName.toList)
    (same : className.internalForm = other.internalForm) :
    className.sourceName = other.sourceName := by
  rw [← map_internalForm noSlash, same, map_internalForm otherNoSlash]

/--
A class name is read back from its source name if its simple name has no dot, and only then; of such
class names, two are the same if their source names are. A source name is written back as it was
read, unless its only dot stands in front; then the dot is lost. If there is no slash in either of
two source names, they are the same if the class-file names are. A class-file name has no dot, and
its slashes are the dots of the source name if there was no slash in it.
-/
theorem source_names_read_back :
    (∀ className : ClassName, ofSourceName className.sourceName = className ↔
      '.' ∉ className.name.toList) ∧
    (∀ className other : ClassName, '.' ∉ className.name.toList → '.' ∉ other.name.toList →
      (className.sourceName = other.sourceName ↔ className = other)) ∧
    (∀ text : String, (ofSourceName text).sourceName = text ↔ ¬OnlyDotLeads text) ∧
    (∀ name : String, '.' ∉ name.toList → (ofSourceName ("." ++ name)).sourceName = name) ∧
    (∀ className other : ClassName, '/' ∉ className.sourceName.toList →
      '/' ∉ other.sourceName.toList → className.internalForm = other.internalForm →
      className.sourceName = other.sourceName) ∧
    ∀ className : ClassName, '.' ∉ className.internalForm.toList ∧
      ('/' ∉ className.sourceName.toList →
        className.internalForm.map (fun c => if c = '/' then '.' else c) =
          className.sourceName) := by
  refine ⟨?_, ?_, sourceName_ofSourceName_iff, ?_, ?_, ?_⟩
  · intro className
    constructor
    · intro readBack
      have noDot := dot_not_mem_name_ofSourceName className.sourceName
      rwa [readBack] at noDot
    · exact ofSourceName_sourceName
  · intro className other noDot otherNoDot
    constructor
    · intro same
      rw [← ofSourceName_sourceName noDot, same, ofSourceName_sourceName otherNoDot]
    · exact congrArg sourceName
  · intro name noDot
    exact sourceName_ofSourceName_of_leading_dot noDot
  · intro className other noSlash otherNoSlash same
    exact sourceName_eq_of_internalForm_eq noSlash otherNoSlash same
  · intro className
    exact ⟨dot_not_mem_internalForm className, map_internalForm⟩

/--
A package of one dot is kept and tells the class from the one without a package, while an empty
package is lost. Two class names with one class-file name divide the same source name differently.
-/
theorem source_names_read_back_around_dots :
    ofSourceName (ClassName.sourceName ⟨".", "A$B"⟩) = ⟨".", "A$B"⟩ ∧
    ofSourceName "..A$B" = ⟨".", "A$B"⟩ ∧
    ClassName.sourceName ⟨".", "A$B"⟩ ≠ ClassName.sourceName ⟨"", "A$B"⟩ ∧
    (ofSourceName ("." ++ "A$B")).sourceName = "A$B" ∧
    ¬(ofSourceName ".A$B").sourceName = ".A$B" ∧
    (ClassName.internalForm ⟨"a", "B.C"⟩ = ClassName.internalForm ⟨"a.B", "C"⟩ ∧
      ClassName.sourceName ⟨"a", "B.C"⟩ = ClassName.sourceName ⟨"a.B", "C"⟩) ∧
    (ClassName.internalForm ⟨"a.B", "C"⟩).map (fun c => if c = '/' then '.' else c) = "a.B.C" := by
  rcases source_names_read_back with ⟨readBack, tellsApart, written, dotLost, inFiles, slashes⟩
  have kept : ofSourceName (ClassName.sourceName ⟨".", "A$B"⟩) = ⟨".", "A$B"⟩ :=
    (readBack _).mpr (by decide)
  have differ : ClassName.sourceName ⟨".", "A$B"⟩ ≠ ClassName.sourceName ⟨"", "A$B"⟩ := by
    intro same
    have equal := (tellsApart _ _ (by decide) (by decide)).mp same
    exact absurd equal (by decide)
  have lost : OnlyDotLeads ".A$B" := ⟨"A$B", by decide, by decide⟩
  have noSlash : '/' ∉ (ClassName.sourceName ⟨"a", "B.C"⟩).toList := by decide
  have otherNoSlash : '/' ∉ (ClassName.sourceName ⟨"a.B", "C"⟩).toList := by decide
  have sameInFiles : ClassName.internalForm ⟨"a", "B.C"⟩ = ClassName.internalForm ⟨"a.B", "C"⟩ := by
    decide +kernel
  refine ⟨kept, kept, differ, dotLost _ (by decide), ?_,
    ⟨sameInFiles, inFiles _ _ noSlash otherNoSlash sameInFiles⟩, (slashes _).2 otherNoSlash⟩
  intro same
  exact (written _).mp same lost

end ClassName

end JvmEmit
