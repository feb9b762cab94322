import JvmEmit.Name.Numbered

/-!
# Bases and digits

A name is its base followed by its digits, the digits are digits only, and the base does not end in
one. These laws pin the two parts down.
-/

namespace JvmEmit

namespace NumberedName

/-- Nothing of a name is lost between its base and its digits. -/
theorem base_append_digits (name : String) : base name ++ digits name = name := by
  rw [← String.toList_inj]
  simp only [base, digits, String.toList_append, String.toList_ofList]
  rw [← List.reverse_append, List.takeWhile_append_dropWhile, List.reverse_reverse]

/-- The digits of a name are decimal digits only. -/
theorem isDigit_of_mem_digits {name : String} {c : Char} (member : c ∈ (digits name).toList) :
    c.isDigit = true := by
  simp only [digits, String.toList_ofList, List.mem_reverse] at member
  exact List.all_eq_true.mp List.all_takeWhile c member

/-- The base of a name does not end in a digit. -/
theorem getLast?_base (name : String) :
    (base name).toList.getLast?.all (fun c => !c.isDigit) = true := by
  simp only [base, String.toList_ofList, List.getLast?_reverse]
  have stops := List.head?_dropWhile_not Char.isDigit name.toList.reverse
  cases first : (name.toList.reverse.dropWhile Char.isDigit).head? with
  | none => rfl
  | some c =>
      rw [first] at stops
      simpa using stops

/-- The name with index zero is the base itself. -/
@[simp]
theorem numbered_zero (base : String) : numbered base 0 = base := by
  simp [numbered]

end NumberedName

end JvmEmit
