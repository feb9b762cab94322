import JvmEmit.Name.Lemmas
import Mathlib.Data.List.Induction

/-!
# Reading numbered names back

A base can be numbered if it is not empty and does not end in a digit. Numbering such a base and
reading base and index off the name are inverse to each other, and the names that are not numbered
bases are exactly those that a supply never hands out.

A digit at the end of a base would be read as part of the index, and the numeral of an index never
begins with a zero; both exceptions come from there.
-/

namespace JvmEmit

namespace NumberedName

/-! ## Decimal numerals -/

theorem digitChar_of_isDigit {c : Char} (digit : c.isDigit = true) :
    (c.toNat - '0'.toNat).digitChar = c ∧ c.toNat - '0'.toNat < 10 := by
  simp only [Char.isDigit, ge_iff_le, Bool.and_eq_true, decide_eq_true_eq, UInt32.le_iff_toNat_le]
    at digit
  have bounds : 48 ≤ c.toNat ∧ c.toNat ≤ 57 := digit
  have small : c.toNat - '0'.toNat < 10 := by
    change c.toNat - 48 < 10
    omega
  refine ⟨?_, small⟩
  rw [← Char.toNat_inj, Nat.toNat_digitChar_of_lt_ten small]
  change 48 + (c.toNat - 48) = c.toNat
  omega

/-- A row of digits without a leading zero is the numeral of the number it writes. -/
theorem toDigits_ofDigitChars {row : List Char} (digits : ∀ c ∈ row, c.isDigit = true)
    (nonempty : row ≠ []) (noZero : row.head? ≠ some '0') :
    Nat.toDigits 10 (Nat.ofDigitChars 10 row 0) = row := by
  induction row using List.reverseRecOn with
  | nil => exact absurd rfl nonempty
  | append_singleton front c ih =>
      have last := digitChar_of_isDigit (digits c (by simp))
      rw [Nat.ofDigitChars_append, Nat.ofDigitChars_cons, Nat.ofDigitChars_nil]
      cases front with
      | nil =>
          rw [Nat.ofDigitChars_nil, Nat.mul_zero, Nat.zero_add, Nat.toDigits_of_lt_base last.2,
            last.1, List.nil_append]
      | cons d more =>
          have written := ih (fun c member => digits c (List.mem_append_left _ member)) (by simp)
            (by simpa using noZero)
          have positive : 0 < Nat.ofDigitChars 10 (d :: more) 0 := by
            rcases Nat.eq_zero_or_pos (Nat.ofDigitChars 10 (d :: more) 0) with zero | positive
            · rw [zero, Nat.toDigits_zero] at written
              simp only [List.cons.injEq] at written
              exact absurd (by simp [← written.1]) noZero
            · exact positive
          rw [← Nat.toDigits_append_toDigits (by decide) positive last.2, written,
            Nat.toDigits_of_lt_base last.2, last.1]

theorem head?_toDigits_ne_zero {number : Nat} (positive : 0 < number) :
    (Nat.toDigits 10 number).head? ≠ some '0' := by
  induction number using Nat.strongRecOn with
  | ind number ih =>
      rcases Nat.lt_or_ge number 10 with small | large
      · rw [Nat.toDigits_of_lt_base small]
        simp only [List.head?_cons, ne_eq, Option.some.injEq, Nat.digitChar_eq_zero]
        omega
      · rw [Nat.toDigits_of_base_le (by decide) large, List.head?_append]
        have front := ih (number / 10) (by omega) (by omega)
        cases first : (Nat.toDigits 10 (number / 10)).head? with
        | none => exact absurd (List.head?_eq_none_iff.mp first) Nat.toDigits_ne_nil
        | some c =>
            rw [first] at front
            simpa using front

/-! ## Bases -/

/-- A base that can be numbered: it is not empty and does not end in a digit. -/
def IsBase (base : String) : Prop :=
  base ≠ "" ∧ base.toList.getLast?.all (fun c => !c.isDigit) = true

theorem isBase_base {name : String} (nonempty : base name ≠ "") : IsBase (base name) :=
  ⟨nonempty, getLast?_base name⟩

theorem isBase_baseOfHint (hint : Option String) : IsBase (baseOfHint hint) := by
  have fallback : IsBase fallbackBase := by
    refine ⟨by decide, ?_⟩
    rfl
  cases hint with
  | none => exact fallback
  | some hint =>
      simp only [baseOfHint, Option.map_some]
      split
      · exact fallback
      · rename_i nonempty
        exact isBase_base nonempty

section Numbered

variable {base : String} (isBase : IsBase base)

include isBase

theorem takeWhile_isDigit_reverse : base.toList.reverse.takeWhile Char.isDigit = [] := by
  have last := isBase.2
  rw [← List.head?_reverse] at last
  cases first : base.toList.reverse with
  | nil => rfl
  | cons c rest =>
      rw [first] at last
      simp only [List.head?_cons, Option.all_some, Bool.not_eq_true'] at last
      rw [List.takeWhile_cons_of_neg (by simp [last])]

theorem dropWhile_isDigit_reverse :
    base.toList.reverse.dropWhile Char.isDigit = base.toList.reverse := by
  have split := List.takeWhile_append_dropWhile (p := Char.isDigit) (l := base.toList.reverse)
  rwa [takeWhile_isDigit_reverse isBase, List.nil_append] at split

theorem digits_base_append {row : List Char} (isDigits : ∀ c ∈ row, c.isDigit = true) :
    digits (base ++ String.ofList row) = String.ofList row := by
  rw [digits, String.toList_append, String.toList_ofList, List.reverse_append,
    List.takeWhile_append_of_pos (by simpa using isDigits), takeWhile_isDigit_reverse isBase]
  simp

theorem base_base_append {row : List Char} (isDigits : ∀ c ∈ row, c.isDigit = true) :
    NumberedName.base (base ++ String.ofList row) = base := by
  rw [NumberedName.base, String.toList_append, String.toList_ofList, List.reverse_append,
    List.dropWhile_append_of_pos (by simpa using isDigits), dropWhile_isDigit_reverse isBase]
  simp

end Numbered

/-! ## Numbering and reading back -/

/-- The digits that a name of an index ends in, none for index zero. -/
def indexDigits (index : Nat) : List Char :=
  if index = 0 then [] else Nat.toDigits 10 index

theorem isDigit_of_mem_indexDigits {index : Nat} {c : Char} (member : c ∈ indexDigits index) :
    c.isDigit = true := by
  rw [indexDigits] at member
  split at member
  · simp at member
  · exact Nat.isDigit_of_mem_toDigits (by decide) (by decide) member

theorem numbered_eq (base : String) (index : Nat) :
    numbered base index = base ++ String.ofList (indexDigits index) := by
  rw [numbered, indexDigits]
  split
  · simp
  · rw [Nat.toString_eq_ofList_toDigits]

theorem ofDigitChars_indexDigits (index : Nat) :
    Nat.ofDigitChars 10 (indexDigits index) 0 = index := by
  rw [indexDigits]
  split
  · rename_i zero
    rw [zero]
    rfl
  · exact Nat.ofDigitChars_ten_toDigits

theorem head?_indexDigits_ne_zero (index : Nat) : (indexDigits index).head? ≠ some '0' := by
  rw [indexDigits]
  split
  · simp
  · exact head?_toDigits_ne_zero (by omega)

theorem indexDigits_ofDigitChars {row : List Char} (digits : ∀ c ∈ row, c.isDigit = true)
    (noZero : row.head? ≠ some '0') : indexDigits (Nat.ofDigitChars 10 row 0) = row := by
  rcases List.eq_nil_or_concat row with rfl | ⟨more, last, rfl⟩
  · rfl
  · have written := toDigits_ofDigitChars digits (by simp) noZero
    rw [indexDigits, if_neg, written]
    intro zero
    rw [zero, Nat.toDigits_zero] at written
    rw [← written] at noZero
    exact absurd rfl noZero

section Numbered

variable {base : String} (isBase : IsBase base) (index : Nat)

include isBase

@[simp]
theorem base_numbered : NumberedName.base (numbered base index) = base := by
  rw [numbered_eq]
  exact base_base_append isBase fun c member => isDigit_of_mem_indexDigits member

@[simp]
theorem digits_numbered : digits (numbered base index) = String.ofList (indexDigits index) := by
  rw [numbered_eq]
  exact digits_base_append isBase fun c member => isDigit_of_mem_indexDigits member

@[simp]
theorem index_numbered : NumberedName.index (numbered base index) = index := by
  rw [NumberedName.index, digits_numbered isBase, String.toList_ofList, ofDigitChars_indexDigits]

/-- A numbered base is not among the names that a supply never hands out. -/
@[simp]
theorem isUnnumbered_numbered : isUnnumbered (numbered base index) = false := by
  rw [isUnnumbered, base_numbered isBase, digits_numbered isBase, String.toList_ofList]
  simp [isBase.1, head?_indexDigits_ne_zero index]

end Numbered

/-- Base and index of a name are determined by the name. -/
theorem numbered_inj {base base' : String} {index index' : Nat} (isBase : IsBase base)
    (isBase' : IsBase base') :
    numbered base index = numbered base' index' ↔ base = base' ∧ index = index' := by
  constructor
  · intro same
    constructor
    · rw [← base_numbered isBase index, same, base_numbered isBase']
    · rw [← index_numbered isBase index, same, index_numbered isBase']
  · rintro ⟨rfl, rfl⟩
    rfl

/-- A name that can be handed out has a base that can be numbered. -/
theorem isBase_of_not_isUnnumbered {name : String} (numberedName : isUnnumbered name = false) :
    IsBase (base name) := by
  simp only [isUnnumbered, Bool.or_eq_false_iff, decide_eq_false_iff_not] at numberedName
  exact isBase_base numberedName.1

/-- A name that can be handed out is its base with its index. -/
theorem numbered_base_index {name : String} (numberedName : isUnnumbered name = false) :
    numbered (base name) (NumberedName.index name) = name := by
  simp only [isUnnumbered, Bool.or_eq_false_iff] at numberedName
  have noZero : (digits name).toList.head? ≠ some '0' := by
    simpa using numberedName.2
  rw [numbered_eq, NumberedName.index, indexDigits_ofDigitChars
    (fun c member => isDigit_of_mem_digits member) noZero, String.ofList_toList]
  exact base_append_digits name

theorem eq_of_base_eq_of_index_eq {name other : String} (isNumbered : isUnnumbered name = false)
    (otherNumbered : isUnnumbered other = false) (sameBase : base name = base other)
    (sameIndex : NumberedName.index name = NumberedName.index other) : name = other := by
  rw [← numbered_base_index isNumbered, sameBase, sameIndex, numbered_base_index otherNumbered]

end NumberedName

end JvmEmit
