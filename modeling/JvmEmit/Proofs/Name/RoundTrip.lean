import JvmEmit.Name.Supply
import JvmEmit.Proofs.Name.Decoding

/-!
# Reserving what was handed out

A supply hands out a base with an index behind it, and reserves a name by reading base and index off
it. Both agree: the names it can hand out are those it does not ignore when they are reserved, and
such a name is reserved under the base and the index it would be handed out for. An index that takes
more than a word is recognised digit by digit, and its name is remembered as it is.
-/

namespace JvmEmit

namespace NumberedName

open NameSupply (maxIndex)

/-! ## Indices in a word -/

/-- Reads one more digit, unless the index gets too large for a word. -/
def readDigit? (index : Nat) (digit : Char) : Option Nat :=
  let next := 10 * index + (digit.toNat - '0'.toNat)
  if maxIndex < next then none else some next

/-- The index that some digits write, read digit by digit, if it fits into a word. -/
def wordIndex? (row : List Char) : Option Nat :=
  row.foldlM readDigit? 0

/-- Reading fails at one of the digits if and only if all of them write too large an index. -/
theorem wordIndex?_eq (row : List Char) :
    wordIndex? row =
      if maxIndex < Nat.ofDigitChars 10 row 0 then none else some (Nat.ofDigitChars 10 row 0) := by
  induction row using List.reverseRecOn with
  | nil => rfl
  | append_singleton front digit ih =>
      rw [wordIndex?] at ih
      simp only [wordIndex?, List.foldlM_append, ih, Nat.ofDigitChars_append,
        Nat.ofDigitChars_cons, Nat.ofDigitChars_nil]
      split
      · have stillTooLarge : maxIndex <
            10 * Nat.ofDigitChars 10 front 0 + (digit.toNat - '0'.toNat) := by
          omega
        simp only [if_pos stillTooLarge]
        rfl
      · simp [readDigit?]

theorem wordIndex?_digits (name : String) :
    wordIndex? (digits name).toList =
      if maxIndex < NumberedName.index name then none else some (NumberedName.index name) :=
  wordIndex?_eq _

theorem wordIndex?_digits_eq_none_iff (name : String) :
    wordIndex? (digits name).toList = none ↔ UInt64.size ≤ NumberedName.index name := by
  have size : maxIndex + 1 = UInt64.size := rfl
  simp only [wordIndex?_digits, ite_eq_left_iff, reduceCtorEq, imp_false]
  omega

theorem index_eq_of_wordIndex? {name : String} {index : Nat}
    (read : wordIndex? (digits name).toList = some index) : index = NumberedName.index name := by
  rw [wordIndex?_digits] at read
  split at read
  · cases read
  · exact (Option.some.inj read).symm

/-! ## Which names are numbered -/

theorem digits_numbered_zero {base : String} (isBase : IsBase base) :
    digits (numbered base 0) = "" := by
  rw [digits_numbered isBase]
  rfl

theorem digits_numbered_of_ne_zero {base : String} (isBase : IsBase base) {index : Nat}
    (positive : index ≠ 0) : digits (numbered base index) = toString index := by
  rw [digits_numbered isBase, indexDigits, if_neg positive, Nat.toString_eq_ofList_toDigits]

/-- A name that can be handed out is numbered by its own base and index and by no others. -/
theorem numbered_eq_iff {name : String} (isNumbered : isUnnumbered name = false)
    (base : String) (index : Nat) :
    (IsBase base ∧ numbered base index = name) ↔
      base = NumberedName.base name ∧ index = NumberedName.index name := by
  constructor
  · rintro ⟨isBase, rfl⟩
    simp [isBase]
  · rintro ⟨rfl, rfl⟩
    exact ⟨isBase_of_not_isUnnumbered isNumbered, numbered_base_index isNumbered⟩

theorem isUnnumbered_iff (name : String) :
    isUnnumbered name = true ↔ ¬∃ base index, IsBase base ∧ numbered base index = name := by
  constructor
  · rintro unnumbered ⟨base, index, isBase, rfl⟩
    simp [isBase] at unnumbered
  · intro noBase
    by_contra isNumbered
    have own := (numbered_eq_iff (Bool.eq_false_iff.mpr isNumbered) _ _).mpr ⟨rfl, rfl⟩
    exact noBase ⟨_, _, own⟩

theorem baseOfHint_numbered {base : String} (isBase : IsBase base) (index : Nat) :
    baseOfHint (some (numbered base index)) = base := by
  simp [baseOfHint, isBase, isBase.1]

end NumberedName

namespace NameSupply

open NumberedName

/-! ## What is reserved -/

/-- A name is reserved as its base with the index that its digits write. -/
theorem reservation_eq_of_wordIndex? (supply : NameSupply) (scope : ScopeId) {name : String}
    (isNumbered : isUnnumbered name = false) (frame : NameFrame) :
    supply.reservation scope name frame =
      match wordIndex? (digits name).toList with
      | none => frame.withReserved name
      | some index =>
          if index = supply.nextIndex scope (base name) then frame.withIndex (base name) index
          else if (supply.latestIndex? scope (base name)).all (· < index) then
            frame.withReserved name
          else frame := by
  rw [wordIndex?_digits]
  by_cases tooLarge : maxIndex < NumberedName.index name
  · simp [reservation, isNumbered, tooLarge]
  · simp [reservation, isNumbered, tooLarge]

/--
Names are read as they are numbered. The base of every hint can be numbered. A numbered base is read
as that base, and the rest as the numeral of the index, with nothing there for index zero; so no name
is numbered in two ways, and as a hint it stands for its base. The names without a base and those
whose digits begin with a zero are the ones that are no numbered base. Every other name is numbered
by exactly one base and index. Those are what it is reserved under, unless the index is too large for
a word, which is when reading its digits into a word fails.
-/
theorem names_are_read_as_numbered :
    (∀ hint : Option String, IsBase (baseOfHint hint)) ∧
    (∀ base index, IsBase base →
      NumberedName.base (numbered base index) = base ∧
      (digits (numbered base index) = "" ↔ index = 0) ∧
      (index ≠ 0 → digits (numbered base index) = toString index) ∧
      baseOfHint (some (numbered base index)) = base) ∧
    (∀ base other index otherIndex, IsBase base → IsBase other →
      (numbered base index = numbered other otherIndex ↔ base = other ∧ index = otherIndex)) ∧
    (∀ name, isUnnumbered name = true ↔ ¬∃ base index, IsBase base ∧ numbered base index = name) ∧
    (∀ name, isUnnumbered name = false →
      (∀ base index, (IsBase base ∧ numbered base index = name) ↔
        base = NumberedName.base name ∧ index = NumberedName.index name) ∧
      (wordIndex? (digits name).toList = none ↔ UInt64.size ≤ NumberedName.index name) ∧
      (∀ index, wordIndex? (digits name).toList = some index → index = NumberedName.index name) ∧
      ∀ (supply : NameSupply) (scope : ScopeId) (frame : NameFrame),
        supply.reservation scope name frame =
          match wordIndex? (digits name).toList with
          | none => frame.withReserved name
          | some index =>
              if index = supply.nextIndex scope (base name) then frame.withIndex (base name) index
              else if (supply.latestIndex? scope (base name)).all (· < index) then
                frame.withReserved name
              else frame) := by
  refine ⟨isBase_baseOfHint, ?_, ?_, isUnnumbered_iff, ?_⟩
  · intro base index isBase
    refine ⟨base_numbered isBase index, ?_, digits_numbered_of_ne_zero isBase,
      baseOfHint_numbered isBase index⟩
    constructor
    · intro noDigits
      by_contra positive
      rw [digits_numbered_of_ne_zero isBase positive, Nat.toString_eq_ofList_toDigits,
        String.ofList_eq_empty_iff] at noDigits
      exact Nat.toDigits_ne_nil noDigits
    · rintro rfl
      exact digits_numbered_zero isBase
  · intro base other index otherIndex isBase otherIsBase
    exact numbered_inj isBase otherIsBase
  · intro name isNumbered
    refine ⟨numbered_eq_iff isNumbered, wordIndex?_digits_eq_none_iff name, ?_, ?_⟩
    · intro index read
      exact index_eq_of_wordIndex? read
    · intro supply scope frame
      exact supply.reservation_eq_of_wordIndex? scope isNumbered frame

/-- The digits inside a base stay, and the least index that is too large for a word is recognised. -/
theorem names_are_read_as_numbered_beyond_words :
    IsBase "f1o" ∧ baseOfHint (some (numbered "f1o" UInt64.size)) = "f1o" ∧
    (numbered "f1o" 1 = numbered "f1o" 2 ↔ "f1o" = "f1o" ∧ 1 = 2) ∧
    isUnnumbered "f1o18446744073709551616" = false ∧
    wordIndex? (digits "f1o18446744073709551616").toList = none ∧
    ¬∃ base index, IsBase base ∧ numbered base index = "f1o007" := by
  have isBase : IsBase "f1o" := ⟨by decide, by decide⟩
  have isNumbered : isUnnumbered "f1o18446744073709551616" = false := by decide
  refine ⟨isBase, (names_are_read_as_numbered.2.1 _ _ isBase).2.2.2,
    names_are_read_as_numbered.2.2.1 _ _ _ _ isBase isBase, isNumbered, ?_, ?_⟩
  · exact (names_are_read_as_numbered.2.2.2.2 _ isNumbered).2.1.mpr (by decide)
  · exact (names_are_read_as_numbered.2.2.2.1 _).mp (by decide)

end NameSupply

end JvmEmit
