import Intcode.Proofs.ListingReload
import Intcode.Proofs.WordLists

/-!
# Tables of numbers

A text is a table of numbers if each of its lines, divided at blanks, can be read number by number.
Decimal text reads as the integer it was written for, also when it is filled up with zeros or
blanks in front, as long as there are no more digits than are read.
-/

set_option autoImplicit false

namespace Intcode.Text

/-! ## Fields between blanks -/

/-- The longest stretches of a text without blanks, in their order. -/
def fields (text : List Char) : List (List Char) :=
  (text.splitOnP isBlank).filter fun field => !field.isEmpty

theorem fields_at_blank (before behind : List Char) (symbol : Char)
    (blank : isBlank symbol = true) :
    fields (before ++ symbol :: behind) = fields before ++ fields behind := by
  unfold fields
  rw [List.splitOnP_append_cons before behind blank, List.filter_append]

theorem fields_whole (field : List Char) (filled : field ≠ [])
    (plain : ∀ symbol ∈ field, isBlank symbol = false) : fields field = [field] := by
  unfold fields
  rw [List.splitOnP_eq_singleton plain]
  simp [filled]

theorem fields_spaced (count : Nat) (text : List Char) :
    fields (List.replicate count ' ' ++ text) = fields text := by
  induction count with
  | zero => rfl
  | succ count ih =>
      have first := fields_at_blank [] (List.replicate count ' ' ++ text) ' ' (by decide)
      rw [List.replicate_succ, List.cons_append]
      rw [List.nil_append, ih] at first
      exact first

theorem fields_pad_left (width : Nat) (text : String) :
    fields (padLeft width text).toList = fields text.toList := by
  rw [padLeft, String.toList_append, repeated, String.toList_ofList]
  exact fields_spaced (width - text.length) text.toList

theorem fields_joined (texts : List String) :
    fields (joined " " texts).toList = texts.flatMap fun text => fields text.toList := by
  induction texts with
  | nil => rfl
  | cons first texts ih =>
      cases texts with
      | nil => simp [joined]
      | cons second texts =>
          rw [joined_cons_cons, String.toList_append, String.toList_append, List.append_assoc,
            List.flatMap_cons, ← ih]
          exact fields_at_blank first.toList _ ' ' (by decide)

/-! ## Reading what was written -/

namespace Numeral

theorem basic_of_word_symbol (symbol : Char) (shown : IsWordSymbol symbol) : IsBasic symbol := by
  rcases shown with rfl | rfl | digit
  · decide
  · decide
  · rw [Char.isDigit_iff_toNat] at digit
    have zero : '0'.toNat = 48 := rfl
    have nine : '9'.toNat = 57 := rfl
    constructor <;> omega

/-- A token of signs and digits that spells a numeral is read as its value. -/
theorem integer_of_token (token : List Char) (numeral : Numeral) (spells : Spells token numeral)
    (shown : ∀ symbol ∈ token, IsWordSymbol symbol)
    (short : numeral.digits.length ≤ digitLimit) : integer? token = some numeral.value := by
  have trimmed : Trimmed isBlank token token := by
    apply trimmed_self
    intro symbol member
    exact word_symbol_not_blank symbol (shown symbol member)
  apply integer_of_spells trimmed spells ?_ short
  intro symbol member
  exact basic_of_word_symbol symbol (shown symbol member)

end Numeral

theorem writable_digits (value : Int) (writable : Writable value) :
    value.natAbs.repr.toList.length ≤ digitLimit := by
  have positive : 0 < digitLimit := by decide
  unfold Writable at writable
  rw [String.length_toList]
  -- The power is not to be computed.
  generalize digitLimit = limit at positive writable ⊢
  exact (Nat.length_repr_le_iff positive).mpr writable

theorem integer_of_decimal (value : Int) (writable : Writable value) :
    integer? (decimal value).toList = some value := by
  have shown : ∀ symbol ∈ (decimal value).toList, IsWordSymbol symbol := by
    intro symbol member
    exact .inr (decimal_symbols value symbol member)
  rw [Numeral.integer_of_token _ _ (Program.spells_decimal value) shown
    (writable_digits value writable), Program.value_of_decimal]

theorem zero_padded_natural (width : Nat) (value : Int) (natural : 0 ≤ value) :
    (zeroPadded width value).toList =
      List.replicate (width - value.natAbs.repr.length) '0' ++ value.natAbs.repr.toList := by
  simp [zeroPadded, repeated, Int.not_lt.mpr natural]

theorem zeros_spell (count value : Nat) :
    Numeral.Spells (List.replicate count '0' ++ value.repr.toList)
      ⟨false, List.replicate count '0' ++ value.repr.toList⟩ where
  signed := .bare _
  filled := by
    intro empty
    exact repr_filled value (List.append_eq_nil_iff.mp empty).2
  ascii := by
    intro digit member
    rcases List.mem_append.mp member with zero | shown
    · rw [(List.mem_replicate.mp zero).2]
      decide
    · exact (Numeral.is_digit_iff digit).mp (repr_symbols value digit shown)

theorem zeros_value (count value : Nat) :
    Numeral.value ⟨false, List.replicate count '0' ++ value.repr.toList⟩ = value := by
  have zeros : Nat.ofDigitChars 10 (List.replicate count '0') 0 = 0 := by
    induction count with
    | zero => rfl
    | succ count ih =>
        rw [List.replicate_succ, Nat.ofDigitChars_cons]
        exact ih
  simp only [Numeral.value, Bool.false_eq_true, if_false]
  rw [Nat.ofDigitChars_append, zeros, Nat.toList_repr, Nat.ofDigitChars_ten_toDigits]

theorem integer_of_zero_padded (width : Nat) (value : Int) (natural : 0 ≤ value)
    (narrow : width ≤ digitLimit) (writable : Writable value) :
    integer? (zeroPadded width value).toList = some value := by
  have shown : ∀ symbol ∈ (zeroPadded width value).toList, IsWordSymbol symbol := by
    intro symbol member
    exact .inr (zero_padded_symbols width value symbol member)
  have short := writable_digits value writable
  rw [String.length_toList] at short
  rw [zero_padded_natural width value natural] at shown ⊢
  have padded : (List.replicate (width - value.natAbs.repr.length) '0' ++
      value.natAbs.repr.toList).length ≤ digitLimit := by
    rw [List.length_append, List.length_replicate, String.length_toList]
    omega
  rw [Numeral.integer_of_token _ _ (zeros_spell _ _) shown padded, zeros_value,
    Int.natAbs_of_nonneg natural]

/-! ## Tables -/

/-- The numbers of every line of a text. The empty text has no lines. -/
def table? (text : String) : Option (List (List Int)) :=
  if text = "" then some []
  else (pieces '\n' text.toList).mapM fun line => (fields line).mapM integer?

/-- Lines that can be read are the rows of the table that they are joined to. -/
theorem table_of_lines (lines : List String) (rows : List (List Int))
    (filled : ∀ line ∈ lines, line ≠ "") (plain : ∀ line ∈ lines, '\n' ∉ line.toList)
    (read : List.Forall₂
      (fun line row => (fields line.toList).mapM integer? = some row) lines rows) :
    table? (joined "\n" lines) = some rows := by
  cases lines with
  | nil =>
      cases read
      rfl
  | cons first lines =>
      have text : joined "\n" (first :: lines) ≠ "" := by
        have firstFilled := filled first List.mem_cons_self
        cases lines with
        | nil => simpa [joined] using firstFilled
        | cons second lines => simp [joined_cons_cons]
      have divided := divided_joined '\n' "\n" rfl (first :: lines) (List.cons_ne_nil _ _) plain
      rw [table?, if_neg text, ← (divided_iff _ _ _).mp divided]
      apply map_all_of_pairs
      rw [List.forall₂_map_left_iff]
      exact read

end Intcode.Text
