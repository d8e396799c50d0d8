import Std.Data.String.ToNat
import Intcode.Text.Decimal

/-!
# Decimal text determines the integer

Decimal text is made of digits and at most one sign in front of them, so that it holds none of the
symbols that stand around numbers elsewhere, and different integers have different texts. Texts
joined by a comma can be told apart again as long as none of them holds a comma.
-/

set_option autoImplicit false

namespace Intcode.Text

/-! ## Integers -/

theorem repr_symbols (value : Nat) : ∀ symbol ∈ value.repr.toList, symbol.isDigit = true := by
  intro symbol member
  rw [Nat.toList_repr] at member
  exact Nat.isDigit_of_mem_toDigits (by decide) (by decide) member

theorem decimal_negative (value : Int) (negative : value < 0) :
    (decimal value).toList = '-' :: value.natAbs.repr.toList := by
  rw [decimal, if_pos negative, String.toList_append]
  rfl

theorem decimal_natural (value : Int) (natural : 0 ≤ value) :
    decimal value = value.natAbs.repr := by
  rw [decimal, if_neg (Int.not_lt.mpr natural)]

theorem decimal_symbols (value : Int) :
    ∀ symbol ∈ (decimal value).toList, symbol = '-' ∨ symbol.isDigit = true := by
  intro symbol member
  by_cases negative : value < 0
  · rw [decimal_negative value negative] at member
    rcases List.mem_cons.mp member with sign | digit
    · exact .inl sign
    · exact .inr (repr_symbols _ symbol digit)
  · rw [decimal_natural value (Int.not_lt.mp negative)] at member
    exact .inr (repr_symbols _ symbol member)

/-- A sign shows that the text is not that of a natural number. -/
theorem sign_not_mem_natural (value : Int) (natural : 0 ≤ value) :
    '-' ∉ (decimal value).toList := by
  intro member
  rw [decimal_natural value natural] at member
  exact absurd (repr_symbols _ '-' member) (by decide)

theorem decimal_injective (left right : Int) (same : decimal left = decimal right) :
    left = right := by
  have sameList := congrArg String.toList same
  by_cases leftNegative : left < 0
  · rw [decimal_negative left leftNegative] at sameList
    by_cases rightNegative : right < 0
    · rw [decimal_negative right rightNegative, List.cons.injEq, String.toList_inj,
        Nat.repr_inj] at sameList
      omega
    · have sign : '-' ∈ (decimal right).toList := by
        rw [← sameList]
        exact List.mem_cons_self
      exact absurd sign (sign_not_mem_natural right (Int.not_lt.mp rightNegative))
  · by_cases rightNegative : right < 0
    · have sign : '-' ∈ (decimal left).toList := by
        rw [sameList, decimal_negative right rightNegative]
        exact List.mem_cons_self
      exact absurd sign (sign_not_mem_natural left (Int.not_lt.mp leftNegative))
    · rw [decimal_natural left (Int.not_lt.mp leftNegative),
        decimal_natural right (Int.not_lt.mp rightNegative), Nat.repr_inj] at same
      omega

theorem signed_decimal_negative (value : Int) (negative : value < 0) :
    signedDecimal value = decimal value := by
  rw [signedDecimal, if_pos negative]

theorem signed_decimal_natural (value : Int) (natural : 0 ≤ value) :
    (signedDecimal value).toList = '+' :: (decimal value).toList := by
  rw [signedDecimal, if_neg (Int.not_lt.mpr natural), String.toList_append]
  rfl

theorem signed_decimal_symbols (value : Int) :
    ∀ symbol ∈ (signedDecimal value).toList,
      symbol = '+' ∨ symbol = '-' ∨ symbol.isDigit = true := by
  intro symbol member
  by_cases negative : value < 0
  · rw [signed_decimal_negative value negative] at member
    exact .inr (decimal_symbols value symbol member)
  · rw [signed_decimal_natural value (Int.not_lt.mp negative)] at member
    rcases List.mem_cons.mp member with sign | later
    · exact .inl sign
    · exact .inr (decimal_symbols value symbol later)

theorem signed_decimal_injective (left right : Int)
    (same : signedDecimal left = signedDecimal right) : left = right := by
  have plus_not_mem (value : Int) : '+' ∉ (decimal value).toList := by
    intro member
    exact absurd (decimal_symbols value '+' member) (by decide)
  have sameList := congrArg String.toList same
  by_cases leftNegative : left < 0
  · rw [signed_decimal_negative left leftNegative] at same sameList
    by_cases rightNegative : right < 0
    · rw [signed_decimal_negative right rightNegative] at same
      exact decimal_injective left right same
    · rw [signed_decimal_natural right (Int.not_lt.mp rightNegative)] at sameList
      exact absurd (sameList ▸ List.mem_cons_self) (plus_not_mem left)
  · rw [signed_decimal_natural left (Int.not_lt.mp leftNegative)] at sameList
    by_cases rightNegative : right < 0
    · rw [signed_decimal_negative right rightNegative] at sameList
      exact absurd (sameList ▸ List.mem_cons_self) (plus_not_mem right)
    · rw [signed_decimal_natural right (Int.not_lt.mp rightNegative), List.cons.injEq,
        String.toList_inj] at sameList
      exact decimal_injective left right sameList.2

/-! ## Joined texts -/

theorem joined_cons_cons (separator first second : String) (texts : List String) :
    joined separator (first :: second :: texts) =
      first ++ separator ++ joined separator (second :: texts) :=
  String.intercalate_cons_cons

/-- The first occurrence of a symbol divides a text in one way only. -/
theorem before_first_injective (symbol : Char) (left right leftRest rightRest : List Char)
    (leftPlain : symbol ∉ left) (rightPlain : symbol ∉ right)
    (same : left ++ symbol :: leftRest = right ++ symbol :: rightRest) :
    left = right ∧ leftRest = rightRest := by
  induction left generalizing right with
  | nil =>
      cases right with
      | nil => exact ⟨rfl, (List.cons.inj same).2⟩
      | cons other right =>
          rw [(List.cons.inj same).1] at rightPlain
          exact absurd List.mem_cons_self rightPlain
  | cons first left ih =>
      cases right with
      | nil =>
          rw [(List.cons.inj same).1] at leftPlain
          exact absurd List.mem_cons_self leftPlain
      | cons other right =>
          obtain ⟨sameFirst, sameLater⟩ := List.cons.inj same
          obtain ⟨sameLeft, sameRest⟩ := ih right (List.not_mem_of_not_mem_cons leftPlain)
            (List.not_mem_of_not_mem_cons rightPlain) sameLater
          exact ⟨by rw [sameFirst, sameLeft], sameRest⟩

/-- As many texts, none of which holds the first symbol of the separator, are the same if they are
joined to the same text. -/
theorem joined_injective (separator : String) (symbol : Char) (behind : List Char)
    (starts : separator.toList = symbol :: behind) (left right : List String)
    (sameLength : left.length = right.length)
    (leftPlain : ∀ text ∈ left, symbol ∉ text.toList)
    (rightPlain : ∀ text ∈ right, symbol ∉ text.toList)
    (same : joined separator left = joined separator right) : left = right := by
  induction left generalizing right with
  | nil => exact (List.length_eq_zero_iff.mp sameLength.symm).symm
  | cons first left ih =>
      cases right with
      | nil => exact absurd sameLength (by simp)
      | cons other right =>
          rw [List.forall_mem_cons] at leftPlain rightPlain
          cases left with
          | nil =>
              cases right with
              | nil => simpa [joined] using same
              | cons another right => exact absurd sameLength (by simp)
          | cons second left =>
              cases right with
              | nil => exact absurd sameLength (by simp)
              | cons another right =>
                  have sameList := congrArg String.toList same
                  simp only [joined_cons_cons, String.toList_append, starts, List.append_assoc,
                    List.cons_append] at sameList
                  obtain ⟨sameFirst, sameLater⟩ := before_first_injective symbol _ _ _ _
                    leftPlain.1 rightPlain.1 sameList
                  have sameRest := String.toList_inj.mp (List.append_cancel_left sameLater)
                  rw [String.toList_inj.mp sameFirst,
                    ih (another :: right) (Nat.succ.inj sameLength) leftPlain.2 rightPlain.2
                      sameRest]

end Intcode.Text
