import Intcode.Listing
import Intcode.Proofs.DecimalText
import Intcode.Proofs.Encoding

/-!
# What a line of a listing says

The text of a line tells what it was made from. Its first five symbols say whether it is data or
else which operation it is, and the operands, which hold no comma, say their modes and values.
-/

set_option autoImplicit false

namespace Intcode

/-! ## Operands -/

namespace Mode

theorem position_symbols (operand : Int) :
    (position.operandText operand).toList = '[' :: ((Text.decimal operand).toList ++ [']']) := by
  simp [operandText]

theorem immediate_symbols (operand : Int) :
    (immediate.operandText operand).toList = '#' :: (Text.decimal operand).toList := by
  simp [operandText]

theorem relative_symbols (operand : Int) :
    (relative.operandText operand).toList =
      '[' :: 'r' :: 'b' :: ((Text.signedDecimal operand).toList ++ [']']) := by
  simp [operandText]

/-- Operands are made of digits, signs, brackets, the mark of a value and the name of the base. -/
theorem operand_text_plain (symbol : Char)
    (foreign : symbol.isDigit = false ∧ symbol ∉ ['[', ']', '#', 'r', 'b', '+', '-'])
    (mode : Mode) (operand : Int) : symbol ∉ (mode.operandText operand).toList := by
  simp only [List.mem_cons, List.not_mem_nil, or_false, not_or] at foreign
  have plain : symbol ∉ (Text.decimal operand).toList := by
    intro member
    have shown := Text.decimal_symbols operand symbol member
    simp [foreign] at shown
  have signedPlain : symbol ∉ (Text.signedDecimal operand).toList := by
    intro member
    have shown := Text.signed_decimal_symbols operand symbol member
    simp [foreign] at shown
  cases mode with
  | position => simp [position_symbols, plain, foreign]
  | immediate => simp [immediate_symbols, plain, foreign]
  | relative => simp [relative_symbols, signedPlain, foreign]

theorem operand_texts_plain (symbol : Char)
    (foreign : symbol.isDigit = false ∧ symbol ∉ ['[', ']', '#', 'r', 'b', '+', '-'])
    (modes : List Mode) (operands : List Int) :
    ∀ text ∈ List.zipWith operandText modes operands, symbol ∉ text.toList := by
  induction modes generalizing operands with
  | nil => simp
  | cons mode modes ih =>
      cases operands with
      | nil => simp
      | cons operand operands =>
          rw [List.zipWith_cons_cons, List.forall_mem_cons]
          exact ⟨operand_text_plain symbol foreign mode operand, ih operands⟩

/-- Behind its bracket, an address shows a number where an offset shows the base. -/
theorem position_text_ne_relative (address offset : Int) :
    position.operandText address ≠ relative.operandText offset := by
  intro same
  have sameList := congrArg String.toList same
  rw [position_symbols, relative_symbols, List.cons.injEq] at sameList
  have base : 'r' ∈ (Text.decimal address).toList ++ [']'] := by
    rw [sameList.2]
    exact List.mem_cons_self
  rcases List.mem_append.mp base with digit | bracket
  · exact absurd (Text.decimal_symbols address 'r' digit) (by decide)
  · exact absurd bracket (by decide)

theorem operand_text_injective (left right : Mode) (leftOperand rightOperand : Int)
    (same : left.operandText leftOperand = right.operandText rightOperand) :
    left = right ∧ leftOperand = rightOperand := by
  have sameList := congrArg String.toList same
  cases left with
  | position =>
      cases right with
      | position =>
          rw [position_symbols, position_symbols, List.cons.injEq, List.append_left_inj,
            String.toList_inj] at sameList
          exact ⟨rfl, Text.decimal_injective _ _ sameList.2⟩
      | immediate => simp [position_symbols, immediate_symbols] at sameList
      | relative => exact absurd same (position_text_ne_relative _ _)
  | immediate =>
      cases right with
      | position => simp [position_symbols, immediate_symbols] at sameList
      | immediate =>
          rw [immediate_symbols, immediate_symbols, List.cons.injEq, String.toList_inj] at sameList
          exact ⟨rfl, Text.decimal_injective _ _ sameList.2⟩
      | relative => simp [relative_symbols, immediate_symbols] at sameList
  | relative =>
      cases right with
      | position => exact absurd same.symm (position_text_ne_relative _ _)
      | immediate => simp [relative_symbols, immediate_symbols] at sameList
      | relative =>
          simp only [relative_symbols, List.cons.injEq, List.append_left_inj, String.toList_inj,
            true_and] at sameList
          exact ⟨rfl, Text.signed_decimal_injective _ _ sameList⟩

theorem operand_texts_injective (left right : List Mode) (leftOperands rightOperands : List Int)
    (leftLength : leftOperands.length = left.length)
    (rightLength : rightOperands.length = right.length)
    (same : List.zipWith operandText left leftOperands =
      List.zipWith operandText right rightOperands) :
    left = right ∧ leftOperands = rightOperands := by
  have sameLength : left.length = right.length := by
    have lengths := congrArg List.length same
    simpa [leftLength, rightLength] using lengths
  induction left generalizing right leftOperands rightOperands with
  | nil =>
      have rightNil := List.length_eq_zero_iff.mp sameLength.symm
      rw [rightNil] at rightLength
      rw [rightNil, List.length_eq_zero_iff.mp leftLength, List.length_eq_zero_iff.mp rightLength]
      exact ⟨rfl, rfl⟩
  | cons mode left ih =>
      obtain ⟨operand, leftOperands, rfl⟩ := List.exists_cons_of_length_eq_add_one leftLength
      obtain ⟨other, right, rfl⟩ := List.exists_cons_of_length_eq_add_one sameLength.symm
      obtain ⟨another, rightOperands, rfl⟩ := List.exists_cons_of_length_eq_add_one rightLength
      rw [List.zipWith_cons_cons, List.zipWith_cons_cons, List.cons.injEq] at same
      obtain ⟨sameMode, sameOperand⟩ := operand_text_injective mode other operand another same.1
      obtain ⟨sameModes, sameOperands⟩ := ih right leftOperands rightOperands
        (Nat.succ.inj leftLength) (Nat.succ.inj rightLength) same.2 (Nat.succ.inj sameLength)
      rw [sameMode, sameOperand, sameModes, sameOperands]
      exact ⟨rfl, rfl⟩

end Mode

/-! ## Headings -/

/-- The symbols of an instruction's line before its operands. -/
def Op.heading (op : Op) : List Char :=
  if op.arity = 0 then op.mnemonic.toList else (Text.padRight 5 op.mnemonic).toList

namespace Op

theorem find_heading (op : Op) : all.find? (fun other => other.heading = op.heading) = some op := by
  cases op <;> decide

theorem heading_injective (left right : Op) (same : left.heading = right.heading) :
    left = right := by
  have found := find_heading left
  rw [same, find_heading] at found
  exact (Option.some.inj found).symm

theorem heading_ne_data (op : Op) : op.heading ≠ "DATA ".toList := by
  cases op <;> decide

theorem take_heading (op : Op) (rest : List Char) (ended : op.arity = 0 → rest = []) :
    (op.heading ++ rest).take 5 = op.heading := by
  by_cases bare : op.arity = 0
  · rw [ended bare, List.append_nil]
    cases op <;> decide
  · have width : op.heading.length = 5 := by
      cases op with
      | halt => exact absurd rfl bare
      | _ => decide
    rw [List.take_append_of_le_length (by omega), List.take_of_length_le (by omega)]

end Op

/-! ## Lines -/

namespace Instruction

theorem text_symbols (instruction : Instruction) (operands : List Int)
    (length : instruction.modes.length = instruction.op.arity) :
    (instruction.text operands).toList = instruction.op.heading ++
      (Text.joined ", " (List.zipWith Mode.operandText instruction.modes operands)).toList := by
  unfold text Op.heading
  by_cases bare : instruction.op.arity = 0
  · have none : instruction.modes = [] := List.length_eq_zero_iff.mp (length.trans bare)
    simp [none, bare, Text.joined]
  · have some : instruction.modes ≠ [] := by
      intro none
      rw [none] at length
      exact bare length.symm
    simp [some, bare]

theorem take_text (instruction : Instruction) (operands : List Int)
    (length : instruction.modes.length = instruction.op.arity) :
    (instruction.text operands).toList.take 5 = instruction.op.heading := by
  rw [text_symbols instruction operands length]
  apply Op.take_heading
  intro bare
  rw [List.length_eq_zero_iff.mp (length.trans bare)]
  rfl

/-- The text of an instruction says which operation it is, and what its operands are and how they
are used. -/
theorem text_injective (left right : Instruction) (leftOperands rightOperands : List Int)
    (leftArity : left.modes.length = left.op.arity)
    (rightArity : right.modes.length = right.op.arity)
    (leftLength : leftOperands.length = left.modes.length)
    (rightLength : rightOperands.length = right.modes.length)
    (same : left.text leftOperands = right.text rightOperands) :
    left.op = right.op ∧ left.modes = right.modes ∧ leftOperands = rightOperands := by
  have sameOp : left.op = right.op := by
    apply Op.heading_injective
    rw [← take_text left leftOperands leftArity, ← take_text right rightOperands rightArity, same]
  have sameList := congrArg String.toList same
  rw [text_symbols left leftOperands leftArity, text_symbols right rightOperands rightArity,
    sameOp] at sameList
  have sameJoined := String.toList_inj.mp (List.append_cancel_left sameList)
  have sameTexts := Text.joined_injective ", " ',' [' '] rfl _ _
    (by simp [leftLength, rightLength, leftArity, rightArity, sameOp])
    (Mode.operand_texts_plain ',' (by decide) _ _) (Mode.operand_texts_plain ',' (by decide) _ _)
    sameJoined
  exact ⟨sameOp, Mode.operand_texts_injective _ _ _ _ leftLength rightLength sameTexts⟩

end Instruction

namespace Listing

theorem take_data_text (shown : String) :
    ("DATA " ++ shown).toList.take 5 = "DATA ".toList := by
  rw [String.toList_append, List.take_append_of_le_length (by decide),
    List.take_of_length_le (by decide)]

/-- No instruction is shown as data. -/
theorem data_text_ne_code (shown : String) (instruction : Instruction) (operands : List Int)
    (arity : instruction.modes.length = instruction.op.arity) :
    "DATA " ++ shown ≠ instruction.text operands := by
  intro same
  apply instruction.op.heading_ne_data
  rw [← Instruction.take_text instruction operands arity, ← same]
  exact take_data_text shown

end Listing

end Intcode
