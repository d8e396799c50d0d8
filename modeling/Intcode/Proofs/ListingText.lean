import Intcode.Proofs.LinearSweep

/-!
# A listing determines the words

Each line of a listing tells what it was made from, and an operation with its modes is one word. So
two word lists of the same length that are listed alike are the same. Without the length this fails,
because operands missing at the end are listed as zeros.
-/

set_option autoImplicit false

namespace Intcode

namespace Listing

/-- The operands show the words behind an instruction, as far as there are any. -/
theorem take_of_operands (count : Nat) (left right : List Int)
    (sameLength : left.length = right.length) (same : operands count left = operands count right) :
    left.take count = right.take count := by
  apply List.ext_getElem?
  intro index
  by_cases shown : index < count
  · rw [List.getElem?_take_of_lt shown, List.getElem?_take_of_lt shown]
    by_cases inside : index < left.length
    · have sameWord := congrArg (·[index]?) same
      simp only [operands, List.getElem?_map, List.getElem?_range shown, Option.map_some,
        Option.some.injEq] at sameWord
      rw [List.getD_eq_getElem?_getD, List.getD_eq_getElem?_getD, List.getElem?_eq_getElem inside,
        List.getElem?_eq_getElem (sameLength ▸ inside)] at sameWord
      rw [List.getElem?_eq_getElem inside, List.getElem?_eq_getElem (sameLength ▸ inside)]
      exact congrArg some sameWord
    · rw [List.getElem?_eq_none (by omega), List.getElem?_eq_none (by omega)]
  · rw [List.getElem?_take_eq_none (by omega), List.getElem?_take_eq_none (by omega)]

/-- A line tells its word, how many words it covers, and those of them that there are. -/
theorem line_text_injective (address word other : Int) (left right : List Int)
    (sameLength : left.length = right.length)
    (same : (lineOf address word left).text = (lineOf address other right).text) :
    let covered := (lineOf address word left).width - 1
    word = other ∧ (lineOf address other right).width = (lineOf address word left).width ∧
      left.take covered = right.take covered := by
  unfold lineOf at same ⊢
  cases decoded : Instruction.decode word with
  | error error =>
      cases otherDecoded : Instruction.decode other with
      | error otherError =>
          rw [decoded, otherDecoded] at same
          have sameWord : word = other := by
            apply Text.decimal_injective
            have sameList := congrArg String.toList same
            apply String.toList_inj.mp
            simpa [Line.text] using sameList
          exact ⟨sameWord, rfl, rfl⟩
      | ok instruction =>
          have arity := ((Instruction.decode_ok_iff other instruction).mp otherDecoded).2.1
          rw [decoded, otherDecoded] at same
          exact absurd same (data_text_ne_code _ instruction _ arity)
  | ok instruction =>
      obtain ⟨_, arity, encoded⟩ := (Instruction.decode_ok_iff word instruction).mp decoded
      cases otherDecoded : Instruction.decode other with
      | error error =>
          rw [decoded, otherDecoded] at same
          exact absurd same.symm (data_text_ne_code _ instruction _ arity)
      | ok otherInstruction =>
          obtain ⟨_, otherArity, otherEncoded⟩ :=
            (Instruction.decode_ok_iff other otherInstruction).mp otherDecoded
          rw [decoded, otherDecoded] at same
          obtain ⟨sameOp, sameModes, sameOperands⟩ := Instruction.text_injective instruction
            otherInstruction _ _ arity otherArity (by simp [operands]) (by simp [operands]) same
          have covers : instruction.width - 1 = instruction.modes.length := by
            rw [Instruction.width, Nat.add_sub_cancel_left]
          rw [← sameModes] at sameOperands
          refine ⟨by rw [encoded, otherEncoded, sameOp, sameModes], ?_, ?_⟩
          · simp only [Line.width, Instruction.width, sameModes]
          · simp only [Line.width, covers]
            exact take_of_operands _ left right sameLength sameOperands

theorem survey_texts_injective (address : Int) (left right : List Int)
    (sameLength : left.length = right.length)
    (same : (survey address left).map Line.text = (survey address right).map Line.text) :
    left = right := by
  fun_induction survey address left generalizing right with
  | case1 address => exact (List.length_eq_zero_iff.mp sameLength.symm).symm
  | case2 address word left line ih =>
      obtain ⟨other, right, rfl⟩ := List.exists_cons_of_length_eq_add_one sameLength.symm
      have sameRest : left.length = right.length := Nat.succ.inj sameLength
      rw [survey] at same
      obtain ⟨sameText, sameTexts⟩ := List.cons.inj same
      obtain ⟨rfl, sameWidth, sameTaken⟩ :=
        line_text_injective address word other left right sameRest sameText
      rw [sameWidth] at sameTexts
      have sameDropped := ih (right.drop (line.width - 1))
        (by rw [List.length_drop, List.length_drop, sameRest]) sameTexts
      rw [← List.take_append_drop (line.width - 1) left, sameDropped, sameTaken,
        List.take_append_drop]

/-- Two word lists of the same length whose sweeps show the same texts are the same list: the lines
tell every word, with its opcode and modes. -/
theorem listing_determines_the_words (left right : List Int) (texts : List String)
    (sameLength : left.length = right.length)
    (leftTexts : (disassemble left 0).map (List.map Line.text) = .ok texts)
    (rightTexts : (disassemble right 0).map (List.map Line.text) = .ok texts) : left = right := by
  have surveyed (words : List Int)
      (shown : (disassemble words 0).map (List.map Line.text) = .ok texts) :
      (survey 0 words).map Line.text = texts := by
    cases disassembled : disassemble words 0 with
    | error error =>
        rw [disassembled] at shown
        exact absurd shown (by simp [Except.map])
    | ok lines =>
        obtain ⟨_, same⟩ := writable_of_disassemble words 0 lines (by omega) disassembled
        rw [disassembled, same] at shown
        exact Except.ok.inj shown
  apply survey_texts_injective 0 left right sameLength
  rw [surveyed left leftTexts, surveyed right rightTexts]

/-- Behind a word of data, a sum whose target is missing. -/
theorem truncated_sum_is_determined :
    (disassemble [-4, 2101, -30, 5] 0).map (List.map Line.text) =
        .ok ["DATA -4", "ADD  #-30, [rb+5], [0]"] ∧
      [-4, 2101, -30, 5] =
        ([-4, Instruction.encode .add [.immediate, .relative, .position], -30, 5] : List Int) := by
  have listed : (disassemble [-4, 2101, -30, 5] 0).map (List.map Line.text) =
      .ok ["DATA -4", "ADD  #-30, [rb+5], [0]"] := by decide +kernel
  refine ⟨listed, ?_⟩
  exact listing_determines_the_words _ _ _ rfl listed (by decide +kernel)

end Listing

end Intcode
