import Intcode.Proofs.LineText

/-!
# The linear sweep

A sweep takes one line at a time off the words that it has not passed: a single word that is no
instruction, or an instruction with its operands. `Sweeps` has a rule for each of these and one for
the end, with the words found by their index. Negative indices count from the end of the list, so
that a sweep from a negative start comes by the last words twice.

From a start in the list, the lines cover what lies behind it without gap or overlap. Only the last
one may reach beyond the list, for the operands that are missing there. These are the lines that
there are to show; a word that is too long to be written ends the sweep when its line is to be made,
and then only the lines before it have been put out.
-/

set_option autoImplicit false

namespace Intcode

theorem Op.arity_le (op : Op) : op.arity ≤ 3 := by
  cases op <;> decide

namespace Listing

/-- The word at an index, when negative indices count from the end. -/
def wordAt? (words : List Int) (index : Int) : Option Int :=
  if 0 ≤ index then words[index.toNat]?
  else if -(words.length : Int) ≤ index then words[(words.length + index).toNat]?
  else none

/-- The words at `count` indices from one on, with zeros for those behind the list. -/
def operandsAt (words : List Int) (first : Int) (count : Nat) : List Int :=
  (List.range count).map fun (index : Nat) => (wordAt? words (first + index)).getD 0

/-! ## The lines that there are to show -/

/-- The line of a word and the words behind it, however long their numbers are. -/
def lineOf (address word : Int) (rest : List Int) : Line :=
  match Instruction.decode word with
  | .ok instruction => ⟨address, .code instruction (operands instruction.modes.length rest)⟩
  | .error _ => ⟨address, .data word⟩

/-- The lines of words that lie at consecutive addresses, however long their numbers are. -/
def survey (address : Int) (words : List Int) : List Line :=
  match words with
  | [] => []
  | word :: rest =>
      let line := lineOf address word rest
      line :: survey (address + line.width) (rest.drop (line.width - 1))
termination_by words.length
decreasing_by simp only [List.length_cons, List.length_drop]; omega

/-- Operands that are missing are shown as zeros, and zeros can be written. -/
theorem operands_writable_iff (count : Nat) (words : List Int) :
    (∀ operand ∈ operands count words, Text.Writable operand) ↔
      ∀ word ∈ words.take count, Text.Writable word := by
  constructor
  · intro writable word member
    obtain ⟨index, found⟩ := List.getElem?_of_mem member
    rw [List.getElem?_take] at found
    split at found
    case isTrue shown =>
      apply writable
      refine List.mem_map.mpr ⟨index, List.mem_range.mpr shown, ?_⟩
      rw [List.getD_eq_getElem?_getD, found, Option.getD_some]
    case isFalse => exact absurd found (by simp)
  · intro writable operand member
    obtain ⟨index, shown, rfl⟩ := List.mem_map.mp member
    rw [List.getD_eq_getElem?_getD]
    cases there : words[index]? with
    | none =>
        rw [Option.getD_none]
        decide
    | some word =>
        apply writable word
        apply List.mem_of_getElem?
        rw [List.getElem?_take, if_pos (List.mem_range.mp shown)]
        exact there

/-- A line is made just when the word and the words that it shows as operands can be written. -/
theorem line_at_eq (address word : Int) (rest : List Int) :
    lineAt address word rest =
      let line := lineOf address word rest
      let covered := word :: rest.take (line.width - 1)
      if ∀ shown ∈ covered, Text.Writable shown then .ok line else .error .unwritable := by
  unfold lineAt lineOf
  cases decoded : Instruction.decode word with
  | ok instruction =>
      have writable := Instruction.writable_of_decode word instruction decoded
      have arity : instruction.width - 1 = instruction.modes.length := by
        rw [Instruction.width, Nat.add_sub_cancel_left]
      simp only [Line.width, arity, operands_writable_iff, List.forall_mem_cons, writable,
        true_and]
  | error error =>
      by_cases writable : Text.Writable word
      · obtain ⟨cause, _, rfl⟩ := (Instruction.decode_error_iff word writable error).mp decoded
        simp [Line.width, writable]
      · rw [Instruction.decode_of_unwritable word writable] at decoded
        cases decoded
        simp [writable]

theorem forall_mem_take_drop {Good : Int → Prop} (word : Int) (rest : List Int) (count : Nat) :
    (∀ each ∈ word :: rest, Good each) ↔
      (∀ each ∈ word :: rest.take count, Good each) ∧ ∀ each ∈ rest.drop count, Good each := by
  rw [← List.forall_mem_append, List.cons_append, List.take_append_drop]

section Guarded

variable (address : Int) (words : List Int)

/-- Where all words can be written, a sweep shows all lines that there are. -/
theorem sweep_of_writable (writable : ∀ word ∈ words, Text.Writable word) :
    sweep address words = ⟨survey address words, none⟩ := by
  fun_induction survey address words with
  | case1 address => rw [sweep]
  | case2 address word rest line ih =>
      obtain ⟨here, later⟩ := (forall_mem_take_drop word rest (line.width - 1)).mp writable
      rw [sweep, line_at_eq, if_pos here]
      dsimp only
      rw [ih later]
      rfl

/-- Where some word cannot be written, the sweep fails for that. -/
theorem sweep_of_unwritable (unwritable : ¬ ∀ word ∈ words, Text.Writable word) :
    (sweep address words).failure? = some .unwritable := by
  fun_induction survey address words with
  | case1 address => exact absurd (by simp) unwritable
  | case2 address word rest line ih =>
      rw [forall_mem_take_drop word rest (line.width - 1)] at unwritable
      rw [sweep, line_at_eq]
      by_cases here : ∀ shown ∈ word :: rest.take (line.width - 1), Text.Writable shown
      · rw [if_pos here]
        exact ih fun later => unwritable ⟨here, later⟩
      · rw [if_neg here]
        rfl

end Guarded

/-- The first line is put out whatever comes behind it. -/
theorem sweep_first (address word : Int) (rest : List Int) (line : Line)
    (made : lineAt address word rest = .ok line) :
    (sweep address (word :: rest)).lines.head? = some line := by
  rw [sweep, made]
  rfl

theorem sweep_blocked (address word : Int) (rest : List Int) (error : Error)
    (failed : lineAt address word rest = .error error) :
    sweep address (word :: rest) = .failed error := by
  rw [sweep, failed]

/-- What there is to show at an address, and what comes behind it. -/
inductive Sweeps (words : List Int) : Int → List Line → Prop
  | ended (address : Int) (behind : (words.length : Int) ≤ address) : Sweeps words address []
  | data (address word : Int) (error : Error) (lines : List Line)
      (before : address < words.length) (found : wordAt? words address = some word)
      (refused : Instruction.decode word = .error error)
      (rest : Sweeps words (address + 1) lines) :
      Sweeps words address (⟨address, .data word⟩ :: lines)
  | code (address word : Int) (instruction : Instruction) (lines : List Line)
      (before : address < words.length) (found : wordAt? words address = some word)
      (decoded : Instruction.decode word = .ok instruction)
      (rest : Sweeps words (address + instruction.width) lines) :
      Sweeps words address
        (⟨address, .code instruction
          (operandsAt words (address + 1) instruction.modes.length)⟩ :: lines)

/-! ## Words by their index -/

theorem word_at_natural (words : List Int) (index : Int) (natural : 0 ≤ index) :
    wordAt? words index = words[index.toNat]? := by
  rw [wordAt?, if_pos natural]

theorem word_at_negative (words : List Int) (index : Int) (negative : index < 0)
    (inside : -(words.length : Int) ≤ index) :
    wordAt? words index = words[(words.length + index).toNat]? := by
  rw [wordAt?, if_neg (Int.not_le.mpr negative), if_pos inside]

theorem word_at_none_iff (words : List Int) (index : Int)
    (inside : -(words.length : Int) ≤ index) :
    wordAt? words index = none ↔ (words.length : Int) ≤ index := by
  by_cases natural : 0 ≤ index
  · rw [word_at_natural words index natural, List.getElem?_eq_none_iff]
    omega
  · rw [word_at_negative words index (Int.not_le.mp natural) inside, List.getElem?_eq_none_iff]
    omega

/-! ## Sweeping -/

/-- These are the words from an address on. -/
structure Ahead (words : List Int) (address : Int) (rest : List Int) : Prop where
  inside : -(words.length : Int) ≤ address
  seen : ∀ index : Nat, rest[index]? = wordAt? words (address + index)

section Ahead

variable {words rest : List Int} {address word : Int}

theorem Ahead.ended (ahead : Ahead words address []) : (words.length : Int) ≤ address := by
  have nothing := ahead.seen 0
  rw [Int.natCast_zero, Int.add_zero] at nothing
  exact (word_at_none_iff words address ahead.inside).mp nothing.symm

theorem Ahead.first (ahead : Ahead words address (word :: rest)) :
    wordAt? words address = some word ∧ address < words.length := by
  have here := ahead.seen 0
  rw [Int.natCast_zero, Int.add_zero, List.getElem?_cons_zero] at here
  refine ⟨here.symm, Int.not_le.mp ?_⟩
  intro behind
  rw [(word_at_none_iff words address ahead.inside).mpr behind] at here
  exact absurd here (by simp)

theorem Ahead.drop (ahead : Ahead words address rest) (count : Nat) :
    Ahead words (address + count) (rest.drop count) := by
  have inside := ahead.inside
  refine ⟨by omega, ?_⟩
  intro index
  rw [List.getElem?_drop, ahead.seen, Int.natCast_add, Int.add_assoc]

theorem Ahead.operands (ahead : Ahead words address rest) (count : Nat) :
    operands count rest = operandsAt words address count := by
  unfold Listing.operands operandsAt
  apply List.map_congr_left
  intro index _
  rw [List.getD_eq_getElem?_getD, ahead.seen]

end Ahead

theorem ahead_natural (words : List Int) (start : Int) (natural : 0 ≤ start) :
    Ahead words start (words.drop start.toNat) := by
  refine ⟨by omega, ?_⟩
  intro index
  have same : start.toNat + index = (start + index).toNat := by omega
  rw [word_at_natural words _ (by omega), List.getElem?_drop, same]

/-- From a negative start, the rest of the list lies ahead and then the list once more. -/
theorem ahead_negative (words : List Int) (start : Int) (negative : start < 0)
    (inside : -(words.length : Int) ≤ start) :
    Ahead words start (words.drop (words.length + start).toNat ++ words) := by
  refine ⟨inside, ?_⟩
  intro index
  rw [List.getElem?_append, List.length_drop]
  by_cases first : start + index < 0
  · have same : (words.length + start).toNat + index = (words.length + (start + index)).toNat := by
      omega
    rw [if_pos (by omega), List.getElem?_drop, word_at_negative words _ first (by omega), same]
  · have same : index - (words.length - (words.length + start).toNat) = (start + index).toNat := by
      omega
    rw [if_neg (by omega), word_at_natural words _ (by omega), same]

theorem survey_sweeps (words rest : List Int) (address : Int) (ahead : Ahead words address rest) :
    Sweeps words address (survey address rest) := by
  fun_induction survey address rest with
  | case1 address => exact .ended address ahead.ended
  | case2 address word rest line ih =>
      obtain ⟨found, before⟩ := ahead.first
      cases decoded : Instruction.decode word with
      | error error =>
          have shape : line = ⟨address, .data word⟩ := by
            change lineOf address word rest = _
            rw [lineOf, decoded]
          rw [shape] at ih ⊢
          exact .data address word error _ before found decoded (ih (ahead.drop 1))
      | ok instruction =>
          have shape : line = ⟨address, .code instruction
              (operandsAt words (address + 1) instruction.modes.length)⟩ := by
            have seen : operands instruction.modes.length rest =
                operandsAt words (address + 1) instruction.modes.length :=
              (ahead.drop 1).operands instruction.modes.length
            change lineOf address word rest = _
            rw [← seen, lineOf, decoded]
          have behind : Ahead words (address + instruction.width)
              (rest.drop (instruction.width - 1)) := by
            have dropped := ahead.drop instruction.width
            rw [Instruction.width, Nat.add_comm, List.drop_succ_cons] at dropped
            rw [Instruction.width, Nat.add_comm, Nat.add_sub_cancel]
            exact dropped
          rw [shape] at ih ⊢
          exact .code address word instruction _ before found decoded (ih behind)

/-- What lies ahead of a start, in the list and, if the start is negative, once more. -/
def ahead (words : List Int) (start : Int) : List Int :=
  if 0 ≤ start then words.drop start.toNat
  else words.drop (words.length + start).toNat ++ words

theorem output_inside (words : List Int) (start : Int) (inside : -(words.length : Int) ≤ start) :
    output words start = sweep start (ahead words start) := by
  unfold output ahead
  by_cases natural : 0 ≤ start
  · rw [if_pos natural, if_pos natural]
  · rw [if_neg natural, if_pos inside, if_neg natural]

theorem ahead_sweeps (words : List Int) (start : Int) (inside : -(words.length : Int) ≤ start) :
    Sweeps words start (survey start (ahead words start)) := by
  apply survey_sweeps
  unfold ahead
  by_cases natural : 0 ≤ start
  · rw [if_pos natural]
    exact ahead_natural words start natural
  · rw [if_neg natural]
    exact ahead_negative words start (Int.not_le.mp natural) inside

/-- From a negative start a sweep comes by all words of the list. -/
theorem mem_ahead_iff (words : List Int) (start word : Int) :
    word ∈ ahead words start ↔ word ∈ words.drop start.toNat := by
  unfold ahead
  split
  case isTrue natural => rfl
  case isFalse negative =>
    have none : start.toNat = 0 := Int.toNat_of_nonpos (by omega)
    rw [none, List.drop_zero, List.mem_append]
    exact ⟨fun member => member.elim List.mem_of_mem_drop id, .inr⟩

theorem disassemble_of_writable (words : List Int) (start : Int)
    (inside : -(words.length : Int) ≤ start)
    (writable : ∀ word ∈ words.drop start.toNat, Text.Writable word) :
    disassemble words start = .ok (survey start (ahead words start)) := by
  rw [disassemble, output_inside words start inside, sweep_of_writable]
  · rfl
  · intro word member
    exact writable word ((mem_ahead_iff words start word).mp member)

theorem disassemble_of_unwritable (words : List Int) (start : Int)
    (inside : -(words.length : Int) ≤ start)
    (unwritable : ¬ ∀ word ∈ words.drop start.toNat, Text.Writable word) :
    disassemble words start = .error .unwritable := by
  have failed : (output words start).failure? = some .unwritable := by
    rw [output_inside words start inside]
    apply sweep_of_unwritable
    intro writable
    apply unwritable
    intro word member
    exact writable word ((mem_ahead_iff words start word).mpr member)
  rw [disassemble, Output.all, failed]

theorem writable_of_disassemble (words : List Int) (start : Int) (lines : List Line)
    (inside : -(words.length : Int) ≤ start) (shown : disassemble words start = .ok lines) :
    (∀ word ∈ words.drop start.toNat, Text.Writable word) ∧
      lines = survey start (ahead words start) := by
  by_cases writable : ∀ word ∈ words.drop start.toNat, Text.Writable word
  · rw [disassemble_of_writable words start inside writable] at shown
    exact ⟨writable, (Except.ok.inj shown).symm⟩
  · rw [disassemble_of_unwritable words start inside writable] at shown
    exact absurd shown (by simp)

theorem disassemble_sweeps (words : List Int) (start : Int)
    (inside : -(words.length : Int) ≤ start)
    (writable : ∀ word ∈ words.drop start.toNat, Text.Writable word) :
    ∃ lines, disassemble words start = .ok lines ∧ Sweeps words start lines :=
  ⟨_, disassemble_of_writable words start inside writable, ahead_sweeps words start inside⟩

section Lines

variable {words : List Int} {address : Int} {line : Line} {lines : List Line}

theorem Sweeps.behind (sweeps : Sweeps words address []) : (words.length : Int) ≤ address := by
  cases sweeps with
  | ended _ behind => exact behind

theorem Sweeps.uncons (sweeps : Sweeps words address (line :: lines)) :
    line.address = address ∧ address < words.length ∧
      Sweeps words (address + line.width) lines := by
  cases sweeps with
  | data _ word error _ before found refused rest => exact ⟨rfl, before, rest⟩
  | code _ word instruction _ before found decoded rest => exact ⟨rfl, before, rest⟩

/-- A line stands for the word at its address: as data if that is no instruction, and else as the
instruction that it is, with the words behind it as operands. -/
def Shows (words : List Int) (line : Line) (word : Int) : Prop :=
  wordAt? words line.address = some word ∧
    match Instruction.decode word with
    | .error _ => line.content = .data word
    | .ok instruction =>
        line.content = .code instruction
          (operandsAt words (line.address + 1) instruction.modes.length)

theorem Sweeps.shows (sweeps : Sweeps words address (line :: lines)) :
    ∃ word, Shows words line word := by
  cases sweeps with
  | data _ word error _ before found refused rest => exact ⟨word, found, by rw [refused]⟩
  | code _ word instruction _ before found decoded rest => exact ⟨word, found, by rw [decoded]⟩

theorem Shows.width {word : Int} (shows : Shows words line word) :
    1 ≤ line.width ∧ line.width ≤ 4 := by
  obtain ⟨found, content⟩ := shows
  unfold Line.width
  cases decoded : Instruction.decode word with
  | error error =>
      rw [decoded] at content
      simp [content]
  | ok instruction =>
      rw [decoded] at content
      rw [content]
      have arity := ((Instruction.decode_ok_iff word instruction).mp decoded).2.1
      have bound := instruction.op.arity_le
      simp only [Instruction.width]
      omega

/-- Data is shown as such, and an instruction as the text of its operation and its operands. -/
theorem Shows.text {word : Int} (shows : Shows words line word) :
    ((∃ error, Instruction.decode word = .error error) →
        line.text = "DATA " ++ Text.decimal word ∧ line.width = 1) ∧
      ∀ instruction, Instruction.decode word = .ok instruction →
        line.text = instruction.text
            (operandsAt words (line.address + 1) instruction.modes.length) ∧
          line.width = instruction.width := by
  obtain ⟨found, content⟩ := shows
  unfold Line.text Line.width
  cases decoded : Instruction.decode word with
  | error error =>
      rw [decoded] at content
      simp [content]
  | ok instruction =>
      rw [decoded] at content
      simp [content]

theorem Sweeps.all_shown (sweeps : Sweeps words address lines) :
    ∀ line ∈ lines, ∃ word, Shows words line word := by
  induction lines generalizing address with
  | nil => simp
  | cons first lines ih =>
      obtain ⟨_, _, rest⟩ := sweeps.uncons
      intro line member
      rcases List.mem_cons.mp member with rfl | later
      · exact sweeps.shows
      · exact ih rest line later

theorem Sweeps.next (sweeps : Sweeps words address lines) (index : Nat) (line next : Line)
    (here : lines[index]? = some line) (behind : lines[index + 1]? = some next) :
    next.address = line.address + line.width := by
  induction lines generalizing address index with
  | nil => exact absurd here (by simp)
  | cons first lines ih =>
      obtain ⟨starts, _, rest⟩ := sweeps.uncons
      cases index with
      | succ index => exact ih rest index here behind
      | zero =>
          cases lines with
          | nil => exact absurd behind (by simp)
          | cons second lines =>
              cases here
              cases behind
              rw [rest.uncons.1, starts]

theorem Sweeps.starts_inside (sweeps : Sweeps words address lines) :
    ∀ line ∈ lines, address ≤ line.address ∧ line.address < words.length := by
  induction lines generalizing address with
  | nil => simp
  | cons first lines ih =>
      obtain ⟨starts, before, rest⟩ := sweeps.uncons
      intro line member
      rcases List.mem_cons.mp member with rfl | later
      · omega
      · have beyond := ih rest line later
        omega

theorem stretch_natural (words : List Int) (first : Int) (width : Nat) (natural : 0 ≤ first)
    (before : first < words.length) :
    stretch words first (first + width) = (words.drop first.toNat).take width := by
  have lower : position words.length first = first.toNat := by
    rw [position, if_neg (by omega)]
    omega
  have upper : position words.length (first + width) =
      min words.length (first.toNat + width) := by
    rw [position, if_neg (by omega)]
    omega
  unfold stretch
  dsimp only
  rw [lower, upper, List.take_eq_take_iff, List.length_drop]
  omega

theorem Sweeps.covers (sweeps : Sweeps words address lines) (natural : 0 ≤ address) :
    (lines.flatMap fun line => stretch words line.address (line.address + line.width)) =
      words.drop address.toNat := by
  induction lines generalizing address with
  | nil =>
      have behind := sweeps.behind
      rw [List.flatMap_nil, List.drop_eq_nil_of_le (by omega)]
  | cons line lines ih =>
      obtain ⟨starts, before, rest⟩ := sweeps.uncons
      have behind : (address + line.width).toNat = address.toNat + line.width := by omega
      calc ((line :: lines).flatMap fun line =>
            stretch words line.address (line.address + line.width))
          = stretch words address (address + line.width) ++
              words.drop (address + line.width).toNat := by
            rw [List.flatMap_cons, ih rest (by omega), starts]
        _ = (words.drop address.toNat).take line.width ++
              (words.drop address.toNat).drop line.width := by
            rw [stretch_natural words address line.width natural before, behind, List.drop_drop]
        _ = words.drop address.toNat := List.take_append_drop _ _

end Lines

end Listing

end Intcode
