import Mathlib.Data.Nat.Find
import Mathlib.Tactic.Ring
import Intcode.Instruction

/-!
# Instruction words

The words that can be read as instructions are those that `encode` writes, and reading gives back
what was written. A word that is none has one thing wrong with it that is reported: its sign, or
else its opcode, or else the first of its mode digits that is no mode, or else the digits beyond
the modes. The report shows the word, so there is none for a word with too many digits.
-/

set_option autoImplicit false

namespace Intcode

namespace Mode

theorem digit_lt (mode : Mode) : mode.digit < 10 := by
  cases mode <;> decide

theorem of_digit_some (digit : Nat) (mode : Mode) :
    ofDigit? digit = some mode ↔ digit = mode.digit := by
  constructor
  · intro found
    unfold ofDigit? at found
    split at found <;> cases found <;> rfl
  · rintro rfl
    cases mode <;> rfl

theorem of_digit_none (digit : Nat) : ofDigit? digit = none ↔ 2 < digit := by
  match digit with
  | 0 => decide
  | 1 => decide
  | 2 => decide
  | digit + 3 => exact ⟨fun _ => by omega, fun _ => rfl⟩

end Mode

namespace Op

theorem code_lt (op : Op) : op.code < 100 := by
  cases op <;> decide

theorem of_code_code (op : Op) : ofCode? op.code = some op := by
  cases op <;> rfl

theorem of_code_some (code : Nat) (op : Op) : ofCode? code = some op ↔ code = op.code := by
  constructor
  · intro found
    have same := List.find?_some found
    exact (of_decide_eq_true same).symm
  · rintro rfl
    exact of_code_code op

theorem code_injective (left right : Op) (same : left.code = right.code) : left = right := by
  have found := of_code_code left
  rw [same, of_code_code] at found
  exact (Option.some.inj found).symm

theorem of_code_none (code : Nat) : ofCode? code = none ↔ ∀ op : Op, op.code ≠ code := by
  constructor
  · intro missing op same
    rw [← same, of_code_code] at missing
    exact absurd missing (by simp)
  · intro unknown
    cases found : ofCode? code with
    | none => rfl
    | some op => exact absurd ((of_code_some code op).mp found).symm (unknown op)

end Op

namespace Instruction

/-! ## Mode digits -/

/-- Reading modes splits a number into the digits of the modes and what stands above them. -/
theorem read_modes_ok (count remainder : Nat) (modes : List Mode) (rest : Nat) :
    readModes count remainder = .ok (modes, rest) ↔
      modes.length = count ∧ remainder = modesNumber modes + 10 ^ count * rest := by
  induction count generalizing remainder modes with
  | zero =>
      simp only [readModes, Except.ok.injEq, Prod.mk.injEq, List.length_eq_zero_iff, pow_zero,
        one_mul]
      constructor
      · rintro ⟨rfl, rfl⟩
        exact ⟨rfl, (Nat.zero_add _).symm⟩
      · rintro ⟨rfl, same⟩
        exact ⟨rfl, same.trans (Nat.zero_add _)⟩
  | succ count ih =>
      unfold readModes
      constructor
      · intro read
        split at read
        · exact absurd read (by simp)
        case h_2 mode isMode =>
          split at read
          · exact absurd read (by simp)
          case h_2 later last readLater =>
            cases read
            obtain ⟨length, value⟩ := (ih _ later).mp readLater
            have digit := (Mode.of_digit_some _ mode).mp isMode
            refine ⟨by simp [length], ?_⟩
            calc remainder = remainder % 10 + 10 * (remainder / 10) := (Nat.mod_add_div _ _).symm
              _ = mode.digit + 10 * (modesNumber later + 10 ^ count * rest) := by
                rw [digit, value]
              _ = modesNumber (mode :: later) + 10 ^ (count + 1) * rest := by
                rw [modesNumber]
                ring
      · rintro ⟨length, value⟩
        cases modes with
        | nil => exact absurd length (by simp)
        | cons mode later =>
            have split : remainder = mode.digit + 10 * (modesNumber later + 10 ^ count * rest) := by
              rw [value, modesNumber]
              ring
            have small := mode.digit_lt
            have digit : remainder % 10 = mode.digit := by omega
            have above : remainder / 10 = modesNumber later + 10 ^ count * rest := by omega
            have readLater := (ih (remainder / 10) later).mpr ⟨Nat.succ.inj length, above⟩
            rw [(Mode.of_digit_some _ mode).mpr digit]
            simp only [readLater]

theorem read_modes_cons (count remainder digit : Nat) (isMode : remainder % 10 ≤ 2) :
    readModes (count + 1) remainder = .error digit ↔
      readModes count (remainder / 10) = .error digit := by
  rw [readModes]
  split
  case h_1 noMode => exact absurd ((Mode.of_digit_none _).mp noMode) (by omega)
  case h_2 mode found =>
    split
    case h_1 cause failed => rw [failed]
    case h_2 modes rest read => simp [read]

/-- Reading modes fails at the first digit that is no mode. -/
theorem read_modes_error (count remainder digit : Nat) :
    readModes count remainder = .error digit ↔
      ∃ index < count, remainder / 10 ^ index % 10 = digit ∧ 2 < digit ∧
        ∀ earlier < index, remainder / 10 ^ earlier % 10 ≤ 2 := by
  induction count generalizing remainder with
  | zero => simp [readModes]
  | succ count ih =>
      have shift (index : Nat) : remainder / 10 ^ (index + 1) = remainder / 10 / 10 ^ index := by
        rw [pow_succ', Nat.div_div_eq_div_mul]
      by_cases isMode : remainder % 10 ≤ 2
      · rw [read_modes_cons count remainder digit isMode, ih]
        constructor
        · rintro ⟨index, inside, here, noMode, before⟩
          refine ⟨index + 1, by omega, by rw [shift, here], noMode, ?_⟩
          intro earlier first
          cases earlier with
          | zero => simpa using isMode
          | succ earlier =>
              rw [shift]
              exact before earlier (by omega)
        · rintro ⟨index, inside, here, noMode, before⟩
          cases index with
          | zero =>
              rw [pow_zero, Nat.div_one] at here
              omega
          | succ index =>
              refine ⟨index, by omega, by rw [← shift, here], noMode, ?_⟩
              intro earlier first
              rw [← shift]
              exact before (earlier + 1) (by omega)
      · have noMode : Mode.ofDigit? (remainder % 10) = none :=
          (Mode.of_digit_none _).mpr (by omega)
        simp only [readModes, noMode, Except.error.injEq]
        constructor
        · rintro rfl
          exact ⟨0, by omega, by simp, by omega, by simp⟩
        · rintro ⟨index, inside, here, above, before⟩
          cases index with
          | zero => simpa using here
          | succ index =>
              have first := before 0 (by omega)
              rw [pow_zero, Nat.div_one] at first
              omega

theorem modes_number_lt (modes : List Mode) : modesNumber modes < 10 ^ modes.length := by
  induction modes with
  | nil => decide
  | cons mode modes ih =>
      have small := mode.digit_lt
      rw [modesNumber, List.length_cons, pow_succ]
      omega

/-! ## Words -/

/-- The decimal digit of a word that says how a parameter is used. -/
def modeDigit (word : Int) (index : Nat) : Nat := word.toNat / 10 ^ (2 + index) % 10

/-- The number above the digits of a word that stand for the opcode and so many modes. -/
def beyondModes (word : Int) (arity : Nat) : Nat := word.toNat / 10 ^ (2 + arity)

theorem above_opcode (word : Int) (count : Nat) :
    word.toNat / 100 / 10 ^ count = word.toNat / 10 ^ (2 + count) := by
  rw [pow_add, Nat.div_div_eq_div_mul]
  rfl

/-- What a word is read as, one rule for each outcome: four for words that are no instructions, by
what is wrong with them, and one for the words that encode one. -/
inductive Reads (word : Int) : Except DecodeError Instruction → Prop
  | negative (below : word < 0) : Reads word (.error (.negative word))
  | unknownOpcode (natural : 0 ≤ word) (unknown : ∀ op : Op, (op.code : Int) ≠ word % 100) :
      Reads word (.error (.unknownOpcode word))
  | invalidMode (op : Op) (index : Nat) (natural : 0 ≤ word) (known : (op.code : Int) = word % 100)
      (inside : index < op.arity) (invalid : 2 < modeDigit word index)
      (before : ∀ earlier < index, modeDigit word earlier ≤ 2) :
      Reads word (.error (.invalidMode word (modeDigit word index)))
  | extraModes (op : Op) (natural : 0 ≤ word) (known : (op.code : Int) = word % 100)
      (valid : ∀ index < op.arity, modeDigit word index ≤ 2)
      (extra : beyondModes word op.arity ≠ 0) :
      Reads word (.error (.extraModes word op.arity (beyondModes word op.arity)))
  | instruction (op : Op) (modes : List Mode) (length : modes.length = op.arity)
      (encoded : word = encode op modes) : Reads word (.ok ⟨op, modes, word⟩)

/-- A word with a known opcode is read as its mode digits say. -/
theorem of_word_known (word : Int) (op : Op) (natural : 0 ≤ word)
    (known : (op.code : Int) = word % 100) :
    ofWord word =
      match readModes op.arity (word.toNat / 100) with
      | .error digit => .error (.invalidMode word digit)
      | .ok (modes, 0) => .ok ⟨op, modes, word⟩
      | .ok (_, remainder + 1) => .error (.extraModes word op.arity (remainder + 1)) := by
  have code : Op.ofCode? (word.toNat % 100) = some op :=
    (Op.of_code_some _ op).mpr (by omega)
  unfold ofWord
  rw [if_neg (Int.not_lt.mpr natural)]
  generalize Op.ofCode? (word.toNat % 100) = found at code
  subst code
  rfl

theorem read_modes_of_valid (word : Int) (op : Op)
    (valid : ∀ index < op.arity, modeDigit word index ≤ 2) :
    ∃ modes, modes.length = op.arity ∧
      readModes op.arity (word.toNat / 100) = .ok (modes, beyondModes word op.arity) := by
  cases read : readModes op.arity (word.toNat / 100) with
  | error digit =>
      obtain ⟨index, inside, here, invalid, _⟩ := (read_modes_error _ _ _).mp read
      rw [above_opcode] at here
      exact absurd (valid index inside) (by rw [modeDigit, here]; omega)
  | ok result =>
      obtain ⟨modes, rest⟩ := result
      obtain ⟨length, value⟩ := (read_modes_ok _ _ modes rest).mp read
      have small := modes_number_lt modes
      rw [length] at small
      have above : beyondModes word op.arity = rest := by
        rw [beyondModes, ← above_opcode, value, Nat.add_mul_div_left _ _ (Nat.pow_pos (by omega)),
          Nat.div_eq_of_lt small, Nat.zero_add]
      rw [above]
      exact ⟨modes, length, rfl⟩

theorem reads_of_word (word : Int) (result : Except DecodeError Instruction)
    (reads : Reads word result) : ofWord word = result := by
  cases reads with
  | negative below => rw [ofWord, if_pos below]
  | unknownOpcode natural unknown =>
      have missing : Op.ofCode? (word.toNat % 100) = none := by
        rw [Op.of_code_none]
        intro op same
        exact unknown op (by omega)
      simp only [ofWord, if_neg (Int.not_lt.mpr natural), missing]
  | invalidMode op index natural known inside invalid before =>
      have failed : readModes op.arity (word.toNat / 100) = .error (modeDigit word index) := by
        rw [read_modes_error]
        refine ⟨index, inside, by rw [above_opcode]; rfl, invalid, ?_⟩
        intro earlier first
        rw [above_opcode]
        exact before earlier first
      rw [of_word_known word op natural known, failed]
  | extraModes op natural known valid extra =>
      obtain ⟨modes, _, read⟩ := read_modes_of_valid word op valid
      obtain ⟨rest, above⟩ := Nat.exists_eq_succ_of_ne_zero extra
      rw [of_word_known word op natural known, read, above]
  | instruction op modes length encoded =>
      have small := op.code_lt
      have number : word.toNat = op.code + 100 * modesNumber modes := by
        rw [encoded]
        rfl
      have read : readModes op.arity (word.toNat / 100) = .ok (modes, 0) :=
        (read_modes_ok _ _ _ _).mpr ⟨length, by omega⟩
      rw [of_word_known word op (by omega) (by omega), read]

/-- Of the digits that are no modes, one is the lowest. -/
theorem first_invalid (word : Int) (op : Op)
    (invalid : ¬ ∀ index < op.arity, modeDigit word index ≤ 2) :
    ∃ index < op.arity, 2 < modeDigit word index ∧
      ∀ earlier < index, modeDigit word earlier ≤ 2 := by
  have found : ∃ index, index < op.arity ∧ 2 < modeDigit word index := by
    simpa using invalid
  obtain ⟨inside, here⟩ := Nat.find_spec found
  refine ⟨Nat.find found, inside, here, ?_⟩
  intro earlier first
  have valid := Nat.find_min found first
  omega

/-- Every word is read by one of the rules. -/
theorem of_word_reads (word : Int) : Reads word (ofWord word) := by
  -- Each rule gives the outcome that it describes, so it is enough to find one that applies.
  have by_rule (result : Except DecodeError Instruction) (reads : Reads word result) :
      Reads word (ofWord word) := by
    rw [reads_of_word word result reads]
    exact reads
  by_cases below : word < 0
  · exact by_rule _ (.negative below)
  have natural := Int.not_lt.mp below
  by_cases unknown : ∀ op : Op, (op.code : Int) ≠ word % 100
  · exact by_rule _ (.unknownOpcode natural unknown)
  obtain ⟨op, known⟩ := not_forall_not.mp unknown
  by_cases valid : ∀ index < op.arity, modeDigit word index ≤ 2
  · by_cases extra : beyondModes word op.arity = 0
    · obtain ⟨modes, length, read⟩ := read_modes_of_valid word op valid
      rw [extra] at read
      have value := ((read_modes_ok _ _ modes 0).mp read).2
      have encoded : word = encode op modes := by
        rw [encode]
        omega
      exact by_rule _ (.instruction op modes length encoded)
    · exact by_rule _ (.extraModes op natural known valid extra)
  · obtain ⟨index, inside, invalid, before⟩ := first_invalid word op valid
    exact by_rule _ (.invalidMode op index natural known inside invalid before)

theorem of_word_eq_iff (word : Int) (result : Except DecodeError Instruction) :
    ofWord word = result ↔ Reads word result := by
  constructor
  · intro decoded
    rw [← decoded]
    exact of_word_reads word
  · exact reads_of_word word result

theorem of_word_ok_iff (word : Int) (instruction : Instruction) :
    ofWord word = .ok instruction ↔
      instruction.word = word ∧ instruction.modes.length = instruction.op.arity ∧
        word = encode instruction.op instruction.modes := by
  constructor
  · intro decoded
    cases (of_word_eq_iff word _).mp decoded with
    | instruction op modes length encoded => exact ⟨rfl, length, encoded⟩
  · obtain ⟨op, modes, own⟩ := instruction
    rintro ⟨rfl, length, encoded⟩
    exact reads_of_word own _ (.instruction op modes length encoded)

section Refused

variable (word : Int) (op : Op) (natural : 0 ≤ word) (known : (op.code : Int) = word % 100)

include natural known

theorem of_word_invalid_iff (digit : Nat) :
    ofWord word = .error (.invalidMode word digit) ↔
      ∃ index < op.arity, modeDigit word index = digit ∧ 2 < digit ∧
        ∀ earlier < index, modeDigit word earlier ≤ 2 := by
  constructor
  · intro refused
    cases (of_word_eq_iff word _).mp refused with
    | invalidMode other index _ otherKnown inside invalid before =>
        have same : other = op := Op.code_injective _ _ (by omega)
        exact ⟨index, same ▸ inside, rfl, invalid, before⟩
  · rintro ⟨index, inside, rfl, invalid, before⟩
    exact reads_of_word word _ (.invalidMode op index natural known inside invalid before)

theorem of_word_extra_iff (valid : ∀ index < op.arity, modeDigit word index ≤ 2)
    (error : DecodeError) :
    ofWord word = .error error ↔
      beyondModes word op.arity ≠ 0 ∧
        error = .extraModes word op.arity (beyondModes word op.arity) := by
  constructor
  · intro refused
    cases (of_word_eq_iff word _).mp refused with
    | negative below => omega
    | unknownOpcode _ unknown => exact absurd known (unknown op)
    | invalidMode other index _ otherKnown inside invalid _ =>
        have same : other = op := Op.code_injective _ _ (by omega)
        exact absurd (valid index (same ▸ inside)) (by omega)
    | extraModes other _ otherKnown _ extra =>
        have same : other = op := Op.code_injective _ _ (by omega)
        subst same
        exact ⟨extra, rfl⟩
  · rintro ⟨extra, rfl⟩
    exact reads_of_word word _ (.extraModes op natural known valid extra)

end Refused

/-! ## Reports -/

theorem encode_lt (op : Op) (modes : List Mode) (length : modes.length = op.arity) :
    encode op modes < 100000 := by
  have code := op.code_lt
  have number := modes_number_lt modes
  have few : 10 ^ modes.length ≤ 10 ^ 3 :=
    Nat.pow_le_pow_right (by decide) (by rw [length]; cases op <;> decide)
  rw [encode]
  omega

/-- All numbers that a report shows can be written if the word can. -/
theorem of_word_error_numbers (word : Int) (error : DecodeError)
    (refused : ofWord word = .error error) :
    (∀ number ∈ error.numbers, Text.Writable number) ↔ Text.Writable word := by
  cases (of_word_eq_iff word _).mp refused with
  | negative => simp [DecodeError.numbers]
  | unknownOpcode => simp [DecodeError.numbers]
  | invalidMode => simp [DecodeError.numbers]
  | extraModes op natural =>
      have less : ((beyondModes word op.arity : Nat) : Int).natAbs ≤ word.natAbs := by
        have quotient : beyondModes word op.arity ≤ word.toNat := Nat.div_le_self _ _
        omega
      simp only [DecodeError.numbers, List.forall_mem_cons, List.not_mem_nil, false_implies,
        implies_true, and_true]
      exact ⟨fun both => both.1, fun writable => ⟨writable, Text.Writable.of_le less writable⟩⟩

theorem decode_ok_iff (word : Int) (instruction : Instruction) :
    decode word = .ok instruction ↔
      instruction.word = word ∧ instruction.modes.length = instruction.op.arity ∧
        word = encode instruction.op instruction.modes := by
  rw [← of_word_ok_iff, decode]
  cases ofWord word with
  | ok decoded =>
      constructor
      · rintro ⟨⟩
        rfl
      · rintro ⟨⟩
        rfl
  | error error => exact iff_of_false nofun nofun

theorem writable_of_decode (word : Int) (instruction : Instruction)
    (decoded : decode word = .ok instruction) : Text.Writable word := by
  obtain ⟨_, length, encoded⟩ := (decode_ok_iff word instruction).mp decoded
  have small := encode_lt instruction.op instruction.modes length
  exact Text.writable_of_short (by omega)

/-- A word that can be written is reported for what is wrong with it. -/
theorem decode_of_writable (word : Int) (writable : Text.Writable word) :
    decode word = (ofWord word).mapError fun error => .fault (.undecodable error) := by
  rw [decode]
  cases read : ofWord word with
  | ok instruction => rfl
  | error error =>
      have legible := (of_word_error_numbers word error read).mpr writable
      exact congrArg Except.error (if_pos legible)

theorem decode_error_iff (word : Int) (writable : Text.Writable word) (error : Error) :
    decode word = .error error ↔
      ∃ cause, ofWord word = .error cause ∧ error = .fault (.undecodable cause) := by
  rw [decode_of_writable word writable]
  cases ofWord word with
  | ok instruction => exact iff_of_false nofun nofun
  | error cause =>
      constructor
      · rintro ⟨⟩
        exact ⟨cause, rfl, rfl⟩
      · rintro ⟨_, ⟨⟩, rfl⟩
        rfl

theorem decode_of_unwritable (word : Int) (unwritable : ¬ Text.Writable word) :
    decode word = .error .unwritable := by
  cases read : ofWord word with
  | ok instruction =>
      have decoded : decode word = .ok instruction := by rw [decode, read]; rfl
      exact absurd (writable_of_decode word instruction decoded) unwritable
  | error error =>
      have illegible := mt (of_word_error_numbers word error read).mp unwritable
      rw [decode, read]
      exact congrArg Except.error (if_neg illegible)

/-- The words that are read as instructions are exactly the encodings of an operation with as many
modes as it has parameters, and reading and encoding are inverse to each other. Of every other word
that can be written, the sign is reported first, then the opcode, then the lowest digit of its
parameters that is no mode, and then the digits beyond these, which are not all zero. A word that
cannot be written is refused with that report. -/
theorem decode_inverts_encode :
    (∀ word instruction, decode word = .ok instruction ↔
      instruction.word = word ∧ instruction.modes.length = instruction.op.arity ∧
        word = encode instruction.op instruction.modes) ∧
    (∀ op modes, modes.length = op.arity →
      decode (encode op modes) = .ok ⟨op, modes, encode op modes⟩) ∧
    (∀ word, ¬ Text.Writable word → decode word = .error .unwritable) ∧
    ∀ word, Text.Writable word →
      (decode word = .error (.fault (.undecodable (.negative word))) ↔ word < 0) ∧
      (0 ≤ word → (decode word = .error (.fault (.undecodable (.unknownOpcode word))) ↔
        ∀ op : Op, (op.code : Int) ≠ word % 100)) ∧
      ∀ op : Op, 0 ≤ word → (op.code : Int) = word % 100 →
        (∀ digit, decode word = .error (.fault (.undecodable (.invalidMode word digit))) ↔
          ∃ index < op.arity, modeDigit word index = digit ∧ 2 < digit ∧
            ∀ earlier < index, modeDigit word earlier ≤ 2) ∧
        ((∃ digit, decode word = .error (.fault (.undecodable (.invalidMode word digit)))) ↔
          ∃ index < op.arity, 2 < modeDigit word index) ∧
        ((∀ index < op.arity, modeDigit word index ≤ 2) →
          ∀ error, decode word = .error error ↔
            beyondModes word op.arity ≠ 0 ∧
              error = .fault (.undecodable
                (.extraModes word op.arity (beyondModes word op.arity)))) := by
  refine ⟨decode_ok_iff, ?_, decode_of_unwritable, ?_⟩
  · intro op modes length
    exact (decode_ok_iff _ _).mpr ⟨rfl, length, rfl⟩
  intro word writable
  have reported (cause : DecodeError) :
      decode word = .error (.fault (.undecodable cause)) ↔ ofWord word = .error cause := by
    rw [decode_error_iff word writable]
    constructor
    · rintro ⟨other, refused, same⟩
      rw [refused, Fault.undecodable.inj (Error.fault.inj same)]
    · intro refused
      exact ⟨cause, refused, rfl⟩
  refine ⟨?_, ?_, ?_⟩
  · rw [reported]
    constructor
    · intro refused
      cases (of_word_eq_iff word _).mp refused with
      | negative below => exact below
    · intro below
      exact reads_of_word word _ (.negative below)
  · intro natural
    rw [reported]
    constructor
    · intro refused
      cases (of_word_eq_iff word _).mp refused with
      | unknownOpcode _ unknown => exact unknown
    · intro unknown
      exact reads_of_word word _ (.unknownOpcode natural unknown)
  · intro op natural known
    have invalidIff := of_word_invalid_iff word op natural known
    simp only [reported]
    refine ⟨invalidIff, ?_, ?_⟩
    · constructor
      · rintro ⟨digit, refused⟩
        obtain ⟨index, inside, here, invalid, _⟩ := (invalidIff digit).mp refused
        exact ⟨index, inside, by omega⟩
      · rintro ⟨index, inside, invalid⟩
        obtain ⟨first, firstInside, firstInvalid, before⟩ := first_invalid word op (by
          intro valid
          exact absurd (valid index inside) (by omega))
        exact ⟨_, (invalidIff _).mpr ⟨first, firstInside, rfl, firstInvalid, before⟩⟩
    · intro valid error
      rw [decode_error_iff word writable]
      simp only [of_word_extra_iff word op natural known valid]
      constructor
      · rintro ⟨cause, ⟨extra, rfl⟩, rfl⟩
        exact ⟨extra, rfl⟩
      · rintro ⟨extra, rfl⟩
        exact ⟨_, ⟨extra, rfl⟩, rfl⟩

/-- A negative word with one digit more than are written is not reported as negative. -/
theorem long_negative_word_is_unwritable :
    (-(10 ^ 4300) : Int) < 0 ∧ decode (-(10 ^ 4300)) = .error .unwritable ∧
      decode (-(10 ^ 4300)) ≠ .error (.fault (.undecodable (.negative (-(10 ^ 4300))))) := by
  decide +kernel

end Instruction

end Intcode
