import Mathlib.Data.List.Forall2
import Mathlib.Data.List.Induction
import Mathlib.Data.Nat.Digits.Defs
import Intcode.Program.Text
import Intcode.Proofs.TextPieces

/-!
# The grammar of program text

Program text is trimmed, divided at its commas, and each piece is trimmed. A piece is a word if it
is an optional sign and one or more ASCII digits, not too many of them, and its value fits. The text
stands for the words of its pieces, and the first piece that is no word decides the error: too many
digits if digits they are, and a malformed piece in every other case.
-/

set_option autoImplicit false

namespace Intcode

/-! ## Numerals -/

namespace Text.Numeral

/-- A sign, or none, in front of digits. -/
inductive Signed : (negative : Bool) → (digits token : List Char) → Prop
  | bare (digits : List Char) : Signed false digits digits
  | plus (digits : List Char) : Signed false digits ('+' :: digits)
  | minus (digits : List Char) : Signed true digits ('-' :: digits)

/-- The token is an optional sign followed by one or more ASCII digits. -/
structure Spells (token : List Char) (numeral : Numeral) : Prop where
  signed : Signed numeral.negative numeral.digits token
  filled : numeral.digits ≠ []
  ascii : ∀ digit ∈ numeral.digits, '0' ≤ digit ∧ digit ≤ '9'

theorem is_digit_iff (symbol : Char) : symbol.isDigit = true ↔ '0' ≤ symbol ∧ symbol ≤ '9' := by
  simp [Char.isDigit, Char.le_def]

theorem split_sign_signed (token : List Char) :
    Signed (splitSign token).1 (splitSign token).2 token := by
  unfold splitSign
  split
  case h_1 rest => exact .minus rest
  case h_2 rest => exact .plus rest
  case h_3 => exact .bare token

/-- Digits do not start with a sign, so a sign in front of them is the first symbol. -/
theorem Signed.split_sign {negative : Bool} {digits token : List Char}
    (signed : Signed negative digits token) (ascii : ∀ digit ∈ digits, '0' ≤ digit ∧ digit ≤ '9') :
    splitSign token = (negative, digits) := by
  cases signed with
  | plus => rfl
  | minus => rfl
  | bare =>
      unfold splitSign
      split
      case h_1 rest => exact absurd (ascii '-' List.mem_cons_self) (by decide)
      case h_2 rest => exact absurd (ascii '+' List.mem_cons_self) (by decide)
      case h_3 => rfl

theorem plain_iff (token : List Char) (numeral : Numeral) :
    plain? token = some numeral ↔ Spells token numeral := by
  obtain ⟨negative, digits⟩ := numeral
  simp only [plain?]
  constructor
  · intro read
    split at read
    case isTrue digitsOnly =>
      cases read
      rw [Bool.and_eq_true, List.all_eq_true] at digitsOnly
      refine ⟨split_sign_signed token, by simpa using digitsOnly.1, ?_⟩
      intro digit member
      exact (is_digit_iff digit).mp (digitsOnly.2 digit member)
    case isFalse => exact absurd read (by simp)
  · intro spells
    have digitsOnly : digits.all Char.isDigit = true := by
      rw [List.all_eq_true]
      intro digit member
      exact (is_digit_iff digit).mpr (spells.ascii digit member)
    have filled : digits ≠ [] := spells.filled
    rw [spells.signed.split_sign spells.ascii]
    simp [digitsOnly, filled]

/-- The value in base ten of digits, the most significant first. -/
def magnitude (digits : List Char) : Nat :=
  Nat.ofDigits 10 (digits.reverse.map fun digit => digit.toNat - '0'.toNat)

theorem of_digit_chars_eq (digits : List Char) :
    Nat.ofDigitChars 10 digits 0 = magnitude digits := by
  induction digits using List.reverseRecOn with
  | nil => rfl
  | append_singleton digits digit ih =>
      rw [Nat.ofDigitChars_append, Nat.ofDigitChars_cons, Nat.ofDigitChars_nil, ih]
      simp only [magnitude, List.reverse_append, List.reverse_singleton, List.singleton_append,
        List.map_cons, Nat.ofDigits_cons]
      exact Nat.add_comm _ _

end Text.Numeral

/-! ## Tokens -/

namespace Program

/-- The pieces between the commas of a text that is trimmed first, each of them trimmed too. -/
def Tokenizes (text : List Char) (parts : List (List Char)) : Prop :=
  ∃ core pieces, Text.Trimmed Text.isBlank text core ∧ Text.Divided ',' core pieces ∧
    List.Forall₂ (Text.Trimmed Text.isBlank) pieces parts

theorem all_trimmed_iff (pieces parts : List (List Char)) :
    List.Forall₂ (Text.Trimmed Text.isBlank) pieces parts ↔ parts = pieces.map Text.trim := by
  have same : Text.Trimmed Text.isBlank = fun piece part => Text.trim piece = part := by
    funext piece part
    exact propext ((Text.trimmed_iff _ piece part).trans eq_comm)
  rw [same, ← List.forall₂_map_left_iff, List.forall₂_eq_eq_eq]
  exact eq_comm

theorem tokenizes_iff (text : List Char) (parts : List (List Char)) :
    Tokenizes text parts ↔ parts = tokens text := by
  unfold Tokenizes
  simp only [Text.trimmed_iff, Text.divided_iff, all_trimmed_iff, exists_and_left, exists_eq_left]
  rfl

/-! ## Words -/

/-- The token is a word of program text, and this is its value. -/
def Denotes (token : List Char) (word : Int) : Prop :=
  ∃ numeral, Text.Numeral.Spells token numeral ∧ numeral.digits.length ≤ 4300 ∧
    word = (if numeral.negative then -1 else 1) * (Text.Numeral.magnitude numeral.digits : Int) ∧
    -2 ^ 63 ≤ word ∧ word ≤ 2 ^ 63 - 1

/-- What is wrong with a token that is no word. -/
inductive Rejects (index : Nat) (token : List Char) : Error → Prop
  | tooLong (numeral : Text.Numeral) (spells : Text.Numeral.Spells token numeral)
      (long : 4300 < numeral.digits.length) :
      Rejects index token (.tooManyDigits numeral.digits.length)
  | malformed (wordless : ∀ word, ¬ Denotes token word)
      (short : ∀ numeral, Text.Numeral.Spells token numeral → numeral.digits.length ≤ 4300) :
      Rejects index token (.malformedWord (String.ofList token) index)

theorem value_eq (numeral : Text.Numeral) :
    numeral.value =
      (if numeral.negative then -1 else 1) * (Text.Numeral.magnitude numeral.digits : Int) := by
  rw [Text.Numeral.value, Text.Numeral.of_digit_chars_eq]
  cases numeral.negative with
  | true => simp
  | false => simp

theorem fits_iff (word : Int) : Word.Fits word ↔ -2 ^ 63 ≤ word ∧ word ≤ 2 ^ 63 - 1 := by
  norm_num [Word.Fits, Word.least, Word.greatest]

/-- A token is spelled in one way, so what is said of some numeral is said of the one it spells. -/
theorem denotes_iff (token : List Char) (numeral : Text.Numeral)
    (spells : Text.Numeral.Spells token numeral) (word : Int) :
    Denotes token word ↔
      numeral.digits.length ≤ 4300 ∧ word = numeral.value ∧ Word.Fits word := by
  constructor
  · rintro ⟨other, otherSpells, short, rfl, inside⟩
    have same : numeral = other := by
      rw [← Text.Numeral.plain_iff] at spells otherSpells
      exact Option.some.inj (spells.symm.trans otherSpells)
    subst same
    exact ⟨short, (value_eq numeral).symm, (fits_iff _).mpr inside⟩
  · rintro ⟨short, same, fits⟩
    exact ⟨numeral, spells, short, same.trans (value_eq numeral), (fits_iff word).mp fits⟩

theorem read_word_ok_iff (index : Nat) (token : List Char) (word : Int) :
    readWord index token = .ok word ↔ Denotes token word := by
  unfold readWord
  cases read : Text.Numeral.plain? token with
  | none =>
      refine ⟨nofun, ?_⟩
      rintro ⟨numeral, spells, _⟩
      rw [← Text.Numeral.plain_iff, read] at spells
      cases spells
  | some numeral =>
      rw [denotes_iff token numeral ((Text.Numeral.plain_iff token numeral).mp read)]
      by_cases long : Text.digitLimit < numeral.digits.length
      · simp only [if_pos long]
        refine ⟨nofun, ?_⟩
        rintro ⟨short, _⟩
        exact absurd short (Nat.not_le.mpr long)
      · simp only [if_neg long]
        by_cases fits : Word.Fits numeral.value
        · rw [if_pos fits, Except.ok.injEq]
          constructor
          · rintro rfl
            exact ⟨Nat.not_lt.mp long, rfl, fits⟩
          · rintro ⟨_, same, _⟩
            exact same.symm
        · rw [if_neg fits]
          refine ⟨nofun, ?_⟩
          rintro ⟨_, rfl, fitsAfterAll⟩
          exact absurd fitsAfterAll fits

theorem read_word_rejects (index : Nat) (token : List Char) (error : Error)
    (failed : readWord index token = .error error) : Rejects index token error := by
  have wordless : ∀ word, ¬ Denotes token word := by
    intro word denotes
    rw [← read_word_ok_iff index, failed] at denotes
    cases denotes
  unfold readWord at failed
  split at failed
  case h_1 unread =>
    cases failed
    refine .malformed wordless ?_
    intro numeral spells
    rw [← Text.Numeral.plain_iff, unread] at spells
    cases spells
  case h_2 numeral read =>
    have spells := (Text.Numeral.plain_iff token numeral).mp read
    split at failed
    case isTrue long =>
      cases failed
      exact .tooLong numeral spells long
    case isFalse short =>
      split at failed
      case isTrue => cases failed
      case isFalse =>
        cases failed
        refine .malformed wordless ?_
        intro other otherSpells
        rw [← Text.Numeral.plain_iff, read] at otherSpells
        cases otherSpells
        exact Nat.not_lt.mp short

theorem read_word_error_iff (index : Nat) (token : List Char) (error : Error) :
    readWord index token = .error error ↔ Rejects index token error := by
  refine ⟨read_word_rejects index token error, ?_⟩
  intro rejects
  cases rejects with
  | tooLong numeral spells long =>
      have tooMany : Text.digitLimit < numeral.digits.length := long
      rw [readWord, (Text.Numeral.plain_iff token numeral).mpr spells]
      exact if_pos tooMany
  | malformed wordless short =>
      cases read : readWord index token with
      | ok word => exact absurd ((read_word_ok_iff index token word).mp read) (wordless word)
      | error other =>
          cases read_word_rejects index token other read with
          | tooLong numeral spells long => exact absurd (short numeral spells) (Nat.not_le.mpr long)
          | malformed => rfl

/-! ## Texts -/

/-- The words of tokens that are counted from an index on. -/
def readAll (first : Nat) (parts : List (List Char)) : Except Error (List Int) :=
  (parts.zipIdx first).mapM fun (token, index) => readWord index token

theorem read_all_cons (first : Nat) (token : List Char) (parts : List (List Char)) :
    readAll first (token :: parts) =
      match readWord first token with
      | .error error => .error error
      | .ok word => (readAll (first + 1) parts).map (word :: ·) := by
  unfold readAll
  rw [List.zipIdx_cons, List.mapM_cons]
  dsimp only
  cases readWord first token with
  | error error => rfl
  | ok word =>
      cases (parts.zipIdx (first + 1)).mapM fun (token, index) => readWord index token with
      | error error => rfl
      | ok words => rfl

theorem read_all_ok_iff (first : Nat) (parts : List (List Char)) (words : List Int) :
    readAll first parts = .ok words ↔ List.Forall₂ Denotes parts words := by
  induction parts generalizing first words with
  | nil =>
      rw [List.forall₂_nil_left_iff]
      constructor
      · intro read
        exact (Except.ok.inj read).symm
      · rintro rfl
        rfl
  | cons token parts ih =>
      rw [read_all_cons, List.forall₂_cons_left_iff]
      cases read : readWord first token with
      | error error =>
          refine ⟨nofun, ?_⟩
          rintro ⟨word, others, denotes, _⟩
          rw [← read_word_ok_iff first, read] at denotes
          cases denotes
      | ok word =>
          have denotes := (read_word_ok_iff first token word).mp read
          constructor
          · intro done
            cases rest : readAll (first + 1) parts with
            | error error =>
                rw [rest] at done
                cases done
            | ok others =>
                rw [rest] at done
                cases done
                exact ⟨word, others, denotes, (ih (first + 1) others).mp rest, rfl⟩
          · rintro ⟨other, others, otherDenotes, rest, rfl⟩
            rw [← read_word_ok_iff first, read] at otherDenotes
            cases otherDenotes
            rw [(ih (first + 1) others).mpr rest]
            rfl

/-- The error of the first token that is no word, when tokens are counted from an index on. -/
def FirstRejected (first : Nat) (parts : List (List Char)) (error : Error) : Prop :=
  ∃ (place : Nat) (token : List Char), parts[place]? = some token ∧
    (∀ earlier ∈ parts.take place, ∃ word, Denotes earlier word) ∧
    Rejects (first + place) token error

/-- Behind a token that is a word, the first one that is none is sought among the others. -/
theorem first_rejected_cons (first : Nat) (token : List Char) (parts : List (List Char))
    (error : Error) (word : Int) (denotes : Denotes token word) :
    FirstRejected first (token :: parts) error ↔ FirstRejected (first + 1) parts error := by
  constructor
  · rintro ⟨place, other, found, earlier, rejects⟩
    cases place with
    | zero =>
        cases found
        rw [← read_word_error_iff, (read_word_ok_iff _ token word).mpr denotes] at rejects
        cases rejects
    | succ place =>
        rw [List.take_succ_cons, List.forall_mem_cons] at earlier
        rw [← Nat.add_assoc, Nat.add_right_comm] at rejects
        exact ⟨place, other, found, earlier.2, rejects⟩
  · rintro ⟨place, other, found, earlier, rejects⟩
    refine ⟨place + 1, other, found, ?_, ?_⟩
    · rw [List.take_succ_cons, List.forall_mem_cons]
      exact ⟨⟨word, denotes⟩, earlier⟩
    · rw [← Nat.add_assoc, Nat.add_right_comm]
      exact rejects

theorem read_all_error_iff (first : Nat) (parts : List (List Char)) (error : Error) :
    readAll first parts = .error error ↔ FirstRejected first parts error := by
  induction parts generalizing first with
  | nil =>
      refine ⟨nofun, ?_⟩
      rintro ⟨place, token, found, _⟩
      cases found
  | cons token parts ih =>
      rw [read_all_cons]
      cases read : readWord first token with
      | ok word =>
          have denotes := (read_word_ok_iff first token word).mp read
          rw [first_rejected_cons first token parts error word denotes, ← ih]
          cases readAll (first + 1) parts <;> simp [Except.map]
      | error problem =>
          have rejects := read_word_rejects first token problem read
          constructor
          · intro failed
            cases failed
            exact ⟨0, token, rfl, by simp, rejects⟩
          · rintro ⟨place, other, found, earlier, otherRejects⟩
            cases place with
            | zero =>
                cases found
                rw [Nat.add_zero, ← read_word_error_iff, read, Except.error.injEq] at otherRejects
                rw [otherRejects]
            | succ place =>
                obtain ⟨word, denotes⟩ := earlier token (by simp)
                rw [← read_word_ok_iff first, read] at denotes
                cases denotes

/-- Every text has one division into tokens. It is parsed to a list of words if and only if its
tokens denote these words, one for one. In every other case the first token that denotes none
decides the error. -/
theorem parse_follows_the_grammar (text : String) :
    ∃ parts, (∀ others, Tokenizes text.toList others ↔ others = parts) ∧
      (∀ words, parse text = .ok words ↔ List.Forall₂ Denotes parts words) ∧
      ∀ error, parse text = .error error ↔ FirstRejected 0 parts error := by
  refine ⟨tokens text.toList, tokenizes_iff text.toList, ?_, ?_⟩
  · intro words
    exact read_all_ok_iff 0 (tokens text.toList) words
  · intro error
    exact read_all_error_iff 0 (tokens text.toList) error

example : parse " +07,\n-3 " = .ok [7, -3] := by decide +kernel

example : parse "1, ,9223372036854775808" = .error (.malformedWord "" 1) := by decide +kernel

end Program

end Intcode
