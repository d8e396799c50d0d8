import Intcode.Proofs.ListingText
import Intcode.Proofs.ProgramText

/-!
# A listing can be loaded again

Between its address and its text, each row of a listing shows the words it covers as program text.
The addresses and these columns hold no blank, so that a column is the second of the fields that
blanks divide a row into, however wide it is. The columns of all rows, joined by commas, are the
program text of all the words, and that is parsed to the words again.
-/

set_option autoImplicit false

namespace Intcode

/-! ## Symbols of joined and padded texts -/

namespace Text

theorem joined_symbols (separator : String) (texts : List String) :
    ∀ symbol ∈ (joined separator texts).toList,
      symbol ∈ separator.toList ∨ ∃ text ∈ texts, symbol ∈ text.toList := by
  intro symbol member
  induction texts with
  | nil => simp [joined] at member
  | cons first texts ih =>
      cases texts with
      | nil =>
          refine .inr ⟨first, List.mem_singleton_self first, ?_⟩
          simpa [joined] using member
      | cons second texts =>
          rw [joined_cons_cons, String.toList_append, String.toList_append, List.mem_append,
            List.mem_append] at member
          rcases member with (here | between) | later
          · exact .inr ⟨first, List.mem_cons_self, here⟩
          · exact .inl between
          · rcases ih later with between | ⟨text, among, inside⟩
            · exact .inl between
            · exact .inr ⟨text, List.mem_cons_of_mem first among, inside⟩

/-- Groups of texts, each joined, are joined to what all the texts are joined to. -/
theorem joined_flatten (separator : String) (groups : List (List String))
    (filled : ∀ group ∈ groups, group ≠ []) :
    joined separator (groups.map (joined separator)) = joined separator groups.flatten := by
  induction groups with
  | nil => rfl
  | cons group groups ih =>
      rw [List.forall_mem_cons] at filled
      cases groups with
      | nil => simp [joined]
      | cons next groups =>
          have others : (next :: groups).flatten ≠ [] := by
            intro empty
            rw [List.flatten_eq_nil_iff] at empty
            exact filled.2 next List.mem_cons_self (empty next List.mem_cons_self)
          rw [List.map_cons, List.map_cons, joined_cons_cons, ← List.map_cons, ih filled.2,
            List.flatten_cons]
          exact (String.intercalate_append_of_ne_nil filled.1 others).symm

/-- Texts without the separator are the parts of the text that they are joined to. -/
theorem divided_joined (separator : Char) (glue : String) (single : glue.toList = [separator])
    (texts : List String) (filled : texts ≠ [])
    (plain : ∀ text ∈ texts, separator ∉ text.toList) :
    Divided separator (joined glue texts).toList (texts.map String.toList) where
  whole := by simp [joined, String.toList_intercalate, single]
  plain := by
    intro part among
    obtain ⟨text, member, rfl⟩ := List.mem_map.mp among
    exact plain text member
  filled := by simpa using filled

theorem zero_padded_symbols (width : Nat) (value : Int) :
    ∀ symbol ∈ (zeroPadded width value).toList, symbol = '-' ∨ symbol.isDigit = true := by
  intro symbol member
  simp only [zeroPadded, repeated, String.toList_append, String.toList_ofList, List.mem_append,
    List.mem_replicate] at member
  rcases member with (sign | ⟨_, rfl⟩) | digit
  · split at sign
    · exact .inl (List.mem_singleton.mp sign)
    · cases sign
  · exact .inr rfl
  · exact .inr (repr_symbols _ symbol digit)

/-- The symbols of program text without blanks. -/
def IsWordSymbol (symbol : Char) : Prop := symbol = ',' ∨ symbol = '-' ∨ symbol.isDigit = true

theorem word_symbol_not_blank (symbol : Char) (shown : IsWordSymbol symbol) :
    isBlank symbol = false := by
  rcases shown with rfl | rfl | digit
  · decide
  · decide
  · have apart : ∀ range ∈ blankRanges, range.2 < '0'.toNat ∨ '9'.toNat < range.1 := by decide
    rw [Char.isDigit_iff_toNat] at digit
    rw [isBlank, inRanges, List.any_eq_false]
    intro range member
    have outside := apart range member
    rw [Bool.and_eq_true, decide_eq_true_iff, decide_eq_true_iff]
    omega

theorem joined_decimals_symbols (words : List Int) :
    ∀ symbol ∈ (joined "," (words.map decimal)).toList, IsWordSymbol symbol := by
  intro symbol member
  rcases joined_symbols "," _ symbol member with comma | ⟨text, among, inside⟩
  · exact .inl (List.mem_singleton.mp comma)
  · obtain ⟨word, _, rfl⟩ := List.mem_map.mp among
    exact .inr (decimal_symbols word symbol inside)

theorem repr_filled (value : Nat) : value.repr.toList ≠ [] := by
  rw [← List.length_pos_iff, String.length_toList]
  exact Nat.length_repr_pos

theorem decimal_filled (value : Int) : (decimal value).toList ≠ [] := by
  by_cases negative : value < 0
  · rw [decimal_negative value negative]
    exact List.cons_ne_nil _ _
  · rw [decimal_natural value (Int.not_lt.mp negative)]
    exact repr_filled value.natAbs

theorem joined_decimals_filled (words : List Int) (filled : words ≠ []) :
    (joined "," (words.map decimal)).toList ≠ [] := by
  obtain ⟨first, others, rfl⟩ := List.exists_cons_of_ne_nil filled
  cases others with
  | nil => simpa [joined] using decimal_filled first
  | cons second others => simp [joined_cons_cons]

end Text

/-! ## Words as program text -/

namespace Program

/-- The decimal text of an integer spells its sign and its digits. -/
theorem spells_decimal (value : Int) :
    Text.Numeral.Spells (Text.decimal value).toList
      ⟨decide (value < 0), value.natAbs.repr.toList⟩ where
  signed := by
    by_cases negative : value < 0
    · rw [Text.decimal_negative value negative, decide_eq_true negative]
      exact .minus _
    · rw [Text.decimal_natural value (Int.not_lt.mp negative), decide_eq_false negative]
      exact .bare _
  filled := Text.repr_filled value.natAbs
  ascii := by
    intro digit member
    exact (Text.Numeral.is_digit_iff digit).mp (Text.repr_symbols _ digit member)

theorem value_of_decimal (value : Int) :
    Text.Numeral.value ⟨decide (value < 0), value.natAbs.repr.toList⟩ = value := by
  simp only [Text.Numeral.value, Nat.toList_repr, Nat.ofDigitChars_ten_toDigits,
    decide_eq_true_eq]
  split <;> omega

theorem denotes_decimal (word : Int) (fits : Word.Fits word) :
    Denotes (Text.decimal word).toList word := by
  have inside := (fits_iff word).mp fits
  have small : word.natAbs < 10 ^ 19 := by omega
  have short : word.natAbs.repr.toList.length ≤ 19 := by
    rw [String.length_toList]
    exact (Nat.length_repr_le_iff (by decide)).mpr small
  apply (denotes_iff _ _ (spells_decimal word) word).mpr
  exact ⟨by dsimp only; omega, (value_of_decimal word).symm, fits⟩

/-- Without blanks there is nothing to trim, so the tokens are the decimal texts. -/
theorem tokenizes_decimals (words : List Int) (filled : words ≠ []) :
    Tokenizes (Text.joined "," (words.map Text.decimal)).toList
      (words.map fun word => (Text.decimal word).toList) := by
  have text : Text.Trimmed Text.isBlank (Text.joined "," (words.map Text.decimal)).toList
      (Text.joined "," (words.map Text.decimal)).toList := by
    apply Text.trimmed_self
    intro symbol member
    exact Text.word_symbol_not_blank symbol (Text.joined_decimals_symbols words symbol member)
  have divided : Text.Divided ',' (Text.joined "," (words.map Text.decimal)).toList
      (words.map fun word => (Text.decimal word).toList) := by
    rw [← Function.comp_def, ← List.map_map]
    apply Text.divided_joined ',' "," rfl _ (by simpa using filled)
    intro text among comma
    obtain ⟨word, _, rfl⟩ := List.mem_map.mp among
    exact absurd (Text.decimal_symbols word ',' comma) (by decide)
  refine ⟨_, _, text, divided, ?_⟩
  rw [List.forall₂_map_left_iff, List.forall₂_map_right_iff, List.forall₂_same]
  intro word _
  apply Text.trimmed_self
  intro symbol member
  exact Text.word_symbol_not_blank symbol (.inr (Text.decimal_symbols word symbol member))

theorem parse_decimals (words : List Int) (filled : words ≠ [])
    (fits : ∀ word ∈ words, Word.Fits word) :
    parse (Text.joined "," (words.map Text.decimal)) = .ok words := by
  apply (read_all_ok_iff 0 _ words).mpr
  rw [← (tokenizes_iff _ _).mp (tokenizes_decimals words filled), List.forall₂_map_left_iff,
    List.forall₂_same]
  intro word member
  exact denotes_decimal word (fits word member)

end Program

/-! ## Rows and their columns -/

theorem Instruction.text_plain (instruction : Instruction) (operands : List Int) :
    '\n' ∉ (instruction.text operands).toList := by
  have mnemonic : '\n' ∉ instruction.op.mnemonic.toList := by
    cases instruction.op <;> decide
  have heading : '\n' ∉ (Text.padRight 5 instruction.op.mnemonic).toList := by
    cases instruction.op <;> decide
  have shown : '\n' ∉ (Text.joined ", "
      (List.zipWith Mode.operandText instruction.modes operands)).toList := by
    intro member
    rcases Text.joined_symbols _ _ _ member with between | ⟨text, among, inside⟩
    · exact absurd between (by decide)
    · exact Mode.operand_texts_plain '\n' (by decide) _ _ text among inside
  unfold text
  split
  · exact mnemonic
  · rw [String.toList_append, List.mem_append, not_or]
    exact ⟨heading, shown⟩

namespace Listing

theorem Line.text_plain (line : Line) : '\n' ∉ line.text.toList := by
  unfold Line.text
  cases line.content with
  | data word =>
      rw [String.toList_append, List.mem_append, not_or]
      refine ⟨by decide, ?_⟩
      intro member
      exact absurd (Text.decimal_symbols word '\n' member) (by decide)
  | code instruction operands => exact instruction.text_plain operands

/-- The symbols between the blanks behind the first field of a row and the next blank. -/
def secondField (row : List Char) : List Char :=
  ((row.dropWhile (· ≠ ' ')).dropWhile (· = ' ')).takeWhile (· ≠ ' ')

/-- The column of words in every row of a listing. -/
def columns (listing : String) : List String :=
  (Text.pieces '\n' listing.toList).map fun row => String.ofList (secondField row)

theorem second_field_between (first gap field rest : List Char) (firstWhole : ' ' ∉ first)
    (blank : ∀ symbol ∈ gap, symbol = ' ') (fieldWhole : ' ' ∉ field) (filled : field ≠ []) :
    secondField (first ++ (' ' :: gap ++ (field ++ ' ' :: rest))) = field := by
  unfold secondField
  have fieldKept : ∀ symbol ∈ field, decide (symbol ≠ ' ') = true := by
    intro symbol member
    rw [decide_eq_true_iff]
    rintro rfl
    exact fieldWhole member
  have afterFirst : (first ++ (' ' :: gap ++ (field ++ ' ' :: rest))).dropWhile (· ≠ ' ') =
      ' ' :: gap ++ (field ++ ' ' :: rest) := by
    rw [List.dropWhile_append_of_pos]
    · rfl
    · intro symbol member
      rw [decide_eq_true_iff]
      rintro rfl
      exact firstWhole member
  have afterGap : (' ' :: gap ++ (field ++ ' ' :: rest)).dropWhile (· = ' ') =
      field ++ ' ' :: rest := by
    rw [List.dropWhile_append_of_pos (by simpa using blank)]
    apply Text.drop_while_kept
    intro symbol starts
    rw [List.head?_append_of_ne_nil _ filled] at starts
    simpa using fieldKept symbol (List.mem_of_mem_head? starts)
  rw [afterFirst, afterGap, List.takeWhile_append_of_pos fieldKept]
  simp

theorem row_symbols (words : List Int) (line : Line) :
    (row words line).toList =
      (Text.zeroPadded 6 line.address).toList ++ (' ' :: [' '] ++
        ((rawColumn words line).toList ++ ' ' ::
          (List.replicate (32 - (rawColumn words line).length) ' ' ++ line.text.toList))) := by
  have shifted (count : Nat) (rest : List Char) :
      List.replicate count ' ' ++ ' ' :: rest = ' ' :: (List.replicate count ' ' ++ rest) := by
    rw [← List.cons_append, ← List.replicate_succ, List.replicate_succ', List.append_assoc,
      List.singleton_append]
  simp [row, Text.padRight, Text.repeated, shifted]

theorem raw_column_symbols (words : List Int) (line : Line) :
    ∀ symbol ∈ (rawColumn words line).toList, Text.IsWordSymbol symbol :=
  Text.joined_decimals_symbols _

theorem row_plain (words : List Int) (line : Line) : '\n' ∉ (row words line).toList := by
  rw [row_symbols]
  intro member
  simp only [List.mem_append, List.mem_cons, List.mem_replicate, List.not_mem_nil, or_false]
    at member
  rcases member with address | (gap | gap) | raw | blank | pad | text
  · exact absurd (Text.zero_padded_symbols 6 _ '\n' address) (by decide)
  · exact absurd gap (by decide)
  · exact absurd gap (by decide)
  · exact absurd (raw_column_symbols words line '\n' raw) (by unfold Text.IsWordSymbol; decide)
  · exact absurd blank (by decide)
  · exact absurd pad.2 (by decide)
  · exact line.text_plain text

/-- The column of a row is its second field, if it shows a word at all. -/
theorem second_field_row (words : List Int) (line : Line)
    (shown : stretch words line.address (line.address + line.width) ≠ []) :
    secondField (row words line).toList = (rawColumn words line).toList := by
  rw [row_symbols]
  apply second_field_between
  · intro blank
    exact absurd (Text.zero_padded_symbols 6 _ ' ' blank) (by decide)
  · simp
  · intro blank
    exact absurd (raw_column_symbols words line ' ' blank) (by unfold Text.IsWordSymbol; decide)
  · exact Text.joined_decimals_filled _ shown

theorem columns_of_rows (words : List Int) (lines : List Line) (filled : lines ≠ [])
    (shown : ∀ line ∈ lines, stretch words line.address (line.address + line.width) ≠ []) :
    columns (Text.joined "\n" (lines.map (row words))) = lines.map (rawColumn words) := by
  have divided := Text.divided_joined '\n' "\n" rfl (lines.map (row words)) (by simpa using filled)
    (List.forall_mem_map.mpr fun line _ => row_plain words line)
  rw [columns, ← (Text.divided_iff _ _ _).mp divided, List.map_map, List.map_map]
  apply List.map_congr_left
  intro line member
  rw [Function.comp_apply, Function.comp_apply, second_field_row words line (shown line member),
    String.ofList_toList]

section Sweeps

variable {words : List Int} {lines : List Line}

theorem Sweeps.shown (sweeps : Sweeps words 0 lines) :
    ∀ line ∈ lines, stretch words line.address (line.address + line.width) ≠ [] := by
  intro line member
  obtain ⟨word, shows⟩ := sweeps.all_shown line member
  have width := shows.width
  have inside := sweeps.starts_inside line member
  rw [stretch_natural words line.address line.width inside.1 inside.2]
  apply List.ne_nil_of_length_pos
  rw [List.length_take, List.length_drop]
  omega

/-- The columns of all rows are the program text of all words, divided among the rows. -/
theorem Sweeps.joined_columns (sweeps : Sweeps words 0 lines) :
    Text.joined "," (lines.map (rawColumn words)) = Text.joined "," (words.map Text.decimal) := by
  have covers := sweeps.covers (Int.le_refl 0)
  let groups := lines.map fun line =>
    (stretch words line.address (line.address + line.width)).map Text.decimal
  have filled : ∀ group ∈ groups, group ≠ [] := by
    intro group among
    obtain ⟨line, member, rfl⟩ := List.mem_map.mp among
    simpa using sweeps.shown line member
  calc Text.joined "," (lines.map (rawColumn words))
      = Text.joined "," (groups.map (Text.joined ",")) := by
        rw [List.map_map]
        rfl
    _ = Text.joined "," groups.flatten := Text.joined_flatten "," groups filled
    _ = Text.joined "," (words.map Text.decimal) := by
        rw [← List.flatMap_def, ← List.map_flatMap, covers]
        rfl

end Sweeps

/-- The columns of words in a listing, joined by commas, are parsed to the words that were listed,
and so are the decimal texts of the words, joined by commas. -/
theorem listing_loads_back (words : List Int) (filled : words ≠ [])
    (fits : ∀ word ∈ words, Word.Fits word) :
    (∃ listing, render words 0 = .ok listing ∧
      Program.parse (Text.joined "," (columns listing)) = .ok words) ∧
      Program.parse (Text.joined "," (words.map Text.decimal)) = .ok words := by
  have parsed := Program.parse_decimals words filled fits
  refine ⟨?_, parsed⟩
  obtain ⟨lines, disassembled, sweeps⟩ := disassemble_sweeps words 0 (by omega)
    fun word member => (fits word (List.mem_of_mem_drop member)).writable
  have someLine : lines ≠ [] := by
    rintro rfl
    have behind := sweeps.behind
    exact filled (List.length_eq_zero_iff.mp (by omega))
  refine ⟨Text.joined "\n" (lines.map (row words)), ?_, ?_⟩
  · rw [render, disassembled]
    rfl
  · rw [columns_of_rows words lines someLine sweeps.shown, sweeps.joined_columns]
    exact parsed

/-- A sum whose column is wider than its place, a word of data, and an output whose operand is
missing. -/
theorem wide_listing_loads_back :
    let words := [101, 7000000, -9223372036854775808, 4, -7, 204]
    let listing := Text.joined "\n"
      ["000000  101,7000000,-9223372036854775808,4 ADD  #7000000, [-9223372036854775808], [4]",
        "000004  -7                               DATA -7",
        "000005  204                              OUT  [rb+0]"]
    render words 0 = .ok listing ∧
      Program.parse (Text.joined "," (columns listing)) = .ok words := by
  intro words listing
  obtain ⟨⟨shown, rendered, parsed⟩, _⟩ := listing_loads_back words (by decide) (by decide)
  have listed : render words 0 = .ok listing := by decide +kernel
  have same : shown = listing := Except.ok.inj (rendered.symm.trans listed)
  rw [same] at parsed
  exact ⟨listed, parsed⟩

end Listing

end Intcode
