import Intcode.Command.Value
import Intcode.Proofs.ProgramText

/-!
# Word lists and program text

A list of words on the command line is divided at its commas as it stands, its blank pieces are left
out, and the others are read leniently. Program text is trimmed first, and each of its pieces must
be a plain numeral that fits a word. Where program text is accepted, and holds no other blanks than
the lenient reader passes over, the list of words is the same: trimming the whole takes nothing from
the pieces that trimming each would not take, no piece is blank, and a plain numeral with blanks
around it is a lenient one.
-/

set_option autoImplicit false

namespace Intcode

namespace Text

/-- Pairing items with what a function gives for them is giving all of it. -/
theorem map_all_of_pairs {Item Result : Type} (give : Item → Option Result) (items : List Item)
    (results : List Result)
    (paired : List.Forall₂ (fun item result => give item = some result) items results) :
    items.mapM give = some results := by
  induction paired with
  | nil => rfl
  | cons given _ ih => simp [List.mapM_cons, given, ih]

/-! ## Blanks around a divided text -/

section Surroundings

variable {drop : Char → Bool} {separator : Char} {before text behind core : List Char}

theorem Trimmed.surround (trimmed : Trimmed drop text core)
    (beforeDropped : ∀ symbol ∈ before, drop symbol = true)
    (behindDropped : ∀ symbol ∈ behind, drop symbol = true) :
    Trimmed drop (before ++ (text ++ behind)) core where
  whole := by
    obtain ⟨innerBefore, innerBehind, rfl, innerBeforeDropped, innerBehindDropped⟩ := trimmed.whole
    refine ⟨before ++ innerBefore, innerBehind ++ behind, by simp, ?_, ?_⟩
    · intro symbol member
      rcases List.mem_append.mp member with outer | inner
      · exact beforeDropped symbol outer
      · exact innerBeforeDropped symbol inner
    · intro symbol member
      rcases List.mem_append.mp member with inner | outer
      · exact innerBehindDropped symbol inner
      · exact behindDropped symbol outer
  front := trimmed.front
  back := trimmed.back

theorem trim_by_surrounded (before text behind : List Char)
    (beforeDropped : ∀ symbol ∈ before, drop symbol = true)
    (behindDropped : ∀ symbol ∈ behind, drop symbol = true) :
    trimBy drop (before ++ (text ++ behind)) = trimBy drop text :=
  ((trimmed_iff _ _ _).mp
    ((trim_by_trimmed drop text).surround beforeDropped behindDropped)).symm

theorem intercalate_symbols (glue : List Char) (parts : List (List Char)) (part : List Char)
    (among : part ∈ parts) : ∀ symbol ∈ part, symbol ∈ glue.intercalate parts := by
  intro symbol member
  induction parts with
  | nil => exact absurd among (by simp)
  | cons first parts ih =>
      cases parts with
      | nil =>
          rw [List.mem_singleton.mp among] at member
          rw [List.intercalate_singleton]
          exact member
      | cons second parts =>
          rw [List.intercalate_cons_cons, List.mem_append, List.mem_append]
          rcases List.mem_cons.mp among with rfl | later
          · exact .inl (.inl member)
          · exact .inr (ih later)

theorem Divided.symbols {parts : List (List Char)} (divided : Divided separator text parts) :
    ∀ part ∈ parts, ∀ symbol ∈ part, symbol ∈ text := by
  rw [divided.whole]
  exact intercalate_symbols [separator] parts

/-- Text in front of a divided text belongs to its first part. -/
theorem Divided.precede {first : List Char} {parts : List (List Char)}
    (divided : Divided separator text (first :: parts)) (plain : separator ∉ before) :
    Divided separator (before ++ text) ((before ++ first) :: parts) where
  whole := by
    rw [divided.whole]
    cases parts with
    | nil => simp [List.intercalate_singleton]
    | cons second parts => simp [List.intercalate_cons_cons]
  plain := by
    have firstPlain := divided.plain first List.mem_cons_self
    intro part member
    rcases List.mem_cons.mp member with rfl | later
    · rw [List.mem_append, not_or]
      exact ⟨plain, firstPlain⟩
    · exact divided.plain part (List.mem_cons_of_mem first later)
  filled := List.cons_ne_nil _ _

theorem intercalate_append_last (glue last behind : List Char) (parts : List (List Char)) :
    glue.intercalate (parts ++ [last]) ++ behind =
      glue.intercalate (parts ++ [last ++ behind]) := by
  induction parts with
  | nil => simp [List.intercalate_singleton]
  | cons part parts ih =>
      rw [List.cons_append, List.cons_append, List.intercalate_cons_of_ne_nil (by simp),
        List.intercalate_cons_of_ne_nil (by simp), ← ih]
      simp

/-- Text behind a divided text belongs to its last part. -/
theorem Divided.follow {last : List Char} {parts : List (List Char)}
    (divided : Divided separator text (parts ++ [last])) (plain : separator ∉ behind) :
    Divided separator (text ++ behind) (parts ++ [last ++ behind]) where
  whole := by
    rw [divided.whole]
    exact intercalate_append_last [separator] last behind parts
  plain := by
    have lastPlain := divided.plain last (by simp)
    intro part member
    rcases List.mem_append.mp member with earlier | here
    · exact divided.plain part (List.mem_append_left _ earlier)
    · rw [List.mem_singleton.mp here, List.mem_append, not_or]
      exact ⟨lastPlain, plain⟩
  filled := by simp

theorem kept_separator (kept : drop separator = false)
    (dropped : ∀ symbol ∈ text, drop symbol = true) : separator ∉ text := by
  intro member
  rw [dropped separator member] at kept
  exact absurd kept (by simp)

theorem trimmed_pieces_precede (kept : drop separator = false) (text : List Char)
    (dropped : ∀ symbol ∈ before, drop symbol = true) :
    (pieces separator (before ++ text)).map (trimBy drop) =
      (pieces separator text).map (trimBy drop) := by
  have divided := (divided_iff separator text _).mpr rfl
  obtain ⟨first, parts, same⟩ := List.exists_cons_of_ne_nil divided.filled
  rw [same] at divided
  have wider := divided.precede (kept_separator kept dropped)
  have trimmed : trimBy drop (before ++ first) = trimBy drop first := by
    simpa using trim_by_surrounded before first [] dropped (by simp)
  rw [same, ← (divided_iff _ _ _).mp wider, List.map_cons, List.map_cons, trimmed]

theorem trimmed_pieces_follow (kept : drop separator = false) (text : List Char)
    (dropped : ∀ symbol ∈ behind, drop symbol = true) :
    (pieces separator (text ++ behind)).map (trimBy drop) =
      (pieces separator text).map (trimBy drop) := by
  have divided := (divided_iff separator text _).mpr rfl
  obtain ⟨parts, last, same⟩ : ∃ parts last, pieces separator text = parts ++ [last] :=
    ⟨_, _, (List.dropLast_append_getLast divided.filled).symm⟩
  rw [same] at divided
  have wider := divided.follow (kept_separator kept dropped)
  have trimmed : trimBy drop (last ++ behind) = trimBy drop last := by
    simpa using trim_by_surrounded [] last behind (by simp) dropped
  rw [same, ← (divided_iff _ _ _).mp wider, List.map_append, List.map_append, List.map_singleton,
    List.map_singleton, trimmed]

/-- Pieces that are trimmed in the end are the same whether or not the text was trimmed first. -/
theorem trimmed_pieces_of_trimmed (kept : drop separator = false) (text : List Char) :
    (pieces separator (trimBy drop text)).map (trimBy drop) =
      (pieces separator text).map (trimBy drop) := by
  obtain ⟨before, behind, whole, beforeDropped, behindDropped⟩ :=
    (trim_by_trimmed drop text).whole
  calc (pieces separator (trimBy drop text)).map (trimBy drop)
      = (pieces separator (trimBy drop text ++ behind)).map (trimBy drop) :=
        (trimmed_pieces_follow kept _ behindDropped).symm
    _ = (pieces separator (before ++ (trimBy drop text ++ behind))).map (trimBy drop) :=
        (trimmed_pieces_precede kept _ beforeDropped).symm
    _ = (pieces separator text).map (trimBy drop) := by rw [← whole]

end Surroundings

/-! ## Plain numerals among blanks -/

namespace Numeral

/-- The symbols of ASCII but those that separate files, groups, records and units. -/
def IsBasic (symbol : Char) : Prop :=
  symbol.toNat < 0x80 ∧ ¬ (0x1C ≤ symbol.toNat ∧ symbol.toNat ≤ 0x1F)

instance (symbol : Char) : Decidable (IsBasic symbol) := inferInstanceAs (Decidable (_ ∧ _))

theorem blank_code (symbol : Char) (blank : isBlank symbol = true) (ascii : symbol.toNat < 0x80) :
    (0x09 ≤ symbol.toNat ∧ symbol.toNat ≤ 0x0D) ∨ (0x1C ≤ symbol.toNat ∧ symbol.toNat ≤ 0x20) := by
  simp [isBlank, inRanges, blankRanges] at blank
  omega

theorem margin_of_blank (symbol : Char) (basic : IsBasic symbol) (blank : isBlank symbol = true) :
    isMargin symbol = true := by
  have code := blank_code symbol blank basic.1
  have apart := basic.2
  by_cases space : symbol = ' '
  · simp [isMargin, space]
  · have other : symbol.toNat ≠ 0x20 := by
      intro same
      exact space (Char.toNat_inj.mp same)
    have control : 0x09 ≤ symbol.toNat ∧ symbol.toNat ≤ 0x0D := by omega
    simp [isMargin, control]

theorem blank_of_margin (symbol : Char) (margin : isMargin symbol = true) :
    isBlank symbol = true := by
  simp only [isMargin, Bool.or_eq_true, Bool.and_eq_true, decide_eq_true_eq] at margin
  rcases margin with rfl | control
  · decide
  · simp [isBlank, inRanges, blankRanges, control]

theorem spelled_code (token : List Char) (numeral : Numeral) (spells : Spells token numeral)
    (symbol : Char) (member : symbol ∈ token) : symbol.toNat < 0x7F := by
  have digits : ∀ digit ∈ numeral.digits, digit.toNat < 0x7F := by
    intro digit among
    have isDigit := (is_digit_iff digit).mpr (spells.ascii digit among)
    have digitCode := Char.isDigit_iff_toNat.mp isDigit
    have nine : '9'.toNat = 57 := rfl
    omega
  cases numeral with
  | mk negative shown =>
      cases spells.signed with
      | bare => exact digits symbol member
      | plus =>
          rcases List.mem_cons.mp member with rfl | among
          · decide
          · exact digits symbol among
      | minus =>
          rcases List.mem_cons.mp member with rfl | among
          · decide
          · exact digits symbol among

theorem digits_undivided (digits : List Char)
    (ascii : ∀ digit ∈ digits, '0' ≤ digit ∧ digit ≤ '9') : pieces '_' digits = [digits] := by
  have divided : Divided '_' digits [digits] := by
    refine ⟨(List.intercalate_singleton).symm, ?_, List.cons_ne_nil _ _⟩
    intro part member underscore
    rw [List.mem_singleton.mp member] at underscore
    exact absurd (ascii '_' underscore) (by decide)
  exact ((divided_iff _ _ _).mp divided).symm

variable {piece token : List Char} {numeral : Numeral}

/-- Among basic symbols the lenient reader passes over the same blanks as trimming takes away. -/
theorem trimmed_margins (trimmed : Trimmed isBlank piece token)
    (basic : ∀ symbol ∈ piece, IsBasic symbol) : Trimmed isMargin piece token where
  whole := by
    obtain ⟨before, behind, rfl, beforeBlank, behindBlank⟩ := trimmed.whole
    refine ⟨before, behind, rfl, ?_, ?_⟩
    · intro symbol member
      exact margin_of_blank symbol (basic symbol (by simp [member])) (beforeBlank symbol member)
    · intro symbol member
      exact margin_of_blank symbol (basic symbol (by simp [member])) (behindBlank symbol member)
  front := by
    intro symbol first
    apply Bool.eq_false_iff.mpr
    intro margin
    exact absurd (blank_of_margin symbol margin) (by simp [trimmed.front symbol first])
  back := by
    intro symbol last
    apply Bool.eq_false_iff.mpr
    intro margin
    exact absurd (blank_of_margin symbol margin) (by simp [trimmed.back symbol last])

theorem unfolded (trimmed : Trimmed isBlank piece token) (spells : Spells token numeral)
    (basic : ∀ symbol ∈ piece, IsBasic symbol) : piece.mapM foldSymbol? = some piece := by
  apply map_all_of_pairs
  rw [List.forall₂_same]
  intro symbol member
  have code : symbol.toNat < 0x7F := by
    obtain ⟨before, behind, rfl, beforeBlank, behindBlank⟩ := trimmed.whole
    have ascii := (basic symbol member).1
    simp only [List.mem_append] at member
    rcases member with outer | inner | outer
    · have blank := blank_code symbol (beforeBlank symbol outer) ascii
      omega
    · exact spelled_code token numeral spells symbol inner
    · have blank := blank_code symbol (behindBlank symbol outer) ascii
      omega
  rw [foldSymbol?, if_pos code]

theorem lenient_of_spells (trimmed : Trimmed isBlank piece token) (spells : Spells token numeral)
    (basic : ∀ symbol ∈ piece, IsBasic symbol) : lenient? piece = some numeral := by
  have margins := (trimmed_iff _ _ _).mp (trimmed_margins trimmed basic)
  have sign := spells.signed.split_sign spells.ascii
  have undivided := digits_undivided numeral.digits spells.ascii
  have digitsOnly : ∀ digit ∈ numeral.digits, digit.isDigit = true := by
    intro digit member
    exact (is_digit_iff digit).mpr (spells.ascii digit member)
  have filled : numeral.digits ≠ [] := spells.filled
  simpa [lenient?, unfolded trimmed spells basic, ← margins, sign, undivided, filled]
    using digitsOnly

theorem integer_of_spells (trimmed : Trimmed isBlank piece token) (spells : Spells token numeral)
    (basic : ∀ symbol ∈ piece, IsBasic symbol) (short : numeral.digits.length ≤ digitLimit) :
    integer? piece = some numeral.value := by
  simp [integer?, lenient_of_spells trimmed spells basic, short]

end Numeral

end Text

/-! ## Word lists -/

namespace Command

theorem integer_of_denotes (piece : List Char) (word : Int)
    (denotes : Program.Denotes (Text.trim piece) word)
    (basic : ∀ symbol ∈ piece, Text.Numeral.IsBasic symbol) :
    Text.integer? piece = some word := by
  obtain ⟨numeral, spells, short, same, _⟩ := denotes
  rw [Text.Numeral.integer_of_spells (Text.trim_by_trimmed Text.isBlank piece) spells basic short,
    Program.value_eq, same]

/-- A piece that denotes a word is not blank. -/
theorem not_blank_of_denotes (piece : List Char) (word : Int)
    (denotes : Program.Denotes (Text.trim piece) word) : piece.all Text.isBlank = false := by
  obtain ⟨numeral, spells, _⟩ := denotes
  apply Bool.eq_false_iff.mpr
  intro blank
  have empty : Text.trim piece = [] := by
    have dropped : piece.dropWhile Text.isBlank = [] :=
      List.dropWhile_eq_nil_iff.mpr (List.all_eq_true.mp blank)
    simp [Text.trim, Text.trimBy, dropped]
  rw [empty] at spells
  have nothing := spells.signed.split_sign spells.ascii
  exact spells.filled (congrArg Prod.snd nothing).symm

/-- Text of ASCII symbols that is accepted as program text, and in which nothing separates files,
groups, records or units, is the same list of words on the command line. -/
theorem word_list_agrees_with_program_text (text : String) (words : List Int)
    (basic : ∀ symbol ∈ text.toList,
      symbol.toNat < 0x80 ∧ ¬ (0x1C ≤ symbol.toNat ∧ symbol.toNat ≤ 0x1F))
    (parsed : Program.parse text = .ok words) : wordsOfText text = .ok words := by
  have paired : List.Forall₂ (fun piece word => Program.Denotes (Text.trim piece) word)
      (Text.pieces ',' text.toList) words := by
    have denoted := (Program.read_all_ok_iff 0 _ words).mp parsed
    have tokens : Program.tokens text.toList = (Text.pieces ',' text.toList).map Text.trim :=
      Text.trimmed_pieces_of_trimmed (by decide) text.toList
    rw [tokens, List.forall₂_map_left_iff] at denoted
    exact denoted
  have allShown : (Text.pieces ',' text.toList).filter (fun piece => !piece.all Text.isBlank) =
      Text.pieces ',' text.toList := by
    have shown := (List.forall₂_and_left _ _).mp (paired.imp fun piece word denotes =>
      ⟨not_blank_of_denotes piece word denotes, denotes⟩)
    rw [List.filter_eq_self]
    intro piece among
    simp [shown.1 piece among]
  have read : (Text.pieces ',' text.toList).mapM Text.integer? = some words := by
    have basicPieces : ∀ piece ∈ Text.pieces ',' text.toList,
        ∀ symbol ∈ piece, Text.Numeral.IsBasic symbol := by
      intro piece among symbol member
      have divided := (Text.divided_iff ',' text.toList _).mpr rfl
      exact basic symbol (divided.symbols piece among symbol member)
    apply Text.map_all_of_pairs
    apply ((List.forall₂_and_left _ _).mpr ⟨basicPieces, paired⟩).imp
    rintro piece word ⟨basicPiece, denotes⟩
    exact integer_of_denotes piece word denotes basicPiece
  simp only [wordsOfText, allShown, read]

/-- Leading zeros, signs and blanks of several kinds, also between the words. -/
theorem padded_words_are_read_alike :
    let text := "\t+007 ,\r\n-0,  -9223372036854775808\n"
    Program.parse text = .ok [7, 0, -9223372036854775808] ∧
      wordsOfText text = .ok [7, 0, -9223372036854775808] := by
  intro text
  have parsed : Program.parse text = .ok [7, 0, -9223372036854775808] := by decide +kernel
  have basic : (text.toList.all fun symbol => decide
      (symbol.toNat < 0x80 ∧ ¬ (0x1C ≤ symbol.toNat ∧ symbol.toNat ≤ 0x1F))) = true := by
    decide +kernel
  refine ⟨parsed, word_list_agrees_with_program_text text _ ?_ parsed⟩
  intro symbol member
  exact of_decide_eq_true (List.all_eq_true.mp basic symbol member)

-- What separates files is a blank in program text, but not around a lenient numeral.
example : Program.parse "\x1c5" = .ok [5] ∧
    wordsOfText "\x1c5" = .error (.wordList "\x1c5") := by decide +kernel

end Command

end Intcode
