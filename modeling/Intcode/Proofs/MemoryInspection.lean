import Mathlib.Tactic.Ring
import Intcode.Memory.Dump
import Intcode.Proofs.MemoryReads
import Intcode.Proofs.NumberTables

/-!
# Three ways to look at memory

The words of a memory can be read one by one, copied all at once up to the extent, or shown as a
dump. Reading asks the array first and then the map; the copy fills the array up with zeros and lays
the map over it; the dump reads word by word and divides what it reads into rows. They show the same
words in every memory that was made from an image by writes and patches.

A copy needs room for all words up to the extent, and a dump can show only numbers of no more digits
than are written. Where that is missing there is no copy, or no dump, and the failure says so.
-/

set_option autoImplicit false

namespace Intcode.Memory

/-! ## The rows of a dump -/

/-- The words that a row shows, counted from the first word of the dump. -/
def rowSpan (total perRow row : Nat) : List Nat :=
  List.range' (row * perRow) (min ((row + 1) * perRow) total - row * perRow)

section Rows

variable (total perRow : Nat)

theorem range_append_rest (first : Nat) (inside : first ≤ total) :
    List.range first ++ List.range' first (total - first) = List.range total := by
  have joined : List.range' 0 first ++ List.range' (0 + first) (total - first) =
      List.range' 0 (first + (total - first)) := List.range'_append_1
  rw [Nat.zero_add, Nat.add_sub_cancel' inside] at joined
  rw [List.range_eq_range', List.range_eq_range']
  exact joined

/-- The first rows together show all words before the row that comes next, each once and in
order. -/
theorem row_spans (rows : Nat) :
    (List.range rows).flatMap (rowSpan total perRow) = List.range (min (rows * perRow) total) := by
  induction rows with
  | zero => simp
  | succ rows ih =>
      have next : (rows + 1) * perRow = rows * perRow + perRow := Nat.succ_mul rows perRow
      rw [List.range_succ, List.flatMap_append, ih, List.flatMap_singleton, rowSpan]
      by_cases inside : rows * perRow ≤ total
      · rw [Nat.min_eq_left inside]
        exact range_append_rest _ _ (by omega)
      · have nothing : min ((rows + 1) * perRow) total - rows * perRow = 0 := by omega
        have same : min (rows * perRow) total = min ((rows + 1) * perRow) total := by omega
        rw [nothing, same]
        simp

theorem lt_row_count_iff (length : Int) (positive : 0 < perRow) (row : Nat) :
    row < rowCount length perRow ↔ row * perRow < length.toNat := by
  have step : (0 : Int) < perRow := by omega
  have product : ((row : Int) + 1) * perRow = (row * perRow : Nat) + perRow := by
    push_cast
    ring
  unfold rowCount
  rw [if_pos step, Int.lt_toNat, ← Int.add_one_le_iff, Int.le_ediv_iff_mul_le step, product]
  omega

theorem all_rows (length : Int) (positive : 0 < perRow) :
    min (rowCount length perRow * perRow) length.toNat = length.toNat := by
  have last : ¬ rowCount length perRow * perRow < length.toNat := by
    rw [← lt_row_count_iff perRow length positive]
    exact Nat.lt_irrefl _
  omega

end Rows

section Dump

variable (memory : Memory) (start total perRow : Nat)

/-- The words that a row shows. -/
def rowWords (row : Nat) : List Int :=
  (rowSpan total perRow row).map fun index => memory.get (start + index)

/-- The text of a row: the address of its first word and its words. -/
def rowText (row : Nat) : String :=
  Text.zeroPadded 6 (start + row * perRow : Nat) ++ "  " ++
    Text.joined " " ((memory.rowWords start total perRow row).map fun word =>
      Text.padLeft 6 (Text.decimal word))

/-- All numbers of a row can be written. -/
def RowWritable (row : Nat) : Prop :=
  Text.Writable (start + row * perRow : Nat) ∧
    ∀ word ∈ memory.rowWords start total perRow row, Text.Writable word

instance (row : Nat) : Decidable (memory.RowWritable start total perRow row) :=
  inferInstanceAs (Decidable (_ ∧ _))

theorem dump_row_eq (length : Int) (row : Nat) :
    memory.dumpRow (start + perRow * row) (min (perRow : Int) (length - perRow * row)).toNat =
      if memory.RowWritable start length.toNat perRow row
      then .ok (memory.rowText start length.toNat perRow row) else .error .unwritable := by
  have product : (perRow : Int) * row = (row * perRow : Nat) := by
    push_cast
    ring
  have next : (row + 1) * perRow = row * perRow + perRow := Nat.succ_mul row perRow
  have address : (start : Int) + perRow * row = (start + row * perRow : Nat) := by
    rw [product]
    omega
  have count : (min (perRow : Int) (length - perRow * row)).toNat =
      min ((row + 1) * perRow) length.toNat - row * perRow := by
    rw [product, next]
    omega
  have words : ((List.range (min ((row + 1) * perRow) length.toNat - row * perRow)).map
      fun (index : Nat) => memory.get (((start + row * perRow : Nat) : Int) + index).toNat) =
        memory.rowWords start length.toNat perRow row := by
    rw [rowWords, rowSpan, List.range'_eq_map_range, List.map_map]
    apply List.map_congr_left
    intro index _
    rw [Function.comp_apply]
    congr 1
    omega
  unfold dumpRow
  rw [address, count]
  dsimp only
  rw [words]
  by_cases writable : memory.RowWritable start length.toNat perRow row
  · rw [if_pos writable]
    exact if_pos writable
  · rw [if_neg writable]
    exact if_neg writable

/-- What is made item by item, each under a condition, is made if all conditions hold. -/
theorem map_all_guarded {Item Result : Type} (items : List Item) (holds : Item → Prop)
    [DecidablePred holds] (give : Item → Result) (error : Error) :
    (items.mapM fun item => if holds item then Except.ok (give item) else .error error) =
      if ∀ item ∈ items, holds item then .ok (items.map give) else .error error := by
  induction items with
  | nil => simp [pure, Except.pure]
  | cons item items ih =>
      rw [List.mapM_cons, ih]
      by_cases here : holds item
      · by_cases later : ∀ other ∈ items, holds other
        · have both : ∀ other ∈ item :: items, holds other :=
            List.forall_mem_cons.mpr ⟨here, later⟩
          rw [if_pos here, if_pos later, if_pos both]
          rfl
        · have neither : ¬ ∀ other ∈ item :: items, holds other :=
            fun both => later (List.forall_mem_cons.mp both).2
          rw [if_pos here, if_neg later, if_neg neither]
          rfl
      · have neither : ¬ ∀ other ∈ item :: items, holds other :=
          fun both => here (List.forall_mem_cons.mp both).1
        rw [if_neg here, if_neg neither]
        rfl

theorem dump_eq (length? : Option Int) (positive : 0 < perRow) :
    let length := length?.getD (max (memory.extent - start) 0)
    let rows := List.range (rowCount length perRow)
    memory.dump start length? perRow =
      if ∀ row ∈ rows, memory.RowWritable start length.toNat perRow row
      then .ok (Text.joined "\n" (rows.map (memory.rowText start length.toNat perRow)))
      else .error .unwritable := by
  intro length rows
  have someStep : ¬ (perRow : Int) = 0 := by omega
  have natural : ¬ ((start : Int) < 0 ∧ 0 < length ∧ (0 : Int) < perRow) := by omega
  unfold dump
  simp only [if_neg someStep]
  rw [if_neg natural]
  simp only [dump_row_eq]
  rw [map_all_guarded]
  split <;> rfl

/-- All numbers of a dump can be written: the address of each row, and each word. -/
def Legible : Prop :=
  (∀ row, row * perRow < total → Text.Writable (start + row * perRow : Nat)) ∧
    ∀ index, index < total → Text.Writable (memory.get (start + index))

theorem legible_iff (length : Int) (positive : 0 < perRow) :
    memory.Legible start length.toNat perRow ↔
      ∀ row ∈ List.range (rowCount length perRow),
        memory.RowWritable start length.toNat perRow row := by
  have shown (index : Nat) : index < length.toNat ↔
      ∃ row, row < rowCount length perRow ∧ index ∈ rowSpan length.toNat perRow row := by
    have spans := row_spans length.toNat perRow (rowCount length perRow)
    rw [all_rows perRow length positive] at spans
    rw [← List.mem_range, ← spans, List.mem_flatMap]
    simp only [List.mem_range]
  unfold Legible RowWritable rowWords
  simp only [List.mem_range, lt_row_count_iff perRow length positive] at shown ⊢
  constructor
  · rintro ⟨addresses, words⟩ row inside
    refine ⟨addresses row inside, ?_⟩
    intro word member
    obtain ⟨index, among, rfl⟩ := List.mem_map.mp member
    exact words index ((shown index).mpr ⟨row, inside, among⟩)
  · intro rows
    refine ⟨fun row inside => (rows row inside).1, ?_⟩
    intro index inside
    obtain ⟨row, rowInside, among⟩ := (shown index).mp inside
    exact (rows row rowInside).2 _ (List.mem_map_of_mem among)

/-! ## Reading a dump -/

theorem row_text_plain (row : Nat) :
    '\n' ∉ (memory.rowText start total perRow row).toList := by
  intro member
  rw [rowText, String.toList_append, String.toList_append, List.mem_append, List.mem_append]
    at member
  rcases member with (address | gap) | words
  · exact absurd (Text.zero_padded_symbols 6 _ '\n' address) (by decide)
  · exact absurd gap (by decide)
  · rcases Text.joined_symbols _ _ _ words with between | ⟨text, among, inside⟩
    · exact absurd between (by decide)
    · obtain ⟨word, _, rfl⟩ := List.mem_map.mp among
      rw [Text.padLeft, String.toList_append, Text.repeated, String.toList_ofList, List.mem_append,
        List.mem_replicate] at inside
      rcases inside with blank | shown
      · exact absurd blank.2 (by decide)
      · exact absurd (Text.decimal_symbols word '\n' shown) (by decide)

/-- The fields of a row are its address and its words, whatever their width. -/
theorem row_fields (row : Nat) :
    Text.fields (memory.rowText start total perRow row).toList =
      (Text.zeroPadded 6 (start + row * perRow : Nat)).toList ::
        (memory.rowWords start total perRow row).map fun word => (Text.decimal word).toList := by
  have address : Text.fields (Text.zeroPadded 6 (start + row * perRow : Nat)).toList =
      [(Text.zeroPadded 6 (start + row * perRow : Nat)).toList] := by
    apply Text.fields_whole
    · rw [Text.zero_padded_natural 6 _ (by omega)]
      intro empty
      exact Text.repr_filled _ (List.append_eq_nil_iff.mp empty).2
    · intro symbol member
      exact Text.word_symbol_not_blank symbol (.inr (Text.zero_padded_symbols 6 _ symbol member))
  have word (shown : Int) : Text.fields (Text.padLeft 6 (Text.decimal shown)).toList =
      [(Text.decimal shown).toList] := by
    rw [Text.fields_pad_left]
    apply Text.fields_whole _ (Text.decimal_filled shown)
    intro symbol member
    exact Text.word_symbol_not_blank symbol (.inr (Text.decimal_symbols shown symbol member))
  have words : Text.fields (Text.joined " " ((memory.rowWords start total perRow row).map
      fun shown => Text.padLeft 6 (Text.decimal shown))).toList =
        (memory.rowWords start total perRow row).map fun word => (Text.decimal word).toList := by
    rw [Text.fields_joined, List.flatMap_map]
    simp only [word]
    exact List.flatMap_pure_eq_map _ _
  rw [rowText, String.toList_append, String.toList_append, List.append_assoc]
  change Text.fields (_ ++ ' ' :: (List.replicate 1 ' ' ++ _)) = _
  rw [Text.fields_at_blank _ _ ' ' (by decide), address, Text.fields_spaced 1, words]
  rfl

theorem row_read (row : Nat) (writable : memory.RowWritable start total perRow row) :
    (Text.fields (memory.rowText start total perRow row).toList).mapM Text.integer? =
      some (((start + row * perRow : Nat) : Int) :: memory.rowWords start total perRow row) := by
  rw [row_fields]
  apply Text.map_all_of_pairs
  refine .cons ?_ ?_
  · exact Text.integer_of_zero_padded 6 _ (by omega) (by decide) writable.1
  · rw [List.forall₂_map_left_iff, List.forall₂_same]
    intro word member
    exact Text.integer_of_decimal word (writable.2 word member)

/-- The rows of a table are the rows of a dump: in each the address of its first word, and then the
words it shows. Together they show all words, each once and in order. -/
structure Shows (table : List (List Int)) : Prop where
  rows : ∀ row, table[row]? =
    if row * perRow < total then
      some (((start + row * perRow : Nat) : Int) ::
        (rowSpan total perRow row).map fun index => memory.get (start + index))
    else none
  words : table.flatMap List.tail = (List.range total).map fun index => memory.get (start + index)

theorem rows_shown (length : Int) (positive : 0 < perRow) :
    memory.Shows start length.toNat perRow
      ((List.range (rowCount length perRow)).map fun row =>
        ((start + row * perRow : Nat) : Int) :: memory.rowWords start length.toNat perRow row) where
  rows := by
    intro row
    have inside := lt_row_count_iff perRow length positive row
    rw [List.getElem?_map]
    by_cases shown : row * perRow < length.toNat
    · rw [if_pos shown, List.getElem?_range (inside.mpr shown)]
      rfl
    · have beyond : (List.range (rowCount length perRow))[row]? = none := by
        rw [List.getElem?_eq_none_iff, List.length_range]
        exact Nat.not_lt.mp (fun within => shown (inside.mp within))
      rw [if_neg shown, beyond]
      rfl
  words := by
    have spans := row_spans length.toNat perRow (rowCount length perRow)
    rw [all_rows perRow length positive] at spans
    rw [List.flatMap_map, ← spans, List.map_flatMap]
    rfl

theorem dump_shows (length? : Option Int) (positive : 0 < perRow) :
    let length := length?.getD (max (memory.extent - start) 0)
    memory.Legible start length.toNat perRow →
      ∃ text table, memory.dump start length? perRow = .ok text ∧
        Text.table? text = some table ∧ memory.Shows start length.toNat perRow table := by
  intro length legible
  have writable := (legible_iff memory start perRow length positive).mp legible
  refine ⟨_, _, (dump_eq memory start perRow length? positive).trans (if_pos writable), ?_,
    rows_shown memory start perRow length positive⟩
  apply Text.table_of_lines
  · rw [List.forall_mem_map]
    intro row _ empty
    have nothing := row_fields memory start length.toNat perRow row
    rw [empty] at nothing
    exact absurd nothing.symm (List.cons_ne_nil _ _)
  · rw [List.forall_mem_map]
    intro row _
    exact row_text_plain memory start length.toNat perRow row
  · rw [List.forall₂_map_left_iff, List.forall₂_map_right_iff, List.forall₂_same]
    intro row member
    exact row_read memory start length.toNat perRow row (writable row member)

end Dump

/-- In every memory that calls have made from an image, all ways to look at it agree. Whatever room
is left for it, a copy fails only for want of room; it has as many words as the extent says, laid
over the array filled up to that size at places inside of it, and each is the word that is read at
its address. From the extent on, zero is read. A dump of any stretch from any address on, with any
number of words to a row, fails exactly if the address of a row or a word in it has too many digits
to be written; otherwise its text is a table with the address of the first word in front of each row
and all words behind it. -/
theorem inspections_agree (room : Nat) (gap : Int) (image : List Int) (calls : List Call) :
    let memory := (ofImageWithGap gap image).run room calls
    (∀ address : Nat, memory.read address = .ok (memory.get address)) ∧
      (∀ left, memory.snapshot left =
        (reserve left (memory.extent - memory.dense.size)).map (fun _ => memory.words)) ∧
      memory.words.size = memory.extent ∧
      (∀ key ∈ memory.sparse, key < memory.words.size) ∧
      (∀ address, address < memory.extent →
        memory.words[address]? = some (memory.get address)) ∧
      (∀ address, memory.extent ≤ address → memory.get address = 0) ∧
      ∀ (start perRow : Nat) (length? : Option Int), 0 < perRow →
        let total := (length?.getD (max (memory.extent - start) 0)).toNat
        (memory.Legible start total perRow → ∃ text table,
          memory.dump start length? perRow = .ok text ∧ Text.table? text = some table ∧
            memory.Shows start total perRow table) ∧
        (¬ memory.Legible start total perRow →
          memory.dump start length? perRow = .error .unwritable) := by
  intro memory
  have laidOut : memory.LaidOut := run_laid_out room _ calls (of_image_laid_out gap image)
  have size := words_size memory laidOut
  refine ⟨read_natural memory, fun left => snapshot_eq left memory, size, ?_,
    words_get memory laidOut, get_beyond memory laidOut, ?_⟩
  · intro key member
    rw [size]
    exact laidOut.keyBefore key member
  · intro start perRow length? positive total
    refine ⟨dump_shows memory start perRow length? positive, ?_⟩
    intro illegible
    rw [legible_iff memory start perRow _ positive] at illegible
    rw [dump_eq memory start perRow length? positive]
    exact if_neg illegible

/-- A far word lies behind a gap of words that were never written; the second row of the dump is
shorter than the first one. -/
theorem sparse_memory_is_shown :
    let memory := (ofImageWithGap 2 [5]).run 6 [.write 6 9, .patch 0 (-7)]
    let text := "000002       0      0      0      0\n000006       9"
    memory.snapshot 6 = .ok #[-7, 0, 0, 0, 0, 0, 9] ∧ memory.Legible 2 5 4 ∧
      memory.dump 2 none 4 = .ok text ∧
      ∃ table, Text.table? text = some table ∧ memory.Shows 2 5 4 table := by
  intro memory text
  obtain ⟨_, _, _, _, _, _, dumps⟩ := inspections_agree 6 2 [5] [.write 6 9, .patch 0 (-7)]
  have copied : memory.snapshot 6 = .ok #[-7, 0, 0, 0, 0, 0, 9] := by decide +kernel
  have dumped : memory.dump 2 none 4 = .ok text := by decide +kernel
  have legible : memory.Legible 2 5 4 :=
    (legible_iff memory 2 4 5 (by decide)).mpr (by decide +kernel)
  obtain ⟨shown, table, dumpedAgain, read, shows⟩ := (dumps 2 4 none (by decide)).1 legible
  have same : shown = text := Except.ok.inj (dumpedAgain.symm.trans dumped)
  rw [same] at read
  exact ⟨copied, legible, dumped, table, read, shows⟩

/-- There is no dump with an address of one digit more than are written, and no copy of more words
than can be counted. -/
theorem too_long_to_be_shown :
    let memory := ofImageWithGap defaultGap [5]
    memory.dump (10 ^ 4300 - 1 : Nat) (some 2) 1 = .error .unwritable ∧
      (memory.run 65536 [.write 9223372036854775809 3]).extent = 9223372036854775810 ∧
      (memory.run 65536 [.write 9223372036854775809 3]).snapshot 65536 = .error .countTooLong := by
  decide +kernel

end Intcode.Memory
