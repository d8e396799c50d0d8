import Mathlib.Data.List.DropRight
import Intcode.Text.Blank

/-!
# Trimmed and divided texts

What trimming a text and dividing it at a separator come to, said without the functions that do
it. Trimming takes away nothing but symbols to be dropped, and leaves none of them at either end.
The pieces of a divided text hold no separator, and joined by it they are the text again. Both
conditions leave one result only.
-/

set_option autoImplicit false

namespace Intcode.Text

/-! ## Trimming -/

/-- The core is the text without the symbols at either end that are to be dropped. -/
structure Trimmed (drop : Char → Bool) (text core : List Char) : Prop where
  whole : ∃ before behind, text = before ++ (core ++ behind) ∧
    (∀ symbol ∈ before, drop symbol = true) ∧ ∀ symbol ∈ behind, drop symbol = true
  front : ∀ symbol, core.head? = some symbol → drop symbol = false
  back : ∀ symbol, core.getLast? = some symbol → drop symbol = false

theorem drop_while_kept (drop : Char → Bool) (text : List Char)
    (front : ∀ symbol, text.head? = some symbol → drop symbol = false) :
    text.dropWhile drop = text := by
  cases text with
  | nil => rfl
  | cons first rest =>
      apply List.dropWhile_cons_of_neg
      simp [front first rfl]

theorem trim_by_trimmed (drop : Char → Bool) (text : List Char) :
    Trimmed drop text (trimBy drop text) where
  whole := by
    refine ⟨text.takeWhile drop, (text.dropWhile drop).rtakeWhile drop, ?_, ?_, ?_⟩
    · change text = text.takeWhile drop ++
        ((text.dropWhile drop).rdropWhile drop ++ (text.dropWhile drop).rtakeWhile drop)
      rw [List.rdropWhile_append_rtakeWhile, List.takeWhile_append_dropWhile]
    · intro symbol member
      exact List.mem_takeWhile_imp member
    · intro symbol member
      exact List.mem_rtakeWhile_imp member
  front := by
    intro symbol first
    obtain ⟨behind, whole⟩ := List.rdropWhile_prefix drop (l := text.dropWhile drop)
    have same : (text.dropWhile drop).head? = some symbol := by
      rw [← whole, List.head?_append]
      change (trimBy drop text).head?.or behind.head? = some symbol
      rw [first, Option.some_or]
    have kept := List.head?_dropWhile_not drop text
    rw [same] at kept
    exact kept
  back := by
    intro symbol last
    rw [trimBy, List.getLast?_reverse] at last
    have kept := List.head?_dropWhile_not drop (text.dropWhile drop).reverse
    rw [last] at kept
    exact kept

theorem trimmed_iff (drop : Char → Bool) (text core : List Char) :
    Trimmed drop text core ↔ core = trimBy drop text := by
  constructor
  · intro trimmed
    obtain ⟨before, behind, rfl, beforeDropped, behindDropped⟩ := trimmed.whole
    unfold trimBy
    rw [List.dropWhile_append_of_pos beforeDropped]
    by_cases empty : core = []
    · rw [empty, List.nil_append, List.dropWhile_eq_nil_iff.mpr behindDropped]
      rfl
    · -- The core's first symbol stops the search from the left, its last one that from the right.
      have fromLeft : (core ++ behind).dropWhile drop = core ++ behind := by
        apply drop_while_kept
        intro symbol first
        rw [List.head?_append_of_ne_nil _ empty] at first
        exact trimmed.front symbol first
      have fromRight : core.reverse.dropWhile drop = core.reverse := by
        apply drop_while_kept
        intro symbol last
        rw [List.head?_reverse] at last
        exact trimmed.back symbol last
      rw [fromLeft, List.reverse_append,
        List.dropWhile_append_of_pos (by simpa using behindDropped), fromRight,
        List.reverse_reverse]
  · rintro rfl
    exact trim_by_trimmed drop text

/-- Text that holds nothing to be dropped stays as it is. -/
theorem trimmed_self (drop : Char → Bool) (text : List Char)
    (kept : ∀ symbol ∈ text, drop symbol = false) : Trimmed drop text text where
  whole := ⟨[], [], by simp, by simp, by simp⟩
  front := by
    intro symbol first
    exact kept symbol (List.mem_of_mem_head? first)
  back := by
    intro symbol last
    exact kept symbol (List.mem_of_mem_getLast? last)

/-! ## Dividing -/

/-- The parts are what lies between the separators of the text. -/
structure Divided (separator : Char) (text : List Char) (parts : List (List Char)) : Prop where
  whole : text = [separator].intercalate parts
  plain : ∀ part ∈ parts, separator ∉ part
  filled : parts ≠ []

theorem pieces_eq_split_on (separator : Char) (text : List Char) :
    pieces separator text = text.splitOn separator := by
  induction text with
  | nil => rfl
  | cons symbol text ih =>
      rw [List.splitOn_cons_eq_if_modifyHead, ← ih]
      have filled : pieces separator text ≠ [] := by
        rw [ih]
        exact List.splitOn_ne_nil separator text
      obtain ⟨piece, others, same⟩ := List.exists_cons_of_ne_nil filled
      rw [same]
      by_cases here : symbol = separator
      · simp only [pieces, List.foldr_cons, if_pos here, beq_iff_eq]
        exact congrArg _ same
      · unfold pieces at same ⊢
        simp only [List.foldr_cons, if_neg here, same, beq_iff_eq, List.modifyHead_cons]

theorem pieces_plain (separator : Char) (text : List Char) :
    ∀ piece ∈ pieces separator text, separator ∉ piece := by
  rw [pieces_eq_split_on]
  induction text with
  | nil => simp
  | cons symbol text ih =>
      obtain ⟨first, others, same⟩ :=
        List.exists_cons_of_ne_nil (List.splitOn_ne_nil separator text)
      rw [List.splitOn_cons_eq_if_modifyHead]
      rw [same, List.forall_mem_cons] at ih
      by_cases here : symbol = separator
      · simp only [here, beq_self_eq_true, if_true, same, List.forall_mem_cons]
        exact ⟨List.not_mem_nil, ih⟩
      · have other : (symbol == separator) = false := by simpa using here
        simp only [other, Bool.false_eq_true, if_false, same, List.modifyHead_cons,
          List.forall_mem_cons]
        refine ⟨?_, ih.2⟩
        rw [List.mem_cons, not_or]
        exact ⟨Ne.symm here, ih.1⟩

theorem divided_iff (separator : Char) (text : List Char) (parts : List (List Char)) :
    Divided separator text parts ↔ parts = pieces separator text := by
  constructor
  · intro divided
    rw [pieces_eq_split_on, divided.whole,
      List.splitOn_intercalate separator divided.plain divided.filled]
  · rintro rfl
    refine ⟨?_, pieces_plain separator text, ?_⟩
    · rw [pieces_eq_split_on, List.intercalate_splitOn]
    · rw [pieces_eq_split_on]
      exact List.splitOn_ne_nil separator text

end Intcode.Text
