import Mathlib.Data.List.Basic
import Intcode.Memory.Change
import Intcode.Proofs.MemoryLayout

/-!
# Changes between snapshots, and what can be done with them

Two snapshots are compared as if both were followed by zeros without an end. The changes from one to
the other are then exactly the addresses where they differ, each with the word before and the word
after. So the changes can be carried out on the first snapshot, and give the second; they can be
taken back; and what changes over two stretches of a history has changed over one of them.
-/

set_option autoImplicit false

namespace Intcode.Memory

/-- The change back. -/
def Change.reversed (change : Change) : Change :=
  { change with before := change.after, after := change.before }

/-- Words filled up with zeros to a size. -/
def filledTo (size : Nat) (words : Array Int) : Array Int :=
  words ++ Array.replicate (size - words.size) 0

/-- Carries out changes: each puts its word after the change at its address. -/
def carriedOut (words : Array Int) (list : List Change) : Array Int :=
  list.foldl (fun words change => words.setIfInBounds change.address change.after) words

/-- The addresses of changes, in their order. -/
def changedAt (list : List Change) : List Nat := list.map Change.address

/-! ## Which changes there are -/

section Comparison

variable (before after : Array Int)

/-- Behind both snapshots there are only zeros, so that they differ no more. -/
theorem differing_inside (address : Nat)
    (differ : before.getD address 0 ≠ after.getD address 0) :
    address < max before.size after.size := by
  apply Decidable.byContradiction
  intro outside
  have behindBefore : before.size ≤ address := by omega
  have behindAfter : after.size ≤ address := by omega
  apply differ
  simp [behindBefore, behindAfter]

theorem mem_changes_iff (change : Change) :
    change ∈ changes before after ↔
      change.before = before.getD change.address 0 ∧
        change.after = after.getD change.address 0 ∧ change.before ≠ change.after := by
  unfold changes
  rw [List.mem_filterMap]
  constructor
  · rintro ⟨address, _, found⟩
    dsimp only at found
    split at found
    case isTrue => exact absurd found (by simp)
    case isFalse differ =>
      cases found
      exact ⟨rfl, rfl, differ⟩
  · rintro ⟨sameBefore, sameAfter, differ⟩
    rw [sameBefore, sameAfter] at differ
    refine ⟨change.address, ?_, ?_⟩
    · rw [List.mem_range]
      exact differing_inside before after change.address differ
    · dsimp only
      rw [if_neg differ, ← sameBefore, ← sameAfter]

theorem mem_changed_at_iff (address : Nat) :
    address ∈ changedAt (changes before after) ↔
      before.getD address 0 ≠ after.getD address 0 := by
  unfold changedAt
  rw [List.mem_map]
  constructor
  · rintro ⟨change, member, rfl⟩
    obtain ⟨sameBefore, sameAfter, differ⟩ := (mem_changes_iff before after change).mp member
    rw [← sameBefore, ← sameAfter]
    exact differ
  · intro differ
    refine ⟨⟨address, before.getD address 0, after.getD address 0⟩, ?_, rfl⟩
    exact (mem_changes_iff before after _).mpr ⟨rfl, rfl, differ⟩

theorem changes_ascending : (changedAt (changes before after)).Pairwise (· < ·) := by
  unfold changedAt changes
  rw [List.pairwise_map, List.pairwise_filterMap]
  apply List.pairwise_lt_range.imp
  intro address later ascends change found other foundLater
  dsimp only at found foundLater
  split at found
  case isTrue => exact absurd found (by simp)
  case isFalse =>
    split at foundLater
    case isTrue => exact absurd foundLater (by simp)
    case isFalse =>
      cases found
      cases foundLater
      exact ascends

theorem changes_reversed : changes after before = (changes before after).map Change.reversed := by
  unfold changes
  rw [List.map_filterMap, Nat.max_comm]
  apply List.filterMap_congr
  intro address _
  dsimp only
  by_cases same : before.getD address 0 = after.getD address 0
  · rw [if_pos same, if_pos same.symm]
    rfl
  · rw [if_neg same, if_neg (Ne.symm same)]
    rfl

/-! ## Carrying changes out -/

theorem filled_to_size (size : Nat) (words : Array Int) (fits : words.size ≤ size) :
    (filledTo size words).size = size := by
  simp [filledTo]
  omega

theorem filled_to_get (size : Nat) (words : Array Int) (fits : words.size ≤ size) (address : Nat)
    (inside : address < size) :
    (filledTo size words)[address]? = some (words.getD address 0) := by
  have within : address < (filledTo size words).size := by
    rw [filled_to_size size words fits]
    exact inside
  rw [Array.getElem?_eq_getElem within]
  exact congrArg some (filled_get words (size - words.size) address within)

theorem carried_out_eq (words : Array Int) (list : List Change) :
    carriedOut words list =
      (list.map fun change => (change.address, change.after)).foldl
        (fun words entry => words.setIfInBounds entry.1 entry.2) words := by
  rw [List.foldl_map]
  rfl

/-- The changes put every word that differs into its place and leave the others alone. -/
theorem carried_out_get (words : Array Int) (address : Nat) (inside : address < words.size)
    (known : words[address]? = some (before.getD address 0)) :
    (carriedOut words (changes before after))[address]? = some (after.getD address 0) := by
  rw [carried_out_eq]
  by_cases differ : before.getD address 0 = after.getD address 0
  · rw [overlay_list_elsewhere, known, differ]
    intro entry member here
    obtain ⟨change, among, rfl⟩ := List.mem_map.mp member
    have changed : address ∈ changedAt (changes before after) :=
      here ▸ List.mem_map_of_mem among
    exact (mem_changed_at_iff before after address).mp changed differ
  · have ascending := changes_ascending before after
    unfold changedAt at ascending
    rw [List.pairwise_map] at ascending
    apply overlay_list_at
    · rw [List.pairwise_map]
      exact ascending.imp Nat.ne_of_lt
    · have member := (mem_changes_iff before after ⟨address, _, _⟩).mpr ⟨rfl, rfl, differ⟩
      exact List.mem_map_of_mem member
    · exact inside

theorem changes_carried_out :
    carriedOut (filledTo (max before.size after.size) before) (changes before after) =
      filledTo (max before.size after.size) after := by
  have beforeFits : before.size ≤ max before.size after.size := Nat.le_max_left _ _
  have afterFits : after.size ≤ max before.size after.size := Nat.le_max_right _ _
  have beforeSize := filled_to_size _ before beforeFits
  have afterSize := filled_to_size _ after afterFits
  apply Array.ext_getElem?
  intro address
  by_cases inside : address < max before.size after.size
  · rw [carried_out_get before after _ address (by omega)
      (filled_to_get _ before beforeFits address inside),
      filled_to_get _ after afterFits address inside]
  · have size : (carriedOut (filledTo (max before.size after.size) before)
        (changes before after)).size = max before.size after.size := by
      rw [carried_out_eq, overlay_list_size, beforeSize]
    rw [Array.getElem?_eq_none (by omega), Array.getElem?_eq_none (by omega)]

end Comparison

/-- The changes between two snapshots are listed by ascending address, and they are all the
addresses where the snapshots, both followed by zeros, differ, with the word before and the word
after. All of them lie inside the longer snapshot, and carried out on the first one, filled up with
zeros to that length, they give the second one, filled up in the same way. The changes back are the
same changes, each reversed. From a snapshot to a third one, no address changes that does not change
from the first to the second or from the second to the third. -/
theorem changes_are_exact_and_invertible (before after : Array Int) :
    (changedAt (changes before after)).Pairwise (· < ·) ∧
      (∀ address, address ∈ changedAt (changes before after) ↔
        before.getD address 0 ≠ after.getD address 0) ∧
      (∀ change ∈ changes before after, change.address < max before.size after.size ∧
        change.before = before.getD change.address 0 ∧
        change.after = after.getD change.address 0) ∧
      carriedOut (filledTo (max before.size after.size) before) (changes before after) =
        filledTo (max before.size after.size) after ∧
      changes after before = (changes before after).map Change.reversed ∧
      ∀ third : Array Int, ∀ address ∈ changedAt (changes before third),
        address ∈ changedAt (changes before after) ∨ address ∈ changedAt (changes after third) := by
  refine ⟨changes_ascending before after, mem_changed_at_iff before after, ?_,
    changes_carried_out before after, changes_reversed before after, ?_⟩
  · intro change member
    obtain ⟨sameBefore, sameAfter, differ⟩ := (mem_changes_iff before after change).mp member
    rw [sameBefore, sameAfter] at differ
    exact ⟨differing_inside before after change.address differ, sameBefore, sameAfter⟩
  · intro third address changed
    rw [mem_changed_at_iff] at changed ⊢
    rw [mem_changed_at_iff]
    by_cases early : before.getD address 0 = after.getD address 0
    · right
      rw [← early]
      exact changed
    · exact .inl early

/-- The second snapshot is longer; the zero behind the first one's end is no change, the word after
it is one. The third snapshot is shorter than both. -/
theorem longer_snapshot_is_reached :
    changes #[1, 2, 3] #[1, 5, 3, 0, 4] = [⟨1, 2, 5⟩, ⟨4, 0, 4⟩] ∧
      4 = (#[1, 5, 3, 0, 4] : Array Int).getD 4 0 ∧
      carriedOut #[1, 2, 3, 0, 0] [⟨1, 2, 5⟩, ⟨4, 0, 4⟩] = #[1, 5, 3, 0, 4] ∧
      2 ∈ changedAt (changes #[1, 2, 3] #[1]) ∧
      (2 ∈ changedAt (changes #[1, 2, 3] #[1, 5, 3, 0, 4]) ∨
        2 ∈ changedAt (changes #[1, 5, 3, 0, 4] #[1])) := by
  obtain ⟨_, _, members, carried, _, composed⟩ :=
    changes_are_exact_and_invertible #[1, 2, 3] #[1, 5, 3, 0, 4]
  have listed : changes #[1, 2, 3] #[1, 5, 3, 0, 4] = [⟨1, 2, 5⟩, ⟨4, 0, 4⟩] := by decide
  have shorter : 2 ∈ changedAt (changes #[1, 2, 3] #[1]) := by decide
  rw [listed] at members carried
  exact ⟨listed, (members ⟨4, 0, 4⟩ (by decide)).2.2, carried, shorter,
    composed #[1] 2 shorter⟩

end Intcode.Memory
