import Mathlib.Data.List.Perm.Basic
import Intcode.Chain.Ordering

/-!
# All orderings, by position

The orderings of a list are all its permutations. They come in the order in which the positions of
their items are listed lexicographically, so that equal items count as different: the orderings of
the positions themselves ascend strictly, and those of any other list are read off them. Visiting
the orderings one after the other is folding over the list of them.
-/

set_option autoImplicit false

namespace Intcode.Chain

variable {Item Other Result Failure : Type}

/-! ## Picking one item -/

theorem picks_items (items : List Item) : (picks items).map Prod.fst = items := by
  induction items with
  | nil => rfl
  | cons item items ih =>
      rw [picks, List.map_cons, List.map_map]
      exact congrArg (item :: ·) ih

theorem picks_map (change : Item → Other) (items : List Item) :
    picks (items.map change) =
      (picks items).map fun (picked, others) => (change picked, others.map change) := by
  induction items with
  | nil => rfl
  | cons item items ih => simp [picks, ih, Function.comp_def]

theorem pick_others {items : List Item} {item : Item} {others : List Item}
    (picked : (item, others) ∈ picks items) :
    items.Perm (item :: others) ∧ others.Sublist items := by
  induction items generalizing item others with
  | nil => exact absurd picked (by simp [picks])
  | cons first items ih =>
      rw [picks, List.mem_cons, List.mem_map] at picked
      rcases picked with same | ⟨⟨later, rest⟩, among, same⟩
      · cases same
        exact ⟨.refl _, List.sublist_cons_self first items⟩
      · cases same
        obtain ⟨perm, sublist⟩ := ih among
        exact ⟨(perm.cons first).trans (.swap item first rest), sublist.cons_cons first⟩

theorem pick_of_mem {items : List Item} {item : Item} (member : item ∈ items) :
    ∃ others, (item, others) ∈ picks items := by
  rw [← picks_items items, List.mem_map] at member
  obtain ⟨⟨_, others⟩, picked, rfl⟩ := member
  exact ⟨others, picked⟩

/-! ## Orderings -/

theorem mem_arrangements_iff (items ordering : List Item) :
    ordering ∈ arrangements items.length items ↔ ordering.Perm items := by
  generalize counted : items.length = count
  induction count generalizing items ordering with
  | zero =>
      rw [List.length_eq_zero_iff.mp counted, arrangements, List.mem_singleton, List.perm_nil]
  | succ count ih =>
      rw [arrangements, List.mem_flatMap]
      constructor
      · rintro ⟨⟨item, others⟩, picked, member⟩
        obtain ⟨rest, arranged, rfl⟩ := List.mem_map.mp member
        obtain ⟨perm, _⟩ := pick_others picked
        have fewer : others.length = count := by
          have sameLength := perm.length_eq
          rw [List.length_cons] at sameLength
          omega
        exact (((ih others rest fewer).mp arranged).cons item).trans perm.symm
      · intro perm
        cases ordering with
        | nil =>
            have sameLength := perm.length_eq
            rw [List.length_nil] at sameLength
            omega
        | cons item rest =>
            obtain ⟨others, picked⟩ := pick_of_mem (perm.mem_iff.mp List.mem_cons_self)
            obtain ⟨pickedPerm, _⟩ := pick_others picked
            have restPerm : rest.Perm others := (perm.trans pickedPerm).cons_inv
            have fewer : others.length = count := by
              have sameLength := pickedPerm.length_eq
              rw [List.length_cons] at sameLength
              omega
            refine ⟨(item, others), picked, ?_⟩
            exact List.mem_map_of_mem ((ih others rest fewer).mpr restPerm)

theorem mem_orderings_iff (items ordering : List Item) :
    ordering ∈ orderings items ↔ ordering.Perm items :=
  mem_arrangements_iff items ordering

theorem arrangements_map (change : Item → Other) (count : Nat) (items : List Item) :
    arrangements count (items.map change) =
      (arrangements count items).map (List.map change) := by
  induction count generalizing items with
  | zero => rfl
  | succ count ih =>
      simp only [arrangements, picks_map, List.flatMap_map, List.map_flatMap, ih, List.map_map]
      rfl

/-- Of ascending items, the sequences ascend too. -/
theorem arrangements_ascending (count : Nat) (items : List Nat)
    (ascending : items.Pairwise (· < ·)) :
    (arrangements count items).Pairwise (List.Lex (· < ·)) := by
  induction count generalizing items with
  | zero => exact List.pairwise_singleton _ _
  | succ count ih =>
      rw [arrangements, List.pairwise_flatMap]
      constructor
      · rintro ⟨item, others⟩ picked
        rw [List.pairwise_map]
        apply (ih others (ascending.sublist (pick_others picked).2)).imp
        intro rest later less
        exact .cons less
      · -- Different first items decide, whatever follows them.
        have firsts : (picks items).Pairwise fun pick later => pick.1 < later.1 := by
          rw [← List.pairwise_map, picks_items]
          exact ascending
        apply firsts.imp
        rintro ⟨item, others⟩ ⟨later, laterOthers⟩ less ordering among next amongLater
        obtain ⟨rest, _, rfl⟩ := List.mem_map.mp among
        obtain ⟨laterRest, _, rfl⟩ := List.mem_map.mp amongLater
        exact .rel less

/-- The list of orderings is that of all permutations by position in lexicographic order: there is a
strictly ascending list of all permutations of the positions, and the orderings are the items at
these positions. -/
def ByPosition (items : List Int) (listed : List (List Int)) : Prop :=
  ∃ places : List (List Nat), places.Pairwise (List.Lex (· < ·)) ∧
    (∀ place, place ∈ places ↔ place.Perm (List.range items.length)) ∧
    listed = places.map (List.map fun position => items.getD position 0)

theorem orderings_by_position (items : List Int) : ByPosition items (orderings items) := by
  have positions :
      (List.range items.length).map (fun position => items.getD position 0) = items := by
    apply List.ext_getElem
    · simp
    · intro position _ inside
      simp [inside]
  refine ⟨orderings (List.range items.length), ?_, mem_orderings_iff _, ?_⟩
  · exact arrangements_ascending _ _ List.pairwise_lt_range
  · unfold orderings
    rw [← arrangements_map, positions, List.length_range]

/-! ## Visiting orderings -/

theorem fold_flat_map (step : Result → Other → Except Failure Result) (expand : Item → List Other)
    (items : List Item) (result : Result) :
    (items.flatMap expand).foldlM step result =
      items.foldlM (fun result item => (expand item).foldlM step result) result := by
  induction items generalizing result with
  | nil => rfl
  | cons item items ih =>
      rw [List.flatMap_cons, List.foldlM_append, List.foldlM_cons]
      simp only [ih]

theorem visit_eq (step : Result → List Item → Except Failure Result) (count : Nat)
    (chosen items : List Item) (result : Result) :
    visit step count chosen items result =
      (arrangements count items).foldlM (fun result rest => step result (chosen.reverse ++ rest))
        result := by
  induction count generalizing chosen items result with
  | zero => simp [visit, arrangements]
  | succ count ih =>
      simp only [visit, arrangements, fold_flat_map, List.foldlM_map, ih, List.reverse_cons,
        List.append_assoc, List.singleton_append]

theorem visit_orderings (step : Result → List Item → Except Failure Result) (items : List Item)
    (result : Result) :
    visit step items.length [] items result = (orderings items).foldlM step result :=
  visit_eq step items.length [] items result

end Intcode.Chain
