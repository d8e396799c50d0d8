import Mathlib.Tactic.SplitIfs
import Std.Data.TreeMap.Lemmas
import Intcode.Memory

/-!
# How memory is laid out

The array and the map share the addresses between them: every key of the map lies behind the array
and before the extent. As long as that holds, a write has one equation for each thing that can be
asked of a memory afterwards: the word at an address, the size of the array, the keys of the map and
the extent. Patching a word of the image is such a write, too.

The one irregular write extends the array over a word that the map already holds at the very address
written: there the word of the map stays, and the new one is lost.
-/

set_option autoImplicit false

namespace Intcode.Memory

/-- The array reaches from the image to the extent at most, and the map begins behind the array. -/
structure LaidOut (memory : Memory) : Prop where
  imageInside : memory.imageSize ≤ memory.dense.size
  arrayInside : memory.dense.size ≤ memory.extent
  keyBehind : ∀ key ∈ memory.sparse, memory.dense.size ≤ key
  keyBefore : ∀ key ∈ memory.sparse, key < memory.extent

theorem of_image_laid_out (gap : Int) (image : List Int) :
    (ofImageWithGap gap image).LaidOut where
  imageInside := by simp [ofImageWithGap]
  arrayInside := by simp [ofImageWithGap]
  keyBehind := by
    intro key member
    exact absurd member Std.TreeMap.not_mem_emptyc
  keyBefore := by
    intro key member
    exact absurd member Std.TreeMap.not_mem_emptyc

theorem get_inside (memory : Memory) (address : Nat)
    (inside : address < memory.dense.size) :
    memory.get address = memory.dense[address] := by
  rw [get, dif_pos inside]

theorem get_behind (memory : Memory) (address : Nat)
    (behind : memory.dense.size ≤ address) :
    memory.get address = memory.sparse.getD address 0 := by
  rw [get, dif_neg (Nat.not_lt.mpr behind)]

/-- The array is asked first, then the map, and zero is what neither holds. -/
theorem get_eq (memory : Memory) (address : Nat) :
    memory.get address = (memory.dense[address]?).getD (memory.sparse.getD address 0) := by
  by_cases inside : address < memory.dense.size
  · simp [get_inside, inside]
  · simp [get_behind, Nat.not_lt.mp inside]

theorem get_of_image (gap : Int) (image : List Int) (address : Nat) :
    (ofImageWithGap gap image).get address = image.getD address 0 := by
  rw [get_eq]
  simp [ofImageWithGap]

/-! ## Laying the words of a map over an array -/

theorem overlay_list_size (entries : List (Nat × Int)) (words : Array Int) :
    (entries.foldl (fun words entry => words.setIfInBounds entry.1 entry.2) words).size =
      words.size := by
  induction entries generalizing words with
  | nil => rfl
  | cons entry entries ih =>
      rw [List.foldl_cons, ih, Array.size_setIfInBounds]

theorem overlay_list_elsewhere (entries : List (Nat × Int)) (words : Array Int) (address : Nat)
    (elsewhere : ∀ entry ∈ entries, entry.1 ≠ address) :
    (entries.foldl (fun words entry => words.setIfInBounds entry.1 entry.2) words)[address]? =
      words[address]? := by
  induction entries generalizing words with
  | nil => rfl
  | cons entry entries ih =>
      have other : entry.1 ≠ address := elsewhere entry (by simp)
      rw [List.foldl_cons, ih _ (by intro later member; exact elsewhere later (by simp [member])),
        Array.getElem?_setIfInBounds_ne other]

/-- Keys occur once, so the entry of an address decides, wherever it stands in the list. -/
theorem overlay_list_at (entries : List (Nat × Int)) (words : Array Int) (address : Nat)
    (word : Int) (distinct : entries.Pairwise fun left right => left.1 ≠ right.1)
    (member : (address, word) ∈ entries) (inside : address < words.size) :
    (entries.foldl (fun words entry => words.setIfInBounds entry.1 entry.2) words)[address]? =
      some word := by
  induction entries generalizing words with
  | nil => simp at member
  | cons entry entries ih =>
      rw [List.foldl_cons]
      rw [List.pairwise_cons] at distinct
      rcases List.mem_cons.mp member with same | later
      · subst same
        rw [overlay_list_elsewhere _ _ _
          (by intro later member; exact (distinct.1 later member).symm)]
        rw [Array.getElem?_setIfInBounds_self_of_lt inside]
      · exact ih _ distinct.2 later (by simpa using inside)

theorem overlay_size (sparse : Std.TreeMap Nat Int) (words : Array Int) :
    (sparse.foldl (fun words key word => words.setIfInBounds key word) words).size =
      words.size := by
  rw [Std.TreeMap.foldl_eq_foldl_toList]
  exact overlay_list_size _ _

theorem overlay_get (sparse : Std.TreeMap Nat Int) (words : Array Int) (address : Nat)
    (inside : address < words.size) :
    (sparse.foldl (fun words key word => words.setIfInBounds key word) words)[address]? =
      some (sparse.getD address words[address]) := by
  rw [Std.TreeMap.foldl_eq_foldl_toList, Std.TreeMap.getD_eq_getD_getElem?]
  cases found : sparse[address]? with
  | none =>
      rw [overlay_list_elsewhere]
      · simp [inside]
      · intro entry member same
        have held := Std.TreeMap.mem_toList_iff_getElem?_eq_some.mp member
        rw [same, found] at held
        exact absurd held (by simp)
  | some word =>
      have distinct := Std.TreeMap.distinct_keys_toList (t := sparse)
      rw [overlay_list_at _ _ _ word]
      · rfl
      · exact distinct.imp (by intro left right apart same; simp [same] at apart)
      · exact Std.TreeMap.mem_toList_iff_getElem?_eq_some.mpr found
      · exact inside

/-! ## Writes, one observation at a time -/

/-- A write at this address is lost: it extends the array over a word that the map holds at the same
address, and that word is the one that stays. -/
def Loses (memory : Memory) (address : Nat) : Prop :=
  memory.Grows address ∧ address ∈ memory.sparse

instance (memory : Memory) (address : Nat) : Decidable (memory.Loses address) :=
  inferInstanceAs (Decidable (_ ∧ _))

theorem grow_size (memory : Memory) (address : Nat) (value : Int)
    (behind : memory.dense.size ≤ address) :
    (memory.grow address value).dense.size = address + 1 := by
  unfold grow
  rw [overlay_size]
  simp
  omega

/-- The array that a growing write starts from: the old words, zeros, and the word itself. -/
private theorem grown_get (words : Array Int) (address other : Nat) (value : Int)
    (behind : words.size ≤ address) (inside : other < address + 1) :
    ((words ++ Array.replicate (address - words.size) 0).push value)[other]? =
      some (if other = address then value else words.getD other 0) := by
  have size : (words ++ Array.replicate (address - words.size) (0 : Int)).size = address := by
    simp
    omega
  rw [Array.getElem?_push, size]
  by_cases last : other = address
  · rw [if_pos last, if_pos last]
  · rw [if_neg last, if_neg last]
    by_cases old : other < words.size
    · rw [Array.getElem?_append_left old]
      simp [old]
    · have within : other - words.size < address - words.size := by omega
      rw [Array.getElem?_append_right (Nat.not_lt.mp old),
        Array.getElem?_replicate, if_pos within]
      simp [Nat.not_lt.mp old]

theorem get_grow (memory : Memory) (laidOut : memory.LaidOut) (address other : Nat) (value : Int)
    (behind : memory.dense.size ≤ address) :
    (memory.grow address value).get other =
      if other = address then memory.sparse.getD address value else memory.get other := by
  have size := grow_size memory address value behind
  by_cases inside : other < address + 1
  · have found : (memory.grow address value).dense[other]? =
        some (memory.sparse.getD other
          (if other = address then value else memory.dense.getD other 0)) := by
      have grownInside : other <
          ((memory.dense ++ Array.replicate (address - memory.dense.size) 0).push value).size := by
        simp
        omega
      have start := grown_get memory.dense address other value behind inside
      rw [Array.getElem?_eq_getElem grownInside] at start
      unfold grow
      rw [overlay_get _ _ _ grownInside, Option.some.inj start]
    rw [get_eq, found, Option.getD_some]
    by_cases same : other = address
    · simp [same]
    · rw [if_neg same, if_neg same]
      by_cases old : other < memory.dense.size
      · -- A word of the old array has no rival in the map.
        have absent : other ∉ memory.sparse := by
          intro member
          exact absurd (laidOut.keyBehind other member) (Nat.not_le.mpr old)
        rw [Std.TreeMap.getD_eq_fallback absent, get_inside _ _ old]
        simp [old]
      · rw [get_behind _ _ (Nat.not_lt.mp old)]
        simp [Nat.not_lt.mp old]
  · have behindBoth : memory.dense.size ≤ other := by omega
    rw [get_behind _ _ (by rw [size]; omega), if_neg (by omega), get_behind _ _ behindBoth]
    have kept : decide (address < other) = true := by simp; omega
    unfold grow
    rw [Std.TreeMap.getD_filter', Std.TreeMap.getD_eq_getD_getElem?]
    cases memory.sparse[other]? <;> simp [Option.filter, kept]

/-- The three ways of writing a word: in the array, at the array's new end, and in the map. -/
theorem set_cases (memory : Memory) (address : Nat) (value : Int) :
    (address < memory.dense.size ∧ ¬ memory.Grows address ∧
      memory.set address value =
        { memory with
          dense := memory.dense.setIfInBounds address value
          extent := max memory.extent (address + 1) }) ∨
    (memory.Grows address ∧
      memory.set address value =
        { memory.grow address value with extent := max memory.extent (address + 1) }) ∨
    (memory.dense.size ≤ address ∧ ¬ memory.Grows address ∧
      memory.set address value =
        { memory with
          sparse := memory.sparse.insert address value
          extent := max memory.extent (address + 1) }) := by
  unfold set
  by_cases inside : address < memory.dense.size
  · have stays : ¬ memory.Grows address := by
      intro grows
      exact absurd grows.1 (Nat.not_le.mpr inside)
    exact .inl ⟨inside, stays, by rw [if_pos inside]⟩
  · by_cases grows : memory.Grows address
    · exact .inr (.inl ⟨grows, by rw [if_neg inside, if_pos grows]; rfl⟩)
    · exact .inr (.inr ⟨Nat.not_lt.mp inside, grows, by rw [if_neg inside, if_neg grows]⟩)

/-- Reading after a write: the new word at its address, unless it was lost, and no change anywhere
else. -/
theorem get_set (memory : Memory) (laidOut : memory.LaidOut) (address other : Nat) (value : Int) :
    (memory.set address value).get other =
      if other = address ∧ ¬ memory.Loses address then value else memory.get other := by
  obtain ⟨inside, stays, shape⟩ | ⟨grows, shape⟩ | ⟨behind, stays, shape⟩ :=
    set_cases memory address value
  · have keeps : ¬ memory.Loses address := fun loses => stays loses.1
    rw [shape]
    by_cases same : other = address
    · subst same
      rw [if_pos ⟨rfl, keeps⟩, get_eq, Array.getElem?_setIfInBounds_self_of_lt inside]
      rfl
    · rw [if_neg (by simp [same]), get_eq, get_eq,
        Array.getElem?_setIfInBounds_ne (Ne.symm same)]
  · have behind := grows.1
    rw [shape]
    change (memory.grow address value).get other = _
    rw [get_grow memory laidOut address other value behind]
    by_cases same : other = address
    · subst same
      rw [if_pos rfl]
      by_cases held : other ∈ memory.sparse
      · have loses : memory.Loses other := ⟨grows, held⟩
        obtain ⟨word, found⟩ := Option.isSome_iff_exists.mp
          (Std.TreeMap.mem_iff_isSome_getElem?.mp held)
        rw [if_neg (by simp [loses]), get_behind _ _ behind]
        simp [Std.TreeMap.getD_eq_getD_getElem?, found]
      · have keeps : ¬ memory.Loses other := fun loses => held loses.2
        rw [if_pos ⟨rfl, keeps⟩, Std.TreeMap.getD_eq_fallback held]
    · rw [if_neg same, if_neg (by simp [same])]
  · have keeps : ¬ memory.Loses address := fun loses => stays loses.1
    rw [shape]
    by_cases same : other = address
    · subst same
      rw [if_pos ⟨rfl, keeps⟩, get_eq, Array.getElem?_eq_none behind]
      exact Std.TreeMap.getD_insert_self
    · rw [if_neg (by simp [same]), get_eq, get_eq, Std.TreeMap.getD_insert,
        if_neg (by simpa using Ne.symm same)]

theorem set_size (memory : Memory) (address : Nat) (value : Int) :
    (memory.set address value).dense.size =
      if memory.Grows address then address + 1 else memory.dense.size := by
  obtain ⟨_, stays, shape⟩ | ⟨grows, shape⟩ | ⟨_, stays, shape⟩ :=
    set_cases memory address value
  · rw [shape, if_neg stays]
    exact Array.size_setIfInBounds
  · rw [shape, if_pos grows]
    exact grow_size memory address value grows.1
  · rw [shape, if_neg stays]

/-- The keys of the map after a write: those behind the array that were there or were written. -/
theorem mem_set_sparse (memory : Memory) (laidOut : memory.LaidOut)
    (address other : Nat) (value : Int) :
    other ∈ (memory.set address value).sparse ↔
      (memory.set address value).dense.size ≤ other ∧
        (other = address ∨ other ∈ memory.sparse) := by
  rw [set_size]
  obtain ⟨inside, stays, shape⟩ | ⟨grows, shape⟩ | ⟨behind, stays, shape⟩ :=
    set_cases memory address value
  · rw [shape, if_neg stays]
    constructor
    · intro member
      exact ⟨laidOut.keyBehind other member, .inr member⟩
    · rintro ⟨behind, same | member⟩
      · omega
      · exact member
  · rw [shape, if_pos grows]
    change other ∈ memory.sparse.filter (fun key _ => address < key) ↔ _
    rw [Std.TreeMap.mem_filter]
    simp only [Std.TreeMap.getKey_eq, decide_eq_true_eq, exists_prop]
    constructor
    · rintro ⟨member, above⟩
      exact ⟨above, .inr member⟩
    · rintro ⟨above, same | member⟩
      · omega
      · exact ⟨member, above⟩
  · rw [shape, if_neg stays]
    simp only [Std.TreeMap.mem_insert, Nat.compare_eq_eq]
    constructor
    · rintro (same | member)
      · exact ⟨by omega, .inl same.symm⟩
      · exact ⟨laidOut.keyBehind other member, .inr member⟩
    · rintro ⟨_, same | member⟩
      · exact .inl same.symm
      · exact .inr member

@[simp]
theorem set_extent (memory : Memory) (address : Nat) (value : Int) :
    (memory.set address value).extent = max memory.extent (address + 1) := by
  unfold set
  split_ifs <;> rfl

@[simp]
theorem set_image_size (memory : Memory) (address : Nat) (value : Int) :
    (memory.set address value).imageSize = memory.imageSize := by
  unfold set
  split_ifs <;> rfl

@[simp]
theorem set_gap (memory : Memory) (address : Nat) (value : Int) :
    (memory.set address value).gap = memory.gap := by
  unfold set
  split_ifs <;> rfl

theorem set_laid_out (memory : Memory) (laidOut : memory.LaidOut) (address : Nat) (value : Int) :
    (memory.set address value).LaidOut := by
  have arraySize := set_size memory address value
  have imageInside := laidOut.imageInside
  have arrayInside := laidOut.arrayInside
  refine ⟨?_, ?_, ?_, ?_⟩
  · rw [set_image_size, arraySize]
    split_ifs with grows
    · have behind := grows.1
      omega
    · exact imageInside
  · rw [set_extent, arraySize]
    split_ifs <;> omega
  · intro key member
    exact ((mem_set_sparse memory laidOut address key value).mp member).1
  · intro key member
    rw [set_extent]
    rcases ((mem_set_sparse memory laidOut address key value).mp member).2 with same | old
    · omega
    · have before := laidOut.keyBefore key old
      omega

/-! ## All words up to the extent -/

theorem get_beyond (memory : Memory) (laidOut : memory.LaidOut) (address : Nat)
    (beyond : memory.extent ≤ address) : memory.get address = 0 := by
  have behind : memory.dense.size ≤ address :=
    Nat.le_trans laidOut.arrayInside beyond
  have absent : address ∉ memory.sparse := by
    intro member
    exact absurd (laidOut.keyBefore address member) (Nat.not_lt.mpr beyond)
  rw [get_behind memory address behind, Std.TreeMap.getD_eq_fallback absent]

/-- The array filled up with zeros to the extent, before the words of the map are laid over it. -/
theorem filled_get (words : Array Int) (size address : Nat)
    (inside : address < (words ++ Array.replicate size 0).size) :
    (words ++ Array.replicate size 0)[address] = words.getD address 0 := by
  by_cases old : address < words.size
  · rw [Array.getElem_append_left old]
    simp [old]
  · rw [Array.getElem_append_right (Nat.not_lt.mp old), Array.getElem_replicate]
    simp [Nat.not_lt.mp old]

theorem words_size (memory : Memory) (laidOut : memory.LaidOut) :
    memory.words.size = memory.extent := by
  have arrayInside := laidOut.arrayInside
  unfold words
  split
  · rw [overlay_size]
    simp
    omega
  · omega

/-- Every word of memory is the one that is read at its address. -/
theorem words_get (memory : Memory) (laidOut : memory.LaidOut) (address : Nat)
    (inside : address < memory.extent) : memory.words[address]? = some (memory.get address) := by
  have arrayInside := laidOut.arrayInside
  unfold words
  by_cases longer : memory.dense.size < memory.extent
  · have filledInside : address <
        (memory.dense ++ Array.replicate (memory.extent - memory.dense.size) (0 : Int)).size := by
      simp
      omega
    rw [if_pos longer, overlay_get _ _ _ filledInside, filled_get]
    by_cases old : address < memory.dense.size
    · have absent : address ∉ memory.sparse := by
        intro member
        exact absurd (laidOut.keyBehind address member) (Nat.not_le.mpr old)
      rw [Std.TreeMap.getD_eq_fallback absent, get_inside _ _ old]
      simp [old]
    · rw [get_behind _ _ (Nat.not_lt.mp old)]
      simp [Nat.not_lt.mp old]
  · have old : address < memory.dense.size := by omega
    rw [if_neg longer, get_inside _ _ old, Array.getElem?_eq_getElem old]

theorem snapshot_eq (room : Nat) (memory : Memory) :
    memory.snapshot room =
      (reserve room (memory.extent - memory.dense.size)).map fun _ => memory.words := by
  unfold snapshot
  cases reserve room (memory.extent - memory.dense.size) <;> rfl

/-- Words that can be counted are copied if there is room, and only that can be missing. -/
theorem snapshot_of_counted (room : Nat) (memory : Memory)
    (counted : memory.extent ≤ countLimit) :
    memory.snapshot room =
      if memory.extent - memory.dense.size ≤ min room pieceLimit then .ok memory.words
      else .error .noRoom := by
  rw [snapshot_eq, reserve, if_neg (by omega)]
  by_cases fits : memory.extent - memory.dense.size ≤ min room pieceLimit
  · rw [if_neg (Nat.not_lt.mpr fits), if_pos fits]
    rfl
  · rw [if_pos (Nat.not_le.mp fits), if_neg fits]
    rfl

/-- Patching a word of the image is writing it. -/
theorem patch_eq (memory : Memory) (laidOut : memory.LaidOut) (address value : Int) :
    memory.patch address value =
      if 0 ≤ address ∧ address < memory.imageSize then .ok (memory.set address.toNat value)
      else .error (Error.outsideImage address memory.imageSize).raised := by
  unfold patch
  by_cases inside : 0 ≤ address ∧ address < memory.imageSize
  · have imageInside := laidOut.imageInside
    have arrayInside := laidOut.arrayInside
    have reached : address.toNat < memory.dense.size := by omega
    have extent : max memory.extent (address.toNat + 1) = memory.extent := by omega
    rw [if_neg (by omega), if_pos inside]
    unfold set
    simp only [if_pos reached, extent]
  · rw [if_pos (by omega), if_neg inside]

end Intcode.Memory
