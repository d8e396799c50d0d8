import Intcode.Proofs.MemoryHistory

/-!
# What memory reads as

A plain map from addresses to words would read, at each address, as the word of the last accepted
call there, or as the image. Memory does so at every address except where its last write was
overruled: a write that repeats an earlier one behind the array, and comes when the array has grown
close enough to be extended over that address, leaves the earlier word in place. The condition is
exact, and it speaks of the history and of the end of the array, not of where the words are kept.
-/

set_option autoImplicit false

namespace Intcode.Memory

/-- The word a plain map has at an address: that of the last call there, or else that of the image,
which is followed by zeros. -/
def lastWord (image : List Int) (calls : List Call) (address : Nat) : Int :=
  match calls.reverse.find? fun call => call.address = (address : Int) with
  | some call => call.value
  | none => image.getD address 0

/-- The last accepted call at the address is a write that came after an earlier accepted call there,
when the array ended at or before the address and not further than the gap from it, and it brought a
word other than the one that was there. -/
def Overruled (room : Nat) (start : Memory) (calls : List Call) (address : Nat) : Prop :=
  ∃ (before : List Call) (value : Int) (later : List Call) (next : Memory),
    calls = before ++ .write address value :: later ∧
    (start.run room before).perform room (.write address value) = .ok next ∧
    (start.run room before).Grows address ∧
    (∃ call ∈ start.accepted room before, call.address = address) ∧
    (start.run room before).get address ≠ value ∧
    ∀ call ∈ next.accepted room later, call.address ≠ address

variable {room : Nat}

theorem read_natural (memory : Memory) (address : Nat) :
    memory.read address = .ok (memory.get address) := by
  simp [read]

private theorem find_last_elsewhere (calls : List Call) (address : Nat)
    (elsewhere : ∀ call ∈ calls, call.address ≠ address) :
    (calls.reverse.find? fun call => call.address = (address : Int)) = none := by
  rw [List.find?_eq_none]
  intro call member
  simpa using elsewhere call (List.mem_reverse.mp member)

theorem last_word_elsewhere (image : List Int) (calls : List Call) (address : Nat)
    (elsewhere : ∀ call ∈ calls, call.address ≠ address) :
    lastWord image calls address = image.getD address 0 := by
  rw [lastWord, find_last_elsewhere calls address elsewhere]

theorem last_word_at (image : List Int) (earlier later : List Call) (call : Call) (address : Nat)
    (here : call.address = address) (elsewhere : ∀ call ∈ later, call.address ≠ address) :
    lastWord image (earlier ++ call :: later) address = call.value := by
  have missing := find_last_elsewhere later address elsewhere
  rw [lastWord, List.reverse_append, List.reverse_cons, List.append_assoc, List.find?_append,
    missing]
  simp [here]

/-- An address that no accepted call is at keeps its word. -/
theorem get_run_elsewhere (memory : Memory) (calls : List Call) (laidOut : memory.LaidOut)
    (address : Nat) :
    (∀ call ∈ memory.accepted room calls, call.address ≠ address) →
      (memory.run room calls).get address = memory.get address := by
  refine run_induction room (motive := fun memory calls =>
    (∀ call ∈ memory.accepted room calls, call.address ≠ address) →
      (memory.run room calls).get address = memory.get address) ?_ ?_ ?_ memory calls laidOut
  · intro memory _ _
    rfl
  · intro memory call calls error _ performed ih elsewhere
    rw [accepted_cons_refused _ _ _ _ performed] at elsewhere
    rw [run_cons_refused _ _ _ _ performed, ih elsewhere]
  · intro memory call calls laidOut nonnegative _ performed ih elsewhere
    rw [accepted_cons_accepted _ _ _ _ performed] at elsewhere
    have other : call.address ≠ address := elsewhere call (by simp)
    rw [run_cons_accepted _ _ _ _ performed,
      ih (by intro later member; exact elsewhere later (by simp [member])),
      get_set memory laidOut, if_neg (by omega)]

theorem run_size_mono (room : Nat) (memory : Memory) (calls : List Call)
    (laidOut : memory.LaidOut) :
    memory.dense.size ≤ (memory.run room calls).dense.size := by
  refine run_induction room (motive := fun memory calls =>
    memory.dense.size ≤ (memory.run room calls).dense.size) ?_ ?_ ?_ memory calls laidOut
  · intro memory _
    exact Nat.le_refl _
  · intro memory call calls error _ performed ih
    rw [run_cons_refused _ _ _ _ performed]
    exact ih
  · intro memory call calls _ _ _ performed ih
    rw [run_cons_accepted _ _ _ _ performed]
    rw [set_size] at ih
    split_ifs at ih with grows
    · have behind := grows.1
      omega
    · exact ih

/-- The map holds exactly the addresses behind the array that were set. -/
theorem mem_run_sparse (memory : Memory) (calls : List Call) (laidOut : memory.LaidOut)
    (address : Nat) :
    address ∈ (memory.run room calls).sparse ↔
      (memory.run room calls).dense.size ≤ address ∧
        (address ∈ memory.sparse ∨
          ∃ call ∈ memory.accepted room calls, call.address = address) := by
  refine run_induction room (motive := fun memory calls =>
      address ∈ (memory.run room calls).sparse ↔
        (memory.run room calls).dense.size ≤ address ∧
          (address ∈ memory.sparse ∨ ∃ call ∈ memory.accepted room calls, call.address = address))
    ?_ ?_ ?_ memory calls laidOut
  · intro memory laidOut
    simp only [run, accepted, List.not_mem_nil, false_and, exists_false, or_false]
    exact ⟨fun member => ⟨laidOut.keyBehind address member, member⟩, fun both => both.2⟩
  · intro memory call calls error _ performed ih
    rw [run_cons_refused _ _ _ _ performed, accepted_cons_refused _ _ _ _ performed, ih]
  · intro memory call calls laidOut nonnegative _ performed ih
    have grown := run_size_mono room _ calls
      (set_laid_out memory laidOut call.address.toNat call.value)
    rw [run_cons_accepted _ _ _ _ performed, accepted_cons_accepted _ _ _ _ performed, ih,
      mem_set_sparse memory laidOut]
    have same : address = call.address.toNat ↔ call.address = address := by omega
    simp only [List.mem_cons, exists_eq_or_imp, same]
    constructor
    · rintro ⟨behind, ⟨_, here | held⟩ | later⟩
      · exact ⟨behind, .inr (.inl here)⟩
      · exact ⟨behind, .inl held⟩
      · exact ⟨behind, .inr (.inr later)⟩
    · rintro ⟨behind, held | here | later⟩
      · exact ⟨behind, .inl ⟨by omega, .inr held⟩⟩
      · exact ⟨behind, .inl ⟨by omega, .inl here⟩⟩
      · exact ⟨behind, .inr later⟩

/-- The last accepted call at an address splits the run that made it. -/
theorem last_call_at (memory : Memory) (calls : List Call) (laidOut : memory.LaidOut)
    (address : Nat) :
    (∃ call ∈ memory.accepted room calls, call.address = address) →
      ∃ (before : List Call) (call : Call) (later : List Call) (next : Memory),
        calls = before ++ call :: later ∧ (memory.run room before).perform room call = .ok next ∧
        call.address = address ∧ ∀ call ∈ next.accepted room later, call.address ≠ address := by
  refine run_induction room (motive := fun memory calls =>
    (∃ call ∈ memory.accepted room calls, call.address = address) →
      ∃ (before : List Call) (call : Call) (later : List Call) (next : Memory),
        calls = before ++ call :: later ∧ (memory.run room before).perform room call = .ok next ∧
        call.address = address ∧ ∀ call ∈ next.accepted room later, call.address ≠ address)
    ?_ ?_ ?_ memory calls laidOut
  · rintro memory _ ⟨call, member, _⟩
    exact absurd member (by simp [accepted])
  · intro memory first calls error _ performed ih touched
    rw [accepted_cons_refused _ _ _ _ performed] at touched
    obtain ⟨before, call, later, next, split, kept, here, elsewhere⟩ := ih touched
    refine ⟨first :: before, call, later, next, by rw [split]; rfl, ?_, here, elsewhere⟩
    rw [run_cons_refused _ _ _ _ performed]
    exact kept
  · intro memory first calls _ _ _ performed ih touched
    rw [accepted_cons_accepted _ _ _ _ performed] at touched
    by_cases again : ∃ call ∈
        (memory.set first.address.toNat first.value).accepted room calls, call.address = address
    · obtain ⟨before, call, later, next, split, kept, here, elsewhere⟩ := ih again
      refine ⟨first :: before, call, later, next, by rw [split]; rfl, ?_, here, elsewhere⟩
      rw [run_cons_accepted _ _ _ _ performed]
      exact kept
    · have here : first.address = address := by
        obtain ⟨call, member, here⟩ := touched
        rcases List.mem_cons.mp member with same | later
        · exact same ▸ here
        · exact absurd ⟨call, later, here⟩ again
      exact ⟨[], first, calls, _, rfl, performed, here,
        fun call member here => again ⟨call, member, here⟩⟩

/-- From the last accepted call at an address on, the address reads as that call left it. -/
theorem get_run_at (gap : Int) (image : List Int) (before later : List Call) (call : Call)
    (next : Memory) (address : Nat)
    (performed : ((ofImageWithGap gap image).run room before).perform room call = .ok next)
    (here : call.address = address)
    (elsewhere : ∀ call ∈ next.accepted room later, call.address ≠ address) :
    ((ofImageWithGap gap image).run room (before ++ call :: later)).get address =
      if ((ofImageWithGap gap image).run room before).Loses address
      then ((ofImageWithGap gap image).run room before).get address
      else call.value := by
  have laidOut := run_laid_out room _ before (of_image_laid_out gap image)
  obtain ⟨_, result, _⟩ := perform_accepted _ next laidOut call performed
  have same : call.address.toNat = address := by omega
  rw [same] at result
  subst result
  rw [run_append, run_cons_accepted _ _ _ _ performed,
    get_run_elsewhere _ later (set_laid_out _ laidOut _ _) address elsewhere,
    get_set _ laidOut]
  by_cases loses : ((ofImageWithGap gap image).run room before).Loses address
  · simp [loses]
  · simp [loses]

/-- A write is lost exactly when it grows the array over an address that was set before. -/
theorem loses_iff (gap : Int) (image : List Int) (before : List Call) (address : Nat) :
    ((ofImageWithGap gap image).run room before).Loses address ↔
      ((ofImageWithGap gap image).run room before).Grows address ∧
        ∃ call ∈ (ofImageWithGap gap image).accepted room before, call.address = address := by
  have fresh : address ∉ (ofImageWithGap gap image).sparse := Std.TreeMap.not_mem_emptyc
  unfold Loses
  rw [mem_run_sparse _ before (of_image_laid_out gap image)]
  constructor
  · rintro ⟨grows, _, held | earlier⟩
    · exact absurd held fresh
    · exact ⟨grows, earlier⟩
  · rintro ⟨grows, earlier⟩
    exact ⟨grows, grows.1, .inr earlier⟩

/-- An overruled write leaves another word than a plain map has. -/
theorem overruled_differs (gap : Int) (image : List Int) (calls : List Call) (address : Nat)
    (overruled : (ofImageWithGap gap image).Overruled room calls address) :
    ((ofImageWithGap gap image).run room calls).get address ≠
      lastWord image ((ofImageWithGap gap image).accepted room calls) address := by
  obtain ⟨before, value, later, next, split, performed, grows, earlier, different, elsewhere⟩ :=
    overruled
  have loses := (loses_iff gap image before address).mpr ⟨grows, earlier⟩
  subst split
  rw [get_run_at gap image before later (.write address value) next address performed rfl elsewhere,
    if_pos loses, accepted_append, accepted_cons_accepted _ next _ _ performed,
    last_word_at image _ _ (.write address value) address rfl elsewhere]
  exact different

/-- Where no write was overruled, memory is the plain map: either the address was never set, or its
last call stands, or it brought the word that was there. -/
theorem not_overruled_agrees (gap : Int) (image : List Int) (calls : List Call) (address : Nat)
    (standing : ¬ (ofImageWithGap gap image).Overruled room calls address) :
    ((ofImageWithGap gap image).run room calls).get address =
      lastWord image ((ofImageWithGap gap image).accepted room calls) address := by
  have fresh := of_image_laid_out gap image
  by_cases touched : ∃ call ∈ (ofImageWithGap gap image).accepted room calls, call.address = address
  · obtain ⟨before, call, later, next, split, performed, here, elsewhere⟩ :=
      last_call_at _ calls fresh address touched
    have laidOut := run_laid_out room _ before fresh
    subst split
    rw [get_run_at gap image before later call next address performed here elsewhere,
      accepted_append, accepted_cons_accepted _ next _ _ performed,
      last_word_at image _ _ call address here elsewhere]
    by_cases loses : ((ofImageWithGap gap image).run room before).Loses address
    · rw [if_pos loses]
      obtain ⟨grows, earlier⟩ := (loses_iff gap image before address).mp loses
      cases call with
      | write target value =>
          have same : target = address := here
          subst same
          by_cases repeated : ((ofImageWithGap gap image).run room before).get address = value
          · exact repeated
          · exact absurd ⟨before, value, later, next, rfl, performed, grows, earlier, repeated,
              elsewhere⟩ standing
      | patch target value =>
          -- The image lies inside the array, where nothing grows.
          have inside := (perform_accepted _ next laidOut _ performed).2.2 rfl
          have imageInside := laidOut.imageInside
          have behind := grows.1
          have same : target = address := here
          simp only [Call.address] at inside
          omega
    · rw [if_neg loses]
  · have elsewhere : ∀ call ∈ (ofImageWithGap gap image).accepted room calls,
        call.address ≠ address := fun call member here => touched ⟨call, member, here⟩
    rw [get_run_elsewhere _ calls fresh address elsewhere, get_of_image,
      last_word_elsewhere image _ address elsewhere]

/-- For every image, gap and sequence of calls, and whatever room there is, memory reads at an
address as a plain map does unless, and only unless, the last write there was overruled; elsewhere
the gap makes no difference. Patches are accepted inside the image and nowhere else, and with a gap
for which there is room so are writes at all addresses from zero on. -/
theorem reads_as_plain_map_iff (room : Nat) (gap : Int) (image : List Int) (calls : List Call) :
    let start := ofImageWithGap gap image
    (∀ address : Nat,
      (start.run room calls).read address =
          .ok (lastWord image (start.accepted room calls) address) ↔
        ¬ start.Overruled room calls address) ∧
      (∀ (otherGap : Int) (address : Nat),
        (ofImageWithGap otherGap image).accepted room calls = start.accepted room calls →
        ¬ start.Overruled room calls address →
        ¬ (ofImageWithGap otherGap image).Overruled room calls address →
          ((ofImageWithGap otherGap image).run room calls).read address =
            (start.run room calls).read address) ∧
      (∀ address value : Int,
        (start.run room calls).patch address value =
          if 0 ≤ address ∧ address < image.length then
            .ok ((start.run room calls).set address.toNat value)
          else .error (Error.outsideImage address image.length).raised) ∧
      (gap ≤ room → gap ≤ pieceLimit → ∀ address value : Int, 0 ≤ address →
        (start.run room calls).write room address value =
          .ok ((start.run room calls).set address.toNat value)) := by
  intro start
  have fresh : start.LaidOut := of_image_laid_out gap image
  obtain ⟨sameImage, sameGap⟩ := run_constants start calls fresh
  refine ⟨?_, ?_, ?_, ?_⟩
  · intro address
    rw [read_natural, Except.ok.injEq]
    constructor
    · intro agrees overruled
      exact overruled_differs gap image calls address overruled agrees
    · exact not_overruled_agrees gap image calls address
  · intro otherGap address sameCalls standing otherStanding
    rw [read_natural, read_natural, not_overruled_agrees gap image calls address standing,
      not_overruled_agrees otherGap image calls address otherStanding, sameCalls]
  · intro address value
    have patching :=
      patch_eq (start.run room calls) (run_laid_out room start calls fresh) address value
    rw [sameImage] at patching
    exact patching
  · intro enough single address value nonnegative
    exact write_accepted _ address value nonnegative (by rw [sameGap]; exact enough)
      (by rw [sameGap]; exact single)

/-- With the default gap, and room for it: a word is written far behind the array, the array grows
towards it, and the word is written again. The second write is accepted and lost. -/
theorem rewritten_far_word_is_stale :
    let start := ofImageWithGap defaultGap [5]
    let calls : List Call := [.write 70000 9, .write 10000 1, .write 70000 3]
    start.accepted 65536 calls = calls ∧
      lastWord [5] (start.accepted 65536 calls) 70000 = 3 ∧
      (start.run 65536 calls).read 70000 = .ok 9 := by
  intro start calls
  have enough : start.gap ≤ (65536 : Nat) := by decide
  have single : start.gap ≤ pieceLimit := by decide
  have first : start.perform 65536 (.write 70000 9) = .ok (start.set 70000 9) :=
    write_accepted start 70000 9 (by decide) enough single
  have second : (start.set 70000 9).perform 65536 (.write 10000 1) =
      .ok ((start.set 70000 9).set 10000 1) :=
    write_accepted _ 10000 1 (by decide) (by simpa using enough) (by simpa using single)
  have third : ((start.set 70000 9).set 10000 1).perform 65536 (.write 70000 3) =
      .ok (((start.set 70000 9).set 10000 1).set 70000 3) :=
    write_accepted _ 70000 3 (by decide) (by simpa using enough) (by simpa using single)
  have fresh : start.LaidOut := of_image_laid_out defaultGap [5]
  have firstLaidOut := set_laid_out start fresh 70000 9
  have secondLaidOut := set_laid_out _ firstLaidOut 10000 1
  have far : ¬ start.Grows 70000 := by decide
  have size : ((start.set 70000 9).set 10000 1).dense.size = 10001 := by
    simp [set_size, Grows, start, ofImageWithGap, defaultGap]
  have held : 70000 ∈ ((start.set 70000 9).set 10000 1).sparse := by
    rw [mem_set_sparse _ firstLaidOut, size, mem_set_sparse _ fresh, set_size, if_neg far]
    exact ⟨by decide, .inr ⟨by decide, .inl rfl⟩⟩
  have loses : ((start.set 70000 9).set 10000 1).Loses 70000 := by
    refine ⟨⟨by rw [size]; decide, ?_⟩, held⟩
    rw [size, set_gap, set_gap]
    decide
  have all : start.accepted 65536 calls = calls := by
    rw [accepted_cons_accepted _ _ _ _ first, accepted_cons_accepted _ _ _ _ second,
      accepted_cons_accepted _ _ _ _ third]
    rfl
  have stale : (start.run 65536 calls).get 70000 = 9 := by
    rw [run_cons_accepted _ _ _ _ first, run_cons_accepted _ _ _ _ second,
      run_cons_accepted _ _ _ _ third, run, get_set _ secondLaidOut, if_neg (by simp [loses]),
      get_set _ firstLaidOut, if_neg (by decide), get_set _ fresh,
      if_pos ⟨rfl, fun lost => far lost.1⟩]
  refine ⟨all, ?_, ?_⟩
  · rw [all]
    decide
  · exact (read_natural _ 70000).trans (congrArg Except.ok stale)

end Intcode.Memory
