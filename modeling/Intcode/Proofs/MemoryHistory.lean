import Intcode.Proofs.MemoryLayout

/-!
# Memory as a history of calls

A memory is made from an image and then changed by calls: writes at any address and patches of the
image. Some calls are refused, and those change nothing. Whatever the gap and the calls, the array
and the map stay apart, the array reaches from the image towards the extent, the extent is one more
than the highest address that was written, and a write takes at most `gap` words more of the array.
-/

set_option autoImplicit false

namespace Intcode.Memory

/-- A call that may change a memory. -/
inductive Call where
  | write (address value : Int)
  | patch (address value : Int)
  deriving DecidableEq, Repr

namespace Call

def address : Call → Int
  | write address _ | patch address _ => address

def value : Call → Int
  | write _ value | patch _ value => value

def isWrite : Call → Bool
  | write _ _ => true
  | patch _ _ => false

end Call

def perform (room : Nat) (memory : Memory) : Call → Except Error Memory
  | .write address value => memory.write room address value
  | .patch address value => memory.patch address value

/-- Performs calls one after the other; a call that is refused changes nothing. -/
def run (room : Nat) (memory : Memory) : List Call → Memory
  | [] => memory
  | call :: calls =>
      match memory.perform room call with
      | .ok next => next.run room calls
      | .error _ => memory.run room calls

/-- The calls of a run that are not refused. -/
def accepted (room : Nat) (memory : Memory) : List Call → List Call
  | [] => []
  | call :: calls =>
      match memory.perform room call with
      | .ok next => call :: next.accepted room calls
      | .error _ => memory.accepted room calls

variable {room : Nat}

/-! ## One call -/

/-- Whatever kind of call it is, one that is accepted sets a word, and a patch sets it inside the
image. -/
theorem perform_accepted (memory next : Memory) (laidOut : memory.LaidOut) (call : Call)
    (performed : memory.perform room call = .ok next) :
    0 ≤ call.address ∧ next = memory.set call.address.toNat call.value ∧
      (call.isWrite = false → call.address < memory.imageSize) := by
  cases call with
  | write address value =>
      simp only [perform, write] at performed
      by_cases negative : address < 0
      · rw [if_pos negative] at performed
        exact absurd performed (by simp)
      · rw [if_neg negative] at performed
        refine ⟨Int.not_lt.mp negative, ?_, by simp [Call.isWrite]⟩
        by_cases grows : memory.Grows address.toNat
        · rw [if_pos grows] at performed
          cases reserved : reserve room (address.toNat - memory.dense.size + 1) with
          | error error => simp [reserved, bind, Except.bind] at performed
          | ok _ =>
              simp [reserved, bind, Except.bind, pure, Except.pure] at performed
              exact performed.symm
        · rw [if_neg grows] at performed
          exact (Except.ok.inj performed).symm
  | patch address value =>
      simp only [perform, patch_eq memory laidOut] at performed
      by_cases inside : 0 ≤ address ∧ address < memory.imageSize
      · rw [if_pos inside] at performed
        exact ⟨inside.1, (Except.ok.inj performed).symm, fun _ => inside.2⟩
      · rw [if_neg inside] at performed
        exact absurd performed (by simp)

/-- Growth within the room there is never fails, so that writes fail at negative addresses only. -/
theorem write_accepted (memory : Memory) (address value : Int) (nonnegative : 0 ≤ address)
    (enough : memory.gap ≤ room) (single : memory.gap ≤ pieceLimit) :
    memory.write room address value = .ok (memory.set address.toNat value) := by
  unfold write
  rw [if_neg (Int.not_lt.mpr nonnegative)]
  by_cases grows : memory.Grows address.toNat
  · obtain ⟨behind, close⟩ := grows
    have fits : address.toNat - memory.dense.size + 1 ≤ min room pieceLimit := by omega
    have reserved : reserve room (address.toNat - memory.dense.size + 1) = .ok () := by
      have countable : pieceLimit ≤ countLimit := by decide
      unfold reserve
      rw [if_neg (by omega), if_neg (by omega)]
    rw [if_pos ⟨behind, close⟩, reserved]
    rfl
  · rw [if_neg grows]

/-! ## Runs -/

theorem run_cons_accepted (memory next : Memory) (call : Call) (calls : List Call)
    (performed : memory.perform room call = .ok next) :
    memory.run room (call :: calls) = next.run room calls := by
  rw [run, performed]

theorem run_cons_refused (memory : Memory) (call : Call) (calls : List Call) (error : Error)
    (performed : memory.perform room call = .error error) :
    memory.run room (call :: calls) = memory.run room calls := by
  rw [run, performed]

theorem accepted_cons_accepted (memory next : Memory) (call : Call) (calls : List Call)
    (performed : memory.perform room call = .ok next) :
    memory.accepted room (call :: calls) = call :: next.accepted room calls := by
  rw [accepted, performed]

theorem accepted_cons_refused (memory : Memory) (call : Call) (calls : List Call) (error : Error)
    (performed : memory.perform room call = .error error) :
    memory.accepted room (call :: calls) = memory.accepted room calls := by
  rw [accepted, performed]

theorem run_append (memory : Memory) (earlier later : List Call) :
    memory.run room (earlier ++ later) = (memory.run room earlier).run room later := by
  induction earlier generalizing memory with
  | nil => rfl
  | cons call earlier ih =>
      cases performed : memory.perform room call with
      | ok next =>
          rw [List.cons_append, run_cons_accepted _ _ _ _ performed,
            run_cons_accepted _ _ _ _ performed, ih]
      | error error =>
          rw [List.cons_append, run_cons_refused _ _ _ _ performed,
            run_cons_refused _ _ _ _ performed, ih]

theorem accepted_append (memory : Memory) (earlier later : List Call) :
    memory.accepted room (earlier ++ later) =
      memory.accepted room earlier ++ (memory.run room earlier).accepted room later := by
  induction earlier generalizing memory with
  | nil => rfl
  | cons call earlier ih =>
      cases performed : memory.perform room call with
      | ok next =>
          rw [List.cons_append, accepted_cons_accepted _ _ _ _ performed,
            accepted_cons_accepted _ _ _ _ performed, run_cons_accepted _ _ _ _ performed, ih,
            List.cons_append]
      | error error =>
          rw [List.cons_append, accepted_cons_refused _ _ _ _ performed,
            accepted_cons_refused _ _ _ _ performed, run_cons_refused _ _ _ _ performed, ih]

/-- Induction along a run from a memory that is laid out: a refused call is passed over, and an
accepted one sets a word. -/
theorem run_induction (room : Nat) {motive : Memory → List Call → Prop}
    (nil : ∀ memory : Memory, memory.LaidOut → motive memory [])
    (refused : ∀ (memory : Memory) (call : Call) (calls : List Call) (error : Error),
      memory.LaidOut → memory.perform room call = .error error →
        motive memory calls → motive memory (call :: calls))
    (set : ∀ (memory : Memory) (call : Call) (calls : List Call),
      memory.LaidOut → 0 ≤ call.address →
        (call.isWrite = false → call.address < memory.imageSize) →
        memory.perform room call = .ok (memory.set call.address.toNat call.value) →
        motive (memory.set call.address.toNat call.value) calls → motive memory (call :: calls))
    (memory : Memory) (calls : List Call) (laidOut : memory.LaidOut) : motive memory calls := by
  induction calls generalizing memory with
  | nil => exact nil memory laidOut
  | cons call calls ih =>
      cases performed : memory.perform room call with
      | error error => exact refused memory call calls error laidOut performed (ih memory laidOut)
      | ok next =>
          obtain ⟨nonnegative, result, inside⟩ :=
            perform_accepted memory next laidOut call performed
          subst result
          exact set memory call calls laidOut nonnegative inside performed
            (ih _ (set_laid_out memory laidOut _ _))

/-! ## The layout after a run -/

theorem run_laid_out (room : Nat) (memory : Memory) (calls : List Call) (laidOut : memory.LaidOut) :
    (memory.run room calls).LaidOut := by
  refine run_induction room (motive := fun memory calls => (memory.run room calls).LaidOut)
    ?_ ?_ ?_ memory calls laidOut
  · intro memory laidOut
    exact laidOut
  · intro memory call calls error _ performed ih
    rw [run_cons_refused _ _ _ _ performed]
    exact ih
  · intro memory call calls _ _ _ performed ih
    rw [run_cons_accepted _ _ _ _ performed]
    exact ih

theorem run_constants (memory : Memory) (calls : List Call) (laidOut : memory.LaidOut) :
    (memory.run room calls).imageSize = memory.imageSize ∧
      (memory.run room calls).gap = memory.gap := by
  refine run_induction room (motive := fun memory calls =>
    (memory.run room calls).imageSize = memory.imageSize ∧ (memory.run room calls).gap = memory.gap)
    ?_ ?_ ?_ memory calls laidOut
  · intro memory _
    exact ⟨rfl, rfl⟩
  · intro memory call calls error _ performed ih
    rw [run_cons_refused _ _ _ _ performed]
    exact ih
  · intro memory call calls _ _ _ performed ih
    rw [run_cons_accepted _ _ _ _ performed]
    simpa using ih

/-- The addresses that the accepted writes of a run are at, in order. -/
def written (room : Nat) (memory : Memory) (calls : List Call) : List Nat :=
  ((memory.accepted room calls).filter Call.isWrite).map fun call => call.address.toNat

/-- Only writes move the extent: a patch lies below it. -/
theorem run_extent (memory : Memory) (calls : List Call) (laidOut : memory.LaidOut) :
    (memory.run room calls).extent =
      ((memory.written room calls).map fun address => address + 1).foldl max memory.extent := by
  refine run_induction room (motive := fun memory calls => (memory.run room calls).extent =
    ((memory.written room calls).map fun address => address + 1).foldl max memory.extent)
    ?_ ?_ ?_ memory calls laidOut
  · intro memory _
    rfl
  · intro memory call calls error _ performed ih
    unfold written at ih ⊢
    rw [run_cons_refused _ _ _ _ performed, accepted_cons_refused _ _ _ _ performed, ih]
  · intro memory call calls laidOut nonnegative inside performed ih
    unfold written at ih ⊢
    rw [run_cons_accepted _ _ _ _ performed, accepted_cons_accepted _ _ _ _ performed, ih,
      set_extent]
    cases kind : call.isWrite with
    | true => simp [kind]
    | false =>
        have below : max memory.extent (call.address.toNat + 1) = memory.extent := by
          have imageInside := laidOut.imageInside
          have arrayInside := laidOut.arrayInside
          have patched := inside kind
          omega
        simp [kind, below]

theorem le_foldl_max (values : List Nat) (start : Nat) : start ≤ values.foldl max start := by
  induction values generalizing start with
  | nil => exact Nat.le_refl start
  | cons value values ih => exact Nat.le_trans (Nat.le_max_left start value) (ih _)

/-- A write takes at most `gap` words more, and a patch none. -/
theorem run_size_le (memory : Memory) (calls : List Call) (laidOut : memory.LaidOut) :
    ((memory.run room calls).dense.size : Int) ≤
      memory.dense.size + calls.countP Call.isWrite * max memory.gap 0 := by
  refine run_induction room (motive := fun memory calls =>
      ((memory.run room calls).dense.size : Int) ≤
        memory.dense.size + calls.countP Call.isWrite * max memory.gap 0)
    ?_ ?_ ?_ memory calls laidOut
  · intro memory _
    simp [run]
  · intro memory call calls error _ performed ih
    have more : (calls.countP Call.isWrite : Int) ≤ (call :: calls).countP Call.isWrite := by
      rw [List.countP_cons]
      omega
    have scaled := Int.mul_le_mul_of_nonneg_right more (Int.le_max_right memory.gap 0)
    rw [run_cons_refused _ _ _ _ performed]
    omega
  · intro memory call calls laidOut nonnegative inside performed ih
    rw [run_cons_accepted _ _ _ _ performed, List.countP_cons]
    rw [set_gap, set_size] at ih
    cases kind : call.isWrite with
    | true =>
        rw [if_pos rfl, Int.natCast_add, Int.add_mul]
        split_ifs at ih with grows
        · obtain ⟨behind, close⟩ := grows
          omega
        · omega
    | false =>
        have stays : ¬ memory.Grows call.address.toNat := by
          intro grows
          have imageInside := laidOut.imageInside
          have patched := inside kind
          have behind := grows.1
          omega
        rw [if_neg stays] at ih
        simpa using ih

/-- After every sequence of calls on a fresh memory, whatever its image and gap and the room there
is, the map begins
behind the array and ends before the extent, the array reaches from the image to the extent at most
and has grown by at most `gap` words for each write, the size of the image is what it was, and the
extent is one more than the highest address that the image holds or that was written. -/
theorem every_history_is_laid_out (room : Nat) (gap : Int) (image : List Int)
    (calls : List Call) :
    let start := ofImageWithGap gap image
    let memory := start.run room calls
    (∀ key ∈ memory.sparse, memory.dense.size ≤ key ∧ key < memory.extent) ∧
      memory.imageSize ≤ memory.dense.size ∧
      memory.dense.size ≤ memory.extent ∧
      memory.imageSize = image.length ∧
      memory.extent =
        ((start.written room calls).map fun address => address + 1).foldl max image.length ∧
      (∀ later, memory.extent ≤ (start.run room (calls ++ later)).extent) ∧
      (memory.dense.size : Int) ≤
        image.length + calls.countP Call.isWrite * max gap 0 := by
  intro start memory
  have fresh : start.LaidOut := of_image_laid_out gap image
  have laidOut : memory.LaidOut := run_laid_out room start calls fresh
  refine ⟨?_, laidOut.imageInside, laidOut.arrayInside, ?_, ?_, ?_, ?_⟩
  · intro key member
    exact ⟨laidOut.keyBehind key member, laidOut.keyBefore key member⟩
  · exact (run_constants start calls fresh).1
  · exact run_extent start calls fresh
  · intro later
    rw [run_append, run_extent memory later laidOut]
    exact le_foldl_max _ _
  · exact run_size_le start calls fresh

end Intcode.Memory
