import Intcode.Proofs.MemoryLayout
import Intcode.Proofs.Sessions

/-!
# Words stay in range

Images may hold any integers, but everything the machine computes is checked, and so is every input.
In every execution, whatever is requested of it, the relative base and the queued inputs therefore
fit a word, and a word of memory that does not fit is one that the image brought, still at its
place. If the image fits, so does all of memory and every output.
-/

set_option autoImplicit false

namespace Intcode

namespace Memory

/-- Every word fits, or is the word that the image has at the same address. -/
def Tame (memory : Memory) (image : List Int) : Prop :=
  ∀ address : Nat, Word.Fits (memory.get address) ∨ image[address]? = some (memory.get address)

theorem of_image_tame (image : List Int) : (ofImage image).Tame image := by
  intro address
  rw [ofImage, get_of_image]
  by_cases inside : address < image.length
  · exact .inr (by simp [inside])
  · refine .inl ?_
    have zero : image.getD address 0 = 0 := by simp [Nat.not_lt.mp inside]
    rw [zero]
    decide

theorem set_tame (memory : Memory) (image : List Int) (laidOut : memory.LaidOut)
    (tame : memory.Tame image) (address : Nat) (value : Int) (fits : Word.Fits value) :
    (memory.set address value).Tame image := by
  intro other
  rw [get_set memory laidOut]
  split
  · exact .inl fits
  · exact tame other

theorem tame_fits (memory : Memory) (image : List Int) (tame : memory.Tame image)
    (imageFits : ∀ word ∈ image, Word.Fits word) (address : Nat) :
    Word.Fits (memory.get address) := by
  rcases tame address with fits | kept
  · exact fits
  · exact imageFits _ (List.mem_of_getElem? kept)

end Memory

/-- The word that an effect brings into memory or into the relative base fits. -/
def Effect.Fits : Effect → Prop
  | store _ value => Word.Fits value
  | rebase base => Word.Fits base
  | await _ | emit _ | jump _ | pass | halt => True

namespace Machine

structure InRange (machine : Machine) (image : List Int) : Prop where
  laidOut : machine.memory.LaidOut
  tame : machine.memory.Tame image
  base : Word.Fits machine.registers.base

theorem boot_in_range (image : List Int) (options : Options) :
    (boot image options).InRange image where
  laidOut := Memory.of_image_laid_out Memory.defaultGap image
  tame := Memory.of_image_tame image
  base := by change Word.Fits 0; decide

theorem in_range_congr (left right : Machine) (image : List Int)
    (memory : left.memory = right.memory) (registers : left.registers.base = right.registers.base)
    (inRange : left.InRange image) : right.InRange image := by
  refine ⟨?_, ?_, ?_⟩
  · exact memory ▸ inRange.laidOut
  · exact memory ▸ inRange.tame
  · exact registers ▸ inRange.base

theorem effect_fits (machine : Machine) (instruction : Instruction) (effect : Effect)
    (done : machine.effect instruction = .ok effect) : effect.Fits := by
  cases effect_executes machine instruction effect done with
  | add _ _ _ _ _ _ fits _ => exact fits
  | multiply _ _ _ _ _ _ fits _ => exact fits
  | input => trivial
  | output => trivial
  | jump => trivial
  | pass => trivial
  | lessThan lhs rhs _ _ _ _ _ =>
      change Word.Fits (if lhs < rhs then 1 else 0)
      split <;> decide
  | equals lhs rhs _ _ _ _ _ =>
      change Word.Fits (if lhs = rhs then 1 else 0)
      split <;> decide
  | adjustBase _ _ _ fits => exact fits
  | halt => trivial

theorem apply_in_range (machine : Machine) (image : List Int) (effect : Effect)
    (inRange : machine.InRange image) (fits : effect.Fits) :
    (machine.apply effect).InRange image := by
  cases effect with
  | store target value =>
      exact ⟨Memory.set_laid_out _ inRange.laidOut _ _,
        Memory.set_tame _ image inRange.laidOut inRange.tame _ _ fits, inRange.base⟩
  | rebase base => exact ⟨inRange.laidOut, inRange.tame, fits⟩
  | await target => exact inRange
  | emit word => exact in_range_congr machine _ image rfl rfl inRange
  | jump target => exact in_range_congr machine _ image rfl rfl inRange
  | pass => exact in_range_congr machine _ image rfl rfl inRange
  | halt => exact in_range_congr machine _ image rfl rfl inRange

theorem note_in_range (machine : Machine) (image : List Int) (instruction : Instruction)
    (inRange : machine.InRange image) : (machine.note instruction).InRange image :=
  in_range_congr machine _ image (by simp) (by simp) inRange

theorem step_in_range (machine next : Machine) (outcome : Except Error Event) (image : List Int)
    (stepped : machine.step = (outcome, next)) (inRange : machine.InRange image) :
    next.InRange image := by
  cases step_steps machine next outcome stepped with
  | unfetched error fetched => exact inRange
  | unrecorded instruction fetched unrecordable => exact inRange
  | faulted instruction fault fetched failed => exact note_in_range machine image _ inRange
  | executed instruction effect fetched done =>
      exact apply_in_range _ image effect (note_in_range machine image _ inRange)
        (effect_fits machine instruction effect done)

theorem supply_in_range (machine : Machine) (image : List Int) (target : Nat) (word : Int)
    (fits : Word.Fits word) (inRange : machine.InRange image) :
    (machine.supply target word).InRange image := by
  refine ⟨?_, ?_, ?_⟩
  · rw [supply_memory]
    exact Memory.set_laid_out _ inRange.laidOut _ _
  · rw [supply_memory]
    exact Memory.set_tame _ image inRange.laidOut inRange.tame _ _ fits
  · rw [supply_registers]
    exact inRange.base

/-- A jump that fails at nothing leads behind itself, or to the word that its second parameter
reads. That the pointer is a natural number cuts nothing off. -/
theorem jump_leads_to_word (machine next : Machine) (condition : Bool) (instruction : Instruction)
    (event : Event)
    (jumped : (Action.jumpIf condition instruction).on machine = (.ok event, next)) :
    next.registers.ip = machine.registers.ip + 3 ∨
      machine.value instruction 1 = .ok (next.registers.ip : Int) := by
  rw [Action.jump_if_follows] at jumped
  cases planned : machine.jumpEffect instruction condition with
  | error fault => simp [planned, follow] at jumped
  | ok effect =>
      obtain ⟨check, target, _, second, ⟨_, natural, rfl⟩ | ⟨_, rfl⟩⟩ :=
        jump_effect_cases machine instruction condition effect planned
      · rw [planned] at jumped
        cases jumped
        refine .inr (second.trans (congrArg Except.ok ?_))
        exact (Int.toNat_of_nonneg natural).symm
      · rw [planned] at jumped
        cases jumped
        exact .inl rfl

/-- Every output word is a word of memory. -/
theorem output_is_cell (machine next : Machine) (word : Int)
    (stepped : machine.step = (.ok (.output word), next)) :
    ∃ address, word = machine.memory.get address := by
  generalize reported : (Except.ok (Event.output word) : Except Error Event) = outcome at stepped
  cases step_steps machine next outcome stepped with
  | unfetched error fetched => exact absurd reported (by simp)
  | unrecorded instruction fetched unrecordable => exact absurd reported (by simp)
  | faulted instruction fault fetched failed => exact absurd reported (by simp)
  | executed instruction effect fetched done =>
      have emits := effect_executes machine instruction effect done
      cases effect with
      | emit word' =>
          cases reported
          cases emits with
          | output _ _ first => exact value_is_cell machine instruction 0 word first
      | _ => exact absurd reported (by simp [Effect.event])

end Machine

namespace Execution

structure InRange (execution : Execution) (image : List Int) : Prop where
  sameImage : execution.image = image
  machine : execution.machine.InRange image
  queue : ∀ word ∈ execution.queue, Word.Fits word
  preloaded : ∀ word ∈ execution.preloaded, Word.Fits word

theorem boot_in_range (image inputs : List Int) (options : Options)
    (fits : ∀ word ∈ inputs, Word.Fits word) : (boot image inputs options).InRange image where
  sameImage := rfl
  machine := Machine.boot_in_range image options
  queue := fits
  preloaded := fits

theorem turn_in_range (execution next : Execution) (outcome : Option (Except Error (Option Int)))
    (image : List Int) (turned : execution.turn = (outcome, next))
    (inRange : execution.InRange image) : next.InRange image := by
  have stepped (report : Except Error Event) (machine : Machine)
      (step : execution.machine.step = (report, machine)) : machine.InRange image :=
    Machine.step_in_range _ _ report image step inRange.machine
  cases turn_turns execution next outcome turned with
  | trapped trap machine step =>
      exact ⟨inRange.sameImage, stepped _ machine step, inRange.queue, inRange.preloaded⟩
  | failed error machine step =>
      exact ⟨inRange.sameImage, stepped _ machine step, inRange.queue, inRange.preloaded⟩
  | continued machine step =>
      exact ⟨inRange.sameImage, stepped _ machine step, inRange.queue, inRange.preloaded⟩
  | output word machine step =>
      exact ⟨inRange.sameImage, stepped _ machine step, inRange.queue, inRange.preloaded⟩
  | halted machine step =>
      exact ⟨inRange.sameImage, stepped _ machine step, inRange.queue, inRange.preloaded⟩
  | starved target machine step empty =>
      exact ⟨inRange.sameImage, stepped _ machine step, inRange.queue, inRange.preloaded⟩
  | fed target machine word queue step queued =>
      have fits := inRange.queue
      rw [queued] at fits
      exact ⟨inRange.sameImage,
        Machine.supply_in_range _ image target word (fits word (by simp)) (stepped _ machine step),
        fun later member => fits later (by simp [member]), inRange.preloaded⟩

theorem in_range_kept (image : List Int) : Kept fun execution => execution.InRange image where
  turn := by
    intro execution _ inRange
    exact turn_in_range execution _ _ image rfl inRange
  feed := by
    intro execution words fits inRange
    refine ⟨inRange.sameImage, inRange.machine, ?_, inRange.preloaded⟩
    intro word member
    rcases List.mem_append.mp member with old | new
    · exact inRange.queue word old
    · exact fits word new
  setTracing := by
    intro execution tracing inRange
    exact ⟨inRange.sameImage,
      Machine.in_range_congr execution.machine _ image rfl rfl inRange.machine,
      inRange.queue, inRange.preloaded⟩
  forgetTrace := by
    intro execution inRange
    exact ⟨inRange.sameImage,
      Machine.in_range_congr execution.machine _ image rfl rfl inRange.machine,
      inRange.queue, inRange.preloaded⟩
  reset := by
    intro execution inRange
    have booted := boot_in_range execution.image execution.preloaded execution.options
      inRange.preloaded
    rw [inRange.sameImage] at booted
    unfold reset
    rw [inRange.sameImage]
    exact booted

theorem turn_output_fits (image : List Int) (imageFits : ∀ word ∈ image, Word.Fits word)
    (execution next : Execution) (word : Int) (inRange : execution.InRange image)
    (turned : execution.turn = (some (.ok (some word)), next)) : Word.Fits word := by
  generalize reported : some (Except.ok (some word)) = outcome at turned
  cases turn_turns execution next outcome turned with
  | output word' machine step =>
      cases reported
      obtain ⟨address, cell⟩ := Machine.output_is_cell _ machine word step
      rw [cell]
      exact Memory.tame_fits _ image inRange.machine.tame imageFits address
  | _ => exact absurd reported (by simp)

/-- In every state that a session reaches, the instruction pointer is not negative; the relative
base and all queued inputs fit a word, and a word of memory fits unless it is one that the image has
at its address and that did not fit there. With an image whose words fit, all of memory fits, and so
does every word output on the way.

The pointer is a natural number, so its first bound holds by its type. What it stands for is said of
the jumps: one that is made from the reached state leads behind itself, or to the very word that its
second parameter reads. -/
theorem sessions_stay_in_range (image inputs : List Int) (options : Options) (fresh : Execution)
    (started : start image inputs options = .ok fresh) (requests : List Request) :
    let reached := (fresh.session requests).2
    0 ≤ (reached.machine.registers.ip : Int) ∧
      (∀ next condition instruction event,
        (Action.jumpIf condition instruction).on reached.machine = (.ok event, next) →
          next.registers.ip = reached.machine.registers.ip + 3 ∨
            reached.machine.value instruction 1 = .ok (next.registers.ip : Int)) ∧
      Word.Fits reached.machine.registers.base ∧
      (∀ word ∈ reached.queue, Word.Fits word) ∧
      (∀ address : Nat, Word.Fits (reached.machine.memory.get address) ∨
        ¬ Word.Fits (reached.machine.memory.get address) ∧
          image[address]? = some (reached.machine.memory.get address)) ∧
      ((∀ word ∈ image, Word.Fits word) →
        (∀ address : Nat, Word.Fits (reached.machine.memory.get address)) ∧
          ∀ word ∈ fresh.produced requests, Word.Fits word) := by
  intro reached
  obtain ⟨booted, fits⟩ := start_ok image inputs options fresh started
  have freshInRange : fresh.InRange image := booted ▸ boot_in_range image inputs options fits
  have inRange : reached.InRange image :=
    session_keeps (in_range_kept image) fresh requests freshInRange
  refine ⟨Int.natCast_nonneg _, Machine.jump_leads_to_word _, inRange.machine.base, inRange.queue,
    ?_, ?_⟩
  · intro address
    by_cases word : Word.Fits (reached.machine.memory.get address)
    · exact .inl word
    · exact .inr ⟨word, (inRange.machine.tame address).resolve_left word⟩
  · intro imageFits
    refine ⟨fun address => Memory.tame_fits _ image inRange.machine.tame imageFits address, ?_⟩
    intro word member
    exact produced_fine (in_range_kept image) (turn_output_fits image imageFits) fresh requests
      word freshInRange member

theorem echo_session_stays_in_range :
    (boot [3, 11, 109, -5, 21102, 6, 7, 16, 204, 16, 99] [] {}).produced
        [.pull 10, .push 7, .drain 10] = [42] ∧
      ∀ word ∈ (boot [3, 11, 109, -5, 21102, 6, 7, 16, 204, 16, 99] [] {}).produced
        [.pull 10, .push 7, .drain 10], Word.Fits word := by
  have started : start [3, 11, 109, -5, 21102, 6, 7, 16, 204, 16, 99] [] {} =
      .ok (boot [3, 11, 109, -5, 21102, 6, 7, 16, 204, 16, 99] [] {}) := rfl
  have inRange := sessions_stay_in_range _ [] {} _ started [.pull 10, .push 7, .drain 10]
  exact ⟨rfl, (inRange.2.2.2.2.2 (by decide)).2⟩

end Execution

end Intcode
