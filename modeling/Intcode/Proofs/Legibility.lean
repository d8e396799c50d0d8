import Intcode.Proofs.Encoding
import Intcode.Proofs.WordRange

/-!
# Numbers stay short enough to be written

Errors and trace lines show numbers, and a number with too many digits cannot be written. An image
may bring such a number, but nothing else does: what the machine computes fits a word, and so do the
inputs. With an image whose words can be written, every error of a step and every trace line can be
written, in whatever state a session has brought the machine.
-/

set_option autoImplicit false

namespace Intcode

namespace Machine

/-- Every number that a step may have to show can be written. -/
structure Legible (machine : Machine) : Prop where
  laidOut : machine.memory.LaidOut
  words : ∀ address, Text.Writable (machine.memory.get address)
  base : Word.Fits machine.registers.base
  pointer : Text.Writable machine.registers.ip

theorem boot_legible (image : List Int) (options : Options)
    (writable : ∀ word ∈ image, Text.Writable word) : (boot image options).Legible where
  laidOut := Memory.of_image_laid_out Memory.defaultGap image
  words := by
    intro address
    rcases Memory.of_image_tame image address with fits | own
    · exact fits.writable
    · exact writable _ (List.mem_of_getElem? own)
  base := by change Word.Fits 0; decide
  pointer := by change Text.Writable 0; decide

theorem set_words (memory : Memory) (laidOut : memory.LaidOut)
    (words : ∀ address, Text.Writable (memory.get address)) (target : Nat) (value : Int)
    (fits : Word.Fits value) (address : Nat) :
    Text.Writable ((memory.set target value).get address) := by
  rw [Memory.get_set memory laidOut]
  split
  · exact fits.writable
  · exact words address

namespace Legible

variable {machine : Machine} (legible : machine.Legible)

include legible

/-- Operands are words of memory. -/
theorem recordable (instruction : Instruction) : machine.Recordable instruction := by
  intro _ operand member
  obtain ⟨index, _, rfl⟩ := List.mem_map.mp member
  exact legible.words _

theorem held (instruction : Instruction) (fetched : machine.fetch = .ok instruction) (number : Int)
    (holds : machine.Holds instruction number) : Text.Writable number := by
  rcases holds with ⟨address, rfl⟩ | rfl | rfl | fits
  · exact legible.words address
  · exact legible.base.writable
  · have decoded := (fetch_ok machine instruction fetched).1
    rw [((Instruction.decode_ok_iff _ instruction).mp decoded).1]
    exact legible.words _
  · exact fits.writable

/-- A fault of an instruction is reported as such. -/
theorem reported (instruction : Instruction) (fault : Fault)
    (fetched : machine.fetch = .ok instruction)
    (failed : machine.effect instruction = .error fault) :
    fault.reportAt machine.registers.ip = .trap ⟨machine.registers.ip, fault⟩ := by
  have shown : (Error.fault fault).Legible := by
    intro number member
    exact legible.held instruction fetched number
      ((effect_fails machine instruction fault failed).numbers number member)
  unfold Fault.reportAt Error.raised
  rw [if_pos shown]
  rfl

theorem fetched_or_reported : machine.fetch ≠ .error .unwritable := by
  intro failed
  have fetches := fetch_fetches machine
  rw [failed] at fetches
  generalize found : (Except.error Error.unwritable : Except Error Instruction) = outcome at fetches
  cases fetches with
  | limited => exact absurd found (by simp)
  | tooLong => exact absurd found (by simp)
  | outside =>
      have shown :
          (Error.fault (.endOfMemory machine.registers.ip machine.memory.extent)).Legible := by
        intro number member
        rw [List.mem_singleton.mp member]
        exact legible.pointer
      rw [Error.raised, if_pos shown] at found
      exact absurd found (by simp)
  | decoded =>
      obtain ⟨cause, _, same⟩ :=
        (Instruction.decode_error_iff _ (legible.words _) .unwritable).mp found.symm
      exact absurd same (by simp)

end Legible

/-- Memory and registers decide. -/
theorem legible_congr (left right : Machine) (memory : left.memory = right.memory)
    (registers : left.registers = right.registers) (legible : left.Legible) : right.Legible := by
  refine ⟨memory ▸ legible.laidOut, memory ▸ legible.words, ?_, ?_⟩
  · exact registers ▸ legible.base
  · exact registers ▸ legible.pointer

/-- The pointer was inside memory and moves by little, or a jump takes it to a word of memory. -/
theorem apply_pointer (machine : Machine) (instruction : Instruction) (effect : Effect)
    (legible : machine.Legible) (fetched : machine.fetch = .ok instruction)
    (done : machine.effect instruction = .ok effect) :
    Text.Writable (machine.apply effect).registers.ip := by
  obtain ⟨_, inside, counted⟩ := fetch_ok machine instruction fetched
  have behind (width : Nat) (small : width ≤ 4) :
      Text.Writable ((machine.registers.ip + width : Nat) : Int) := by
    unfold Memory.countLimit at counted
    exact Text.writable_of_short (by omega)
  cases effect_executes machine instruction effect done with
  | add => exact behind 4 (by decide)
  | multiply => exact behind 4 (by decide)
  | lessThan => exact behind 4 (by decide)
  | equals => exact behind 4 (by decide)
  | input => exact legible.pointer
  | output => exact behind 2 (by decide)
  | pass => exact behind 3 (by decide)
  | adjustBase => exact behind 2 (by decide)
  | halt => exact behind 0 (by decide)
  | jump condition check target op first second taken natural =>
      obtain ⟨address, cell⟩ := value_is_cell machine instruction 1 target second
      change Text.Writable (target.toNat : Int)
      rw [Int.toNat_of_nonneg natural, cell]
      exact legible.words address

theorem apply_legible (machine : Machine) (instruction : Instruction) (effect : Effect)
    (legible : machine.Legible) (fetched : machine.fetch = .ok instruction)
    (done : machine.effect instruction = .ok effect) : (machine.apply effect).Legible := by
  have fits := effect_fits machine instruction effect done
  have pointer := apply_pointer machine instruction effect legible fetched done
  cases effect with
  | store target value =>
      exact ⟨Memory.set_laid_out _ legible.laidOut _ _,
        set_words _ legible.laidOut legible.words target value fits, legible.base, pointer⟩
  | rebase base => exact ⟨legible.laidOut, legible.words, fits, pointer⟩
  | _ => exact ⟨legible.laidOut, legible.words, legible.base, pointer⟩

/-- A step of such a machine leaves such a machine, and it never fails because something cannot be
written. -/
theorem step_legible (machine next : Machine) (outcome : Except Error Event)
    (stepped : machine.step = (outcome, next)) (legible : machine.Legible) :
    next.Legible ∧ outcome ≠ .error .unwritable := by
  have noted (instruction : Instruction) : (machine.note instruction).Legible :=
    legible_congr machine _ (note_memory _ _).symm (note_registers _ _).symm legible
  cases step_steps machine next outcome stepped with
  | unfetched error fetched =>
      refine ⟨legible, ?_⟩
      rcases fetch_error machine error fetched with ⟨fault, rfl, _⟩ | rfl | rfl
      · simp [Error.locatedAt]
      · simp [Error.locatedAt]
      · exact absurd fetched legible.fetched_or_reported
  | unrecorded instruction fetched unrecordable =>
      exact absurd (legible.recordable instruction) unrecordable
  | faulted instruction fault fetched failed =>
      refine ⟨noted instruction, ?_⟩
      rw [legible.reported instruction fault fetched failed]
      simp
  | executed instruction effect fetched done =>
      refine ⟨?_, by simp⟩
      exact apply_legible _ instruction effect (noted instruction)
        ((note_fetch _ _).trans fetched) ((note_effect _ _ _).trans done)

theorem supply_legible (machine : Machine) (target : Nat) (word : Int) (fits : Word.Fits word)
    (inside : machine.registers.ip < machine.memory.extent)
    (counted : machine.memory.extent ≤ Memory.countLimit) (legible : machine.Legible) :
    (machine.supply target word).Legible := by
  refine ⟨?_, ?_, ?_, ?_⟩
  · rw [supply_memory]
    exact Memory.set_laid_out _ legible.laidOut _ _
  · rw [supply_memory]
    exact set_words _ legible.laidOut legible.words target word fits
  · rw [supply_registers]
    exact legible.base
  · rw [supply_registers]
    unfold Memory.countLimit at counted
    exact Text.writable_of_short (by simp only [advance]; omega)

/-- A machine that asks for input is at an instruction inside memory. -/
theorem request_inside (machine next : Machine) (target : Nat)
    (stepped : machine.step = (.ok (.needsInput target), next)) :
    next.registers.ip < next.memory.extent ∧ next.memory.extent ≤ Memory.countLimit := by
  obtain ⟨instruction, fetched, _, _, rfl⟩ := request_waits machine next target stepped
  rw [note_registers, note_memory]
  exact (fetch_ok machine instruction fetched).2

end Machine

namespace Execution

structure Legible (execution : Execution) : Prop where
  machine : execution.machine.Legible
  queue : ∀ word ∈ execution.queue, Word.Fits word
  image : ∀ word ∈ execution.image, Text.Writable word
  preloaded : ∀ word ∈ execution.preloaded, Word.Fits word

theorem boot_legible (image inputs : List Int) (options : Options)
    (writable : ∀ word ∈ image, Text.Writable word) (fits : ∀ word ∈ inputs, Word.Fits word) :
    (boot image inputs options).Legible where
  machine := Machine.boot_legible image options writable
  queue := fits
  image := writable
  preloaded := fits

theorem turn_legible (execution next : Execution) (outcome : Option (Except Error (Option Int)))
    (turned : execution.turn = (outcome, next)) (legible : execution.Legible) :
    next.Legible ∧ outcome ≠ some (.error .unwritable) := by
  have stepped (report : Except Error Event) (machine : Machine)
      (step : execution.machine.step = (report, machine)) :
      machine.Legible ∧ report ≠ .error .unwritable :=
    Machine.step_legible _ machine report step legible.machine
  have left (machine : Machine) (good : machine.Legible) (halted : Bool) (fault : Option Trap) :
      { execution with machine, halted, fault }.Legible :=
    ⟨good, legible.queue, legible.image, legible.preloaded⟩
  cases turn_turns execution next outcome turned with
  | trapped trap machine step => exact ⟨left machine (stepped _ machine step).1 _ _, by simp⟩
  | failed error machine step =>
      obtain ⟨good, written⟩ := stepped _ machine step
      exact ⟨left machine good _ _, by simpa using written⟩
  | continued machine step => exact ⟨left machine (stepped _ machine step).1 _ _, by simp⟩
  | output word machine step => exact ⟨left machine (stepped _ machine step).1 _ _, by simp⟩
  | halted machine step => exact ⟨left machine (stepped _ machine step).1 _ _, by simp⟩
  | starved target machine step empty =>
      exact ⟨left machine (stepped _ machine step).1 _ _, by simp⟩
  | fed target machine word queue step queued =>
      have fits := legible.queue
      rw [queued] at fits
      obtain ⟨inside, counted⟩ := Machine.request_inside _ machine target step
      have supplied := Machine.supply_legible machine target word (fits word (by simp)) inside
        counted (stepped _ machine step).1
      exact ⟨⟨supplied, fun later member => fits later (by simp [member]), legible.image,
        legible.preloaded⟩, by simp⟩

theorem advance_written (fuel : Nat) (execution : Execution) (legible : execution.Legible) :
    (execution.advance fuel).1 ≠ .error (.failed .unwritable) := by
  induction fuel generalizing execution with
  | zero => simp [advance]
  | succ fuel ih =>
      unfold advance
      split
      case h_1 next turned => exact ih next (turn_legible execution next none turned legible).1
      case h_2 result next turned => simp
      case h_3 error next turned =>
        have written := (turn_legible execution next _ turned legible).2
        simpa using written

/-- No pull fails because a number cannot be written. -/
theorem pull_written (fuel : Nat) (execution : Execution) (legible : execution.Legible) :
    (execution.pull fuel).1 ≠ .error (.failed .unwritable) := by
  unfold pull
  split
  · simp
  · split
    · simp
    · exact advance_written fuel execution legible

theorem legible_kept : Kept Legible where
  turn := by
    intro execution _ legible
    exact (turn_legible execution _ _ rfl legible).1
  feed := by
    intro execution words fits legible
    refine ⟨legible.machine, ?_, legible.image, legible.preloaded⟩
    intro word member
    rcases List.mem_append.mp member with old | new
    · exact legible.queue word old
    · exact fits word new
  setTracing := by
    intro execution tracing legible
    exact ⟨Machine.legible_congr execution.machine _ rfl rfl legible.machine, legible.queue,
      legible.image, legible.preloaded⟩
  forgetTrace := by
    intro execution legible
    exact ⟨Machine.legible_congr execution.machine _ rfl rfl legible.machine, legible.queue,
      legible.image, legible.preloaded⟩
  reset := by
    intro execution legible
    exact boot_legible _ _ _ legible.image legible.preloaded

end Execution

end Intcode
