import Mathlib.Algebra.Group.Nat.Defs
import Intcode.Proofs.Legibility
import Intcode.Proofs.StepLimit
import Intcode.Proofs.TurnHistory

/-!
# Memory that is too long to be counted

Addresses fit a word, so the last one that can be stored to is the greatest word, and memory that
reaches so far has one word more than can be counted. A step counts the words of memory before it
does anything but check the step limit. So an image of words that fit has one way to make a step
fail with an error that is not the machine's own: storing to the last address. From then on no
instruction is executed any more. The error is no fault of the execution, and every pull meets it
again; only if the step limit is used up is that reported in its place, and then it is a fault.
-/

set_option autoImplicit false

namespace Intcode

namespace Machine

/-! ## Where steps store -/

/-- The address that the next step stores to, if it does. -/
def storedAt? (machine : Machine) : Option Nat :=
  match machine.fetch with
  | .error _ => none
  | .ok instruction =>
      if machine.Recordable instruction then
        match machine.effect instruction with
        | .ok (.store target _) => some target
        | _ => none
      else none

theorem step_extent_le (machine : Machine) (bound : Nat) :
    machine.step.2.memory.extent ≤ bound ↔
      machine.memory.extent ≤ bound ∧ ∀ address ∈ machine.storedAt?, address < bound := by
  generalize stepped : machine.step = result
  obtain ⟨outcome, next⟩ := result
  unfold storedAt?
  cases step_steps machine next outcome stepped with
  | unfetched error fetched => simp [fetched]
  | unrecorded instruction fetched unrecordable => simp [fetched, unrecordable]
  | faulted instruction fault fetched failed recordable => simp [fetched, failed]
  | executed instruction effect fetched done recordable =>
      cases effect with
      | store target value =>
          simp only [fetched, if_pos recordable, done, apply, note_memory, Memory.set_extent,
            Nat.max_le, Nat.succ_le_iff, Option.mem_some_iff, forall_eq']
      | _ => simp [fetched, done, apply, advance]

/-- Only a step that says nothing changes memory. -/
theorem reporting_step_memory (machine next : Machine) (outcome : Except Error Event)
    (stepped : machine.step = (outcome, next)) (reports : outcome ≠ .ok .continued) :
    next.memory = machine.memory := by
  cases step_steps machine next outcome stepped with
  | unfetched error fetched => rfl
  | unrecorded instruction fetched unrecordable => rfl
  | faulted instruction fault fetched failed => simp
  | executed instruction effect fetched done =>
      cases effect with
      | store target value => exact absurd rfl reports
      | _ => simp [apply, advance]

section Targets

variable (machine : Machine)
  (fits : ∀ address : Nat, Word.Fits (machine.memory.get address))

theorem natural_le (address : Int) (target : Nat) (below : address ≤ Word.greatest)
    (done : natural address = .ok target) : target ≤ Memory.countLimit := by
  unfold natural at done
  split at done
  · exact absurd done (by simp)
  · cases done
    change address ≤ 9223372036854775807 at below
    change address.toNat ≤ 9223372036854775807
    omega

include fits

theorem target_le (instruction : Instruction) (index target : Nat)
    (done : machine.target instruction index = .ok target) : target ≤ Memory.countLimit := by
  unfold Machine.target at done
  dsimp only at done
  split at done
  · exact absurd done (by simp)
  · exact natural_le _ target (fits _).2 done
  · obtain ⟨address, inRange, done⟩ := bind_ok done
    obtain ⟨rfl, addressFits⟩ := checked_ok _ _ _ _ _ inRange
    exact natural_le _ target addressFits.2 done

theorem stored_at_le (address : Nat) (stored : machine.storedAt? = some address) :
    address ≤ Memory.countLimit := by
  unfold storedAt? at stored
  split at stored
  · exact absurd stored (by simp)
  case h_2 instruction fetched =>
    split at stored
    case isFalse unrecordable => exact absurd stored (by simp)
    case isTrue recordable =>
      split at stored
      case h_1 target value done =>
        cases stored
        cases effect_executes machine instruction _ done with
        | add _ _ _ _ _ _ _ third => exact target_le machine fits instruction 2 address third
        | multiply _ _ _ _ _ _ _ third => exact target_le machine fits instruction 2 address third
        | lessThan _ _ _ _ _ _ third => exact target_le machine fits instruction 2 address third
        | equals _ _ _ _ _ _ third => exact target_le machine fits instruction 2 address third
      case h_2 => exact absurd stored (by simp)

theorem awaited_le (target : Nat) (asked : machine.step.1 = .ok (.needsInput target)) :
    target ≤ Memory.countLimit := by
  obtain ⟨instruction, _, _, done, _⟩ :=
    request_waits machine machine.step.2 target (Prod.ext asked rfl)
  cases effect_executes machine instruction _ done with
  | input _ _ first => exact target_le machine fits instruction 0 target first

end Targets

/-! ## Counting the words of memory -/

/-- Whether the step limit allows another step. -/
def Spare (machine : Machine) : Prop :=
  ∀ limit, machine.limit = some limit → machine.registers.steps < limit

theorem used_up (machine : Machine) (spent : ¬ machine.Spare) :
    ∃ limit, machine.limit = some limit ∧ limit ≤ machine.registers.steps := by
  unfold Spare at spent
  push Not at spent
  exact spent

theorem step_too_long (machine : Machine) (long : Memory.countLimit < machine.memory.extent)
    (spare : machine.Spare) : machine.step = (.error .countTooLong, machine) := by
  apply steps_step
  exact Steps.unfetched .countTooLong ((fetch_too_long_iff machine).mpr ⟨long, spare⟩)

/-- The one error of a step that is not the machine's own, where all numbers can be written. -/
theorem step_internal (machine : Machine) (legible : machine.Legible) (error : Error)
    (failed : machine.step.1 = .error error) (escapes : error.isInternal = true) :
    error = .countTooLong ∧ Memory.countLimit < machine.memory.extent ∧ machine.Spare := by
  rcases step_error machine machine.step.2 error (Prod.ext failed rfl) with
    ⟨fault, rfl⟩ | ⟨same, fetched⟩ | rfl
  · exact absurd escapes (by simp [Error.isInternal])
  · exact ⟨same, (fetch_too_long_iff machine).mp fetched⟩
  · exact absurd failed (step_legible machine machine.step.2 _ rfl legible).2

end Machine

namespace Execution

/-- The addresses that a turn stores to. A step that asks for input stores nothing itself, and the
completion of the instruction does. -/
def stored (turn : Execution) : List Nat :=
  turn.machine.storedAt?.toList ++ (turn.handover?.map Prod.fst).toList

theorem turn_extent_le (execution : Execution) (bound : Nat) :
    execution.turn.2.machine.memory.extent ≤ bound ↔
      execution.machine.memory.extent ≤ bound ∧ ∀ address ∈ execution.stored, address < bound := by
  have step := execution.machine.step_extent_le bound
  rw [(turn_handover execution).1]
  cases handed : execution.handover? with
  | none => simpa [stored, handed] using step
  | some handover =>
      obtain ⟨target, word⟩ := handover
      simp only [Machine.supply_memory, Memory.set_extent, Nat.max_le, step, stored, handed,
        Option.map_some, Option.toList_some, List.mem_append, Option.mem_toList,
        Option.mem_def, List.mem_singleton, or_imp, forall_and, forall_eq, Nat.succ_le_iff,
        and_assoc]

theorem Path.extent_le {first last : Execution} {turns : List Execution}
    (path : Path first turns last) (bound : Nat) :
    last.machine.memory.extent ≤ bound ↔
      first.machine.memory.extent ≤ bound ∧
        ∀ turn ∈ turns, ∀ address ∈ turn.stored, address < bound := by
  induction path with
  | stay execution => simp
  | turn execution last later running rest ih =>
      simp only [ih, turn_extent_le, List.mem_cons, or_imp, forall_and, forall_eq, and_assoc]

/-- The extent is the least bound of the image and of all addresses stored to. -/
theorem history_extent_le (execution : Execution) (requests : List Request)
    (unreset : .reset ∉ requests) (bound : Nat) :
    (execution.session requests).2.machine.memory.extent ≤ bound ↔
      execution.machine.memory.extent ≤ bound ∧
        ∀ turn ∈ execution.history requests, ∀ address ∈ turn.stored, address < bound := by
  induction requests generalizing execution with
  | nil => simp [history, session]
  | cons request requests ih =>
      rw [List.mem_cons, not_or] at unreset
      obtain ⟨last, path, _, memory, _⟩ := serve_path execution request (Ne.symm unreset.1)
      have later := ih (execution.serve request).2 unreset.2
      rw [memory, path.extent_le bound] at later
      simp only [session, later, history, List.mem_append, or_imp, forall_and, and_assoc]

theorem stored_le (execution : Execution) (image : List Int)
    (imageFits : ∀ word ∈ image, Word.Fits word) (inRange : execution.InRange image) :
    ∀ address ∈ execution.stored, address ≤ Memory.countLimit := by
  have fits (address : Nat) : Word.Fits (execution.machine.memory.get address) :=
    Memory.tame_fits _ image inRange.machine.tame imageFits address
  intro address member
  rcases List.mem_append.mp member with step | completion
  · exact Machine.stored_at_le _ fits address (Option.mem_toList.mp step)
  · obtain ⟨⟨target, word⟩, handed, rfl⟩ :=
      Option.map_eq_some_iff.mp (Option.mem_toList.mp completion)
    unfold handover? at handed
    split at handed
    case h_1 asked queued =>
      cases handed
      exact Machine.awaited_le _ fits target asked
    case h_2 => exact absurd handed (by simp)

/-- Memory that can be counted comes to have one word more than that, and only by a store to the
last address. -/
theorem history_extent (execution : Execution) (requests : List Request) (image : List Int)
    (unreset : .reset ∉ requests) (imageFits : ∀ word ∈ image, Word.Fits word)
    (inRange : execution.InRange image)
    (countable : execution.machine.memory.extent ≤ Memory.countLimit) :
    let extent := (execution.session requests).2.machine.memory.extent
    extent ≤ Memory.countLimit + 1 ∧
      (extent = Memory.countLimit + 1 ↔
        ∃ turn ∈ execution.history requests, Memory.countLimit ∈ turn.stored) := by
  intro extent
  have reachable : ∀ turn ∈ execution.history requests, ∀ address ∈ turn.stored,
      address ≤ Memory.countLimit := by
    intro turn member
    have turnInRange := history_keeps (in_range_kept image) execution requests unreset inRange
      turn member
    exact stored_le turn image imageFits turnInRange
  have bounded : extent ≤ Memory.countLimit + 1 := by
    apply (history_extent_le execution requests unreset _).mpr
    refine ⟨by omega, ?_⟩
    intro turn member address stored
    exact Nat.lt_succ_of_le (reachable turn member address stored)
  refine ⟨bounded, ?_⟩
  constructor
  · intro longest
    by_contra elsewhere
    push Not at elsewhere
    -- Without the last address, the extent is the least bound of lower ones.
    have short : extent ≤ Memory.countLimit := by
      apply (history_extent_le execution requests unreset _).mpr
      refine ⟨countable, ?_⟩
      intro turn member address stored
      apply Nat.lt_of_le_of_ne (reachable turn member address stored)
      rintro rfl
      exact elsewhere turn member stored
    omega
  · rintro ⟨turn, member, stored⟩
    apply Nat.le_antisymm bounded
    by_contra shorter
    have short := (history_extent_le execution requests unreset Memory.countLimit).mp (by omega)
    exact absurd (short.2 turn member _ stored) (Nat.lt_irrefl _)

/-! ## After the last address was stored to -/

theorem turn_too_long (execution : Execution)
    (long : Memory.countLimit < execution.machine.memory.extent)
    (spare : execution.machine.Spare) :
    execution.turn = (some (.error .countTooLong), execution) := by
  apply turns_turn
  exact .failed _ _ (Machine.step_too_long execution.machine long spare) (by simp)

/-- No turn from such memory does anything to the machine. -/
theorem long_turn_machine (execution : Execution)
    (long : Memory.countLimit < execution.machine.memory.extent) :
    execution.turn.2.machine = execution.machine := by
  by_cases spare : execution.machine.Spare
  · rw [turn_too_long execution long spare]
  · obtain ⟨limit, limited, used⟩ := execution.machine.used_up spare
    rw [turn_at_limit execution limit limited used]

theorem Path.long_machine {first last : Execution} {turns : List Execution}
    (path : Path first turns last) (long : Memory.countLimit < first.machine.memory.extent) :
    last.machine = first.machine := by
  induction path with
  | stay execution => rfl
  | turn execution last later running rest ih =>
      have same := long_turn_machine execution long
      rw [same] at ih
      exact ih long

theorem long_session_machine (execution : Execution) (requests : List Request)
    (unreset : .reset ∉ requests)
    (long : Memory.countLimit < execution.machine.memory.extent) :
    (execution.session requests).2.machine.memory = execution.machine.memory ∧
      (execution.session requests).2.machine.registers = execution.machine.registers := by
  induction requests generalizing execution with
  | nil => exact ⟨rfl, rfl⟩
  | cons request requests ih =>
      rw [List.mem_cons, not_or] at unreset
      obtain ⟨last, path, _, memory, registers⟩ :=
        serve_path execution request (Ne.symm unreset.1)
      rw [path.long_machine long] at memory registers
      have later := ih (execution.serve request).2 unreset.2 (by rw [memory]; exact long)
      rw [memory, registers] at later
      exact later

/-- A turn that ends the pull has left memory alone. -/
theorem ended_turn_memory (execution next : Execution) (ending : Except Error (Option Int))
    (turned : execution.turn = (some ending, next)) :
    next.machine.memory = execution.machine.memory := by
  have unchanged (report : Except Error Event) (machine : Machine)
      (step : execution.machine.step = (report, machine)) (reports : report ≠ .ok .continued) :
      machine.memory = execution.machine.memory :=
    Machine.reporting_step_memory _ machine report step reports
  generalize reported : some ending = outcome at turned
  cases turn_turns execution next outcome turned with
  | trapped trap machine step => exact unchanged _ machine step (by simp)
  | failed error machine step untrapped => exact unchanged _ machine step (by simp)
  | output word machine step => exact unchanged _ machine step (by simp)
  | halted machine step => exact unchanged _ machine step (by simp)
  | starved target machine step empty => exact unchanged _ machine step (by simp)
  | continued machine step => exact absurd reported (by simp)
  | fed target machine word queue step queued => exact absurd reported (by simp)

/-- How executions are while memory is too long: not halted, and faulted only because the step limit
is used up. -/
structure Jammed (execution : Execution) : Prop where
  unhalted : execution.halted = false
  fault : ∀ trap, execution.fault = some trap →
    ∃ limit, execution.machine.limit = some limit ∧ limit ≤ execution.steps ∧
      trap = execution.exhaustion limit

theorem Running.jammed {execution : Execution} (running : execution.Running) :
    execution.Jammed := by
  refine ⟨running.unhalted, ?_⟩
  intro trap faulted
  exact absurd faulted (by simp [running.faultless])

theorem turn_jams (execution : Execution) (running : execution.Running)
    (long : Memory.countLimit < execution.turn.2.machine.memory.extent) :
    execution.turn.2.Jammed := by
  generalize turned : execution.turn = result at long
  obtain ⟨outcome, next⟩ := result
  cases outcome with
  | none => exact (running.unended turned).jammed
  | some ending =>
      -- A turn that reports something stores nothing, so memory was too long before it already.
      rw [ended_turn_memory execution next ending turned] at long
      by_cases spare : execution.machine.Spare
      · rw [turn_too_long execution long spare] at turned
        cases turned
        exact running.jammed
      · obtain ⟨limit, limited, used⟩ := execution.machine.used_up spare
        rw [turn_at_limit execution limit limited used] at turned
        cases turned
        refine ⟨running.unhalted, ?_⟩
        rintro trap ⟨rfl⟩
        exact ⟨limit, limited, used, rfl⟩

theorem jammed_kept : Kept fun execution =>
    Memory.countLimit < execution.machine.memory.extent → execution.Jammed where
  turn := fun execution running _ => turn_jams execution running
  feed := fun _ _ _ jams long => ⟨(jams long).unhalted, (jams long).fault⟩
  setTracing := fun _ _ jams long => ⟨(jams long).unhalted, (jams long).fault⟩
  forgetTrace := fun _ jams long => ⟨(jams long).unhalted, (jams long).fault⟩
  reset := fun _ _ _ => Running.jammed ⟨rfl, rfl⟩

theorem limit_kept : Kept fun execution =>
    execution.machine.limit = execution.options.limit where
  turn := by
    intro execution _ same
    generalize turned : execution.turn = result
    obtain ⟨outcome, next⟩ := result
    have sameLimit := (turn_counts execution next outcome turned).2
    have sameOptions := turn_options execution next outcome turned
    rw [sameLimit, sameOptions]
    exact same
  feed := fun _ _ _ same => same
  setTracing := fun _ _ same => same
  forgetTrace := fun _ same => same
  reset := fun _ _ => rfl

theorem Jammed.running {execution : Execution} (jammed : execution.Jammed)
    (faultless : execution.fault = none) : execution.Running := ⟨faultless, jammed.unhalted⟩

theorem Jammed.faultless {execution : Execution} (jammed : execution.Jammed)
    (spare : execution.machine.Spare) : execution.fault = none := by
  cases faulted : execution.fault with
  | none => rfl
  | some trap =>
      obtain ⟨limit, limited, used, _⟩ := jammed.fault trap faulted
      exact absurd (spare limit limited) (Nat.not_lt.mpr used)

theorem Jammed.pull_spare {execution : Execution} (jammed : execution.Jammed)
    (long : Memory.countLimit < execution.machine.memory.extent)
    (spare : execution.machine.Spare) (fuel : Nat) :
    execution.pull (fuel + 1) = (.error (.failed .countTooLong), execution) := by
  rw [(jammed.running (jammed.faultless spare)).pull, advance, turn_too_long execution long spare]

theorem Jammed.pull_used_up {execution : Execution} (jammed : execution.Jammed) (limit : Nat)
    (limited : execution.machine.limit = some limit) (used : limit ≤ execution.steps)
    (fuel : Nat) :
    (execution.fault = none →
      execution.pull (fuel + 1) =
        (.error (.failed (.trap (execution.exhaustion limit))),
          { execution with fault := some (execution.exhaustion limit) })) ∧
    (execution.fault ≠ none →
      execution.pull (fuel + 1) =
        (.error (.failed (.stopped (execution.exhaustion limit))), execution)) := by
  constructor
  · intro faultless
    rw [(jammed.running faultless).pull, advance, turn_at_limit execution limit limited used]
  · intro faulty
    obtain ⟨trap, faulted⟩ := Option.ne_none_iff_exists'.mp faulty
    obtain ⟨_, sameLimited, _, rfl⟩ := jammed.fault trap faulted
    cases limited.symm.trans sameLimited
    exact pull_faulted (fuel + 1) execution _ faulted

/-- Let the words of the image fit, and let there be no more of them than can be counted. In every
state that requests lead to, memory ends behind the last address at most, and it does so just when
a turn since the last reset stored there. Just then, and while the step limit is not used up, a step
fails with an error that is not the machine's own. It can only be that memory is too long, it
changes nothing, and pulls pass on no other such error. From there on, until a reset, nothing is
executed and the program does not halt. Every pull fails, with this error and without a fault. If
the step limit is used up, though, the first pull reports that as a fault, and the pulls after it
report the fault. -/
theorem only_long_memory_escapes (image inputs : List Int) (options : Options) (fresh : Execution)
    (started : start image inputs options = .ok fresh)
    (imageFits : ∀ word ∈ image, Word.Fits word) (countable : image.length ≤ Memory.countLimit)
    (requests : List Request) :
    let reached := (fresh.session requests).2
    let extent := reached.machine.memory.extent
    let spare := ∀ limit, options.limit = some limit → reached.steps < limit
    extent ≤ 2 ^ 63 ∧
      (extent = 2 ^ 63 ↔
        ∃ turn ∈ fresh.history (sinceReset requests), 2 ^ 63 - 1 ∈ turn.stored) ∧
      ((∃ error, reached.machine.step.1 = .error error ∧ error.isInternal = true) ↔
        extent = 2 ^ 63 ∧ spare) ∧
      (∀ error, reached.machine.step.1 = .error error → error.isInternal = true →
        error = .countTooLong ∧ reached.machine.step.2 = reached.machine) ∧
      (∀ fuel error, (reached.pull fuel).1 = .error (.failed error) → error.isInternal = true →
        error = .countTooLong) ∧
      (extent = 2 ^ 63 → ∀ later fuel, .reset ∉ later → 0 < fuel →
        let now := (reached.session later).2
        now.halted = false ∧
          now.machine.memory = reached.machine.memory ∧
          now.machine.registers = reached.machine.registers ∧
          (spare → now.fault = none ∧
            now.pull fuel = (.error (.failed .countTooLong), now)) ∧
          (¬ spare → ∃ limit, options.limit = some limit ∧
            (now.fault = none →
              now.pull fuel =
                (.error (.failed (.trap (now.exhaustion limit))),
                  { now with fault := some (now.exhaustion limit) })) ∧
            (now.fault ≠ none →
              now.pull fuel = (.error (.failed (.stopped (now.exhaustion limit))), now)))) := by
  intro reached extent spare
  obtain ⟨booted, fits⟩ := start_ok image inputs options fresh started
  subst booted
  have sinceBoot : reached = ((boot image inputs options).session (sinceReset requests)).2 :=
    session_since_reset (boot image inputs options) requests rfl
  obtain ⟨bounded, storedLast⟩ := history_extent (boot image inputs options) (sinceReset requests)
    image (reset_not_mem_since_reset requests) imageFits
    (boot_in_range image inputs options fits) countable
  rw [← sinceBoot] at bounded storedLast
  have longest : Memory.countLimit < extent ↔ extent = 2 ^ 63 := by
    change _ ↔ extent = Memory.countLimit + 1
    omega
  have sameLimit (later : List Request) :
      (reached.session later).2.machine.limit = options.limit := by
    have bootLimit := session_keeps limit_kept (boot image inputs options) requests rfl
    have laterLimit := session_keeps limit_kept reached later bootLimit
    rw [laterLimit, session_options, session_options]
    rfl
  have reachedLimit : reached.machine.limit = options.limit := sameLimit []
  have writable : ∀ word ∈ image, Text.Writable word :=
    fun word member => (imageFits word member).writable
  have legible : reached.Legible :=
    session_keeps legible_kept _ requests (boot_legible image inputs options writable fits)
  have spareIff : reached.machine.Spare ↔ spare := by
    unfold Machine.Spare
    rw [reachedLimit]
    rfl
  refine ⟨bounded, storedLast, ?_, ?_, ?_, ?_⟩
  · constructor
    · rintro ⟨error, failed, escapes⟩
      have why := (Machine.step_internal reached.machine legible.machine error failed escapes).2
      exact ⟨longest.mp why.1, spareIff.mp why.2⟩
    · rintro ⟨long, unused⟩
      rw [Machine.step_too_long _ (longest.mpr long) (spareIff.mpr unused)]
      exact ⟨.countTooLong, rfl, rfl⟩
  · intro error failed escapes
    obtain ⟨same, long, unused⟩ :=
      Machine.step_internal reached.machine legible.machine error failed escapes
    rw [Machine.step_too_long _ long unused]
    exact ⟨same, rfl⟩
  · intro fuel error failed escapes
    cases pull_error fuel reached error failed with
    | countTooLong => rfl
    | unwritable => exact absurd failed (pull_written fuel reached legible)
    | _ => exact absurd escapes (by simp [Error.isInternal])
  · intro long later fuel unreset positive now
    obtain ⟨memory, registers⟩ := long_session_machine reached later unreset (longest.mpr long)
    obtain ⟨less, rfl⟩ := Nat.exists_eq_succ_of_ne_zero positive.ne'
    have nowLong : Memory.countLimit < now.machine.memory.extent := by
      rw [memory]
      exact longest.mpr long
    have jammed : now.Jammed := by
      apply session_keeps jammed_kept reached later _ nowLong
      apply session_keeps jammed_kept (boot image inputs options) requests
      exact fun _ => Running.jammed ⟨rfl, rfl⟩
    refine ⟨jammed.unhalted, memory, registers, ?_, ?_⟩
    · intro unused
      have nowSpare : now.machine.Spare := by
        unfold Machine.Spare
        rw [sameLimit later, registers]
        exact unused
      exact ⟨jammed.faultless nowSpare, jammed.pull_spare nowLong nowSpare less⟩
    · intro spent
      obtain ⟨limit, limited, used⟩ := reached.machine.used_up (spareIff.not.mpr spent)
      have optionLimit : options.limit = some limit := reachedLimit.symm.trans limited
      have nowLimited : now.machine.limit = some limit := (sameLimit later).trans optionLimit
      have nowUsed : limit ≤ now.steps := by
        unfold steps
        rw [registers]
        exact used
      exact ⟨limit, optionLimit, jammed.pull_used_up limit nowLimited nowUsed less⟩

/-- The sum is stored to the last address, and no pull gets beyond that until a reset. -/
theorem sum_at_last_address_jams :
    let fresh := boot [1101, 1, 1, 9223372036854775807, 99] [] {}
    let reached := (fresh.session [.pull 1]).2
    reached.machine.memory.extent = 2 ^ 63 ∧
      (∃ turn ∈ fresh.history [.pull 1], 2 ^ 63 - 1 ∈ turn.stored) ∧
      ((reached.session [.push 7, .drain 3]).2.pull 5).1 = .error (.failed .countTooLong) := by
  intro fresh reached
  obtain ⟨_, storedLast, _, _, _, jams⟩ := only_long_memory_escapes
    [1101, 1, 1, 9223372036854775807, 99] [] {} fresh rfl (by decide) (by decide) [.pull 1]
  have longest : reached.machine.memory.extent = 2 ^ 63 := by decide
  obtain ⟨_, _, _, unlimited, _⟩ := jams longest [.push 7, .drain 3] 5 (by decide) (by decide)
  have pulled := (unlimited (by simp)).2
  exact ⟨longest, storedLast.mp longest, congrArg Prod.fst pulled⟩

/-- Where the step limit is used up, only one pull reports that as its own error. -/
theorem used_up_limit_is_reported_once :
    let fresh := boot [1101, 1, 1, 9223372036854775807, 99] [] { limit := some 1 }
    let reached := (fresh.session [.pull 2]).2
    reached.machine.memory.extent = 2 ^ 63 ∧
      (fresh.pull 2).1 = .error (.failed (.trap ⟨4, .stepLimit 1⟩)) ∧
      (reached.pull 1).1 ≠ .error (.failed .countTooLong) ∧
      ∀ pointer limit,
        (reached.pull 1).1 ≠ .error (.failed (.trap ⟨pointer, .stepLimit limit⟩)) := by
  intro fresh reached
  have stopped : (reached.pull 1).1 = .error (.failed (.stopped ⟨4, .stepLimit 1⟩)) := by decide
  rw [stopped]
  exact ⟨by decide, by decide, by simp, by simp⟩

end Execution

end Intcode
