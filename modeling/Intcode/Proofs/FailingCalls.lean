import Intcode.Proofs.MachineStep
import Intcode.Proofs.MemoryHistory

/-!
# Calls that fail

A machine is stepped, completes its input instructions, and may be written to, traced and rewound. A
step can fail in its limit, its fetch, its trace line, each of its operands, its result and its
target, and the completion of an input instruction can fail in the write. Nothing is undone after a
failure. But since the handlers keep to their plans, a call that failed has left memory and
registers alone, wherever it was, and the error of a step names the instruction that the step was
about to execute.
-/

set_option autoImplicit false

namespace Intcode.Machine

/-- What can be asked of a machine. -/
inductive Call where
  | step
  | supply (target word : Int)
  | write (address value : Int)
  | setTracing (tracing : Bool)
  | forgetTrace
  | rewind
  deriving DecidableEq, Repr

/-- Answers a call, a step with its event. Only writes from outside may want more room than there
is. -/
def perform (room : Nat) (machine : Machine) : Call → Except Error (Option Event) × Machine
  | .step => (machine.step.1.map some, machine.step.2)
  | .supply target word =>
      ((machine.supplyAt target word).1.map fun _ => none, (machine.supplyAt target word).2)
  | .write address value =>
      match machine.memory.write room address value with
      | .ok memory => (.ok none, { machine with memory })
      | .error error => (.error error, machine)
  | .setTracing tracing => (.ok none, machine.setTracing tracing)
  | .forgetTrace => (.ok none, machine.forgetTrace)
  | .rewind => (.ok none, machine.rewind)

/-- A machine that some calls lead to from an image, whatever room each of them finds. -/
inductive Reachable (image : List Int) (options : Options) : Machine → Prop
  | boot : Reachable image options (boot image options)
  | perform (room : Nat) (machine : Machine) (call : Call)
      (reachable : Reachable image options machine) :
      Reachable image options (machine.perform room call).2

/-! ## Steps -/

theorem step_error_keeps (machine next : Machine) (error : Error)
    (stepped : machine.step = (.error error, next)) :
    next.memory = machine.memory ∧ next.registers = machine.registers := by
  generalize reported : (Except.error error : Except Error Event) = outcome at stepped
  cases step_steps machine next outcome stepped with
  | unfetched cause fetched => exact ⟨rfl, rfl⟩
  | unrecorded instruction fetched unrecordable => exact ⟨rfl, rfl⟩
  | faulted instruction fault fetched failed => simp
  | executed => exact absurd reported (by simp)

/-- A step that failed is traced at most, so that another one fails alike. -/
theorem step_error_again (machine next : Machine) (error : Error)
    (stepped : machine.step = (.error error, next)) : next.step.1 = .error error := by
  generalize reported : (Except.error error : Except Error Event) = outcome at stepped
  cases step_steps machine next outcome stepped with
  | unfetched cause fetched => rw [steps_step _ _ _ (.unfetched cause fetched)]
  | unrecorded instruction fetched unrecordable =>
      rw [steps_step _ _ _ (.unrecorded instruction fetched unrecordable)]
  | faulted instruction fault fetched failed recordable =>
      rw [steps_step _ _ _ (.faulted instruction fault ((note_fetch _ _).trans fetched)
        ((note_effect _ _ _).trans failed) ((note_recordable _ _ _).mpr recordable)),
        note_registers]
  | executed => exact absurd reported (by simp)

theorem step_error_pointer (machine next : Machine) (error : Error)
    (stepped : machine.step = (.error error, next)) (own : error.isInternal = false) :
    error.pointer? = some machine.registers.ip := by
  rcases step_error machine next error stepped with ⟨fault, rfl⟩ | ⟨rfl, _⟩ | rfl
  · rfl
  · exact absurd own (by decide)
  · exact absurd own (by decide)

/-! ## Calls -/

theorem failed_answer {Result Answer : Type} {outcome : Except Error Result}
    {answer : Result → Answer} {error : Error} (failed : outcome.map answer = .error error) :
    outcome = .error error := by
  cases outcome with
  | error cause => exact congrArg Except.error (Except.error.inj failed)
  | ok result => exact absurd failed (by simp [Except.map])

/-- An input instruction is completed at every address, and nowhere else. -/
theorem supply_at_error (machine next : Machine) (target word : Int) (error : Error)
    (supplied : machine.supplyAt target word = (.error error, next)) :
    next = machine ∧ target < 0 ∧ error = (Error.fault (.negativeAddress target)).raised := by
  rw [supply_at_eq] at supplied
  by_cases negative : target < 0
  · rw [if_pos negative] at supplied
    cases supplied
    exact ⟨rfl, negative, rfl⟩
  · rw [if_neg negative] at supplied
    exact absurd supplied (by simp)

/-- Whatever state a machine is in, a call that fails leaves memory and registers as they are, and
fails again if it is made again. A step's own errors point to the instruction it started at, and
the completion of an input instruction fails where there is no address, as writing does. -/
theorem failing_calls_are_atomic (before after : Machine) (room : Nat) (call : Call) (error : Error)
    (failed : before.perform room call = (.error error, after)) :
    after.memory = before.memory ∧ after.registers = before.registers ∧
      (after.perform room call).1 = .error error ∧
      (call = .step → error.isInternal = false →
        error.pointer? = some before.registers.ip) ∧
      ∀ target word, call = .supply target word →
        target < 0 ∧ before.memory.write room target word = .error error := by
  cases call with
  | step =>
      obtain ⟨failedStep, rfl⟩ := Prod.mk.inj failed
      have stepped : before.step = (.error error, before.step.2) :=
        Prod.ext (failed_answer failedStep) rfl
      obtain ⟨memory, registers⟩ := step_error_keeps before _ error stepped
      refine ⟨memory, registers, ?_, ?_, ?_⟩
      · simp only [perform, step_error_again before _ error stepped, Except.map]
      · intro _ own
        exact step_error_pointer before _ error stepped own
      · intro target word other
        exact absurd other (by simp)
  | supply target word =>
      obtain ⟨failedSupply, rfl⟩ := Prod.mk.inj failed
      have supplied : before.supplyAt target word =
          (.error error, (before.supplyAt target word).2) :=
        Prod.ext (failed_answer failedSupply) rfl
      obtain ⟨same, negative, report⟩ := supply_at_error before _ target word error supplied
      refine ⟨congrArg Machine.memory same, congrArg Machine.registers same, ?_, by simp, ?_⟩
      · rw [same]
        exact failedSupply
      · intro _ _ other
        cases other
        rw [Memory.write, if_pos negative, report]
        exact ⟨negative, rfl⟩
  | write address value =>
      simp only [perform] at failed
      split at failed
      · exact absurd failed (by simp)
      case h_2 cause refused =>
        cases failed
        refine ⟨rfl, rfl, ?_, by simp, by simp⟩
        simp only [perform, refused]
  | setTracing tracing => exact absurd failed (by simp [perform])
  | forgetTrace => exact absurd failed (by simp [perform])
  | rewind => exact absurd failed (by simp [perform])

/-- The second instruction has its sum and finds its target below address zero, after the first has
moved the base. -/
theorem store_below_zero_is_atomic :
    let before := (boot [109, 5, 21101, 20, 22, -9, 99] { trace := true }).step.2
    (before.perform 0 .step).1 = .error (.trap ⟨2, .negativeAddress (-4)⟩) ∧
      (before.perform 0 .step).2.memory = before.memory ∧
      (before.perform 0 .step).2.registers = { ip := 2, base := 5, steps := 1 } := by
  have failed :
      ((boot [109, 5, 21101, 20, 22, -9, 99] { trace := true }).step.2.perform 0 .step).1 =
      .error (.trap ⟨2, .negativeAddress (-4)⟩) := rfl
  obtain ⟨memory, registers, _⟩ := failing_calls_are_atomic _ _ 0 .step _ (Prod.ext failed rfl)
  exact ⟨failed, memory, registers⟩

end Intcode.Machine
