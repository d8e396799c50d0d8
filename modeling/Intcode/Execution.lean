import Intcode.Notice

/-!
# Executions

An execution is a running program with a queue of input words. Its outputs are pulled one at a time:
a pull runs the machine until it outputs a word, halts, finds the queue empty at an input
instruction, or fails. After an empty queue the same pull can be made again once words were pushed,
and execution goes on at that instruction. A fault is final until the execution is reset: from then
on every pull reports it.

Programs need not halt, so pulls take a bound on the number of machine steps. Reaching it is an
outcome of its own, different from all errors.
-/

set_option autoImplicit false

namespace Intcode

/-- The given words, unless one of them does not fit a word. -/
def acceptInputs (values : List Int) : Except Error (List Int) :=
  match values.find? fun value => ¬ Word.Fits value with
  | some value => .error (Error.inputOutOfRange value).raised
  | none => .ok values

structure Execution where
  image : List Int
  preloaded : List Int
  options : Options
  machine : Machine
  /-- Words not yet read, the next one first. -/
  queue : List Int
  halted : Bool
  fault : Option Trap

namespace Execution

/-- More machine steps than any execution makes. -/
def unbounded : Nat := 4611686018427387904

def boot (image preloaded : List Int) (options : Options) : Execution :=
  { image
    preloaded
    options
    machine := Machine.boot image options
    queue := preloaded
    halted := false
    fault := none }

def start (image inputs : List Int) (options : Options) : Except Error Execution :=
  (acceptInputs inputs).map fun preloaded => boot image preloaded options

/-- Back to the image and the preloaded inputs. -/
def reset (execution : Execution) : Execution :=
  boot execution.image execution.preloaded execution.options

/-- Appends one word to the queue. -/
def push (execution : Execution) (value : Int) : Except Error Execution :=
  if Word.Fits value then .ok { execution with queue := execution.queue ++ [value] }
  else .error (Error.inputOutOfRange value).raised

/-- Appends words to the queue, all of them or none. -/
def pushAll (execution : Execution) (values : List Int) : Except Error Execution :=
  (acceptInputs values).map fun words => { execution with queue := execution.queue ++ words }

/-- One machine step, together with the hand-over of a queued word if the step asks for one. The
result is there if it ends the pull. -/
def turn (execution : Execution) : Option (Except Error (Option Int)) × Execution :=
  match execution.machine.step with
  | (.error (.trap trap), machine) =>
      (some (.error (.trap trap)), { execution with machine, fault := some trap })
  | (.error error, machine) => (some (.error error), { execution with machine })
  | (.ok .continued, machine) => (none, { execution with machine })
  | (.ok (.output word), machine) => (some (.ok (some word)), { execution with machine })
  | (.ok .halted, machine) => (some (.ok none), { execution with machine, halted := true })
  | (.ok (.needsInput target), machine) =>
      match execution.queue with
      | [] => (some (.error (.starved machine.registers.ip)), { execution with machine })
      | word :: queue => (none, { execution with machine := machine.supply target word, queue })

/-- Turns until one ends the pull, at most `fuel` of them. -/
def advance : (fuel : Nat) → Execution → Except Stop (Option Int) × Execution
  | 0, execution => (.error .outOfFuel, execution)
  | fuel + 1, execution =>
      match execution.turn with
      | (none, next) => advance fuel next
      | (some (.ok result), next) => (.ok result, next)
      | (some (.error error), next) => (.error (.failed error), next)

/-- The next output word, or none once the program has halted. -/
def pull (fuel : Nat) (execution : Execution) : Except Stop (Option Int) × Execution :=
  match execution.fault with
  | some trap => (.error (.failed (.stopped trap)), execution)
  | none => if execution.halted then (.ok none, execution) else execution.advance fuel

/-- Pulls until the program halts or a pull gives no result, and adds the output words to those
already there. -/
def collect : (fuel : Nat) → Execution → (outputs : Array Int) →
    Array Int × Option Stop × Execution
  | 0, execution, outputs => (outputs, some .outOfFuel, execution)
  | fuel + 1, execution, outputs =>
      match execution.pull fuel with
      | (.ok (some word), next) => collect fuel next (outputs.push word)
      | (.ok none, next) => (outputs, none, next)
      | (.error stop, next) => (outputs, some stop, next)

/-- All remaining output words. Words left in the queue after the program halted are an error if the
options ask for that. -/
def drain (fuel : Nat) (execution : Execution) : Except Stop (List Int) × Execution :=
  match execution.collect fuel #[] with
  | (_, some stop, next) => (.error stop, next)
  | (outputs, none, next) =>
      if next.options.refuseLeftovers && !next.queue.isEmpty then
        (.error (.failed (.unusedInputs next.queue.length)), next)
      else (.ok outputs.toList, next)

/-- The word at an address of the running program's memory. -/
def read (execution : Execution) (address : Int) : Except Error Int :=
  execution.machine.memory.read address

/-- All words of the running program's memory, if there is room for the copy. -/
def memoryWords (room : Nat) (execution : Execution) : Except Error (List Int) :=
  (execution.machine.memory.snapshot room).map Array.toList

def setTracing (execution : Execution) (tracing : Bool) : Execution :=
  { execution with machine := execution.machine.setTracing tracing }

def forgetTrace (execution : Execution) : Execution :=
  { execution with machine := execution.machine.forgetTrace }

/-- The notices of a pull that started with `traced` trace entries and was not settled before. -/
def pullNotices (traced : Nat) (outcome : Except Stop (Option Int)) (after : Execution) :
    List Notice :=
  let entries := (after.machine.trace.toList.drop traced).map Notice.traced
  let ending :=
    match outcome with
    | .ok none => [Notice.halted after.machine.registers.ip after.machine.registers.steps]
    | .error (.failed (.starved pointer)) => [Notice.starved pointer]
    | .error (.failed (.trap trap)) => [Notice.faulted trap]
    | _ => []
  entries ++ ending

/-- A pull with its notices. An execution that has already halted or failed gives none. -/
def pullNoting (fuel : Nat) (execution : Execution) :
    Except Stop (Option Int) × Execution × List Notice :=
  let settled := execution.halted || execution.fault.isSome
  let traced := execution.machine.trace.size
  let (outcome, next) := execution.pull fuel
  (outcome, next, if settled then [] else pullNotices traced outcome next)

end Execution

end Intcode
