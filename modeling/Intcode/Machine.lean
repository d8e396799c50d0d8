import Intcode.Listing
import Intcode.Memory
import Intcode.Word

/-!
# The machine

A machine holds the memory and the registers of one running program and executes one instruction per
`step`: it fetches and decodes a word, notes the instruction in the trace, and hands it to the
handler of its operation. A handler asks for the parameters one by one and changes memory and
registers as it goes along. A failure leaves the machine as it is at that point; nothing is taken
back. An input instruction is completed by `provide`, not by `step`.
-/

set_option autoImplicit false

namespace Intcode

/-- Settings of one execution. -/
structure Options where
  /-- The number of instructions after which execution is stopped. -/
  limit : Option Nat := none
  trace : Bool := false
  /-- Whether words left in the input queue of a finished program are an error. -/
  refuseLeftovers : Bool := true
  deriving DecidableEq, Repr

/-- Settings with a step limit that is given as an integer. -/
def Options.withLimit (options : Options) (limit? : Option Int) : Except Error Options :=
  match limit? with
  | none => .ok { options with limit := none }
  | some limit =>
      if limit < 0 then .error (Error.negativeStepLimit limit).raised
      else .ok { options with limit := some limit.toNat }

/-- The instruction pointer, the relative base and the number of instructions executed. -/
structure Registers where
  ip : Nat := 0
  base : Int := 0
  steps : Nat := 0
  deriving DecidableEq, Repr

def Registers.text (registers : Registers) : String :=
  "IP=" ++ Text.padRight 6 (Text.decimal registers.ip) ++
    " RB=" ++ Text.padRight 6 (Text.decimal registers.base) ++
    " STEPS=" ++ Text.decimal registers.steps

/-- An instruction with its operands and the registers before its execution. -/
structure TraceEntry where
  registers : Registers
  instruction : Instruction
  operands : List Int
  deriving DecidableEq, Repr

def TraceEntry.text (entry : TraceEntry) : String :=
  Text.zeroPadded 6 entry.registers.ip ++ ": " ++
    Text.padRight 32 (entry.instruction.text entry.operands) ++ " " ++ entry.registers.text

/-- The text of an entry can be written. Only an operand can be too long for that: the pointer of an
instruction lies inside memory, the base fits a word, and steps are counted one by one. -/
def TraceEntry.Legible (entry : TraceEntry) : Prop :=
  ∀ operand ∈ entry.operands, Text.Writable operand

instance (entry : TraceEntry) : Decidable entry.Legible :=
  inferInstanceAs (Decidable (∀ operand ∈ entry.operands, Text.Writable operand))

structure Machine where
  memory : Memory
  registers : Registers := {}
  limit : Option Nat := none
  tracing : Bool := false
  trace : Array TraceEntry := #[]
  /-- The entry of an input instruction that waits for its word. -/
  pending : Option TraceEntry := none

/-- What a step reports. -/
inductive Event where
  | continued
  | needsInput (target : Nat)
  | output (word : Int)
  | halted
  deriving DecidableEq, Repr

def Event.isRequest : Event → Bool
  | needsInput _ => true
  | continued | output _ | halted => false

/-- What a call does with a machine: it may read and change the machine, and it may fail. What it
changed before it failed stays changed. -/
abbrev Action := ExceptT Error (StateM Machine)

namespace Machine

def boot (image : List Int) (options : Options) : Machine :=
  { memory := Memory.ofImage image
    limit := options.limit
    tracing := options.trace }

/-- The operand word of a parameter. -/
def operand (machine : Machine) (index : Nat) : Int :=
  machine.memory.get (machine.registers.ip + 1 + index)

/-- The instruction at the pointer. The step limit is checked before the extent of memory, the
extent before the pointer, and the pointer before the word it points to. -/
def fetch (machine : Machine) : Except Error Instruction := do
  let pointer := machine.registers.ip
  if let some limit := machine.limit.filter (· ≤ machine.registers.steps) then
    throw (Error.fault (.stepLimit limit)).raised
  let extent ← machine.memory.length
  if extent ≤ pointer then throw (Error.fault (.endOfMemory pointer extent)).raised
  Instruction.decode (machine.memory.get pointer)

/-- What the trace shows of an instruction. -/
def entry (machine : Machine) (instruction : Instruction) : TraceEntry :=
  { registers := machine.registers
    instruction
    operands := (List.range instruction.modes.length).map machine.operand }

/-- The result of a computation, if it fits a word. -/
def checked (computation : Computation) (lhs rhs result : Int) : Except Fault Int :=
  if Word.Fits result then .ok result else .error (.overflow computation lhs rhs)

/-- An integer as an address. -/
def natural (address : Int) : Except Fault Nat :=
  if address < 0 then .error (.negativeAddress address) else .ok address.toNat

/-- The address at an offset from the relative base. -/
def relative (machine : Machine) (offset : Int) : Except Fault Nat := do
  let base := machine.registers.base
  natural (← checked .relativeAddress offset base (offset + base))

/-- The value of a parameter that is read. -/
def value (machine : Machine) (instruction : Instruction) (index : Nat) : Except Fault Int :=
  let operand := machine.operand index
  match instruction.mode index with
  | .immediate => .ok operand
  | .position => (natural operand).map machine.memory.get
  | .relative => (machine.relative operand).map machine.memory.get

/-- The address of a parameter that is written. -/
def target (machine : Machine) (instruction : Instruction) (index : Nat) : Except Fault Nat :=
  let operand := machine.operand index
  match instruction.mode index with
  | .immediate => .error (.writeToImmediate instruction.word)
  | .position => natural operand
  | .relative => machine.relative operand

/-- Puts a word into memory. Memory that grows by its default gap finds the room for it. -/
def store (machine : Machine) (target : Nat) (word : Int) : Machine :=
  { machine with memory := machine.memory.set target word }

def jumpTo (machine : Machine) (target : Nat) : Machine :=
  { machine with registers := { machine.registers with ip := target } }

/-- Moves the pointer forward. -/
def moveBy (machine : Machine) (width : Nat) : Machine :=
  machine.jumpTo (machine.registers.ip + width)

def rebase (machine : Machine) (base : Int) : Machine :=
  { machine with registers := { machine.registers with base } }

/-- Counts an executed instruction. -/
def count (machine : Machine) : Machine :=
  { machine with registers := { machine.registers with steps := machine.registers.steps + 1 } }

end Machine

namespace Action

def fail {Result : Type} (fault : Fault) : Action Result := throw (Error.fault fault).raised

/-- The answer to a question about the machine as it is now. -/
def ask {Result : Type} (question : Machine → Except Fault Result) : Action Result := do
  match question (← get) with
  | .ok answer => return answer
  | .error fault => fail fault

/-- The value of a parameter that is read. -/
def value (instruction : Instruction) (index : Nat) : Action Int :=
  ask fun machine => machine.value instruction index

/-- The address of a parameter that is written. -/
def target (instruction : Instruction) (index : Nat) : Action Nat :=
  ask fun machine => machine.target instruction index

/-! ## Handlers -/

/-- Stores a result at the third parameter. -/
def storeResult (instruction : Instruction) (result : Int) : Action Event := do
  let target ← target instruction 2
  modify (·.store target result)
  modify (·.moveBy 4)
  return .continued

/-- A sum or a product. It is checked before the target is looked at. -/
def compute (computation : Computation) (operation : Int → Int → Int) (instruction : Instruction) :
    Action Event := do
  let lhs ← value instruction 0
  let rhs ← value instruction 1
  let result := operation lhs rhs
  if ¬ Word.Fits result then fail (.overflow computation lhs rhs)
  storeResult instruction result

/-- One if a comparison holds, and zero if not. -/
def compare (holds : Int → Int → Bool) (instruction : Instruction) : Action Event := do
  let lhs ← value instruction 0
  let rhs ← value instruction 1
  storeResult instruction (if holds lhs rhs then 1 else 0)

/-- A jump that is taken when the first parameter's being non-zero agrees with `condition`. Both
parameters are read in any case. -/
def jumpIf (condition : Bool) (instruction : Instruction) : Action Event := do
  let check ← value instruction 0
  let target ← value instruction 1
  if (check != 0) = condition then
    if target < 0 then fail (.negativeJump target)
    modify (·.jumpTo target.toNat)
  else modify (·.moveBy 3)
  return .continued

def adjustBase (instruction : Instruction) : Action Event := do
  let offset ← value instruction 0
  let base := (← get).registers.base
  if ¬ Word.Fits (base + offset) then fail (.overflow .baseAdjustment base offset)
  modify (·.rebase (base + offset))
  modify (·.moveBy 2)
  return .continued

/-- Nothing is done before the word is there. -/
def request (instruction : Instruction) : Action Event := do
  return .needsInput (← target instruction 0)

def emit (instruction : Instruction) : Action Event := do
  let word ← value instruction 0
  modify (·.moveBy 2)
  return .output word

def execute (instruction : Instruction) : Action Event :=
  match instruction.op with
  | .add => compute .addition (· + ·) instruction
  | .multiply => compute .multiplication (· * ·) instruction
  | .input => request instruction
  | .output => emit instruction
  | .jumpIfTrue => jumpIf true instruction
  | .jumpIfFalse => jumpIf false instruction
  | .lessThan => compare (· < ·) instruction
  | .equals => compare (· = ·) instruction
  | .adjustBase => adjustBase instruction
  | .halt => return .halted

/-! ## Steps -/

/-- Notes an instruction in the trace, if tracing is on and the line can be written. The entry of an
input instruction is held back until the instruction is completed. -/
def note (instruction : Instruction) : Action Unit := do
  let machine ← get
  if machine.tracing then
    let entry := machine.entry instruction
    if ¬ entry.Legible then throw .unwritable
    if instruction.op = .input then set { machine with pending := some entry }
    else set { machine with trace := machine.trace.push entry }

/-- Gives the errors of an action that have no address yet the address of an instruction. -/
def located {Result : Type} (pointer : Nat) (action : Action Result) : Action Result :=
  tryCatch action fun error => throw (error.locatedAt pointer)

/-- Fetches an instruction, notes it and executes it. -/
def cycle : Action Event := do
  let instruction ← liftExcept (← get).fetch
  note instruction
  execute instruction

/-- Executes the instruction at the pointer and counts it, unless it waits for input. -/
def step : Action Event := do
  let pointer := (← get).registers.ip
  let event ← located pointer cycle
  if ¬ event.isRequest then modify Machine.count
  return event

/-- Completes an input instruction: stores the word at any integer that is an address, and moves
on. -/
def provide (target word : Int) : Action Unit := do
  if target < 0 then fail (.negativeAddress target)
  modify (·.store target.toNat word)
  modify (·.moveBy 2)
  modify Machine.count
  if let some entry := (← get).pending then
    modify fun machine => { machine with trace := machine.trace.push entry }
    modify fun machine => { machine with pending := none }

/-- What an action answers and how it leaves the machine. -/
def on {Result : Type} (action : Action Result) (machine : Machine) :
    Except Error Result × Machine :=
  action.run.run machine

end Action

namespace Machine

def step (machine : Machine) : Except Error Event × Machine := Action.step.on machine

/-- Completes an input instruction at any integer; negative addresses are refused. -/
def supplyAt (machine : Machine) (target word : Int) : Except Error Unit × Machine :=
  (Action.provide target word).on machine

/-- Completes an input instruction at an address. -/
def supply (machine : Machine) (target : Nat) (word : Int) : Machine :=
  (machine.supplyAt target word).2

/-- Turns tracing on or off. What has been noted stays. -/
def setTracing (machine : Machine) (tracing : Bool) : Machine := { machine with tracing }

/-- Forgets the trace, but not an entry that still waits. -/
def forgetTrace (machine : Machine) : Machine := { machine with trace := #[] }

def traceText (machine : Machine) : String :=
  Text.joined "\n" (machine.trace.toList.map TraceEntry.text)

/-- Sets all registers to zero; memory and trace stay. -/
def rewind (machine : Machine) : Machine := { machine with registers := {} }

end Machine

end Intcode
