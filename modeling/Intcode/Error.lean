import Intcode.Text.Quoted
import Intcode.Text.Decimal

/-!
# What can go wrong

`Fault` is what stops an instruction; a `Trap` is a fault together with the address of the
instruction. `Error` is everything the library reports: faults, misuse of programs and input
queues, chains that do not settle, and the few failures that lie outside the machine's own terms
(`Error.isInternal`).

The text of an error shows the numbers it is about, and numbers with too many digits cannot be
written. There is no such error then; `Error.raised` says what there is instead.
-/

set_option autoImplicit false

namespace Intcode

/-- Why a word is no instruction. -/
inductive DecodeError where
  | negative (word : Int)
  | unknownOpcode (word : Int)
  | invalidMode (word : Int) (digit : Nat)
  | extraModes (word : Int) (expected remainder : Nat)
  deriving DecidableEq, Repr

namespace DecodeError

def message : DecodeError → String
  | negative word => "encountered negative instruction word " ++ Text.decimal word
  | unknownOpcode word =>
      Text.decimal word ++ " does not encode a known opcode (" ++ Text.zeroPadded 2 (word % 100) ++
        ")"
  | invalidMode word digit =>
      "invalid addressing mode digit " ++ Text.decimal digit ++ " in " ++ Text.decimal word
  | extraModes word expected remainder =>
      Text.decimal word ++ " carries extra addressing modes: expected " ++ Text.decimal expected ++
        " parameter(s), found remainder " ++ Text.decimal remainder

/-- The integers of any size that the text shows. -/
def numbers : DecodeError → List Int
  | negative word | unknownOpcode word | invalidMode word _ => [word]
  | extraModes word _ remainder => [word, (remainder : Int)]

end DecodeError

/-- The computations whose results must fit a word. -/
inductive Computation where
  | addition
  | multiplication
  | relativeAddress
  | baseAdjustment
  deriving DecidableEq, Repr

def Computation.name : Computation → String
  | addition => "addition"
  | multiplication => "multiplication"
  | relativeAddress => "relative address"
  | baseAdjustment => "relative base adjustment"

/-- Why an instruction cannot be executed. -/
inductive Fault where
  | undecodable (error : DecodeError)
  | overflow (computation : Computation) (lhs rhs : Int)
  | negativeAddress (address : Int)
  | negativeJump (target : Int)
  | writeToImmediate (word : Int)
  | endOfMemory (pointer size : Nat)
  | stepLimit (limit : Nat)
  deriving DecidableEq, Repr

namespace Fault

def message : Fault → String
  | undecodable error => error.message
  | overflow computation lhs rhs =>
      computation.name ++ " of " ++ Text.decimal lhs ++ " and " ++ Text.decimal rhs ++
        " overflows a 64-bit word"
  | negativeAddress address => "encountered negative address " ++ Text.decimal address
  | negativeJump target => "jump target " ++ Text.decimal target ++ " is negative"
  | writeToImmediate word =>
      Text.decimal word ++ " uses immediate mode for a write parameter"
  | endOfMemory pointer size =>
      "ran off the end of memory at " ++ Text.decimal pointer ++ " (size " ++ Text.decimal size ++
        ") without halting"
  | stepLimit limit => "step limit of " ++ Text.decimal limit ++ " instructions exceeded"

/-- The integers of any size that the text shows. A step limit is not among them: it was reached. -/
def numbers : Fault → List Int
  | undecodable error => error.numbers
  | overflow _ lhs rhs => [lhs, rhs]
  | negativeAddress address => [address]
  | negativeJump target => [target]
  | writeToImmediate word => [word]
  | endOfMemory pointer _ => [(pointer : Int)]
  | stepLimit _ => []

end Fault

/-- A fault and the address of the instruction it stopped. -/
structure Trap where
  pointer : Nat
  fault : Fault
  deriving DecidableEq, Repr

/-- What keeps an amplifier from having done its part in a chain. -/
inductive Shortcoming where
  | silent (phase : Int)
  | waiting
  | talking (word : Int)
  deriving DecidableEq, Repr

def Shortcoming.text : Shortcoming → String
  | silent phase => "with phase " ++ Text.decimal phase ++ " halted without output"
  | waiting => "is still waiting for input"
  | talking word => "produced extra output " ++ Text.decimal word

/-- The integers of any size that the text shows. -/
def Shortcoming.numbers : Shortcoming → List Int
  | silent phase => [phase]
  | waiting => []
  | talking word => [word]

inductive Error where
  /-- A piece of program text that is no word. -/
  | malformedWord (token : String) (index : Nat)
  /-- A piece of program text with more digits than are converted. -/
  | tooManyDigits (count : Nat)
  /-- An integer with more digits than are written. -/
  | unwritable
  /-- A patch outside the program image. -/
  | outsideImage (address : Int) (size : Nat)
  /-- A fault outside any instruction. -/
  | fault (cause : Fault)
  /-- A fault of the instruction that was just tried. -/
  | trap (cause : Trap)
  /-- An execution that was stopped by a fault earlier. -/
  | stopped (cause : Trap)
  /-- An input instruction found the queue empty. -/
  | starved (pointer : Nat)
  | unusedInputs (count : Nat)
  | inputOutOfRange (value : Int)
  | amplifier (index : Nat) (shortcoming : Shortcoming)
  /-- More words of memory than a word can count. -/
  | countTooLong
  /-- More words of memory than there is room for. -/
  | noRoom
  | negativeStepLimit (limit : Int)
  /-- A dump with no words to a row. -/
  | emptyRows
  /-- A disassembly that starts before the first word. -/
  | startBeforeImage
  /-- A disassembly that starts further back than a word can count. -/
  | startTooFar
  deriving DecidableEq, Repr

namespace Error

def message : Error → String
  | malformedWord token index =>
      "word " ++ Text.decimal index ++ ": " ++ Text.quoted token ++ " is not a base-10 integer"
  | tooManyDigits count =>
      "Exceeds the limit (4300 digits) for integer string conversion: value has " ++
        Text.decimal count ++ " digits; use sys.set_int_max_str_digits() to increase the limit"
  | unwritable =>
      "Exceeds the limit (4300 digits) for integer string conversion; " ++
        "use sys.set_int_max_str_digits() to increase the limit"
  | outsideImage address size =>
      "address " ++ Text.decimal address ++ " is out of bounds for a program of " ++
        Text.decimal size ++ " words"
  | fault cause => cause.message
  | trap cause => cause.fault.message
  | stopped cause => "machine faulted earlier and must be reset: " ++ cause.fault.message
  | starved pointer =>
      "program requested input at " ++ Text.decimal pointer ++ " but the queue is empty"
  | unusedInputs count =>
      "program halted with " ++ Text.decimal count ++ " input(s) left unused"
  | inputOutOfRange value => "input " ++ Text.decimal value ++ " does not fit in a 64-bit word"
  | amplifier index shortcoming =>
      "amplifier " ++ Text.decimal index ++ " " ++ shortcoming.text
  | countTooLong | startTooFar => "cannot fit 'int' into an index-sized integer"
  | noRoom => ""
  | negativeStepLimit limit => "max_steps must be non-negative, got " ++ Text.decimal limit
  | emptyRows => "range() arg 3 must not be zero"
  | startBeforeImage => "list index out of range"

/-- The integers of any size that the text shows: words, addresses, and numbers that were given. The
counts of words, inputs, steps and amplifiers that it may show besides are never so long that they
could not be written. -/
def numbers : Error → List Int
  | outsideImage address _ => [address]
  | fault cause => cause.numbers
  | trap cause => cause.fault.numbers
  | inputOutOfRange value => [value]
  | amplifier _ shortcoming => shortcoming.numbers
  | negativeStepLimit limit => [limit]
  | malformedWord _ _ | tooManyDigits _ | unwritable | stopped _ | starved _ | unusedInputs _
  | countTooLong | noRoom | emptyRows | startBeforeImage | startTooFar => []

/-- The text of an error can be written. -/
def Legible (error : Error) : Prop := ∀ number ∈ error.numbers, Text.Writable number

instance (error : Error) : Decidable error.Legible :=
  inferInstanceAs (Decidable (∀ number ∈ error.numbers, Text.Writable number))

/-- What is reported when an error is made. An error's text is written at once, and where that fails
this failure is reported instead. -/
def raised (error : Error) : Error := if error.Legible then error else .unwritable

/-- An error with the address of the instruction it stopped, unless it belongs to none. -/
def locatedAt (pointer : Nat) : Error → Error
  | fault cause => .trap ⟨pointer, cause⟩
  | error => error

/-- The address of the instruction an error belongs to, where there is one. -/
def pointer? : Error → Option Nat
  | trap cause => some cause.pointer
  | starved pointer => some pointer
  | _ => none

/-- Failures that are not among the machine's own reports. -/
def isInternal : Error → Bool
  | tooManyDigits _ | unwritable | countTooLong | noRoom | negativeStepLimit _ | emptyRows
  | startBeforeImage | startTooFar => true
  | _ => false

end Error

/-- How a bounded computation ends when it gives no result: with an error, or because its bound was
reached first. -/
inductive Stop where
  | failed (error : Error)
  | outOfFuel
  deriving DecidableEq, Repr

end Intcode
