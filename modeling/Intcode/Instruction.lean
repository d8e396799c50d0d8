import Intcode.Error

/-!
# Instructions

An instruction word holds an opcode in its two lowest decimal digits and, above them, one digit per
parameter that says how the parameter's operand is used. Digits that are not written are zero, so
absent modes are position modes; digits beyond the operation's arity must be zero.
-/

set_option autoImplicit false

namespace Intcode

/-- How an operand is used. -/
inductive Mode where
  /-- The operand is an address. -/
  | position
  /-- The operand is the value itself; nothing can be written to it. -/
  | immediate
  /-- The operand is an offset from the relative base. -/
  | relative
  deriving DecidableEq, Repr

namespace Mode

def digit : Mode → Nat
  | position => 0
  | immediate => 1
  | relative => 2

def ofDigit? : Nat → Option Mode
  | 0 => some position
  | 1 => some immediate
  | 2 => some relative
  | _ => none

end Mode

inductive Op where
  | add
  | multiply
  | input
  | output
  | jumpIfTrue
  | jumpIfFalse
  | lessThan
  | equals
  | adjustBase
  | halt
  deriving DecidableEq, Repr

namespace Op

/-- All operations, in the order of their codes. -/
def all : List Op :=
  [add, multiply, input, output, jumpIfTrue, jumpIfFalse, lessThan, equals, adjustBase, halt]

def code : Op → Nat
  | add => 1
  | multiply => 2
  | input => 3
  | output => 4
  | jumpIfTrue => 5
  | jumpIfFalse => 6
  | lessThan => 7
  | equals => 8
  | adjustBase => 9
  | halt => 99

def ofCode? (code : Nat) : Option Op := all.find? fun op => op.code = code

def mnemonic : Op → String
  | add => "ADD"
  | multiply => "MUL"
  | input => "IN"
  | output => "OUT"
  | jumpIfTrue => "JT"
  | jumpIfFalse => "JF"
  | lessThan => "LT"
  | equals => "EQ"
  | adjustBase => "ARB"
  | halt => "HALT"

/-- The number of parameters. -/
def arity : Op → Nat
  | add | multiply | lessThan | equals => 3
  | jumpIfTrue | jumpIfFalse => 2
  | input | output | adjustBase => 1
  | halt => 0

/-- The index of the parameter that is written, for operations that write one. -/
def writeIndex? : Op → Option Nat
  | add | multiply | lessThan | equals => some 2
  | input => some 0
  | output | jumpIfTrue | jumpIfFalse | adjustBase | halt => none

end Op

/-- An operation, the modes of its parameters in order, and the word it was read from. -/
structure Instruction where
  op : Op
  modes : List Mode
  word : Int
  deriving DecidableEq, Repr

namespace Instruction

/-- The number of memory words the instruction occupies, its own word included. -/
def width (instruction : Instruction) : Nat := 1 + instruction.modes.length

/-- The mode of a parameter. Parameters beyond the arity do not occur in decoded instructions. -/
def mode (instruction : Instruction) (index : Nat) : Mode :=
  instruction.modes.getD index .position

end Instruction

namespace Instruction

/-- The modes in the lowest `count` digits of a number and the number above them, or the first digit
that is no mode. -/
def readModes : (count remainder : Nat) → Except Nat (List Mode × Nat)
  | 0, remainder => .ok ([], remainder)
  | count + 1, remainder =>
      match Mode.ofDigit? (remainder % 10) with
      | none => .error (remainder % 10)
      | some mode =>
          match readModes count (remainder / 10) with
          | .error digit => .error digit
          | .ok (modes, rest) => .ok (mode :: modes, rest)

/-- The instruction that a word holds. A negative word is refused before its opcode is looked at,
the opcode before the modes, and a bad mode digit before digits beyond the arity. -/
def ofWord (word : Int) : Except DecodeError Instruction :=
  if word < 0 then .error (.negative word)
  else
    match Op.ofCode? (word.toNat % 100) with
    | none => .error (.unknownOpcode word)
    | some op =>
        match readModes op.arity (word.toNat / 100) with
        | .error digit => .error (.invalidMode word digit)
        | .ok (modes, 0) => .ok ⟨op, modes, word⟩
        | .ok (_, remainder + 1) => .error (.extraModes word op.arity (remainder + 1))

/-- Reads an instruction word. What is wrong with a word can be reported only if the word can be
written. -/
def decode (word : Int) : Except Error Instruction :=
  (ofWord word).mapError fun error => (Error.fault (.undecodable error)).raised

/-- The number whose decimal digits, lowest first, are those of some modes. -/
def modesNumber : List Mode → Nat
  | [] => 0
  | mode :: modes => mode.digit + 10 * modesNumber modes

/-- The word of an operation with some modes. -/
def encode (op : Op) (modes : List Mode) : Nat := op.code + 100 * modesNumber modes

end Instruction

end Intcode
