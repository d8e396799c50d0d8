import Intcode.Instruction
import Intcode.Word

/-!
# Disassembly

Code and data share one address space, so a disassembly is a linear sweep: a word that decodes is
shown as an instruction with its operands and the sweep goes on behind them; any other word is shown
as data. Operands behind the last word read as zero, as in memory. The lines are made one by one,
and the first line with a number that cannot be written ends the sweep.
-/

set_option autoImplicit false

namespace Intcode

/-- An operand as its mode uses it: an address, a value, or an offset from the relative base. -/
def Mode.operandText (mode : Mode) (operand : Int) : String :=
  match mode with
  | .position => "[" ++ Text.decimal operand ++ "]"
  | .immediate => "#" ++ Text.decimal operand
  | .relative => "[rb" ++ Text.signedDecimal operand ++ "]"

/-- The mnemonic and the operands. -/
def Instruction.text (instruction : Instruction) (operands : List Int) : String :=
  if instruction.modes.isEmpty then instruction.op.mnemonic
  else
    Text.padRight 5 instruction.op.mnemonic ++
      Text.joined ", " (List.zipWith Mode.operandText instruction.modes operands)

namespace Listing

/-- What a sweep finds at an address. -/
inductive Content where
  | data (word : Int)
  | code (instruction : Instruction) (operands : List Int)
  deriving DecidableEq, Repr

structure Line where
  address : Int
  content : Content
  deriving DecidableEq, Repr

def Line.width (line : Line) : Nat :=
  match line.content with
  | .data _ => 1
  | .code instruction _ => instruction.width

def Line.text (line : Line) : String :=
  match line.content with
  | .data word => "DATA " ++ Text.decimal word
  | .code instruction operands => instruction.text operands

/-- The first `count` words, with zeros for missing ones. -/
def operands (count : Nat) (words : List Int) : List Int :=
  (List.range count).map fun index => words.getD index 0

/-- The line of a word and the words behind it. A word that is no instruction is shown as data; what
keeps it from being reported as such is reported here. -/
def lineAt (address word : Int) (rest : List Int) : Except Error Line :=
  match Instruction.decode word with
  | .ok instruction =>
      let shown := operands instruction.modes.length rest
      if ∀ operand ∈ shown, Text.Writable operand then .ok ⟨address, .code instruction shown⟩
      else .error .unwritable
  | .error (.fault (.undecodable _)) => .ok ⟨address, .data word⟩
  | .error error => .error error

/-- What a sweep has put out when it ends, and what ended it before it was through. -/
structure Output where
  lines : List Line
  failure? : Option Error
  deriving DecidableEq, Repr

namespace Output

def failed (error : Error) : Output := ⟨[], some error⟩

/-- The line comes first. -/
def after (line : Line) (output : Output) : Output := { output with lines := line :: output.lines }

/-- All lines, if there are no more. -/
def all (output : Output) : Except Error (List Line) :=
  match output.failure? with
  | some error => .error error
  | none => .ok output.lines

end Output

/-- Sweeps words that lie at consecutive addresses. -/
def sweep (address : Int) (words : List Int) : Output :=
  match words with
  | [] => ⟨[], none⟩
  | word :: rest =>
      match lineAt address word rest with
      | .error error => .failed error
      | .ok line => (sweep (address + line.width) (rest.drop (line.width - 1))).after line
termination_by words.length
decreasing_by simp only [List.length_cons, List.length_drop]; omega

/-- Sweeps a word list from an address on. A negative address counts from the end of the list, and
the sweep then runs through the rest of the list and once more through all of it. -/
def output (words : List Int) (start : Int) : Output :=
  if 0 ≤ start then sweep start (words.drop start.toNat)
  else if -(words.length : Int) ≤ start then
    sweep start (words.drop (words.length + start).toNat ++ words)
  else if start < Word.least then .failed .startTooFar
  else .failed .startBeforeImage

/-- All lines of a sweep. -/
def disassemble (words : List Int) (start : Int) : Except Error (List Line) :=
  (output words start).all

/-- Where an end of a stretch of a list lies, when negative positions count from the end. -/
def position (length : Nat) (index : Int) : Nat :=
  if index < 0 then (length + index).toNat else min length index.toNat

/-- The words from one position up to another. -/
def stretch (words : List Int) (first last : Int) : List Int :=
  let lower := position words.length first
  (words.drop lower).take (position words.length last - lower)

/-- The words a line covers, as program text. -/
def rawColumn (words : List Int) (line : Line) : String :=
  Text.joined ","
    ((stretch words line.address (line.address + line.width)).map Text.decimal)

/-- A line's address, the words it covers and its text. -/
def row (words : List Int) (line : Line) : String :=
  Text.zeroPadded 6 line.address ++ "  " ++ Text.padRight 32 (rawColumn words line) ++ " " ++
    line.text

def render (words : List Int) (start : Int) : Except Error String := do
  let lines ← disassemble words start
  return Text.joined "\n" (lines.map (row words))

end Listing

end Intcode
