import Intcode.Execution

/-!
# Programs

A program is a memory image and the input words its executions start with. Programs are values:
patching or loading inputs gives a new one.
-/

set_option autoImplicit false

namespace Intcode

structure Program where
  words : List Int
  inputs : List Int := []
  deriving DecidableEq, Repr

namespace Program

/-- Replaces one word of the image. -/
def patch (program : Program) (address value : Int) : Except Error Program :=
  if address < 0 ∨ (program.words.length : Int) ≤ address then
    .error (Error.outsideImage address program.words.length).raised
  else .ok { program with words := program.words.set address.toNat value }

/-- Replaces the input words. -/
def loadInputs (program : Program) (values : List Int) : Except Error Program :=
  (acceptInputs values).map fun inputs => { program with inputs }

def start (program : Program) (options : Options) : Except Error Execution :=
  Execution.start program.words program.inputs options

/-- All output words of a complete execution. -/
def run (fuel : Nat) (program : Program) (options : Options) : Except Stop (List Int) :=
  match program.start options with
  | .error error => .error (.failed error)
  | .ok execution => (execution.drain fuel).1

/-- The size of the image and the inputs, if they can be written. -/
def summary (program : Program) : Except Error String :=
  if ∀ input ∈ program.inputs, Text.Writable input then
    .ok ("Program(" ++ Text.decimal program.words.length ++ " words, inputs=[" ++
      Text.joined ", " (program.inputs.map Text.decimal) ++ "])")
  else .error .unwritable

end Program

end Intcode
