import Intcode.Command.Grammar
import Intcode.Command.Help

/-!
# Invocations

The three commands with their settings, and how a command line gives them.
-/

set_option autoImplicit false

namespace Intcode.Command

/-- Patches, dumps and the step limit may be given without a value. -/
structure RunSettings where
  program : Option String := none
  inputs : List (List Int) := []
  patches : List (Option Patch) := []
  stdin : Bool := false
  limit : Option (Option Int) := none
  trace : Bool := false
  allowUnusedInputs : Bool := false
  dumps : List (Option Int) := []

structure DisasmSettings where
  program : Option String := none

structure AmpSettings where
  program : Option String := none
  phases : Option (List Int) := none
  feedback : Bool := false

inductive Job where
  | run (settings : RunSettings)
  | disasm (settings : DisasmSettings)
  | amp (settings : AmpSettings)

/-- What stands before the command, and the command. -/
structure MainSettings where
  verbosity : Nat := 0
  logFile : Option String := none
  command : Option Job := none

def helpSwitch {Settings : Type} : Switch Settings := ⟨["-h", "--help"], .help⟩

/-- Reads a value, if there is one. -/
def readGiven {Value : Type} (read : String → Except ValueFault Value) :
    Option String → Except ValueFault (Option Value)
  | none => .ok none
  | some text => (read text).map some

/-- Reads a list of words; no value is an empty list. -/
def readWords (value : Option String) : Except ValueFault (List Int) :=
  (readGiven wordsOfText value).map (·.getD [])

/-- The name of the program operand, if it is missing. -/
def missingProgram (program : Option String) : List String :=
  if program.isNone then ["program"] else []

def runGrammar : Grammar RunSettings where
  name := "icvm run"
  usage := Help.runUsage
  details := Help.runDetails
  switches :=
    [helpSwitch,
      ⟨["--input", "-i"], .value fun settings value =>
        (readWords value).map fun words =>
          { settings with inputs := settings.inputs ++ [words] }⟩,
      ⟨["--patch", "-p"], .value fun settings value =>
        (readGiven Patch.ofText value).map fun patch =>
          { settings with patches := settings.patches ++ [patch] }⟩,
      ⟨["--stdin"], .flag fun settings => { settings with stdin := true }⟩,
      ⟨["--max-steps"], .value fun settings value =>
        (readGiven numberOfText value).map fun limit =>
          { settings with limit := some limit }⟩,
      ⟨["--trace"], .flag fun settings => { settings with trace := true }⟩,
      ⟨["--allow-unused-inputs"], .flag fun settings =>
        { settings with allowUnusedInputs := true }⟩,
      ⟨["--dump"], .value fun settings value =>
        (readGiven numberOfText value).map fun address =>
          { settings with dumps := settings.dumps ++ [address] }⟩]
  operand := .single fun settings text => { settings with program := some text }
  missing := fun settings => missingProgram settings.program

def disasmGrammar : Grammar DisasmSettings where
  name := "icvm disasm"
  usage := Help.disasmUsage
  details := Help.disasmDetails
  switches := [helpSwitch]
  operand := .single fun settings text => { settings with program := some text }
  missing := fun settings => missingProgram settings.program

def ampGrammar : Grammar AmpSettings where
  name := "icvm amp"
  usage := Help.ampUsage
  details := Help.ampDetails
  switches :=
    [helpSwitch,
      ⟨["--phases"], .value fun settings value =>
        (readWords value).map fun phases => { settings with phases := some phases }⟩,
      ⟨["--feedback"], .flag fun settings => { settings with feedback := true }⟩]
  operand := .single fun settings text => { settings with program := some text }
  missing := fun settings =>
    missingProgram settings.program ++ if settings.phases.isNone then ["--phases"] else []

/-- What the main grammar says about a word that is no command. -/
def unknownCommand (name : String) : String :=
  "argument command: invalid choice: " ++ Text.quoted name ++
    " (choose from 'run', 'disasm', 'amp')"

/-- The main grammar without its commands. -/
def bareGrammar : Grammar MainSettings where
  name := Help.programName
  usage := Help.mainUsage
  details := Help.mainDetails
  switches :=
    [helpSwitch,
      ⟨["--verbose", "-v"], .flag fun settings =>
        { settings with verbosity := settings.verbosity + 1 }⟩,
      ⟨["--log-file"], .value fun settings value =>
        .ok { settings with logFile := value.filter (· ≠ "") }⟩,
      ⟨["--version"], .version⟩]
  operand := .single fun settings _ => settings
  missing := fun settings => if settings.command.isNone then ["command"] else []

/-- Reads the arguments of a command. -/
def readCommand (settings : MainSettings) (name : String) (arguments : List String) :
    Except Halt (MainSettings × List String) :=
  if name = "run" then
    (runGrammar.read {} arguments).map fun (run, extras) =>
      ({ settings with command := some (.run run) }, extras)
  else if name = "disasm" then
    (disasmGrammar.read {} arguments).map fun (disasm, extras) =>
      ({ settings with command := some (.disasm disasm) }, extras)
  else if name = "amp" then
    (ampGrammar.read {} arguments).map fun (amp, extras) =>
      ({ settings with command := some (.amp amp) }, extras)
  else .error (bareGrammar.misuse (unknownCommand name))

def mainGrammar : Grammar MainSettings := { bareGrammar with operand := .command readCommand }

structure Invocation where
  verbosity : Nat
  logFile : Option String
  command : Job

/-- Reads a whole command line. A run cannot take both its program and its inputs from standard
input. -/
def Invocation.read (arguments : List String) : Except Halt Invocation := do
  let (settings, extras) ← mainGrammar.read {} arguments
  if !extras.isEmpty then
    throw (mainGrammar.misuse ("unrecognized arguments: " ++ Text.joined " " extras))
  match settings.command with
  | none => throw (mainGrammar.misuse "the following arguments are required: command")
  | some command =>
      match command with
      | .run run =>
          if run.stdin && run.program = some "-" then
            throw (mainGrammar.misuse
              "--stdin needs a program file; stdin already holds the program")
      | .disasm _ | .amp _ => pure ()
      return { verbosity := settings.verbosity, logFile := settings.logFile, command }

end Intcode.Command
