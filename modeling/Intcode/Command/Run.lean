import Intcode.Chain.Search
import Intcode.Command.Host
import Intcode.Command.Invocation
import Intcode.Program.Text
import Intcode.Text.Utf8

/-!
# Running commands

`run` executes a program and prints its outputs as they come, `disasm` prints a listing, `amp`
prints the signal of the best phase setting. Failures of the machine, of files and of input text end
with exit code 1, all others, and misuse of the command line, with 2.
-/

set_option autoImplicit false

namespace Intcode.Command

/-- Why a command fails. -/
inductive Failure where
  | library (error : Error)
  | file (fault : Files.Fault)
  | undecodable (fault : Text.Utf8.Fault)
  | value (fault : ValueFault)
  /-- A patch without a value. -/
  | blankPatch
  /-- An address or a step limit without a value. -/
  | blankNumber
  /-- Standard input ended while the program waited for input. -/
  | inputClosed
  | outOfFuel

namespace Failure

def message : Failure → String
  | library error => error.message
  | file fault => fault.message
  | undecodable fault => fault.message
  | value fault => fault.message
  | blankPatch => "not enough values to unpack (expected 2, got 0)"
  | blankNumber => "'<' not supported between instances of 'list' and 'int'"
  | inputClosed => "stdin closed while the program was waiting for input"
  | outOfFuel => "execution was cut off"

def isInternal : Failure → Bool
  | library error => error.isInternal
  | file fault => fault.reason = .nullByte
  | value _ | inputClosed => false
  | undecodable _ | blankPatch | blankNumber | outOfFuel => true

def ofStop : Stop → Failure
  | .failed error => library error
  | .outOfFuel => outOfFuel

end Failure

/-- How the program ends: with an exit code, or because its log file cannot be opened. -/
inductive Exit where
  | code (code : Nat)
  | noLog (fault : Files.Fault)

section

variable {m : Type → Type} [Monad m] [Host m]

def announce (journal : Journal) (notice : Notice) : m Unit :=
  post journal (Record.ofNotice notice)

def printLine (text : String) : m Unit := Host.print (text ++ "\n")

/-- Loads a program from a file, or from standard input if the path is a dash. -/
def load (journal : Journal) (source : String) : ExceptT Failure m Program := do
  if source = "-" then
    let text ← (Host.readAll : m String)
    match Program.ofText text with
    | .error error => throw (.library error)
    | .ok program => return program
  else
    match ← (Host.readFile source : m (Except Files.Fault (List UInt8))) with
    | .error fault => throw (.file fault)
    | .ok bytes =>
        match Text.Utf8.decode bytes with
        | .error fault => throw (.undecodable fault)
        | .ok text =>
            match Program.ofText (String.ofList (Text.unifyLineEnds text)) with
            | .error error => throw (.library error)
            | .ok program =>
                (announce journal (.programParsed program.words.length) : m Unit)
                return program

/-- Queues the words of a line of standard input; an empty line means that there is none left. -/
def takeLine (execution : Execution) (line : String) : Except Failure Execution :=
  if line.isEmpty then .error .inputClosed
  else
    match wordsOfText line with
    | .error fault => .error (.value fault)
    | .ok words => (execution.pushAll words).mapError .library

/-- Pulls and prints until the program halts. When it waits for input and `stdin` is set, lines are
read from standard input until one holds a word. -/
def pullAll (fuel : Nat) (journal : Journal) (stdin : Bool) :
    (pulls : Nat) → Execution → m (Except Failure Unit × Execution)
  | 0, execution => pure (.error .outOfFuel, execution)
  | pulls + 1, execution => do
      let (outcome, next, notices) := execution.pullNoting fuel
      notices.forM (announce journal)
      match outcome with
      | .ok (some word) =>
          printLine (Text.decimal word)
          pullAll fuel journal stdin pulls next
      | .ok none =>
          if next.options.refuseLeftovers && !next.queue.isEmpty then
            pure (.error (.library (.unusedInputs next.queue.length)), next)
          else pure (.ok (), next)
      | .error stop =>
          match stop, stdin with
          | .failed (.starved _), true => do
              let line ← Host.readLine
              match takeLine next line with
              | .error failure => pure (.error failure, next)
              | .ok fed => pullAll fuel journal stdin pulls fed
          | _, _ => pure (.error (Failure.ofStop stop), next)

def applyPatches (program : Program) (patches : List (Option Patch)) : Except Failure Program :=
  patches.foldlM
    (fun program patch? =>
      match patch? with
      | none => .error .blankPatch
      | some patch => (program.patch patch.address patch.value).mapError .library)
    program

def optionsOf (settings : RunSettings) : Except Failure Options :=
  let options : Options :=
    { trace := settings.trace, refuseLeftovers := !settings.allowUnusedInputs }
  match settings.limit with
  | some none => .error .blankNumber
  | some (some limit) => (options.withLimit (some limit)).mapError .library
  | none => .ok options

/-- Prints the words at some addresses. -/
def printDumps (execution : Execution) (addresses : List (Option Int)) : ExceptT Failure m Unit :=
  addresses.forM fun address? =>
    match address? with
    | none => throw .blankNumber
    | some address =>
        match execution.read address with
        | .error error => throw (.library error)
        | .ok word =>
            (printLine ("[" ++ Text.decimal address ++ "] = " ++ Text.decimal word) : m Unit)

/-- A result inside a command. -/
def ofResult {Value : Type} (result : Except Failure Value) : ExceptT Failure m Value :=
  ExceptT.mk (pure result)

/-- A result of the library inside a command. -/
def ofLibrary {Value : Type} (result : Except Error Value) : ExceptT Failure m Value :=
  ofResult (result.mapError .library)

/-- Runs a program that has its inputs. The trace goes to standard error once the program has
stopped, however it did. -/
def runProgram (fuel : Nat) (journal : Journal) (settings : RunSettings) (program : Program)
    (options : Options) : ExceptT Failure m Unit := do
  let execution ← ofLibrary (program.start options)
  (announce journal (.runStarted program.words.length program.inputs.length) : m Unit)
  let (ending, final) ← (pullAll fuel journal settings.stdin fuel execution :
    m (Except Failure Unit × Execution))
  if settings.trace then (Host.complain (final.machine.traceText ++ "\n") : m Unit)
  ofResult ending
  printDumps final settings.dumps
  (announce journal (.runFinished final.machine.registers.steps) : m Unit)

def runCommand (fuel : Nat) (journal : Journal) (settings : RunSettings) :
    ExceptT Failure m Unit := do
  let loaded ← load journal (settings.program.getD "")
  let patched ← ofResult (applyPatches loaded settings.patches)
  let program ← ofLibrary (patched.loadInputs settings.inputs.flatten)
  let options ← ofResult (optionsOf settings)
  runProgram fuel journal settings program options

def disasmCommand (journal : Journal) (settings : DisasmSettings) : ExceptT Failure m Unit := do
  let program ← load journal (settings.program.getD "")
  let listing ← ofLibrary (Listing.render program.words 0)
  (printLine listing : m Unit)

def ampCommand (fuel : Nat) (journal : Journal) (settings : AmpSettings) :
    ExceptT Failure m Unit := do
  let program ← load journal (settings.program.getD "")
  let (result, events) := Chain.best fuel program (settings.phases.getD []) settings.feedback
  (events.toList.forM (fun event => event.notices.forM (announce journal)) : m Unit)
  match result with
  | .error stop => throw (Failure.ofStop stop)
  | .ok none => pure ()
  | .ok (some setting) =>
      (printLine (Text.decimal setting.signal) : m Unit)
      (announce journal (.bestSetting setting.phases) : m Unit)

def runInvocation (fuel : Nat) (journal : Journal) : Job → ExceptT Failure m Unit
  | .run settings => runCommand fuel journal settings
  | .disasm settings => disasmCommand journal settings
  | .amp settings => ampCommand fuel journal settings

/-- The console shows warnings, and more with each step of verbosity. -/
def journalOf (invocation : Invocation) : Journal :=
  { consoleLevel :=
      if invocation.verbosity = 0 then Level.warning
      else if invocation.verbosity = 1 then Level.info
      else Level.debug
    file := invocation.logFile }

/-- Reports a failure and gives the exit code. -/
def conclude (verbosity : Nat) : Except Failure Unit → m Nat
  | .ok () => pure 0
  | .error failure =>
      if failure.isInternal then do
        Host.complain ("Internal error: " ++ failure.message ++ "\n")
        if 2 ≤ verbosity then Host.complain "Traceback (most recent call last):\n"
        pure 2
      else do
        Host.complain ("Error: " ++ failure.message ++ "\n")
        pure 1

/-- The whole program, from its arguments to its exit. -/
def execute (fuel : Nat) (arguments : List String) : m Exit :=
  match Invocation.read arguments with
  | .error (.help text) => do
      Host.print text
      pure (.code 0)
  | .error .version => do
      printLine (Help.programName ++ " " ++ Help.version)
      pure (.code 0)
  | .error (.misuse text) => do
      Host.complain text
      pure (.code 2)
  | .ok invocation => do
      let journal := journalOf invocation
      match ← openJournal journal with
      | .error fault => pure (.noLog fault)
      | .ok () =>
          let ending ← (runInvocation fuel journal invocation.command).run
          return .code (← conclude invocation.verbosity ending)

end

end Intcode.Command
