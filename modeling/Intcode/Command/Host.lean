import Intcode.Files.Tree
import Intcode.Journal
import Intcode.Text.Lines
import Intcode.Text.Utf8

/-!
# What a command needs from its surroundings

Commands read files and standard input, write to standard output and standard error, and log. They
are written for any `Host` that offers this. `World` is a host that is a plain value: files, text
still to be read, and all that was written.
-/

set_option autoImplicit false

namespace Intcode.Command

class Host (m : Type → Type) where
  readFile : (path : String) → m (Except Files.Fault (List UInt8))
  /-- Makes sure that a log file can be written. -/
  openLog : (path : String) → m (Except Files.Fault Unit)
  /-- The next line of standard input with its line feed; empty at the end. -/
  readLine : m String
  /-- All that is left of standard input. -/
  readAll : m String
  print : String → m Unit
  complain : String → m Unit
  logToConsole : Record → m Unit
  logToFile : (path : String) → Record → m Unit

structure World where
  files : Files.Tree := {}
  /-- Standard input that has not been read, with plain line ends. -/
  input : List Char := []
  output : String := ""
  complaints : String := ""
  console : Array Record := #[]
  /-- Loggers that were used. -/
  loggers : List String := []
  /-- What was written to log files, with the names that lead to each from the root. -/
  logged : Array (List String × Row) := #[]

namespace World

def ofInput (files : Files.Tree) (input : String) : World :=
  { files, input := Text.unifyLineEnds input.toList }

instance : Host (StateM World) where
  readFile path := fun world => (world.files.read (.ofText path), world)
  openLog path := fun world =>
    match world.files.openForAppend (.ofText path) with
    | .error fault => (.error fault, world)
    | .ok files => (.ok (), { world with files })
  readLine := fun world =>
    let (line, input) := Text.splitLine world.input
    (String.ofList line, { world with input })
  readAll := fun world => (String.ofList world.input, { world with input := [] })
  print text := modify fun world => { world with output := world.output ++ text }
  complain text := modify fun world => { world with complaints := world.complaints ++ text }
  logToConsole record := modify fun world => { world with console := world.console.push record }
  logToFile path record := modify fun world =>
    let target := (Files.Path.ofText path).absolute world.files.working
    { world with logged := world.logged.push (target.names, .ofRecord record) }

/-- The text of a log file: what it held and what was written to it. -/
def logText (world : World) (path : String) : Except Files.Fault (List Char) := do
  let place ← world.files.locateText path
  match place.node with
  | none => throw ⟨.missing, path⟩
  | some (.directory _) => throw ⟨.isDirectory, path⟩
  | some .sink => return []
  | some (.file bytes) =>
      let before := match Text.Utf8.decode bytes with
        | .error _ => []
        | .ok text => text
      let written := world.logged.toList.flatMap fun (names, row) =>
        if names = place.names then (row.line "-" "-" ++ "\n").toList else []
      return before ++ written

/-- The rows of a log file. Lines that are none are passed over. -/
def rowsOf (world : World) (path : String) : Except Files.Fault (List Row) := do
  let text ← world.logText path
  return (Text.lines (Text.unifyLineEnds text)).filterMap Row.ofLine?

end World

/-- Sends a log message where the journal wants it. -/
def post {m : Type → Type} [Monad m] [Host m] (journal : Journal) (record : Record) : m Unit := do
  if journal.toConsole record.level then Host.logToConsole record
  match journal.file with
  | some path => if journal.toFile record.level then Host.logToFile path record
  | none => pure ()

/-- Sends the message of any logger where the journal wants it, if it reaches the journal. -/
def World.report (journal : Journal) (record : Record) : StateM World Unit := do
  modify fun world => { world with loggers := world.loggers.insert record.logger }
  if Journal.receives (← get).loggers record.logger then post journal record

/-- Opens the log file of a journal, if it has one. -/
def openJournal {m : Type → Type} [Monad m] [Host m] (journal : Journal) :
    m (Except Files.Fault Unit) :=
  match journal.file with
  | none => pure (.ok ())
  | some path => Host.openLog path

end Intcode.Command
