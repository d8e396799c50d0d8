import Intcode.Notice

/-!
# Journals

A journal says which log messages are kept and where: on the console from some level on, and, if it
has a log file, in that file from the debug level on. Messages below the journal's own level are
dropped before either is asked.
-/

set_option autoImplicit false

namespace Intcode

/-- One log message. -/
structure Record where
  level : Level
  logger : String
  text : String
  deriving DecidableEq, Repr

structure Journal where
  level : Level := Level.debug
  consoleLevel : Level := Level.warning
  /-- Path of the log file. -/
  file : Option String := none
  deriving DecidableEq, Repr

namespace Journal

def rootName : String := "intcode_vm"

/-- The name of a part of the program in log messages; the empty part is the whole. -/
def loggerName (part : String) : String :=
  if part.isEmpty then rootName else rootName ++ "." ++ part

/-- The names above a logger's name: what stands before its last dot, then before the last dot of
that, and so on, where a symbol right before a dot that was used is passed over. All names are given
in reverse. -/
def above : (name : List Char) → List (List Char)
  | [] => []
  | ['.'] => []
  | '.' :: symbol :: rest => (symbol :: rest) :: above rest
  | _ :: rest => above rest

theorem length_lt_of_mem_above {name parent : List Char} (member : parent ∈ above name) :
    parent.length < name.length := by
  fun_induction above name with
  | case1 => simp at member
  | case2 => simp at member
  | case3 symbol rest ih =>
      rcases List.mem_cons.mp member with rfl | later
      · simp
      · have shorter := ih later
        simp only [List.length_cons]
        omega
  | case4 symbol rest _ _ ih =>
      have shorter := ih member
      simp only [List.length_cons]
      omega

/-- Whether the messages of a logger reach the journal: they go to the nearest logger in use among
those above, and on from there. All names are given in reverse. -/
def reaches (loggers : List (List Char)) (name : List Char) : Bool :=
  if name = rootName.toList.reverse then true
  else
    match found : (above name).find? fun parent =>
        parent = rootName.toList.reverse || loggers.contains parent with
    | none => false
    | some parent =>
        have : parent.length < name.length :=
          length_lt_of_mem_above (List.mem_of_find?_eq_some found)
        reaches loggers parent
termination_by name.length

/-- Whether the messages of a logger reach the journal while some loggers are in use. -/
def receives (loggers : List String) (logger : String) : Bool :=
  reaches (loggers.map fun name => name.toList.reverse) logger.toList.reverse

/-- The level from which on messages are looked at. A level of zero is no choice of its own and
counts as that of warnings. -/
def threshold (journal : Journal) : Level :=
  if journal.level = 0 then Level.warning else journal.level

/-- Whether messages of a level are looked at; only positive levels can be. -/
def admits (journal : Journal) (level : Level) : Bool :=
  0 < level && journal.threshold ≤ level

def toConsole (journal : Journal) (level : Level) : Bool :=
  journal.admits level && journal.consoleLevel ≤ level

def toFile (journal : Journal) (level : Level) : Bool :=
  journal.file.isSome && journal.admits level && Level.debug ≤ level

end Journal

def Record.ofNotice (notice : Notice) : Record :=
  { level := notice.level
    logger := Journal.loggerName notice.source
    text := notice.text }

/-- What a line of a log file says about a message: the level in seven columns, the logger and the
text. Lines have the time in front and the place in the program before the text. -/
structure Row where
  level : String
  logger : String
  text : String
  deriving DecidableEq, Repr

namespace Row

def ofRecord (record : Record) : Row :=
  { level := Text.padRight 7 record.level.name
    logger := record.logger
    text := record.text }

/-- The first `count` columns of a line and what follows them. The column that is being read is
given in reverse. -/
def columns : (count : Nat) → (column line : List Char) → List (List Char)
  | 0, _, line => [line]
  | count + 1, column, ' ' :: '|' :: ' ' :: line => column.reverse :: columns count [] line
  | count + 1, column, symbol :: line => columns (count + 1) (symbol :: column) line
  | _ + 1, column, [] => [column.reverse]

/-- Reads a line of a log file, unless it lacks a column. -/
def ofLine? (line : List Char) : Option Row :=
  match columns 4 [] line with
  | [_, level, logger, _, text] =>
      some ⟨String.ofList level, String.ofList logger, String.ofList text⟩
  | _ => none

/-- Writes a line of a log file. -/
def line (time place : String) (row : Row) : String :=
  Text.joined " | " [time, row.level, row.logger, place, row.text]

end Row

end Intcode
