import Intcode.Command.Run

/-!
# The command-line program

Runs commands on the real files and streams. Console messages go to standard error. The lines of a
log file leave time and place open.
-/

set_option autoImplicit false

namespace Intcode.Command

/-- The reason behind a failed file operation. The code of a directory that should be a file comes
with either sign. -/
def fileReason : IO.Error → Files.Reason
  | .alreadyExists .. => .exists
  | .inappropriateType _ code _ =>
      if code = 21 ∨ code = 0 - 21 then .isDirectory else .notDirectory
  | _ => .missing

instance : Host IO where
  readFile path := do
    let name := (Files.Path.ofText path).text
    try
      return .ok (← IO.FS.readBinFile name).toList
    catch failure =>
      return .error ⟨fileReason failure, name⟩
  openLog path := do
    let target := Files.Path.ofText path
    let directory := target.parent.text
    try
      IO.FS.createDirAll directory
    catch failure =>
      return .error ⟨fileReason failure, directory⟩
    try
      let _ ← IO.FS.Handle.mk target.text .append
      return .ok ()
    catch failure =>
      return .error ⟨fileReason failure, target.text⟩
  readLine := do
    let line ← (← IO.getStdin).getLine
    return String.ofList (Text.unifyLineEnds line.toList)
  readAll := do
    let text ← (← IO.getStdin).readToEnd
    return String.ofList (Text.unifyLineEnds text.toList)
  print text := do
    let out ← IO.getStdout
    out.putStr text
    out.flush
  complain text := IO.eprint text
  logToConsole record := IO.eprintln ((Row.ofRecord record).level ++ "  " ++ record.text)
  logToFile path record := do
    let file ← IO.FS.Handle.mk (Files.Path.ofText path).text .append
    file.putStrLn ((Row.ofRecord record).line "-" "-")

end Intcode.Command

open Intcode Intcode.Command in
/-- Runs the command line and exits with its code. -/
def main (arguments : List String) : IO UInt32 := do
  match ← (execute Execution.unbounded arguments : IO Exit) with
  | .code code => return UInt32.ofNat code
  | .noLog fault =>
      IO.eprintln fault.message
      return 1
