import Intcode.Text.Blank

/-!
# Lines

A line ends with a line feed. Carriage returns, alone or before a line feed, are read as line ends
too.
-/

set_option autoImplicit false

namespace Intcode.Text

/-- Text whose line ends are all single line feeds. -/
def unifyLineEnds (text : List Char) : List Char :=
  (List.zip (none :: text.map some) text).filterMap fun (before, symbol) =>
    if symbol = '\n' ∧ before = some '\r' then none
    else if symbol = '\r' then some '\n'
    else some symbol

/-- The first line of a text with its line feed, if it has one, and the text after it. The line is
empty exactly when the text is. -/
def splitLine (text : List Char) : List Char × List Char :=
  match text.span (· ≠ '\n') with
  | (line, feed :: rest) => (line ++ [feed], rest)
  | (line, []) => (line, [])

/-- The lines of a text without their line feeds. Text after the last line feed is no line. -/
def lines (text : List Char) : List (List Char) := (pieces '\n' text).dropLast

end Intcode.Text
