import Intcode.Text.Blank
import Intcode.Text.Decimal

/-!
# File paths

A path is a sequence of names. Empty names and single dots between slashes mean nothing and are
dropped; double dots are kept, since what they lead to depends on the files.
-/

set_option autoImplicit false

namespace Intcode.Files

structure Path where
  /-- The slashes in front: none, one, or exactly two. -/
  root : String
  names : List String
  deriving DecidableEq, Repr

namespace Path

def ofText (text : String) : Path :=
  let slashes := (text.toList.takeWhile (· = '/')).length
  { root := if slashes = 0 then "" else if slashes = 2 then "//" else "/"
    names := ((Text.pieces '/' text.toList).map String.ofList).filter fun name =>
      name ≠ "" && name ≠ "." }

/-- The names in a text as it stands: single dots are kept, and a slash at the end counts as one. -/
def literalNames (text : String) : List String :=
  let names := ((Text.pieces '/' text.toList).map String.ofList).filter (· ≠ "")
  if text.toList.getLast? = some '/' then names ++ ["."] else names

/-- The path in its shortest form; the empty path is a dot. -/
def text (path : Path) : String :=
  if path.root.isEmpty && path.names.isEmpty then "."
  else path.root ++ Text.joined "/" path.names

def isAbsolute (path : Path) : Bool := !path.root.isEmpty

/-- The path of the directory an entry is in. -/
def parent (path : Path) : Path := { path with names := path.names.dropLast }

/-- Names behind those of a reversed trail, where a double dot takes back the name before it and
nothing is above the root. -/
def withoutDots (trail : List String) : List String → List String
  | [] => trail.reverse
  | name :: names =>
      if name = ".." then withoutDots trail.tail names else withoutDots (name :: trail) names

/-- The path from the root, without double dots, of a path that starts in a directory. -/
def absolute (directory : List String) (path : Path) : Path :=
  if path.isAbsolute then { path with names := withoutDots [] path.names }
  else { root := "/", names := withoutDots [] (directory ++ path.names) }

end Path

end Intcode.Files
