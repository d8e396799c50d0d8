import Intcode.Files.Path
import Intcode.Text.Quoted

/-!
# File trees

All files, as a value: a tree of directories from the root down, and the directory that paths
without a slash in front start from. Paths are followed name by name, and every place on the way has
to be a directory that is there.
-/

set_option autoImplicit false

namespace Intcode.Files

/-- Why a path cannot be used. -/
inductive Reason where
  | missing
  | exists
  | notDirectory
  | isDirectory
  | nameTooLong
  /-- The path holds a null character. -/
  | nullByte
  /-- More directories are missing than are made at once. -/
  | tooDeep
  deriving DecidableEq, Repr

structure Fault where
  reason : Reason
  path : String
  deriving DecidableEq, Repr

def Fault.message (fault : Fault) : String :=
  match fault.reason with
  | .missing => "[Errno 2] No such file or directory: " ++ Text.quoted fault.path
  | .exists => "[Errno 17] File exists: " ++ Text.quoted fault.path
  | .notDirectory => "[Errno 20] Not a directory: " ++ Text.quoted fault.path
  | .isDirectory => "[Errno 21] Is a directory: " ++ Text.quoted fault.path
  | .nameTooLong => "[Errno 36] File name too long: " ++ Text.quoted fault.path
  | .nullByte => "embedded null byte"
  | .tooDeep => "maximum recursion depth exceeded while calling a Python object"

inductive Node where
  | file (bytes : List UInt8)
  /-- A file that stays empty whatever is written to it. -/
  | sink
  | directory (entries : List (String × Node))

namespace Node

/-- The bytes of a file. -/
def bytes? : Node → Option (List UInt8)
  | file bytes => some bytes
  | sink => some []
  | directory _ => none

/-- What a directory has under a name. -/
def child? (parent : Node) (name : String) : Option Node :=
  match parent with
  | file _ | sink => none
  | directory entries => entries.lookup name

/-- Puts a node under a name in a directory, in place of what was there. -/
def withChild (parent : Node) (name : String) (node : Node) : Node :=
  match parent with
  | file _ | sink => parent
  | directory entries => directory ((name, node) :: entries.filter (·.1 ≠ name))

/-- Puts a node where names lead to. Directories that are not there are made. -/
def put (parent : Node) (names : List String) (node : Node) : Node :=
  match names with
  | [] => node
  | name :: names =>
      parent.withChild name (((parent.child? name).getD (directory [])).put names node)

end Node

/-- A place that a path leads to, with what is there, if anything is. -/
structure Place where
  /-- The names from the root, the last one first. -/
  trail : List String
  /-- The directories the place is in, the nearest one first. -/
  above : List Node
  node : Option Node

namespace Place

/-- The names from the root. -/
def names (place : Place) : List String := place.trail.reverse

/-- The directory around a place; the root is its own. -/
def up (place : Place) : Place :=
  match place.trail, place.above with
  | _ :: trail, parent :: above => { trail, above, node := some parent }
  | _, _ => place

/-- The most bytes one name may have. -/
def longestName : Nat := 255

/-- Follows names from a place. -/
def walk (place : Place) : (names : List String) → Except Reason Place
  | [] => .ok place
  | name :: names =>
      match place.node with
      | none => .error .missing
      | some (.file _) | some .sink => .error .notDirectory
      | some (.directory entries) =>
          if longestName < name.utf8ByteSize then .error .nameTooLong
          else if name = "." then place.walk names
          else if name = ".." then place.up.walk names
          else
            walk
              { trail := name :: place.trail
                above := .directory entries :: place.above
                node := entries.lookup name }
              names

end Place

structure Tree where
  root : Node := .directory []
  /-- The names from the root to the working directory. -/
  working : List String := []

namespace Tree

/-- One more than the most bytes a path may have. -/
def pathLimit : Nat := 4096

/-- The place that names lead to, from the root or from the working directory. The text is that of
the path the names are from. -/
def follow (tree : Tree) (text : String) (fromRoot : Bool) (names : List String) :
    Except Fault Place :=
  if text.toList.contains '\x00' then .error ⟨.nullByte, text⟩
  else if pathLimit ≤ text.utf8ByteSize then .error ⟨.nameTooLong, text⟩
  else
    let top : Place := { trail := [], above := [], node := some tree.root }
    let names := if fromRoot then names else tree.working ++ names
    (top.walk names).mapError fun reason => ⟨reason, text⟩

/-- The place a path leads to. -/
def locate (tree : Tree) (path : Path) : Except Fault Place :=
  tree.follow path.text path.isAbsolute path.names

/-- The place a text leads to as it stands: where it ends with a slash or a dot, only a directory
will do. -/
def locateText (tree : Tree) (text : String) : Except Fault Place :=
  match text.toList with
  | [] => .error ⟨.missing, text⟩
  | first :: _ => tree.follow text (first = '/') (Path.literalNames text)

def isDirectory (tree : Tree) (path : Path) : Bool :=
  match tree.locate path with
  | .ok { node := some (.directory _), .. } => true
  | _ => false

/-- Puts a node where names lead to from the root. -/
def put (tree : Tree) (names : List String) (node : Node) : Tree :=
  { tree with root := tree.root.put names node }

/-- The bytes of a file. -/
def read (tree : Tree) (path : Path) : Except Fault (List UInt8) := do
  let place ← tree.locate path
  match place.node with
  | none => throw ⟨.missing, path.text⟩
  | some node =>
      match node.bytes? with
      | none => throw ⟨.isDirectory, path.text⟩
      | some bytes => return bytes

/-- Makes one directory in a directory that is already there. -/
def makeDirectory (tree : Tree) (path : Path) : Except Fault Tree := do
  let place ← tree.locate path
  match place.node with
  | none => return tree.put place.names (.directory [])
  | some _ => throw ⟨.exists, path.text⟩

/-- Makes one directory unless it is there. -/
def settleDirectory (tree : Tree) (path : Path) : Except Fault Tree :=
  match tree.makeDirectory path with
  | .ok made => .ok made
  | .error fault => if tree.isDirectory path then .ok tree else .error fault

/-- The most directories that are made at once. -/
def depthLimit : Nat := 989

/-- Makes the directory of the first `count` names unless it is there. Only if something around it
is missing is the directory around it made first. At most `depth` directories are tried this way. -/
def ensureDirectory (tree : Tree) (root : String) (names : List String) :
    (depth count : Nat) → Except Fault Tree
  | 0, count => .error ⟨.tooDeep, Path.text ⟨root, names.take count⟩⟩
  | depth + 1, count =>
      let path : Path := ⟨root, names.take count⟩
      match tree.settleDirectory path, count with
      | .ok settled, _ => .ok settled
      | .error fault, 0 => .error fault
      | .error fault, count + 1 =>
          if fault.reason = .missing then
            (tree.ensureDirectory root names depth count).bind (·.settleDirectory path)
          else .error fault

/-- Opens a file for appending: the directory it is in is made if need be, and the file too. The
file is then looked for under its path from the root. -/
def openForAppend (tree : Tree) (path : Path) : Except Fault Tree := do
  let above := path.parent.names
  let tree ← tree.ensureDirectory path.root above depthLimit above.length
  let target := path.absolute tree.working
  let place ← tree.locate target
  match place.node with
  | none => return tree.put place.names (.file [])
  | some (.file _) | some .sink => return tree
  | some (.directory _) => throw ⟨.isDirectory, target.text⟩

/-- Adds a file and the directories it is in. -/
def addFile (tree : Tree) (path : Path) (bytes : List UInt8) : Tree :=
  tree.put (path.absolute tree.working).names (.file bytes)

/-- Adds a directory and the directories it is in, unless it is there. -/
def addDirectory (tree : Tree) (path : Path) : Tree :=
  if tree.isDirectory path then tree
  else tree.put (path.absolute tree.working).names (.directory [])

/-- Directories that every system has. -/
def usualDirectories : List (List String) :=
  [["bin"], ["boot"], ["dev"], ["dev", "pts"], ["dev", "shm"], ["etc"], ["home"], ["lib"],
    ["media"], ["mnt"], ["opt"], ["proc"], ["root"], ["run"], ["sbin"], ["srv"], ["sys"], ["tmp"],
    ["usr"], ["usr", "bin"], ["usr", "lib"], ["usr", "local"], ["usr", "local", "bin"],
    ["usr", "local", "lib"], ["usr", "sbin"], ["usr", "share"], ["var"], ["var", "cache"],
    ["var", "lib"], ["var", "log"], ["var", "tmp"]]

/-- A system with nothing in its working directory. -/
def fresh : Tree :=
  let root := usualDirectories.foldl (fun root names => root.put names (.directory []))
    (Node.directory [])
  let working := ["tmp", "work"]
  { root := (root.put ["dev", "null"] .sink).put working (.directory [])
    working }

end Tree

end Intcode.Files
