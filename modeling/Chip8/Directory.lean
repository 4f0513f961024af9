import Chip8.Fault

/-!
# Directories

A tree of folders and files, walked component by component from its root. A walk never shortens its
path in advance: `..` leaves a folder that was entered, so what comes before it has to be there.
Making folders and files walks in the same way, which is why a path through `..` names the same
place for the one who makes a file and for the one who reads it.

Whatever lies above the root is unknown, and empty except for what is made there.
-/

namespace Chip8

inductive Node
  | folder
  | file (contents : List UInt8)
  deriving DecidableEq, Repr

/-- Names that lead down from a folder, which lies some levels above the root of a tree. -/
structure Place where
  levels : Nat := 0
  names : List String := []
  deriving DecidableEq, Repr

namespace Place

def root : Place := { }

def parent (place : Place) : Place :=
  if place.names = [] then
    { place with levels := place.levels + 1 }
  else
    { place with names := place.names.dropLast }

def child (place : Place) (name : String) : Place :=
  { place with names := place.names ++ [name] }

end Place

/-- A tree of folders and files. Each node is listed with its place, the newest first; the root
and the folders above it are always there. -/
structure Directory where
  nodes : List (Place × Node) := []

inductive PathError
  | invalidCharacter
  | problem (problem : FileProblem)
  deriving DecidableEq, Repr

namespace Directory

def node? (directory : Directory) (place : Place) : Option Node :=
  if place.names = [] then
    some .folder
  else
    (directory.nodes.find? fun entry => entry.1 = place).map (·.2)

def put (directory : Directory) (place : Place) (node : Node) : Directory :=
  { nodes := (place, node) :: directory.nodes }

/-! ## Walking a path -/

def nameLimit : Nat := 255

def pathLimit : Nat := 4095

def components (path : String) : Except PathError (List String) :=
  if path.contains '\x00' then
    .error .invalidCharacter
  else if path.utf8ByteSize > pathLimit then
    .error (.problem .nameTooLong)
  else
    .ok (path.splitOn "/")

/-- Follow one component of a path. An empty component, as after a slash at the end, only asks for
a folder. -/
def enter (directory : Directory) (place : Place) (name : String) : Except FileProblem Place :=
  if directory.node? place ≠ some .folder then
    .error .notFolder
  else if name = "" ∨ name = "." then
    .ok place
  else if name = ".." then
    .ok place.parent
  else if name.utf8ByteSize > nameLimit then
    .error .nameTooLong
  else if (directory.node? (place.child name)).isSome then
    .ok (place.child name)
  else
    .error .missing

def walk (directory : Directory) (path : List String) : Except FileProblem Place :=
  path.foldlM directory.enter .root

/-! ## Reading -/

def contents (directory : Directory) (place : Place) : Except FileProblem (List UInt8) :=
  match directory.node? place with
  | some (.file contents) => .ok contents
  | some .folder => .error .isFolder
  | none => .error .missing

def read (directory : Directory) (path : String) : Except PathError (List UInt8) := do
  let names ← components path
  if path = "" then
    .error (.problem .missing)
  else
    (directory.walk names >>= directory.contents).mapError .problem

/-! ## Making folders and files -/

def enterOrMake (tree : Directory × Place) (name : String) :
    Except FileProblem (Directory × Place) :=
  let (directory, place) := tree
  match directory.enter place name with
  | .ok next => .ok (directory, next)
  | .error .missing => .ok (directory.put (place.child name) .folder, place.child name)
  | .error problem => .error problem

def makeFolder (directory : Directory) (path : String) : Except PathError Directory := do
  let names ← components path
  let (made, place) ← (names.foldlM enterOrMake (directory, .root)).mapError .problem
  if made.node? place = some .folder then
    return made
  else
    .error (.problem .notFolder)

def putFile (directory : Directory) (folder : Place) (name : String) (contents : List UInt8) :
    Except FileProblem Directory :=
  match directory.enter folder name with
  | .error .missing => .ok (directory.put (folder.child name) (.file contents))
  | .error problem => .error problem
  | .ok place =>
      if directory.node? place = some .folder then
        .error .isFolder
      else
        .ok (directory.put place (.file contents))

def makeFile (directory : Directory) (path : String) (contents : List UInt8) :
    Except PathError Directory := do
  let names ← components path
  (do
    let folder ← directory.walk names.dropLast
    directory.putFile folder (names.getLast?.getD "") contents).mapError .problem

end Directory

end Chip8
