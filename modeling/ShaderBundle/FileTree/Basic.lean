import ShaderBundle.Fault
import ShaderBundle.Path.Normal

/-! A tree of folders and files, and the file operations on it. A path is walked segment by segment:
each segment but the last needs a folder, also where a climb follows.

The tree is an idealisation. It has no links and no permissions, so a fault comes from the path alone,
and its names, paths and texts are made of characters: no byte of a name is kept as a lone surrogate. -/
namespace ShaderBundle

inductive Node
  | folder
  | file (content : List UInt8)
  deriving DecidableEq, Repr

/-- The names that lead from the root to a node. -/
abbrev Place := List String

/-- Files and folders as they stand at one moment, without links, owners or permissions. -/
structure FileTree where
  nodes : List (Place × Node) := []
  workingDirectory : Place := []
  /-- In bytes. -/
  nameLimit : Nat := 255
  /-- In bytes; without a limit paths may have any length. -/
  pathLimit : Option Nat := some 4095
  deriving DecidableEq, Repr

namespace FileTree

def pathText (place : Place) : String := "/" ++ String.intercalate "/" place

def workingPath (t : FileTree) : String := pathText t.workingDirectory

/-- The root is a folder. -/
def node? (t : FileTree) (place : Place) : Option Node :=
  if place = [] then some .folder else t.nodes.lookup place

def replace (place : Place) (node : Node) : List (Place × Node) → List (Place × Node)
  | [] => [(place, node)]
  | entry :: rest =>
    if entry.1 = place then (place, node) :: rest else entry :: replace place node rest

def put (t : FileTree) (place : Place) (node : Node) : FileTree :=
  { t with nodes := replace place node t.nodes }

/-- Walks from a place; `path` is what a fault names. -/
def walk (t : FileTree) (path : String) : Place → List String → Except FileFault Place
  | place, [] => .ok place
  | place, name :: rest =>
    match t.node? place with
    | none => .error (.missing path)
    | some (.file _) => .error (.notDirectory path)
    | some .folder =>
      if name = ".." then walk t path place.dropLast rest
      else if t.nameLimit < name.utf8ByteSize then .error (.nameTooLong path)
      else walk t path (place ++ [name]) rest

def names (path : String) : List String := (Path.steps path.toList).map String.ofList

def origin (t : FileTree) (path : String) : Place :=
  if Path.isAbsolute path.toList then [] else t.workingDirectory

def tooLong (t : FileTree) (path : String) : Bool := t.pathLimit.any (· < path.utf8ByteSize)

/-- The place of a path. The folders on the way are there; the node itself need not be. -/
def locate (t : FileTree) (path : String) : Except FileFault Place :=
  let spelled := Path.spelled path
  if path.toList.contains '\x00' then .error .nullByte
  else if t.tooLong spelled then .error (.nameTooLong spelled)
  else t.walk spelled (t.origin path) (names path)

def read (t : FileTree) (path : String) : Except FileFault (List UInt8) :=
  match t.locate path with
  | .error fault => .error fault
  | .ok place =>
    match t.node? place with
    | none => .error (.missing (Path.spelled path))
    | some .folder => .error (.isDirectory (Path.spelled path))
    | some (.file content) => .ok content

/-- Whether a path leads to a folder. A path that leads nowhere does not, one that is too long
cannot be asked about. -/
def isFolder (t : FileTree) (path : String) : Except FileFault Bool :=
  match t.locate path with
  | .ok place => .ok (t.node? place = some .folder)
  | .error (.nameTooLong spelled) => .error (.nameTooLong spelled)
  | .error _ => .ok false

/-- Replaces a file's content or puts a new file into a folder. -/
def write (t : FileTree) (path : String) (content : List UInt8) : Except FileFault FileTree :=
  match t.locate path with
  | .error fault => .error fault
  | .ok place =>
    if t.node? place = some .folder then .error (.isDirectory (Path.spelled path))
    else .ok (t.put place (.file content))

def delete (t : FileTree) (path : String) : Except FileFault FileTree :=
  match t.locate path with
  | .error fault => .error fault
  | .ok place =>
    match t.node? place with
    | none => .error (.missing (Path.spelled path))
    | some .folder => .error (.isDirectory (Path.spelled path))
    | some (.file _) => .ok { t with nodes := t.nodes.filter (·.1 ≠ place) }

/-- Puts a folder wherever the walk meets nothing. -/
def growFolders (path : String) : Place → List String → FileTree → Except FileFault FileTree
  | place, left, t =>
    match t.node? place with
    | some (.file _) => .error (.notDirectory path)
    | node =>
      let grown := if node = none then t.put place .folder else t
      match left with
      | [] => .ok grown
      | name :: rest =>
        if name = ".." then growFolders path place.dropLast rest grown
        else growFolders path (place ++ [name]) rest grown
  termination_by _ left _ => left

def makeFolders (t : FileTree) (path : String) : Except FileFault FileTree :=
  growFolders (Path.spelled path) (t.origin path) (names path) t

def writeDeep (t : FileTree) (path : String) (content : List UInt8) : Except FileFault FileTree :=
  match growFolders (Path.spelled path) (t.origin path) (names path).dropLast t with
  | .error fault => .error fault
  | .ok grown => grown.write path content

/-- The files that are new or have another content than before. -/
def changedSince (before after : FileTree) : List (String × List UInt8) :=
  after.nodes.filterMap fun (place, node) =>
    match node with
    | .folder => none
    | .file content =>
      if before.node? place = some node then none else some (pathText place, content)

/-- What others do to a tree. They write and delete files and make folders; a folder is never removed,
and nothing is renamed in one step. -/
inductive Change
  | write (path : String) (content : List UInt8)
  | delete (path : String)
  | makeFolders (path : String)
  deriving DecidableEq, Repr

def apply (t : FileTree) : Change → Except FileFault FileTree
  | .write path content => t.writeDeep path content
  | .delete path => t.delete path
  | .makeFolders path => t.makeFolders path

end FileTree

end ShaderBundle
