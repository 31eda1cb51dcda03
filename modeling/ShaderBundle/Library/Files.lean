import ShaderBundle.FileTree.Basic
import ShaderBundle.Library.Basic

/-! Modules in the files of a tree, read in one encoding. -/
namespace ShaderBundle.FileTree

/-- No encoding at all is a setting that was emptied; it refuses every file. So does the name of an
encoding that is not among the four modelled ones, as if nothing had that name. -/
def fetch (t : FileTree) (encoding : Option String) (id : String) : Except FetchFault String :=
  match encoding with
  | none => .error .encodingEmptied
  | some name =>
    if name.toList.contains '\x00' then .error .nullInEncoding
    else match t.read id with
      | .error fault => .error (.file fault)
      | .ok bytes =>
        match Text.Encoding.named? name with
        | none => .error (.unknownEncoding name)
        | some e =>
          match e.decode bytes with
          | .error fault => .error (.decode fault)
          | .ok text => .ok (Text.unifyNewlines text)

/-- A folder may well have a point in its name. -/
def isBare (t : FileTree) (path : String) : Except FileFault Bool :=
  (t.isFolder path).map (· || Path.isBare path)

/-- A library of at most `capacity` modules. -/
def libraryWithin (t : FileTree) (encoding : Option String) (capacity : Nat) : Library where
  fetch := t.fetch encoding
  isBare := t.isBare
  join := Path.joinOnDisk
  capacity := capacity

/-- As many as there are texts of the length that paths may have: no bundle needs more. -/
def capacity (t : FileTree) : Nat := Nat.pow 256 (t.pathLimit.getD 4095 + 1)

def library (t : FileTree) (encoding : Option String) : Library :=
  t.libraryWithin encoding t.capacity

end ShaderBundle.FileTree
