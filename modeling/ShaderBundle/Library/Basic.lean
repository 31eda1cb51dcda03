import ShaderBundle.Fault

/-! A library hands out the texts of modules by id and says how ids are joined. -/
namespace ShaderBundle

structure Library where
  /-- The text of a module, its lines ended by line feeds alone. -/
  fetch : String → Except FetchFault String
  /-- Whether a path names a directory rather than a module. -/
  isBare : String → Except FileFault Bool
  join : String → String → Except Path.Fault String
  /-- How many modules one bundle may hold. -/
  capacity : Nat

namespace Library

/-- The id of an included module: angled targets start at the include root, quoted ones at the
directory of the module that holds the include. -/
def resolve (lib : Library) (includeRoot owner : String) (d : Dependency) :
    Except Path.Fault String :=
  match d.kind with
  | .absolute => lib.join includeRoot d.target
  | .relative => lib.join (Path.directory owner) d.target

def load (lib : Library) (includer : Option (String × Nat)) (id : String) :
    Except AssemblyError Module :=
  match lib.fetch id with
  | .error cause => .error (.load ⟨id, cause, includer⟩)
  | .ok source =>
    match Module.ofSource id source with
    | .error fault => .error (.malformed fault)
    | .ok m => .ok m

end Library

end ShaderBundle
