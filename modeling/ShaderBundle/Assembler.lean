import ShaderBundle.Assembly
import ShaderBundle.Library.Files
import ShaderBundle.Library.Memory

/-! An assembler keeps the settings of bundling and the last shader. Every load replaces the shader,
and a load that fails leaves none. -/
namespace ShaderBundle

inductive ModuleSource
  | memory (store : MemoryStore)
  | files (encoding : Option String)

def ModuleSource.library (tree : FileTree) : ModuleSource → Library
  | .memory store => store.library
  | .files encoding => tree.library encoding

/-- What an operation ends with when it does not succeed. -/
inductive Failure
  | assembly (e : AssemblyError)
  | file (fault : FileFault)
  | reaction (message : String)
  | lineEmptied
  deriving DecidableEq, Repr

def Failure.message : Failure → String
  | .assembly e => e.message
  | .file fault => fault.message
  | .reaction message => message
  | .lineEmptied => "unsupported operand type(s) for -: 'list' and 'int'"

structure Assembler where
  source : Option ModuleSource := none
  includeRoot : String := ""
  verbose : Bool := false
  shader : Option Shader := none

namespace Assembler

def setSource (a : Assembler) (source : Option ModuleSource) : Except Failure Assembler :=
  match source with
  | none => .error (.assembly .libraryRemoved)
  | some _ => .ok { a with source }

/-- Only the path of a directory is taken. -/
def setIncludeRoot (tree : FileTree) (a : Assembler) (path : String) : Except Failure Assembler :=
  match a.source with
  | none => .error (.assembly .noLibrary)
  | some source =>
    match (source.library tree).isBare path with
    | .error fault => .error (.file fault)
    | .ok false => .error (.assembly (.path (.notDirectory path)))
    | .ok true => .ok { a with includeRoot := path }

/-- An empty include root is none to set. -/
def create (tree : FileTree) (source : Option ModuleSource) (includeRoot : String)
    (verbose : Bool) : Except Failure Assembler :=
  let a : Assembler := { source, verbose }
  if includeRoot = "" then .ok a else setIncludeRoot tree a includeRoot

/-- Puts a module into the memory of an assembler that has one. -/
def addModule (a : Assembler) (id source : String) : Assembler :=
  match a.source with
  | some (.memory store) => { a with source := some (.memory (store.add id source)) }
  | _ => a

structure Loaded where
  assembler : Assembler
  result : Except AssemblyError String
  notices : List Notice

def load (tree : FileTree) (a : Assembler) (root : String) : Loaded :=
  match a.source with
  | none => ⟨a, .error .noLibrary, []⟩
  | some source =>
    let run := assemble (source.library tree) root a.includeRoot
    match run.result with
    | .error e => ⟨{ a with shader := none }, .error e, run.notices⟩
    | .ok s => ⟨{ a with shader := some s }, .ok s.source, run.notices⟩

def bundledSource (a : Assembler) : String := (a.shader.map (·.source)).getD ""

def sorted (a : Assembler) : List Module := (a.shader.map (·.sorted)).getD []

def blocks (a : Assembler) : List SourceBlock := (a.shader.map (·.blocks)).getD []

def moduleCount (a : Assembler) : Nat := (a.shader.map (·.modules.length)).getD 0

def find? (a : Assembler) (id : String) : Option Module := a.shader.bind (·.find? id)

def resolve? (a : Assembler) (resolved : Option String) : Option Module :=
  a.shader.bind (·.resolve? resolved)

def mapLine (a : Assembler) (line : Int) : Option (Module × Int) := a.shader.bind (·.mapLine line)

end Assembler

end ShaderBundle
