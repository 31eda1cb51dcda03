import ShaderBundle.Directive
import ShaderBundle.Text.Lines
import ShaderBundle.Text.Quoted

/-! A shader module: its lines, the includes among them and the lines to hoist. Includes and hoisted
lines become comments, so that every line keeps its number. -/
namespace ShaderBundle

structure Dependency where
  target : String
  line : Nat
  kind : IncludeKind
  /-- The id of the included module, once known. -/
  resolved : Option String := none
  deriving DecidableEq, Repr

structure HoistedLine where
  text : String
  line : Nat
  deriving DecidableEq, Repr

structure Module where
  id : String
  lines : List String
  dependencies : List Dependency
  hoisted : List HoistedLine
  deriving DecidableEq, Repr

/-- An include directive with an empty path. -/
structure MalformedInclude where
  moduleId : String
  line : Nat
  deriving DecidableEq, Repr

def MalformedInclude.message (e : MalformedInclude) : String :=
  "Error '" ++ e.moduleId ++ "'(" ++ toString (e.line + 1) ++ "): invalid #include syntax."

namespace Module

def comment (line : String) : String := "// " ++ line

/-- A line as the module keeps it. -/
def kept (line : String) : String :=
  match LineRole.of line with
  | .inclusion .. | .hoisted => comment line
  | .inert | .emptyInclusion => line

def dependency? (line : String) (index : Nat) : Option Dependency :=
  match LineRole.of line with
  | .inclusion kind target => some ⟨target, index, kind, none⟩
  | _ => none

def hoisted? (line : String) (index : Nat) : Option HoistedLine :=
  if LineRole.of line = .hoisted then some ⟨line, index⟩ else none

/-- Reads a module; the first include without a path refuses it. -/
def ofSource (id source : String) : Except MalformedInclude Module :=
  let lines := Text.splitLines source
  match lines.findIdx? (LineRole.of · = .emptyInclusion) with
  | some index => .error ⟨id, index⟩
  | none => .ok {
      id
      lines := lines.map kept
      dependencies := lines.zipIdx.filterMap fun (line, index) => dependency? line index
      hoisted := lines.zipIdx.filterMap fun (line, index) => hoisted? line index }

def isEmpty (m : Module) : Bool := m.lines.isEmpty

def marker (m : Module) : String := "// MODULE BEGIN: " ++ m.id

/-- A module's place in a bundle: a marker, the lines and an empty line. -/
def body (m : Module) : List String := m.marker :: m.lines ++ [""]

def describe (m : Module) : String :=
  "Module(" ++ Text.quoted m.id ++ ", lines=" ++ toString m.lines.length ++ ", dependencies="
    ++ toString m.dependencies.length ++ ")"

end Module

def Dependency.describe (d : Dependency) : String :=
  "Dependency(" ++ Text.quoted d.target ++ ", line=" ++ toString d.line ++ ", kind="
    ++ d.kind.word ++ ")"

def HoistedLine.describe (h : HoistedLine) : String :=
  "HoistedLine(" ++ Text.quoted h.text ++ ", " ++ toString h.line ++ ")"

end ShaderBundle
