import ShaderBundle.CompilerLog
import ShaderBundle.Notice

/-! Programs of several shader stages. When a program is rejected, the message holds the log of each
stage under the stage's name. -/
namespace ShaderBundle

/-- Shaders by the name of their stage. -/
abbrev Stages := List (String × Shader)

namespace Stages

def titles : List String :=
  ["vertex_shader", "fragment_shader", "geometry_shader", "tess_control_shader",
    "tess_evaluation_shader"]

/-- A line that is a stage's name opens the section of that stage. -/
def title? (line : String) : Option String :=
  let name := Text.trimmed line
  if titles.contains name then some name else none

/-- Titles stay; other lines are remapped by the stage whose section they stand in. -/
def remapSections (stages : Stages) :
    Option Shader → List String → Except Text.TooManyDigits (List String)
  | _, [] => .ok []
  | current, line :: rest =>
    match title? line with
    | some name => (remapSections stages (stages.lookup name) rest).map (line :: ·)
    | none => do
      let first ← match current with
        | some s => CompilerLog.remapLine s line
        | none => .ok line
      let others ← remapSections stages current rest
      return first :: others

/-- The shader in charge before the first title: the only one there is. -/
def sole? : Stages → Option Shader
  | [(_, s)] => some s
  | _ => none

def remapMessage (stages : Stages) (message : String) : Except Text.TooManyDigits String :=
  (remapSections stages stages.sole? (Text.breakLines message)).map Text.joinLines

def sources (stages : Stages) : List (String × String) := stages.map fun (name, s) => (name, s.source)

end Stages

/-- Why a graphics driver returns no program. -/
inductive BuildFault
  | rejected (log : String)
  | broken (kind message : String)
  deriving DecidableEq, Repr

inductive CompileError
  /-- The driver's log, remapped. -/
  | rejected (log : String)
  | broken (kind message : String)
  | unreadable (cause : Text.TooManyDigits)
  deriving DecidableEq, Repr

def CompileError.message : CompileError → String
  | .rejected log => log
  | .broken _ message => message
  | .unreadable cause => cause.message

structure Program where
  vertex : Shader
  fragment : Option Shader
  geometry : Option Shader

namespace Program

def stages (p : Program) : Stages :=
  [("vertex_shader", p.vertex)] ++ (p.fragment.toList.map fun s => ("fragment_shader", s)) ++
    (p.geometry.toList.map fun s => ("geometry_shader", s))

/-- Hands the sources to the driver once. -/
def compile {α : Type} (build : List (String × String) → Except BuildFault α) (p : Program) :
    Except CompileError α × List Notice :=
  match build p.stages.sources with
  | .ok program => (.ok program, [.compiled])
  | .error (.broken kind message) => (.error (.broken kind message), [])
  | .error (.rejected log) =>
    match p.stages.remapMessage log with
    | .ok remapped => (.error (.rejected remapped), [])
    | .error cause => (.error (.unreadable cause), [])

end Program

end ShaderBundle
