import ShaderBundle.Module
import ShaderBundle.SourceBlock

/-! A bundled shader: the hoisted lines of all modules, then the bodies of all modules that have
lines, both in dependency order, and the blocks that lead each bundled line back. -/
namespace ShaderBundle

structure Shader where
  root : String
  source : String
  /-- In the order of discovery. -/
  modules : List Module
  /-- In dependency order. -/
  sorted : List Module
  blocks : List SourceBlock
  deriving DecidableEq, Repr

namespace Shader

/-- Each hoisted line with the id of its module. -/
def hoistedLines (sorted : List Module) : List (String × HoistedLine) :=
  sorted.flatMap fun m => m.hoisted.map fun h => (m.id, h)

def bodyLines (sorted : List Module) : List String :=
  sorted.flatMap fun m => if m.isEmpty then [] else m.body

def bundledLines (sorted : List Module) : List String :=
  (hoistedLines sorted).map (·.2.text) ++ bodyLines sorted

/-- One block for each hoisted line; the first one stands at line `start`. -/
def hoistedBlocks : Nat → List (String × HoistedLine) → List SourceBlock
  | _, [] => []
  | start, (id, h) :: rest => ⟨id, .single start, .single h.line⟩ :: hoistedBlocks (start + 1) rest

/-- One block for each body, without its marker and its empty line; the first marker stands at line
`start`. -/
def bodyBlocks : Nat → List Module → List SourceBlock
  | _, [] => []
  | start, m :: rest =>
    if m.isEmpty then bodyBlocks start rest
    else
      ⟨m.id, ⟨start + 1, start + m.lines.length⟩, ⟨0, (m.lines.length : Int) - 1⟩⟩ ::
        bodyBlocks (start + m.lines.length + 2) rest

def blocksOf (sorted : List Module) : List SourceBlock :=
  let hoisted := hoistedLines sorted
  hoistedBlocks 0 hoisted ++ bodyBlocks hoisted.length sorted

def ofSorted (root : String) (modules sorted : List Module) : Shader where
  root
  source := Text.joinLines (bundledLines sorted)
  modules
  sorted
  blocks := blocksOf sorted

/-- The lines of the source, as line feeds count them. -/
def lineCount (s : Shader) : Nat :=
  if s.source.toList = [] then 0 else s.source.toList.count '\n' + 1

def find? (s : Shader) (id : String) : Option Module := s.modules.find? (·.id == id)

def resolve? (s : Shader) (resolved : Option String) : Option Module := resolved.bind s.find?

/-- The module and line a bundled line comes from. Markers and the empty lines behind bodies come
from none. -/
def mapLine (s : Shader) (line : Int) : Option (Module × Int) := do
  let block ← s.blocks.find? (·.contains line)
  let m ← s.find? block.moduleId
  return (m, block.mapLine line)

end Shader

end ShaderBundle
