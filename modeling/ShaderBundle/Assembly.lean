import ShaderBundle.Discovery
import ShaderBundle.DependencyOrder
import ShaderBundle.Shader
import ShaderBundle.Notice

/-! A shader bundled from a root module: discovery, dependency order, layout. -/
namespace ShaderBundle

/-- The result of one run, with the ids it asked the library for and the progress it made. -/
structure Assembly where
  result : Except AssemblyError Shader
  requests : List String
  notices : List Notice

namespace Assembly

def orderError : OrderFault → AssemblyError
  | .cycle chain => .cycle chain
  | .unresolved key => .unresolved key

def tableOf (modules : List Module) : ModuleTable := modules.map fun m => (m.id, m)

def shaderOf (root : String) (modules : List Module) : Except AssemblyError Shader :=
  match DependencyOrder.sort (tableOf modules) with
  | .error fault => .error (orderError fault)
  | .ok sorted => .ok (.ofSorted root modules sorted)

end Assembly

def assemble (lib : Library) (root includeRoot : String) : Assembly :=
  match Discovery.run lib includeRoot root with
  | .error stop => ⟨.error stop.error, stop.requests, []⟩
  | .ok d =>
    let loaded := Notice.loaded d.modules.length root
    match Assembly.shaderOf root d.modules with
    | .error e => ⟨.error e, d.requests, [loaded]⟩
    | .ok s => ⟨.ok s, d.requests, [loaded, .assembled s.lineCount s.blocks.length]⟩

/-- Without a library nothing is requested. -/
def assemble? (lib : Option Library) (root includeRoot : String) : Assembly :=
  match lib with
  | none => ⟨.error .noLibrary, [], []⟩
  | some lib => assemble lib root includeRoot

end ShaderBundle
