import ShaderBundle.Assembler
import ShaderBundle.Event

/-! A workbench holds an assembler and the files it may read. Work on it is a sequence of actions, each
of which may fail without ending the work. -/
namespace ShaderBundle

structure Workbench where
  tree : FileTree
  assembler : Assembler := {}

namespace Workbench

inductive Action
  | create (source : Option ModuleSource) (includeRoot : String) (verbose : Bool)
  | setSource (source : Option ModuleSource)
  | setIncludeRoot (path : String)
  | addModule (id source : String)
  | load (root : String)
  | change (change : FileTree.Change)

inductive Answer
  | done
  | source (text : String)
  deriving DecidableEq, Repr

structure Step where
  bench : Workbench
  events : List Event
  result : Except Failure Answer

/-- A setting that is refused leaves the assembler as it was. -/
def setting (b : Workbench) (outcome : Except Failure Assembler) : Step :=
  match outcome with
  | .error failure => ⟨b, [], .error failure⟩
  | .ok assembler => ⟨{ b with assembler }, [], .ok .done⟩

def perform (b : Workbench) : Action → Step
  | .create source includeRoot verbose =>
    b.setting (Assembler.create b.tree source includeRoot verbose)
  | .setSource source => b.setting (b.assembler.setSource source)
  | .setIncludeRoot path => b.setting (Assembler.setIncludeRoot b.tree b.assembler path)
  | .addModule id source => b.setting (.ok (b.assembler.addModule id source))
  | .load root =>
    let loaded := Assembler.load b.tree b.assembler root
    let events := Event.notices b.assembler.verbose loaded.notices
    let after := { b with assembler := loaded.assembler }
    match loaded.result with
    | .error e => ⟨after, events, .error (.assembly e)⟩
    | .ok source => ⟨after, events, .ok (.source source)⟩
  | .change change =>
    match b.tree.apply change with
    | .error fault => ⟨b, [], .error (.file fault)⟩
    | .ok tree => ⟨{ b with tree }, [], .ok .done⟩

def run (b : Workbench) (actions : List Action) : Workbench :=
  actions.foldl (fun b action => (b.perform action).bench) b

end Workbench

end ShaderBundle
