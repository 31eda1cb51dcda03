import ShaderBundle.Library.Basic

/-! Every module that the root includes, breadth first. A module is fetched when it is first met;
it waits until its own includes are followed. Both lists together, in order, are the modules in the
order of their discovery. -/
namespace ShaderBundle

structure Discovery where
  expanded : List Module
  waiting : List Module
  /-- The ids asked of the library, in order. -/
  requests : List String

/-- A discovery that cannot go on, with the requests made so far. -/
structure Stop where
  error : AssemblyError
  requests : List String

namespace Discovery

def modules (d : Discovery) : List Module := d.expanded ++ d.waiting

def holds (d : Discovery) (id : String) : Bool := d.modules.any (·.id == id)

/-- Asks for a module and lets it wait at the end. -/
def meet (lib : Library) (includer : Option (String × Nat)) (id : String) (d : Discovery) :
    Except Stop Discovery :=
  let requests := d.requests ++ [id]
  match lib.load includer id with
  | .error e => .error ⟨e, requests⟩
  | .ok m => .ok { d with waiting := d.waiting ++ [m], requests }

/-- Follows the includes of a module in their order and notes where each leads. -/
def follow (lib : Library) (includeRoot owner : String) :
    List Dependency → Discovery → Except Stop (List Dependency × Discovery)
  | [], d => .ok ([], d)
  | dep :: rest, d =>
    match lib.resolve includeRoot owner dep with
    | .error fault => .error ⟨.path fault, d.requests⟩
    | .ok id =>
      match if d.holds id then .ok d else d.meet lib (some (owner, dep.line)) id with
      | .error stop => .error stop
      | .ok met =>
        match follow lib includeRoot owner rest met with
        | .error stop => .error stop
        | .ok (followed, last) => .ok ({ dep with resolved := some id } :: followed, last)

/-- The first waiting module, its includes followed, joins the expanded ones. -/
def expandFirst (lib : Library) (includeRoot : String) (owner : Module) (d : Discovery) :
    Except Stop Discovery :=
  match follow lib includeRoot owner.id owner.dependencies d with
  | .error stop => .error stop
  | .ok (followed, met) =>
    .ok { met with
      expanded := met.expanded ++ [{ owner with dependencies := followed }]
      waiting := met.waiting.tail }

/-- Expands until none waits, at most as many modules as the library's capacity allows. -/
def expandAll (lib : Library) (includeRoot : String) : Nat → Discovery → Except Stop Discovery
  | capacity, d =>
    match d.waiting with
    | [] => .ok d
    | owner :: _ =>
      match capacity with
      | 0 => .error ⟨.tooManyModules lib.capacity, d.requests⟩
      | left + 1 =>
        match expandFirst lib includeRoot owner d with
        | .error stop => .error stop
        | .ok next => expandAll lib includeRoot left next

def start : Discovery := ⟨[], [], []⟩

def run (lib : Library) (includeRoot root : String) : Except Stop Discovery :=
  match start.meet lib none root with
  | .error stop => .error stop
  | .ok d => expandAll lib includeRoot lib.capacity d

end Discovery

end ShaderBundle
