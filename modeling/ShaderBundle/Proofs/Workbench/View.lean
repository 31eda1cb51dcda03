import ShaderBundle.Workbench
import ShaderBundle.Proofs.Assembly.Loading
import ShaderBundle.Proofs.Assembly.Result
import ShaderBundle.Proofs.History

/-! What an assembler shows is the outcome of its last load. Settings, new modules and changes of the
files act on later loads only, and an action that fails leaves the settings alone. -/
namespace ShaderBundle

structure View where
  shader : Option Shader
  source : String
  sorted : List Module
  blocks : List SourceBlock
  moduleCount : Nat
  find? : String → Option Module
  resolve? : Option String → Option Module
  mapLine : Int → Option (Module × Int)

namespace View

def empty : View := ⟨none, "", [], [], 0, fun _ => none, fun _ => none, fun _ => none⟩

def ofShader (s : Shader) : View :=
  ⟨some s, s.source, s.sorted, s.blocks, s.modules.length, s.find?, s.resolve?, s.mapLine⟩

def ofResult : Except AssemblyError Shader → View
  | .ok s => ofShader s
  | .error _ => empty

end View

namespace Assembler

def view (a : Assembler) : View :=
  ⟨a.shader, a.bundledSource, a.sorted, a.blocks, a.moduleCount, a.find?, a.resolve?, a.mapLine⟩

/-- Everything shown comes from the shader. -/
theorem view_congr {a b : Assembler} (same : a.shader = b.shader) : a.view = b.view := by
  unfold view bundledSource sorted blocks moduleCount find? resolve? mapLine
  rw [same]

theorem view_of_none {a : Assembler} (none : a.shader = none) : a.view = .empty := by
  rw [view_congr (b := {}) none]
  rfl

theorem view_of_some {a : Assembler} {s : Shader} (some : a.shader = some s) :
    a.view = .ofShader s := by
  rw [view_congr (b := { shader := .some s }) some]
  rfl

structure Idle (a : Assembler) : Prop where
  includeRoot : a.includeRoot = ""
  shader : a.shader = none

variable {tree : FileTree} {a b : Assembler}

theorem setSource_ok {source : Option ModuleSource} (ok : a.setSource source = .ok b) :
    source ≠ none ∧ b = { a with source } := by
  cases source with
  | none => simp [setSource] at ok
  | some _ => exact ⟨by simp, (Except.ok.inj ok).symm⟩

theorem setIncludeRoot_ok {path : String} (ok : setIncludeRoot tree a path = .ok b) :
    a.source ≠ none ∧ b = { a with includeRoot := path } := by
  unfold setIncludeRoot at ok
  split at ok
  · simp at ok
  rename_i source given
  split at ok
  · simp at ok
  · simp at ok
  · exact ⟨by simp [given], (Except.ok.inj ok).symm⟩

theorem create_ok {source : Option ModuleSource} {includeRoot : String} {verbose : Bool}
    (ok : create tree source includeRoot verbose = .ok b) :
    b.shader = none ∧ b.source = source ∧ (source = none → b.includeRoot = "") := by
  unfold create at ok
  dsimp only at ok
  split at ok
  · obtain rfl := Except.ok.inj ok
    exact ⟨rfl, rfl, fun _ => rfl⟩
  · obtain ⟨given, rfl⟩ := setIncludeRoot_ok ok
    exact ⟨rfl, rfl, fun none => absurd none given⟩

theorem shader_addModule (a : Assembler) (id source : String) :
    (a.addModule id source).shader = a.shader := by
  unfold addModule
  split <;> rfl

theorem includeRoot_addModule (a : Assembler) (id source : String) :
    (a.addModule id source).includeRoot = a.includeRoot := by
  unfold addModule
  split <;> rfl

theorem source_addModule_eq_none_iff (a : Assembler) (id source : String) :
    (a.addModule id source).source = none ↔ a.source = none := by
  unfold addModule
  split
  · rename_i store given
    simp [given]
  · rfl

theorem load_none {root : String} (none : a.source = none) : (load tree a root).assembler = a := by
  rw [load_eq]
  simp [after, none]

theorem load_some {source : ModuleSource} {root : String} (given : a.source = some source) :
    (load tree a root).assembler = { a with
      shader := (assemble (source.library tree) root a.includeRoot).result.toOption } := by
  rw [load_eq]
  simp [after, bundling, given, assemble?]

end Assembler

namespace Workbench

def next (b : Workbench) (action : Action) : Workbench := (b.perform action).bench

/-- The outcome of the load that an action attempts, with the modules and the include root of the
moment. Without modules none is attempted. -/
def attempt? (b : Workbench) : Action → Option (Except AssemblyError Shader)
  | .load root => b.assembler.source.map fun source =>
      (assemble (source.library b.tree) root b.assembler.includeRoot).result
  | _ => none

def renews (b : Workbench) : Action → Bool
  | .create source includeRoot verbose =>
    (Assembler.create b.tree source includeRoot verbose).toOption.isSome
  | _ => false

/-- What an action makes the bench show: the outcome of the load that it attempts, nothing at all if
it brings a new assembler. -/
def shown? (b : Workbench) (action : Action) : Option View :=
  if b.renews action then some .empty else (b.attempt? action).map .ofResult

inductive Turns (b : Workbench) : Action → Assembler → Prop
  | keep {action : Action} (nothing : b.shown? action = none) : Turns b action b.assembler
  | renew {source : Option ModuleSource} {includeRoot : String} {verbose : Bool} {a : Assembler}
    (made : Assembler.create b.tree source includeRoot verbose = .ok a) :
    Turns b (.create source includeRoot verbose) a
  | setSource {source : Option ModuleSource} {a : Assembler}
    (made : b.assembler.setSource source = .ok a) : Turns b (.setSource source) a
  | setIncludeRoot {path : String} {a : Assembler}
    (made : Assembler.setIncludeRoot b.tree b.assembler path = .ok a) : Turns b (.setIncludeRoot path) a
  | addModule {id source : String} : Turns b (.addModule id source) (b.assembler.addModule id source)
  | load {root : String} {source : ModuleSource} (given : b.assembler.source = some source) :
    Turns b (.load root) { b.assembler with
      shader := (assemble (source.library b.tree) root b.assembler.includeRoot).result.toOption }

variable {b : Workbench}

theorem assembler_setting (outcome : Except Failure Assembler) :
    (b.setting outcome).bench.assembler = outcome.toOption.getD b.assembler := by
  cases outcome <;> rfl

theorem turns (b : Workbench) (action : Action) : b.Turns action (b.next action).assembler := by
  cases action with
  | create source includeRoot verbose =>
    rw [next, perform, assembler_setting]
    cases made : Assembler.create b.tree source includeRoot verbose with
    | error failure => exact .keep (by simp [shown?, renews, attempt?, made, Except.toOption])
    | ok a => exact .renew made
  | setSource source =>
    rw [next, perform, assembler_setting]
    cases made : b.assembler.setSource source with
    | error failure => exact .keep rfl
    | ok a => exact .setSource made
  | setIncludeRoot path =>
    rw [next, perform, assembler_setting]
    cases made : Assembler.setIncludeRoot b.tree b.assembler path with
    | error failure => exact .keep rfl
    | ok a => exact .setIncludeRoot made
  | addModule id source => exact .addModule
  | load root =>
    have after : (b.next (.load root)).assembler =
        (Assembler.load b.tree b.assembler root).assembler := by
      unfold next perform
      dsimp only
      split <;> rfl
    rw [after]
    cases given : b.assembler.source with
    | none =>
      rw [Assembler.load_none given]
      exact .keep (by simp [shown?, renews, attempt?, given])
    | some source =>
      rw [Assembler.load_some given]
      exact .load given
  | change change =>
    have after : (b.next (.change change)).assembler = b.assembler := by
      unfold next perform
      dsimp only
      split <;> rfl
    rw [after]
    exact .keep rfl

theorem view_next (b : Workbench) (action : Action) :
    (b.next action).assembler.view = (b.shown? action).getD b.assembler.view := by
  generalize after : (b.next action).assembler = a
  cases after ▸ b.turns action with
  | keep nothing => rw [nothing, Option.getD_none]
  | renew made =>
    rw [Assembler.view_of_none (Assembler.create_ok made).1]
    simp [shown?, renews, made, Except.toOption]
  | setSource made =>
    obtain ⟨-, rfl⟩ := Assembler.setSource_ok made
    rfl
  | setIncludeRoot made =>
    obtain ⟨-, rfl⟩ := Assembler.setIncludeRoot_ok made
    rfl
  | addModule => exact Assembler.view_congr (Assembler.shader_addModule _ _ _)
  | @load root source given =>
    let outcome := (assemble (source.library b.tree) root b.assembler.includeRoot).result
    have shown : b.shown? (.load root) = some (.ofResult outcome) := by
      simp [shown?, renews, attempt?, given, outcome]
    rw [shown, Option.getD_some]
    change Assembler.view { b.assembler with shader := outcome.toOption } = .ofResult outcome
    cases outcome with
    | error e => exact Assembler.view_of_none rfl
    | ok s => exact Assembler.view_of_some rfl

/-- An action that fails leaves the modules and the include root as they were. -/
theorem settings_of_error {action : Action} {failure : Failure}
    (failed : (b.perform action).result = .error failure) :
    (b.next action).assembler.source = b.assembler.source ∧
      (b.next action).assembler.includeRoot = b.assembler.includeRoot := by
  generalize after : (b.next action).assembler = a
  cases after ▸ b.turns action with
  | keep => exact ⟨rfl, rfl⟩
  | renew made => simp [perform, setting, made] at failed
  | setSource made => simp [perform, setting, made] at failed
  | setIncludeRoot made => simp [perform, setting, made] at failed
  | addModule => simp [perform, setting] at failed
  | load => exact ⟨rfl, rfl⟩

/-- Without modules an assembler has no include root and no shader, and every action keeps it so. -/
theorem idle_next (action : Action) (idle : b.assembler.source = none → b.assembler.Idle)
    (none : (b.next action).assembler.source = none) : (b.next action).assembler.Idle := by
  generalize after : (b.next action).assembler = a at none ⊢
  cases after ▸ b.turns action with
  | keep => exact idle none
  | renew made =>
    obtain ⟨bare, same, rootless⟩ := Assembler.create_ok made
    exact ⟨rootless (same.symm.trans none), bare⟩
  | setSource made =>
    obtain ⟨given, rfl⟩ := Assembler.setSource_ok made
    exact absurd none given
  | setIncludeRoot made =>
    obtain ⟨given, rfl⟩ := Assembler.setIncludeRoot_ok made
    exact absurd none given
  | addModule =>
    have before := idle ((Assembler.source_addModule_eq_none_iff _ _ _).mp none)
    exact ⟨(Assembler.includeRoot_addModule _ _ _).trans before.includeRoot,
      (Assembler.shader_addModule _ _ _).trans before.shader⟩
  | load given => simp [given] at none

theorem idle_run (actions : List Action) (idle : b.assembler.source = none → b.assembler.Idle) :
    (run b actions).assembler.source = none → (run b actions).assembler.Idle := by
  induction actions generalizing b with
  | nil => exact idle
  | cons action rest ih => exact ih (idle_next action idle)

theorem view_run (b : Workbench) (actions : List Action) : (run b actions).assembler.view =
    (History.written next shown? b actions).getLast?.getD b.assembler.view := by
  have step (c : Workbench) (last : Option View) (action : Action)
      (follows : c.assembler.view = last.getD b.assembler.view) :
      (c.next action).assembler.view = ((c.shown? action).or last).getD b.assembler.view := by
    rw [view_next, follows]
    cases c.shown? action <;> rfl
  have start : b.assembler.view = (none : Option View).getD b.assembler.view := rfl
  have last := History.last_foldl step start actions
  rwa [Option.or_none] at last

/-- What the last of some actions that made a bench show something has made it show. -/
def lastShown (b : Workbench) (actions : List Action) : View :=
  (History.written next shown? b actions).getLast?.getD .empty

/-- After any work a bench shows what its last attempt to load came to: the shader that bundling gave
with the modules and the include root of that moment, or nothing if it failed or if the assembler is new.
Only an attempt to load and a new assembler change what is shown, an action that fails changes no
setting, and an assembler without modules has neither an include root nor a shader. -/
theorem view_is_last_load (tree : FileTree) (actions : List Action) :
    let b := run { tree } actions
    b.assembler.view = lastShown { tree } actions ∧
    (∀ action, b.attempt? action = none → b.renews action = false →
      (b.next action).assembler.view = b.assembler.view) ∧
    (∀ action failure, (b.perform action).result = .error failure →
      (b.next action).assembler.source = b.assembler.source ∧
      (b.next action).assembler.includeRoot = b.assembler.includeRoot) ∧
    (b.assembler.source = none → b.assembler.includeRoot = "" ∧ b.assembler.shader = none) := by
  intro b
  refine ⟨view_run _ actions, ?_, ?_, fun none => ?_⟩
  · intro action unattempted kept
    rw [view_next, shown?, if_neg (by simp [kept]), unattempted]
    rfl
  · intro action failure failed
    exact settings_of_error failed
  · have idle := idle_run actions (fun _ => ⟨rfl, rfl⟩) none
    exact ⟨idle.includeRoot, idle.shader⟩

/-- Of two attempts to load only the second one finds modules. What is refused, before or behind it,
changes nothing. -/
theorem view_is_last_load_of_retry :
    let start : Workbench := { tree := {} }
    let refused := .setIncludeRoot "x.y"
    let b := run start [.load "m", .setSource (some (.memory .pair)), .load "m", refused]
    let shader := Shader.ofSorted "m" MemoryStore.pairModules MemoryStore.pairModules.reverse
    b.assembler.view = .ofShader shader ∧
    start.attempt? refused = none ∧ start.renews refused = false ∧
    (start.next refused).assembler.view = start.assembler.view ∧
    (start.perform refused).result = .error (.assembly .noLibrary) ∧
    (start.next refused).assembler.includeRoot = start.assembler.includeRoot ∧
    start.assembler.source = none ∧ start.assembler.shader = none := by
  intro start refused b shader
  obtain ⟨last, -, -, -⟩ :=
    view_is_last_load {} [.load "m", .setSource (some (.memory .pair)), .load "m", refused]
  obtain ⟨-, others, settings, idle⟩ := view_is_last_load {} []
  have attempt : b.assembler.view =
      .ofResult (assemble ((ModuleSource.memory .pair).library {}) "m" "").result := last
  have failed : (start.perform refused).result = .error (.assembly .noLibrary) := rfl
  refine ⟨?_, rfl, rfl, others refused rfl rfl, failed, (settings refused _ failed).2, rfl, (idle rfl).2⟩
  calc b.assembler.view = .ofResult (assemble MemoryStore.pair.library "m" "").result := attempt
    _ = .ofShader shader := by rw [assemble_pair]; rfl

end Workbench

end ShaderBundle
