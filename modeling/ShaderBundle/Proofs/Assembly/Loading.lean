import ShaderBundle.Assembler
import ShaderBundle.Proofs.Assembly.Result

/-! A load told from the one bundling that it performs. -/
namespace ShaderBundle.Assembler

def bundling (tree : FileTree) (a : Assembler) (root : String) : Assembly :=
  assemble? (a.source.map (·.library tree)) root a.includeRoot

/-- An assembler after a bundling. Without modules there was none, and nothing changes. -/
def after (a : Assembler) (result : Except AssemblyError Shader) : Assembler :=
  match a.source with
  | none => a
  | some _ => { a with shader := result.toOption }

variable {tree : FileTree} {a : Assembler} {root : String}

theorem load_eq (tree : FileTree) (a : Assembler) (root : String) :
    let run := a.bundling tree root
    load tree a root = ⟨a.after run.result, run.result.map (·.source), run.notices⟩ := by
  unfold load bundling after
  cases given : a.source with
  | none => rfl
  | some source =>
    simp only [Option.map_some, assemble?]
    cases (assemble (source.library tree) root a.includeRoot).result <;> simp [Except.map, Except.toOption]

theorem shader_after_ok {s : Shader} (ok : (a.bundling tree root).result = .ok s) :
    (a.after (.ok s)).shader = some s := by
  unfold bundling at ok
  unfold after
  cases given : a.source with
  | none => simp [given, assemble?] at ok
  | some _ => rfl

theorem bundling_after (tree : FileTree) (a : Assembler) (root : String) (result : Except AssemblyError Shader) :
    (a.after result).bundling tree root = a.bundling tree root := by
  unfold bundling after
  cases given : a.source <;> simp [given]

theorem laid_of_bundling {s : Shader} (bundled : (a.bundling tree root).result = .ok s) : s.Laid := by
  unfold bundling at bundled
  cases given : a.source.map (·.library tree) with
  | none => simp [given, assemble?] at bundled
  | some lib =>
    rw [given] at bundled
    exact laid_of_assemble bundled

end ShaderBundle.Assembler
