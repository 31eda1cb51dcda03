import ShaderBundle.Proofs.Assembly.Outcome
import ShaderBundle.Proofs.FileTree.Replay

/-! When the modules of a shader are different files. Modules are told apart by their ids; two ids of one
anchor never name one file, but a relative id and an absolute one may. -/
namespace ShaderBundle

open DependencyOrder ShaderBundle.Path Relation

namespace FileTree

/-- The paths have different absolute forms and lead to different places. -/
def Apart (t : FileTree) (left right : String) : Prop :=
  absolute t.workingPath left ≠ absolute t.workingPath right ∧ t.locate left ≠ t.locate right

variable {t : FileTree} {encoding : Option String} {left right text : String}

/-- Plain paths of one anchor that lead to files lead to different ones. -/
theorem apart_of_anchor (plain : Plain left.toList) (plain' : Plain right.toList)
    (together : anchor left.toList = anchor right.toList)
    (fetched : t.fetch encoding left = .ok text) (different : left ≠ right) : t.Apart left right := by
  constructor
  · exact fun same => different (eq_of_absolute t.isAbsolute_workingPath plain plain' together same)
  · intro same
    exact different (eq_of_arrival plain plain' together (arrival_eq_of_locate fetched same))

end FileTree

variable {t : FileTree} {encoding : Option String} {root includeRoot : String}

theorem reached_of_assemble {lib : Library} {s : Shader}
    (ok : (assemble lib root includeRoot).result = .ok s) {m : Module} (member : m ∈ s.modules) :
    ReflTransGen (lib.Includes includeRoot) root m.id ∧
      ∃ text, lib.fetch m.id = .ok text := by
  obtain ⟨d, sorted, found, -, rfl⟩ := assemble_ok ok
  obtain ⟨valid, -⟩ := Discovery.run_ok found
  have known : m.id ∈ d.ids := List.mem_map_of_mem member
  exact ⟨valid.reached _ known, valid.fetched known⟩

/-- No file of an assembled shader leads back to itself, whatever the spelling. -/
theorem locate_ne_of_includes {s : Shader}
    (ok : (assemble (t.library encoding) root includeRoot).result = .ok s)
    (stands : t.Standing t.workingDirectory) (moves : IsStep (lastSegment root.toList)) {m : Module}
    (member : m ∈ s.modules) {id : String}
    (path : TransGen ((t.library encoding).Includes includeRoot) m.id id) :
    t.locate m.id ≠ t.locate id := by
  intro same
  obtain ⟨d, sorted, found, -, rfl⟩ := assemble_ok ok
  obtain ⟨valid, done⟩ := Discovery.run_ok found
  have ended : FileTree.Ended t encoding t.capacity includeRoot root d := ⟨valid, done, stands, moves⟩
  have cyclic := ended.cyclic (List.mem_map_of_mem member) path same
  obtain ⟨chain, failed⟩ := (assemble_of_run_ok found).1 cyclic
  rw [ok] at failed
  simp at failed

/-- The ids of an assembled shader are plain, but for the root's as it was given. Plain ids of one anchor
name different files, and no file includes itself by way of others. So all modules are different files
where a plain root and the include root are both relative or both absolute and no id climbs; from an
absolute root and include root without climbs come no climbs. -/
theorem files_distinct {s : Shader}
    (ok : (assemble (t.library encoding) root includeRoot).result = .ok s) :
    (∀ m ∈ s.modules, m.id = root ∨
      Plain m.id.toList ∧ FileTree.Moored includeRoot root m.id) ∧
    (s.modules.Pairwise fun m n => Plain m.id.toList → Plain n.id.toList →
      anchor m.id.toList = anchor n.id.toList → t.Apart m.id n.id) ∧
    (t.Standing t.workingDirectory → IsStep (lastSegment root.toList) →
      ∀ m ∈ s.modules, ∀ id, TransGen ((t.library encoding).Includes includeRoot) m.id id →
        t.locate m.id ≠ t.locate id) ∧
    (Plain root.toList → isAbsolute includeRoot.toList = isAbsolute root.toList →
      (∀ m ∈ s.modules, climb ∉ steps m.id.toList) →
      s.modules.Pairwise fun m n => t.Apart m.id n.id) ∧
    (isAbsolute root.toList = true → isAbsolute includeRoot.toList = true →
      climb ∉ steps root.toList → climb ∉ steps includeRoot.toList →
      ∀ m ∈ s.modules, climb ∉ steps m.id.toList) := by
  have moored : ∀ m ∈ s.modules, m.id = root ∨
      Plain m.id.toList ∧ FileTree.Moored includeRoot root m.id :=
    fun m member => FileTree.moored_of_reached (reached_of_assemble ok member).1
  have distinct : s.modules.Pairwise fun m n => m.id ≠ n.id := by
    obtain ⟨d, sorted, found, -, rfl⟩ := assemble_ok ok
    exact List.pairwise_map.mp (Discovery.run_ok found).1.ids_distinct
  have apart : s.modules.Pairwise fun m n => Plain m.id.toList → Plain n.id.toList →
      anchor m.id.toList = anchor n.id.toList → t.Apart m.id n.id := by
    refine distinct.imp_of_mem fun member _ different plain plain' together => ?_
    obtain ⟨-, text, fetched⟩ := reached_of_assemble ok member
    exact FileTree.apart_of_anchor plain plain' together fetched different
  refine ⟨moored, apart, fun stands moves m member id => locate_ne_of_includes ok stands moves member,
    fun whole kind low => ?_, fun absolute absolute' low low' m member => ?_⟩
  · have plain : ∀ m ∈ s.modules, Plain m.id.toList := by
      intro m member
      rcases moored m member with same | ⟨plain, -⟩
      · rwa [same]
      · exact plain
    have anchored : ∀ m ∈ s.modules, anchor m.id.toList = (isAbsolute root.toList, []) := by
      intro m member
      rw [anchor, FileTree.isAbsolute_of_reached kind (reached_of_assemble ok member).1,
        stem_eq_nil_iff.mpr (low m member)]
    exact apart.imp_of_mem fun left right apart =>
      apart (plain _ left) (plain _ right) ((anchored _ left).trans (anchored _ right).symm)
  · exact FileTree.climb_not_mem_of_reached absolute absolute' low low'
      (reached_of_assemble ok member).1

def FileTree.beside (quoted angled : String) : FileTree :=
  .shelf [("m", "#include \"" ++ quoted ++ "\"\n#include <" ++ angled ++ ">"), ("a", "x")]

def besideRoot (quoted angled near far : String) : Module :=
  ⟨"m", ["// #include \"" ++ quoted ++ "\"", "// #include <" ++ angled ++ ">"],
    [⟨quoted, 0, .relative, some near⟩, ⟨angled, 1, .absolute, some far⟩], []⟩

/-- A file that is included in two spellings is one module. -/
theorem files_distinct_of_spellings :
    let t := FileTree.beside "lib/../a" "./a"
    ∃ s, (assemble (t.library (some "utf-8")) "m" "").result = .ok s ∧
      s.modules.map (·.id) = ["m", "a"] ∧ s.modules.Pairwise fun m n => t.Apart m.id n.id := by
  intro t
  have ok : (assemble (t.library (some "utf-8")) "m" "").result =
      .ok (.ofSorted "m" [besideRoot "lib/../a" "./a" "a" "a", ⟨"a", ["x"], [], []⟩]
        [⟨"a", ["x"], [], []⟩, besideRoot "lib/../a" "./a" "a" "a"]) :=
    assemble_eq_ok (by decide +kernel) (by cbv)
  obtain ⟨-, -, -, apart, -⟩ := files_distinct ok
  exact ⟨_, ok, rfl, apart (by decide) (by decide) (by decide)⟩

/-- A file that is included from beside it and from the absolute path of its folder is two modules, and is
bundled twice. -/
theorem file_bundled_twice :
    let t := FileTree.beside "a" "a"
    t.isBare "/w" = .ok true ∧
    ∃ s, (assemble (t.library (some "utf-8")) "m" "/w").result = .ok s ∧
      s.modules.map (·.id) = ["m", "a", "/w/a"] ∧ s.sorted.map (·.id) = ["a", "/w/a", "m"] ∧
      t.locate "a" = t.locate "/w/a" ∧
      ¬ ∀ m ∈ s.modules, ∀ n ∈ s.modules,
        absolute t.workingPath m.id = absolute t.workingPath n.id → m.id = n.id := by
  intro t
  have ok : (assemble (t.library (some "utf-8")) "m" "/w").result =
      .ok (.ofSorted "m"
        [besideRoot "a" "a" "a" "/w/a", ⟨"a", ["x"], [], []⟩, ⟨"/w/a", ["x"], [], []⟩]
        [⟨"a", ["x"], [], []⟩, ⟨"/w/a", ["x"], [], []⟩, besideRoot "a" "a" "a" "/w/a"]) :=
    assemble_eq_ok (by decide +kernel) (by cbv)
  refine ⟨by decide +kernel, _, ok, rfl, rfl, by decide +kernel, fun injective => ?_⟩
  have same := injective ⟨"a", ["x"], [], []⟩ (by simp [Shader.ofSorted])
    ⟨"/w/a", ["x"], [], []⟩ (by simp [Shader.ofSorted]) (by decide +kernel)
  simp at same

end ShaderBundle
