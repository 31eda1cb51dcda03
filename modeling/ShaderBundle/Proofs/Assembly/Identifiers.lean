import ShaderBundle.Assembler
import ShaderBundle.Proofs.Assembly.Result
import ShaderBundle.Proofs.Path.Characters
import ShaderBundle.Proofs.Shader.Layout
import ShaderBundle.Proofs.Text.LineEnds

/-! What ids are made of. An id is joined from the include root or a known id and from a part of a line, and
joining adds slashes and points only. So a root and an include root without characters that end lines lead
to ids without them. -/
namespace ShaderBundle

open Text

variable {source : ModuleSource} {tree : FileTree} {includeRoot root : String}

/-- No include of a module that can be read asks for a path with this character in it. -/
def Library.TargetsLack (lib : Library) (c : Char) : Prop :=
  ∀ id text m, lib.fetch id = .ok text → Module.ofSource id text = .ok m →
    ∀ dep ∈ m.dependencies, c ∉ dep.target.toList

section Characters

variable {c : Char} (slash : c ≠ '/') (point : c ≠ '.')

include slash point

theorem ModuleSource.not_mem_join {base name path : String} (freeBase : c ∉ base.toList)
    (freeName : c ∉ name.toList) (ok : (source.library tree).join base name = .ok path) :
    c ∉ path.toList := by
  intro inPath
  cases source with
  | memory store =>
    rcases Path.mem_join ok inPath with isSlash | inBase | inName
    · exact slash isSlash
    · exact freeBase inBase
    · exact freeName inName
  | files encoding =>
    rcases Path.mem_joinOnDisk ok inPath with isPoint | isSlash | inBase | inName
    · exact point isPoint
    · exact slash isSlash
    · exact freeBase inBase
    · exact freeName inName

variable (targets : (source.library tree).TargetsLack c)

include targets

theorem ModuleSource.not_mem_of_includes {owner id : String} (freeRoot : c ∉ includeRoot.toList)
    (freeOwner : c ∉ owner.toList) (edge : (source.library tree).Includes includeRoot owner id) :
    c ∉ id.toList := by
  obtain ⟨m, ⟨text, fetched, read⟩, -, dep, member, leads⟩ := edge
  have freeTarget := targets _ text m fetched read dep member
  rcases leads with ⟨-, joined⟩ | ⟨-, joined⟩
  · exact not_mem_join slash point freeRoot freeTarget joined
  · have freeDirectory := fun inside => freeOwner (Path.mem_directory inside)
    exact not_mem_join slash point freeDirectory freeTarget joined

theorem not_mem_id_of_assemble {s : Shader} (freeIncludes : c ∉ includeRoot.toList)
    (freeRoot : c ∉ root.toList)
    (ok : (assemble (source.library tree) root includeRoot).result = .ok s) {m : Module}
    (member : m ∈ s.sorted) : c ∉ m.id.toList := by
  have laid := laid_of_assemble ok
  obtain ⟨d, sorted, found, -, rfl⟩ := assemble_ok ok
  obtain ⟨valid, -⟩ := Discovery.run_ok found
  have path := valid.reached m.id (List.mem_map_of_mem (laid.modules.mem_iff.mp member))
  generalize m.id = id at path
  induction path with
  | refl => exact freeRoot
  | tail _ edge ih => exact ModuleSource.not_mem_of_includes slash point targets freeIncludes ih edge

end Characters

/-! ### Line feeds -/

theorem Library.targetsLack_feed (lib : Library) : lib.TargetsLack '\n' :=
  fun _ _ _ _ read _ member => (Module.target_subset read member).1

theorem oneLine_id_of_assemble {s : Shader} (freeIncludes : OneLine includeRoot) (freeRoot : OneLine root)
    (ok : (assemble (source.library tree) root includeRoot).result = .ok s) {m : Module}
    (member : m ∈ s.sorted) : OneLine m.id :=
  not_mem_id_of_assemble (by decide) (by decide) (Library.targetsLack_feed _) freeIncludes freeRoot ok
    member

/-- No line of a bundle has a line feed in it. -/
theorem oneLine_bundledLines {s : Shader} (freeIncludes : OneLine includeRoot) (freeRoot : OneLine root)
    (ok : (assemble (source.library tree) root includeRoot).result = .ok s) :
    ∀ line ∈ Shader.bundledLines s.sorted, OneLine line := by
  intro line member
  rcases (laid_of_assemble ok).oneLine_or_marker member with free | ⟨m, inSorted, -, rfl⟩
  · exact free
  · exact Module.oneLine_marker (oneLine_id_of_assemble freeIncludes freeRoot ok inSorted)

/-! ### Carriage returns -/

/-- Wherever modules are held, the line ends of a text are unified before it is handed out. -/
theorem ModuleSource.exists_unified_of_fetch {id text : String}
    (fetched : (source.library tree).fetch id = .ok text) : ∃ raw, text = unifyNewlines raw := by
  cases source with
  | memory store =>
    change store.fetch id = .ok text at fetched
    unfold MemoryStore.fetch at fetched
    split at fetched
    · simp at fetched
    split at fetched
    · exact ⟨_, (Except.ok.inj fetched).symm⟩
    · simp at fetched
  | files encoding =>
    change tree.fetch encoding id = .ok text at fetched
    unfold FileTree.fetch at fetched
    split at fetched
    · simp at fetched
    split at fetched
    · simp at fetched
    split at fetched
    · simp at fetched
    split at fetched
    · simp at fetched
    split at fetched
    · simp at fetched
    · exact ⟨_, (Except.ok.inj fetched).symm⟩

theorem ModuleSource.return_not_mem_of_fetch {id text : String}
    (fetched : (source.library tree).fetch id = .ok text) : '\r' ∉ text.toList := by
  obtain ⟨raw, rfl⟩ := exists_unified_of_fetch fetched
  exact return_not_mem_unifyNewlines raw

theorem ModuleSource.targetsLack_return : (source.library tree).TargetsLack '\r' := by
  intro id text m fetched read dep member inTarget
  exact return_not_mem_of_fetch fetched ((Module.target_subset read member).2 inTarget)

/-- The only carriage returns of a source are those of the ids in its markers. -/
theorem return_not_mem_source {s : Shader}
    (ok : (assemble (source.library tree) root includeRoot).result = .ok s)
    (free : ∀ m ∈ s.sorted, m.lines ≠ [] → '\r' ∉ m.id.toList) : '\r' ∉ s.source.toList := by
  intro inSource
  rw [(laid_of_assemble ok).source, joinLines, String.toList_ofList] at inSource
  rcases Path.mem_intercalate inSource with isFeed | ⟨cs, joined, inLine⟩
  · simp at isFeed
  obtain ⟨line, member, rfl⟩ := List.mem_map.mp joined
  rcases Shader.mem_bundledLines_iff.mp member with
    ⟨m, inSorted, h, hoisted, rfl⟩ | ⟨m, inSorted, filled, inBody⟩
  all_goals obtain ⟨text, deps, fetched, read⟩ := exists_ofSource_of_mem_sorted ok inSorted
  all_goals have freeText := ModuleSource.return_not_mem_of_fetch fetched
  · exact freeText (Module.subset_of_mem_hoisted read hoisted inLine)
  · rcases Shader.mem_body_iff.mp inBody with rfl | inLines | rfl
    · have front : '\r' ∉ "// MODULE BEGIN: ".toList := by decide
      rw [Module.toList_marker] at inLine
      rcases List.mem_append.mp inLine with inFront | inId
      · exact front inFront
      · exact free m inSorted filled inId
    · rcases Module.mem_of_mem_lines read inLines inLine with inFront | inText
      · exact absurd inFront (by decide)
      · exact freeText inText
    · exact List.not_mem_nil inLine

end ShaderBundle
