import ShaderBundle.Proofs.Assembly.Cycle
import ShaderBundle.Proofs.Assembly.Dependence
import ShaderBundle.Proofs.DependencyOrder.FirstVisit
import ShaderBundle.Proofs.Text.Breaks

/-! The root is discovered first and bundled last. It leads to every other module, so the visit that starts
at it lists them all, and in which order the others were discovered does not show in the bundle. -/
namespace ShaderBundle

open Relation DependencyOrder

namespace Discovery.Invariant

variable {lib : Library} {includeRoot root : String} {d : Discovery} {first m : Module}

theorem exists_first (valid : Invariant lib includeRoot root d) :
    ∃ first rest, d.modules = first :: rest ∧ first.id = root := by
  have order := valid.order
  rw [List.eraseDups_cons] at order
  obtain ⟨first, rest, modules, same, -⟩ := List.map_eq_cons_iff.mp order
  exact ⟨first, rest, modules, same⟩

/-- The module of the root leads to every discovered module, through modules of the table. -/
theorem leads_from_first (valid : Invariant lib includeRoot root d) (done : d.waiting = [])
    (isFirst : first ∈ d.modules) (isRoot : first.id = root) (member : m ∈ d.modules) :
    ReflTransGen (Assembly.tableOf d.modules).Includes first m := by
  have closed := valid.closed_table done
  have listed {n : Module} (found : n ∈ d.modules) :
      n ∈ (Assembly.tableOf d.modules).map Prod.snd := by
    rwa [Assembly.map_snd_tableOf]
  obtain ⟨-, names⟩ :=
    valid.names_of_path done valid.root_mem (valid.reached m.id (List.mem_map_of_mem member))
  rw [← isRoot] at names
  obtain ⟨n, inTable, same, path⟩ := closed.exists_path (listed isFirst) names
  rwa [← closed.eq_of_id_eq inTable (listed member) same]

/-- The sort of what was discovered is its first visit, the one that starts at the root. -/
theorem visit_first (valid : Invariant lib includeRoot root d) (done : d.waiting = [])
    {rest sorted : List Module} (modules : d.modules = first :: rest) (isRoot : first.id = root)
    (ok : sort (Assembly.tableOf d.modules) = .ok sorted) :
    visit (Assembly.tableOf d.modules) [] first = .ok sorted := by
  have order : (Assembly.tableOf d.modules).map Prod.snd = first :: rest := by
    rw [Assembly.map_snd_tableOf, modules]
  refine visit_of_sort (valid.closed_table done).toKeyed order (fun m inRest => ?_) ok
  have isFirst : first ∈ d.modules := modules ▸ List.mem_cons_self
  exact valid.leads_from_first done isFirst isRoot (modules ▸ List.mem_cons_of_mem _ inRest)

end Discovery.Invariant

namespace Assembly

variable {modules : List Module} {other : ModuleTable}

/-- A table that finds these modules under their ids finds all that their own table finds. -/
theorem find?_of_find?_tableOf (finds : ∀ m ∈ modules, other.find? m.id = some m) (key : String)
    (m : Module) (found : (tableOf modules).find? key = some m) : other.find? key = some m := by
  obtain ⟨n, member, same⟩ := List.mem_map.mp (ModuleTable.mem_entry_of_find? found)
  obtain ⟨rfl, rfl⟩ := Prod.mk.inj same
  exact finds n member

end Assembly

/-- The modules of an assembled shader are those that were asked for, the root's before all others; sorted it
stands behind all others, and the source ends with its body, if it has lines. The visit of the root lists
all modules of the shader, in whatever table it finds them: in a table that holds the others in another
order the sort comes to the same. -/
theorem assemble_root_last (lib : Library) (root includeRoot : String) {s : Shader}
    (ok : (assemble lib root includeRoot).result = .ok s) :
    ∃ first rest before, s.modules = first :: rest ∧ first.id = root ∧
      s.modules.map (·.id) = (assemble lib root includeRoot).requests ∧
      s.sorted.Perm s.modules ∧ s.sorted = before ++ [first] ∧
      visit (Assembly.tableOf s.modules) [] first = .ok s.sorted ∧
      (∀ other : ModuleTable, (∀ m ∈ s.modules, other.find? m.id = some m) →
        visit other [] first = .ok s.sorted) ∧
      (∀ others, others.Perm rest →
        sort (Assembly.tableOf (first :: others)) = .ok s.sorted) ∧
      (first.lines ≠ [] →
        s.source = Text.joinLines
          ((Shader.hoistedLines s.sorted).map (·.2.text) ++ Shader.bodyLines before ++ first.body) ∧
        (Text.joinLines first.body).toList <:+ s.source.toList) := by
  have laid := laid_of_assemble ok
  obtain ⟨d, sorted, found, order, rfl⟩ := assemble_ok ok
  obtain ⟨valid, done⟩ := Discovery.run_ok found
  obtain ⟨first, rest, modules, isRoot⟩ := valid.exists_first
  have visited := valid.visit_first done modules isRoot order
  obtain ⟨before, -, last⟩ := visit_fresh_ok rfl visited
  have anywhere (other : ModuleTable) (finds : ∀ m ∈ d.modules, other.find? m.id = some m) :
      visit other [] first = .ok sorted :=
    visit_mono (Assembly.find?_of_find?_tableOf finds) visited
  refine ⟨first, rest, before, modules, isRoot, ?_, laid.modules, last, visited, anywhere,
    fun others perm => ?_, fun filled => ?_⟩
  · rw [requests_assemble, found]
    exact valid.requests.symm
  · have same : (first :: others).Perm d.modules := modules ▸ perm.cons first
    have distinct : ((first :: others).map (·.id)).Nodup := (same.map _).nodup_iff.mpr laid.distinct
    refine sort_of_visit (Assembly.map_snd_tableOf _) (anywhere _ fun m member => ?_)
      fun m member => ?_
    · exact Assembly.find?_tableOf distinct (same.mem_iff.mpr member)
    · exact laid.modules.mem_iff.mpr (same.mem_iff.mp (List.mem_cons_of_mem _ member))
  · have source : (Shader.ofSorted root d.modules sorted).source =
        Text.joinLines ((Shader.hoistedLines sorted).map (·.2.text) ++ Shader.bodyLines before ++
          first.body) := by
      rw [laid.source]
      change Text.joinLines (Shader.bundledLines sorted) = _
      rw [Shader.bundledLines, List.append_assoc, ← Shader.bodyLines_concat before filled, ← last]
    refine ⟨source, ?_⟩
    rw [source]
    exact Text.joinLines_suffix _ (by simp [Module.body])

def MemoryStore.diamond : MemoryStore :=
  ⟨[("top", "#include \"left\"\n#include \"right\"\nx"), ("left", "#include \"base\""),
    ("right", "#include \"base\""), ("base", "y")], []⟩

def MemoryStore.diamondTop : Module :=
  ⟨"top", ["// #include \"left\"", "// #include \"right\"", "x"],
    [⟨"left", 0, .relative, some "left"⟩, ⟨"right", 1, .relative, some "right"⟩], []⟩

def MemoryStore.diamondRest : List Module :=
  [⟨"left", ["// #include \"base\""], [⟨"base", 0, .relative, some "base"⟩], []⟩,
    ⟨"right", ["// #include \"base\""], [⟨"base", 0, .relative, some "base"⟩], []⟩, ⟨"base", ["y"], [], []⟩]

theorem assemble_root_last_of_diamond :
    let top := MemoryStore.diamondTop
    let rest := MemoryStore.diamondRest
    ∃ s, (assemble MemoryStore.diamond.library "top" "").result = .ok s ∧
      s.modules = top :: rest ∧ s.sorted.map (·.id) = ["base", "left", "right", "top"] ∧
      visit (Assembly.tableOf s.modules) [] top = .ok s.sorted ∧
      sort (Assembly.tableOf (top :: rest.reverse)) = .ok s.sorted ∧
      (Text.joinLines top.body).toList <:+ s.source.toList := by
  intro top rest
  have found : (Discovery.run MemoryStore.diamond.library "" "top").toOption.map Discovery.modules =
      some (top :: rest) := by decide +kernel
  have order : (sort (Assembly.tableOf (top :: rest))).toOption.map (·.map (·.id)) =
      some ["base", "left", "right", "top"] := by cbv
  cases sorts : sort (Assembly.tableOf (top :: rest)) with
  | error fault => simp [sorts, Except.toOption] at order
  | ok sorted =>
    have ids : sorted.map (·.id) = ["base", "left", "right", "top"] := by
      simpa [sorts, Except.toOption] using order
    have ok := assemble_eq_ok found sorts
    obtain ⟨first, others, _, modules, -, -, -, -, visited, -, reordered, source⟩ :=
      assemble_root_last _ _ _ ok
    obtain ⟨rfl, rfl⟩ := List.cons.inj modules
    exact ⟨_, ok, rfl, ids, visited, reordered _ (List.reverse_perm _), (source (by decide)).2⟩

end ShaderBundle
