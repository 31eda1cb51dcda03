import ShaderBundle.Assembly
import ShaderBundle.Proofs.DependencyOrder.Order
import ShaderBundle.Proofs.Discovery.Closure
import ShaderBundle.Proofs.Shader.Origin

/-! What a successful assembly is made of: a discovery that ended, whose modules form a closed table, and
the shader laid out from these modules in the order of the sort. -/
namespace ShaderBundle

open DependencyOrder

theorem Assembly.map_snd_tableOf (modules : List Module) :
    (Assembly.tableOf modules).map Prod.snd = modules := by
  simp [Assembly.tableOf, Function.comp_def]

theorem Assembly.map_fst_tableOf (modules : List Module) :
    (Assembly.tableOf modules).map Prod.fst = modules.map (·.id) := by
  simp [Assembly.tableOf, Function.comp_def]

theorem Assembly.find?_tableOf {modules : List Module} (distinct : (modules.map (·.id)).Nodup)
    {m : Module} (member : m ∈ modules) : (Assembly.tableOf modules).find? m.id = some m := by
  refine ModuleTable.find?_of_mem ?_ (List.mem_map_of_mem member)
  rwa [map_fst_tableOf]

variable {lib : Library} {includeRoot root : String}

/-- Every include of a discovered module leads to a discovered module. -/
theorem Discovery.Invariant.closed_table {d : Discovery}
    (valid : Discovery.Invariant lib includeRoot root d) (done : d.waiting = []) :
    (Assembly.tableOf d.modules).Closed where
  named := by
    intro entry member
    obtain ⟨m, -, rfl⟩ := List.mem_map.mp member
    rfl
  distinct := by
    rw [Assembly.map_fst_tableOf]
    exact valid.ids_distinct
  resolved := by
    intro entry member dep inModule
    obtain ⟨m, found, rfl⟩ := List.mem_map.mp member
    obtain ⟨id, noted, edge⟩ := valid.includes_of_mem done found inModule
    refine ⟨id, ?_, noted⟩
    rw [Assembly.map_fst_tableOf]
    exact valid.closed done (List.mem_map_of_mem found) edge

theorem assemble_ok {s : Shader} (ok : (assemble lib root includeRoot).result = .ok s) :
    ∃ d sorted, Discovery.run lib includeRoot root = .ok d ∧
      sort (Assembly.tableOf d.modules) = .ok sorted ∧ s = .ofSorted root d.modules sorted := by
  unfold assemble at ok
  split at ok
  · simp at ok
  rename_i d found
  dsimp only at ok
  split at ok
  · simp at ok
  rename_i shader laid
  obtain rfl := Except.ok.inj ok
  unfold Assembly.shaderOf at laid
  split at laid
  · simp at laid
  rename_i sorted order
  exact ⟨d, sorted, found, order, (Except.ok.inj laid).symm⟩

/-- An assembly fails with its discovery or with the sort of what was discovered. -/
theorem assemble_error {e : AssemblyError}
    (failed : (assemble lib root includeRoot).result = .error e) :
    (∃ stop, Discovery.run lib includeRoot root = .error stop ∧ stop.error = e) ∨
    ∃ d fault, Discovery.run lib includeRoot root = .ok d ∧
      sort (Assembly.tableOf d.modules) = .error fault ∧ Assembly.orderError fault = e := by
  unfold assemble at failed
  split at failed
  · rename_i stop stopped
    exact .inl ⟨stop, stopped, Except.error.inj failed⟩
  rename_i d found
  dsimp only at failed
  split at failed
  · rename_i e' unsorted
    obtain rfl := Except.error.inj failed
    unfold Assembly.shaderOf at unsorted
    split at unsorted
    · rename_i fault order
      exact .inr ⟨d, fault, found, order, Except.error.inj unsorted⟩
    · simp at unsorted
  · simp at failed

theorem Discovery.Invariant.isRead {d : Discovery}
    (valid : Discovery.Invariant lib includeRoot root d) (done : d.waiting = []) {m : Module}
    (member : m ∈ d.modules) : m.IsRead := by
  rw [Discovery.Invariant.modules_eq done] at member
  obtain ⟨read, held, links⟩ := valid.followed m member
  exact links.isRead held

/-- An assembled shader is laid out from its own modules. -/
theorem laid_of_assemble {s : Shader} (ok : (assemble lib root includeRoot).result = .ok s) :
    s.Laid := by
  obtain ⟨d, sorted, found, order, rfl⟩ := assemble_ok ok
  obtain ⟨valid, done⟩ := Discovery.run_ok found
  have perm := (sort_ok (valid.closed_table done).toKeyed order).1
  rw [Assembly.map_snd_tableOf] at perm
  exact ⟨rfl, rfl, perm, valid.ids_distinct, fun m member =>
    valid.isRead done (perm.mem_iff.mp member)⟩

/-- But for where its includes lead, a bundled module is what its text reads as. -/
theorem exists_ofSource_of_mem_sorted {s : Shader} {m : Module}
    (ok : (assemble lib root includeRoot).result = .ok s) (member : m ∈ s.sorted) :
    ∃ text deps, lib.fetch m.id = .ok text ∧
      Module.ofSource m.id text = .ok { m with dependencies := deps } := by
  have laid := laid_of_assemble ok
  obtain ⟨d, sorted, found, -, rfl⟩ := assemble_ok ok
  obtain ⟨valid, done⟩ := Discovery.run_ok found
  have discovered : m ∈ d.modules := laid.modules.mem_iff.mp member
  rw [Discovery.Invariant.modules_eq done] at discovered
  obtain ⟨first, ⟨text, fetched, read⟩, deps, -, rfl⟩ := valid.followed m discovered
  exact ⟨text, first.dependencies, fetched, read⟩

theorem assemble_of_modules {modules : List Module}
    (found : (Discovery.run lib includeRoot root).toOption.map Discovery.modules = some modules) :
    (assemble lib root includeRoot).result = Assembly.shaderOf root modules := by
  cases outcome : Discovery.run lib includeRoot root with
  | error stop => simp [outcome, Except.toOption] at found
  | ok d =>
    obtain rfl : d.modules = modules := by simpa [outcome, Except.toOption] using found
    unfold assemble
    rw [outcome]
    dsimp only
    split <;> simp [*]

theorem assemble_eq_ok {modules sorted : List Module}
    (found : (Discovery.run lib includeRoot root).toOption.map Discovery.modules = some modules)
    (order : sort (Assembly.tableOf modules) = .ok sorted) :
    (assemble lib root includeRoot).result = .ok (.ofSorted root modules sorted) := by
  rw [assemble_of_modules found, Assembly.shaderOf, order]

def MemoryStore.pair : MemoryStore := ⟨[("m", "#version 330\n#include \"a\"\nx"), ("a", "y")], []⟩

def MemoryStore.pairModules : List Module :=
  [⟨"m", ["// #version 330", "// #include \"a\"", "x"], [⟨"a", 1, .relative, some "a"⟩],
    [⟨"#version 330", 0⟩]⟩, ⟨"a", ["y"], [], []⟩]

theorem assemble_pair : (assemble MemoryStore.pair.library "m" "").result =
    .ok (.ofSorted "m" MemoryStore.pairModules MemoryStore.pairModules.reverse) :=
  assemble_eq_ok (by decide +kernel) (by cbv)

end ShaderBundle
