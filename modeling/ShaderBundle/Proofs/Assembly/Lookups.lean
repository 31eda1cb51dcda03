import ShaderBundle.Assembler
import ShaderBundle.Proofs.Assembly.Cycle
import ShaderBundle.Proofs.DependencyOrder.Marks
import ShaderBundle.Proofs.Discovery.Simulation
import ShaderBundle.Proofs.FileTree.Room

/-! What an assembly takes for granted is there: the modules that includes lead to, the places on the path of
the sort and the modules that blocks name. So it ends with a bundle or with a fault that it reports, and
never for want of something looked up. -/
namespace ShaderBundle

open DependencyOrder

inductive AssemblyError.Reported : AssemblyError → Prop
  | path (fault : Path.Fault) : Reported (.path fault)
  | load (fault : LoadFault) : Reported (.load fault)
  | malformed (fault : MalformedInclude) : Reported (.malformed fault)
  | cycle (chain : List String) : Reported (.cycle chain)

variable {lib : Library} {includeRoot root : String}

namespace Discovery

theorem Request.reported {includer : Option (String × Nat)} {id : String} {e : AssemblyError}
    (request : Request lib includer id (.error e)) : e.Reported := by
  cases request with
  | refused => exact .load _
  | malformed => exact .malformed _

theorem Fails.reported {stop : Stop} (fails : Fails lib includeRoot root stop) :
    stop.error.Reported := by
  rcases fails.cases with ⟨e, request, rfl⟩ |
    ⟨_, _, _, _, -, -, -, ⟨fault, -, rfl⟩ | ⟨_, e, -, -, request, rfl⟩⟩
  · exact request.reported
  · exact .path fault
  · exact request.reported

/-- Only files whose paths have no limit can go on for ever. -/
theorem CutOff.unlimited {source : ModuleSource} {tree : FileTree} {stop : Stop}
    (cut : CutOff (source.library tree) includeRoot root stop) :
    ∃ encoding, source = .files encoding ∧ tree.pathLimit = none ∧
      stop.error = .tooManyModules tree.capacity := by
  cases source with
  | memory store => exact absurd store.roomy cut.not_roomy
  | files encoding =>
    cases limited : tree.pathLimit with
    | some limit => exact absurd cut (FileTree.not_cutOff_of_limited limited)
    | none =>
      obtain ⟨d, -, -, rfl⟩ := cut
      exact ⟨encoding, rfl, rfl, rfl⟩

end Discovery

namespace Shader

/-- Every include of a shader's module leads to the shader's module of that id. -/
theorem resolve?_of_assemble {s : Shader} (ok : (assemble lib root includeRoot).result = .ok s)
    {m : Module} (member : m ∈ s.modules) {dep : Dependency} (inModule : dep ∈ m.dependencies) :
    ∃ id target, dep.resolved = some id ∧ s.resolve? dep.resolved = some target ∧
      target ∈ s.modules ∧ target.id = id := by
  have laid := laid_of_assemble ok
  obtain ⟨d, sorted, found, -, rfl⟩ := assemble_ok ok
  obtain ⟨valid, done⟩ := Discovery.run_ok found
  obtain ⟨id, noted, edge⟩ := valid.includes_of_mem done member inModule
  have listed : id ∈ d.ids := valid.closed done (List.mem_map_of_mem member) edge
  obtain ⟨target, inShader, rfl⟩ := List.mem_map.mp listed
  refine ⟨target.id, target, noted, ?_, inShader, rfl⟩
  rw [resolve?, noted, Option.bind_some]
  exact laid.find?_eq_some_iff.mpr ⟨laid.modules.mem_iff.mpr inShader, rfl⟩

/-- The block that contains a line names a module of the shader. -/
theorem Laid.find?_block {s : Shader} (laid : s.Laid) {b : SourceBlock} (member : b ∈ s.blocks) :
    ∃ m ∈ s.sorted, s.find? b.moduleId = some m := by
  rw [laid.blocks] at member
  rcases mem_blocksOf_iff.mp member with ⟨index, entry, atIndex, rfl⟩ | ⟨m, offset, body, rfl⟩
  · obtain ⟨m, inSorted, h, -, rfl⟩ := mem_hoistedLines_iff.mp (List.mem_of_getElem? atIndex)
    exact ⟨m, inSorted, laid.find?_eq_some_iff.mpr ⟨inSorted, rfl⟩⟩
  · exact ⟨m, body.mem, laid.find?_eq_some_iff.mpr ⟨body.mem, rfl⟩⟩

/-- A line without a block has no origin, and any other line has that which its block says. -/
theorem Laid.mapLine_cases {s : Shader} (laid : s.Laid) (n : Int) :
    (s.blocks.find? (·.contains n) = none ∧ s.mapLine n = none) ∨
    ∃ b, ∃ m ∈ s.sorted, s.blocks.find? (·.contains n) = some b ∧ s.find? b.moduleId = some m ∧
      s.mapLine n = some (m, b.mapLine n) := by
  unfold mapLine
  cases block : s.blocks.find? (·.contains n) with
  | none => exact .inl ⟨rfl, rfl⟩
  | some b =>
    obtain ⟨m, inSorted, found⟩ := laid.find?_block (List.mem_of_find?_eq_some block)
    refine .inr ⟨b, m, inSorted, rfl, found, ?_⟩
    simp [found]

end Shader

/-- An assembly ends with a bundle or with one of the faults that it reports. While its modules are
sorted nothing is missing in their table, and in a bundle every include leads to the module of its id and
every block to a module. Files whose paths have no limit may go on for ever; then the assembly is
cut off. -/
theorem assemble_lacks_nothing (source : ModuleSource) (tree : FileTree) (root includeRoot : String) :
    let lib := source.library tree
    let run := assemble lib root includeRoot
    (∀ e, run.result = .error e → e.Reported ∨
      ∃ encoding, source = .files encoding ∧ tree.pathLimit = none ∧
        e = .tooManyModules tree.capacity) ∧
    (∀ d, Discovery.run lib includeRoot root = .ok d →
      let table := Assembly.tableOf d.modules
      (∃ marks last rest, Marked table marks last rest ∧ Search.Halt table last (sort table)) ∧
      ∀ marks s rest, Marked table marks s rest → Complete table marks s) ∧
    ∀ s, run.result = .ok s →
      (∀ m ∈ s.modules, ∀ dep ∈ m.dependencies, ∃ id target, dep.resolved = some id ∧
        s.resolve? dep.resolved = some target ∧ target ∈ s.modules ∧ target.id = id) ∧
      ∀ n : Int, (s.blocks.find? (·.contains n) = none ∧ s.mapLine n = none) ∨
        ∃ b, ∃ m ∈ s.sorted, s.blocks.find? (·.contains n) = some b ∧
          s.find? b.moduleId = some m ∧ s.mapLine n = some (m, b.mapLine n) := by
  intro lib run
  refine ⟨fun e failed => ?_, fun d found => ?_, fun s ok => ⟨fun m member dep inModule => ?_, ?_⟩⟩
  · rcases assemble_error failed with ⟨stop, stopped, rfl⟩ | ⟨d, fault, found, order, rfl⟩
    · rcases Discovery.run_error stopped with fails | cut
      · exact .inl fails.reported
      · exact .inr cut.unlimited
    · obtain ⟨valid, done⟩ := Discovery.run_ok found
      obtain ⟨-, chain, rfl⟩ := sort_cyclic (valid.closed_table done) order
      exact .inl (.cycle chain)
  · obtain ⟨valid, done⟩ := Discovery.run_ok found
    obtain ⟨pushes, last, rest, sorts, halt⟩ := Sorts.start.halts
    obtain ⟨marks, marked⟩ := sorts.marked
    exact ⟨⟨marks, last, rest, marked, halt⟩,
      fun _ _ _ marked => marked.complete (valid.closed_table done)⟩
  · exact Shader.resolve?_of_assemble ok member inModule
  · exact (laid_of_assemble ok).mapLine_cases

/-- A file that includes itself, and two modules of which the one includes the other. -/
theorem assemble_lacks_nothing_of_loop_and_pair :
    let loop := (ModuleSource.files (some "utf-8")).library (FileTree.shelf [("m", "#include \"m\"")])
    let pair := (ModuleSource.memory MemoryStore.pair).library {}
    (∃ e, (assemble loop "m" "").result = .error e ∧ e.Reported) ∧
    ∃ d s, Discovery.run pair "" "m" = .ok d ∧ (assemble pair "m" "").result = .ok s ∧
      (∃ marks last rest, Marked (Assembly.tableOf d.modules) marks last rest ∧
        Complete (Assembly.tableOf d.modules) marks last) ∧
      (∃ m ∈ s.modules, ∃ dep ∈ m.dependencies, ∃ target, s.resolve? dep.resolved = some target ∧
        target ∈ s.modules ∧ dep.resolved = some target.id) ∧
      ∃ b : SourceBlock, ∃ m ∈ s.sorted, s.find? b.moduleId = some m ∧ s.mapLine 0 = some (m, b.mapLine 0) := by
  intro loop pair
  constructor
  · obtain ⟨reports, -, -⟩ := assemble_lacks_nothing (.files (some "utf-8"))
      (FileTree.shelf [("m", "#include \"m\"")]) "m" ""
    have found : (Discovery.run loop "" "m").toOption.map Discovery.modules =
        some [⟨"m", ["// #include \"m\""], [⟨"m", 0, .relative, some "m"⟩], []⟩] := by decide +kernel
    have order : sort (Assembly.tableOf [⟨"m", ["// #include \"m\""],
        [⟨"m", 0, .relative, some "m"⟩], []⟩]) = .error (.cycle ["m", "m"]) := by cbv
    have failed : (assemble loop "m" "").result = .error (.cycle ["m", "m"]) := by
      rw [assemble_of_modules found, Assembly.shaderOf, order]
      rfl
    refine ⟨_, failed, (reports _ failed).resolve_right ?_⟩
    rintro ⟨_, -, -, same⟩
    simp at same
  · obtain ⟨-, lookups, bundles⟩ := assemble_lacks_nothing (.memory MemoryStore.pair) {} "m" ""
    obtain ⟨resolves, maps⟩ := bundles _ assemble_pair
    obtain ⟨d, sorted, found, -⟩ := assemble_ok assemble_pair
    obtain ⟨⟨marks, last, rest, marked, -⟩, complete⟩ := lookups d found
    let s := Shader.ofSorted "m" MemoryStore.pairModules MemoryStore.pairModules.reverse
    refine ⟨d, s, found, assemble_pair, ⟨marks, last, rest, marked, complete _ _ _ marked⟩, ?_, ?_⟩
    · have first : MemoryStore.pairModules[0] ∈ s.modules := List.mem_cons_self
      have edge : ⟨"a", 1, .relative, some "a"⟩ ∈ MemoryStore.pairModules[0].dependencies :=
        List.mem_cons_self
      obtain ⟨id, target, noted, resolved, inShader, rfl⟩ := resolves _ first _ edge
      exact ⟨_, first, _, edge, target, resolved, inShader, noted⟩
    · have front : s.mapLine 0 ≠ none := by decide +kernel
      obtain ⟨b, m, inSorted, -, found, mapped⟩ := (maps 0).resolve_left fun none => front none.2
      exact ⟨b, m, inSorted, found, mapped⟩

end ShaderBundle
