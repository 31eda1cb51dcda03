import ShaderBundle.Proofs.Assembly.Result
import ShaderBundle.Proofs.DependencyOrder.Cycle
import ShaderBundle.Proofs.Discovery.Simulation

/-! The cycle that an assembly reports is one of the library's texts, and the root leads to it. -/
namespace ShaderBundle

open Relation DependencyOrder

variable {lib : Library} {includeRoot root : String}

def Library.Cyclic (lib : Library) (includeRoot root : String) : Prop :=
  ∃ id, ReflTransGen (lib.Includes includeRoot) root id ∧
    TransGen (lib.Includes includeRoot) id id

namespace Discovery

/-- The ids noted with the includes of the discovered modules are those that their texts include. -/
theorem Invariant.names_iff {d : Discovery} (valid : Invariant lib includeRoot root d)
    (done : d.waiting = []) {owner id : String} :
    (Assembly.tableOf d.modules).Names owner id ↔ owner ∈ d.ids ∧ lib.Includes includeRoot owner id := by
  rw [ModuleTable.Names, Assembly.map_snd_tableOf]
  constructor
  · rintro ⟨m, member, rfl, dep, inModule, noted⟩
    obtain ⟨id', noted', edge⟩ := valid.includes_of_mem done member inModule
    obtain rfl : id = id' := Option.some.inj (noted.symm.trans noted')
    exact ⟨List.mem_map_of_mem member, edge⟩
  · rintro ⟨found, edge⟩
    obtain ⟨m, member, rfl⟩ := List.mem_map.mp found
    have mentioned := (valid.mem_targets_iff (Invariant.modules_eq done ▸ member)).mpr edge
    obtain ⟨dep, inModule, noted⟩ := List.mem_filterMap.mp mentioned
    exact ⟨m, member, rfl, dep, inModule, noted⟩

/-- Whatever the texts lead to from a discovered id, the noted ids do. -/
theorem Invariant.names_of_path {d : Discovery} (valid : Invariant lib includeRoot root d)
    (done : d.waiting = []) {owner id : String} (found : owner ∈ d.ids)
    (path : ReflTransGen (lib.Includes includeRoot) owner id) :
    id ∈ d.ids ∧ ReflTransGen (Assembly.tableOf d.modules).Names owner id := by
  induction path with
  | refl => exact ⟨found, .refl⟩
  | tail _ edge ih =>
    obtain ⟨found, path⟩ := ih
    exact ⟨valid.closed done found edge, path.tail ((valid.names_iff done).mpr ⟨found, edge⟩)⟩

/-- Whatever the root leads to was discovered. -/
theorem Invariant.mem_of_reachable {d : Discovery} (valid : Invariant lib includeRoot root d)
    (done : d.waiting = []) {id : String} (path : ReflTransGen (lib.Includes includeRoot) root id) :
    id ∈ d.ids :=
  (valid.names_of_path done valid.root_mem path).1

/-- The table of the discovered modules is cyclic if the texts behind it are. -/
theorem Invariant.cyclic_iff {d : Discovery} (valid : Invariant lib includeRoot root d)
    (done : d.waiting = []) :
    (Assembly.tableOf d.modules).Cyclic ↔ lib.Cyclic includeRoot root := by
  rw [(valid.closed_table done).cyclic_iff]
  constructor
  · rintro ⟨id, cycle⟩
    obtain ⟨_, names, -⟩ := TransGen.head'_iff.mp cycle
    exact ⟨id, valid.reached id ((valid.names_iff done).mp names).1,
      TransGen.mono (fun owner id names => ((valid.names_iff done).mp names).2) _ _ cycle⟩
  · rintro ⟨id, path, cycle⟩
    obtain ⟨_, edge, back⟩ := TransGen.head'_iff.mp cycle
    have found := valid.mem_of_reachable done path
    have names := (valid.names_iff done).mpr ⟨found, edge⟩
    exact ⟨id, .head' names (valid.names_of_path done (valid.closed done found edge) back).2⟩

/-- No discovery fails for a cycle. -/
theorem error_ne_cycle {stop : Stop} {chain : List String}
    (failed : run lib includeRoot root = .error stop) : stop.error ≠ .cycle chain := by
  have request_ne {includer : Option (String × Nat)} {id : String} {e : AssemblyError}
      (request : Request lib includer id (.error e)) : e ≠ .cycle chain := by
    cases request with
    | refused => simp
    | malformed => simp
  rcases run_error failed with fails | ⟨_, -, -, rfl⟩
  · rcases fails.cases with ⟨e, request, rfl⟩ |
      ⟨_, _, _, _, -, -, -, ⟨fault, -, rfl⟩ | ⟨_, e, -, -, request, rfl⟩⟩
    · exact request_ne request
    · simp
    · exact request_ne request
  · simp

end Discovery

theorem assemble_cycle {chain : List String}
    (failed : (assemble lib root includeRoot).result = .error (.cycle chain)) :
    ∃ d, Discovery.run lib includeRoot root = .ok d ∧
      sort (Assembly.tableOf d.modules) = .error (.cycle chain) := by
  rcases assemble_error failed with ⟨stop, stopped, same⟩ | ⟨d, fault, found, order, same⟩
  · exact absurd same (Discovery.error_ne_cycle stopped)
  · cases fault with
    | cycle chain' =>
      obtain rfl := AssemblyError.cycle.inj same
      exact ⟨d, found, order⟩
    | unresolved key => simp [Assembly.orderError] at same

/-- The chain of a failed sort is a simple cycle through modules of its table. When an assembly fails
with it, the texts include each other as it says, and the root leads to all of them. -/
theorem chain_is_simple_cycle :
    (∀ (table : ModuleTable) (chain : List String), table.Keyed →
      sort table = .error (.cycle chain) →
      SimpleCycle table.Names chain ∧ ∀ id ∈ chain, id ∈ table.map Prod.fst) ∧
    ∀ (lib : Library) (root includeRoot : String) (chain : List String),
      (assemble lib root includeRoot).result = .error (.cycle chain) →
      SimpleCycle (lib.Includes includeRoot) chain ∧
      ∀ id ∈ chain, ReflTransGen (lib.Includes includeRoot) root id := by
  constructor
  · intro table chain keyed failed
    have cycle := simpleCycle_of_sort keyed failed
    refine ⟨cycle, fun id member => ?_⟩
    obtain ⟨_, m, inTable, rfl, -⟩ := cycle.exists_edge member
    rw [← keyed.ids]
    exact List.mem_map_of_mem inTable
  · intro lib root includeRoot chain failed
    obtain ⟨d, found, order⟩ := assemble_cycle failed
    obtain ⟨valid, done⟩ := Discovery.run_ok found
    have cycle := simpleCycle_of_sort (valid.closed_table done).toKeyed order
    refine ⟨⟨cycle.long, cycle.closed, cycle.distinct, cycle.walk.imp fun owner id names =>
      ((valid.names_iff done).mp names).2⟩, fun id member => ?_⟩
    obtain ⟨_, names⟩ := cycle.exists_edge member
    exact valid.reached id ((valid.names_iff done).mp names).1

def MemoryStore.tailed : MemoryStore :=
  ⟨[("top", "#include \"left\""), ("left", "#include \"right\""), ("right", "#include <left>")], []⟩

def MemoryStore.tailedModules : List Module :=
  [⟨"top", ["// #include \"left\""], [⟨"left", 0, .relative, some "left"⟩], []⟩,
    ⟨"left", ["// #include \"right\""], [⟨"right", 0, .relative, some "right"⟩], []⟩,
    ⟨"right", ["// #include <left>"], [⟨"left", 0, .absolute, some "left"⟩], []⟩]

theorem assemble_tailed : (assemble MemoryStore.tailed.library "top" "").result =
    .error (.cycle ["left", "right", "left"]) := by
  have found : (Discovery.run MemoryStore.tailed.library "" "top").toOption.map Discovery.modules =
      some MemoryStore.tailedModules := by decide +kernel
  have order : sort (Assembly.tableOf MemoryStore.tailedModules) =
      .error (.cycle ["left", "right", "left"]) := by cbv
  rw [assemble_of_modules found, Assembly.shaderOf, order]
  rfl

/-- The cycle starts where the search came upon it, not at the root. -/
theorem chain_is_simple_cycle_of_tail :
    let table := ModuleTable.ofIncludes
      [("top", ["left"]), ("left", ["right"]), ("right", ["left"])]
    let lib := MemoryStore.tailed.library
    table.Keyed ∧ sort table = .error (.cycle ["left", "right", "left"]) ∧
    SimpleCycle table.Names ["left", "right", "left"] ∧
    (assemble lib "top" "").result = .error (.cycle ["left", "right", "left"]) ∧
    SimpleCycle (lib.Includes "") ["left", "right", "left"] ∧
    ReflTransGen (lib.Includes "") "top" "left" := by
  intro table lib
  have keyed : table.Keyed := ⟨by decide, by decide⟩
  have failed : sort table = .error (.cycle ["left", "right", "left"]) := by cbv
  obtain ⟨ofTable, ofTexts⟩ := chain_is_simple_cycle
  obtain ⟨cycle, reached⟩ := ofTexts lib "top" "" _ assemble_tailed
  exact ⟨keyed, failed, (ofTable table _ keyed failed).1, assemble_tailed, cycle,
    reached "left" List.mem_cons_self⟩

end ShaderBundle
