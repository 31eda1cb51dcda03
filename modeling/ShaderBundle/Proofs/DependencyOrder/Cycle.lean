import ShaderBundle.Proofs.DependencyOrder.Order

/-! The chain of a failed sort. It is cut out of the open modules, which form a path of includes
without repetition, and closed by the include that led back. -/
namespace ShaderBundle

open Relation

/-- A walk along the edges that ends where it begins and meets nothing else twice. -/
structure SimpleCycle (edge : String → String → Prop) (chain : List String) : Prop where
  long : 2 ≤ chain.length
  closed : chain.head? = chain.getLast?
  distinct : chain.dropLast.Nodup
  walk : chain.IsChain edge

namespace SimpleCycle

variable {edge other : String → String → Prop} {chain : List String}

/-- A walk without repetition whose last step leads back to `id` closes a cycle from `id` on. -/
theorem of_return {way : List String} {id : String} (walk : way.IsChain edge) (distinct : way.Nodup)
    (member : id ∈ way) (back : ∀ last ∈ way.getLast?, edge last id) :
    SimpleCycle edge (way.dropWhile (· ≠ id) ++ [id]) := by
  obtain ⟨before, after, rfl, outside⟩ := List.eq_append_cons_of_mem member
  have rest : (before ++ id :: after).dropWhile (· ≠ id) = id :: after := by
    rw [List.dropWhile_append_of_pos]
    · simp
    · intro x inBefore
      have different : x ≠ id := by
        rintro rfl
        exact outside inBefore
      simpa using different
  have suffix : id :: after <:+ before ++ id :: after := List.suffix_append ..
  rw [rest]
  refine ⟨by simp, ?_, ?_, ?_⟩
  · rw [List.getLast?_concat]
    rfl
  · rw [List.dropLast_concat]
    exact distinct.sublist suffix.sublist
  · refine List.isChain_append.mpr ⟨walk.suffix suffix, .singleton id, ?_⟩
    intro last isLast next isNext
    obtain rfl : id = next := by simpa using isNext
    exact back last (by simpa using isLast)

/-- From every id of a cycle an edge leads on, from the last one as from the first. -/
theorem exists_edge (cycle : SimpleCycle edge chain) {id : String} (member : id ∈ chain) :
    ∃ next, edge id next := by
  obtain ⟨before, after, rfl⟩ := List.append_of_mem member
  cases after with
  | cons next after => exact ⟨next, (List.isChain_append_cons_cons.mp cycle.walk).2.1⟩
  | nil =>
    have long := cycle.long
    have closed := cycle.closed
    have walk := cycle.walk
    rw [List.getLast?_concat] at closed
    cases before with
    | nil => simp at long
    | cons first middle =>
      obtain rfl : first = id := Option.some.inj closed
      cases middle with
      | nil => exact ⟨first, (List.isChain_cons_cons.mp walk).1⟩
      | cons next middle => exact ⟨next, (List.isChain_cons_cons.mp walk).1⟩

end SimpleCycle

namespace ModuleTable

variable {table : ModuleTable}

def Names (table : ModuleTable) (owner id : String) : Prop :=
  ∃ m ∈ table.map Prod.snd, m.id = owner ∧ ∃ dep ∈ m.dependencies, dep.resolved = some id

theorem Keyed.names_of_includes (keyed : table.Keyed) {m n : Module} (member : m ∈ table.map Prod.snd)
    (edge : table.Includes m n) : table.Names m.id n.id := by
  obtain ⟨dep, inModule, found⟩ := edge
  obtain ⟨key, resolved, found⟩ := Option.bind_eq_some_iff.mp found
  obtain ⟨rfl, -⟩ := keyed.find?_eq_some_iff.mp found
  exact ⟨m, member, rfl, dep, inModule, resolved⟩

theorem mem_of_transGen {m n : Module} (path : TransGen table.Includes m n) :
    n ∈ table.map Prod.snd := by
  obtain ⟨_, -, last⟩ := TransGen.tail'_iff.mp path
  exact mem_of_includes last

/-- In a closed table every named id is that of an included module. -/
theorem Closed.includes_of_names (closed : table.Closed) {m : Module}
    (member : m ∈ table.map Prod.snd) {id : String} (names : table.Names m.id id) :
    ∃ n, n.id = id ∧ table.Includes m n := by
  obtain ⟨m', member', same, dep, inModule, resolved⟩ := names
  obtain rfl := closed.eq_of_id_eq member' member same
  obtain ⟨n, found⟩ := closed.target?_isSome member inModule
  have keyed : table.find? id = some n := by simpa [target?, resolved] using found
  exact ⟨n, (closed.find?_eq_some_iff.mp keyed).1, dep, inModule, found⟩

/-- In a closed table a path of ids from a module is one of modules. -/
theorem Closed.exists_path (closed : table.Closed) {m : Module} (member : m ∈ table.map Prod.snd)
    {id : String} (path : ReflTransGen table.Names m.id id) :
    ∃ n ∈ table.map Prod.snd, n.id = id ∧ ReflTransGen table.Includes m n := by
  induction path with
  | refl => exact ⟨m, member, rfl, .refl⟩
  | tail _ names ih =>
    obtain ⟨n, inTable, rfl, path⟩ := ih
    obtain ⟨next, same, edge⟩ := closed.includes_of_names inTable names
    exact ⟨next, mem_of_includes edge, same, path.tail edge⟩

/-- A closed table is cyclic if some id names itself along some path. -/
theorem Closed.cyclic_iff (closed : table.Closed) :
    table.Cyclic ↔ ∃ id, TransGen table.Names id id := by
  constructor
  · rintro ⟨m, cycle⟩
    have member := mem_of_transGen cycle
    have names {n : Module} (path : TransGen table.Includes m n) :
        TransGen table.Names m.id n.id := by
      induction path with
      | single edge => exact .single (closed.names_of_includes member edge)
      | tail path edge ih =>
        exact ih.tail (closed.names_of_includes (mem_of_transGen path) edge)
    exact ⟨m.id, names cycle⟩
  · rintro ⟨own, cycle⟩
    obtain ⟨_, names, back⟩ := TransGen.head'_iff.mp cycle
    obtain ⟨m, member, rfl, -⟩ := id names
    obtain ⟨n, rfl, edge⟩ := closed.includes_of_names member names
    obtain ⟨last, inTable, same, path⟩ := closed.exists_path (mem_of_includes edge) back
    rw [closed.eq_of_id_eq inTable member same] at path
    exact ⟨m, .head' edge path⟩

end ModuleTable

namespace DependencyOrder

open Search

variable {table : ModuleTable} {s : Search} {chain : List String}

/-- From the outermost open module down, each names the next one. -/
theorem Search.Invariant.path_names (keyed : table.Keyed) (valid : Invariant table s) :
    s.path.IsChain table.Names := by
  have opened : s.path = (s.entered.map (·.id)).reverse := by
    simp [Search.path, entered, Function.comp_def]
  rw [opened, List.isChain_reverse, List.isChain_map]
  refine valid.path.imp_of_mem_imp fun upper lower _ member edge => ?_
  exact keyed.names_of_includes (valid.members lower (List.mem_append_right _ member)) edge

theorem Search.Invariant.path_distinct (valid : Invariant table s) : s.path.Nodup := by
  have distinct := valid.distinct
  rw [List.map_append] at distinct
  have opened := (List.nodup_append.mp distinct).2.1
  simpa [Search.path, entered, Function.comp_def] using opened

theorem simpleCycle_of_halt (keyed : table.Keyed) (valid : Invariant table s)
    (halt : Halt table s (.error (.cycle chain))) : SimpleCycle table.Names chain := by
  have names := valid.path_names keyed
  have distinct := valid.path_distinct
  cases halt with
  | @closing finished m dep left below target found opened =>
    refine .of_return names distinct (mem_path_iff.mpr opened) ?_
    · intro last isLast
      obtain rfl : m.id = last := by simpa [Search.path] using isLast
      have inTable : m ∈ table.map Prod.snd :=
        valid.members m (List.mem_append_right _ List.mem_cons_self)
      have inModule : dep ∈ m.dependencies :=
        (valid.remaining _ List.mem_cons_self).subset List.mem_cons_self
      exact keyed.names_of_includes inTable ⟨dep, inModule, found⟩

/-- The chain of a failed sort is a cycle of the table. -/
theorem simpleCycle_of_sort (keyed : table.Keyed) (failed : sort table = .error (.cycle chain)) :
    SimpleCycle table.Names chain := by
  obtain ⟨s, valid, halt⟩ := sort_error keyed failed
  exact simpleCycle_of_halt keyed valid halt

end DependencyOrder

end ShaderBundle
