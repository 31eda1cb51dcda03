import ShaderBundle.DependencyOrder
import Mathlib.Data.List.Nodup
import Mathlib.Logic.Relation

/-! The include relation between the modules of a table, and the tables a sort is meant for: each
module stands under its own id, and every include leads to a key. -/
namespace ShaderBundle.ModuleTable

open Relation

/-- Every module stands under its own id, and no key occurs twice. -/
structure Keyed (table : ModuleTable) : Prop where
  named : ∀ entry ∈ table, entry.1 = entry.2.id
  distinct : (table.map Prod.fst).Nodup

structure Closed (table : ModuleTable) : Prop extends table.Keyed where
  resolved : ∀ entry ∈ table, ∀ dep ∈ entry.2.dependencies,
    ∃ key ∈ table.map Prod.fst, dep.resolved = some key

def target? (table : ModuleTable) (dep : Dependency) : Option Module :=
  dep.resolved.bind table.find?

def Includes (table : ModuleTable) (m n : Module) : Prop :=
  ∃ dep ∈ m.dependencies, table.target? dep = some n

def Cyclic (table : ModuleTable) : Prop := ∃ m, TransGen table.Includes m m

def ofIncludes (graph : List (String × List String)) : ModuleTable :=
  graph.map fun (id, targets) =>
    (id, ⟨id, [], targets.map fun target => ⟨target, 0, .relative, some target⟩, []⟩)

theorem find?_of_mem {table : ModuleTable} (distinct : (table.map Prod.fst).Nodup) {key : String}
    {m : Module} (member : (key, m) ∈ table) : table.find? key = some m := by
  induction table with
  | nil => simp at member
  | cons entry rest ih =>
    obtain ⟨head, distinct⟩ := List.nodup_cons.mp distinct
    rcases List.mem_cons.mp member with rfl | inRest
    · simp [find?_cons]
    · have different : key ≠ entry.1 := by
        rintro rfl
        exact head (List.mem_map.mpr ⟨_, inRest, rfl⟩)
      simpa [find?_cons, different] using ih distinct inRest

theorem mem_entry_of_find? {table : ModuleTable} {key : String} {m : Module}
    (found : table.find? key = some m) : (key, m) ∈ table := by
  induction table with
  | nil => simp [find?] at found
  | cons entry rest ih =>
    by_cases same : key = entry.1
    · obtain rfl : entry.2 = m := by simpa [find?_cons, same] using found
      exact List.mem_cons.mpr (.inl (by rw [same]))
    · have later : find? rest key = some m := by
        simpa [find?_cons, same] using found
      exact List.mem_cons_of_mem _ (ih later)

theorem mem_of_target? {table : ModuleTable} {dep : Dependency} {n : Module}
    (found : table.target? dep = some n) : n ∈ table.map Prod.snd := by
  obtain ⟨key, -, found⟩ := Option.bind_eq_some_iff.mp found
  exact mem_of_find? found

namespace Keyed

variable {table : ModuleTable}

/-- A module is found under its id and under no other key. -/
theorem find?_eq_some_iff (keyed : table.Keyed) {key : String} {m : Module} :
    table.find? key = some m ↔ m.id = key ∧ m ∈ table.map Prod.snd := by
  constructor
  · intro found
    exact ⟨(keyed.named _ (mem_entry_of_find? found)).symm, mem_of_find? found⟩
  · rintro ⟨rfl, member⟩
    obtain ⟨⟨key, n⟩, inTable, rfl⟩ := List.mem_map.mp member
    obtain rfl : key = n.id := keyed.named _ inTable
    exact find?_of_mem keyed.distinct inTable

theorem ids (keyed : table.Keyed) : (table.map Prod.snd).map (·.id) = table.map Prod.fst := by
  rw [List.map_map]
  exact List.map_congr_left fun entry member => (keyed.named entry member).symm

theorem ids_distinct (keyed : table.Keyed) : ((table.map Prod.snd).map (·.id)).Nodup := by
  rw [keyed.ids]
  exact keyed.distinct

/-- Two modules of one table with one id are one module. -/
theorem eq_of_id_eq (keyed : table.Keyed) {m n : Module} (left : m ∈ table.map Prod.snd)
    (right : n ∈ table.map Prod.snd) (same : m.id = n.id) : m = n :=
  List.inj_on_of_nodup_map keyed.ids_distinct left right same

end Keyed

theorem Closed.target?_isSome {table : ModuleTable} (closed : table.Closed) {m : Module}
    (member : m ∈ table.map Prod.snd) {dep : Dependency} (inModule : dep ∈ m.dependencies) :
    ∃ n, table.target? dep = some n := by
  obtain ⟨entry, inTable, rfl⟩ := List.mem_map.mp member
  obtain ⟨key, isKey, resolved⟩ := closed.resolved entry inTable dep inModule
  obtain ⟨⟨key, n⟩, keyed, rfl⟩ := List.mem_map.mp isKey
  exact ⟨n, by simp [target?, resolved, find?_of_mem closed.distinct keyed]⟩

theorem mem_of_includes {table : ModuleTable} {m n : Module} (edge : table.Includes m n) :
    n ∈ table.map Prod.snd := by
  obtain ⟨dep, -, found⟩ := edge
  exact mem_of_target? found

end ShaderBundle.ModuleTable
