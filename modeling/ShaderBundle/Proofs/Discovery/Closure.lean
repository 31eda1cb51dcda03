import ShaderBundle.Proofs.Discovery.Run
import ShaderBundle.Assembly
import ShaderBundle.Library.Memory
import Mathlib.Order.Bounds.Defs

/-! A discovery that succeeds has found the ids that the root reaches, nearest first, and has asked the
library for each of them once. -/
namespace ShaderBundle.Discovery

open Relation

variable {lib : Library} {includeRoot root : String} {d : Discovery}

namespace Invariant

theorem ids_distinct (valid : Invariant lib includeRoot root d) : d.ids.Nodup := by
  rw [valid.order]
  exact eraseDups_nodup _

theorem root_mem (valid : Invariant lib includeRoot root d) : root ∈ d.ids := by
  rw [valid.order, List.mem_eraseDups]
  exact List.mem_cons_self

theorem modules_eq (done : d.waiting = []) : d.modules = d.expanded := by
  simp [modules, done]

theorem mem_targets_iff (valid : Invariant lib includeRoot root d) {m : Module}
    (member : m ∈ d.expanded) {id : String} :
    id ∈ m.targets ↔ lib.Includes includeRoot m.id id := by
  obtain ⟨read, held, links⟩ := valid.followed m member
  exact links.mem_targets_iff held

/-- When no module waits, an include of a found module leads to a found module. -/
theorem closed (valid : Invariant lib includeRoot root d) (done : d.waiting = [])
    {owner id : String} (found : owner ∈ d.ids) (edge : lib.Includes includeRoot owner id) :
    id ∈ d.ids := by
  obtain ⟨m, member, rfl⟩ := List.mem_map.mp found
  rw [modules_eq done] at member
  rw [valid.order, List.mem_eraseDups]
  exact List.mem_cons_of_mem _
    (List.mem_flatMap.mpr ⟨m, member, (valid.mem_targets_iff member).mpr edge⟩)

/-- The ids that some number of includes suffices for stand before all others. -/
theorem level (valid : Invariant lib includeRoot root d) (done : d.waiting = []) (count : Nat) :
    ∃ near, near <+: d.ids ∧ ∀ id, id ∈ near ↔ lib.Within includeRoot root count id := by
  induction count with
  | zero =>
    refine ⟨[root], ?_, fun id => ?_⟩
    · rw [valid.order, List.eraseDups_cons]
      exact ⟨_, rfl⟩
    · rw [List.mem_singleton]
      constructor
      · rintro rfl
        exact .root 0
      · rintro ⟨⟩
        rfl
  | succ count ih =>
    obtain ⟨near, front, isNear⟩ := ih
    have split : near = (d.expanded.take near.length).map (·.id) := by
      rw [← modules_eq done, List.map_take]
      exact List.prefix_iff_eq_take.mp front
    refine ⟨(root :: (d.expanded.take near.length).flatMap Module.targets).eraseDups, ?_, ?_⟩
    · rw [valid.order]
      conv_rhs => rw [← List.take_append_drop near.length d.expanded, List.flatMap_append,
        ← List.cons_append, List.eraseDups_append]
      exact List.prefix_append ..
    intro id
    rw [List.mem_eraseDups, List.mem_cons, List.mem_flatMap]
    constructor
    · rintro (rfl | ⟨m, member, mentions⟩)
      · exact .root _
      · have reached : m.id ∈ near := split ▸ List.mem_map_of_mem member
        exact .step ((isNear m.id).mp reached)
          ((valid.mem_targets_iff (List.mem_of_mem_take member)).mp mentions)
    · rintro (_ | ⟨reached, edge⟩)
      · exact .inl rfl
      · have member := (isNear _).mpr reached
        rw [split] at member
        obtain ⟨m, inFront, rfl⟩ := List.mem_map.mp member
        exact .inr ⟨m, inFront, (valid.mem_targets_iff (List.mem_of_mem_take inFront)).mpr edge⟩

/-- Each include of an expanded module is noted with the id that it leads to. -/
theorem resolved (valid : Invariant lib includeRoot root d) {m : Module}
    (member : m ∈ d.expanded) {dep : Dependency} (inModule : dep ∈ m.dependencies) :
    ∃ id, dep.resolved = some id ∧ lib.Leads includeRoot m.id dep id := by
  obtain ⟨read, held, deps, linked, rfl⟩ := valid.followed m member
  exact resolved_of_mem linked inModule

/-- The id that an include of a found module is noted with is included by that module. -/
theorem includes_of_mem (valid : Invariant lib includeRoot root d) (done : d.waiting = [])
    {m : Module} (member : m ∈ d.modules) {dep : Dependency} (inModule : dep ∈ m.dependencies) :
    ∃ id, dep.resolved = some id ∧ lib.Includes includeRoot m.id id := by
  rw [modules_eq done] at member
  obtain ⟨id, noted, -⟩ := valid.resolved member inModule
  have mentioned : id ∈ m.targets := List.mem_filterMap.mpr ⟨dep, inModule, noted⟩
  exact ⟨id, noted, (valid.mem_targets_iff member).mp mentioned⟩

/-- The ids found are the least set that holds the root and all that its ids include. -/
theorem isLeast (valid : Invariant lib includeRoot root d) (done : d.waiting = []) :
    IsLeast {ids : Set String | root ∈ ids ∧
      ∀ owner ∈ ids, ∀ id, lib.Includes includeRoot owner id → id ∈ ids} {id | id ∈ d.ids} := by
  refine ⟨⟨valid.root_mem, fun owner found id edge => valid.closed done found edge⟩, ?_⟩
  rintro closed ⟨inside, step⟩ id found
  have path := valid.reached id found
  clear found
  induction path with
  | refl => exact inside
  | tail _ edge ih => exact step _ ih _ edge

/-- Each include of a found module is noted with a found id, the one that it leads to. -/
theorem leads_inside (valid : Invariant lib includeRoot root d) (done : d.waiting = []) {m : Module}
    (member : m ∈ d.modules) {dep : Dependency} (inModule : dep ∈ m.dependencies) :
    ∃ id ∈ d.ids, dep.resolved = some id ∧ lib.Leads includeRoot m.id dep id := by
  obtain ⟨id, noted, leads⟩ := valid.resolved (modules_eq done ▸ member) inModule
  obtain ⟨id', noted', edge⟩ := valid.includes_of_mem done member inModule
  obtain rfl : id = id' := Option.some.inj (noted.symm.trans noted')
  exact ⟨id, valid.closed done (List.mem_map_of_mem member) edge, noted, leads⟩

/-- Each include in the text of a found module leads somewhere. -/
theorem exists_leads (valid : Invariant lib includeRoot root d) (done : d.waiting = []) {m : Module}
    (held : lib.Holds m) (found : m.id ∈ d.ids) {dep : Dependency} (inModule : dep ∈ m.dependencies) :
    ∃ id, lib.Leads includeRoot m.id dep id := by
  obtain ⟨followed, member, same⟩ := List.mem_map.mp found
  obtain ⟨read, heldToo, links⟩ := valid.followed followed (modules_eq done ▸ member)
  obtain ⟨deps, -, rfl⟩ := id links
  obtain rfl := heldToo.unique held same
  exact links.exists_leads inModule

end Invariant

/-- What a successful discovery finds: the least set of ids that holds the root and all that its ids
include, each once and nearest first, in the order in which the modules themselves mention them. -/
theorem run_closure (ok : run lib includeRoot root = .ok d) :
    let keys := (Assembly.tableOf d.modules).map Prod.fst
    IsLeast {ids : Set String | root ∈ ids ∧
      ∀ owner ∈ ids, ∀ id, lib.Includes includeRoot owner id → id ∈ ids} {id | id ∈ keys} ∧
    (∀ entry ∈ Assembly.tableOf d.modules, entry.1 = entry.2.id) ∧
    (∀ m ∈ d.modules, ∃ read, lib.Holds read ∧ read.FollowedAs lib includeRoot m) ∧
    (∀ m ∈ d.modules, ∀ dep ∈ m.dependencies,
      ∃ id ∈ keys, dep.resolved = some id ∧ lib.Leads includeRoot m.id dep id) ∧
    keys = (root :: d.modules.flatMap Module.targets).eraseDups ∧
    (∀ count, ∃ near, near <+: keys ∧ ∀ id, id ∈ near ↔ lib.Within includeRoot root count id) ∧
    d.requests = keys ∧ keys.Nodup := by
  obtain ⟨valid, done⟩ := run_ok ok
  have all : d.modules = d.expanded := Invariant.modules_eq done
  have keys : (Assembly.tableOf d.modules).map Prod.fst = d.ids := by
    simp [Assembly.tableOf, ids, Function.comp_def]
  intro keys'
  rw [show keys' = d.ids from keys]
  refine ⟨valid.isLeast done, ?_, ?_, fun m member dep => valid.leads_inside done member, ?_,
    valid.level done, valid.requests, valid.ids_distinct⟩
  · intro entry member
    obtain ⟨m, -, rfl⟩ := List.mem_map.mp member
    rfl
  · rw [all]
    exact valid.followed
  · rw [valid.order, all]

/-- Two modules that include each other, one of them twice, are both asked for once. -/
theorem run_closure_of_loop :
    let lib := MemoryStore.library ⟨[("m", "#include \"a\"\n#include \"a\""), ("a", "#include <m>")], []⟩
    ∃ d, run lib "" "m" = .ok d ∧ d.requests = ["m", "a"] ∧
      IsLeast {ids : Set String | "m" ∈ ids ∧
        ∀ owner ∈ ids, ∀ id, lib.Includes "" owner id → id ∈ ids} {id | id ∈ ["m", "a"]} := by
  intro lib
  have found : (run lib "" "m").toOption.map (·.requests) = some ["m", "a"] := by decide +kernel
  cases outcome : run lib "" "m" with
  | error stop => simp [outcome, Except.toOption] at found
  | ok d =>
    have requests : d.requests = ["m", "a"] := by simpa [outcome, Except.toOption] using found
    obtain ⟨least, -, -, -, -, -, asked, -⟩ := run_closure outcome
    rw [← asked, requests] at least
    exact ⟨d, rfl, requests, least⟩

end ShaderBundle.Discovery
