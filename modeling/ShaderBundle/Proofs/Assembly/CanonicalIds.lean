import ShaderBundle.Proofs.Assembly.Outcome
import ShaderBundle.Proofs.Path.Directory

/-! Modules of a store under canonical ids. A canonical root and include root lead to canonical ids only, so
that includes which denote one path lead to one module, and a module that names itself is found out. -/
namespace ShaderBundle

open ShaderBundle.Path Relation

variable {store : MemoryStore} {includeRoot root owner id : String} {dep : Dependency}

namespace Dependency

def base (dep : Dependency) (includeRoot owner : String) : String :=
  match dep.kind with
  | .absolute => includeRoot
  | .relative => directory owner

/-- What an include denotes, whether or not there is such a module. -/
def denotes (dep : Dependency) (includeRoot owner : String) : Bool × List Segment :=
  meaningFrom (dep.base includeRoot owner).toList dep.target.toList

end Dependency

namespace MemoryStore

theorem leads_iff_join : store.library.Leads includeRoot owner dep id ↔
    join (dep.base includeRoot owner) dep.target = .ok id := by
  rw [Library.leads_iff, Library.resolve, Dependency.base]
  cases dep.kind <;> rfl

theorem isCanonical_base (canonicalRoot : IsCanonical includeRoot.toList)
    (canonical : IsCanonical owner.toList) (dep : Dependency) :
    IsCanonical (dep.base includeRoot owner).toList := by
  unfold Dependency.base
  split
  · exact canonicalRoot
  · rw [directory, String.toList_ofList]
    exact canonical.directory

end MemoryStore

namespace Discovery.Invariant

variable {d : Discovery} {m n : Module} {dep' : Dependency}

section

variable (valid : Invariant store.library includeRoot root d)
  (canonicalBase : IsCanonical includeRoot.toList) (canonicalRoot : IsCanonical root.toList)

include valid canonicalBase canonicalRoot

theorem isCanonical_ids (found : id ∈ d.ids) : IsCanonical id.toList := by
  have path := valid.reached id found
  clear found
  induction path with
  | refl => exact canonicalRoot
  | tail _ edge ih =>
    obtain ⟨m, -, rfl, dep, -, leads⟩ := edge
    exact (MemoryStore.isCanonical_base canonicalBase ih dep).join (MemoryStore.leads_iff_join.mp leads)

/-- One path is never found under two ids. -/
theorem eq_of_meaning (member : m ∈ d.modules) (member' : n ∈ d.modules)
    (same : meaning m.id.toList = meaning n.id.toList) : m = n := by
  have canonical {m : Module} (member : m ∈ d.modules) : IsCanonical m.id.toList :=
    valid.isCanonical_ids canonicalBase canonicalRoot (List.mem_map_of_mem member)
  have ids : m.id = n.id :=
    String.toList_inj.mp ((canonical member).eq_of_meaning (canonical member') same)
  exact List.inj_on_of_nodup_map valid.ids_distinct member member' ids

/-- Two includes lead to one id exactly if they denote one path. -/
theorem resolved_eq_iff (done : d.waiting = []) (member : m ∈ d.modules) (inModule : dep ∈ m.dependencies)
    (member' : n ∈ d.modules) (inModule' : dep' ∈ n.dependencies) :
    ∃ id id', dep.resolved = some id ∧ dep'.resolved = some id' ∧
      (id = id' ↔ dep.denotes includeRoot m.id = dep'.denotes includeRoot n.id) := by
  have base {m : Module} (member : m ∈ d.modules) (dep : Dependency) :
      IsCanonical (dep.base includeRoot m.id).toList :=
    MemoryStore.isCanonical_base canonicalBase
      (valid.isCanonical_ids canonicalBase canonicalRoot (List.mem_map_of_mem member)) dep
  obtain ⟨id, -, noted, leads⟩ := valid.leads_inside done member inModule
  obtain ⟨id', -, noted', leads'⟩ := valid.leads_inside done member' inModule'
  exact ⟨id, id', noted, noted', (base member dep).join_eq_iff (base member' dep')
    (MemoryStore.leads_iff_join.mp leads) (MemoryStore.leads_iff_join.mp leads')⟩

/-- A quoted include that names the last segment of its owner's id leads back to the owner. -/
theorem resolved_self (done : d.waiting = []) (member : m ∈ d.modules)
    (inModule : dep ∈ m.dependencies) (quoted : dep.kind = .relative)
    (last : dep.target.toList = lastSegment m.id.toList) (step : IsStep (lastSegment m.id.toList))
    (down : lastSegment m.id.toList ≠ climb) : dep.resolved = some m.id := by
  have canonical := valid.isCanonical_ids canonicalBase canonicalRoot (List.mem_map_of_mem member)
  obtain ⟨id, -, noted, leads⟩ := valid.leads_inside done member inModule
  have joined := MemoryStore.leads_iff_join.mp leads
  rw [Dependency.base, quoted] at joined
  have back := canonical.join_lastSegment step down last
  rw [noted, Except.ok.inj (joined.symm.trans back)]

end

end Discovery.Invariant

/-- A module that includes itself makes its library cyclic. -/
theorem Discovery.Invariant.cyclic_of_resolved_self {lib : Library} {d : Discovery} {m : Module}
    (valid : Discovery.Invariant lib includeRoot root d) (done : d.waiting = [])
    (member : m ∈ d.modules) (inModule : dep ∈ m.dependencies) (self : dep.resolved = some m.id) :
    lib.Cyclic includeRoot root := by
  obtain ⟨id, noted, edge⟩ := valid.includes_of_mem done member inModule
  obtain rfl : id = m.id := Option.some.inj (noted.symm.trans self)
  exact ⟨m.id, valid.reached m.id (List.mem_map_of_mem member), .single edge⟩

/-- From a canonical root and include root a discovery in memory finds canonical ids only, and no path under
two of them: the ids that any two includes lead to are the same exactly if the includes denote the same
path. A quoted include that names the last segment of its owner's id leads to the owner, whatever
directory that is in, and the assembly fails with a cycle. -/
theorem discovered_ids_canonical (store : MemoryStore) {d : Discovery}
    (canonicalRoot : IsCanonical root.toList) (canonicalBase : IsCanonical includeRoot.toList)
    (ok : Discovery.run store.library includeRoot root = .ok d) :
    (∀ m ∈ d.modules, IsCanonical m.id.toList) ∧
    (∀ m ∈ d.modules, ∀ n ∈ d.modules, meaning m.id.toList = meaning n.id.toList → m = n) ∧
    (∀ m ∈ d.modules, ∀ dep ∈ m.dependencies, ∀ n ∈ d.modules, ∀ dep' ∈ n.dependencies,
      ∃ id id', dep.resolved = some id ∧ dep'.resolved = some id' ∧
        (id = id' ↔ dep.denotes includeRoot m.id = dep'.denotes includeRoot n.id)) ∧
    ∀ m ∈ d.modules, ∀ dep ∈ m.dependencies, dep.kind = .relative →
      dep.target.toList = lastSegment m.id.toList →
      dep.target ≠ "" → dep.target ≠ "." → dep.target ≠ ".." →
      dep.resolved = some m.id ∧
        ∃ chain, (assemble store.library root includeRoot).result = .error (.cycle chain) := by
  obtain ⟨valid, done⟩ := Discovery.run_ok ok
  refine ⟨fun m member => ?_, fun m member n member' => ?_,
    fun m member dep inModule n member' dep' inModule' => ?_,
    fun m member dep inModule quoted last some moves down => ?_⟩
  · exact valid.isCanonical_ids canonicalBase canonicalRoot (List.mem_map_of_mem member)
  · exact valid.eq_of_meaning canonicalBase canonicalRoot member member'
  · exact valid.resolved_eq_iff canonicalBase canonicalRoot done member inModule member' inModule'
  · rw [← String.toList_inj.ne, last] at some moves down
    have self := valid.resolved_self canonicalBase canonicalRoot done member inModule quoted last
      ⟨some, moves, slash_not_mem_lastSegment _⟩ down
    exact ⟨self, (assemble_of_run_ok ok).1 (valid.cyclic_of_resolved_self done member inModule self)⟩

def MemoryStore.spelledTwice : MemoryStore :=
  ⟨[("app/m", "#include \"../lib/a\"\n#include <lib//./a>"), ("lib/a", "#include \"a\"")], []⟩

def MemoryStore.spelledTwiceModules : List Module :=
  [⟨"app/m", ["// #include \"../lib/a\"", "// #include <lib//./a>"],
      [⟨"../lib/a", 0, .relative, some "lib/a"⟩, ⟨"lib//./a", 1, .absolute, some "lib/a"⟩], []⟩,
    ⟨"lib/a", ["// #include \"a\""], [⟨"a", 0, .relative, some "lib/a"⟩], []⟩]

theorem discovered_ids_canonical_of_spellings :
    IsCanonical "app/m".toList ∧ IsCanonical "".toList ∧
    ∃ d, Discovery.run MemoryStore.spelledTwice.library "" "app/m" = .ok d ∧
      d.modules = MemoryStore.spelledTwiceModules ∧ IsCanonical "lib/a".toList ∧
      Dependency.denotes ⟨"../lib/a", 0, .relative, some "lib/a"⟩ "" "app/m" =
        Dependency.denotes ⟨"lib//./a", 1, .absolute, some "lib/a"⟩ "" "app/m" ∧
      ∃ chain, (assemble MemoryStore.spelledTwice.library "app/m" "").result = .error (.cycle chain) := by
  have canonicalRoot : IsCanonical "app/m".toList :=
    ⟨0, ⟨.inr (by decide), by decide, ["app".toList, "m".toList], by decide, by decide⟩, by decide⟩
  have canonicalBase : IsCanonical "".toList :=
    ⟨0, ⟨.inl rfl, by decide, [], by decide, by decide⟩, by decide⟩
  have found : (Discovery.run MemoryStore.spelledTwice.library "" "app/m").toOption.map
      Discovery.modules = some MemoryStore.spelledTwiceModules := by decide +kernel
  cases ok : Discovery.run MemoryStore.spelledTwice.library "" "app/m" with
  | error stop => simp [ok, Except.toOption] at found
  | ok d =>
    have modules : d.modules = MemoryStore.spelledTwiceModules := by
      simpa [ok, Except.toOption] using found
    obtain ⟨canonical, -, same, self⟩ := discovered_ids_canonical _ canonicalRoot canonicalBase ok
    rw [modules] at canonical same self
    have top : MemoryStore.spelledTwiceModules[0] ∈ MemoryStore.spelledTwiceModules := List.mem_cons_self
    have lib : MemoryStore.spelledTwiceModules[1] ∈ MemoryStore.spelledTwiceModules :=
      List.mem_cons_of_mem _ List.mem_cons_self
    obtain ⟨id, id', noted, noted', iff⟩ := same _ top _ List.mem_cons_self _ top _
      (List.mem_cons_of_mem _ List.mem_cons_self)
    obtain rfl : "lib/a" = id := Option.some.inj noted
    obtain rfl : "lib/a" = id' := Option.some.inj noted'
    obtain ⟨-, cycle⟩ := self _ lib _ List.mem_cons_self rfl (by decide) (by decide) (by decide) (by decide)
    exact ⟨canonicalRoot, canonicalBase, d, rfl, modules, canonical _ lib, iff.mp rfl, cycle⟩

end ShaderBundle
