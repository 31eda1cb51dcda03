import ShaderBundle.Discovery
import ShaderBundle.Proofs.Module.Reading
import Mathlib.Data.List.Induction
import Mathlib.Data.List.Nodup

/-! Which modules a root reaches in a library, said without the search that finds them: the texts that
the library hands out name further ids, and a discovery lists each id at its first mention. -/
namespace ShaderBundle

namespace Library

/-- Where an include leads: an angled target starts at the include root, a quoted one at the
directory of the module that holds it. -/
inductive Leads (lib : Library) (includeRoot owner : String) (dep : Dependency) (id : String) : Prop
  | angled (kind : dep.kind = .absolute) (joined : lib.join includeRoot dep.target = .ok id)
  | quoted (kind : dep.kind = .relative)
    (joined : lib.join (Path.directory owner) dep.target = .ok id)

theorem leads_iff {lib : Library} {includeRoot owner id : String} {dep : Dependency} :
    lib.Leads includeRoot owner dep id ↔ lib.resolve includeRoot owner dep = .ok id := by
  unfold resolve
  constructor
  · rintro (⟨kind, joined⟩ | ⟨kind, joined⟩) <;> simp [kind, joined]
  · intro resolved
    cases kind : dep.kind with
    | absolute => exact .angled kind (by simpa [kind] using resolved)
    | relative => exact .quoted kind (by simpa [kind] using resolved)

theorem Leads.unique {lib : Library} {includeRoot owner id other : String} {dep : Dependency}
    (left : lib.Leads includeRoot owner dep id) (right : lib.Leads includeRoot owner dep other) :
    id = other :=
  Except.ok.inj ((leads_iff.mp left).symm.trans (leads_iff.mp right))

/-- The module is what the library's text of its id reads as. -/
def Holds (lib : Library) (m : Module) : Prop :=
  ∃ text, lib.fetch m.id = .ok text ∧ Module.ofSource m.id text = .ok m

def Includes (lib : Library) (includeRoot owner id : String) : Prop :=
  ∃ m, lib.Holds m ∧ m.id = owner ∧ ∃ dep ∈ m.dependencies, lib.Leads includeRoot owner dep id

inductive Within (lib : Library) (includeRoot root : String) : Nat → String → Prop
  | root (count : Nat) : Within lib includeRoot root count root
  | step {count : Nat} {owner id : String} (reached : Within lib includeRoot root count owner)
    (edge : lib.Includes includeRoot owner id) : Within lib includeRoot root (count + 1) id

theorem Holds.unique {lib : Library} {m n : Module} (left : lib.Holds m) (right : lib.Holds n)
    (same : m.id = n.id) : m = n := by
  obtain ⟨text, fetched, read⟩ := left
  obtain ⟨text', fetched', read'⟩ := right
  rw [same] at fetched read
  obtain rfl : text = text' := Except.ok.inj (fetched.symm.trans fetched')
  exact Except.ok.inj (read.symm.trans read')

end Library

theorem Library.load_ok {lib : Library} {includer : Option (String × Nat)} {id : String}
    {m : Module} (ok : lib.load includer id = .ok m) : m.id = id ∧ lib.Holds m := by
  unfold Library.load at ok
  split at ok
  · simp at ok
  · rename_i text fetched
    split at ok
    · simp at ok
    · rename_i read
      obtain rfl := Except.ok.inj ok
      obtain rfl := Module.ofSource_id read
      exact ⟨rfl, text, fetched, read⟩

def Module.FollowedAs (lib : Library) (includeRoot : String) (m followed : Module) : Prop :=
  ∃ deps, List.Forall₂ (fun dep dep' => ∃ id, lib.Leads includeRoot m.id dep id ∧
    dep' = { dep with resolved := some id }) m.dependencies deps ∧
    followed = { m with dependencies := deps }

def Module.targets (m : Module) : List String := m.dependencies.filterMap (·.resolved)

theorem mem_filterMap_resolved {lib : Library} {includeRoot owner : String}
    {deps followed : List Dependency}
    (linked : List.Forall₂ (fun dep dep' => ∃ id, lib.Leads includeRoot owner dep id ∧
      dep' = { dep with resolved := some id }) deps followed) {id : String} :
    id ∈ followed.filterMap (·.resolved) ↔ ∃ dep ∈ deps, lib.Leads includeRoot owner dep id := by
  induction linked with
  | nil => simp
  | cons head _ ih =>
    obtain ⟨found, leads, rfl⟩ := head
    simp only [List.filterMap_cons, List.mem_cons, exists_eq_or_imp, ih]
    constructor
    · rintro (rfl | later)
      · exact .inl leads
      · exact .inr later
    · rintro (now | later)
      · exact .inl (now.unique leads)
      · exact .inr later

theorem leads_of_mem {lib : Library} {includeRoot owner : String} {deps followed : List Dependency}
    (linked : List.Forall₂ (fun dep dep' => ∃ id, lib.Leads includeRoot owner dep id ∧
      dep' = { dep with resolved := some id }) deps followed) {dep : Dependency}
    (member : dep ∈ deps) : ∃ id, lib.Leads includeRoot owner dep id := by
  induction linked with
  | nil => simp at member
  | cons head _ ih =>
    rcases List.mem_cons.mp member with rfl | later
    · obtain ⟨id, leads, -⟩ := head
      exact ⟨id, leads⟩
    · exact ih later

/-- Noting where an include leads does not change where it leads. -/
theorem resolved_of_mem {lib : Library} {includeRoot owner : String}
    {deps followed : List Dependency}
    (linked : List.Forall₂ (fun dep dep' => ∃ id, lib.Leads includeRoot owner dep id ∧
      dep' = { dep with resolved := some id }) deps followed) {dep : Dependency}
    (member : dep ∈ followed) :
    ∃ id, dep.resolved = some id ∧ lib.Leads includeRoot owner dep id := by
  induction linked with
  | nil => simp at member
  | cons head _ ih =>
    rcases List.mem_cons.mp member with rfl | member
    · obtain ⟨id, leads, rfl⟩ := head
      refine ⟨id, rfl, ?_⟩
      rw [Library.leads_iff] at leads ⊢
      exact leads
    · exact ih member

namespace Module.FollowedAs

variable {lib : Library} {includeRoot : String} {m followed : Module}

/-- A held module mentions exactly what its text includes. -/
theorem mem_targets_iff (links : m.FollowedAs lib includeRoot followed) (held : lib.Holds m)
    {id : String} : id ∈ followed.targets ↔ lib.Includes includeRoot followed.id id := by
  obtain ⟨deps, linked, rfl⟩ := links
  refine (mem_filterMap_resolved linked).trans ⟨?_, ?_⟩
  · rintro ⟨dep, member, leads⟩
    exact ⟨m, held, rfl, dep, member, leads⟩
  · rintro ⟨n, heldToo, same, dep, member, leads⟩
    obtain rfl := heldToo.unique held same
    exact ⟨dep, member, leads⟩

/-- The includes of a followed module all lead somewhere. -/
theorem exists_leads (links : m.FollowedAs lib includeRoot followed) {dep : Dependency}
    (inModule : dep ∈ m.dependencies) : ∃ id, lib.Leads includeRoot m.id dep id := by
  obtain ⟨deps, linked, -⟩ := links
  exact leads_of_mem linked inModule

theorem isRead (links : m.FollowedAs lib includeRoot followed) (held : lib.Holds m) :
    followed.IsRead := by
  obtain ⟨deps, -, rfl⟩ := links
  obtain ⟨text, -, read⟩ := held
  obtain ⟨-, same⟩ := Module.ofSource_eq_ok_iff.mp read
  exact ⟨text, congrArg (·.lines) same, congrArg (·.hoisted) same⟩

end Module.FollowedAs

section FirstMention

variable {α : Type} [BEq α] [LawfulBEq α]

theorem eraseDups_concat_of_mem {xs : List α} {x : α} (known : x ∈ xs) :
    (xs ++ [x]).eraseDups = xs.eraseDups := by
  rw [List.eraseDups_append, List.cons_removeAll]
  simp [known]

theorem eraseDups_concat_of_not_mem {xs : List α} {x : α} (fresh : x ∉ xs) :
    (xs ++ [x]).eraseDups = xs.eraseDups ++ [x] := by
  rw [List.eraseDups_append, List.cons_removeAll]
  simp [fresh, List.eraseDups_cons]

theorem eraseDups_nodup (xs : List α) : xs.eraseDups.Nodup := by
  induction xs using List.reverseRecOn with
  | nil => simp
  | append_singleton xs x ih =>
    by_cases known : x ∈ xs
    · rwa [eraseDups_concat_of_mem known]
    · rw [eraseDups_concat_of_not_mem known, ← List.concat_eq_append]
      exact List.Nodup.concat (by rwa [List.mem_eraseDups]) ih

end FirstMention

end ShaderBundle
