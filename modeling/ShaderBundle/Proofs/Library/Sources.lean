import ShaderBundle.Library.Memory
import Mathlib.Data.List.Nodup

/-! What a store hands out for an id depends on the entry of that id alone. -/
namespace ShaderBundle.MemoryStore

variable {id other : String} {sources : List (String × String)}

theorem lookup_of_mem (distinct : (sources.map Prod.fst).Nodup) {text : String}
    (member : (id, text) ∈ sources) : sources.lookup id = some text := by
  induction sources with
  | nil => simp at member
  | cons entry rest ih =>
    obtain ⟨first, distinct⟩ := List.nodup_cons.mp distinct
    rcases List.mem_cons.mp member with rfl | inRest
    · exact List.lookup_cons_self
    · have different : (id == entry.1) = false := by
        rw [beq_eq_false_iff_ne]
        rintro rfl
        exact first (List.mem_map.mpr ⟨_, inRest, rfl⟩)
      rw [List.lookup_cons, different]
      exact ih distinct inRest

theorem mem_of_lookup {text : String} (found : sources.lookup id = some text) :
    (id, text) ∈ sources := by
  obtain ⟨before, after, rfl, -⟩ := List.lookup_eq_some_iff.mp found
  exact List.mem_append_right _ List.mem_cons_self

/-- In a store without repeated ids the order of the sources does not matter. -/
theorem lookup_perm {reordered : List (String × String)} (distinct : (sources.map Prod.fst).Nodup)
    (perm : reordered.Perm sources) : reordered.lookup id = sources.lookup id := by
  have distinct' : (reordered.map Prod.fst).Nodup := (perm.map Prod.fst).nodup_iff.mpr distinct
  refine Option.ext fun text => ⟨fun found => ?_, fun found => ?_⟩
  · exact lookup_of_mem distinct (perm.mem_iff.mp (mem_of_lookup found))
  · exact lookup_of_mem distinct' (perm.mem_iff.mpr (mem_of_lookup found))

theorem lookup_filter {kept : String → Bool} (keep : kept id = true) :
    (sources.filter fun entry => kept entry.1).lookup id = sources.lookup id := by
  induction sources with
  | nil => rfl
  | cons entry rest ih =>
    obtain ⟨key, text⟩ := entry
    by_cases same : id = key
    · subst same
      rw [List.filter_cons_of_pos (by simpa using keep), List.lookup_cons_self, List.lookup_cons_self]
    · have different : (id == key) = false := beq_eq_false_iff_ne.mpr same
      rw [List.filter_cons]
      split
      · rw [List.lookup_cons, List.lookup_cons, different]
        exact ih
      · rw [List.lookup_cons, different]
        exact ih

theorem lookup_replace {source : String} (different : id ≠ other) :
    (replace other source sources).lookup id = sources.lookup id := by
  have apart : (id == other) = false := beq_eq_false_iff_ne.mpr different
  induction sources with
  | nil => simp [replace, List.lookup_cons, apart]
  | cons entry rest ih =>
    unfold replace
    split
    · rename_i same
      rw [List.lookup_cons, List.lookup_cons, same, apart]
    · rw [List.lookup_cons, List.lookup_cons, ih]

theorem fetch_congr {store : MemoryStore} {sources : List (String × String)}
    (same : sources.lookup id = store.sources.lookup id) :
    fetch { store with sources } id = store.fetch id := by
  unfold fetch
  dsimp only
  rw [same]

/-- Putting other modules into a store leaves a module as it was. -/
theorem fetch_addAll {store : MemoryStore} {added : List (String × String)}
    (different : ∀ entry ∈ added, entry.1 ≠ id) :
    (added.foldl (fun store entry => store.add entry.1 entry.2) store).fetch id = store.fetch id := by
  induction added generalizing store with
  | nil => rfl
  | cons entry rest ih =>
    have first : entry.1 ≠ id := different entry List.mem_cons_self
    rw [List.foldl_cons, ih fun later member => different later (List.mem_cons_of_mem _ member)]
    exact fetch_congr (lookup_replace first.symm)

end ShaderBundle.MemoryStore
