import ShaderBundle.Library.Memory
import Mathlib.Data.List.Nodup
import Mathlib.Data.List.Perm.Subperm

/-! Whether a library's capacity is enough for every bundle. A bundle holds each id once, and all of its
ids have been fetched. -/
namespace ShaderBundle

/-- No more ids than the capacity counts can be fetched. -/
def Library.Roomy (lib : Library) : Prop :=
  ∀ ids : List String, ids.Nodup → (∀ id ∈ ids, ∃ text, lib.fetch id = .ok text) →
    ids.length ≤ lib.capacity

namespace MemoryStore

theorem mem_keys_of_fetch {store : MemoryStore} {id text : String} (fetched : store.fetch id = .ok text) :
    id ∈ store.sources.map Prod.fst := by
  unfold fetch at fetched
  split at fetched
  · simp at fetched
  split at fetched
  · rename_i source found
    obtain ⟨before, after, split, -⟩ := List.lookup_eq_some_iff.mp found
    simp [split]
  · simp at fetched

/-- Only the sources of a store can be fetched from it. -/
theorem roomy (store : MemoryStore) : store.library.Roomy := by
  intro ids distinct fetched
  have subset : ids ⊆ store.sources.map Prod.fst := by
    intro id member
    obtain ⟨text, found⟩ := fetched id member
    exact mem_keys_of_fetch found
  have fits := (distinct.subperm subset).length_le
  rwa [List.length_map] at fits

end MemoryStore

end ShaderBundle
