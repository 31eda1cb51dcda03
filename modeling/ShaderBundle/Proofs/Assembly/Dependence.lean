import ShaderBundle.Assembler
import ShaderBundle.Proofs.Assembly.Result
import ShaderBundle.Proofs.Discovery.Agreement
import ShaderBundle.Proofs.FileTree.Writes
import ShaderBundle.Proofs.Library.Sources

/-! An assembly depends on no module but those that it asks for. -/
namespace ShaderBundle

variable {lib other : Library} {includeRoot root : String}

theorem requests_assemble (lib : Library) (root includeRoot : String) :
    (assemble lib root includeRoot).requests =
      Discovery.asked (Discovery.run lib includeRoot root) := by
  unfold assemble
  cases Discovery.run lib includeRoot root with
  | error stop => rfl
  | ok d =>
    dsimp only
    split <;> rfl

/-- All that an assembly does with its library is the discovery. -/
theorem assemble_of_run_eq
    (same : Discovery.run other includeRoot root = Discovery.run lib includeRoot root) :
    assemble other root includeRoot = assemble lib root includeRoot := by
  unfold assemble
  rw [same]

theorem assemble_congr (roomy : lib.Roomy) (roomy' : other.Roomy)
    (agrees : lib.Agrees other (assemble lib root includeRoot).requests) :
    assemble other root includeRoot = assemble lib root includeRoot := by
  rw [requests_assemble] at agrees
  exact assemble_of_run_eq
    (Discovery.run_congr agrees (Discovery.not_spent_of_roomy roomy) (Discovery.not_spent_of_roomy roomy'))

/-- An assembly that does not ask for the file that is written is the same afterwards. -/
theorem assemble_write {source : ModuleSource} {tree written : FileTree} {path : String}
    {content : List UInt8} {s : Shader}
    (ok : (assemble (source.library tree) root includeRoot).result = .ok s)
    (saved : tree.write path content = .ok written)
    (apart : ∀ id ∈ (assemble (source.library tree) root includeRoot).requests,
      tree.arrival id ≠ tree.arrival path) :
    assemble (source.library written) root includeRoot = assemble (source.library tree) root includeRoot := by
  cases source with
  | memory store => rfl
  | files encoding =>
    have evolves := FileTree.evolves_write saved
    obtain ⟨d, sorted, found, -, -⟩ := assemble_ok ok
    obtain ⟨valid, -⟩ := Discovery.run_ok found
    rw [requests_assemble, found] at apart
    refine assemble_of_run_eq (Discovery.run_congr_of_le ⟨rfl, fun id asked => ?_⟩ ?_ ?_)
    · rw [found] at asked
      have inside : id ∈ d.ids := valid.requests ▸ asked
      obtain ⟨text, fetched⟩ := valid.fetched inside
      exact (FileTree.fetch_write_other saved fetched (apart id asked)).trans fetched.symm
    · change tree.capacity ≤ written.capacity
      rw [FileTree.capacity, FileTree.capacity, evolves.pathLimit]
    · rintro ⟨stop, failed, -⟩
      rw [found] at failed
      simp at failed

/-- Two stores that hand out the same for each id that an assembly from the one asks for give the same
assembly: the same requests in the same order, the same shader or error, the same progress. So it is
neither here nor there what a store holds besides, or in which order it holds it. -/
theorem assemble_depends_on_requests (store : MemoryStore) (root includeRoot : String) :
    let run := assemble store.library root includeRoot
    (∀ other : MemoryStore, (∀ id ∈ run.requests, other.fetch id = store.fetch id) →
      assemble other.library root includeRoot = run) ∧
    (∀ added : List (String × String), (∀ entry ∈ added, entry.1 ∉ run.requests) →
      assemble (added.foldl (fun store entry => store.add entry.1 entry.2) store).library
        root includeRoot = run) ∧
    (∀ kept : String → Bool, (∀ id ∈ run.requests, kept id = true) →
      assemble { store with sources := store.sources.filter fun entry => kept entry.1 }.library
        root includeRoot = run) ∧
    (∀ sources : List (String × String), sources.Perm store.sources →
      (store.sources.map Prod.fst).Nodup →
      assemble { store with sources }.library root includeRoot = run) := by
  intro run
  have agreeing (other : MemoryStore)
      (same : ∀ id ∈ run.requests, other.fetch id = store.fetch id) :
      assemble other.library root includeRoot = run :=
    assemble_congr store.roomy other.roomy ⟨rfl, same⟩
  refine ⟨agreeing, fun added apart => ?_, fun kept keep => ?_, fun sources perm distinct => ?_⟩
  · refine agreeing _ fun id asked => MemoryStore.fetch_addAll ?_
    rintro entry member rfl
    exact apart entry member asked
  · exact agreeing _ fun id asked => MemoryStore.fetch_congr (MemoryStore.lookup_filter (keep id asked))
  · exact agreeing _ fun id _ => MemoryStore.fetch_congr (MemoryStore.lookup_perm distinct perm)

/-- A store that holds a broken module besides, and its two good ones in the other order. -/
theorem assemble_depends_on_requests_of_pair :
    let run := assemble MemoryStore.pair.library "m" ""
    run.requests = ["m", "a"] ∧
    assemble (MemoryStore.library ⟨[("b", "#include \"\""), ("a", "y"),
      ("m", "#version 330\n#include \"a\"\nx")], [("c", "RuntimeError", "gone")]⟩) "m" "" = run ∧
    assemble (MemoryStore.pair.add "b" "z").library "m" "" = run ∧
    assemble (MemoryStore.library ⟨MemoryStore.pair.sources.reverse, []⟩) "m" "" = run := by
  intro run
  have requests : run.requests = ["m", "a"] := by
    rw [requests_assemble]
    decide +kernel
  obtain ⟨agreeing, adding, -, reordering⟩ := assemble_depends_on_requests MemoryStore.pair "m" ""
  rw [show (assemble MemoryStore.pair.library "m" "").requests = _ from requests] at agreeing adding
  exact ⟨requests, agreeing _ (by decide +kernel), adding [("b", "z")] (by decide),
    reordering _ (List.reverse_perm _) (by decide)⟩

end ShaderBundle
