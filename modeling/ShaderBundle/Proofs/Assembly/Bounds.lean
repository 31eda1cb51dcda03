import ShaderBundle.Proofs.Assembly.Cycle
import ShaderBundle.Proofs.Assembly.Dependence
import ShaderBundle.Proofs.DependencyOrder.Pushes
import ShaderBundle.Proofs.Discovery.Requests

/-! How much work an assembly from memory is: a request for each source at most and one that fails, then
one visit to each module found. -/
namespace ShaderBundle

open DependencyOrder

variable {lib : Library} {includeRoot root : String}

/-- An assembly reports that it was cut off only when its discovery was. -/
theorem spent_of_assemble {capacity : Nat}
    (full : (assemble lib root includeRoot).result = .error (.tooManyModules capacity)) :
    Discovery.Spent (Discovery.run lib includeRoot root) := by
  rcases assemble_error full with ⟨stop, stopped, same⟩ | ⟨_, fault, -, -, same⟩
  · exact ⟨stop, stopped, capacity, same⟩
  · cases fault <;> simp [Assembly.orderError] at same

/-- An assembly from memory comes to its end, with more capacity than the number of sources as well as
without. It asks for no id twice and at most for one id more than there are sources, and the sort
of what it has found pushes no module twice on its stack. -/
theorem assemble_bounded (store : MemoryStore) (root includeRoot : String) :
    let run := assemble store.library root includeRoot
    (∀ capacity, run.result ≠ .error (.tooManyModules capacity)) ∧
    (∀ more, store.sources.length ≤ more →
      assemble { store.library with capacity := more } root includeRoot = run) ∧
    run.requests.Nodup ∧ run.requests.length ≤ store.sources.length + 1 ∧
    ∀ d, Discovery.run store.library includeRoot root = .ok d →
      let table := Assembly.tableOf d.modules
      (∃ pushes last rest, Sorts table pushes last rest ∧ Search.Halt table last (sort table)) ∧
      ∀ pushes s rest, Sorts table pushes s rest →
        (pushes.map (·.id)).Nodup ∧ pushes ⊆ d.modules := by
  intro run
  have unspent : ¬ Discovery.Spent (Discovery.run store.library includeRoot root) :=
    Discovery.not_spent_of_roomy store.roomy
  obtain ⟨distinct, ids, got, short⟩ := Discovery.asked_distinct store.library includeRoot root
  rw [← requests_assemble] at distinct short
  refine ⟨fun capacity full => unspent (spent_of_assemble full), fun more le => ?_, distinct, ?_,
    fun d found => ?_⟩
  · exact assemble_of_run_eq (Discovery.run_congr_of_le ⟨rfl, fun _ _ => rfl⟩ le unspent)
  · have fits : ids.length ≤ store.sources.length := store.roomy ids got.distinct got.fetched
    exact Nat.le_trans short (Nat.succ_le_succ fits)
  · obtain ⟨valid, done⟩ := Discovery.run_ok found
    have keyed := (valid.closed_table done).toKeyed
    refine ⟨Sorts.start.halts, fun pushes s rest sorts => ?_⟩
    have inTable := sorts.pushes_distinct keyed
    rwa [Assembly.map_snd_tableOf] at inTable

def MemoryStore.lacking : MemoryStore := ⟨[("m", "#include \"m\"\n#include \"gone\"")], []⟩

/-- The missing module is the one request beyond the sources; a cycle is pushed once, too. -/
theorem assemble_bounded_of_stores :
    let run := assemble MemoryStore.lacking.library "m" ""
    (run.requests = ["m", "gone"] ∧ run.requests.Nodup ∧
      run.requests.length ≤ MemoryStore.lacking.sources.length + 1) ∧
    ∃ d, Discovery.run MemoryStore.tailed.library "" "top" = .ok d ∧
      d.modules = MemoryStore.tailedModules ∧
      ∀ pushes s rest, Sorts (Assembly.tableOf d.modules) pushes s rest →
        (pushes.map (·.id)).Nodup ∧ pushes ⊆ d.modules := by
  intro run
  constructor
  · have requests : run.requests = ["m", "gone"] := by
      rw [requests_assemble]
      decide +kernel
    obtain ⟨-, -, distinct, short, -⟩ := assemble_bounded MemoryStore.lacking "m" ""
    exact ⟨requests, distinct, short⟩
  · have found : (Discovery.run MemoryStore.tailed.library "" "top").toOption.map
        Discovery.modules = some MemoryStore.tailedModules := by decide +kernel
    cases outcome : Discovery.run MemoryStore.tailed.library "" "top" with
    | error stop => simp [outcome, Except.toOption] at found
    | ok d =>
      obtain ⟨-, -, -, -, ofFound⟩ := assemble_bounded MemoryStore.tailed "top" ""
      exact ⟨d, rfl, by simpa [outcome, Except.toOption] using found, (ofFound d outcome).2⟩

end ShaderBundle
