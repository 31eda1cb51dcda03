import ShaderBundle.Proofs.Assembly.Result
import ShaderBundle.Proofs.Text.LineEnds

/-! The convention in which the texts of a store end their lines. A store hands out every text with line
feeds alone, so that nothing behind it can tell the conventions apart. -/
namespace ShaderBundle

open Text

namespace MemoryStore

structure Respells (other store : MemoryStore) : Prop where
  sources : List.Forall₂ (fun entry entry' => ∃ e : LineEnd, entry' = (entry.1, e.write entry.2))
    store.sources other.sources
  refusals : other.refusals = store.refusals

variable {store other : MemoryStore}

theorem map_lookup_of_respelled {sources sources' : List (String × String)}
    (free : ∀ entry ∈ sources, '\r' ∉ entry.2.toList)
    (respelled : List.Forall₂ (fun entry entry' => ∃ e : LineEnd, entry' = (entry.1, e.write entry.2))
      sources sources') (id : String) :
    (sources'.lookup id).map unifyNewlines = (sources.lookup id).map unifyNewlines := by
  induction respelled with
  | nil => rfl
  | @cons entry entry' rest rest' head _ ih =>
    obtain ⟨e, rfl⟩ := head
    obtain ⟨first, later⟩ := List.forall_mem_cons.mp free
    rw [List.lookup_cons, List.lookup_cons]
    by_cases same : id = entry.1
    · have known : (id == entry.1) = true := beq_iff_eq.mpr same
      rw [known, Option.map_some, Option.map_some, unifyNewlines_write e first,
        unifyNewlines_eq_self first]
    · have other : (id == entry.1) = false := beq_eq_false_iff_ne.mpr same
      rw [other]
      exact ih later

theorem fetch_eq_map (store : MemoryStore) (id : String) :
    store.fetch id = match store.refusals.lookup id with
      | some (kind, message) => .error (.refused kind message)
      | none => match (store.sources.lookup id).map unifyNewlines with
        | some text => .ok text
        | none => .error (.unknownModule id) := by
  unfold fetch
  cases store.refusals.lookup id with
  | some refusal => rfl
  | none => cases store.sources.lookup id <;> rfl

/-- Stores that differ in their line ends are one library. -/
theorem Respells.library_eq (respelled : other.Respells store)
    (free : ∀ entry ∈ store.sources, '\r' ∉ entry.2.toList) : other.library = store.library := by
  have fetch : other.fetch = store.fetch := by
    funext id
    rw [fetch_eq_map, fetch_eq_map, respelled.refusals,
      map_lookup_of_respelled free respelled.sources id]
  unfold library
  rw [fetch, respelled.sources.length_eq]

end MemoryStore

/-- An assembly is the same, the shader or the error with all that it asks for and reports, whichever
convention each text of the store follows. Unifying line ends leaves no carriage return, has nothing more to
do afterwards, and takes one pass from left to right. -/
theorem assemble_of_line_ends :
    (∀ store other : MemoryStore, (∀ entry ∈ store.sources, '\r' ∉ entry.2.toList) →
      other.Respells store → ∀ root includeRoot,
        assemble other.library root includeRoot = assemble store.library root includeRoot) ∧
    ∀ text, '\r' ∉ (unifyNewlines text).toList ∧
      unifyNewlines (unifyNewlines text) = unifyNewlines text ∧
      (unifyNewlines text).toList = onePass text.toList := by
  refine ⟨fun store other free respelled root includeRoot => ?_, fun text => ?_⟩
  · rw [respelled.library_eq free]
  · have free := return_not_mem_unifyNewlines text
    exact ⟨free, unifyNewlines_eq_self free, toList_unifyNewlines text⟩

/-- One module in pairs and the other one in carriage returns, and a text that mixes all conventions. -/
theorem assemble_of_line_ends_of_pair :
    let other : MemoryStore :=
      ⟨[("m", "#version 330\r\n#include \"a\"\r\nx"), ("a", "y\r")], []⟩
    let store : MemoryStore := ⟨[("m", "#version 330\n#include \"a\"\nx"), ("a", "y\n")], []⟩
    (∀ entry ∈ store.sources, '\r' ∉ entry.2.toList) ∧ other.Respells store ∧
      assemble other.library "m" "" = assemble store.library "m" "" ∧
      unifyNewlines "\r\r\n\n\r" = "\n\n\n\n" ∧
      (unifyNewlines "\r\r\n\n\r").toList = onePass "\r\r\n\n\r".toList := by
  intro other store
  have free : ∀ entry ∈ store.sources, '\r' ∉ entry.2.toList := by decide
  have respelled : other.Respells store :=
    ⟨.cons ⟨.pair, by decide⟩ (.cons ⟨.carriage, by decide⟩ .nil), rfl⟩
  exact ⟨free, respelled, assemble_of_line_ends.1 store other free respelled "m" "", by decide,
    (assemble_of_line_ends.2 _).2.2⟩

end ShaderBundle
