import ShaderBundle.Proofs.Assembly.Cycle
import ShaderBundle.Proofs.FileTree.Ids
import Mathlib.Data.Fintype.Card
import Mathlib.Data.Set.Finite.Basic
import Mathlib.Order.WellFounded

/-! Includes between the files of a tree, followed from another spelling of the same file. Both spellings
lead on to the same files, so that a file which leads back to itself does so again and again. -/
namespace ShaderBundle.FileTree

open ShaderBundle.Path Relation

variable {t : FileTree} {encoding : Option String} {capacity : Nat} {includeRoot root : String}
  {d : Discovery} {id left right next : String}

/-- Where every step leads on among finitely many, some path comes back to its start. -/
theorem exists_cycle {α : Type} {r : α → α → Prop} {P : α → Prop} (finite : {x | P x}.Finite)
    (onward : ∀ x, P x → ∃ y, TransGen r x y ∧ P y) {x : α} (start : P x) :
    ∃ y, P y ∧ TransGen r y y := by
  by_contra acyclic
  have : Finite {x // P x} := finite
  let after (y x : {x // P x}) : Prop := TransGen r x.1 y.1
  have : IsTrans _ after := ⟨fun _ _ _ later path => path.trans later⟩
  have : Std.Irrefl after := ⟨fun y path => acyclic ⟨y.1, y.2, path⟩⟩
  obtain ⟨last, -, stuck⟩ :=
    (Finite.wellFounded_of_trans_of_irrefl after).has_min Set.univ ⟨⟨x, start⟩, trivial⟩
  obtain ⟨y, path, holds⟩ := onward last.1 last.2
  exact stuck ⟨y, holds⟩ trivial path

structure Names (id : String) : Prop where
  moves : IsStep (lastSegment id.toList)
  down : lastSegment id.toList ≠ climb

structure Ended (t : FileTree) (encoding : Option String) (capacity : Nat) (includeRoot root : String)
    (d : Discovery) : Prop where
  valid : Discovery.Invariant (t.libraryWithin encoding capacity) includeRoot root d
  done : d.waiting = []
  stands : t.Standing t.workingDirectory
  moves : IsStep (lastSegment root.toList)

namespace Ended

theorem mem_of_path (ended : Ended t encoding capacity includeRoot root d) (found : id ∈ d.ids)
    (path : ReflTransGen ((t.libraryWithin encoding capacity).Includes includeRoot) id next) :
    next ∈ d.ids := by
  induction path with
  | refl => exact found
  | tail _ edge ih => exact ended.valid.closed ended.done ih edge

theorem names (ended : Ended t encoding capacity includeRoot root d) (found : id ∈ d.ids) :
    Names id := by
  obtain ⟨text, fetched⟩ := ended.valid.fetched found
  have around : t.Standing (t.origin id) := standing_origin fun _ => ended.stands
  have moves : IsStep (lastSegment id.toList) := by
    rcases moored_of_reached (ended.valid.reached id found) with rfl | ⟨plain, -⟩
    · exact ended.moves
    · exact isStep_lastSegment around fetched plain
  exact ⟨moves, lastSegment_ne_climb around fetched moves⟩

/-- An include leads to one file from all spellings of its includer. -/
theorem arrival_of_leads (ended : Ended t encoding capacity includeRoot root d)
    (found : left ∈ d.ids) (found' : right ∈ d.ids) (meet : t.arrival left = t.arrival right)
    {dep : Dependency} {further : String}
    (leads : (t.libraryWithin encoding capacity).Leads includeRoot left dep next)
    (leads' : (t.libraryWithin encoding capacity).Leads includeRoot right dep further) :
    t.arrival next = t.arrival further := by
  obtain ⟨base, here, joined⟩ := joined_of_leads leads
  obtain ⟨base', here', joined'⟩ := joined_of_leads leads'
  have bases : t.arrival base = t.arrival base' := by
    rcases here with ⟨kind, rfl⟩ | ⟨kind, rfl⟩ <;> rcases here' with ⟨kind', rfl⟩ | ⟨kind', rfl⟩
    · rfl
    · simp [kind] at kind'
    · simp [kind] at kind'
    · have names := ended.names found
      have names' := ended.names found'
      rw [← dropLast_arrival names.moves names.down, ← dropLast_arrival names'.moves names'.down, meet]
  rw [arrival_of_joined joined, arrival_of_joined joined', bases]

theorem fetch_eq (ended : Ended t encoding capacity includeRoot root d)
    (found : left ∈ d.ids) (found' : right ∈ d.ids) (meet : t.arrival left = t.arrival right) :
    t.fetch encoding left = t.fetch encoding right := by
  obtain ⟨text, fetched⟩ := ended.valid.fetched found
  obtain ⟨text', fetched'⟩ := ended.valid.fetched found'
  obtain ⟨place, _, located, -⟩ := fetch_ok fetched
  obtain ⟨place', _, located', -⟩ := fetch_ok fetched'
  obtain rfl := locate_eq_of_arrival located located' meet
  rw [fetch_of_locate fetched' (located.trans located'.symm)]
  exact fetched'.symm

theorem replay_step (ended : Ended t encoding capacity includeRoot root d)
    (found : left ∈ d.ids) (found' : right ∈ d.ids) (meet : t.arrival left = t.arrival right)
    (edge : (t.libraryWithin encoding capacity).Includes includeRoot left next) :
    ∃ further, (t.libraryWithin encoding capacity).Includes includeRoot right further ∧
      t.arrival next = t.arrival further := by
  obtain ⟨m, ⟨text, fetched, read⟩, rfl, dep, inModule, leads⟩ := edge
  obtain ⟨n, read', same⟩ := Module.exists_ofSource read right
  obtain rfl := Module.ofSource_id read'
  have held : (t.libraryWithin encoding capacity).Holds n :=
    ⟨text, (ended.fetch_eq found found' meet).symm.trans fetched, read'⟩
  rw [← same] at inModule
  obtain ⟨further, leads'⟩ := ended.valid.exists_leads ended.done held found' inModule
  exact ⟨further, ⟨n, held, rfl, dep, inModule, leads'⟩,
    ended.arrival_of_leads found found' meet leads leads'⟩

/-- What a file leads to from one of its spellings it leads to from all. -/
theorem replay (ended : Ended t encoding capacity includeRoot root d)
    (found : left ∈ d.ids) (found' : right ∈ d.ids) (meet : t.arrival left = t.arrival right)
    (path : TransGen ((t.libraryWithin encoding capacity).Includes includeRoot) left next) :
    ∃ further, TransGen ((t.libraryWithin encoding capacity).Includes includeRoot) right further ∧
      t.arrival next = t.arrival further := by
  induction path with
  | single edge =>
    obtain ⟨further, edge', meet'⟩ := ended.replay_step found found' meet edge
    exact ⟨further, .single edge', meet'⟩
  | @tail middle next path edge ih =>
    obtain ⟨middle', path', meet'⟩ := ih
    have inside := ended.mem_of_path found path.to_reflTransGen
    have inside' := ended.mem_of_path found' path'.to_reflTransGen
    obtain ⟨further, edge', last⟩ := ended.replay_step inside inside' meet' edge
    exact ⟨further, path'.tail edge', last⟩

/-- A file that leads back to itself under any spelling is on a cycle of ids. -/
theorem cyclic (ended : Ended t encoding capacity includeRoot root d) (found : left ∈ d.ids)
    (path : TransGen ((t.libraryWithin encoding capacity).Includes includeRoot) left right)
    (same : t.locate left = t.locate right) :
    (t.libraryWithin encoding capacity).Cyclic includeRoot root := by
  let returns (id : String) := id ∈ d.ids ∧ ∃ next,
    TransGen ((t.libraryWithin encoding capacity).Includes includeRoot) id next ∧
      t.arrival id = t.arrival next
  have finite : {id | returns id}.Finite := d.ids.finite_toSet.subset fun id there => there.1
  have onward : ∀ id, returns id → ∃ next,
      TransGen ((t.libraryWithin encoding capacity).Includes includeRoot) id next ∧ returns next := by
    rintro id ⟨inside, next, path, meet⟩
    have inside' := ended.mem_of_path inside path.to_reflTransGen
    obtain ⟨further, path', meet'⟩ := ended.replay inside inside' meet path
    exact ⟨next, path, inside', further, path', meet.symm.trans (meet.trans meet')⟩
  obtain ⟨text, fetched⟩ := ended.valid.fetched found
  have meet : t.arrival left = t.arrival right := arrival_eq_of_locate fetched same
  obtain ⟨id, ⟨inside, -⟩, cycle⟩ := exists_cycle finite onward ⟨found, right, path, meet⟩
  exact ⟨id, ended.valid.reached id inside, cycle⟩

end Ended

end ShaderBundle.FileTree
