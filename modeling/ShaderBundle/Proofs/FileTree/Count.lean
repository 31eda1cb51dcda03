import ShaderBundle.Proofs.Discovery.Requests
import ShaderBundle.Proofs.FileTree.Ids
import Mathlib.Data.List.ProdSigma

/-! How many ids the files of a tree can have in one run, if no relative one climbs too often: an id is
told by its anchor and by the place that it leads to. -/
namespace ShaderBundle.FileTree

open ShaderBundle.Path

variable {t : FileTree} {encoding : Option String} {capacity most : Nat} {includeRoot root id : String}

def anchors (includeRoot root : String) (most : Nat) : List (Bool × List Segment) :=
  anchor includeRoot.toList :: anchor (directory root).toList ::
    (List.range (most + 1)).map fun count => (false, List.replicate count climb)

theorem length_anchors (includeRoot root : String) (most : Nat) :
    (anchors includeRoot root most).length = most + 3 := by
  simp [anchors]

theorem Moored.mem_anchors (moored : Moored includeRoot root id)
    (low : isAbsolute id.toList = false → climbs id.toList ≤ most) :
    anchor id.toList ∈ anchors includeRoot root most := by
  unfold anchors
  cases moored with
  | included there => simp [there]
  | beside there => simp [there]
  | climbing count there =>
    have relative : isAbsolute id.toList = false := congrArg Prod.fst there
    have front : stem (steps id.toList) = List.replicate count climb := congrArg Prod.snd there
    have few := low relative
    rw [climbs_eq front] at few
    rw [there]
    refine List.mem_cons_of_mem _ (List.mem_cons_of_mem _ (List.mem_map.mpr ⟨count, ?_, rfl⟩))
    exact List.mem_range.mpr (Nat.lt_succ_of_le few)

def places (t : FileTree) : List (List Segment) := t.nodes.map fun node => node.1.map String.toList

theorem mem_places {text : String} (fetched : t.fetch encoding id = .ok text) :
    t.arrival id ∈ t.places := by
  obtain ⟨place, content, located, node⟩ := fetch_ok fetched
  obtain ⟨entry, listed, rfl⟩ := List.mem_map.mp (mem_nodes_of_file node)
  exact List.mem_map.mpr ⟨entry, listed, arrival_of_locate located⟩

theorem length_le_of_got {ids : List String}
    (got : Discovery.Got (t.libraryWithin encoding capacity) includeRoot root ids)
    (low : ∀ id ∈ ids, isAbsolute id.toList = false → climbs id.toList ≤ most) :
    ids.length ≤ t.nodes.length * (most + 3) + 1 := by
  let others := ids.erase root
  let pair (id : String) := (anchor id.toList, t.arrival id)
  have moored : ∀ id ∈ others, Plain id.toList ∧ Moored includeRoot root id := by
    intro id member
    obtain ⟨different, found⟩ := got.distinct.mem_erase_iff.mp member
    exact (moored_of_reached (got.reached id found)).resolve_left different
  have distinct : (others.map pair).Nodup := by
    refine (got.distinct.erase root).map_on fun left member right member' same => ?_
    obtain ⟨together, meet⟩ := Prod.mk.inj same
    exact eq_of_arrival (moored _ member).1 (moored _ member').1 together meet
  have inside : others.map pair ⊆ anchors includeRoot root most ×ˢ t.places := by
    intro entry member
    obtain ⟨id, listed, rfl⟩ := List.mem_map.mp member
    have found := List.mem_of_mem_erase listed
    obtain ⟨text, fetched⟩ := got.fetched id found
    exact List.mem_product.mpr ⟨(moored id listed).2.mem_anchors (low id found), mem_places fetched⟩
  have fits := (distinct.subperm inside).length_le
  rw [List.length_map, List.length_product, length_anchors, places, List.length_map] at fits
  have one : ids.length ≤ others.length + 1 := by
    rw [List.length_erase]
    split <;> omega
  rw [Nat.mul_comm]
  omega

end ShaderBundle.FileTree
