import ShaderBundle.Proofs.Discovery.Closure
import ShaderBundle.Proofs.FileTree.Location

/-! The ids of the modules in a tree. But for the root's they are plain; an absolute one is anchored
where the include root or the root's directory is, a relative one has all its climbs in front. -/
namespace ShaderBundle.FileTree

open ShaderBundle.Path Relation

variable {t : FileTree} {encoding : Option String} {capacity : Nat} {includeRoot root owner id : String}

theorem join_libraryWithin (t : FileTree) (encoding : Option String) (capacity : Nat) :
    (t.libraryWithin encoding capacity).join = joinOnDisk := rfl

/-- Where an include leads is joined from the include root or from the directory of its module. -/
theorem joined_of_leads {dep : Dependency}
    (leads : (t.libraryWithin encoding capacity).Leads includeRoot owner dep id) :
    ∃ base : String, (dep.kind = .absolute ∧ base = includeRoot ∨
      dep.kind = .relative ∧ base = directory owner) ∧
      Joined base.toList dep.target.toList id.toList := by
  rcases leads with ⟨kind, joined⟩ | ⟨kind, joined⟩
  · rw [join_libraryWithin] at joined
    exact ⟨includeRoot, .inl ⟨kind, rfl⟩, joined_of_joinOnDisk joined⟩
  · rw [join_libraryWithin] at joined
    exact ⟨directory owner, .inr ⟨kind, rfl⟩, joined_of_joinOnDisk joined⟩

theorem joined_of_includes (edge : (t.libraryWithin encoding capacity).Includes includeRoot owner id) :
    ∃ base name : String, (base = includeRoot ∨ base = directory owner) ∧
      Joined base.toList name.toList id.toList := by
  obtain ⟨_, -, -, dep, -, leads⟩ := edge
  obtain ⟨base, ⟨-, here⟩ | ⟨-, here⟩, joined⟩ := joined_of_leads leads
  · exact ⟨base, dep.target, .inl here, joined⟩
  · exact ⟨base, dep.target, .inr here, joined⟩

theorem fetched_of_includes
    (edge : (t.libraryWithin encoding capacity).Includes includeRoot owner id) :
    ∃ text, t.fetch encoding owner = .ok text := by
  obtain ⟨_, ⟨text, fetched, -⟩, rfl, -⟩ := edge
  exact ⟨text, fetched⟩

inductive Moored (includeRoot root id : String) : Prop
  | included (same : anchor id.toList = anchor includeRoot.toList)
  | beside (same : anchor id.toList = anchor (directory root).toList)
  | climbing (count : Nat) (same : anchor id.toList = (false, List.replicate count climb))

theorem Moored.congr {other : String} (moored : Moored includeRoot root id)
    (same : anchor other.toList = anchor id.toList) : Moored includeRoot root other := by
  cases moored with
  | included there => exact .included (same.trans there)
  | beside there => exact .beside (same.trans there)
  | climbing count there => exact .climbing count (same.trans there)

/-- An absolute file passes its anchor on to what it includes from its directory. -/
theorem anchor_directory_of_fetched {text : String} (absolute : isAbsolute owner.toList = true)
    (plain : Plain owner.toList) (fetched : t.fetch encoding owner = .ok text) :
    anchor (directory owner).toList = anchor owner.toList := by
  have around : t.Standing (t.origin owner) :=
    standing_origin fun relative => by simp [absolute] at relative
  have ends := isStep_lastSegment around fetched plain
  rw [directory, String.toList_ofList, anchor_directory ends (lastSegment_ne_climb around fetched ends)]

theorem moored_of_reached
    (path : ReflTransGen ((t.libraryWithin encoding capacity).Includes includeRoot) root id) :
    id = root ∨ Plain id.toList ∧ Moored includeRoot root id := by
  induction path with
  | refl => exact .inl rfl
  | @tail owner id _ edge ih =>
    obtain ⟨base, name, from_, joined⟩ := joined_of_includes edge
    refine .inr ⟨joined.plain, ?_⟩
    cases kind : isAbsolute base.toList with
    | false =>
      obtain ⟨count, same⟩ := joined.climbing kind
      exact .climbing count same
    | true =>
      have passed := joined.anchored kind
      rcases from_ with rfl | rfl
      · exact .included passed
      · rcases ih with rfl | ⟨plain, moored⟩
        · exact .beside passed
        · obtain ⟨text, fetched⟩ := fetched_of_includes edge
          rw [isAbsolute_directory] at kind
          rw [anchor_directory_of_fetched kind plain fetched] at passed
          exact moored.congr passed

/-- From a root and an include root of one kind come ids of that kind. -/
theorem isAbsolute_of_reached (kind : isAbsolute includeRoot.toList = isAbsolute root.toList)
    (path : ReflTransGen ((t.libraryWithin encoding capacity).Includes includeRoot) root id) :
    isAbsolute id.toList = isAbsolute root.toList := by
  induction path with
  | refl => rfl
  | tail _ edge ih =>
    obtain ⟨base, name, rfl | rfl, joined⟩ := joined_of_includes edge
    · exact joined.kind.trans kind
    · rw [joined.kind, isAbsolute_directory, ih]

/-- From an absolute root and an absolute include root without climbs come ids without climbs. -/
theorem climb_not_mem_of_reached (absolute : isAbsolute root.toList = true)
    (absolute' : isAbsolute includeRoot.toList = true) (low : climb ∉ steps root.toList)
    (low' : climb ∉ steps includeRoot.toList)
    (path : ReflTransGen ((t.libraryWithin encoding capacity).Includes includeRoot) root id) :
    climb ∉ steps id.toList := by
  rcases moored_of_reached path with rfl | ⟨-, there | there | ⟨count, there⟩⟩
  · exact low
  · rw [← stem_eq_nil_iff, (anchor_eq_iff.mp there).2, stem_eq_nil_iff]
    exact low'
  · rw [← stem_eq_nil_iff, (anchor_eq_iff.mp there).2, stem_eq_nil_iff, directory, String.toList_ofList]
    rw [steps_eq_directory, List.mem_append, not_or] at low
    exact low.1
  · rw [anchor, isAbsolute_of_reached (absolute'.trans absolute.symm) path, absolute] at there
    simp at there

end ShaderBundle.FileTree
