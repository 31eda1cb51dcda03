import ShaderBundle.Proofs.FileTree.Location
import ShaderBundle.Proofs.FileTree.WorkingDirectory

/-! What changes of a tree leave as it was. No folder is ever taken away, so that a place once located stays
where it is, and a file is touched only by a change whose path leads to it. -/
namespace ShaderBundle.FileTree

open ShaderBundle.Path

variable {t u v grown : FileTree} {place other : Place} {path id : String} {content : List UInt8}

theorem lookup_cons_eq (name other : Place) (node : Node) (nodes : List (Place × Node)) :
    ((name, node) :: nodes).lookup other = if other = name then some node else nodes.lookup other := by
  rw [List.lookup_cons]
  by_cases same : other = name
  · rw [if_pos same, same, beq_self_eq_true]
  · rw [if_neg same, beq_eq_false_iff_ne.mpr same]

theorem lookup_replace (place other : Place) (node : Node) (nodes : List (Place × Node)) :
    (replace place node nodes).lookup other =
      if other = place then some node else nodes.lookup other := by
  induction nodes with
  | nil => rw [replace, lookup_cons_eq]
  | cons entry rest ih =>
    obtain ⟨name, held⟩ := entry
    rw [replace, lookup_cons_eq]
    dsimp only
    by_cases here : name = place
    · rw [if_pos here, lookup_cons_eq, here]
      split_ifs <;> rfl
    · rw [if_neg here, lookup_cons_eq, ih]
      by_cases same : other = name
      · rw [if_pos same, if_neg (same ▸ here), if_pos same]
      · rw [if_neg same, if_neg same]

/-- The root stays a folder whatever is put there. -/
theorem node?_put (node : Node) : (t.put place node).node? other =
    if other = place ∧ place ≠ [] then some node else t.node? other := by
  unfold node? put
  by_cases root : other = []
  · by_cases same : other = place
    · simp [root, same.symm.trans root]
    · simp [root]
  · by_cases same : other = place
    · subst same
      simp [root, lookup_replace]
    · simp [root, same, lookup_replace]

/-! ### Trees that grew out of others -/

structure Evolves (t u : FileTree) : Prop where
  workingDirectory : u.workingDirectory = t.workingDirectory
  nameLimit : u.nameLimit = t.nameLimit
  pathLimit : u.pathLimit = t.pathLimit
  folders : ∀ place, t.node? place = some .folder → u.node? place = some .folder

namespace Evolves

theorem refl (t : FileTree) : t.Evolves t := ⟨rfl, rfl, rfl, fun _ => id⟩

theorem trans (first : t.Evolves u) (second : u.Evolves v) : t.Evolves v where
  workingDirectory := second.workingDirectory.trans first.workingDirectory
  nameLimit := second.nameLimit.trans first.nameLimit
  pathLimit := second.pathLimit.trans first.pathLimit
  folders place folder := second.folders place (first.folders place folder)

theorem origin (evolves : t.Evolves u) (path : String) : u.origin path = t.origin path := by
  rw [FileTree.origin, FileTree.origin, evolves.workingDirectory]

theorem arrival (evolves : t.Evolves u) (path : String) : u.arrival path = t.arrival path := by
  rw [FileTree.arrival, FileTree.arrival, evolves.origin]

/-- A walk passes folders only, and these are there still. -/
theorem walk (evolves : t.Evolves u) {text : String} {names : List String} {last : Place}
    (ok : t.walk text place names = .ok last) : u.walk text place names = .ok last := by
  induction names generalizing place with
  | nil => exact ok
  | cons name rest ih =>
    unfold FileTree.walk at ok ⊢
    split at ok
    · simp at ok
    · simp at ok
    · rename_i folder
      rw [evolves.folders place folder, evolves.nameLimit]
      dsimp only
      split_ifs at ok ⊢ with climbs long
      · exact ih ok
      · exact ih ok

theorem locate (evolves : t.Evolves u) (ok : t.locate path = .ok place) :
    u.locate path = .ok place := by
  unfold FileTree.locate tooLong at ok ⊢
  rw [evolves.pathLimit, evolves.origin]
  dsimp only at ok ⊢
  split_ifs at ok ⊢
  exact evolves.walk ok

end Evolves

/-- Whatever is no folder may give way. -/
theorem evolves_put {node : Node} (free : t.node? place ≠ some .folder) : t.Evolves (t.put place node) where
  workingDirectory := rfl
  nameLimit := rfl
  pathLimit := rfl
  folders other folder := by
    have away : ¬ (other = place ∧ place ≠ []) := by
      rintro ⟨rfl, -⟩
      exact free folder
    rw [node?_put, if_neg away, folder]

/-! ### Writing a file -/

theorem write_eq_ok (located : t.locate path = .ok place) (free : t.node? place ≠ some .folder) :
    t.write path content = .ok (t.put place (.file content)) := by
  unfold write
  rw [located]
  dsimp only
  rw [if_neg free]

theorem write_ok (ok : t.write path content = .ok grown) :
    ∃ place, t.locate path = .ok place ∧ t.node? place ≠ some .folder ∧
      grown = t.put place (.file content) := by
  unfold write at ok
  split at ok
  · simp at ok
  rename_i place located
  split at ok
  · simp at ok
  · rename_i free
    exact ⟨place, located, free, (Except.ok.inj ok).symm⟩

theorem evolves_write (ok : t.write path content = .ok grown) : t.Evolves grown := by
  obtain ⟨place, -, free, rfl⟩ := write_ok ok
  exact evolves_put free

/-- The file has the content, and all else is as it was. -/
theorem node?_write (ok : t.write path content = .ok grown) (located : t.locate path = .ok place)
    (other : Place) :
    grown.node? other = if other = place then some (.file content) else t.node? other := by
  obtain ⟨_, located', free, rfl⟩ := write_ok ok
  obtain rfl := Except.ok.inj (located.symm.trans located')
  have named : place ≠ [] := by
    rintro rfl
    exact free rfl
  simp [node?_put, named]

theorem read_write (ok : t.write path content = .ok grown) : grown.read path = .ok content := by
  obtain ⟨place, located, -⟩ := write_ok ok
  exact read_eq_ok ((evolves_write ok).locate located) (by rw [node?_write ok located, if_pos rfl])

/-- A file elsewhere reads as before. -/
theorem read_write_other {held : List UInt8} (ok : t.write path content = .ok grown)
    (read : t.read id = .ok held) (apart : t.arrival id ≠ t.arrival path) : grown.read id = .ok held := by
  obtain ⟨place, located, node⟩ := read_ok read
  obtain ⟨target, located', -⟩ := write_ok ok
  have away : place ≠ target := by
    rintro rfl
    exact apart ((arrival_of_locate located).symm.trans (arrival_of_locate located'))
  exact read_eq_ok ((evolves_write ok).locate located) (by rw [node?_write ok located', if_neg away, node])

theorem fetch_write_other {encoding : Option String} {text : String}
    (ok : t.write path content = .ok grown) (fetched : t.fetch encoding id = .ok text)
    (apart : t.arrival id ≠ t.arrival path) : grown.fetch encoding id = .ok text := by
  obtain ⟨place, held, located, node⟩ := fetch_ok fetched
  have before := read_eq_ok located node
  rw [← fetched]
  unfold fetch
  rw [before, read_write_other ok before apart]

/-! ### Changes by others -/

/-- What is there stays there while folders are made. -/
theorem growFolders_ok {left : List String} (ok : growFolders path place left t = .ok grown) :
    t.Evolves grown ∧ ∀ other node, t.node? other = some node → grown.node? other = some node := by
  have put (t : FileTree) (place : Place) :
      let made := if t.node? place = none then t.put place .folder else t
      t.Evolves made ∧ ∀ other node, t.node? other = some node → made.node? other = some node := by
    dsimp only
    split_ifs with free
    · refine ⟨evolves_put (by simp [free]), fun other node held => ?_⟩
      have away : other ≠ place := by
        rintro rfl
        simp [free] at held
      simp [node?_put, away, held]
    · exact ⟨.refl t, fun _ _ => id⟩
  induction left generalizing place t with
  | nil =>
    unfold growFolders at ok
    split at ok
    · simp at ok
    · obtain rfl := Except.ok.inj ok
      exact put t place
  | cons name rest ih =>
    unfold growFolders at ok
    split at ok
    · simp at ok
    dsimp only at ok
    obtain ⟨evolves, kept⟩ := put t place
    have later {next : Place}
        (ok : growFolders path next rest (if t.node? place = none then t.put place .folder else t) =
          .ok grown) := ih ok
    split at ok
    · obtain ⟨evolves', kept'⟩ := later ok
      exact ⟨evolves.trans evolves', fun other node held => kept' other node (kept other node held)⟩
    · obtain ⟨evolves', kept'⟩ := later ok
      exact ⟨evolves.trans evolves', fun other node held => kept' other node (kept other node held)⟩

/-- The path of a change leads elsewhere than another path. Making folders touches no file at all. -/
def Change.Spares (t : FileTree) (path : String) : Change → Prop
  | .write target _ | .delete target => t.arrival target ≠ t.arrival path
  | .makeFolders _ => True

theorem Change.Spares.evolve {change : Change} (spares : change.Spares t path) (evolves : t.Evolves u) :
    change.Spares u path := by
  cases change with
  | makeFolders => trivial
  | write target | delete target =>
    change u.arrival target ≠ u.arrival path
    rwa [evolves.arrival, evolves.arrival]

theorem node?_filter (away : other ≠ place) :
    { t with nodes := t.nodes.filter (·.1 ≠ place) }.node? other = t.node? other := by
  have lookup : (t.nodes.filter (·.1 ≠ place)).lookup other = t.nodes.lookup other := by
    induction t.nodes with
    | nil => rfl
    | cons entry rest ih =>
      obtain ⟨name, held⟩ := entry
      rw [lookup_cons_eq, List.filter_cons]
      dsimp only
      split_ifs with kept same same
      · rw [lookup_cons_eq, if_pos same]
      · rw [lookup_cons_eq, if_neg same, ih]
      · exact absurd (by simpa [← same] using away) kept
      · exact ih
  unfold node?
  rw [lookup]

theorem delete_ok (ok : t.delete path = .ok grown) : t.Evolves grown ∧
    ∃ place, t.locate path = .ok place ∧ ∀ other ≠ place, grown.node? other = t.node? other := by
  unfold delete at ok
  split at ok
  · simp at ok
  rename_i place located
  split at ok
  · simp at ok
  · simp at ok
  rename_i node
  obtain rfl := Except.ok.inj ok
  refine ⟨⟨rfl, rfl, rfl, fun other folder => ?_⟩, place, located, fun other away => node?_filter away⟩
  have away : other ≠ place := by
    rintro rfl
    simp [node] at folder
  rw [node?_filter away, folder]

/-- No change takes a folder away. One that spares the path of a file leaves the file as it is. -/
theorem apply_ok {change : Change} (ok : t.apply change = .ok grown) : t.Evolves grown ∧
    ∀ path place content, change.Spares t path → t.locate path = .ok place →
      t.node? place = some (.file content) → grown.node? place = some (.file content) := by
  have apart {target path : String} {aim place : Place} (spares : t.arrival target ≠ t.arrival path)
      (located : t.locate path = .ok place) (aimed : aim.map String.toList = t.arrival target) :
      place ≠ aim := by
    rintro rfl
    exact spares (aimed.symm.trans (arrival_of_locate located))
  cases change with
  | write target content =>
    unfold apply writeDeep at ok
    dsimp only at ok
    split at ok
    · simp at ok
    rename_i folders made
    obtain ⟨evolves, kept⟩ := growFolders_ok made
    refine ⟨evolves.trans (evolves_write ok), fun path place content spares located node => ?_⟩
    obtain ⟨aim, aimed, -⟩ := write_ok ok
    have away := apart spares located ((arrival_of_locate aimed).trans (evolves.arrival target))
    rw [node?_write ok aimed, if_neg away, kept place _ node]
  | delete target =>
    obtain ⟨evolves, aim, aimed, kept⟩ := delete_ok ok
    refine ⟨evolves, fun path place content spares located node => ?_⟩
    rw [kept place (apart spares located (arrival_of_locate aimed)), node]
  | makeFolders target =>
    obtain ⟨evolves, kept⟩ := growFolders_ok ok
    exact ⟨evolves, fun _ place _ _ _ node => kept place _ node⟩

end ShaderBundle.FileTree
