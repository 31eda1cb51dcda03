import ShaderBundle.Library.Files
import ShaderBundle.Proofs.Path.Join

/-! Where the paths of a tree lead. A place is reached along its segments whatever way a path is spelled,
so that two spellings of one place lead to one text. -/
namespace ShaderBundle.FileTree

open ShaderBundle.Path

variable {t : FileTree} {path id : String} {place : Place}

/-- Where a path leads if a folder stands wherever it goes. -/
def arrival (t : FileTree) (path : String) : List Segment :=
  arrive ((t.origin path).map String.toList) (steps path.toList)

theorem walk_cons (t : FileTree) (text : String) (place : Place) (name : String)
    (rest : List String) : t.walk text place (name :: rest) =
      t.walk text place [name] >>= (t.walk text · rest) := by
  simp only [walk]
  split
  · rfl
  · rfl
  · split_ifs <;> rfl

theorem walk_append (t : FileTree) (text : String) (place : Place) (front back : List String) :
    t.walk text place (front ++ back) = t.walk text place front >>= (t.walk text · back) := by
  induction front generalizing place with
  | nil => rfl
  | cons name rest ih =>
    rw [List.cons_append, walk_cons, walk_cons t text place name rest, bind_assoc]
    simp only [ih]

theorem walk_append_ok {text : String} {front back : List String} {last : Place}
    (ok : t.walk text place (front ++ back) = .ok last) :
    ∃ middle, t.walk text place front = .ok middle ∧ t.walk text middle back = .ok last := by
  rw [walk_append] at ok
  cases first : t.walk text place front with
  | error fault => simp [first, bind, Except.bind] at ok
  | ok middle => exact ⟨middle, rfl, by simpa [first, bind, Except.bind] using ok⟩

theorem walk_cons_ok {text name : String} {rest : List String} {last : Place}
    (ok : t.walk text place (name :: rest) = .ok last) :
    ∃ next, t.walk text place [name] = .ok next ∧ t.walk text next rest = .ok last :=
  walk_append_ok (List.singleton_append ▸ ok)

/-- One step of a walk takes a folder to step out of. -/
theorem walk_singleton_ok {text name : String} {last : Place}
    (ok : t.walk text place [name] = .ok last) : t.node? place = some .folder ∧
      last = if name = ".." then place.dropLast else place ++ [name] := by
  unfold walk at ok
  split at ok
  · simp at ok
  · simp at ok
  · rename_i folder
    refine ⟨folder, ?_⟩
    split_ifs at ok ⊢ with climbs long
    · exact (Except.ok.inj ok).symm
    · exact (Except.ok.inj ok).symm

theorem map_toList_step (place : Place) (name : String) :
    (if name = ".." then place.dropLast else place ++ [name]).map String.toList =
      arrive (place.map String.toList) [name.toList] := by
  have up : name = ".." ↔ name.toList = climb := by
    rw [← String.toList_inj]
    rfl
  split_ifs with climbs
  · rw [up.mp climbs, arrive_climb, List.map_dropLast]
  · rw [arrive_name _ (mt up.mpr climbs), List.map_append]
    rfl

theorem walk_ok {text : String} {names : List String} {last : Place}
    (ok : t.walk text place names = .ok last) :
    last.map String.toList = arrive (place.map String.toList) (names.map String.toList) := by
  induction names generalizing place with
  | nil =>
    obtain rfl := Except.ok.inj ok
    rfl
  | cons name rest ih =>
    obtain ⟨next, first, later⟩ := walk_cons_ok ok
    rw [ih later, (walk_singleton_ok first).2, map_toList_step, List.map_cons, ← arrive_append,
      List.singleton_append]

theorem map_toList_names (path : String) : (names path).map String.toList = steps path.toList := by
  simp [names, Function.comp_def]

theorem locate_ok (ok : t.locate path = .ok place) :
    t.walk (spelled path) (t.origin path) (names path) = .ok place := by
  unfold locate at ok
  dsimp only at ok
  split_ifs at ok
  exact ok

/-- A name that is too long cannot be asked about. -/
theorem isFolder_longName {name : String} (stands : t.node? t.workingDirectory = some .folder)
    (step : IsStep name.toList) (names : name ≠ "..") (readable : '\x00' ∉ name.toList)
    (long : t.nameLimit < name.utf8ByteSize) : t.isFolder name = .error (.nameTooLong name) := by
  have located : t.locate name = .error (.nameTooLong name) := by
    have single : FileTree.names name = [name] := by
      rw [FileTree.names, step.steps_eq, List.map_singleton, String.ofList_toList]
    have origin : t.origin name = t.workingDirectory := by
      rw [FileTree.origin, step.isAbsolute_eq]
      rfl
    unfold locate
    rw [if_neg (by simpa using readable), spelled_name step, single, origin]
    simp [walk, stands, names, long]
  rw [isFolder, located]

/-- A place that is located is where the path leads. -/
theorem arrival_of_locate (ok : t.locate path = .ok place) :
    place.map String.toList = t.arrival path := by
  rw [walk_ok (locate_ok ok), map_toList_names, arrival]

theorem locate_eq_of_arrival {other : String} {place' : Place} (ok : t.locate path = .ok place)
    (ok' : t.locate other = .ok place') (same : t.arrival path = t.arrival other) :
    place = place' := by
  rw [← arrival_of_locate ok, ← arrival_of_locate ok'] at same
  exact List.map_injective_iff.mpr (fun _ _ => String.toList_injective) same

theorem origin_congr {other : String} (kind : isAbsolute path.toList = isAbsolute other.toList) :
    t.origin path = t.origin other := by
  unfold origin
  rw [kind]

/-- A joined path leads where its name leads from its base. -/
theorem arrival_of_joined {base name : String} (joined : Joined base.toList name.toList path.toList) :
    t.arrival path = arrive (t.arrival base) (steps name.toList) := by
  unfold arrival
  rw [joined.leads, origin_congr joined.kind]

/-- A plain path is told by its anchor and by where it leads. -/
theorem eq_of_arrival {left right : String} (plain : Plain left.toList) (plain' : Plain right.toList)
    (together : anchor left.toList = anchor right.toList) (meet : t.arrival left = t.arrival right) :
    left = right := by
  unfold arrival at meet
  rw [origin_congr (anchor_eq_iff.mp together).1] at meet
  exact String.toList_inj.mp (plain.eq_of_arrive plain' together meet)

theorem isAbsolute_directory (path : String) :
    isAbsolute (directory path).toList = isAbsolute path.toList := by
  rw [directory, String.toList_ofList, Path.isAbsolute_directory]

theorem dropLast_arrival (ends : IsStep (lastSegment path.toList))
    (down : lastSegment path.toList ≠ climb) :
    (t.arrival path).dropLast = t.arrival (directory path) := by
  unfold arrival
  rw [steps_eq_concat ends, arrive_append, arrive_name _ down, List.dropLast_concat,
    origin_congr (isAbsolute_directory path), directory, String.toList_ofList]

theorem isAbsolute_workingPath (t : FileTree) : isAbsolute t.workingPath.toList = true := by
  simp [workingPath, pathText, isAbsolute]

/-! ### Files -/

theorem read_ok {content : List UInt8} (ok : t.read path = .ok content) :
    ∃ place, t.locate path = .ok place ∧ t.node? place = some (.file content) := by
  unfold read at ok
  split at ok
  · simp at ok
  · rename_i place located
    refine ⟨place, located, ?_⟩
    split at ok
    · simp at ok
    · simp at ok
    · rename_i node
      rw [node, Except.ok.inj ok]

theorem read_eq_ok {content : List UInt8} (located : t.locate path = .ok place)
    (node : t.node? place = some (.file content)) : t.read path = .ok content := by
  unfold read
  rw [located]
  dsimp only
  rw [node]

variable {encoding : Option String} {text : String}

/-- A text that is fetched is in a file. -/
theorem fetch_ok (ok : t.fetch encoding id = .ok text) :
    ∃ place content, t.locate id = .ok place ∧ t.node? place = some (.file content) := by
  unfold fetch at ok
  split at ok
  · simp at ok
  · split at ok
    · simp at ok
    · split at ok
      · simp at ok
      · rename_i content got
        obtain ⟨place, located, node⟩ := read_ok got
        exact ⟨place, content, located, node⟩

/-- Every path that leads to a file fetches the text of that file. -/
theorem fetch_of_locate {other : String} (ok : t.fetch encoding id = .ok text)
    (same : t.locate other = t.locate id) : t.fetch encoding other = .ok text := by
  obtain ⟨place, content, located, node⟩ := fetch_ok ok
  rw [← ok]
  unfold fetch
  rw [read_eq_ok located node, read_eq_ok (same.trans located) node]

/-- Paths that are one file lead to one place. -/
theorem arrival_eq_of_locate {other : String} (fetched : t.fetch encoding id = .ok text)
    (same : t.locate id = t.locate other) : t.arrival id = t.arrival other := by
  obtain ⟨place, _, located, -⟩ := fetch_ok fetched
  exact (arrival_of_locate located).symm.trans (arrival_of_locate (same.symm.trans located))

theorem mem_nodes_of_file {content : List UInt8} (node : t.node? place = some (.file content)) :
    place ∈ t.nodes.map Prod.fst := by
  unfold node? at node
  split at node
  · simp at node
  · obtain ⟨before, after, split, -⟩ := List.lookup_eq_some_iff.mp node
    simp [split]

/-! ### Folders -/

/-- Folders stand all along a place. -/
def Standing (t : FileTree) (place : Place) : Prop :=
  ∀ front, front <+: place → t.node? front = some .folder

/-- Folders stand all around a place. -/
def Enclosed (t : FileTree) (place : Place) : Prop :=
  ∀ front, front <+: place → front ≠ place → t.node? front = some .folder

theorem standing_root (t : FileTree) : t.Standing [] := by
  intro front inside
  rw [List.prefix_nil.mp inside]
  rfl

theorem Standing.enclosed (standing : t.Standing place) : t.Enclosed place :=
  fun _ inside _ => standing _ inside

theorem Enclosed.standing (enclosed : t.Enclosed place) (folder : t.node? place = some .folder) :
    t.Standing place := by
  intro front inside
  by_cases same : front = place
  · rw [same, folder]
  · exact enclosed front inside same

theorem Standing.dropLast (standing : t.Standing place) : t.Standing place.dropLast :=
  fun _ inside => standing _ (inside.trans (List.dropLast_prefix _))

theorem Standing.concat (standing : t.Standing place) (name : String) :
    t.Enclosed (place ++ [name]) := by
  intro front inside other
  rcases List.prefix_concat_iff.mp inside with same | inside
  · exact absurd same other
  · exact standing front inside

/-- A step leads to a place with folders around it; a climb leads to one of them. -/
theorem Enclosed.step {text name : String} {last : Place} (enclosed : t.Enclosed place)
    (ok : t.walk text place [name] = .ok last) :
    t.Enclosed last ∧ (name = ".." → t.Standing last) := by
  obtain ⟨folder, rfl⟩ := walk_singleton_ok ok
  have standing := enclosed.standing folder
  split_ifs with climbs
  · exact ⟨standing.dropLast.enclosed, fun _ => standing.dropLast⟩
  · exact ⟨standing.concat name, fun climbs' => absurd climbs' climbs⟩

theorem Enclosed.walk {text : String} {names : List String} {last : Place}
    (enclosed : t.Enclosed place) (ok : t.walk text place names = .ok last) : t.Enclosed last := by
  induction names generalizing place with
  | nil => exact Except.ok.inj ok ▸ enclosed
  | cons name rest ih =>
    obtain ⟨next, first, later⟩ := walk_cons_ok ok
    exact ih (enclosed.step first).1 later

theorem standing_origin (stands : isAbsolute path.toList = false → t.Standing t.workingDirectory) :
    t.Standing (t.origin path) := by
  unfold origin
  split_ifs with kind
  · exact t.standing_root
  · exact stands (by simpa using kind)

/-- The last step to a file goes down. -/
theorem steps_of_file (around : t.Standing (t.origin path)) (located : t.locate path = .ok place)
    {content : List UInt8} (node : t.node? place = some (.file content)) :
    ∃ front name, steps path.toList = front ++ [name] ∧ name ≠ climb := by
  have walked := locate_ok located
  have leaf : ¬ t.Standing place := by
    intro stands
    rw [stands place (List.prefix_refl _)] at node
    simp at node
  rcases List.eq_nil_or_concat (steps path.toList) with none | ⟨front, name, split⟩
  · have start : names path = [] := by simp [names, none]
    rw [start] at walked
    exact absurd (Except.ok.inj walked ▸ around) leaf
  · rw [List.concat_eq_append] at split
    refine ⟨front, name, split, ?_⟩
    rintro rfl
    have way : names path = front.map String.ofList ++ [".."] := by
      rw [names, split, List.map_append]
      rfl
    rw [way] at walked
    obtain ⟨middle, before, last⟩ := walk_append_ok walked
    exact leaf (((around.enclosed.walk before).step last).2 rfl)

/-- A path that leads to a file and whose last segment moves is its directory and a name. -/
theorem lastSegment_ne_climb (around : t.Standing (t.origin path))
    (fetched : t.fetch encoding path = .ok text) (ends : IsStep (lastSegment path.toList)) :
    lastSegment path.toList ≠ climb := by
  obtain ⟨place, content, located, node⟩ := fetch_ok fetched
  obtain ⟨front, name, split, down⟩ := steps_of_file around located node
  rw [steps_eq_concat ends] at split
  obtain ⟨-, same⟩ := List.append_inj' split rfl
  rwa [List.singleton_inj.mp same]

/-- A plain path to a file ends in the file's name. -/
theorem isStep_lastSegment (around : t.Standing (t.origin path))
    (fetched : t.fetch encoding path = .ok text) (plain : Plain path.toList) :
    IsStep (lastSegment path.toList) := by
  obtain ⟨place, content, located, node⟩ := fetch_ok fetched
  obtain ⟨front, name, split, -⟩ := steps_of_file around located node
  rw [plain.lastSegment_eq split]
  exact isStep_of_mem (split ▸ List.mem_append_right _ List.mem_cons_self)

def shelf (files : List (String × String)) : FileTree where
  nodes := (["w"], .folder) :: files.map fun (name, text) => (["w", name], .file (Text.utf8Bytes text))
  workingDirectory := ["w"]

theorem standing_shelf (files : List (String × String)) :
    (shelf files).Standing (shelf files).workingDirectory := by
  intro front inside
  rcases List.prefix_concat_iff.mp (show front <+: [] ++ ["w"] from inside) with rfl | none
  · rfl
  · exact standing_root _ front none

end ShaderBundle.FileTree
