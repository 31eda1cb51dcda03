import ShaderBundle.Proofs.Assembly.Bounds
import ShaderBundle.Proofs.Assembly.Outcome
import ShaderBundle.Proofs.FileTree.Count
import ShaderBundle.Proofs.FileTree.Replay

/-! When an assembly from files comes to its end, and what becomes of a file that leads back to itself.
Relative ids may climb. While they climb only so often there are finitely many of them, and a file that is
met again closes a cycle of ids sooner or later; but climbs beyond the root make ever new ids. -/
namespace ShaderBundle

open ShaderBundle.Path Relation

/-- The root leads to no relative id with more climbs than this. -/
def Library.ClimbsAtMost (lib : Library) (includeRoot root : String) (most : Nat) : Prop :=
  ∀ id, ReflTransGen (lib.Includes includeRoot) root id → isAbsolute id.toList = false →
    climbs id.toList ≤ most

variable {t : FileTree} {encoding : Option String} {capacity most : Nat} {root includeRoot : String}

/-- With room for all ids of its files no discovery is cut off. -/
theorem not_cutOff (low : (t.libraryWithin encoding capacity).ClimbsAtMost includeRoot root most)
    (room : t.nodes.length * (most + 3) < capacity) {stop : Stop} :
    ¬ Discovery.CutOff (t.libraryWithin encoding capacity) includeRoot root stop := by
  rintro ⟨d, valid, full, -⟩
  have few := FileTree.length_le_of_got valid.got fun id found => low id (valid.reached id found)
  have full : capacity < d.ids.length := full
  omega

/-- An assembly from files comes to its end if the relative ids that the root leads to climb only so
often; with absolute roots there are none. It asks for no more ids than there are files and anchors, and
more capacity changes nothing. If a file then leads back to itself, under whatever spelling, the assembly
ends with a cycle, unless some include fails before. -/
theorem assemble_ends (t : FileTree) (encoding : Option String) (capacity : Nat)
    (root includeRoot : String) :
    let lib := t.libraryWithin encoding capacity
    let run := assemble lib root includeRoot
    (isAbsolute root.toList = true → isAbsolute includeRoot.toList = true →
      lib.ClimbsAtMost includeRoot root 0) ∧
    ∀ most, lib.ClimbsAtMost includeRoot root most → t.nodes.length * (most + 3) < capacity →
      (∀ limit, run.result ≠ .error (.tooManyModules limit)) ∧
      (∀ more, capacity ≤ more →
        assemble (t.libraryWithin encoding more) root includeRoot = run) ∧
      run.requests.length ≤ t.nodes.length * (most + 3) + 2 ∧
      (t.Standing t.workingDirectory → IsStep (lastSegment root.toList) →
        ∀ id next, ReflTransGen (lib.Includes includeRoot) root id →
          TransGen (lib.Includes includeRoot) id next → t.locate id = t.locate next →
          (∃ chain, run.result = .error (.cycle chain)) ∨
          ∃ stop, Discovery.Fails lib includeRoot root stop ∧ run.result = .error stop.error) := by
  intro lib run
  refine ⟨fun absolute absolute' id path relative => ?_, fun most low room => ?_⟩
  · have kind := FileTree.isAbsolute_of_reached (absolute'.trans absolute.symm) path
    simp [relative, absolute] at kind
  have unspent : ¬ Discovery.Spent (Discovery.run lib includeRoot root) :=
    Discovery.not_spent fun _ => not_cutOff low room
  refine ⟨fun limit full => unspent (spent_of_assemble full), fun more le => ?_, ?_, ?_⟩
  · exact assemble_of_run_eq (Discovery.run_congr_of_le ⟨rfl, fun _ _ => rfl⟩ le unspent)
  · obtain ⟨-, ids, got, short⟩ := Discovery.asked_distinct lib includeRoot root
    have few := FileTree.length_le_of_got got fun id found => low id (got.reached id found)
    rw [← requests_assemble] at short
    change (assemble lib root includeRoot).requests.length ≤ _
    omega
  · intro stands moves id next path cycle same
    cases outcome : Discovery.run lib includeRoot root with
    | error stop =>
      rcases Discovery.run_error outcome with fails | cut
      · exact .inr ⟨stop, fails, (assemble_of_run_error outcome).1⟩
      · exact absurd cut (not_cutOff low room)
    | ok d =>
      obtain ⟨valid, done⟩ := Discovery.run_ok outcome
      have ended : FileTree.Ended t encoding capacity includeRoot root d := ⟨valid, done, stands, moves⟩
      have found : id ∈ d.ids := valid.mem_of_reachable done path
      exact .inl ((assemble_of_run_ok outcome).1 (ended.cyclic found cycle same))

/-- A file that includes itself through its folder's folder. The other spelling closes the cycle. -/
theorem assemble_ends_of_loop :
    let t := FileTree.shelf [("m", "#include \"../w/m\"")]
    let lib := t.libraryWithin (some "utf-8") 9
    let run := assemble lib "m" ""
    lib.ClimbsAtMost "" "m" 1 ∧ t.locate "m" = t.locate "../w/m" ∧
    run.requests.length ≤ t.nodes.length * (1 + 3) + 2 ∧
    ∃ chain, run.result = .error (.cycle chain) := by
  intro t lib run
  have asked : (Discovery.run lib "" "m").toOption.map Discovery.ids = some ["m", "../w/m"] := by
    decide +kernel
  cases outcome : Discovery.run lib "" "m" with
  | error stop => simp [outcome, Except.toOption] at asked
  | ok d =>
    have ids : d.ids = ["m", "../w/m"] := by simpa [outcome, Except.toOption] using asked
    obtain ⟨valid, done⟩ := Discovery.run_ok outcome
    have low : lib.ClimbsAtMost "" "m" 1 := by
      intro id path _
      have found := valid.mem_of_reachable done path
      rw [ids, List.mem_cons, List.mem_singleton] at found
      rcases found with rfl | rfl <;> decide
    have again : TransGen (lib.Includes "") "m" "../w/m" := by
      have path := valid.reached "../w/m" (by simp [ids])
      exact (reflTransGen_iff_eq_or_transGen.mp path).resolve_left (by decide)
    have meet : t.locate "m" = t.locate "../w/m" := by decide +kernel
    obtain ⟨-, -, few, back⟩ := (assemble_ends t (some "utf-8") 9 "m" "").2 1 low (by decide)
    have moves : IsStep (lastSegment "m".toList) := ⟨by decide, by decide, by decide⟩
    refine ⟨low, meet, few, ?_⟩
    rcases back (FileTree.standing_shelf _) moves "m" "../w/m" .refl again meet with
      cycle | ⟨stop, fails, -⟩
    · exact cycle
    · obtain ⟨loaded, ends⟩ := Discovery.run_ends outcome
      exact absurd ends fails.not_ends

namespace FileTree

/-- A file at the root that includes itself from above, without a limit on the length of paths. -/
def spiral : FileTree where
  nodes := [(["m"], .file (Text.utf8Bytes "#include \"../m\""))]
  pathLimit := none

/-- The spelling of the file behind so many climbs. -/
def rung (count : Nat) : String :=
  String.ofList (spell 0 (List.replicate count climb ++ [['m']]))

theorem isStep_rung (count : Nat) : ∀ s ∈ List.replicate count climb ++ [['m']], IsStep s := by
  intro s member
  rcases List.mem_append.mp member with up | name
  · rw [List.eq_of_mem_replicate up]
    exact isStep_climb
  · rw [List.mem_singleton.mp name]
    exact ⟨by decide, by decide, by decide⟩

theorem steps_rung (count : Nat) :
    steps (rung count).toList = List.replicate count climb ++ [['m']] := by
  rw [rung, String.toList_ofList, steps_spell (isStep_rung count)]

theorem isAbsolute_rung (count : Nat) : isAbsolute (rung count).toList = false := by
  rw [rung, String.toList_ofList, isAbsolute_spell (isStep_rung count)]
  rfl

theorem rung_zero : rung 0 = "m" := by
  rw [← String.toList_inj, rung, String.toList_ofList]
  decide

theorem rung_injective : Function.Injective rung := by
  intro count other same
  have lengths := congrArg (fun path : String => (steps path.toList).length) same
  simpa [steps_rung] using lengths

theorem walk_climbs (text : String) (count : Nat) (rest : List String) :
    spiral.walk text [] (List.replicate count ".." ++ rest) = spiral.walk text [] rest := by
  induction count with
  | zero => rfl
  | succ count ih =>
    rw [List.replicate_succ, List.cons_append, walk_cons]
    exact ih

theorem locate_rung (count : Nat) : spiral.locate (rung count) = .ok ["m"] := by
  have whole : (rung count).toList.contains '\x00' = false := by
    rw [List.contains_eq_mem, decide_eq_false_iff_not, rung, String.toList_ofList]
    intro member
    rcases mem_spell member with point | slash | ⟨s, listed, inside⟩
    · simp at point
    · simp at slash
    · rcases List.mem_append.mp listed with up | name
      · rw [List.eq_of_mem_replicate up] at inside
        simp [climb] at inside
      · rw [List.mem_singleton.mp name] at inside
        simp at inside
  have way : names (rung count) = List.replicate count ".." ++ ["m"] := by
    rw [names, steps_rung, List.map_append, List.map_replicate]
    rfl
  have short : spiral.tooLong (spelled (rung count)) = false := rfl
  have start : spiral.origin (rung count) = [] := by
    unfold origin
    split <;> rfl
  unfold locate
  dsimp only
  rw [whole, short, start, way, walk_climbs]
  rfl

theorem join_rung (count : Nat) :
    joinOnDisk (directory (rung count)) "../m" = .ok (rung (count + 1)) := by
  have last : lastSegment (rung count).toList = ['m'] := by
    rw [rung, String.toList_ofList]
    exact lastSegment_spell (isStep_rung count _ (by simp))
  have ends : IsStep (lastSegment (rung count).toList) := by
    rw [last]
    exact isStep_rung 0 _ (by simp)
  have split := steps_eq_concat ends
  rw [steps_rung, last] at split
  have base : steps (directory (rung count)).toList = List.replicate count climb := by
    rw [directory, String.toList_ofList]
    exact (List.append_inj' split rfl).1.symm
  have up : steps (directory (rung count)).toList ++ steps "../m".toList =
      List.replicate (count + 1) climb ++ [['m']] := by
    rw [base, List.replicate_succ', List.append_assoc]
    rfl
  have relative : isAbsolute (directory (rung count)).toList = false :=
    (isAbsolute_directory _).trans (isAbsolute_rung count)
  have settled : settle false [] (List.replicate (count + 1) climb ++ [['m']]) =
      ['m'] :: List.replicate (count + 1) climb := by
    rw [← List.replicate_zero, settle_climbs, Nat.zero_add]
    rfl
  rw [joinOnDisk_relative relative, up, settled, List.reverse_cons, List.reverse_replicate, rung]

theorem leads_of_join {owner id : String} {dep : Dependency} (kind : dep.kind = .relative)
    (joined : joinOnDisk (directory owner) dep.target = .ok id) :
    (t.libraryWithin encoding capacity).Leads includeRoot owner dep id := by
  rw [← join_libraryWithin t encoding capacity] at joined
  exact .quoted kind joined

theorem request_of_fetch {includer : Option (String × Nat)} {id text : String} {m : Module}
    (fetched : t.fetch encoding id = .ok text) (read : Module.ofSource id text = .ok m) :
    Discovery.Request (t.libraryWithin encoding capacity) includer id (.ok m) := .loaded fetched read

theorem request_rung (capacity count : Nat) (includer : Option (String × Nat)) :
    ∃ m, m.dependencies = [⟨"../m", 0, .relative, none⟩] ∧
      Discovery.Request (spiral.libraryWithin (some "utf-8") capacity) includer (rung count) (.ok m) := by
  have first : spiral.fetch (some "utf-8") "m" = .ok "#include \"../m\"" := by decide +kernel
  have read : Module.ofSource "m" "#include \"../m\"" =
      .ok ⟨"m", ["// #include \"../m\""], [⟨"../m", 0, .relative, none⟩], []⟩ := by decide +kernel
  have meet : spiral.locate (rung count) = spiral.locate "m" := by
    rw [← rung_zero, locate_rung, locate_rung]
  have fetched := fetch_of_locate first meet
  obtain ⟨m, read', same⟩ := Module.exists_ofSource read (rung count)
  exact ⟨m, same, request_of_fetch fetched read'⟩

theorem leads_rung (capacity count : Nat) {id : String} :
    (spiral.libraryWithin (some "utf-8") capacity).Leads "" (rung count) ⟨"../m", 0, .relative, none⟩ id ↔
      id = rung (count + 1) := by
  have leads : (spiral.libraryWithin (some "utf-8") capacity).Leads "" (rung count)
      ⟨"../m", 0, .relative, none⟩ (rung (count + 1)) := leads_of_join rfl (join_rung count)
  exact ⟨fun other => other.unique leads, fun same => same ▸ leads⟩

theorem includes_rung (capacity count : Nat) {id : String} :
    (spiral.libraryWithin (some "utf-8") capacity).Includes "" (rung count) id ↔
      id = rung (count + 1) := by
  obtain ⟨m, deps, request⟩ := request_rung capacity count none
  obtain ⟨same, held⟩ := request.holds
  constructor
  · rintro ⟨n, held', same', dep, inModule, leads⟩
    obtain rfl := held'.unique held (same'.trans same.symm)
    rw [deps, List.mem_singleton] at inModule
    rw [inModule] at leads
    exact (leads_rung capacity count).mp leads
  · intro further
    refine ⟨m, held, same, _, ?_, (leads_rung capacity count).mpr further⟩
    rw [deps]
    exact List.mem_cons_self

theorem reached_rung {capacity : Nat} {id : String}
    (path : ReflTransGen ((spiral.libraryWithin (some "utf-8") capacity).Includes "") "m" id) :
    ∃ count, id = rung count := by
  induction path with
  | refl => exact ⟨0, rung_zero.symm⟩
  | tail _ edge ih =>
    obtain ⟨count, rfl⟩ := ih
    exact ⟨count + 1, (includes_rung capacity count).mp edge⟩

theorem not_request_rung (capacity count : Nat) (includer : Option (String × Nat)) (e : AssemblyError) :
    ¬ Discovery.Request (spiral.libraryWithin (some "utf-8") capacity) includer (rung count)
      (.error e) := by
  intro request
  obtain ⟨m, -, request'⟩ := request_rung capacity count includer
  simpa using request.unique request'

/-- No request fails, nor does any include. -/
theorem not_fails_spiral (capacity : Nat) (stop : Stop) :
    ¬ Discovery.Fails (spiral.libraryWithin (some "utf-8") capacity) "" "m" stop := by
  intro fails
  rcases fails.cases with ⟨e, request, -⟩ | ⟨turns, loaded, owner, dep, course, member, inModule, turn⟩
  · rw [← rung_zero] at request
    exact not_request_rung capacity 0 none e request
  · obtain ⟨count, named⟩ := reached_rung (course.reached owner member)
    obtain ⟨m, deps, request⟩ := request_rung capacity count none
    obtain ⟨same, held⟩ := request.holds
    obtain rfl := (course.holds owner member).unique held (named.trans same.symm)
    rw [deps, List.mem_singleton] at inModule
    subst inModule
    rw [named] at turn
    rcases turn with ⟨fault, refusal, -⟩ | ⟨id, e, leads, -, request', -⟩
    · have leads := Library.leads_iff.mp ((leads_rung capacity count).mpr rfl)
      simp [leads] at refusal
    · rw [(leads_rung capacity count).mp leads] at request'
      exact not_request_rung capacity (count + 1) _ e request'

end FileTree

/-- The file includes itself, under a longer path each time: a run is cut off whatever its capacity, and
there is no cycle to be reported. -/
theorem spiral_never_ends :
    let t := FileTree.spiral
    (t.Standing t.workingDirectory ∧ IsStep (lastSegment "m".toList)) ∧
    t.locate "../m" = t.locate "m" ∧
    ∀ capacity, (t.libraryWithin (some "utf-8") capacity).Includes "" "m" "../m" ∧
      (assemble (t.libraryWithin (some "utf-8") capacity) "m" "").result =
        .error (.tooManyModules capacity) := by
  intro t
  refine ⟨⟨t.standing_root, by decide, by decide, by decide⟩, by decide +kernel,
    fun capacity => ⟨?_, ?_⟩⟩
  · have edge := (FileTree.includes_rung capacity 0).mpr rfl
    rw [FileTree.rung_zero] at edge
    exact edge
  cases outcome : Discovery.run (t.libraryWithin (some "utf-8") capacity) "" "m" with
  | error stop =>
    rcases Discovery.run_error outcome with fails | ⟨d, -, -, rfl⟩
    · exact absurd fails (FileTree.not_fails_spiral capacity stop)
    · exact (assemble_of_run_error outcome).1
  | ok d =>
    obtain ⟨valid, done⟩ := Discovery.run_ok outcome
    have found (count : Nat) : FileTree.rung count ∈ d.ids := by
      induction count with
      | zero =>
        rw [FileTree.rung_zero]
        exact valid.root_mem
      | succ count ih => exact valid.closed done ih ((FileTree.includes_rung capacity count).mpr rfl)
    exact absurd d.ids.finite_toSet
      (Set.infinite_of_injective_forall_mem FileTree.rung_injective found)

end ShaderBundle
