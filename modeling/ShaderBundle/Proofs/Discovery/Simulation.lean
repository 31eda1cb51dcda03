import ShaderBundle.Proofs.Discovery.Closure
import ShaderBundle.Proofs.Discovery.Course
import ShaderBundle.Proofs.Library.Capacity

/-! The queue of a discovery takes the course. Expanding the first waiting module is one turn for each of
its includes; the modules that wait are those whose includes are still on the agenda. -/
namespace ShaderBundle.Discovery

variable {lib : Library} {includeRoot root : String} {d : Discovery} {loaded : List Module}

@[simp] theorem agenda_append (left right : List Module) :
    agenda (left ++ right) = agenda left ++ agenda right := by
  simp [agenda]

structure Mirrors (d : Discovery) (loaded : List Module) : Prop where
  ids : d.ids = loaded.map (·.id)
  requests : d.requests = d.ids

namespace Mirrors

variable {owner : Module} {dep : Dependency} {id : String}

theorem holds_iff (mirrors : Mirrors d loaded) : d.holds id = true ↔ id ∈ loaded.map (·.id) := by
  rw [Discovery.holds_iff, mirrors.ids]

/-- Where the queue stops at an include, the turn fails alike. -/
theorem turn_of_error {stop : Stop} (mirrors : Mirrors d loaded)
    (leads : lib.Leads includeRoot owner.id dep id)
    (failed : (if d.holds id then .ok d else d.meet lib (some (owner.id, dep.line)) id) =
      Except.error stop) : Turn lib includeRoot loaded owner dep (.error stop) := by
  split at failed
  · simp at failed
  rename_i fresh
  have outside : id ∉ loaded.map (·.id) := mt mirrors.holds_iff.mpr fresh
  obtain ⟨e, refused, rfl⟩ := meet_error failed
  rw [mirrors.requests, mirrors.ids]
  exact .asked leads outside (request_iff.mpr refused)

/-- Where the queue goes on, it has found what the turn loads. -/
theorem turn_of_ok {met : Discovery} (mirrors : Mirrors d loaded)
    (leads : lib.Leads includeRoot owner.id dep id)
    (ok : (if d.holds id then .ok d else d.meet lib (some (owner.id, dep.line)) id) =
      Except.ok met) :
    ∃ found, Turn lib includeRoot loaded owner dep (.ok (loaded ++ found)) ∧
      Mirrors met (loaded ++ found) ∧ met.waiting = d.waiting ++ found := by
  split at ok
  · rename_i known
    obtain rfl := Except.ok.inj ok
    refine ⟨[], ?_, by simpa using mirrors, by simp⟩
    rw [List.append_nil]
    exact .known leads (mirrors.holds_iff.mp known)
  · rename_i fresh
    have outside : id ∉ loaded.map (·.id) := mt mirrors.holds_iff.mpr fresh
    obtain ⟨m, found, rfl, rfl⟩ := meet_ok ok
    refine ⟨[m], .asked leads outside (request_iff.mpr found), ⟨?_, ?_⟩, rfl⟩
    · rw [ids_await, mirrors.ids, List.map_append]
      rfl
    · rw [ids_await, ← mirrors.requests]
      rfl

end Mirrors

/-- A course that has loaded what a discovery found, with some includes of a module next. -/
structure Faces (lib : Library) (includeRoot root : String) (owner : Module) (deps : List Dependency)
    (d : Discovery) (loaded : List Module) (count : Nat) : Prop where
  course : Course lib includeRoot root count (.ok loaded)
  mirrors : Mirrors d loaded
  ahead : deps.map (owner, ·) <+: (agenda loaded).drop count

namespace Faces

variable {owner : Module} {dep : Dependency} {rest : List Dependency} {count : Nat}

theorem next (faces : Faces lib includeRoot root owner (dep :: rest) d loaded count) :
    (agenda loaded)[count]? = some (owner, dep) := by
  obtain ⟨behind, split⟩ := faces.ahead
  rw [← List.head?_drop, ← split]
  rfl

/-- A failed turn ends the course. -/
theorem fails {stop : Stop} (faces : Faces lib includeRoot root owner (dep :: rest) d loaded count)
    (turn : Turn lib includeRoot loaded owner dep (.error stop)) : Fails lib includeRoot root stop :=
  ⟨count + 1, .turn faces.course faces.next turn⟩

/-- What a turn loads goes behind all that is on the agenda. -/
theorem turn {met : Discovery} {found : List Module}
    (faces : Faces lib includeRoot root owner (dep :: rest) d loaded count)
    (turn : Turn lib includeRoot loaded owner dep (.ok (loaded ++ found)))
    (mirrors : Mirrors met (loaded ++ found)) :
    Faces lib includeRoot root owner rest met (loaded ++ found) (count + 1) where
  course := .turn faces.course faces.next turn
  mirrors := mirrors
  ahead := by
    have inside := (List.getElem?_eq_some_iff.mp faces.next).1
    have later : rest.map (owner, ·) <+: (agenda loaded).drop (count + 1) := by
      obtain ⟨behind, split⟩ := faces.ahead
      rw [← List.tail_drop, ← split]
      exact List.prefix_append ..
    rw [agenda_append, List.drop_append_of_le_length inside]
    exact later.trans (List.prefix_append ..)

end Faces

/-- Where the includes of a module cannot all be followed, the course fails. -/
theorem follow_error {owner : Module} {deps : List Dependency} {count : Nat} {stop : Stop}
    (faces : Faces lib includeRoot root owner deps d loaded count)
    (failed : follow lib includeRoot owner.id deps d = .error stop) :
    Fails lib includeRoot root stop := by
  fun_induction follow lib includeRoot owner.id deps d generalizing loaded count with
  | case1 d => simp at failed
  | case2 dep rest d fault refusal =>
    obtain rfl := Except.error.inj failed
    rw [faces.mirrors.requests, faces.mirrors.ids]
    exact faces.fails (.astray refusal)
  | case3 dep rest d id resolved stopped step =>
    obtain rfl := Except.error.inj failed
    exact faces.fails (faces.mirrors.turn_of_error (Library.leads_iff.mpr resolved) step)
  | case4 dep rest d id resolved met step stopped outcome ih =>
    obtain rfl := Except.error.inj failed
    obtain ⟨found, turn, mirrors, -⟩ :=
      faces.mirrors.turn_of_ok (Library.leads_iff.mpr resolved) step
    exact ih (faces.turn turn mirrors) outcome
  | case5 => simp at failed

/-- Where they can, the course takes a turn for each of them. -/
theorem follow_course {owner : Module} {deps followed : List Dependency} {count : Nat}
    {last : Discovery} (faces : Faces lib includeRoot root owner deps d loaded count)
    (ok : follow lib includeRoot owner.id deps d = .ok (followed, last)) :
    ∃ found, Course lib includeRoot root (count + deps.length) (.ok (loaded ++ found)) ∧
      Mirrors last (loaded ++ found) ∧ last.waiting = d.waiting ++ found := by
  fun_induction follow lib includeRoot owner.id deps d generalizing loaded count followed with
  | case1 d =>
    obtain ⟨-, rfl⟩ := Prod.mk.inj (Except.ok.inj ok)
    exact ⟨[], by simpa using faces.course, by simpa using faces.mirrors, by simp⟩
  | case2 => simp at ok
  | case3 => simp at ok
  | case4 => simp at ok
  | case5 dep rest d id resolved met step followed' last' outcome ih =>
    obtain ⟨-, rfl⟩ := Prod.mk.inj (Except.ok.inj ok)
    obtain ⟨found, turn, mirrors, waiting⟩ :=
      faces.mirrors.turn_of_ok (Library.leads_iff.mpr resolved) step
    obtain ⟨more, course, mirrors', waiting'⟩ := ih (faces.turn turn mirrors) outcome
    rw [List.append_assoc] at course mirrors'
    refine ⟨found ++ more, ?_, mirrors', by rw [waiting', waiting, List.append_assoc]⟩
    rwa [List.length_cons, Nat.add_comm rest.length, ← Nat.add_assoc]

/-- A course that has followed the includes of the expanded modules and of no others. -/
def Underway (lib : Library) (includeRoot root : String) (d : Discovery) : Prop :=
  ∃ raw, Course lib includeRoot root (agenda raw).length (.ok (raw ++ d.waiting)) ∧
    Mirrors d (raw ++ d.waiting)

theorem fails_of_meet_root {stop : Stop} (failed : start.meet lib none root = .error stop) :
    Fails lib includeRoot root stop := by
  obtain ⟨e, refused, rfl⟩ := meet_error failed
  exact ⟨0, .start (request_iff.mpr refused)⟩

theorem underway_of_meet_root (ok : start.meet lib none root = .ok d) :
    Underway lib includeRoot root d := by
  obtain ⟨m, found, rfl, rfl⟩ := meet_ok ok
  exact ⟨[], .start (request_iff.mpr found), rfl, rfl⟩

namespace Underway

variable {first : Module} {rest : List Module}

/-- The includes of the first waiting module come next. -/
theorem faces (underway : Underway lib includeRoot root d) (front : d.waiting = first :: rest) :
    ∃ raw, Faces lib includeRoot root first first.dependencies d (raw ++ d.waiting)
      (agenda raw).length := by
  obtain ⟨raw, course, mirrors⟩ := underway
  refine ⟨raw, course, mirrors, ?_⟩
  rw [front, agenda_append, List.drop_left]
  exact List.prefix_append ..

theorem fails {stop : Stop} (underway : Underway lib includeRoot root d)
    (front : d.waiting = first :: rest)
    (failed : Discovery.expandFirst lib includeRoot first d = .error stop) :
    Fails lib includeRoot root stop := by
  obtain ⟨raw, faces⟩ := underway.faces front
  exact follow_error faces (expandFirst_error failed)

theorem expandFirst {next : Discovery} (underway : Underway lib includeRoot root d)
    (front : d.waiting = first :: rest)
    (ok : Discovery.expandFirst lib includeRoot first d = .ok next) :
    Underway lib includeRoot root next := by
  obtain ⟨raw, faces⟩ := underway.faces front
  obtain ⟨followed, met, outcome, rfl⟩ := expandFirst_ok ok
  obtain ⟨found, course, mirrors, waiting⟩ := follow_course faces outcome
  have front' : met.waiting = first :: (rest ++ found) := by simp [waiting, front]
  have split : raw ++ d.waiting ++ found = (raw ++ [first]) ++ met.waiting.tail := by
    simp [front', front]
  have same : (met.promote { first with dependencies := followed }).ids = met.ids :=
    ids_promote front' rfl
  rw [split] at course mirrors
  refine ⟨raw ++ [first], ?_, ?_, ?_⟩
  · simpa [agenda] using course
  · rw [same]
    exact mirrors.ids
  · rw [same]
    exact mirrors.requests

end Underway

theorem length_expanded_expandFirst {first : Module} {next : Discovery}
    (ok : expandFirst lib includeRoot first d = .ok next) :
    next.expanded.length = d.expanded.length + 1 := by
  obtain ⟨followed, met, outcome, rfl⟩ := expandFirst_ok ok
  simp [(follow_ok outcome).2.expanded]

/-- Every id that a discovery has found was fetched. -/
theorem Invariant.fetched (valid : Invariant lib includeRoot root d) {id : String} (found : id ∈ d.ids) :
    ∃ text, lib.fetch id = .ok text := by
  obtain ⟨m, member, rfl⟩ := List.mem_map.mp found
  rcases List.mem_append.mp member with expanded | waiting
  · obtain ⟨read, ⟨text, fetched, -⟩, deps, -, rfl⟩ := valid.followed m expanded
    exact ⟨text, fetched⟩
  · obtain ⟨text, fetched, -⟩ := valid.held m waiting
    exact ⟨text, fetched⟩

/-- A discovery that was cut off: it had found more modules than the library's capacity allows. -/
def CutOff (lib : Library) (includeRoot root : String) (stop : Stop) : Prop :=
  ∃ d, Invariant lib includeRoot root d ∧ lib.capacity < d.ids.length ∧
    stop = ⟨.tooManyModules lib.capacity, d.ids⟩

theorem CutOff.not_roomy {stop : Stop} (cut : CutOff lib includeRoot root stop) : ¬ lib.Roomy := by
  obtain ⟨d, valid, more, -⟩ := cut
  intro roomy
  have fits := roomy d.ids valid.ids_distinct fun id found => valid.fetched found
  exact Nat.not_lt.mpr fits more

/-- The queue stops where the course fails, or for want of capacity. -/
theorem expandAll_error {capacity : Nat} {stop : Stop} (valid : Invariant lib includeRoot root d)
    (underway : Underway lib includeRoot root d)
    (left : lib.capacity ≤ d.expanded.length + capacity)
    (failed : expandAll lib includeRoot capacity d = .error stop) :
    Fails lib includeRoot root stop ∨ CutOff lib includeRoot root stop := by
  induction capacity generalizing d with
  | zero =>
    unfold expandAll at failed
    split at failed
    · simp at failed
    · rename_i first rest front
      obtain rfl := Except.error.inj failed
      have more : lib.capacity < d.ids.length := by
        simp only [ids, modules, front, List.length_map, List.length_append, List.length_cons]
        omega
      exact .inr ⟨d, valid, more, by rw [valid.requests]⟩
  | succ capacity ih =>
    unfold expandAll at failed
    split at failed
    · simp at failed
    · rename_i first rest front
      dsimp only at failed
      split at failed
      · obtain rfl := Except.error.inj failed
        exact .inl (underway.fails front ‹_›)
      · rename_i next ok
        have more := length_expanded_expandFirst ok
        exact ih (valid.expandFirst front ok) (underway.expandFirst front ok) (by omega) failed

theorem run_error {stop : Stop} (failed : run lib includeRoot root = .error stop) :
    Fails lib includeRoot root stop ∨ CutOff lib includeRoot root stop := by
  unfold run at failed
  split at failed
  · obtain rfl := Except.error.inj failed
    exact .inl (fails_of_meet_root ‹_›)
  · rename_i d ok
    exact expandAll_error (meet_root ok) (underway_of_meet_root ok) (Nat.le_add_left ..) failed

/-- A discovery that succeeds has taken the course to its end. -/
theorem run_ends (ok : run lib includeRoot root = .ok d) :
    ∃ loaded, Ends lib includeRoot root loaded := by
  unfold run at ok
  split at ok
  · simp at ok
  · rename_i first met
    have begun : Underway lib includeRoot root first := underway_of_meet_root met
    obtain ⟨⟨raw, course, -⟩, done⟩ := expandAll_ok
      (fun d first rest next underway front expanded => underway.expandFirst front expanded) begun ok
    rw [done, List.append_nil] at course
    exact ⟨raw, course⟩

/-- The outcome of a discovery in a roomy library is that of its course. -/
theorem run_eq_error_iff (roomy : lib.Roomy) {stop : Stop} :
    run lib includeRoot root = .error stop ↔ Fails lib includeRoot root stop := by
  constructor
  · intro failed
    exact (run_error failed).resolve_right fun cut => cut.not_roomy roomy
  · intro fails
    cases outcome : run lib includeRoot root with
    | error other =>
      rcases run_error outcome with fails' | cut
      · rw [fails.unique fails']
      · exact absurd roomy cut.not_roomy
    | ok d =>
      obtain ⟨loaded, ends⟩ := run_ends outcome
      exact absurd ends fails.not_ends

end ShaderBundle.Discovery
